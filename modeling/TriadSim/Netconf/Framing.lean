import TriadSim.Errors
import TriadSim.Go.Hex
import TriadSim.Library.Results

/-!
# Message framing

`internal/netconf/framing.go`: the two ways to mark the end of a message on a session, as readers
of a stream of bytes and as the bytes that are written.  RFC 6242, which the framing follows,
writes the size of a chunk in decimal; the code reads and writes it in hexadecimal.  Messages that
the code writes are read back by the code, and the frames of the RFC are the same as those of the
code as long as a size has one digit.  The main results are `readMessages_writeMessages` and
`readMessage_rfcFrame_iff_short_chunks`.
-/

namespace TriadSim
namespace Netconf

open Go Library

/-- `framingMode`. -/
inductive FramingMode where
  | eom
  | chunked
  deriving DecidableEq, Repr

/-- `endOfMessage`. -/
def endOfMessage : GoString := "]]>]]>"

/-- `maxMessageSize`. -/
def maxMessageSize : Nat := 16 * 2 ^ 20

/-- `errMalformedFrame`. -/
def errMalformedFrame : Err :=
  .sentinel (.external "netconf: malformed frame")

/-- `errMessageTooBig`. -/
def errMessageTooBig : Err :=
  .sentinel (.external "netconf: message too big")

/-- `io.EOF`. -/
def endOfFile : Err :=
  .sentinel (.external "EOF")

/-- `io.ErrUnexpectedEOF`. -/
def unexpectedEndOfFile : Err :=
  .sentinel (.external "unexpected EOF")

/-! ## Reading

A reader takes the bytes that are still to come and answers with what it has read and the
bytes behind it.  A session ends with the first error. -/

/-- `ReadByte`. -/
def readByte : GoString → Except Err (UInt8 × GoString)
  | [] => .error endOfFile
  | byte :: rest => .ok (byte, rest)

/-- `io.ReadFull` into a buffer of some size. -/
def readFull (size : Nat) (stream : GoString) : Except Err (GoString × GoString) :=
  if size ≤ stream.length then .ok (stream.take size, stream.drop size)
  else if stream = [] then .error endOfFile
  else .error unexpectedEndOfFile

/-- The loop of `readEOM`. -/
def readEOMLoop (message : GoString) : GoString → Except Err (GoString × GoString)
  | [] => .error endOfFile
  | byte :: rest =>
    let message := message ++ [byte]
    if maxMessageSize < message.length then .error errMessageTooBig
    else if hasSuffix message endOfMessage then
      .ok (message.take (message.length - endOfMessage.length), rest)
    else readEOMLoop message rest

/-- `readEOM`. -/
def readEOM (stream : GoString) : Except Err (GoString × GoString) :=
  readEOMLoop [] stream

/-- The byte behind an optional line feed. -/
def skipLineFeed (first : UInt8) (rest : GoString) : Except Err (UInt8 × GoString) :=
  if first = 10 then readByte rest else .ok (first, rest)

/-- `expectChunkStart`. -/
def expectChunkStart (stream : GoString) : Except Err GoString := do
  let (first, rest) ← readByte stream
  let (byte, rest) ← skipLineFeed first rest
  if byte ≠ 35 then
    .error (errMalformedFrame ++ .text ": expected '#', got " ++ .piece (.quotedByte byte))
  else .ok rest

/-- The loop of `readChunkSize`, up to the closing line feed. -/
def readSizeDigits (digits : GoString) : GoString → Except Err (GoString × GoString)
  | [] => .error endOfFile
  | byte :: rest =>
    if byte = 10 then .ok (digits, rest)
    else if 8 < (digits ++ [byte]).length then
      .error (errMalformedFrame ++ .text ": chunk size out of range")
    else readSizeDigits (digits ++ [byte]) rest

/-- `readChunkSize`; there is no size at the end of the chunks. -/
def readChunkSize (stream : GoString) : Except Err (Option Nat × GoString) := do
  let (first, rest) ← readByte stream
  if first = 35 then do
    let (byte, rest) ← readByte rest
    if byte ≠ 10 then .error (errMalformedFrame ++ .text ": malformed end-of-chunks")
    else .ok (none, rest)
  else do
    let (digits, rest) ← readSizeDigits [first] rest
    match parseHex 32 digits with
    | none =>
      .error (errMalformedFrame ++ .text ": chunk size " ++ .piece (.quoted digits) ++
        .text " is not hexadecimal")
    | some size => .ok (some size, rest)

/-- The loop of `readChunked`, for a bounded number of rounds.  A round takes at least one
byte from the stream. -/
def readChunkedLoop : Nat → GoString → GoString → Except Err (GoString × GoString)
  | 0, _, _ => .error endOfFile
  | rounds + 1, message, stream => do
      let rest ← expectChunkStart stream
      let (size, rest) ← readChunkSize rest
      match size with
      | none => .ok (message, rest)
      | some size =>
        if maxMessageSize - message.length < size then .error errMessageTooBig
        else do
          let (chunk, rest) ← readFull size rest
          readChunkedLoop rounds (message ++ chunk) rest

/-- `readChunked`. -/
def readChunked (stream : GoString) : Except Err (GoString × GoString) :=
  readChunkedLoop (stream.length + 1) [] stream

/-- `ReadMessage`. -/
def readMessage : FramingMode → GoString → Except Err (GoString × GoString)
  | .chunked, stream => readChunked stream
  | .eom, stream => readEOM stream

/-- Some messages, one after another. -/
def readMessages (mode : FramingMode) : Nat → GoString → Except Err (List GoString × GoString)
  | 0, stream => .ok ([], stream)
  | count + 1, stream => do
      let (message, rest) ← readMessage mode stream
      let (messages, rest) ← readMessages mode count rest
      return (message :: messages, rest)

/-! ## Writing -/

/-- A chunk with the text of its size. -/
def sizedChunk (size chunk : GoString) : GoString :=
  10 :: 35 :: size ++ 10 :: chunk

/-- The end of the chunks. -/
def endOfChunks : GoString := [10, 35, 35, 10]

/-- `WriteMessage`: the bytes it writes in one call. -/
def writeMessage : FramingMode → GoString → GoString
  | .eom, message => message ++ endOfMessage
  | .chunked, message => sizedChunk (formatHex message.length) message ++ endOfChunks

/-- The frame of RFC 6242 for a message cut into chunks. -/
def rfcFrame (chunks : List GoString) : GoString :=
  chunks.flatMap (fun chunk => sizedChunk (formatNat chunk.length) chunk) ++ endOfChunks

/-! ## Reading a frame

What each reader makes of the bytes it is meant for, and of nothing else. -/

variable {rest message : GoString}

theorem readFull_append (chunk rest : GoString) :
    readFull chunk.length (chunk ++ rest) = .ok (chunk, rest) := by
  have hLength : chunk.length ≤ (chunk ++ rest).length := by simp
  rw [readFull, if_pos hLength, List.take_left, List.drop_left]

theorem readSizeDigits_append {digits more : GoString} (hLineFeed : ∀ byte ∈ more, byte ≠ 10)
    (hLength : (digits ++ more).length ≤ 8) :
    readSizeDigits digits (more ++ 10 :: rest) = .ok (digits ++ more, rest) := by
  induction more generalizing digits with
  | nil => simp [readSizeDigits]
  | cons byte more ih =>
    have hByte : byte ≠ 10 := hLineFeed byte List.mem_cons_self
    have hSplit : digits ++ byte :: more = (digits ++ [byte]) ++ more := by simp
    rw [hSplit] at hLength ⊢
    have hShort : ¬ 8 < (digits ++ [byte]).length := by
      rw [List.length_append] at hLength
      omega
    rw [List.cons_append, readSizeDigits, if_neg hByte, if_neg hShort]
    exact ih (fun other hOther => hLineFeed other (List.mem_cons_of_mem byte hOther)) hLength

/-- The text of a size that the reader takes for a number. -/
structure SizeText (size : GoString) (n : Nat) : Prop where
  nonempty : size ≠ []
  length : size.length ≤ 8
  bytes : ∀ byte ∈ size, byte ≠ 10 ∧ byte ≠ 35
  value : parseHex 32 size = some n

theorem readChunkSize_sizeText {size : GoString} {n : Nat} (hSize : SizeText size n) :
    readChunkSize (size ++ 10 :: rest) = .ok (some n, rest) := by
  obtain ⟨hSome, hLength, hBytes, hValue⟩ := hSize
  cases size with
  | nil => exact absurd rfl hSome
  | cons first more =>
    have hFirst : first ≠ 35 := (hBytes first List.mem_cons_self).2
    have hMore : ∀ byte ∈ more, byte ≠ 10 :=
      fun byte hByte => (hBytes byte (List.mem_cons_of_mem first hByte)).1
    have hDigits : readSizeDigits [first] (more ++ 10 :: rest) = .ok (first :: more, rest) :=
      readSizeDigits_append hMore hLength
    simp only [readChunkSize, readByte, List.cons_append, bind, Except.bind, hFirst, if_false,
      hDigits, hValue]

theorem expectChunkStart_sizedChunk (size chunk rest : GoString) :
    expectChunkStart (sizedChunk size chunk ++ rest) = .ok (size ++ 10 :: (chunk ++ rest)) := by
  simp [expectChunkStart, skipLineFeed, sizedChunk, readByte, bind, Except.bind]

/-- A round reads one chunk. -/
theorem readChunkedLoop_sizedChunk {size chunk : GoString} (rounds : Nat)
    (hSize : SizeText size chunk.length) (hFits : message.length + chunk.length ≤ maxMessageSize) :
    readChunkedLoop (rounds + 1) message (sizedChunk size chunk ++ rest) =
      readChunkedLoop rounds (message ++ chunk) rest := by
  have hRoom : ¬ maxMessageSize - message.length < chunk.length := by omega
  simp only [readChunkedLoop, expectChunkStart_sizedChunk, bind, Except.bind,
    readChunkSize_sizeText hSize, hRoom, if_false, readFull_append]

/-- The last round reads the end of the chunks. -/
theorem readChunkedLoop_endOfChunks (rounds : Nat) (message rest : GoString) :
    readChunkedLoop (rounds + 1) message (endOfChunks ++ rest) = .ok (message, rest) := by
  rfl

/-- A frame whose chunks carry their sizes is read to its end and no further.  The
induction is on the chunks: what has been read is in front of what is still to come. -/
theorem readChunkedLoop_chunks (sizeOf : GoString → GoString) (chunks : List GoString)
    (hSizes : ∀ chunk ∈ chunks, SizeText (sizeOf chunk) chunk.length) (rounds : Nat)
    (hRounds : chunks.length < rounds) (message rest : GoString)
    (hFits : message.length + chunks.flatten.length ≤ maxMessageSize) :
    readChunkedLoop rounds message
        (chunks.flatMap (fun chunk => sizedChunk (sizeOf chunk) chunk) ++ endOfChunks ++ rest) =
      .ok (message ++ chunks.flatten, rest) := by
  induction chunks generalizing rounds message with
  | nil =>
    obtain ⟨left, rfl⟩ : ∃ left, rounds = left + 1 := ⟨rounds - 1, by simp at hRounds; omega⟩
    simpa using readChunkedLoop_endOfChunks left message rest
  | cons chunk more ih =>
    obtain ⟨left, rfl⟩ : ∃ left, rounds = left + 1 := ⟨rounds - 1, by simp at hRounds; omega⟩
    rw [List.flatten_cons, List.length_append] at hFits
    rw [List.flatMap_cons, List.append_assoc, List.append_assoc,
      readChunkedLoop_sizedChunk left (hSizes chunk List.mem_cons_self) (by omega),
      ← List.append_assoc, ih]
    · rw [List.flatten_cons, List.append_assoc]
    · exact fun other hOther => hSizes other (List.mem_cons_of_mem chunk hOther)
    · rw [List.length_cons] at hRounds
      omega
    · rw [List.length_append]
      omega

/-- A chunk has at least one byte for every round beside its own. -/
theorem length_le_length_flatMap (sizeOf : GoString → GoString) (chunks : List GoString) :
    chunks.length + chunks.flatten.length ≤
      (chunks.flatMap fun chunk => sizedChunk (sizeOf chunk) chunk).length := by
  induction chunks with
  | nil => exact Nat.le_refl 0
  | cons chunk more ih =>
    rw [List.flatMap_cons, List.length_append, List.length_cons, List.flatten_cons,
      List.length_append]
    have hChunk : 1 + chunk.length ≤ (sizedChunk (sizeOf chunk) chunk).length := by
      simp [sizedChunk]
      omega
    omega

theorem readChunked_chunks (sizeOf : GoString → GoString) (chunks : List GoString)
    (hSizes : ∀ chunk ∈ chunks, SizeText (sizeOf chunk) chunk.length) (rest : GoString)
    (hFits : chunks.flatten.length ≤ maxMessageSize) :
    readChunked
        (chunks.flatMap (fun chunk => sizedChunk (sizeOf chunk) chunk) ++ endOfChunks ++ rest) =
      .ok (chunks.flatten, rest) := by
  have hRounds := length_le_length_flatMap sizeOf chunks
  refine readChunkedLoop_chunks sizeOf chunks hSizes _ ?_ [] rest (by simpa using hFits)
  rw [List.length_append, List.length_append]
  omega

/-- The size that `WriteMessage` writes is read as the length of the message. -/
theorem sizeText_formatHex {n : Nat} (hFits : n ≤ maxMessageSize) : SizeText (formatHex n) n where
  nonempty := formatHex_ne_nil n
  length := length_formatHex_le (by omega) (by unfold maxMessageSize at hFits; omega)
  bytes _ hByte := formatHex_bytes hByte
  value := parseHex_formatHex (by unfold maxMessageSize at hFits; omega)

/-! ## The frames of the RFC -/

theorem formatNat_bytes {n : Nat} {byte : UInt8} (hByte : byte ∈ formatNat n) :
    byte ≠ 10 ∧ byte ≠ 35 := by
  have hDigit := isDigit_of_mem_formatNat hByte
  constructor
  · rintro rfl
    cases hDigit
  · rintro rfl
    cases hDigit

/-- The size of the RFC is read as another number, unless it has one digit. -/
theorem sizeText_formatNat {n : Nat} (hFits : n ≤ maxMessageSize) :
    SizeText (formatNat n) (decimalAsHex n) where
  nonempty := formatNat_ne_nil n
  length := length_formatNat_le (by omega) (by unfold maxMessageSize at hFits; omega)
  bytes _ hByte := formatNat_bytes hByte
  value := parseHex_formatNat (by unfold maxMessageSize at hFits; omega)

/-- What the loop has collected stays in front of what it answers. -/
theorem isPrefix_of_readChunkedLoop_eq_ok {rounds : Nat} {stream found left : GoString}
    (hRead : readChunkedLoop rounds message stream = .ok (found, left)) : message <+: found := by
  induction rounds generalizing message stream with
  | zero => cases hRead
  | succ rounds ih =>
    simp only [readChunkedLoop] at hRead
    obtain ⟨_, _, hRead⟩ := bind_eq_ok_iff.mp hRead
    obtain ⟨⟨size, _⟩, _, hRead⟩ := bind_eq_ok_iff.mp hRead
    cases size with
    | none =>
      cases hRead
      exact List.prefix_refl _
    | some size =>
      simp only at hRead
      split at hRead
      · cases hRead
      · obtain ⟨⟨chunk, _⟩, _, hRead⟩ := bind_eq_ok_iff.mp hRead
        exact (List.prefix_append message chunk).trans (ih hRead)

/-- The byte behind a chunk is taken for a part of the chunk when the size is too large. -/
theorem mem_of_readFull_eq_ok {size : Nat} {chunk read left : GoString} {byte : UInt8}
    (hLarge : chunk.length < size)
    (hRead : readFull size (chunk ++ byte :: rest) = .ok (read, left)) : byte ∈ read := by
  unfold readFull at hRead
  split at hRead
  · cases hRead
    obtain ⟨more, rfl⟩ := Nat.exists_eq_add_of_lt hLarge
    rw [Nat.add_assoc, List.take_length_add_append]
    simp
  · split at hRead <;> cases hRead

/-- Behind the size of every chunk of a frame there is a line feed. -/
theorem rfcFrame_eq_lineFeed_cons (chunks : List GoString) :
    ∃ more, rfcFrame chunks = 10 :: more := by
  cases chunks with
  | nil => exact ⟨_, rfl⟩
  | cons chunk chunks => exact ⟨_, rfl⟩

theorem rfcFrame_cons (chunk : GoString) (chunks : List GoString) :
    rfcFrame (chunk :: chunks) = sizedChunk (formatNat chunk.length) chunk ++ rfcFrame chunks := by
  simp [rfcFrame]

/-- A long chunk is read past its end, so that a line feed of the frame gets into the message.
The induction is on the chunks; the short ones in front of the long one are read as they are. -/
theorem lineFeed_mem_of_long_chunk {chunks : List GoString} {rounds : Nat} {found left : GoString}
    (hLong : ∃ chunk ∈ chunks, 9 < chunk.length)
    (hFits : message.length + chunks.flatten.length ≤ maxMessageSize)
    (hRead : readChunkedLoop rounds message (rfcFrame chunks ++ rest) = .ok (found, left)) :
    10 ∈ found := by
  induction chunks generalizing rounds message with
  | nil => simp at hLong
  | cons chunk chunks ih =>
    rw [List.flatten_cons, List.length_append] at hFits
    rw [rfcFrame_cons, List.append_assoc] at hRead
    cases rounds with
    | zero => cases hRead
    | succ rounds =>
      by_cases hShort : chunk.length ≤ 9
      · have hSize := sizeText_formatHex (n := chunk.length) (by omega)
        rw [formatHex_of_lt_ten (by omega)] at hSize
        rw [readChunkedLoop_sizedChunk rounds hSize (by omega)] at hRead
        refine ih ?_ ?_ hRead
        · simpa [Nat.not_lt.mpr hShort] using hLong
        · rw [List.length_append]
          omega
      · obtain ⟨more, hMore⟩ := rfcFrame_eq_lineFeed_cons chunks
        rw [hMore] at hRead
        simp only [readChunkedLoop, expectChunkStart_sizedChunk, bind, Except.bind,
          readChunkSize_sizeText (sizeText_formatNat (n := chunk.length) (by omega))] at hRead
        split at hRead
        · cases hRead
        · obtain ⟨⟨read, _⟩, hFull, hRead⟩ := bind_eq_ok_iff.mp hRead
          have hByte := mem_of_readFull_eq_ok (lt_decimalAsHex (by omega)) hFull
          exact (isPrefix_of_readChunkedLoop_eq_ok hRead).subset
            (List.mem_append_right message hByte)

/-- Two chunks that begin a stream have the same size in it. -/
theorem sizedChunk_append_inj {size other chunk piece more : GoString}
    (hSize : ∀ byte ∈ size, byte ≠ 10) (hOther : ∀ byte ∈ other, byte ≠ 10)
    (hSame : sizedChunk size chunk ++ rest = sizedChunk other piece ++ more) :
    size = other ∧ chunk ++ rest = piece ++ more := by
  simp only [sizedChunk, List.cons_append, List.cons.injEq, true_and, List.append_assoc] at hSame
  have hFirst := congrArg (List.takeWhile (· ≠ 10)) hSame
  rw [List.takeWhile_append_of_pos (by simpa using hSize),
    List.takeWhile_append_of_pos (by simpa using hOther)] at hFirst
  simp only [ne_eq, not_true_eq_false, decide_false, Bool.false_eq_true, not_false_eq_true,
    List.takeWhile_cons_of_neg, List.append_nil] at hFirst
  subst hFirst
  exact ⟨rfl, List.tail_eq_of_cons_eq (List.append_cancel_left hSame)⟩

/-- The frame of a non-empty message that is a frame of the RFC has one chunk: the bytes behind
the first size are the message and the end in the one, and more than that in the other. -/
theorem length_le_nine_of_rfcFrame {pieces : List GoString} (hCut : pieces.flatten = message)
    (hMessage : message ≠ []) (hFrame : writeMessage .chunked message = rfcFrame pieces) :
    message.length ≤ 9 := by
  cases pieces with
  | nil => exact absurd hCut.symm hMessage
  | cons piece pieces =>
    rw [rfcFrame_cons] at hFrame
    obtain ⟨hSizes, hRest⟩ := sizedChunk_append_inj (fun _ hByte => (formatHex_bytes hByte).1)
      (fun _ hByte => (formatNat_bytes hByte).1) hFrame
    have hMore := length_le_length_flatMap (fun chunk => formatNat chunk.length) pieces
    have hLength := congrArg List.length hRest
    rw [rfcFrame, List.length_append, List.length_append, List.length_append, ← hCut,
      List.flatten_cons, List.length_append] at hLength
    obtain rfl : pieces = [] := List.eq_nil_of_length_eq_zero (by omega)
    obtain rfl : piece = message := by simpa using hCut
    have hValue := congrArg (hexValue 0) hSizes
    rw [hexValue_formatHex, hexValue_formatNat, Option.some.injEq] at hValue
    by_contra hLong
    have hLess := lt_decimalAsHex (Nat.not_le.mp hLong)
    omega

/-- A chunk of some size that has no line feed. -/
def letters (size : Nat) : GoString :=
  List.replicate size 120

/-- All messages that are cut into chunks of some sizes are read as the RFC frames them exactly if
none of the sizes has more than one digit, and `WriteMessage` writes such a frame exactly if the
length of the message has one digit. -/
theorem readMessage_rfcFrame_iff_short_chunks (sizes : List Nat)
    (hFits : sizes.sum ≤ maxMessageSize) (message : GoString) (hMessage : message ≠ []) :
    ((∀ chunks : List GoString, chunks.map List.length = sizes → ∀ rest,
        readMessage .chunked (rfcFrame chunks ++ rest) = .ok (chunks.flatten, rest)) ↔
      ∀ size ∈ sizes, size ≤ 9) ∧
    ((∃ pieces : List GoString, pieces.flatten = message ∧ (∀ piece ∈ pieces, piece ≠ []) ∧
        writeMessage .chunked message = rfcFrame pieces) ↔
      message.length ≤ 9) := by
  refine ⟨⟨?_, ?_⟩, ?_, ?_⟩
  · intro hRead size hSize
    by_contra hLong
    have hLengths : (sizes.map letters).map List.length = sizes := by
      simp [letters, Function.comp_def]
    have hChunks := hRead (sizes.map letters) hLengths []
    have hSome : ∃ chunk ∈ sizes.map letters, 9 < chunk.length :=
      ⟨letters size, List.mem_map_of_mem hSize, by simp [letters]; omega⟩
    have hTotal : (text "").length + (sizes.map letters).flatten.length ≤ maxMessageSize := by
      rw [List.length_flatten, hLengths]
      exact (Nat.zero_add _).trans_le hFits
    have hByte := lineFeed_mem_of_long_chunk hSome hTotal hChunks
    obtain ⟨chunk, hChunk, hByte⟩ := List.mem_flatten.mp hByte
    obtain ⟨other, _, rfl⟩ := List.mem_map.mp hChunk
    cases List.eq_of_mem_replicate hByte
  · rintro hShort chunks rfl rest
    rw [← List.length_flatten] at hFits
    refine readChunked_chunks (fun chunk => formatNat chunk.length) chunks ?_ rest hFits
    intro chunk hChunk
    have hLength := hShort chunk.length (List.mem_map_of_mem hChunk)
    rw [← formatHex_of_lt_ten (by omega)]
    exact sizeText_formatHex (by unfold maxMessageSize; omega)
  · rintro ⟨pieces, hCut, _, hFrame⟩
    exact length_le_nine_of_rfcFrame hCut hMessage hFrame
  · intro hLength
    refine ⟨[message], by simp, by simpa using hMessage, ?_⟩
    simp [writeMessage, rfcFrame, formatHex_of_lt_ten (show message.length < 10 by omega)]

theorem readMessage_rfcFrame_two_chunks :
    readMessage .chunked (rfcFrame [text "<rpc", text "/>"] ++ text "next") =
        .ok (text "<rpc/>", text "next") ∧
      ∃ pieces : List GoString, pieces.flatten = text "<rpc/>" ∧ (∀ piece ∈ pieces, piece ≠ []) ∧
        writeMessage .chunked "<rpc/>" = rfcFrame pieces := by
  have hFrame := readMessage_rfcFrame_iff_short_chunks [4, 2] (by decide) "<rpc/>" (by decide)
  exact ⟨hFrame.1.mpr (by decide) [text "<rpc", text "/>"] rfl "next", hFrame.2.mpr (by decide)⟩

/-- A chunk of ten bytes has the size `10` in the RFC, which the reader takes for sixteen,
and the size `a` in the code, which is no size in the RFC. -/
theorem readMessage_fails_on_ten_byte_chunk :
    readMessage .chunked (rfcFrame ["0123456789"]) = .error unexpectedEndOfFile ∧
      ∀ chunks, writeMessage .chunked "0123456789" ≠ rfcFrame chunks := by
  constructor
  · decide +kernel
  · intro chunks hFrame
    cases chunks with
    | nil => exact absurd hFrame (by decide +kernel)
    | cons chunk more =>
      rw [rfcFrame_cons] at hFrame
      obtain ⟨hSize, _⟩ := sizedChunk_append_inj (fun _ hByte => (formatHex_bytes hByte).1)
        (fun _ hByte => (formatNat_bytes hByte).1) hFrame
      -- the byte of the size is no decimal digit
      have hByte : (97 : UInt8) ∈ formatHex 10 := by decide
      have hDigit := isDigit_of_mem_formatNat (hSize ▸ hByte)
      cases hDigit

/-! ## Messages that the code itself has framed -/

/-- The messages a mode can carry.  In end-of-message mode the delimiter does not show up
before the end of the frame. -/
def Carries : FramingMode → GoString → Prop
  | .chunked, message => message.length ≤ maxMessageSize
  | .eom, message =>
    (∀ before behind, message ++ endOfMessage = before ++ endOfMessage ++ behind → behind = []) ∧
      (message ++ endOfMessage).length ≤ maxMessageSize

theorem carries_chunked_iff (message : GoString) :
    Carries .chunked message ↔ message.length ≤ maxMessageSize :=
  Iff.rfl

/-- The loop of `readEOM` in the middle of a frame: what it has collected and what is left
make up the frame. -/
theorem readEOMLoop_frame {collected left : GoString} (hCarries : Carries .eom message)
    (hFrame : collected ++ left = message ++ endOfMessage) (hLeft : left ≠ []) :
    readEOMLoop collected (left ++ rest) = .ok (message, rest) := by
  induction left generalizing collected with
  | nil => exact absurd rfl hLeft
  | cons byte left ih =>
    have hNext : (collected ++ [byte]) ++ left = message ++ endOfMessage := by
      rw [← hFrame, List.append_assoc, List.singleton_append]
    have hLength : ¬ maxMessageSize < (collected ++ [byte]).length := by
      have hTotal := congrArg List.length hNext
      have hBound := hCarries.2
      rw [List.length_append] at hTotal
      omega
    rw [List.cons_append, readEOMLoop]
    simp only [hLength, if_false]
    by_cases hEnd : left = []
    · -- the whole frame has been collected
      subst hEnd
      rw [List.append_nil] at hNext
      rw [hNext]
      have hSuffix : hasSuffix (message ++ endOfMessage) endOfMessage = true := by
        simp [hasSuffix]
      simp [hSuffix]
    · have hSuffix : hasSuffix (collected ++ [byte]) endOfMessage = false := by
        by_contra hMatch
        have hTail : endOfMessage <:+ collected ++ [byte] := by
          simpa [hasSuffix] using hMatch
        obtain ⟨before, hBefore⟩ := hTail
        rw [← hBefore] at hNext
        exact hEnd (hCarries.1 before left hNext.symm)
      simp only [hSuffix]
      exact ih hNext hEnd

/-- A written message is read back, and the stream is left where the next one begins. -/
theorem readMessage_writeMessage {mode : FramingMode} (hCarries : Carries mode message)
    (rest : GoString) :
    readMessage mode (writeMessage mode message ++ rest) = .ok (message, rest) := by
  cases mode with
  | eom =>
    have hSome : message ++ endOfMessage ≠ [] :=
      List.append_ne_nil_of_right_ne_nil message (by decide)
    exact readEOMLoop_frame hCarries rfl hSome
  | chunked =>
    have hSizes : ∀ chunk ∈ [message], SizeText (formatHex chunk.length) chunk.length := by
      intro chunk hChunk
      rw [List.mem_singleton.mp hChunk]
      exact sizeText_formatHex hCarries
    have hRead := readChunked_chunks (fun chunk => formatHex chunk.length) [message] hSizes rest
      (by rw [List.flatten_singleton]; exact hCarries)
    simpa [writeMessage, readMessage] using hRead

/-- What has been written, message after message in one mode, is read back in the same mode,
message after message, and no byte is left. -/
theorem readMessages_writeMessages (mode : FramingMode) (messages : List GoString)
    (hCarries : ∀ message ∈ messages, Carries mode message) :
    readMessages mode messages.length (messages.flatMap (writeMessage mode)) =
      .ok (messages, []) := by
  induction messages with
  | nil => rfl
  | cons message more ih =>
    have hFirst := readMessage_writeMessage (hCarries message List.mem_cons_self)
      (more.flatMap (writeMessage mode))
    have hMore := ih fun other hOther => hCarries other (List.mem_cons_of_mem message hOther)
    simp only [List.length_cons, List.flatMap_cons, readMessages, hFirst, bind, Except.bind,
      hMore]
    rfl

theorem readMessages_two_replies :
    readMessages .chunked 2 (writeMessage .chunked "<ok/>" ++ writeMessage .chunked []) =
      .ok ([text "<ok/>", []], []) :=
  readMessages_writeMessages .chunked [text "<ok/>", []]
    (by simp only [carries_chunked_iff]; decide)

end Netconf
end TriadSim

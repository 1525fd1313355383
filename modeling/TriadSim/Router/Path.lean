import TriadSim.Errors
import TriadSim.Library.Results

/-!
# Model paths

`internal/router/path.go`: the canonical address `a/b[c=d]/e` of a node.  `Parse` and `String` are
inverse to each other, which is what lets the store address leaves by text while the router walks
segments.  The main result is `parse_and_pathText_inverse_on_paths`.
-/

namespace TriadSim
namespace Router

open Go Library

/-- One step of a model path: a node name with an optional list key predicate. -/
structure Segment where
  name : GoString
  key : GoString
  value : GoString
  deriving DecidableEq, Repr

namespace Segment

/-- The text of one segment. -/
def text (segment : Segment) : GoString :=
  if segment.key = [] then segment.name
  else segment.name ++ [91] ++ segment.key ++ [61] ++ segment.value ++ [93]

/-- The segments `Parse` produces: a name without an opening bracket, or a name
with a key and a value, all non-empty and free of brackets, the key also of the
equals sign. -/
def WellFormed (segment : Segment) : Prop :=
  segment.name ≠ [] ∧
    ((segment.key = [] ∧ segment.value = [] ∧ 91 ∉ segment.name) ∨
      (segment.key ≠ [] ∧ segment.value ≠ [] ∧ 61 ∉ segment.key ∧
        91 ∉ segment.name ∧ 93 ∉ segment.name ∧ 91 ∉ segment.key ∧ 93 ∉ segment.key ∧
        91 ∉ segment.value ∧ 93 ∉ segment.value))

end Segment

/-- The errors of `parseSegment`. -/
def emptySegment : Err :=
  .text "empty segment"

def malformedPredicate : Err :=
  .text "malformed list predicate"

/-- `parseSegment`: one slash-free path component. -/
def parseSegment (part : GoString) : Except Err Segment :=
  match cut part 91 with
  | none => if part = [] then .error emptySegment else .ok ⟨part, [], []⟩
  | some (name, tail) =>
    if !hasSuffix part [93] || part.count 91 ≠ 1 || part.count 93 ≠ 1 then
      .error malformedPredicate
    else
      let body := tail.dropLast
      match cut body 61 with
      | none => .error malformedPredicate
      | some (key, value) =>
        if name = [] || body = [] || key = [] || value = [] then .error malformedPredicate
        else if containsAny key [91, 93] || containsAny value [91, 93] then
          .error malformedPredicate
        else .ok ⟨name, key, value⟩

/-- The error of `Parse` for a path, with or without a reason. -/
def invalidPath (path : GoString) : Err :=
  .sentinel .routerInvalidPath ++ .text ": " ++ .piece (.quoted path)

/-- `Parse`. -/
def parse (s : GoString) : Except Err (List Segment) :=
  if s = [] then .error (.sentinel .routerInvalidPath ++ .text ": empty path")
  else if hasPrefix s [47] || hasSuffix s [47] || contains s [47, 47] then
    .error (invalidPath s)
  else
    match (split s 47).mapM parseSegment with
    | .ok segments => .ok segments
    | .error err => .error (invalidPath s ++ .text ": " ++ err.asText)

/-- `Path.String`. -/
def pathText (segments : List Segment) : GoString :=
  join (segments.map Segment.text) 47

/-! ## One segment -/

variable {s part : GoString} {segment : Segment} {segments : List Segment} {first second : GoString}

theorem containsAny_brackets_eq_false_iff :
    containsAny s [91, 93] = false ↔ 91 ∉ s ∧ 93 ∉ s := by
  simp only [containsAny, List.any_eq_false]
  constructor
  · intro hNone
    exact ⟨fun hMem => hNone 91 hMem (by decide), fun hMem => hNone 93 hMem (by decide)⟩
  · rintro ⟨hOpen, hClose⟩ byte hMem hBracket
    have hByte : byte = 91 ∨ byte = 93 := by simpa using hBracket
    rcases hByte with rfl | rfl
    · exact hOpen hMem
    · exact hClose hMem

/-- A part with one opening and one closing bracket, the closing one last, is a
name, the bracketed body and nothing else. -/
theorem bracketed_part {name tail : GoString}
    (hSuffix : hasSuffix (name ++ 91 :: tail) [93] = true)
    (hOpen : (name ++ 91 :: tail).count 91 = 1) (hClose : (name ++ 91 :: tail).count 93 = 1) :
    tail = tail.dropLast ++ [93] ∧ 93 ∉ name ∧ 91 ∉ tail.dropLast ∧ 93 ∉ tail.dropLast := by
  have hNonempty : tail ≠ [] := by
    rintro rfl
    rw [hasSuffix, List.isSuffixOf_iff_suffix] at hSuffix
    have hLast := hSuffix.getLast (by simp)
    simp at hLast
  have hTail : tail = tail.dropLast ++ [93] := by
    rw [hasSuffix, List.isSuffixOf_iff_suffix] at hSuffix
    have hLast := hSuffix.getLast (by simp)
    rw [List.getLast_append_of_ne_nil _ (List.cons_ne_nil _ _),
      List.getLast_cons hNonempty] at hLast
    have hDecompose := List.dropLast_append_getLast hNonempty
    rw [← hLast] at hDecompose
    simpa using hDecompose.symm
  refine ⟨hTail, ?_, ?_, ?_⟩
  · rw [hTail] at hClose
    simp only [List.count_append, List.count_cons, List.count_nil] at hClose
    exact List.count_eq_zero.mp (by simp at hClose; omega)
  · rw [hTail] at hOpen
    simp only [List.count_append, List.count_cons, List.count_nil] at hOpen
    exact List.count_eq_zero.mp (by simp at hOpen; omega)
  · rw [hTail] at hClose
    simp only [List.count_append, List.count_cons, List.count_nil] at hClose
    exact List.count_eq_zero.mp (by simp at hClose; omega)

/-- What `parseSegment` accepts is well formed and renders as the part. -/
theorem wellFormed_of_parseSegment_eq_ok (hParse : parseSegment part = .ok segment) :
    segment.WellFormed ∧ segment.text = part := by
  unfold parseSegment at hParse
  split at hParse
  · next hCut =>
    rw [cut_eq_none_iff] at hCut
    split at hParse
    · cases hParse
    · next hNonempty =>
      cases hParse
      exact ⟨⟨hNonempty, Or.inl ⟨rfl, rfl, hCut⟩⟩, rfl⟩
  · next name tail hCut =>
    obtain ⟨rfl, hName⟩ := cut_eq_some_iff.mp hCut
    split at hParse
    · cases hParse
    · next hBrackets =>
      simp only [Bool.or_eq_true, Bool.not_eq_true', decide_eq_true_eq, not_or, ne_eq,
        not_not, Bool.not_eq_false] at hBrackets
      obtain ⟨⟨hSuffix, hOpen⟩, hClose⟩ := hBrackets
      obtain ⟨hTail, hNameClose, hBodyOpen, hBodyClose⟩ :=
        bracketed_part hSuffix hOpen hClose
      dsimp only at hParse
      split at hParse
      · cases hParse
      · next key value hBody =>
        obtain ⟨hBodyEq, hKeyEq⟩ := cut_eq_some_iff.mp hBody
        split at hParse
        · cases hParse
        · next hEmpty =>
          simp only [Bool.or_eq_true, decide_eq_true_eq, not_or] at hEmpty
          obtain ⟨⟨⟨hNameNe, _⟩, hKeyNe⟩, hValueNe⟩ := hEmpty
          split at hParse
          · cases hParse
          · cases hParse
            rw [hBodyEq] at hBodyOpen hBodyClose
            simp only [List.mem_append, List.mem_cons, not_or] at hBodyOpen hBodyClose
            refine ⟨⟨hNameNe, Or.inr ⟨hKeyNe, hValueNe, hKeyEq, hName, hNameClose,
              hBodyOpen.1, hBodyClose.1, hBodyOpen.2.2, hBodyClose.2.2⟩⟩, ?_⟩
            rw [hTail, hBodyEq]
            simp [Segment.text, hKeyNe]

/-- A well-formed segment is what its text parses to. -/
theorem parseSegment_text (hWellFormed : segment.WellFormed) :
    parseSegment segment.text = .ok segment := by
  obtain ⟨name, key, value⟩ := segment
  obtain ⟨hName, ⟨rfl, rfl, hOpen⟩ | ⟨hKey, hValue, hKeyEq, hNameOpen, hNameClose, hKeyOpen,
    hKeyClose, hValueOpen, hValueClose⟩⟩ := hWellFormed
  · simp only at hName hOpen
    simp [parseSegment, Segment.text, cut_eq_none_iff.mpr hOpen, hName]
  · dsimp only at *
    have hText : Segment.text ⟨name, key, value⟩ =
        name ++ 91 :: (key ++ 61 :: value ++ [93]) := by
      simp [Segment.text, hKey]
    have hCut : cut (name ++ 91 :: (key ++ 61 :: value ++ [93])) 91 =
        some (name, key ++ 61 :: value ++ [93]) := cut_eq_some_iff.mpr ⟨rfl, hNameOpen⟩
    have hBody : cut (key ++ 61 :: value) 61 = some (key, value) :=
      cut_eq_some_iff.mpr ⟨rfl, hKeyEq⟩
    have hSuffix : hasSuffix (name ++ 91 :: (key ++ 61 :: value ++ [93])) [93] = true := by
      rw [hasSuffix, List.isSuffixOf_iff_suffix]
      exact ⟨name ++ 91 :: (key ++ 61 :: value), by simp⟩
    have hCountOpen : (name ++ 91 :: (key ++ 61 :: value ++ [93])).count 91 = 1 := by
      simp [List.count_append, List.count_eq_zero.mpr hNameOpen,
        List.count_eq_zero.mpr hKeyOpen, List.count_eq_zero.mpr hValueOpen]
    have hCountClose : (name ++ 91 :: (key ++ 61 :: value ++ [93])).count 93 = 1 := by
      simp [List.count_append, List.count_eq_zero.mpr hNameClose,
        List.count_eq_zero.mpr hKeyClose, List.count_eq_zero.mpr hValueClose]
    have hKeyAny := containsAny_brackets_eq_false_iff.mpr ⟨hKeyOpen, hKeyClose⟩
    have hValueAny := containsAny_brackets_eq_false_iff.mpr ⟨hValueOpen, hValueClose⟩
    simp only [parseSegment, hText, hCut, hSuffix, hCountOpen, hCountClose,
      List.dropLast_concat, hBody, hKeyAny, hValueAny]
    simp [hName, hKey, hValue]

/-! ## Whole paths -/

/-- The slash checks of `Parse` hold when no part between slashes is empty. -/
theorem slash_checks_of_nil_not_mem_split (hParts : [] ∉ split s 47) :
    s ≠ [] ∧ (hasPrefix s [47] || hasSuffix s [47] || contains s [47, 47]) = false := by
  refine ⟨?_, ?_⟩
  · rintro rfl
    exact hParts (by simp [split])
  · rw [Bool.or_eq_false_iff, Bool.or_eq_false_iff, ← Bool.not_eq_true, ← Bool.not_eq_true,
      ← Bool.not_eq_true]
    refine ⟨⟨?_, ?_⟩, ?_⟩
    · intro hLead
      rw [hasPrefix, List.isPrefixOf_iff_prefix] at hLead
      obtain ⟨rest, rfl⟩ := hLead
      refine hParts ?_
      have hSplit : split ([47] ++ rest) 47 = [] :: split rest 47 :=
        List.splitOn_append_cons_self [] rest
      rw [hSplit]
      exact List.mem_cons_self ..
    · intro hTrail
      rw [hasSuffix, List.isSuffixOf_iff_suffix] at hTrail
      obtain ⟨before, rfl⟩ := hTrail
      refine hParts ?_
      have hSplit : split (before ++ [47]) 47 = split before 47 ++ [[]] :=
        List.splitOn_append_cons_self before []
      rw [hSplit]
      simp
    · intro hDouble
      simp only [contains, List.any_eq_true] at hDouble
      obtain ⟨tail, hTail, hLead⟩ := hDouble
      rw [List.mem_tails] at hTail
      obtain ⟨before, rfl⟩ := hTail
      rw [List.isPrefixOf_iff_prefix] at hLead
      obtain ⟨rest, rfl⟩ := hLead
      refine hParts ?_
      have hSplit : split (before ++ ([47, 47] ++ rest)) 47 =
          split before 47 ++ split (47 :: rest) 47 :=
        List.splitOn_append_cons_self before (47 :: rest)
      have hInner : split (47 :: rest) 47 = [] :: split rest 47 :=
        List.splitOn_append_cons_self [] rest
      rw [hSplit, hInner]
      simp

/-- A path parses exactly when each of its parts does. -/
theorem parse_eq_ok_iff :
    parse s = .ok segments ↔
      List.Forall₂ (fun part segment => parseSegment part = .ok segment) (split s 47)
        segments := by
  constructor
  · intro hParse
    unfold parse at hParse
    split at hParse
    · cases hParse
    · split at hParse
      · cases hParse
      · split at hParse
        · next hMap =>
          cases hParse
          exact mapM_eq_ok_iff.mp hMap
        · cases hParse
  · intro hParts
    have hNil : [] ∉ split s 47 := by
      intro hMem
      obtain ⟨index, hIndex, hAt⟩ := List.getElem_of_mem hMem
      have hSegment := (List.forall₂_iff_get.mp hParts).2 index hIndex
        (by rw [← hParts.length_eq]; exact hIndex)
      simp only [List.get_eq_getElem, hAt] at hSegment
      cases hSegment
    obtain ⟨hNonempty, hSlashes⟩ := slash_checks_of_nil_not_mem_split hNil
    simp [parse, hNonempty, hSlashes, mapM_eq_ok_iff.mpr hParts]

theorem path_ne_nil_of_parse_eq_ok (hParse : parse s = .ok segments) : s ≠ [] := by
  rintro rfl
  cases hParse

theorem ne_nil_of_parse_eq_ok (hParse : parse s = .ok segments) : segments ≠ [] := by
  rintro rfl
  have hSplit := List.forall₂_nil_right_iff.mp (parse_eq_ok_iff.mp hParse)
  exact List.splitOn_ne_nil 47 s hSplit

/-- `String(Parse(s)) = s`. -/
theorem pathText_of_parse_eq_ok (hParse : parse s = .ok segments) : pathText segments = s := by
  have hTexts : segments.map Segment.text = split s 47 := by
    have hParts := parse_eq_ok_iff.mp hParse
    clear hParse
    generalize split s 47 = parts at hParts
    induction hParts with
    | nil => rfl
    | cons hSegment _ ih =>
      rw [List.map_cons, ih, (wellFormed_of_parseSegment_eq_ok hSegment).2]
  rw [pathText, hTexts]
  exact List.intercalate_splitOn 47

/-- The segments of a parsed path are well formed and have no slash. -/
theorem wellFormed_of_mem_parse (hParse : parse s = .ok segments) (hMem : segment ∈ segments) :
    segment.WellFormed ∧ 47 ∉ segment.text := by
  obtain ⟨part, hPart, hSegment⟩ := exists_of_mem_right (parse_eq_ok_iff.mp hParse) hMem
  obtain ⟨hWellFormed, rfl⟩ := wellFormed_of_parseSegment_eq_ok hSegment
  exact ⟨hWellFormed, separator_not_mem_of_mem_split hPart⟩

/-- `Parse(String(p)) = p`, for the segments that paths are made of. -/
theorem parse_pathText (hSome : segments ≠ [])
    (hEach : ∀ segment ∈ segments, segment.WellFormed ∧ 47 ∉ segment.text) :
    parse (pathText segments) = .ok segments := by
  have hSlash : ∀ part ∈ segments.map Segment.text, 47 ∉ part := by
    intro part hPart
    obtain ⟨segment, hSegment, rfl⟩ := List.mem_map.mp hPart
    exact (hEach segment hSegment).2
  rw [parse_eq_ok_iff, pathText, split, join,
    List.splitOn_intercalate 47 hSlash (by simpa using hSome), List.forall₂_map_left_iff,
    List.forall₂_same]
  exact fun segment hSegment => parseSegment_text (hEach segment hSegment).1

/-- The lists of segments that are paths: not empty, each segment well formed and, as a part of
a text that is separated by slashes, without a slash. -/
def IsPath (segments : List Segment) : Prop :=
  segments ≠ [] ∧ ∀ segment ∈ segments, segment.WellFormed ∧ 47 ∉ segment.text

/-- `Parse` accepts exactly the texts of paths, and `Parse` and `String` are inverse to each
other on them, so that no two paths have one text. -/
theorem parse_and_pathText_inverse_on_paths :
    (∀ s, (∃ segments, parse s = .ok segments) ↔ ∃ segments, IsPath segments ∧
      s = pathText segments) ∧
    (∀ s segments, parse s = .ok segments → pathText segments = s) ∧
    (∀ segments, IsPath segments → parse (pathText segments) = .ok segments) ∧
    ∀ first second, IsPath first → IsPath second → first ≠ second →
      pathText first ≠ pathText second := by
  have hRead : ∀ segments, IsPath segments → parse (pathText segments) = .ok segments :=
    fun segments hPath => parse_pathText hPath.1 hPath.2
  refine ⟨fun s => ⟨?_, ?_⟩, fun s segments => pathText_of_parse_eq_ok, hRead, ?_⟩
  · rintro ⟨segments, hParse⟩
    exact ⟨segments, ⟨ne_nil_of_parse_eq_ok hParse, fun _ => wellFormed_of_mem_parse hParse⟩,
      (pathText_of_parse_eq_ok hParse).symm⟩
  · rintro ⟨segments, hPath, rfl⟩
    exact ⟨segments, hRead segments hPath⟩
  · intro first second hFirst hSecond hDistinct hText
    have hParse := hRead first hFirst
    rw [hText, hRead second hSecond] at hParse
    exact hDistinct (Except.ok.inj hParse).symm

/-- The names on a path are plain. -/
theorem name_of_parse_eq_ok (hParse : parse s = .ok segments) (hMem : segment ∈ segments) :
    segment.name ≠ [] ∧ 47 ∉ segment.name ∧ 91 ∉ segment.name := by
  obtain ⟨⟨hName, hForm⟩, hSlash⟩ := wellFormed_of_mem_parse hParse hMem
  refine ⟨hName, ?_, ?_⟩
  · unfold Segment.text at hSlash
    split at hSlash
    · exact hSlash
    · exact fun hSlashName => hSlash (by simp [hSlashName])
  · rcases hForm with ⟨_, _, hOpen⟩ | ⟨_, _, _, hOpen, _⟩
    · exact hOpen
    · exact hOpen

theorem parse_injective (hFirst : parse first = .ok segments)
    (hSecond : parse second = .ok segments) :
    first = second := by
  rw [← pathText_of_parse_eq_ok hFirst, pathText_of_parse_eq_ok hSecond]

/-- A slash concatenates paths. -/
theorem parse_append_slash :
    parse (first ++ 47 :: second) = .ok segments ↔
      ∃ left right, parse first = .ok left ∧ parse second = .ok right ∧
        segments = left ++ right := by
  rw [parse_eq_ok_iff, split, List.splitOn_append_cons_self]
  constructor
  · intro hParts
    obtain ⟨left, right, hLeft, hRight, rfl⟩ := forall₂_append_left hParts
    exact ⟨left, right, parse_eq_ok_iff.mpr hLeft, parse_eq_ok_iff.mpr hRight, rfl⟩
  · rintro ⟨left, right, hLeft, hRight, rfl⟩
    exact List.rel_append (parse_eq_ok_iff.mp hLeft) (parse_eq_ok_iff.mp hRight)

/-- A path without a slash is one segment. -/
theorem parse_of_slash_not_mem (hSlash : 47 ∉ part) :
    parse part = .ok segments ↔
      ∃ segment, parseSegment part = .ok segment ∧ segments = [segment] := by
  rw [parse_eq_ok_iff, split, List.splitOn_eq_singleton hSlash, List.forall₂_cons_left_iff]
  simp only [List.forall₂_nil_left_iff]
  constructor
  · rintro ⟨segment, rest, hSegment, rfl, rfl⟩
    exact ⟨segment, hSegment, rfl⟩
  · rintro ⟨segment, hSegment, rfl⟩
    exact ⟨segment, [], hSegment, rfl, rfl⟩

/-- The last part of a path can be read off it. -/
theorem append_slash_injective {other : GoString} (hPart : 47 ∉ part) (hOther : 47 ∉ other)
    (hSame : first ++ 47 :: part = second ++ 47 :: other) :
    first = second ∧ part = other := by
  rcases List.append_eq_append_iff.mp hSame with ⟨middle, hSecond, hRest⟩ | ⟨middle, hFirst, hRest⟩
  · cases middle with
    | nil => exact ⟨by simpa using hSecond.symm, by simpa using hRest⟩
    | cons byte middle =>
      rw [List.cons_append, List.cons.injEq] at hRest
      exact absurd (by simp [hRest.2]) hPart
  · cases middle with
    | nil => exact ⟨by simpa using hFirst, by simpa using hRest.symm⟩
    | cons byte middle =>
      rw [List.cons_append, List.cons.injEq] at hRest
      exact absurd (by simp [hRest.2]) hOther

/-! ## Subtrees

The data-tree engine finds the leaves of a subtree by a textual scan: a leaf is
below a node when its path starts with the path of the node and a slash.  On paths
that parse this is the same as extending the list of segments. -/

theorem join_append {first second : List GoString} (separator : UInt8) (hFirst : first ≠ [])
    (hSecond : second ≠ []) :
    join (first ++ second) separator =
      join first separator ++ separator :: join second separator := by
  induction first with
  | nil => exact absurd rfl hFirst
  | cons part first ih =>
    cases first with
    | nil =>
      obtain ⟨next, second, rfl⟩ := List.exists_cons_of_ne_nil hSecond
      simp [join, List.intercalate]
    | cons next first =>
      have hRest := ih (List.cons_ne_nil _ _)
      simp only [join, List.intercalate, List.cons_append, List.intersperse_cons_cons,
        List.flatten_cons, List.append_assoc] at hRest ⊢
      rw [hRest]

theorem pathText_append {first second : List Segment} (hFirst : first ≠ [])
    (hSecond : second ≠ []) :
    pathText (first ++ second) = pathText first ++ 47 :: pathText second := by
  rw [pathText, List.map_append,
    join_append 47 (by simpa using hFirst) (by simpa using hSecond)]
  rfl

/-- The scan for the leaves strictly below a node. -/
theorem hasPrefix_append_slash_iff {candidate base : GoString}
    {candidateSegments baseSegments : List Segment}
    (hCandidate : parse candidate = .ok candidateSegments)
    (hBase : parse base = .ok baseSegments) :
    hasPrefix candidate (base ++ [47]) = true ↔
      ∃ rest, rest ≠ [] ∧ candidateSegments = baseSegments ++ rest := by
  rw [hasPrefix, List.isPrefixOf_iff_prefix]
  constructor
  · rintro ⟨rest, rfl⟩
    have hText : base ++ [47] ++ rest = base ++ 47 :: rest := by simp
    rw [hText] at hCandidate
    obtain ⟨left, right, hLeft, hRight, rfl⟩ := parse_append_slash.mp hCandidate
    rw [hBase, Except.ok.injEq] at hLeft
    subst hLeft
    exact ⟨right, ne_nil_of_parse_eq_ok hRight, rfl⟩
  · rintro ⟨rest, hRest, rfl⟩
    rw [← pathText_of_parse_eq_ok hCandidate, ← pathText_of_parse_eq_ok hBase,
      pathText_append (ne_nil_of_parse_eq_ok hBase) hRest]
    exact ⟨pathText rest, by simp⟩

end Router
end TriadSim

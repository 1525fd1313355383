import Mathlib.Tactic

/-!
# Byte strings

A Go `string` is a sequence of bytes, and every operation of package `strings`
the simulator uses works byte by byte.  The model therefore takes a string to be
a list of `UInt8`; a literal of the source is the UTF-8 encoding of that literal.
-/

namespace TriadSim
namespace Go

/-- A Go string value: its bytes, in order. -/
abbrev GoString := List UInt8

instance lawfulBEqGoString : LawfulBEq GoString := inferInstance

/-- The bytes of a string literal. -/
def text (literal : String) : GoString :=
  literal.toUTF8.data.toList

instance : Coe String GoString := ⟨text⟩

/-- `strings.HasPrefix`. -/
def hasPrefix (s lead : GoString) : Bool :=
  lead.isPrefixOf s

/-- `strings.HasSuffix`. -/
def hasSuffix (s tail : GoString) : Bool :=
  tail.isSuffixOf s

/-- `strings.Contains`. -/
def contains (s sub : GoString) : Bool :=
  s.tails.any fun rest => sub.isPrefixOf rest

/-- `strings.ContainsAny` for a set of single-byte characters. -/
def containsAny (s chars : GoString) : Bool :=
  s.any fun byte => chars.contains byte

/-- `strings.TrimPrefix`. -/
def trimLead (s lead : GoString) : GoString :=
  if hasPrefix s lead then s.drop lead.length else s

/-- `strings.Split` at a one-byte separator. -/
def split (s : GoString) (separator : UInt8) : List GoString :=
  s.splitOn separator

/-- `strings.Join` with a one-byte separator. -/
def join (parts : List GoString) (separator : UInt8) : GoString :=
  [separator].intercalate parts

/-- The parts of a text do not have the separator. -/
theorem separator_not_mem_of_mem_split {s part : GoString} {separator : UInt8}
    (hPart : part ∈ split s separator) : separator ∉ part := by
  by_cases hMem : separator ∈ s
  · obtain ⟨before, after, hSplit, hBefore⟩ := List.eq_append_cons_of_mem hMem
    rw [hSplit, split, List.splitOn_append_cons_self, List.splitOn_eq_singleton hBefore,
      List.singleton_append, List.mem_cons] at hPart
    rcases hPart with rfl | hRest
    · exact hBefore
    · exact separator_not_mem_of_mem_split hRest
  · rw [split, List.splitOn_eq_singleton hMem, List.mem_singleton] at hPart
    rw [hPart]
    exact hMem
termination_by s.length
decreasing_by
  rw [hSplit, List.length_append, List.length_cons]
  omega

/-- The text before and after the first occurrence of a byte: `strings.IndexByte`
with the two slices around the index. -/
def cut (s : GoString) (separator : UInt8) : Option (GoString × GoString) :=
  match s with
  | [] => none
  | byte :: rest =>
    if byte = separator then some ([], rest)
    else (cut rest separator).map fun halves => (byte :: halves.1, halves.2)

theorem cut_eq_none_iff {s : GoString} {separator : UInt8} :
    cut s separator = none ↔ separator ∉ s := by
  induction s with
  | nil => simp [cut]
  | cons byte rest ih =>
    by_cases hByte : byte = separator
    · simp [cut, hByte]
    · simp [cut, hByte, ih, Ne.symm hByte]

theorem cut_eq_some_iff {s before after : GoString} {separator : UInt8} :
    cut s separator = some (before, after) ↔
      s = before ++ separator :: after ∧ separator ∉ before := by
  induction s generalizing before with
  | nil => simp [cut]
  | cons byte rest ih =>
    by_cases hByte : byte = separator
    · cases before with
      | nil => simp [cut, hByte]
      | cons first before =>
        simp only [cut, hByte, if_true, Option.some.injEq, Prod.mk.injEq]
        constructor
        · rintro ⟨hNil, _⟩
          cases hNil
        · rintro ⟨hEq, hOut⟩
          rw [List.cons_append] at hEq
          exact absurd (List.cons.inj hEq).1 (fun h => hOut (by simp [h]))
    · cases before with
      | nil =>
        simp only [cut, hByte, if_false, List.nil_append, List.cons.injEq, false_and,
          Option.map_eq_some_iff]
        simp
      | cons first before =>
        simp only [cut, hByte, if_false, Option.map_eq_some_iff, Prod.mk.injEq,
          List.cons_append, List.cons.injEq, List.mem_cons, not_or]
        constructor
        · rintro ⟨⟨head, tail⟩, hCut, ⟨rfl, rfl⟩, rfl⟩
          obtain ⟨rfl, hOut⟩ := ih.mp hCut
          exact ⟨⟨rfl, rfl⟩, Ne.symm hByte, hOut⟩
        · rintro ⟨⟨rfl, rfl⟩, _, hOut⟩
          exact ⟨(before, after), ih.mpr ⟨rfl, hOut⟩, ⟨rfl, rfl⟩, rfl⟩

/-! ## White space -/

/-- The UTF-8 encodings of the runes `unicode.IsSpace` accepts. -/
def spaceRunes : List GoString :=
  [[0x09], [0x0A], [0x0B], [0x0C], [0x0D], [0x20], [0xC2, 0x85], [0xC2, 0xA0],
    [0xE1, 0x9A, 0x80], [0xE2, 0x80, 0x80], [0xE2, 0x80, 0x81], [0xE2, 0x80, 0x82],
    [0xE2, 0x80, 0x83], [0xE2, 0x80, 0x84], [0xE2, 0x80, 0x85], [0xE2, 0x80, 0x86],
    [0xE2, 0x80, 0x87], [0xE2, 0x80, 0x88], [0xE2, 0x80, 0x89], [0xE2, 0x80, 0x8A],
    [0xE2, 0x80, 0xA8], [0xE2, 0x80, 0xA9], [0xE2, 0x80, 0xAF], [0xE2, 0x81, 0x9F],
    [0xE3, 0x80, 0x80]]

/-- Drop leading members of `runes`, at most `fuel` of them.  A rune has at
least one byte, so the length of the string is always enough fuel. -/
def trimRunes (runes : List GoString) : Nat → GoString → GoString
  | 0, s => s
  | fuel + 1, s =>
    match runes.find? (hasPrefix s) with
    | some rune => trimRunes runes fuel (s.drop rune.length)
    | none => s

/-- `strings.TrimSpace`.  An encoding of a space rune starts with a byte that
starts a rune and goes on with continuation bytes only, so the last rune of a
string is a space exactly when the string ends in such an encoding. -/
def trimSpace (s : GoString) : GoString :=
  let left := trimRunes spaceRunes s.length s
  (trimRunes (spaceRunes.map List.reverse) left.length left.reverse).reverse

example : trimSpace " \t 100\n" = "100" := by decide

end Go
end TriadSim

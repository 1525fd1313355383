import TriadSim.Go.Strconv

/-!
# Hexadecimal numerals

`%x` of a number that is not negative, and `strconv.ParseUint(text, 16, bitSize)`, which
reads it back.
-/

namespace TriadSim
namespace Go

/-- A digit of `%x`. -/
def hexDigit (digit : Nat) : UInt8 :=
  UInt8.ofNat (if digit < 10 then 48 + digit else 87 + digit)

/-- `%x` of a number. -/
def formatHex (n : Nat) : GoString :=
  if n = 0 then [48] else (Nat.digits 16 n).reverse.map hexDigit

/-- Read hexadecimal digits after the number `value`. -/
def hexValue (value : Nat) : GoString → Option Nat
  | [] => some value
  | byte :: rest =>
    match digitValue? true byte with
    | some digit => hexValue (16 * value + digit) rest
    | none => none

/-- `strconv.ParseUint(text, 16, bitSize)`. -/
def parseHex (bitSize : Nat) (s : GoString) : Option Nat := do
  guard (s ≠ [])
  let value ← hexValue 0 s
  guard (value < 2 ^ bitSize)
  return value

/-- A digit is read as itself, and is neither a line feed nor a number sign. -/
theorem digitValue_hexDigit {digit : Nat} (hDigit : digit < 16) :
    digitValue? true (hexDigit digit) = some digit ∧ hexDigit digit ≠ 10 ∧
      hexDigit digit ≠ 35 := by
  interval_cases digit <;> decide

theorem hexValue_map_hexDigit (digits : List Nat) (hDigits : ∀ digit ∈ digits, digit < 16)
    (value : Nat) :
    hexValue value (digits.map hexDigit) =
      some (digits.foldl (fun value digit => 16 * value + digit) value) := by
  induction digits generalizing value with
  | nil => rfl
  | cons digit rest ih =>
    have hDigit : digit < 16 := hDigits digit List.mem_cons_self
    have hRest : ∀ other ∈ rest, other < 16 :=
      fun other hOther => hDigits other (List.mem_cons_of_mem digit hOther)
    simp only [List.map_cons, hexValue, (digitValue_hexDigit hDigit).1, List.foldl_cons]
    exact ih hRest _

/-- The value of digits from the most significant one on. -/
theorem foldl_reverse_eq_ofDigits (base : Nat) (digits : List Nat) :
    digits.reverse.foldl (fun value digit => base * value + digit) 0 =
      Nat.ofDigits base digits := by
  rw [List.foldl_reverse]
  calc digits.foldr (fun digit value => base * value + digit) 0
      = digits.foldr (fun digit value => digit + base * value) 0 := by
        congr 1
        funext digit value
        exact Nat.add_comm _ _
    _ = Nat.ofDigits base digits := (Nat.ofDigits_eq_foldr base _).symm

theorem parseHex_of_hexValue {bitSize value : Nat} {s : GoString} (hSome : s ≠ [])
    (hValue : hexValue 0 s = some value) (hFits : value < 2 ^ bitSize) :
    parseHex bitSize s = some value := by
  simp [parseHex, hSome, hValue, hFits]

theorem formatHex_ne_nil (n : Nat) : formatHex n ≠ [] := by
  unfold formatHex
  split
  · simp
  · rename_i hPositive
    simp [Nat.digits_ne_nil_iff_ne_zero, hPositive]

theorem hexValue_formatHex (n : Nat) : hexValue 0 (formatHex n) = some n := by
  unfold formatHex
  split
  · rename_i hZero
    subst hZero
    rfl
  · have hDigits : ∀ digit ∈ (Nat.digits 16 n).reverse, digit < 16 := by
      intro digit hDigit
      exact Nat.digits_lt_base (by omega) (List.mem_reverse.mp hDigit)
    rw [hexValue_map_hexDigit _ hDigits, foldl_reverse_eq_ofDigits, Nat.ofDigits_digits]

/-- A formatted number is read back. -/
theorem parseHex_formatHex {bitSize n : Nat} (hFits : n < 2 ^ bitSize) :
    parseHex bitSize (formatHex n) = some n :=
  parseHex_of_hexValue (formatHex_ne_nil n) (hexValue_formatHex n) hFits

/-- The bytes of a formatted number. -/
theorem formatHex_bytes {n : Nat} {byte : UInt8} (hByte : byte ∈ formatHex n) :
    byte ≠ 10 ∧ byte ≠ 35 := by
  unfold formatHex at hByte
  split at hByte
  · rw [List.mem_singleton.mp hByte]
    decide
  · obtain ⟨digit, hDigit, rfl⟩ := List.mem_map.mp hByte
    have hLt : digit < 16 := Nat.digits_lt_base (by omega) (List.mem_reverse.mp hDigit)
    exact (digitValue_hexDigit hLt).2

theorem length_formatHex_le {n count : Nat} (hCount : 0 < count) (hFits : n < 16 ^ count) :
    (formatHex n).length ≤ count := by
  unfold formatHex
  split
  · exact hCount
  · rw [List.length_map, List.length_reverse]
    exact (Nat.digits_length_le_iff (by omega) n).mpr hFits

/-! ## Decimal numerals -/

theorem isDigit_of_mem_formatNat {n : Nat} {byte : UInt8} (hByte : byte ∈ formatNat n) :
    isDigit byte = true := by
  unfold formatNat at hByte
  split at hByte
  · rw [List.mem_singleton.mp hByte]
    rfl
  · obtain ⟨digit, hDigit, rfl⟩ := List.mem_map.mp hByte
    have hLt : digit < 10 := Nat.digits_lt_base (by omega) (List.mem_reverse.mp hDigit)
    interval_cases digit <;> rfl

theorem formatNat_ne_nil (n : Nat) : formatNat n ≠ [] := by
  unfold formatNat
  split
  · simp
  · rename_i hPositive
    simp [Nat.digits_ne_nil_iff_ne_zero, hPositive]

/-- A formatted number is read back. -/
theorem digitsValue_formatNat (n : Nat) : digitsValue 0 (formatNat n) = some n := by
  have hDigits : ∀ (digits : List Nat) (value : Nat), (∀ digit ∈ digits, digit < 10) →
      digitsValue value (digits.map fun digit => UInt8.ofNat (48 + digit)) =
        some (digits.foldl (fun value digit => 10 * value + digit) value) := by
    intro digits
    induction digits with
    | nil => exact fun _ _ => rfl
    | cons digit rest ih =>
      intro value hLt
      obtain ⟨hDigit, hRest⟩ := List.forall_mem_cons.mp hLt
      have hByte : isDigit (UInt8.ofNat (48 + digit)) = true ∧
          (UInt8.ofNat (48 + digit)).toNat - 48 = digit := by
        interval_cases digit <;> decide
      rw [List.map_cons, digitsValue, if_pos hByte.1, hByte.2, List.foldl_cons]
      exact ih _ hRest
  unfold formatNat
  split
  · next hZero =>
    subst hZero
    rfl
  · rw [hDigits _ 0 fun digit hDigit => Nat.digits_lt_base (by omega) (List.mem_reverse.mp hDigit),
      foldl_reverse_eq_ofDigits, Nat.ofDigits_digits]

theorem formatNat_injective : Function.Injective formatNat := by
  intro m n hSame
  have hRead := congrArg (digitsValue 0) hSame
  rwa [digitsValue_formatNat, digitsValue_formatNat, Option.some.injEq] at hRead

/-- One digit is the same in both bases. -/
theorem formatHex_of_lt_ten {n : Nat} (hShort : n < 10) : formatHex n = formatNat n := by
  interval_cases n <;> decide

/-- The number that a decimal numeral is in hexadecimal. -/
def decimalAsHex (n : Nat) : Nat :=
  Nat.ofDigits 16 (Nat.digits 10 n)

theorem lt_decimalAsHex {n : Nat} (hLong : 9 < n) : n < decimalAsHex n := by
  have hRest : n / 10 ≤ Nat.ofDigits 16 (Nat.digits 10 (n / 10)) := by
    calc n / 10
        = Nat.ofDigits 10 (Nat.digits 10 (n / 10)) := (Nat.ofDigits_digits 10 _).symm
      _ ≤ Nat.ofDigits 16 (Nat.digits 10 (n / 10)) := Nat.ofDigits_monotone _ (by omega)
  rw [decimalAsHex, Nat.digits_def' (by omega) (by omega), Nat.ofDigits_cons]
  omega

theorem hexValue_formatNat (n : Nat) : hexValue 0 (formatNat n) = some (decimalAsHex n) := by
  unfold formatNat
  split
  · next hZero =>
    subst hZero
    rfl
  · have hDigits : ∀ digit ∈ (Nat.digits 10 n).reverse, digit < 10 :=
      fun digit hDigit => Nat.digits_lt_base (by omega) (List.mem_reverse.mp hDigit)
    have hBytes : (Nat.digits 10 n).reverse.map (fun digit => UInt8.ofNat (48 + digit)) =
        (Nat.digits 10 n).reverse.map hexDigit :=
      List.map_congr_left fun digit hDigit => by rw [hexDigit, if_pos (hDigits digit hDigit)]
    rw [hBytes, hexValue_map_hexDigit _ fun digit hDigit => (hDigits digit hDigit).trans (by omega),
      foldl_reverse_eq_ofDigits, decimalAsHex]

theorem length_formatNat_le {n count : Nat} (hCount : 0 < count) (hFits : n < 10 ^ count) :
    (formatNat n).length ≤ count := by
  unfold formatNat
  split
  · exact hCount
  · rw [List.length_map, List.length_reverse]
    exact (Nat.digits_length_le_iff (by omega) n).mpr hFits

theorem parseHex_formatNat {n : Nat} (hFits : n < 10 ^ 8) :
    parseHex 32 (formatNat n) = some (decimalAsHex n) := by
  refine parseHex_of_hexValue (formatNat_ne_nil n) (hexValue_formatNat n) ?_
  calc decimalAsHex n
      < 16 ^ (Nat.digits 10 n).length :=
        Nat.ofDigits_lt_base_pow_length (by omega) fun digit hDigit => by
          have := Nat.digits_lt_base (by omega) hDigit
          omega
    _ ≤ 16 ^ 8 :=
        Nat.pow_le_pow_right (by omega) ((Nat.digits_length_le_iff (by omega) n).mpr hFits)
    _ = 2 ^ 32 := by norm_num

end Go
end TriadSim

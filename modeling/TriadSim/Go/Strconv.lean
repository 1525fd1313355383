import Mathlib.Data.Nat.Digits.Defs
import Mathlib.Data.Nat.Log
import TriadSim.Go.Float
import TriadSim.Go.Text

/-!
# Decimal text

The parts of package `strconv` the simulator uses to read a leaf from character
data and to render one.  A failed conversion is `none`: no caller looks at which
of `ErrSyntax` and `ErrRange` it was.
-/

namespace TriadSim
namespace Go

def isDigit (byte : UInt8) : Bool :=
  decide (48 ≤ byte) && decide (byte ≤ 57)

/-- The `lower` helper of `strconv`: it also folds some punctuation, as there. -/
def lower (byte : UInt8) : UInt8 :=
  byte ||| 0x20

/-! ## Integers and booleans -/

/-- Read decimal digits after the number `value`. -/
def digitsValue (value : Nat) : GoString → Option Nat
  | [] => some value
  | byte :: rest =>
    if isDigit byte then digitsValue (10 * value + (byte.toNat - 48)) rest else none

/-- `strconv.ParseUint(text, 10, bitSize)`. -/
def parseUint (bitSize : Nat) (s : GoString) : Option Nat := do
  guard (s ≠ [])
  let value ← digitsValue 0 s
  guard (value < 2 ^ bitSize)
  return value

/-- Split an optional sign off: `true` for a minus. -/
def signOf : GoString → Bool × GoString
  | 43 :: rest => (false, rest)
  | 45 :: rest => (true, rest)
  | s => (false, s)

/-- `strconv.ParseInt(text, 10, bitSize)`. -/
def parseInt (bitSize : Nat) (s : GoString) : Option Int := do
  let (isNegative, digits) := signOf s
  guard (digits ≠ [])
  let value ← digitsValue 0 digits
  if isNegative then
    guard (value ≤ 2 ^ (bitSize - 1))
    return -(value : Int)
  else
    guard (value < 2 ^ (bitSize - 1))
    return value

/-- `strconv.ParseBool`. -/
def parseBool (s : GoString) : Option Bool :=
  if s ∈ (["1", "t", "T", "true", "TRUE", "True"] : List String).map text then some true
  else if s ∈ (["0", "f", "F", "false", "FALSE", "False"] : List String).map text then
    some false
  else none

/-- `strconv.FormatUint(n, 10)`. -/
def formatNat (n : Nat) : GoString :=
  if n = 0 then [48] else (Nat.digits 10 n).reverse.map fun digit => UInt8.ofNat (48 + digit)

/-- `strconv.FormatInt(n, 10)`. -/
def formatInt (n : Int) : GoString :=
  if n < 0 then 45 :: formatNat n.natAbs else formatNat n.natAbs

/-- `strconv.FormatBool`. -/
def formatBool (b : Bool) : GoString :=
  if b then "true" else "false"

/-! ## Reading a float -/

/-- What `readFloat` remembers of the mantissa it has read. -/
structure Mantissa where
  value : Nat
  /-- The number of digits after the point, once a point was seen. -/
  fraction : Option Nat
  sawDigits : Bool

/-- The value of a mantissa digit. -/
def digitValue? (hex : Bool) (byte : UInt8) : Option Nat :=
  if isDigit byte then some (byte.toNat - 48)
  else if hex && decide (97 ≤ lower byte) && decide (lower byte ≤ 102) then
    some ((lower byte).toNat - 87)
  else none

/-- The digit loop of `readFloat`.  Underscores are skipped; a second point and
every other character end the mantissa. -/
def readMantissa (hex : Bool) (acc : Mantissa) : GoString → Mantissa × GoString
  | [] => (acc, [])
  | byte :: rest =>
    if byte = 95 then readMantissa hex acc rest
    else if byte = 46 then
      if acc.fraction.isSome then (acc, byte :: rest)
      else readMantissa hex { acc with fraction := some 0 } rest
    else
      match digitValue? hex byte with
      | some digit =>
        readMantissa hex
          { value := (if hex then 16 else 10) * acc.value + digit
            fraction := acc.fraction.map (· + 1)
            sawDigits := true } rest
      | none => (acc, byte :: rest)

/-- The exponent loop of `readFloat`, which stops counting at 10000. -/
def readExponentDigits (value : Nat) : GoString → Nat × GoString
  | [] => (value, [])
  | byte :: rest =>
    if byte = 95 then readExponentDigits value rest
    else if isDigit byte then
      readExponentDigits
        (if value < 10000 then 10 * value + (byte.toNat - 48) else value) rest
    else (value, byte :: rest)

/-- The exponent after its letter: a sign and at least one digit. -/
def readExponent (s : GoString) : Option (Int × GoString) :=
  let (isNegative, digits) := signOf s
  match digits with
  | byte :: _ =>
    if isDigit byte then
      let (value, rest) := readExponentDigits 0 digits
      some (if isNegative then -(value : Int) else value, rest)
    else none
  | [] => none

/-- What the last character was while underscores are checked. -/
inductive UnderscoreState where
  | digit
  | underscore
  | other
  deriving DecidableEq

/-- The character loop of `underscoreOK`. -/
def underscoreLoop (hex : Bool) : UnderscoreState → GoString → Bool
  | state, [] => decide (state ≠ .underscore)
  | state, byte :: rest =>
    if (digitValue? hex byte).isSome then underscoreLoop hex .digit rest
    else if byte = 95 then state = .digit && underscoreLoop hex .underscore rest
    else state ≠ .underscore && underscoreLoop hex .other rest

/-- `underscoreOK`: an underscore only separates digits, where a base mark
counts as a digit. -/
def underscoreOK (s : GoString) : Bool :=
  match (signOf s).2 with
  | 48 :: base :: rest =>
    if lower base = 120 then underscoreLoop true .digit rest
    else if lower base = 98 || lower base = 111 then underscoreLoop false .digit rest
    else underscoreLoop false .other (48 :: base :: rest)
  | digits => underscoreLoop false .other digits

/-- The number `mantissa * base ^ (-fraction) * radix ^ exponent`. -/
def scaledFloat (isNegative : Bool) (mantissa fractionScale radix : Nat) (exponent : Int) :
    Float64 :=
  if 0 ≤ exponent then
    Float64.ofRatio isNegative (mantissa * radix ^ exponent.toNat) fractionScale
  else Float64.ofRatio isNegative mantissa (fractionScale * radix ^ (-exponent).toNat)

/-- `readFloat` on a whole string, with its value. -/
def readFloat (s : GoString) : Option Float64 := do
  let (isNegative, unsigned) := signOf s
  let (hex, digits) :=
    match unsigned with
    | 48 :: base :: first :: rest =>
      if lower base = 120 then (true, first :: rest) else (false, unsigned)
    | _ => (false, unsigned)
  let (mantissa, rest) := readMantissa hex ⟨0, none, false⟩ digits
  guard mantissa.sawDigits
  let (exponent, rest) ←
    match rest with
    | byte :: tail =>
      if lower byte = (if hex then 112 else 101) then readExponent tail
      else if hex then none
      else some ((0 : Int), rest)
    | [] => if hex then none else some ((0 : Int), [])
  guard (rest = [])
  guard (underscoreOK s || !s.contains 95)
  let fraction := mantissa.fraction.getD 0
  return scaledFloat isNegative mantissa.value ((if hex then 16 else 10) ^ fraction)
    (if hex then 2 else 10) exponent

/-- `special`: the spellings of the infinities and of NaN, in any case. -/
def specialFloat (s : GoString) : Option Float64 :=
  let (isNegative, unsigned) := signOf s
  let folded := unsigned.map lower
  if folded = text "inf" || folded = text "infinity" then some (Float64.inf isNegative)
  else if s.map lower = text "nan" then some Float64.nan
  else none

/-- `strconv.ParseFloat(text, 64)`: a number too large for a finite value is an
error. -/
def parseFloat (s : GoString) : Option Float64 :=
  match specialFloat s with
  | some x => some x
  | none => (readFloat s).filter Float64.finite

example : parseFloat "1_0" = some ⟨0x4024000000000000⟩ := by decide +kernel

/-! ## Writing a float

`strconv.FormatFloat(x, 'g', -1, 64)` writes the fewest digits that read back as
the same number, and among those the ones nearest to it. -/

/-- The decimal point position of a positive ratio: the ratio lies in
`[10 ^ (point - 1), 10 ^ point)`. -/
def decimalPoint (num den : Nat) : Int :=
  if den ≤ num then Nat.log 10 (num / den) + 1
  else 1 - (Nat.clog 10 ((den + num - 1) / num) : Int)

/-- The `count`-digit decimal that reads back as `x`, if there is one: the floor
of the scaled ratio or its successor, whichever is nearer. -/
def roundTripDigits (x : Float64) (num den : Nat) (point : Int) (count : Nat) : Option Nat :=
  let places : Int := count - point
  let (scaledNum, scaledDen) :=
    if 0 ≤ places then (num * 10 ^ places.toNat, den) else (num, den * 10 ^ (-places).toNat)
  let floor := scaledNum / scaledDen
  let readsBack (digits : Nat) : Bool :=
    scaledFloat x.negative digits 1 10 (-places) = x
  let first := if scaledDen < 2 * (scaledNum % scaledDen) then floor + 1 else floor
  let second := if first = floor then floor + 1 else floor
  if readsBack first then some first else if readsBack second then some second else none

/-- The shortest digits of a positive finite number with its decimal point. -/
def shortestDigits (x : Float64) : GoString × Int :=
  let (num, den) := x.ratio
  let point := decimalPoint num den
  let (digits, count) :=
    ((List.range 18).tail.findSome? fun count =>
      (roundTripDigits x num den point count).map (·, count)).getD (0, 17)
  let written := formatNat digits
  let kept := (written.reverse.dropWhile (· = 48)).reverse
  (kept, point + ((written.length : Int) - count))

/-- The `%e` form: one digit before the point and a two-digit exponent. -/
def formatExponent (digits : GoString) (exponent : Int) : GoString :=
  let fraction := digits.drop 1
  let sign : UInt8 := if exponent < 0 then 45 else 43
  let power := formatNat exponent.natAbs
  digits.take 1 ++ (if fraction = [] then [] else 46 :: fraction) ++
    [101, sign] ++ (if power.length < 2 then 48 :: power else power)

/-- The `%f` form with no superfluous digit. -/
def formatFixed (digits : GoString) (point : Int) : GoString :=
  let whole :=
    if 0 < point then
      digits.take point.toNat ++ List.replicate (point.toNat - digits.length) 48
    else [48]
  let fraction := List.replicate (-point).toNat 48 ++ digits.drop point.toNat
  whole ++ (if fraction = [] || digits.length ≤ point then [] else 46 :: fraction)

/-- `strconv.FormatFloat(x, 'g', -1, 64)`. -/
def formatFloat (x : Float64) : GoString :=
  if x.isNaN then "NaN"
  else if !x.finite then (if x.negative then "-Inf" else "+Inf")
  else
    let sign : GoString := if x.negative then [45] else []
    if x.magnitude = 0 then sign ++ [48]
    else
      let (digits, point) := shortestDigits x
      if point - 1 < -4 || 6 ≤ point - 1 then sign ++ formatExponent digits (point - 1)
      else sign ++ formatFixed digits point

example : formatFloat (Float64.ofInt 1000000) = "1e+06" := by decide +kernel

end Go
end TriadSim

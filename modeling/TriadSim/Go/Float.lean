import Mathlib.Tactic

/-!
# Binary64 numbers

A Go `float64` is its 64-bit IEEE 754 pattern.  The simulator compares such
numbers, reads them from and writes them to decimal text, and converts them from
and to integers; it never does arithmetic on a leaf while it validates or stores
it.  All of these are exact functions of the pattern, so they are computed here
over integers and ratios of naturals.
-/

namespace TriadSim
namespace Go

/-- A Go `float64`, by its bit pattern. -/
structure Float64 where
  bits : UInt64
  deriving DecidableEq, Repr

namespace Float64

/-- The pattern without its sign bit. -/
def magnitude (x : Float64) : Nat :=
  x.bits.toNat % 2 ^ 63

def negative (x : Float64) : Bool :=
  decide (2 ^ 63 ≤ x.bits.toNat)

/-- The magnitude of an infinity; larger magnitudes are NaNs. -/
def infMagnitude : Nat :=
  0x7FF * 2 ^ 52

/-- `math.IsNaN`. -/
def isNaN (x : Float64) : Bool :=
  decide (infMagnitude < x.magnitude)

/-- `finite` of the model package: neither NaN nor an infinity. -/
def finite (x : Float64) : Bool :=
  decide (x.magnitude < infMagnitude)

/-- The position of a number in the order of the reals.  The order of the
patterns is the order of the magnitudes, and both zeros are at 0. -/
def rank (x : Float64) : Int :=
  if x.negative then -(x.magnitude : Int) else x.magnitude

/-- Go's `x < y`: false as soon as one side is NaN. -/
def lt (x y : Float64) : Bool :=
  !x.isNaN && !y.isNaN && decide (x.rank < y.rank)

/-- Go's `x <= y`. -/
def le (x y : Float64) : Bool :=
  !x.isNaN && !y.isNaN && decide (x.rank ≤ y.rank)

/-- Go's `x == y`: NaN differs from itself and the two zeros are equal. -/
def goEq (x y : Float64) : Bool :=
  !x.isNaN && !y.isNaN && decide (x.rank = y.rank)

/-! ## Signed zeros

Go's comparisons do not see the sign of a zero.  `positiveZero` forgets it, so
that "equal up to the sign of zero" is equality of the images. -/

/-- Replace the negative zero by the positive one. -/
def positiveZero (x : Float64) : Float64 :=
  if x.magnitude = 0 then ⟨0⟩ else x

/-- Magnitude and sign determine the pattern. -/
theorem eq_of_magnitude_eq_of_negative_eq {x y : Float64}
    (hMagnitude : x.magnitude = y.magnitude) (hNegative : x.negative = y.negative) :
    x = y := by
  have hx : x.bits.toNat < 2 ^ 64 := x.bits.toNat_lt
  have hy : y.bits.toNat < 2 ^ 64 := y.bits.toNat_lt
  have hBits : x.bits.toNat = y.bits.toNat := by
    simp only [magnitude] at hMagnitude
    simp only [negative, decide_eq_decide] at hNegative
    omega
  cases x
  cases y
  exact congrArg Float64.mk (UInt64.toNat_inj.mp hBits)

@[simp] theorem magnitude_positiveZero (x : Float64) :
    x.positiveZero.magnitude = x.magnitude := by
  unfold positiveZero
  split
  · next hZero => simpa [magnitude] using hZero.symm
  · rfl

@[simp] theorem positiveZero_positiveZero (x : Float64) :
    x.positiveZero.positiveZero = x.positiveZero := by
  by_cases hZero : x.magnitude = 0
  · have hSame : x.positiveZero = ⟨0⟩ := by simp [positiveZero, hZero]
    rw [hSame]
    rfl
  · simp [positiveZero, hZero]

@[simp] theorem isNaN_positiveZero (x : Float64) : x.positiveZero.isNaN = x.isNaN := by
  simp [isNaN]

@[simp] theorem finite_positiveZero (x : Float64) : x.positiveZero.finite = x.finite := by
  simp [finite]

@[simp] theorem rank_positiveZero (x : Float64) : x.positiveZero.rank = x.rank := by
  unfold positiveZero
  split
  · next hZero =>
    have hRank : x.rank = 0 := by simp [rank, hZero]
    rw [hRank]
    rfl
  · rfl

@[simp] theorem lt_positiveZero_left (x y : Float64) : lt x.positiveZero y = lt x y := by
  simp [lt]

@[simp] theorem lt_positiveZero_right (x y : Float64) : lt x y.positiveZero = lt x y := by
  simp [lt]

@[simp] theorem le_positiveZero_left (x y : Float64) : le x.positiveZero y = le x y := by
  simp [le]

@[simp] theorem le_positiveZero_right (x y : Float64) : le x y.positiveZero = le x y := by
  simp [le]

/-- Numbers Go finds equal differ at most in the sign of a zero. -/
theorem positiveZero_eq_of_goEq {x y : Float64} (hEq : goEq x y = true) :
    x.positiveZero = y.positiveZero := by
  simp only [goEq, Bool.and_eq_true, decide_eq_true_eq] at hEq
  obtain ⟨_, hRank⟩ := hEq
  have hMagnitude : x.magnitude = y.magnitude := by
    simp only [rank] at hRank
    split at hRank <;> split at hRank <;> omega
  unfold positiveZero
  rw [hMagnitude]
  split
  · rfl
  · next hNonzero =>
    refine eq_of_magnitude_eq_of_negative_eq hMagnitude ?_
    simp only [rank, hMagnitude] at hRank
    cases hx : x.negative <;> cases hy : y.negative <;> simp [hx, hy] at hRank ⊢ <;> omega

/-! ## Conversions -/

def ofParts (isNegative : Bool) (magnitude : Nat) : Float64 :=
  ⟨UInt64.ofNat (if isNegative then 2 ^ 63 + magnitude else magnitude)⟩

/-- `math.NaN()`. -/
def nan : Float64 :=
  ⟨0x7FF8000000000001⟩

/-- `math.Inf`. -/
def inf (isNegative : Bool) : Float64 :=
  ofParts isNegative infMagnitude

/-- Divide and round to the nearest natural, ties to even. -/
def divRound (num den : Nat) : Nat :=
  let quotient := num / den
  let rest := num % den
  if 2 * rest < den then quotient
  else if den < 2 * rest then quotient + 1
  else quotient + quotient % 2

/-- The magnitude nearest to the ratio `num / den`, ties to even.  With `scale`
the exponent of the last place, a significand of at most 53 bits and the biased
exponent add up to the pattern, for subnormal numbers and for a significand that
rounds up to the next power of two as well. -/
def ratioMagnitude (num den : Nat) : Nat :=
  if num = 0 then 0
  else
    let estimate : Int := (Nat.log2 num : Int) - Nat.log2 den - 52
    let tooCoarse : Bool :=
      -- The estimate is one too large when the leading bits of `num` are smaller.
      if 0 ≤ estimate then decide (num < den * 2 ^ 52 * 2 ^ estimate.toNat)
      else decide (num * 2 ^ (-estimate).toNat < den * 2 ^ 52)
    let scale : Int := max (-1074) (if tooCoarse then estimate - 1 else estimate)
    let significand :=
      if 0 ≤ scale then divRound num (den * 2 ^ scale.toNat)
      else divRound (num * 2 ^ (-scale).toNat) den
    min infMagnitude ((scale + 1074).toNat * 2 ^ 52 + significand)

/-- The number nearest to a signed ratio. -/
def ofRatio (isNegative : Bool) (num den : Nat) : Float64 :=
  ofParts isNegative (ratioMagnitude num den)

/-- Go's conversion `float64(n)` of an integer. -/
def ofInt (n : Int) : Float64 :=
  ofRatio (decide (n < 0)) n.natAbs 1

/-- The absolute value of a finite number as a ratio. -/
def ratio (x : Float64) : Nat × Nat :=
  let exponent := x.magnitude / 2 ^ 52
  let fraction := x.magnitude % 2 ^ 52
  if exponent = 0 then (fraction, 2 ^ 1074)
  else if 1075 ≤ exponent then ((2 ^ 52 + fraction) * 2 ^ (exponent - 1075), 1)
  else (2 ^ 52 + fraction, 2 ^ (1075 - exponent))

/-- The integer a finite number is equal to, if it is one: `math.Trunc(x) == x`. -/
def toInt? (x : Float64) : Option Int :=
  if x.finite then
    let (num, den) := x.ratio
    if num % den = 0 then
      some (if x.negative then -((num / den : Nat) : Int) else ((num / den : Nat) : Int))
    else none
  else none

example : ofRatio false 185 10 = ⟨0x4032800000000000⟩ := by decide +kernel

theorem ratio_positiveZero (x : Float64) : x.positiveZero.ratio = x.ratio := by
  simp only [ratio, magnitude_positiveZero]

/-- A number that Go does not find equal to itself is not an integer. -/
theorem toInt?_of_goEq_self_eq_false {x : Float64} (hSelf : goEq x x = false) :
    x.toInt? = none := by
  have hNaN : x.isNaN = true := by simpa [goEq] using hSelf
  have hFinite : x.finite = false := by
    simp only [isNaN, finite, decide_eq_true_eq, decide_eq_false_iff_not] at hNaN ⊢
    omega
  simp [toInt?, hFinite]

/-- The integer value does not see the sign of zero. -/
@[simp] theorem toInt?_positiveZero (x : Float64) : x.positiveZero.toInt? = x.toInt? := by
  by_cases hZero : x.magnitude = 0
  · have hRatio : x.ratio.1 = 0 := by
      simp only [ratio, hZero, Nat.zero_div, Nat.zero_mod, if_true]
    simp only [toInt?, finite_positiveZero, ratio_positiveZero, hRatio, Nat.zero_div,
      Nat.cast_zero, neg_zero, ite_self]
  · simp only [positiveZero, hZero, if_false]

end Float64

end Go
end TriadSim

import TriadSim.Errors

/-!
# Converting a value to a leaf's type

`assignLeaf` and `coerce` of `internal/router/reflect.go`: a value of another
numeric type is accepted when the leaf's type can hold it.
-/

namespace TriadSim
namespace Router

open Go

/-! ## Numeric views -/

/-- The integer a float denotes when Go converts it to `int64`.  The bound check
compares with `math.MaxInt64` rounded to a float, so 2^63 passes it and the
conversion wraps. -/
def floatToInt64? (x : Float64) : Option Int :=
  (x.toInt?.filter fun n => -2 ^ 63 ≤ n ∧ n ≤ 2 ^ 63).map fun n => if n = 2 ^ 63 then -2 ^ 63 else n

/-- The same for `uint64`, where 2^64 passes the check; what Go makes of it is up to
the platform. -/
def floatToUint64? (x : Float64) : Option Nat :=
  (x.toInt?.filter fun n => 0 ≤ n ∧ n ≤ 2 ^ 64).map fun n =>
    if n = 2 ^ 64 then 2 ^ 63 else n.toNat

/-- `toInt64`. -/
def toInt64? : GoValue → Option Int
  | .leaf (.int n) => some n.toInt
  | .leaf (.uint8 n) => some n.toNat
  | .leaf (.uint16 n) => some n.toNat
  | .leaf (.uint32 n) => some n.toNat
  | .leaf (.uint64 n) => if n.toNat < 2 ^ 63 then some n.toNat else none
  | .leaf (.float64 x) => floatToInt64? x
  | .int64 n => some n.toInt
  | .uint n => if n.toNat < 2 ^ 63 then some n.toNat else none
  | _ => none

/-- `toUint64`. -/
def toUint64? : GoValue → Option Nat
  | .leaf (.int n) => if 0 ≤ n.toInt then some n.toInt.toNat else none
  | .leaf (.uint8 n) => some n.toNat
  | .leaf (.uint16 n) => some n.toNat
  | .leaf (.uint32 n) => some n.toNat
  | .leaf (.uint64 n) => some n.toNat
  | .leaf (.float64 x) => floatToUint64? x
  | .int64 n => if 0 ≤ n.toInt then some n.toInt.toNat else none
  | .uint n => some n.toNat
  | _ => none

/-- `toFloat64`. -/
def toFloat64? : GoValue → Option Float64
  | .leaf (.int n) => some (Float64.ofInt n.toInt)
  | .leaf (.uint8 n) => some (Float64.ofInt n.toNat)
  | .leaf (.uint16 n) => some (Float64.ofInt n.toNat)
  | .leaf (.uint32 n) => some (Float64.ofInt n.toNat)
  | .leaf (.uint64 n) => some (Float64.ofInt n.toNat)
  | .leaf (.float64 x) => some x
  | .int64 n => some (Float64.ofInt n.toInt)
  | .uint n => some (Float64.ofInt n.toNat)
  | _ => none

/-! ## Assignment -/

/-- The error for a value whose kind does not fit the node. -/
def cannotUse (value : GoValue) (typeName : GoString) : Err :=
  if value = .nil then .sentinel .routerTypeMismatch ++ .text ": nil value"
  else .sentinel .routerTypeMismatch ++ .text ": cannot use " ++ .piece (.typeName value) ++
    .text (" as " ++ typeName)

/-- The error for a number outside the range of the node. -/
def overflows (value : GoValue) (kind : LeafKind) : Err :=
  .sentinel .routerBadValue ++ .text ": " ++ .piece (.shown value) ++
    .text (" overflows " ++ kind.name)

/-- The unsigned case of `assignLeaf`: a negative integer is out of range, anything
else that is not a natural number has the wrong type. -/
def assignUint (kind : LeafKind) (bits : Nat) (value : GoValue) : Except Err Nat :=
  match toUint64? value with
  | some n => if n < 2 ^ bits then .ok n else .error (overflows value kind)
  | none =>
    match toInt64? value with
    | some n =>
      if n < 0 then .error (overflows value kind) else .error (cannotUse value kind.name)
    | none => .error (cannotUse value kind.name)

/-- `assignLeaf` on a fresh variable of the leaf's kind. -/
def coerce : (kind : LeafKind) → GoValue → Except Err kind.Val
  | .bool, .leaf (.bool value) => .ok value
  | .string, .leaf (.string value) => .ok value
  | .int, value =>
    match toInt64? value with
    | some n => .ok (Int64.ofInt n)
    | none => .error (cannotUse value LeafKind.int.name)
  | .uint8, value => (assignUint .uint8 8 value).map UInt8.ofNat
  | .uint16, value => (assignUint .uint16 16 value).map UInt16.ofNat
  | .uint32, value => (assignUint .uint32 32 value).map UInt32.ofNat
  | .uint64, value => (assignUint .uint64 64 value).map UInt64.ofNat
  | .float64, value =>
    match toFloat64? value with
    | some x => .ok x
    | none => .error (cannotUse value LeafKind.float64.name)
  | kind, value => .error (cannotUse value kind.name)

/-- A value that already has the leaf's type is kept. -/
theorem coerce_ofVal (kind : LeafKind) (value : kind.Val) :
    coerce kind (.leaf (Leaf.ofVal kind value)) = .ok value := by
  cases kind with
  | uint8 =>
    have hBound := UInt8.toNat_lt value
    simp [coerce, Leaf.ofVal, assignUint, toUint64?, Except.map, hBound]
  | uint16 =>
    have hBound := UInt16.toNat_lt value
    simp [coerce, Leaf.ofVal, assignUint, toUint64?, Except.map, hBound]
  | uint32 =>
    have hBound := UInt32.toNat_lt value
    simp [coerce, Leaf.ofVal, assignUint, toUint64?, Except.map, hBound]
  | uint64 =>
    have hBound := UInt64.toNat_lt value
    simp [coerce, Leaf.ofVal, assignUint, toUint64?, Except.map, hBound]
  | _ => simp [coerce, Leaf.ofVal, toInt64?, toFloat64?]

/-- A value that is not equal to itself fits no leaf but a float, which keeps it. -/
theorem ofVal_of_coerce_eq_ok_of_goEq_self {kind : LeafKind} {leaf : Leaf} {value : kind.Val}
    (hSelf : Leaf.goEq leaf leaf = false) (hCoerce : coerce kind (.leaf leaf) = .ok value) :
    Leaf.ofVal kind value = leaf := by
  cases leaf with
  | float64 x =>
    have hInt : x.toInt? = none := Float64.toInt?_of_goEq_self_eq_false hSelf
    have hSigned : toInt64? (.leaf (.float64 x)) = none := by
      simp [toInt64?, floatToInt64?, hInt]
    have hUnsigned : toUint64? (.leaf (.float64 x)) = none := by
      simp [toUint64?, floatToUint64?, hInt]
    cases kind with
    | float64 =>
      cases hCoerce
      rfl
    | bool | string => cases hCoerce
    | _ => simp [coerce, assignUint, hSigned, hUnsigned, Except.map] at hCoerce
  | _ => simp [Leaf.goEq] at hSelf

/-! ## The sign of zero -/

/-- Forget the sign of a float zero. -/
def forgetZeroSign : (kind : LeafKind) → kind.Val → kind.Val
  | .float64, value => Float64.positiveZero value
  | _, value => value

/-- Assignment does not look at the sign of a zero: up to that sign its result is
the same. -/
theorem coerce_positiveZero (kind : LeafKind) (leaf : Leaf) :
    (coerce kind (.leaf leaf.positiveZero)).toOption.map (forgetZeroSign kind) =
      (coerce kind (.leaf leaf)).toOption.map (forgetZeroSign kind) := by
  cases leaf with
  | float64 x =>
    have hInt : toInt64? (.leaf (.float64 x.positiveZero)) = toInt64? (.leaf (.float64 x)) := by
      simp [toInt64?, floatToInt64?]
    have hUint : ∀ unsigned bits,
        (assignUint unsigned bits (.leaf (.float64 x.positiveZero))).toOption =
          (assignUint unsigned bits (.leaf (.float64 x))).toOption := by
      intro unsigned bits
      have hView : toUint64? (.leaf (.float64 x.positiveZero)) =
          toUint64? (.leaf (.float64 x)) := by simp [toUint64?, floatToUint64?]
      unfold assignUint
      rw [hView, hInt]
      cases toUint64? (.leaf (.float64 x)) with
      | some n => by_cases hBound : n < 2 ^ bits <;> simp [hBound, Except.toOption]
      | none =>
        cases toInt64? (.leaf (.float64 x)) with
        | some n => by_cases hNegative : n < 0 <;> simp [hNegative, Except.toOption]
        | none => rfl
    have hMap : ∀ {α : Type} (result : Except Err Nat) (f : Nat → α),
        (result.map f).toOption = result.toOption.map f := by
      intro α result f
      cases result <;> rfl
    cases kind with
    | float64 => simp [coerce, Leaf.positiveZero, toFloat64?, Except.toOption, forgetZeroSign]
    | int =>
      simp only [coerce, Leaf.positiveZero, hInt]
      cases toInt64? (.leaf (.float64 x)) <;> rfl
    | uint8 | uint16 | uint32 | uint64 => simp only [coerce, Leaf.positiveZero, hMap, hUint]
    | _ => rfl
  | _ => rfl

end Router
end TriadSim

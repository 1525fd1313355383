import TriadSim.Go.Strconv

/-!
# Leaf values

The datastores hold Go values of eight scalar types.  `Leaf` is such a value
with its dynamic type, and `GoValue` is what a caller may hand to an operation
that takes an `any`: a leaf value or something the store does not support.
-/

namespace TriadSim
namespace Go

/-- The supported leaf types: the `LeafKind` of the router's schema and the kind
names of the startup document. -/
inductive LeafKind where
  | bool
  | int
  | uint8
  | uint16
  | uint32
  | uint64
  | float64
  | string
  deriving DecidableEq, Repr

namespace LeafKind

/-- The name of the Go type. -/
def name : LeafKind → GoString
  | bool => "bool"
  | int => "int"
  | uint8 => "uint8"
  | uint16 => "uint16"
  | uint32 => "uint32"
  | uint64 => "uint64"
  | float64 => "float64"
  | string => "string"

/-- The values of a kind. -/
abbrev Val : LeafKind → Type
  | bool => Bool
  | int => Int64
  | uint8 => UInt8
  | uint16 => UInt16
  | uint32 => UInt32
  | uint64 => UInt64
  | float64 => Float64
  | string => GoString

/-- The zero value a Go variable of this kind starts with. -/
def zero : (kind : LeafKind) → kind.Val
  | bool => false
  | int => 0
  | uint8 => 0
  | uint16 => 0
  | uint32 => 0
  | uint64 => 0
  | float64 => ⟨0⟩
  | string => []

end LeafKind

/-- A leaf value as the store holds it. -/
inductive Leaf where
  | bool (value : Bool)
  | int (value : Int64)
  | uint8 (value : UInt8)
  | uint16 (value : UInt16)
  | uint32 (value : UInt32)
  | uint64 (value : UInt64)
  | float64 (value : Float64)
  | string (value : GoString)
  deriving DecidableEq, Repr

namespace Leaf

/-- The dynamic type of a leaf value. -/
def kind : Leaf → LeafKind
  | bool _ => .bool
  | int _ => .int
  | uint8 _ => .uint8
  | uint16 _ => .uint16
  | uint32 _ => .uint32
  | uint64 _ => .uint64
  | float64 _ => .float64
  | string _ => .string

/-- A typed value as a leaf. -/
def ofVal : (kind : LeafKind) → kind.Val → Leaf
  | .bool, value => bool value
  | .int, value => int value
  | .uint8, value => uint8 value
  | .uint16, value => uint16 value
  | .uint32, value => uint32 value
  | .uint64, value => uint64 value
  | .float64, value => float64 value
  | .string, value => string value

/-- The typed value of a leaf of the given kind. -/
def toVal? : (kind : LeafKind) → Leaf → Option kind.Val
  | .bool, bool value => some value
  | .int, int value => some value
  | .uint8, uint8 value => some value
  | .uint16, uint16 value => some value
  | .uint32, uint32 value => some value
  | .uint64, uint64 value => some value
  | .float64, float64 value => some value
  | .string, string value => some value
  | _, _ => none

@[simp] theorem toVal?_ofVal (kind : LeafKind) (value : kind.Val) :
    toVal? kind (ofVal kind value) = some value := by
  cases kind <;> rfl

@[simp] theorem kind_ofVal (kind : LeafKind) (value : kind.Val) :
    (ofVal kind value).kind = kind := by
  cases kind <;> rfl

theorem exists_ofVal_eq (leaf : Leaf) : ∃ value, ofVal leaf.kind value = leaf := by
  cases leaf <;> exact ⟨_, rfl⟩

/-- Go's `==` between two interface values that hold leaves: the dynamic types
must agree, and floats compare as floats. -/
def goEq : Leaf → Leaf → Bool
  | float64 x, float64 y => Float64.goEq x y
  | x, y => decide (x = y)

/-- Forget the sign of a zero. -/
def positiveZero : Leaf → Leaf
  | float64 x => float64 x.positiveZero
  | leaf => leaf

/-- Values Go finds equal differ at most in the sign of a zero. -/
theorem positiveZero_eq_of_goEq {x y : Leaf} (hEq : goEq x y = true) :
    x.positiveZero = y.positiveZero := by
  cases x with
  | float64 x =>
    cases y with
    | float64 y => exact congrArg float64 (Float64.positiveZero_eq_of_goEq hEq)
    | _ => simp [goEq] at hEq
  | _ =>
    simp only [goEq, decide_eq_true_eq] at hEq
    rw [hEq]

end Leaf

/-- An `any` on its way to or from a management plane: a supported leaf value, the
further types an SNMP varbind can carry, the untyped nil, or a value of some other
type, known by its name. -/
inductive GoValue where
  | leaf (value : Leaf)
  | int64 (value : Int64)
  | uint (value : UInt64)
  | bytes (value : List UInt8)
  | nil
  | other (typeName : GoString)
  deriving DecidableEq, Repr

namespace GoValue

/-- `leafKindOf`: the kind of a supported leaf value. -/
def leafKindOf : GoValue → Option LeafKind
  | leaf value => some value.kind
  | _ => none

/-- The supported leaf behind a value. -/
def toLeaf? : GoValue → Option Leaf
  | leaf value => some value
  | _ => none

end GoValue

end Go
end TriadSim

import TriadSim.Go.Value

/-!
# Struct types and their values

The router walks the managed objects by reflection: it looks at the tags of a
struct's fields and at the kinds of their types.  `GoType` is the universe of the
types the model package uses (scalars, structs, pointers to structs and slices of
structs), and `GoType.Val` is the type of the values of such a type, so a value
always fits its type.
-/

namespace TriadSim
namespace Go

/-- The field tags the router reads: the parts of `path` between slashes, `key`,
`config:"false"` and `creatable`. -/
structure Tag where
  path : List GoString
  key : Bool
  readOnly : Bool
  creatable : Bool
  deriving DecidableEq, Repr

mutual

/-- The type of a field. -/
inductive GoType where
  | scalar (kind : LeafKind)
  | struct (fields : Fields)
  | pointer (fields : Fields)
  | slice (fields : Fields)

/-- The tagged fields of a struct type, in declaration order. -/
inductive Fields where
  | nil
  | cons (tag : Tag) (type : GoType) (rest : Fields)

end

mutual

/-- The values of a type: a nil pointer is `none`. -/
@[reducible]
def GoType.Val : GoType → Type
  | .scalar kind => kind.Val
  | .struct fields => fields.Vals
  | .pointer fields => Option fields.Vals
  | .slice fields => List fields.Vals

/-- The values of a struct type: one value for each field. -/
@[reducible]
def Fields.Vals : Fields → Type
  | .nil => Unit
  | .cons _ type rest => type.Val × rest.Vals

end

mutual

/-- The zero value of a type. -/
def GoType.zero : (type : GoType) → type.Val
  | .scalar kind => kind.zero
  | .struct fields => fields.zero
  | .pointer _ => none
  | .slice _ => []

/-- The zero value of a struct. -/
def Fields.zero : (fields : Fields) → fields.Vals
  | .nil => ()
  | .cons _ type rest => (type.zero, rest.zero)

end

def GoType.isFloat : GoType → Bool
  | .scalar .float64 => true
  | _ => false

/-! ## List keys -/

/-- `scalarString`: a scalar as a list key. -/
def LeafKind.scalarText : (kind : LeafKind) → kind.Val → GoString
  | .bool, value => formatBool value
  | .int, value => formatInt value.toInt
  | .uint8, value => formatNat value.toNat
  | .uint16, value => formatNat value.toNat
  | .uint32, value => formatNat value.toNat
  | .uint64, value => formatNat value.toNat
  | .float64, value => formatFloat value
  | .string, value => value

/-- `scalarString` of a field: a nil pointer has none, and a value that is not a
scalar renders as the empty string. -/
def GoType.scalarText : (type : GoType) → type.Val → Option GoString
  | .scalar kind, value => some (kind.scalarText value)
  | .pointer _, none => none
  | _, _ => some []

namespace Fields

/-- `keyTagName`: the first part of the path of the field tagged as key. -/
def keyName : Fields → Option GoString
  | .nil => none
  | .cons tag _ rest => if tag.key then some (tag.path.headD []) else rest.keyName

/-- The text of an element's key field. -/
def keyText : (fields : Fields) → fields.Vals → Option GoString
  | .nil, _ => none
  | .cons tag type rest, (value, values) =>
    if tag.key then type.scalarText value else rest.keyText values

end Fields

/-- `setKey`: read a predicate value into a key field of the given kind. -/
def LeafKind.parseKey : (kind : LeafKind) → GoString → Option kind.Val
  | .bool, s => parseBool s
  | .int, s => (parseInt 64 s).map Int64.ofInt
  | .uint8, s => (parseUint 8 s).map UInt8.ofNat
  | .uint16, s => (parseUint 16 s).map UInt16.ofNat
  | .uint32, s => (parseUint 32 s).map UInt32.ofNat
  | .uint64, s => (parseUint 64 s).map UInt64.ofNat
  | .float64, s => parseFloat s
  | .string, s => some s

/-- `setKey` on the key field of an element; a field that is not a scalar has an
unsupported type. -/
def Fields.setKey : (fields : Fields) → fields.Vals → GoString → Option fields.Vals
  | .nil, _, _ => none
  | .cons tag (.scalar kind) rest, (value, values), s =>
    if tag.key then (kind.parseKey s).map fun parsed => (parsed, values)
    else (rest.setKey values s).map fun others => (value, others)
  | .cons tag _ rest, (value, values), s =>
    if tag.key then none else (rest.setKey values s).map fun others => (value, others)

end Go
end TriadSim

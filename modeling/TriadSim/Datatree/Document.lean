import TriadSim.Router.Schema

/-!
# Documents

`internal/datatree`: the protocol-neutral tree a request body is parsed into, the
values of its leaves, and the errors of the operations on it.
-/

namespace TriadSim
namespace Datatree

open Go Router

/-- `Document`. -/
inductive Document where
  | mk (name text : GoString) (attrs : List (GoString × GoString)) (children : List Document)

namespace Document

def name : Document → GoString
  | mk name _ _ _ => name

def text : Document → GoString
  | mk _ text _ _ => text

def attrs : Document → List (GoString × GoString)
  | mk _ _ attrs _ => attrs

def children : Document → List Document
  | mk _ _ _ children => children

/-- `Child`: the first child with the name. -/
def child (document : Document) (name : GoString) : Option Document :=
  document.children.find? fun child => child.name = name

/-- `Attr`. -/
def attr (document : Document) (name : GoString) : Option GoString :=
  document.attrs.lookup name

end Document

/-! ## Errors -/

/-- `newError`: a data-tree error whose message is the text of `message`. -/
def newError (type : ErrorType) (tag : ErrorTag) (path : GoString) (message : Err) : Err :=
  ⟨[.edit ⟨type, tag, path, false⟩], message.message⟩

def unknownElement (name : GoString) : Err :=
  newError .protocol .unknownElement [] (.text ("unknown element: " ++ name))

def invalidValue (message : Err) : Err :=
  newError .protocol .invalidValue [] message

def invalidValueAt (path : GoString) (message : Err) : Err :=
  newError .protocol .invalidValue path message

def accessDenied (path : GoString) : Err :=
  newError .protocol .accessDenied path (.text ("access denied: " ++ path ++ " is read-only"))

def dataExists (path : GoString) : Err :=
  newError .protocol .dataExists path (.text ("data already exists: " ++ path))

def dataMissing (path : GoString) : Err :=
  newError .protocol .dataMissing path (.text ("data missing: " ++ path))

def missingElement (what : GoString) : Err :=
  newError .protocol .missingElement [] (.text ("missing element: " ++ what))

def denied (message : Err) : Err :=
  newError .protocol .accessDenied [] message

def malformed (message : Err) : Err :=
  newError .rpc .malformedMessage [] message

/-- `Failed`: a failure of the device. -/
def failed (err : Err) : Err :=
  newError .application .operationFailed [] err

/-- `ValidationError`: a snapshot that the model rejects. -/
def validationError (err : Err) : Err :=
  ⟨[.edit ⟨.protocol, .invalidValue, [], true⟩], err.message⟩

/-! ## Leaf values -/

/-- A failure of `ParseLeaf`. -/
def expected (what s : GoString) : Err :=
  .text ("expected " ++ what ++ ", got ") ++ .piece (.quoted s)

/-- The value of a fallible reading of a text, or the error that names what was
expected. -/
def parsed {α : Type} (reading : Option α) (leaf : α → Leaf) (what s : GoString) :
    Except Err Leaf :=
  match reading with
  | some value => .ok (leaf value)
  | none => .error (expected what s)

/-- `ParseLeaf`. -/
def parseLeaf : LeafKind → GoString → Except Err Leaf
  | .bool, s => parsed (parseBool s) .bool "true or false" s
  | .int, s => parsed (parseInt 64 s) (fun n => .int (Int64.ofInt n)) "an integer" s
  | .uint8, s => parsed (parseUint 8 s) (fun n => .uint8 (UInt8.ofNat n)) "an integer 0..255" s
  | .uint16, s =>
    parsed (parseUint 16 s) (fun n => .uint16 (UInt16.ofNat n)) "an integer 0..65535" s
  | .uint32, s =>
    parsed (parseUint 32 s) (fun n => .uint32 (UInt32.ofNat n)) "an integer 0..4294967295" s
  | .uint64, s =>
    parsed (parseUint 64 s) (fun n => .uint64 (UInt64.ofNat n)) "an unsigned integer" s
  | .float64, s => parsed (parseFloat s) .float64 "a number" s
  | .string, s => .ok (.string s)

/-! ## Names -/

/-- `nodeNamed`. -/
def nodeNamed (nodes : List Node) (name : GoString) : Option Node :=
  nodes.find? fun node => node.name = name

theorem nodeNamed_eq_some {nodes : List Node} {name : GoString} {node : Node}
    (hNode : nodeNamed nodes name = some node) : node ∈ nodes ∧ node.name = name := by
  have hFound := List.find?_some hNode
  exact ⟨List.mem_of_find?_eq_some hNode, by simpa using hFound⟩

end Datatree
end TriadSim

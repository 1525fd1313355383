import TriadSim.Datatree.Read
import TriadSim.Gnmi.Path

/-!
# gNMI values

`internal/gnmi/values.go`: the part of a datastore that a data type asks for, the value of a
leaf in the encoding of a request, and the status code of an error.  The JSON text of a leaf
is left to `encoding/json`, which the store already takes as a parameter.
-/

namespace TriadSim
namespace Gnmi

open Datatree Go Router Store

/-- `gnmi.GetRequest_DataType`. -/
inductive DataType where
  | all
  | config
  | state
  | operational
  /-- A number without a name. -/
  | other (number : Int)
  deriving DecidableEq, Repr

/-- `contentFor`. -/
def contentFor : DataType → Content
  | .config => .config
  | .state => .nonconfig
  | .operational => .nonconfig
  | _ => .all

/-- `gnmi.Encoding`. -/
inductive Encoding where
  | json
  | bytes
  | proto
  | ascii
  | jsonIetf
  /-- A number without a name. -/
  | other (number : Int)
  deriving DecidableEq, Repr

/-- `%s` of an encoding. -/
def Encoding.text : Encoding → GoString
  | json => "JSON"
  | bytes => "BYTES"
  | proto => "PROTO"
  | ascii => "ASCII"
  | jsonIetf => "JSON_IETF"
  | other number => formatInt number

/-- `encodingFor`. -/
def encodingFor : Encoding → Except Status Encoding
  | .json => .ok .json
  | .jsonIetf => .ok .jsonIetf
  | .proto => .ok .proto
  | encoding => .error (invalidArgument (.text ("unsupported encoding " ++ encoding.text ++
      ": the server supports JSON, JSON_IETF and PROTO")))

/-! ## Errors -/

/-- `codeForTag`. -/
def codeForTag : ErrorTag → Code
  | .dataMissing => .notFound
  | .accessDenied => .permissionDenied
  | .dataExists => .alreadyExists
  | .operationNotSupported => .unimplemented
  | .malformedMessage => .invalidArgument
  | .tooBig => .invalidArgument
  | .missingElement => .invalidArgument
  | .unknownElement => .invalidArgument
  | .invalidValue => .invalidArgument
  | .operationFailed => .invalidArgument
  | .missingAttribute => .internal

/-- `statusError` of an error. -/
def statusError (err : Err) : Status :=
  if err.is .contextCanceled then ⟨.canceled, err.asText⟩
  else if err.is .contextDeadlineExceeded then ⟨.deadlineExceeded, err.asText⟩
  else
    match err.tag? with
    | some tag => ⟨codeForTag tag, err.asText⟩
    | none =>
      if err.is .routerNotFound then ⟨.notFound, err.asText⟩
      else if err.is .routerInvalidPath then ⟨.invalidArgument, err.asText⟩
      else if err.is .routerReadOnly then ⟨.permissionDenied, err.asText⟩
      else ⟨.internal, err.asText⟩

/-! ## Values of a leaf -/

/-- `gnmi.TypedValue`, as far as a leaf is answered with it.  The bytes of a JSON value are known
as `Raw`. -/
inductive TypedValue (Raw : Type) where
  | stringVal (value : GoString)
  | intVal (value : Int64)
  | uintVal (value : UInt64)
  | boolVal (value : Bool)
  | doubleVal (value : Float64)
  | jsonVal (encoded : Raw)
  | jsonIetfVal (encoded : Raw)

/-- The field of a typed value that a leaf of a Go type has. -/
def protoValue {Raw : Type} : Leaf → TypedValue Raw
  | .bool value => .boolVal value
  | .int value => .intVal value
  | .uint8 value => .uintVal value.toUInt64
  | .uint16 value => .uintVal value.toUInt64
  | .uint32 value => .uintVal value.toUInt64
  | .uint64 value => .uintVal value
  | .float64 value => .doubleVal value
  | .string value => .stringVal value

/-- `typedValue`; the leaf is encoded as JSON whatever the encoding is. -/
def typedValue (json : Json) (path : GoString) (value : Leaf) (encoding : Encoding) :
    Except Status (TypedValue json.Raw) :=
  match json.marshal value with
  | .error err => .error ⟨.internal, .text ("encode " ++ path ++ ": ") ++ err.asText⟩
  | .ok encoded =>
    match encoding with
    | .json => .ok (.jsonVal encoded)
    | .jsonIetf => .ok (.jsonIetfVal encoded)
    | _ => .ok (protoValue value)

theorem exists_typedValue_of_marshal {json : Json} {value : Leaf} {encoded : json.Raw}
    (hMarshal : json.marshal value = .ok encoded) (path : GoString) (encoding : Encoding) :
    ∃ typed, typedValue json path value encoding = .ok typed := by
  unfold typedValue
  rw [hMarshal]
  cases encoding <;> exact ⟨_, rfl⟩

theorem exists_marshal_of_typedValue_eq_ok {json : Json} {path : GoString} {value : Leaf}
    {encoding : Encoding} {typed : TypedValue json.Raw}
    (hTyped : typedValue json path value encoding = .ok typed) :
    ∃ encoded, json.marshal value = .ok encoded := by
  cases hMarshal : json.marshal value with
  | error err =>
    rw [typedValue, hMarshal] at hTyped
    cases hTyped
  | ok encoded => exact ⟨encoded, rfl⟩

end Gnmi
end TriadSim

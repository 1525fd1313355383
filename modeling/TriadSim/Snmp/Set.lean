import TriadSim.Datatree.Run

/-!
# SNMP SET

`internal/snmp/agent.go` and `oid.go`: the variable bindings of a SET are checked one
by one against a snapshot of running, inside one router transaction, and written in a
single batch.
-/

namespace TriadSim

open Go Store

namespace Router

/-- The binding of an object over a content; an object whose leaf is missing has none. -/
def bindingOf (values : Values) (object : IndexedObject) : Option Binding :=
  let found : Option GoValue :=
    if object.path = [] then some object.constant else values[object.path]?.map GoValue.leaf
  found.map fun value =>
    { oid := object.oid, path := object.path,
      value := (object.convert.map fun conversion => conversion.apply value).getD value,
      type := object.type, writable := object.writable }

/-- The bindings of a content. -/
def bindingsOf (r : Router) (values : Values) : Except Err (List Binding) := do
  let device ← deviceFromValues r.root values
  return (buildObjects device).filterMap (bindingOf values)

/-- `Bindings`: memoized by the generation of the datastore. -/
def bindings (r : Router) (ds : Datastore) : Prog (Except Err (List Binding)) :=
  checkCtx <| andThen (ask (.generation ds)) fun generation =>
    .call (.cachedBindings ds generation) fun
      | some bindings => .ret (.ok bindings)
      | none =>
        andThen (flatValues ds) fun values =>
          andThen (.ret (r.bindingsOf values)) fun bindings =>
            .call (.cacheBindings ⟨ds, generation, bindings⟩) fun () => .ret (.ok bindings)

end Router

namespace Snmp

open Router

/-- The error statuses a SET is answered with. -/
inductive Status where
  | noError
  | genErr
  | wrongType
  | wrongValue
  | noCreation
  | inconsistentValue
  | notWritable
  deriving DecidableEq, Repr

/-- A variable binding of a request: an OID and the value gosnmp has decoded. -/
structure VarBind where
  name : GoString
  value : GoValue

/-- The type tag of a variable binding of a reply. -/
inductive Tag where
  | object (type : SNMPType)
  | null
  | noSuchObject
  | endOfMibView
  deriving DecidableEq, Repr

/-- A variable binding of a reply. -/
structure PDU where
  name : GoString
  tag : Tag
  value : GoValue
  deriving DecidableEq

/-- The reply to a SET. -/
structure Reply where
  varbinds : List PDU
  status : Status
  index : UInt8
  deriving DecidableEq

/-! ## Values -/

/-- `fromPDU`: the value as the router coerces it.  A `float32` stands for the `float64`
it is widened to. -/
def fromPDU : GoValue → Option GoValue
  | .leaf (.uint8 _) => none
  | .leaf (.uint16 _) => none
  | .leaf value => some (.leaf value)
  | .int64 value => some (.int64 value)
  | .uint value => some (.uint value)
  | .bytes value => some (.leaf (.string value))
  | .nil => none
  | .other _ => none

def asInt : GoValue → Option Int64
  | .leaf (.int n) => some n
  | .int64 n => some n
  | .leaf (.uint8 n) => some (Int64.ofNat n.toNat)
  | .leaf (.uint16 n) => some (Int64.ofNat n.toNat)
  | .leaf (.uint32 n) => some (Int64.ofNat n.toNat)
  | .leaf (.uint64 n) => some n.toInt64
  | _ => none

def asUint32 : GoValue → Option UInt32
  | .leaf (.uint8 n) => some n.toUInt32
  | .leaf (.uint16 n) => some n.toUInt32
  | .leaf (.uint32 n) => some n
  | .leaf (.uint64 n) => some n.toUInt32
  | .leaf (.int n) => some n.toUInt64.toUInt32
  | _ => none

def asUint64 : GoValue → Option UInt64
  | .leaf (.uint8 n) => some n.toUInt64
  | .leaf (.uint16 n) => some n.toUInt64
  | .leaf (.uint32 n) => some n.toUInt64
  | .leaf (.uint64 n) => some n
  | .leaf (.int n) => some n.toUInt64
  | .int64 n => some n.toUInt64
  | _ => none

def asFloat64 : GoValue → Option Float64
  | .leaf (.float64 x) => some x
  | .leaf (.int n) => some (Float64.ofInt n.toInt)
  | .leaf (.uint32 n) => some (Float64.ofInt n.toNat)
  | _ => none

/-- The value of an object in the Go type its ASN.1 type is marshalled from. -/
def normalise : SNMPType → GoValue → Option GoValue
  | .integer, value => (asInt value).map fun n => .leaf (.int n)
  | .gauge32, value => (asUint32 value).map fun n => .leaf (.uint32 n)
  | .counter32, value => (asUint32 value).map fun n => .leaf (.uint32 n)
  | .timeTicks, value => (asUint32 value).map fun n => .leaf (.uint32 n)
  | .counter64, value => (asUint64 value).map fun n => .leaf (.uint64 n)
  | .octetString, .bytes octets => some (.bytes octets)
  | .octetString, .leaf (.string s) => some (.leaf (.string s))
  | .octetString, _ => none
  | .objectID, .leaf (.string s) => some (.leaf (.string s))
  | .objectID, _ => none
  | .opaqueDouble, value => (asFloat64 value).map fun x => .leaf (.float64 x)

/-- `toPDU`. -/
def toPDU (binding : Binding) : PDU :=
  match normalise binding.type binding.value with
  | some value => ⟨binding.oid, .object binding.type, value⟩
  | none => ⟨binding.oid, .null, .nil⟩

/-! ## The index -/

/-- `trimOID`. -/
def trimOID (oid : GoString) : GoString :=
  trimLead oid "."

/-- The bindings as `newPDUIndex` sorts them. -/
def sortedBindings (bindings : List Binding) : List Binding :=
  bindings.insertionSort fun first second => compareOID first.oid second.oid ≠ .gt

/-- `newPDUIndex`, for exact lookups: of several bindings with one OID the last in the
sorted order counts. -/
def pduIndex (bindings : List Binding) : Std.ExtTreeMap GoString Binding :=
  (sortedBindings bindings).foldl (fun index binding => index.insert binding.oid binding) ∅

/-- `index`. -/
def index (r : Router) : Prog (Except Err (Std.ExtTreeMap GoString Binding)) :=
  andThen (r.bindings .running) fun bindings => .ret (.ok (pduIndex bindings))

/-! ## SET -/

/-- The status of a value the router does not convert. -/
def convertStatus (err : Err) : Status :=
  if err.is .routerReadOnly then .notWritable
  else if err.is .routerTypeMismatch then .wrongType
  else if err.is .routerBadValue then .wrongValue
  else if err.is .routerNotFound then .noCreation
  else .genErr

/-- The checks of one variable binding up to its conversion. -/
def checkVarBind (r : Router) (index : Std.ExtTreeMap GoString Binding) (varbind : VarBind) :
    Except Status Result :=
  match index[trimOID varbind.name]? with
  | none => .error .noCreation
  | some binding =>
    if !binding.writable || binding.path = [] then .error .notWritable
    else
      match fromPDU varbind.value with
      | none => .error .wrongType
      | some value =>
        match r.convert binding.path value with
        | .error err => .error (convertStatus err)
        | .ok converted => .ok converted

/-- The loop of `applySet`: every binding joins the proposal and the changes, and the
proposal is validated each time.  A failure carries the number of the binding. -/
def checkVarBinds (r : Router) (index : Std.ExtTreeMap GoString Binding) :
    Nat → List VarBind → Values → Values → Prog (Except (Status × UInt8) Values)
  | _, [], _, changed => .ret (.ok changed)
  | number, varbind :: rest, proposed, changed =>
    match checkVarBind r index varbind with
    | .error status => .ret (.error (status, UInt8.ofNat number))
    | .ok converted =>
      let proposed := proposed.insert converted.path converted.value
      (r.validateProg proposed).bind fun
        | .error _ => .ret (.error (.inconsistentValue, UInt8.ofNat number))
        | .ok () => checkVarBinds r index (number + 1) rest proposed
            (changed.insert converted.path converted.value)

/-- The written objects as the reply echoes them. -/
def echo (index : Std.ExtTreeMap GoString Binding) (varbind : VarBind) : PDU :=
  match index[trimOID varbind.name]? with
  | none => ⟨trimOID varbind.name, .noSuchObject, .nil⟩
  | some binding => toPDU binding

/-- A reply without variables. -/
def Reply.failure (status : Status) (index : UInt8) : Reply :=
  ⟨[], status, index⟩

/-- Go on with the value of a step, or answer with a general error. -/
def orGenErr {α : Type} (step : Prog (Except Err α)) (next : α → Prog Reply) : Prog Reply :=
  step.bind fun
    | .error _ => .ret (.failure .genErr 0)
    | .ok value => next value

/-- `applySet`. -/
def applySet (r : Router) (varbinds : List VarBind) : Prog Reply :=
  orGenErr (r.values .running) fun results =>
    orGenErr (index r) fun found =>
      (checkVarBinds r found 1 varbinds (results.map fun _ result => result.value) ∅).bind fun
        | .error (status, number) => .ret (.failure status number)
        | .ok changed =>
          orGenErr (r.apply .running (changed.map fun _ value => .leaf value) []) fun () =>
            orGenErr (index r) fun written => .ret ⟨varbinds.map (echo written), .noError, 0⟩

/-- `set`. -/
def set (r : Router) (varbinds : List VarBind) : Prog Reply :=
  orGenErr (transaction ((applySet r varbinds).bind fun reply => .ret (.ok reply))) .ret

end Snmp
end TriadSim

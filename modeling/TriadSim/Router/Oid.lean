import Mathlib.Data.List.Sort
import TriadSim.Model.Validate
import TriadSim.Router.Resolve

/-!
# SNMP objects

`internal/router/oid.go` and `buildObjects`: which leaves of a device are SNMP
objects, under which OIDs, and how their values are translated.
-/

namespace TriadSim
namespace Router

open Go Model

/-! ## Translations -/

/-- The ASN.1 types of the OID tables. -/
inductive SNMPType where
  | integer
  | octetString
  | objectID
  | gauge32
  | counter32
  | counter64
  | timeTicks
  | opaqueDouble
  deriving DecidableEq, Repr

/-- The functions that translate a leaf to the value of its object. -/
inductive Conversion where
  | ifTypeValue
  | ifOperStatusValue
  | truthValue
  | ticksFromSeconds
  | macOctets
  | stpPortStateValue
  | stpPortEnableValue
  | fdbStatusValue
  | ptpStateValue
  | linkStateValue
  | qlValue
  | extendedQLValue
  deriving DecidableEq, Repr

/-- A Go `int`. -/
def goInt (n : Nat) : GoValue :=
  .leaf (.int (Int64.ofNat n))

/-- A switch over the names of an enumeration; a value that is not a string passes
through. -/
def switchName (cases : List (String × Nat)) (otherwise : Nat) : GoValue → GoValue
  | .leaf (.string name) =>
    match cases.find? fun entry => name = text entry.1 with
    | some entry => goInt entry.2
    | none => goInt otherwise
  | value => value

namespace Conversion

def apply : Conversion → GoValue → GoValue
  | ifTypeValue, value => if value = .leaf (.string "radio") then goInt 1 else goInt 6
  | ifOperStatusValue, value => if value = .leaf (.bool true) then goInt 1 else goInt 2
  | truthValue, value => if value = .leaf (.bool true) then goInt 1 else goInt 2
  | ticksFromSeconds, .leaf (.uint32 n) => .leaf (.uint32 (n * 100))
  | ticksFromSeconds, value => value
  | macOctets, .leaf (.string address) =>
    match parseMAC address with
    | some octets => if octets.length = 6 then .bytes octets else .leaf (.string address)
    | none => .leaf (.string address)
  | macOctets, value => value
  | stpPortStateValue, value =>
    switchName [("disabled", 1), ("blocking", 2), ("discarding", 2), ("listening", 3),
      ("learning", 4), ("forwarding", 5)] 1 value
  | stpPortEnableValue, value =>
    if value = .leaf (.string "disabled") then goInt 2 else goInt 1
  | fdbStatusValue, value => if value = .leaf (.string "static") then goInt 5 else goInt 3
  | ptpStateValue, value =>
    switchName [("freerun", 1), ("acquiring", 2), ("locked", 3), ("holdover-in-spec", 4),
      ("holdover-out-of-spec", 5)] 1 value
  | linkStateValue, value => switchName [("degraded", 2), ("down", 3)] 1 value
  | qlValue, value =>
    switchName [("QL-PRC", 2), ("QL-SSU-A", 4), ("QL-SSU-B", 8), ("QL-SEC", 11),
      ("QL-DNU", 15)] 0 value
  | extendedQLValue, value =>
    switchName [("QL-PRTC", 0x20), ("QL-ePRTC", 0x21), ("QL-eEEC", 0x22)] 0 value

end Conversion

/-- The one function that translates a written value back to a leaf. -/
inductive Decoder where
  | truthFromInt
  deriving DecidableEq, Repr

/-- `truthFromInt`: a boolean, or 1 or 2 as an `int` or a `uint32`. -/
def Decoder.apply : Decoder → GoValue → Except Err GoValue
  | truthFromInt, value =>
    if value = .leaf (.bool true) ∨ value = .leaf (.int 1) ∨ value = .leaf (.uint32 1) then
      .ok (.leaf (.bool true))
    else if value = .leaf (.bool false) ∨ value = .leaf (.int 2) ∨ value = .leaf (.uint32 2) then
      .ok (.leaf (.bool false))
    else .error (.text "expected TruthValue 1 or 2, got " ++ .piece (.shown value))

theorem Decoder.exists_bool_of_apply_eq_ok {decoder : Decoder} {value decoded : GoValue}
    (hApply : decoder.apply value = .ok decoded) : ∃ truth, decoded = .leaf (.bool truth) := by
  cases decoder
  simp only [apply] at hApply
  split at hApply
  · cases hApply
    exact ⟨true, rfl⟩
  · split at hApply
    · cases hApply
      exact ⟨false, rfl⟩
    · cases hApply

/-- A decoded value decodes to itself. -/
theorem Decoder.apply_of_apply_eq_ok {decoder : Decoder} {value decoded : GoValue}
    (hApply : decoder.apply value = .ok decoded) : decoder.apply decoded = .ok decoded := by
  obtain ⟨truth, rfl⟩ := exists_bool_of_apply_eq_ok hApply
  cases decoder
  cases truth <;> rfl

/-! ## Rules -/

inductive Scope where
  | scalar
  | interface
  | radio
  | stpPort
  | mac
  | vlan
  | syncE
  deriving DecidableEq, Repr

/-- `objectRule`. -/
structure ObjectRule where
  scope : Scope
  suffix : GoString
  oid : GoString
  type : SNMPType
  writable : Bool
  convert : Option Conversion
  decode : Option Decoder

/-- A rule that exposes a leaf read-only and unchanged. -/
def rule (scope : Scope) (suffix oid : String) (type : SNMPType) : ObjectRule :=
  ⟨scope, text suffix, text oid, type, false, none, none⟩

def ObjectRule.converted (objectRule : ObjectRule) (conversion : Conversion) : ObjectRule :=
  { objectRule with convert := some conversion }

def ObjectRule.writableRule (objectRule : ObjectRule) : ObjectRule :=
  { objectRule with writable := true }

def ObjectRule.decoded (objectRule : ObjectRule) (decoder : Decoder) : ObjectRule :=
  { objectRule with decode := some decoder }

def enterpriseOID : String := "1.3.6.1.4.1.99999"

/-- A rule below the vendor subtree. -/
def vendorRule (scope : Scope) (suffix oid : String) (type : SNMPType) : ObjectRule :=
  rule scope suffix (enterpriseOID ++ oid) type

def objectRules : List ObjectRule := [
  rule .scalar "system-info/description" "1.3.6.1.2.1.1.1" .octetString,
  (rule .scalar "system-info/uptime" "1.3.6.1.2.1.1.3" .timeTicks).converted .ticksFromSeconds,
  (rule .scalar "system-info/contact" "1.3.6.1.2.1.1.4" .octetString).writableRule,
  (rule .scalar "system-info/name" "1.3.6.1.2.1.1.5" .octetString).writableRule,
  (rule .scalar "system-info/location" "1.3.6.1.2.1.1.6" .octetString).writableRule,
  rule .interface "name" "1.3.6.1.2.1.2.2.1.2" .octetString,
  (rule .interface "type" "1.3.6.1.2.1.2.2.1.3" .integer).converted .ifTypeValue,
  rule .interface "mtu" "1.3.6.1.2.1.2.2.1.4" .integer,
  (rule .interface "mac-address" "1.3.6.1.2.1.2.2.1.6" .octetString).converted .macOctets,
  (((rule .interface "enabled" "1.3.6.1.2.1.2.2.1.7" .integer).converted
    .ifOperStatusValue).decoded .truthFromInt).writableRule,
  (rule .interface "enabled" "1.3.6.1.2.1.2.2.1.8" .integer).converted .ifOperStatusValue,
  rule .interface "counters/in-octets" "1.3.6.1.2.1.2.2.1.10" .counter32,
  rule .interface "counters/in-ucast-pkts" "1.3.6.1.2.1.2.2.1.11" .counter32,
  rule .interface "counters/in-discards" "1.3.6.1.2.1.2.2.1.13" .counter32,
  rule .interface "counters/in-errors" "1.3.6.1.2.1.2.2.1.14" .counter32,
  rule .interface "counters/out-octets" "1.3.6.1.2.1.2.2.1.16" .counter32,
  rule .interface "counters/out-ucast-pkts" "1.3.6.1.2.1.2.2.1.17" .counter32,
  rule .interface "counters/out-discards" "1.3.6.1.2.1.2.2.1.19" .counter32,
  rule .interface "counters/out-errors" "1.3.6.1.2.1.2.2.1.20" .counter32,
  rule .interface "name" "1.3.6.1.2.1.31.1.1.1.1" .octetString,
  rule .interface "counters/in-octets" "1.3.6.1.2.1.31.1.1.1.6" .counter64,
  rule .interface "counters/in-ucast-pkts" "1.3.6.1.2.1.31.1.1.1.7" .counter64,
  rule .interface "counters/out-octets" "1.3.6.1.2.1.31.1.1.1.10" .counter64,
  rule .interface "counters/out-ucast-pkts" "1.3.6.1.2.1.31.1.1.1.11" .counter64,
  (rule .scalar "stp/state/bridge-address" "1.3.6.1.2.1.17.1.1" .octetString).converted
    .macOctets,
  (rule .scalar "stp/state/bridge-priority" "1.3.6.1.2.1.17.2.2" .integer).writableRule,
  (rule .stpPort "priority" "1.3.6.1.2.1.17.2.15.1.2" .integer).writableRule,
  (rule .stpPort "state" "1.3.6.1.2.1.17.2.15.1.3" .integer).converted .stpPortStateValue,
  (rule .stpPort "state" "1.3.6.1.2.1.17.2.15.1.4" .integer).converted .stpPortEnableValue,
  (rule .stpPort "path-cost" "1.3.6.1.2.1.17.2.15.1.5" .integer).writableRule,
  (rule .scalar "mac-table/aging-time" "1.3.6.1.2.1.17.4.2" .integer).writableRule,
  (rule .mac "mac-address" "1.3.6.1.2.1.17.4.3.1.1" .octetString).converted .macOctets,
  rule .mac "port" "1.3.6.1.2.1.17.4.3.1.2" .integer,
  (rule .mac "type" "1.3.6.1.2.1.17.4.3.1.3" .integer).converted .fdbStatusValue,
  rule .vlan "name" "1.3.6.1.2.1.17.7.1.4.3.1.1" .octetString,
  vendorRule .radio "rssi" ".1.1.1" .opaqueDouble,
  vendorRule .radio "fade-margin" ".1.1.2" .opaqueDouble,
  vendorRule .radio "capacity" ".1.1.3" .gauge32,
  (vendorRule .radio "tx-power" ".1.1.4" .opaqueDouble).writableRule,
  (((vendorRule .radio "atpc/enabled" ".1.1.5" .integer).converted .truthValue).decoded
    .truthFromInt).writableRule,
  vendorRule .radio "acm/current-profile" ".1.1.6" .integer,
  vendorRule .radio "acm/current-capacity" ".1.1.7" .gauge32,
  (vendorRule .radio "link-state" ".1.1.8" .integer).converted .linkStateValue,
  (vendorRule .scalar "ptp/clock/state" ".2.1.1" .integer).converted .ptpStateValue,
  vendorRule .scalar "ptp/clock/offset" ".2.1.2" .opaqueDouble,
  (vendorRule .scalar "ptp/clock/domain" ".2.1.3" .gauge32).writableRule,
  (vendorRule .scalar "ptp/clock/priority1" ".2.1.4" .gauge32).writableRule,
  (vendorRule .scalar "synce/selected-ql" ".2.1.5" .integer).converted .qlValue,
  (vendorRule .scalar "synce/selected-extended-ql" ".2.1.6" .integer).converted .extendedQLValue,
  (vendorRule .syncE "ql" ".2.1.7.1.1" .integer).converted .qlValue,
  (vendorRule .syncE "ssm-enabled" ".2.1.7.1.2" .integer).converted .truthValue,
  vendorRule .scalar "ptp/clock/jitter" ".2.1.8" .opaqueDouble]

/-! ## Objects -/

/-- `indexedObject`: a constant object has no path. -/
structure IndexedObject where
  oid : GoString
  path : GoString
  type : SNMPType
  writable : Bool
  convert : Option Conversion
  decode : Option Decoder
  constant : GoValue

/-- The object a rule makes at an OID and a path. -/
def ObjectRule.object (objectRule : ObjectRule) (oid path : GoString) : IndexedObject :=
  { oid, path, type := objectRule.type, writable := objectRule.writable,
    convert := objectRule.convert, decode := objectRule.decode, constant := .nil }

def constantObject (oid : GoString) (type : SNMPType) (constant : GoValue) : IndexedObject :=
  { oid, path := [], type, writable := false, convert := none, decode := none, constant }

/-- `checkPath`: whether a path resolves to a leaf of the device. -/
def checkPath (root : Device) (path : GoString) : Bool :=
  match parse path with
  | .error _ => false
  | .ok segments =>
    match resolve Device.fields root.toVals segments with
    | .ok ⟨.leaf _, _⟩ => true
    | _ => false

/-- Both `instanceOID` and `indexOID`. -/
def indexOID (base index : GoString) : GoString :=
  base ++ 46 :: index

/-- The objects of the scalar rules. -/
def scalarObjects (root : Device) : List IndexedObject :=
  (objectRules.filter fun objectRule =>
    objectRule.scope = .scalar && checkPath root objectRule.suffix).map fun objectRule =>
      objectRule.object (objectRule.oid ++ ".0") objectRule.suffix

/-- The objects of one interface; `radioExposed` says whether an earlier interface
has a radio link. -/
def interfaceObjects (radioExposed : Bool) (instance_ : Nat) (iface : Interface) :
    List IndexedObject :=
  let base : GoString := "interfaces/interface[name=" ++ iface.name ++ "]"
  constantObject (indexOID "1.3.6.1.2.1.2.2.1.1" (formatNat instance_)) .integer
      (goInt instance_) ::
    objectRules.filterMap fun objectRule =>
      match objectRule.scope with
      | .interface =>
        some (objectRule.object (indexOID objectRule.oid (formatNat instance_))
          (base ++ "/" ++ objectRule.suffix))
      | .radio =>
        if iface.radioLink.isNone || radioExposed then none
        else some (objectRule.object (objectRule.oid ++ ".0")
          (base ++ "/radio-link/" ++ objectRule.suffix))
      | _ => none

/-- The loop over the interfaces, numbered from one. -/
def interfacesObjects : Bool → Nat → List Interface → List IndexedObject
  | _, _, [] => []
  | radioExposed, instance_, iface :: rest =>
    interfaceObjects radioExposed instance_ iface ++
      interfacesObjects (radioExposed || iface.radioLink.isSome) (instance_ + 1) rest

/-- `tableObjects`: a key without a sub-identifier is skipped. -/
def tableObjects (scope : Scope) (keys : List GoString) (lead : GoString)
    (keyed : GoString → Option GoString) : List IndexedObject :=
  keys.flatMap fun key =>
    match keyed key with
    | none => []
    | some index =>
      (objectRules.filter fun objectRule => objectRule.scope = scope).map fun objectRule =>
        objectRule.object (indexOID objectRule.oid index)
          (lead ++ key ++ "]/" ++ objectRule.suffix)

/-- `interfaceIndexOf`, rendered; none for a name that is not an interface. -/
def interfaceInstance (root : Device) (name : GoString) : Option GoString :=
  (root.interfaces.findIdx? fun iface => iface.name = name).map fun index => formatNat (index + 1)

/-- `macInstance`. -/
def macInstance (address : GoString) : Option GoString :=
  match parseMAC address with
  | some octets =>
    if octets.length = 6 then some (join (octets.map fun octet => formatNat octet.toNat) 46)
    else none
  | none => none

/-- A component of an OID that Go's `Atoi` reads. -/
def oidNumber? (component : GoString) : Option Int :=
  parseInt 64 component

/-- `CompareOID` on components: numeric where both are numbers, else as text. -/
def compareComponents : List GoString → List GoString → Ordering
  | [], [] => .eq
  | [], _ :: _ => .lt
  | _ :: _, [] => .gt
  | a :: as, b :: bs =>
    match (match oidNumber? a, oidNumber? b with
      | some m, some n => compare m n
      | _, _ => compare a b) with
    | .eq => compareComponents as bs
    | order => order

/-- `CompareOID`. -/
def compareOID (a b : GoString) : Ordering :=
  compareComponents (split (trimLead a ".") 46) (split (trimLead b ".") 46)

/-- `buildObjects`: the OID tables applied to a device, sorted by OID. -/
def buildObjects (root : Device) : List IndexedObject :=
  let objects :=
    scalarObjects root ++
    [constantObject "1.3.6.1.2.1.1.2.0" .objectID
      (.leaf (.string (text enterpriseOID ++ ".1")))] ++
    interfacesObjects false 1 root.interfaces ++
    tableObjects .stpPort (root.stp.ports.map STPPort.port) "stp/state/ports/port[port="
      (interfaceInstance root) ++
    tableObjects .mac (root.macTable.entries.map MACEntry.mac) "mac-table/entry[mac-address="
      macInstance ++
    tableObjects .vlan (root.vlans.map fun vlan => formatNat vlan.id.toNat) "vlans/vlan[id="
      some ++
    tableObjects .syncE (root.syncE.interfaces.map SyncEInterface.name)
      "synce/interfaces/interface[name=" (interfaceInstance root)
  objects.insertionSort fun first second => compareOID first.oid second.oid ≠ .gt

/-- The entry of `byPath` for a path: the first object there that decodes, or else
the last one. -/
def objectAt (objects : List IndexedObject) (path : GoString) : Option IndexedObject :=
  objects.foldl (fun found object =>
    if object.path = [] || object.path ≠ path then found
    else if (found.bind IndexedObject.decode).isSome then found
    else some object) none

/-- The object of a path is one of the objects, and has that path. -/
theorem mem_of_objectAt_eq_some {objects : List IndexedObject} {path : GoString}
    {object : IndexedObject} (hObject : objectAt objects path = some object) :
    object ∈ objects ∧ object.path = path := by
  refine List.foldlRecOn (motive := fun found : Option IndexedObject =>
    ∀ candidate, found = some candidate → candidate ∈ objects ∧ candidate.path = path) objects _
    (by simp) ?_ object hObject
  intro found hFound first hFirst
  split
  · exact hFound
  next hPath =>
    split
    · exact hFound
    · intro candidate hCandidate
      cases hCandidate
      exact ⟨hFirst, (by simpa using hPath : _ ∧ _).2⟩

end Router
end TriadSim

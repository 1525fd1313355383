import TriadSim.Events.Bus
import TriadSim.Go.Hex
import TriadSim.Snmp.Objects
import TriadSim.System.ClockState

/-!
# The payload of a trap

`internal/snmp/trap.go`: a trap carries leaves of running next to its two mandatory variable
bindings.  They are read through the router of the boot template and are not converted, while GET
answers from the objects of the rebuilt device.  `trap_payload_is_get_answer_iff` says when the
two agree.
-/

namespace TriadSim

open Go Library Model Store

namespace Router

/-- `Get`, on a content of the datastore. -/
def getLeaf (r : Router) (content : Values) (path : GoString) : Except Err Result :=
  match r.locate path with
  | .error err => .error err
  | .ok (canonical, _, readOnly) =>
    match content[canonical]? with
    | none => .error (.sentinel .routerNotFound ++ .text ": " ++ Memory.notFound canonical)
    | some leaf => .ok (r.result canonical leaf !readOnly)

end Router

namespace Snmp

open Router

/-! ## Traps -/

inductive Trap where
  | radioLinkDown
  | radioLinkUp
  | syncHoldover
  | syncRestored
  | l2Storm
  | configChanged
  deriving DecidableEq, Repr

/-- The trap OIDs. -/
def Trap.oid (trap : Trap) : GoString :=
  text enterpriseOID ++ ".0." ++ formatNat (trap.ctorIdx + 1)

/-- `trapFor`. -/
def trapFor (event : Events.Event) : Option Trap :=
  match event.type with
  | .alarmRaised =>
    if event.alarm = Events.alarmRadioLinkDown then some .radioLinkDown
    else if event.alarm = Events.alarmL2Storm then some .l2Storm
    else none
  | .alarmCleared =>
    if event.alarm = Events.alarmRadioLinkDown then some .radioLinkUp else none
  | .stateTransition =>
    if event.domain ≠ Events.domainSync then none
    else if hasPrefix event.toState "holdover" then some .syncHoldover
    else if hasPrefix event.fromState "holdover" && event.toState = text "locked" then
      some .syncRestored
    else none
  | .configChanged => some .configChanged

/-- `binding`: the leaf as it is stored. -/
def trapBinding (r : Router) (content : Values) (path : GoString) : Option Binding :=
  match r.getLeaf content path with
  | .error _ => none
  | .ok result => result.type.map fun type =>
      ⟨result.oid, result.path, .leaf result.value, type, result.writable⟩

/-- `interfaceIndex`. -/
def interfaceIndex (r : Router) (content : Values) (link : GoString) : Option Nat :=
  match deviceFromValues r.root content with
  | .error _ => none
  | .ok device => (device.interfaces.findIdx? fun iface => iface.name = link).map (· + 1)

/-- `radioVarbinds`. -/
def radioVarbinds (r : Router) (content : Values) (link : GoString) : List PDU :=
  if link = [] then []
  else
    ([text "rssi", text "fade-margin"].filterMap fun suffix =>
      (trapBinding r content (radioPath link suffix)).map toPDU) ++
    ((interfaceIndex r content link).map fun index =>
      ⟨indexOID "1.3.6.1.2.1.2.2.1.2" (formatNat index), .object .octetString, .bytes link⟩).toList

/-- The payload of `varbinds`. -/
def payload (r : Router) (content : Values) (event : Events.Event) : List PDU :=
  match trapFor event with
  | some .radioLinkDown => radioVarbinds r content event.resource
  | some .radioLinkUp => radioVarbinds r content event.resource
  | some .syncHoldover => ((trapBinding r content Sync.statePath).map toPDU).toList
  | some .syncRestored => ((trapBinding r content Sync.statePath).map toPDU).toList
  | _ => []

/-- `varbinds`; `ticks` is the uptime of the sender. -/
def varbinds (r : Router) (content : Values) (ticks : UInt32) (trap : Trap)
    (event : Events.Event) : List PDU :=
  ⟨"1.3.6.1.2.1.1.3.0", .object .timeTicks, .leaf (.uint32 ticks)⟩ ::
    ⟨"1.3.6.1.6.3.1.1.4.1.0", .object .objectID, .leaf (.string trap.oid)⟩ ::
      payload r content event

/-! ## GET on the same content -/

/-- What is sent of a variable binding: a string and its bytes are the same octets. -/
def PDU.onWire (pdu : PDU) : PDU :=
  match pdu.value with
  | .bytes octets => { pdu with value := .leaf (.string octets) }
  | _ => pdu

/-- GET gives that answer for the OID of the variable binding. -/
def AgreesWithGet (r : Router) (content : Values) (pdu : PDU) : Prop :=
  ∃ bindings, r.bindingsOf content = .ok bindings ∧
    (getAnswer bindings pdu.name).onWire = pdu.onWire

/-- The router of a template exposes a leaf. -/
def Exposed (r : Router) (path : GoString) : Prop :=
  (r.locate path).isOk = true ∧ (objectAt r.objects path).isSome = true

/-- The first radio link of the rebuilt device has a level, stored as a number. -/
def FirstLinkHas (r : Router) (content : Values) (suffix : GoString) (leaf : Leaf) : Prop :=
  ∃ device iface answered, deviceFromValues r.root content = .ok device ∧
    device.interfaces.find? (·.radioLink.isSome) = some iface ∧
    content[radioPath iface.name suffix]? = some answered ∧
    asFloat64 (.leaf answered) = asFloat64 (.leaf leaf)

/-- The leaves a radio trap carries are those that GET answers: a level is that of the first
radio link of the rebuilt device, and the name of the interface is stored under its own name. -/
structure RadioFits (r : Router) (content : Values) (link : GoString) : Prop where
  level : ∀ suffix ∈ [text "rssi", text "fade-margin"], ∀ leaf,
    Exposed r (radioPath link suffix) → content[radioPath link suffix]? = some leaf →
      FirstLinkHas r content suffix leaf
  name : ∀ device, deviceFromValues r.root content = .ok device →
    (∃ iface ∈ device.interfaces, iface.name = link) →
      content[interfacePath link "name"]? = some (.string link)

/-- The condition under which the payload of an event is what GET answers. -/
def PayloadFits (r : Router) (content : Values) (event : Events.Event) : Prop :=
  match trapFor event with
  | some .radioLinkDown => event.resource ≠ [] → RadioFits r content event.resource
  | some .radioLinkUp => event.resource ≠ [] → RadioFits r content event.resource
  | some .syncHoldover => Exposed r Sync.statePath → content[Sync.statePath]? = none
  | some .syncRestored => Exposed r Sync.statePath → content[Sync.statePath]? = none
  | _ => True

section Answers

variable {root device : Device} {content : Values} {link suffix : GoString}

theorem agreesWithGet_iff {r : Router} {pdu : PDU} :
    AgreesWithGet r content pdu ↔ ∃ device, deviceFromValues r.root content = .ok device ∧
      (getAnswer ((buildObjects device).filterMap (bindingOf content)) pdu.name).onWire =
        pdu.onWire := by
  rw [AgreesWithGet, bindingsOf]
  cases deviceFromValues r.root content with
  | error err => simp [bind, Except.bind]
  | ok device => simp [bind, Except.bind, pure, Except.pure]

/-- What a trap sends of a path: the stored leaf, under the OID of the template. -/
theorem map_toPDU_trapBinding_eq_some {r : Router} {path : GoString} {pdu : PDU} :
    (trapBinding r content path).map toPDU = some pdu ↔
      ∃ object leaf, (r.locate path).isOk = true ∧ objectAt r.objects path = some object ∧
        content[path]? = some leaf ∧
        toPDU ⟨object.oid, [], .leaf leaf, object.type, false⟩ = pdu := by
  rw [trapBinding, getLeaf]
  cases hLocate : r.locate path with
  | error err => simp [Except.isOk, Except.toBool]
  | ok located =>
    obtain ⟨canonical, kind, readOnly⟩ := located
    obtain ⟨rfl, _⟩ := locate_eq_ok hLocate
    dsimp only
    cases hLeaf : content[canonical]? with
    | none => simp
    | some leaf =>
      cases hObject : objectAt r.objects canonical with
      | none => simp [result, hObject]
      | some object =>
        simp only [result, hObject]
        simp [Except.isOk, Except.toBool, toPDU]

/-! ### The levels of a radio link -/

/-- The template exposes a level of a radio link by the rule of the level. -/
theorem radioRule_of_objectAt (hSuffix : suffix ∈ [text "rssi", text "fade-margin"])
    {object : IndexedObject}
    (hObject : objectAt (buildObjects root) (radioPath link suffix) = some object) :
    ∃ objectRule ∈ objectRules, objectRule.scope = .radio ∧ objectRule.suffix = suffix ∧
      objectRule.type = .opaqueDouble ∧ objectRule.convert = none ∧
      object.oid = indexOID objectRule.oid "0" ∧ object.type = .opaqueDouble := by
  obtain ⟨hMem, hPath⟩ := mem_of_objectAt_eq_some hObject
  obtain ⟨_, _, _, objectRule, _, _, index, lead, hOID, _, hIndex, ⟨hRule, hFrom⟩ | ⟨_, hNone⟩⟩ :=
    fromScopes_of_mem_buildObjects hMem
  · -- No other rule has a suffix that ends as this path does.
    have hRules : ∀ suffix ∈ [text "rssi", text "fade-margin"], ∀ objectRule ∈ objectRules,
        objectRule.suffix <:+ text "]" ++ text "/radio-link/" ++ suffix ∨
          text "]" ++ text "/radio-link/" ++ suffix <:+ objectRule.suffix →
        objectRule.scope = .radio ∧ objectRule.suffix = suffix ∧
          objectRule.type = .opaqueDouble ∧ objectRule.convert = none := by
      decide +kernel
    have hSame : lead ++ objectRule.suffix = radioPath link suffix := by
      rw [hFrom] at hPath
      exact hPath
    obtain ⟨hScope, hName, hType, hConvert⟩ := hRules suffix hSuffix objectRule hRule
      (List.suffix_or_suffix_of_suffix ⟨lead, hSame⟩
        ⟨text "interfaces/interface[name=" ++ link, by simp [radioPath]⟩)
    refine ⟨objectRule, hRule, hScope, hName, hType, hConvert, hIndex (Or.inr hScope) ▸ hOID, ?_⟩
    rw [hFrom]
    exact hType
  · rw [hPath] at hNone
    cases hNone

theorem onWire_missing_ne (oid : GoString) (binding : Binding) :
    PDU.onWire ⟨oid, .noSuchObject, .nil⟩ ≠ (toPDU binding).onWire := by
  have hTag : ∀ pdu : PDU, pdu.onWire.tag = pdu.tag := by
    intro pdu
    unfold PDU.onWire
    split <;> rfl
  intro hSame
  have hTags := congrArg PDU.tag hSame
  rw [hTag, hTag, toPDU] at hTags
  split at hTags <;> cases hTags

theorem onWire_double_eq_iff {oid : GoString} {first second : Leaf} :
    (toPDU ⟨oid, [], .leaf first, .opaqueDouble, false⟩).onWire =
        (toPDU ⟨oid, [], .leaf second, .opaqueDouble, false⟩).onWire ↔
      asFloat64 (.leaf first) = asFloat64 (.leaf second) := by
  simp only [toPDU, normalise]
  cases asFloat64 (.leaf first) <;> cases asFloat64 (.leaf second) <;> simp [PDU.onWire]

/-- GET answers a level from the first radio link. -/
theorem level_agrees_iff {objectRule : ObjectRule} (hRule : objectRule ∈ objectRules)
    (hScope : objectRule.scope = .radio) (hType : objectRule.type = .opaqueDouble)
    (hConvert : objectRule.convert = none) {r : Router} {leaf : Leaf} :
    AgreesWithGet r content
        (toPDU ⟨indexOID objectRule.oid "0", [], .leaf leaf, .opaqueDouble, false⟩) ↔
      FirstLinkHas r content objectRule.suffix leaf := by
  rw [agreesWithGet_iff, name_toPDU]
  refine exists_congr fun device => ?_
  have hGet := @getAnswer_indexOID objectRule device content hRule "0"
    ((device.interfaces.find? (·.radioLink.isSome)).map fun iface =>
      radioPath iface.name objectRule.suffix) (by
      rw [Ne, Option.map_eq_some_iff]
      rintro ⟨_, _, hNil⟩
      cases hNil) fun object => by
        rw [mem_buildObjects_and_oid_iff hRule (Or.inr hScope)]
        simp [hScope]
  rw [hGet, hType, hConvert]
  cases hIface : device.interfaces.find? (·.radioLink.isSome) with
  | none => simp [onWire_missing_ne]
  | some iface =>
    cases hAnswered : content[radioPath iface.name objectRule.suffix]? with
    | none => simp [hAnswered, onWire_missing_ne]
    | some answered => simp [hAnswered, onWire_double_eq_iff]

/-! ### The name of an interface -/

theorem name_agrees_iff {r : Router} (hDevice : deviceFromValues r.root content = .ok device)
    {number : Nat} {iface : Interface} (hIface : device.interfaces[number]? = some iface) :
    AgreesWithGet r content ⟨indexOID "1.3.6.1.2.1.2.2.1.2" (formatNat (number + 1)),
        .object .octetString, .bytes iface.name⟩ ↔
      content[interfacePath iface.name "name"]? = some (.string iface.name) := by
  have hRule : rule .interface "name" "1.3.6.1.2.1.2.2.1.2" .octetString ∈ objectRules :=
    List.mem_of_getElem? (i := 5) rfl
  have hGet := @getAnswer_indexOID _ device content hRule (formatNat (number + 1))
    (some (interfacePath iface.name "name")) (fun hNil => by cases hNil) fun object => by
      rw [mem_buildObjects_and_oid_iff hRule (Or.inl rfl)]
      constructor
      · rintro (⟨_, other, found, hFound, hNumber, rfl⟩ | ⟨hScope, _⟩)
        · have hSame : other = number := by
            have hNumbers := formatNat_injective hNumber
            omega
          rw [hSame, hIface] at hFound
          cases hFound
          exact ⟨_, rfl, rfl⟩
        · cases hScope
      · rintro ⟨path, hPath, rfl⟩
        cases hPath
        exact Or.inl ⟨rfl, number, iface, hIface, by rw [Nat.add_comm], rfl⟩
  rw [agreesWithGet_iff, hDevice]
  dsimp only [rule] at hGet
  simp only [Except.ok.injEq, exists_eq_left', hGet, Option.bind_some]
  cases content[interfacePath iface.name "name"]? with
  | none => simp [PDU.onWire]
  | some leaf => cases leaf <;> simp [toPDU, normalise, PDU.onWire]

/-! ### The clock state -/

/-- A stored clock state of a device that can be rebuilt is a string. -/
theorem exists_string_of_deviceFromValues (hDevice : deviceFromValues root content = .ok device)
    {leaf : Leaf} (hLeaf : content[Sync.statePath]? = some leaf) :
    ∃ state, leaf = .string state := by
  obtain ⟨_, hHydrate, rfl⟩ := map_eq_ok_iff.mp hDevice
  obtain ⟨entries, hEntries, hAssign⟩ := bind_eq_ok_iff.mp hHydrate
  obtain ⟨_, hParsed, hComplete⟩ := parseEntries_eq_ok hEntries
  obtain ⟨entry, hEntry, hPath, rfl⟩ := hComplete _ _ hLeaf
  obtain ⟨before, after, hAssigned⟩ :=
    exists_assignPath_of_assignAll_eq_ok entries hAssign entry hEntry
  have hParse := (hParsed entry hEntry).1
  rw [hPath, parse_statePath] at hParse
  rw [← Except.ok.inj hParse] at hAssigned
  cases hLeaf : entry.leaf with
  | string state => exact ⟨state, rfl⟩
  | _ =>
    rw [hLeaf] at hAssigned
    cases hAssigned

/-- The rule of the clock state. -/
def clockRule : ObjectRule :=
  (vendorRule .scalar "ptp/clock/state" ".2.1.1" .integer).converted .ptpStateValue

theorem clockRule_mem_objectRules : clockRule ∈ objectRules :=
  List.mem_of_getElem? (i := 43) rfl

theorem exposed_clock_iff (object : IndexedObject) :
    object ∈ buildObjects device ∧ object.oid = indexOID clockRule.oid "0" ↔
      ∃ path, some Sync.statePath = some path ∧
        object = clockRule.object (indexOID clockRule.oid "0") path := by
  constructor
  · rintro ⟨hMem, hOID⟩
    obtain ⟨_, _, _, objectRule, hRule, _, index, lead, hIndex, hLead, _, hFrom⟩ :=
      fromScopes_of_mem_buildObjects hMem
    obtain ⟨rfl, rfl⟩ := rule_eq_of_indexOID_eq hRule (mem_allRules clockRule_mem_objectRules)
      (hIndex.symm.trans hOID)
    obtain ⟨_, rfl⟩ | ⟨hScope, _⟩ := hLead
    · obtain ⟨_, hFrom⟩ | ⟨hNone, _⟩ := hFrom
      · exact ⟨_, rfl, hOID ▸ hFrom⟩
      · exact absurd clockRule_mem_objectRules hNone
    · exact absurd rfl hScope
  · rintro ⟨path, hPath, rfl⟩
    cases hPath
    have hCheck : checkPath device Sync.statePath = true := by
      rw [checkPath, parse_statePath]
      rfl
    refine ⟨(perm_buildObjects device).mem_iff.mpr (List.mem_flatMap.mpr
      ⟨_, List.mem_cons_self, List.mem_append_left _ (List.mem_map.mpr
        ⟨clockRule, List.mem_filter.mpr ⟨clockRule_mem_objectRules, ?_⟩, rfl⟩)⟩), rfl⟩
    exact (Bool.and_eq_true _ _).mpr ⟨rfl, hCheck⟩

/-- A trap sends no value of the clock state, while GET answers a number. -/
theorem not_agreesWithGet_state {leaf : Leaf} (hLeaf : content[Sync.statePath]? = some leaf)
    {r : Router} : ¬ AgreesWithGet r content
      (toPDU ⟨indexOID clockRule.oid "0", [], .leaf leaf, .integer, false⟩) := by
  rw [agreesWithGet_iff, name_toPDU]
  rintro ⟨device, hDevice, hSame⟩
  have hGet := @getAnswer_indexOID _ device content clockRule_mem_objectRules _ _
    (fun hNil => by cases hNil) exposed_clock_iff
  obtain ⟨state, rfl⟩ := exists_string_of_deviceFromValues hDevice hLeaf
  have hNumber : ∃ n, Conversion.ptpStateValue.apply (.leaf (.string state)) = goInt n := by
    rw [Conversion.apply, switchName]
    split <;> exact ⟨_, rfl⟩
  obtain ⟨n, hNumber⟩ := hNumber
  rw [hGet, Option.bind_some, hLeaf] at hSame
  simp [clockRule, ObjectRule.converted, vendorRule, rule, hNumber, goInt, toPDU, normalise, asInt,
    PDU.onWire] at hSame

/-- The template exposes the clock state by its rule. -/
theorem clockRule_of_objectAt {object : IndexedObject}
    (hObject : objectAt (buildObjects root) Sync.statePath = some object) :
    object.oid = indexOID clockRule.oid "0" ∧ object.type = .integer := by
  obtain ⟨hMem, hPath⟩ := mem_of_objectAt_eq_some hObject
  obtain ⟨_, _, _, objectRule, _, _, index, lead, hOID, hLead, hIndex,
    ⟨hRule, hFrom⟩ | ⟨_, hNone⟩⟩ := fromScopes_of_mem_buildObjects hMem
  · have hRules : ∀ objectRule ∈ objectRules, objectRule.suffix = Sync.statePath →
        objectRule.oid = clockRule.oid ∧ objectRule.type = .integer := by
      decide +kernel
    have hSame : lead ++ objectRule.suffix = Sync.statePath := by
      rw [hFrom] at hPath
      exact hPath
    obtain ⟨hScope, rfl⟩ | ⟨_, hBracket⟩ := hLead
    · obtain ⟨hClock, hType⟩ := hRules objectRule hRule hSame
      rw [hIndex (Or.inl hScope), hClock] at hOID
      exact ⟨hOID, by rw [hFrom]; exact hType⟩
    · exact absurd (hSame ▸ List.mem_append_left _ hBracket) (by decide)
  · rw [hPath] at hNone
    cases hNone

end Answers

section Payload

variable {r : Router} {content : Values}

/-- The name that a radio trap carries. -/
theorem name_payload_iff {link : GoString} :
    (∀ pdu, ((interfaceIndex r content link).map fun index =>
        (⟨indexOID "1.3.6.1.2.1.2.2.1.2" (formatNat index), .object .octetString, .bytes link⟩ :
          PDU)) = some pdu → AgreesWithGet r content pdu) ↔
      ∀ device, deviceFromValues r.root content = .ok device →
        (∃ iface ∈ device.interfaces, iface.name = link) →
          content[interfacePath link "name"]? = some (.string link) := by
  rw [interfaceIndex]
  cases hDevice : deviceFromValues r.root content with
  | error err => simp
  | ok device =>
    simp only [Except.ok.injEq, forall_eq']
    cases hFound : device.interfaces.findIdx? fun iface => iface.name = link with
    | none =>
      refine ⟨fun _ ⟨iface, hIface, hName⟩ => ?_, fun _ pdu hNone => by cases hNone⟩
      have hOther := List.findIdx?_eq_none_iff.mp hFound iface hIface
      exact absurd hName (of_decide_eq_false hOther)
    | some number =>
      obtain ⟨hNumber, hName, _⟩ := List.findIdx?_eq_some_iff_getElem.mp hFound
      have hAgrees := name_agrees_iff hDevice (List.getElem?_eq_getElem hNumber)
      rw [of_decide_eq_true hName] at hAgrees
      simp only [Option.map_some, Option.some.injEq, forall_eq', hAgrees]
      exact ⟨fun hStored _ => hStored, fun hStored => hStored
        ⟨_, List.getElem_mem hNumber, of_decide_eq_true hName⟩⟩

variable (hObjects : r.objects = buildObjects r.root)

include hObjects

/-- The sync traps. -/
theorem state_payload_iff :
    (∀ pdu ∈ ((trapBinding r content Sync.statePath).map toPDU).toList,
        AgreesWithGet r content pdu) ↔
      (Exposed r Sync.statePath → content[Sync.statePath]? = none) := by
  simp only [Option.mem_toList, map_toPDU_trapBinding_eq_some, Exposed, hObjects]
  constructor
  · rintro hAgree ⟨hLocate, hExposed⟩
    obtain ⟨object, hObject⟩ := Option.isSome_iff_exists.mp hExposed
    cases hLeaf : content[Sync.statePath]? with
    | none => rfl
    | some leaf =>
      have hSent := hAgree _ ⟨object, leaf, hLocate, hObject, hLeaf, rfl⟩
      obtain ⟨hOID, hType⟩ := clockRule_of_objectAt hObject
      rw [hOID, hType] at hSent
      exact absurd hSent (not_agreesWithGet_state hLeaf)
  · rintro hAbsent pdu ⟨object, leaf, hLocate, hObject, hLeaf, _⟩
    rw [hAbsent ⟨hLocate, Option.isSome_iff_exists.mpr ⟨object, hObject⟩⟩] at hLeaf
    cases hLeaf

/-- The levels that a radio trap carries. -/
theorem level_payload_iff {link suffix : GoString}
    (hSuffix : suffix ∈ [text "rssi", text "fade-margin"]) :
    (∀ pdu, (trapBinding r content (radioPath link suffix)).map toPDU = some pdu →
        AgreesWithGet r content pdu) ↔
      ∀ leaf, Exposed r (radioPath link suffix) → content[radioPath link suffix]? = some leaf →
        FirstLinkHas r content suffix leaf := by
  simp only [map_toPDU_trapBinding_eq_some, Exposed, hObjects]
  constructor
  · rintro hAgree leaf ⟨hLocate, hExposed⟩ hLeaf
    obtain ⟨object, hObject⟩ := Option.isSome_iff_exists.mp hExposed
    have hSent := hAgree _ ⟨object, leaf, hLocate, hObject, hLeaf, rfl⟩
    obtain ⟨objectRule, hRule, hScope, rfl, hRuleType, hConvert, hOID, hType⟩ :=
      radioRule_of_objectAt hSuffix hObject
    rw [hOID, hType] at hSent
    exact (level_agrees_iff hRule hScope hRuleType hConvert).mp hSent
  · rintro hFits pdu ⟨object, leaf, hLocate, hObject, hLeaf, rfl⟩
    have hAnswered := hFits leaf ⟨hLocate, Option.isSome_iff_exists.mpr ⟨object, hObject⟩⟩ hLeaf
    obtain ⟨objectRule, hRule, hScope, rfl, hRuleType, hConvert, hOID, hType⟩ :=
      radioRule_of_objectAt hSuffix hObject
    rw [hOID, hType]
    exact (level_agrees_iff hRule hScope hRuleType hConvert).mpr hAnswered

/-- The radio traps. -/
theorem radio_payload_iff (link : GoString) :
    (∀ pdu ∈ radioVarbinds r content link, AgreesWithGet r content pdu) ↔
      (link ≠ [] → RadioFits r content link) := by
  rw [radioVarbinds]
  split
  · next hNil => simp [hNil]
  next hLink =>
    simp only [List.forall_mem_append, List.mem_filterMap, forall_exists_index, and_imp,
      Option.mem_toList]
    constructor
    · rintro ⟨hLevels, hName⟩ _
      exact ⟨fun suffix hSuffix => (level_payload_iff hObjects hSuffix).mp
        fun pdu hSent => hLevels pdu suffix hSuffix hSent, name_payload_iff.mp hName⟩
    · intro hFits
      obtain ⟨hLevel, hName⟩ := hFits hLink
      exact ⟨fun pdu suffix hSuffix hSent => (level_payload_iff hObjects hSuffix).mpr
        (hLevel suffix hSuffix) pdu hSent, name_payload_iff.mpr hName⟩

end Payload

/-- The payload of the trap of an event is what GET answers on the same content if and only if the
content fits. -/
theorem trap_payload_is_get_answer_iff (root : Device) (content : Values) (event : Events.Event) :
    (∀ pdu ∈ payload ⟨root, buildObjects root⟩ content event,
        AgreesWithGet ⟨root, buildObjects root⟩ content pdu) ↔
      PayloadFits ⟨root, buildObjects root⟩ content event := by
  have hObjects : (Router.mk root (buildObjects root)).objects = buildObjects root := by
    dsimp only
  generalize hRouter : Router.mk root (buildObjects root) = r at hObjects ⊢
  have hRoot : r.root = root := by rw [← hRouter]
  rw [← hRoot] at hObjects
  unfold payload PayloadFits
  cases trapFor event with
  | none => simp
  | some trap =>
    cases trap with
    | radioLinkDown | radioLinkUp => exact radio_payload_iff hObjects event.resource
    | syncHoldover | syncRestored => exact state_payload_iff hObjects
    | l2Storm | configChanged => simp

/-- A content whose clock is in holdover, and the event that announces it. -/
def holdoverContent : Values :=
  (∅ : Values).insert Sync.statePath (.string "holdover-in-spec")

def holdoverEvent : Events.Event :=
  { type := .stateTransition, resource := "ptp", domain := Events.domainSync,
    fromState := "locked", toState := "holdover-in-spec" }

/-- The trap carries a null, while GET answers 4. -/
theorem holdover_trap_carries_null :
    payload defaultRouter holdoverContent holdoverEvent =
        [⟨"1.3.6.1.4.1.99999.2.1.1.0", .null, .nil⟩] ∧
      ((defaultRouter.bindingsOf holdoverContent).map fun bindings =>
        getAnswer bindings "1.3.6.1.4.1.99999.2.1.1.0").toOption =
          some ⟨"1.3.6.1.4.1.99999.2.1.1.0", .object .integer, .leaf (.int 4)⟩ := by
  decide +kernel

end Snmp
end TriadSim

import TriadSim.Snmp.Walk

/-!
# The OIDs of the objects

`buildObjects` of `internal/router/router.go`: the OID of an object is that of its rule with an
instance behind it.  No rule's OID continues another one, so an OID tells both the rule and the
instance.  The main results are `mem_buildObjects_and_oid_iff` and `getAnswer_indexOID`.
-/

namespace TriadSim

open Go Model Store

namespace Router

/-- The rules, and what stands for one at the two constant objects. -/
def allRules : List ObjectRule :=
  rule .scalar "" "1.3.6.1.2.1.1.2" .objectID ::
    rule .interface "" "1.3.6.1.2.1.2.2.1.1" .integer :: objectRules

theorem nodup_oid_allRules : (allRules.map ObjectRule.oid).Nodup := by
  decide +kernel

theorem oid_eq_of_isPrefix : ∀ base ∈ allRules.map ObjectRule.oid,
    ∀ other ∈ allRules.map ObjectRule.oid, base ++ [46] <+: other ++ [46] → base = other := by
  decide +kernel

variable {objectRule : ObjectRule} {index : GoString} {radioExposed : Bool} {object : IndexedObject}
    {root : Device}

theorem rule_eq_of_indexOID_eq {other : ObjectRule} {number : GoString}
    (hRule : objectRule ∈ allRules) (hOther : other ∈ allRules)
    (hSame : indexOID objectRule.oid index = indexOID other.oid number) :
    objectRule = other ∧ index = number := by
  have hSplit : objectRule.oid ++ [46] ++ index = other.oid ++ [46] ++ number := by
    simpa [indexOID] using hSame
  have hOID : objectRule.oid = other.oid := by
    have hLeft : objectRule.oid ++ [46] <+: other.oid ++ [46] ++ number :=
      hSplit ▸ List.prefix_append _ _
    rcases List.prefix_or_prefix_of_prefix hLeft (List.prefix_append _ _) with hLead | hLead
    · exact oid_eq_of_isPrefix _ (List.mem_map_of_mem hRule) _ (List.mem_map_of_mem hOther) hLead
    · exact (oid_eq_of_isPrefix _ (List.mem_map_of_mem hOther) _ (List.mem_map_of_mem hRule)
        hLead).symm
  refine ⟨List.inj_on_of_nodup_map nodup_oid_allRules hRule hOther hOID, ?_⟩
  rw [hOID] at hSplit
  exact List.append_cancel_left hSplit

theorem mem_allRules (hRule : objectRule ∈ objectRules) :
    objectRule ∈ allRules :=
  List.mem_cons_of_mem _ (List.mem_cons_of_mem _ hRule)

theorem not_mem_objectRules_of_constant :
    ∀ objectRule ∈ allRules.take 2, objectRule ∉ objectRules := by
  intro objectRule hFirst hRule
  have hNone : ∀ oid ∈ (allRules.take 2).map ObjectRule.oid,
      oid ∉ objectRules.map ObjectRule.oid := by decide +kernel
  exact hNone _ (List.mem_map_of_mem hFirst) (List.mem_map_of_mem hRule)

/-! ## The tables -/

/-- The object comes from a rule of one of the scopes: its OID is that of the rule with an
instance, and its path ends in the suffix of the rule. -/
def FromScopes (scopes : List Scope) (object : IndexedObject) : Prop :=
  ∃ objectRule ∈ allRules, objectRule.scope ∈ scopes ∧ ∃ index lead,
    object.oid = indexOID objectRule.oid index ∧
    (objectRule.scope = .scalar ∧ lead = [] ∨ objectRule.scope ≠ .scalar ∧ 91 ∈ lead) ∧
    (objectRule.scope = .scalar ∨ objectRule.scope = .radio → index = "0") ∧
    (objectRule ∈ objectRules ∧ object = objectRule.object object.oid (lead ++ objectRule.suffix) ∨
      objectRule ∉ objectRules ∧ object.path = [])

/-- The tables that `buildObjects` puts together, each with the scopes of its rules. -/
def tables (root : Device) : List (List Scope × List IndexedObject) :=
  [([.scalar], scalarObjects root ++ [constantObject "1.3.6.1.2.1.1.2.0" .objectID
      (.leaf (.string (text enterpriseOID ++ ".1")))]),
    ([.interface, .radio], interfacesObjects false 1 root.interfaces),
    ([.stpPort], tableObjects .stpPort (root.stp.ports.map STPPort.port)
      "stp/state/ports/port[port=" (interfaceInstance root)),
    ([.mac], tableObjects .mac (root.macTable.entries.map MACEntry.mac)
      "mac-table/entry[mac-address=" macInstance),
    ([.vlan], tableObjects .vlan (root.vlans.map fun vlan => formatNat vlan.id.toNat)
      "vlans/vlan[id=" some),
    ([.syncE], tableObjects .syncE (root.syncE.interfaces.map SyncEInterface.name)
      "synce/interfaces/interface[name=" (interfaceInstance root))]

theorem perm_buildObjects (root : Device) :
    (buildObjects root).Perm ((tables root).flatMap Prod.snd) := by
  refine (List.perm_insertionSort _ _).trans (List.Perm.of_eq ?_)
  simp [tables]

/-- The path of a leaf of an interface. -/
def interfacePath (name suffix : GoString) : GoString :=
  "interfaces/interface[name=" ++ name ++ "]" ++ "/" ++ suffix

/-- The path of a leaf of a radio link. -/
def radioPath (name suffix : GoString) : GoString :=
  "interfaces/interface[name=" ++ name ++ "]" ++ "/radio-link/" ++ suffix

/-- An object of the interface with a number. -/
def OfInterface (number : Nat) (iface : Interface) (object : IndexedObject) : Prop :=
  object = constantObject (indexOID "1.3.6.1.2.1.2.2.1.1" (formatNat number)) .integer
      (goInt number) ∨
    ∃ objectRule ∈ objectRules, objectRule.scope = .interface ∧
      object = objectRule.object (indexOID objectRule.oid (formatNat number))
        (interfacePath iface.name objectRule.suffix)

/-- An object of the radio link of an interface. -/
def OfRadioLink (iface : Interface) (object : IndexedObject) : Prop :=
  ∃ objectRule ∈ objectRules, objectRule.scope = .radio ∧
    object = objectRule.object (indexOID objectRule.oid "0")
      (radioPath iface.name objectRule.suffix)

theorem mem_interfaceObjects {number : Nat} {iface : Interface} :
    object ∈ interfaceObjects radioExposed number iface ↔ OfInterface number iface object ∨
      radioExposed = false ∧ iface.radioLink.isSome = true ∧ OfRadioLink iface object := by
  rw [interfaceObjects, List.mem_cons, List.mem_filterMap, OfInterface, or_assoc]
  refine or_congr_right ⟨?_, ?_⟩
  · rintro ⟨objectRule, hRule, hObject⟩
    cases hScope : objectRule.scope <;> simp only [hScope] at hObject <;> try cases hObject
    · exact Or.inl ⟨objectRule, hRule, hScope, rfl⟩
    · split at hObject
      · cases hObject
      · next hExposed =>
        cases hObject
        simp only [Bool.or_eq_true, not_or, Bool.not_eq_true,
          Option.isNone_eq_false_iff] at hExposed
        exact Or.inr ⟨hExposed.2, hExposed.1, objectRule, hRule, hScope, rfl⟩
  · rintro (⟨objectRule, hRule, hScope, rfl⟩ | ⟨rfl, hRadio, objectRule, hRule, hScope, rfl⟩)
    · exact ⟨objectRule, hRule, by simp only [hScope]; rfl⟩
    · refine ⟨objectRule, hRule, ?_⟩
      simp only [hScope, Option.isNone_eq_false_iff.mpr hRadio]
      rfl

/-- Every interface has its own objects, and the first one with a radio link has those of the
link. -/
theorem mem_interfacesObjects {start : Nat} {interfaces : List Interface} :
    object ∈ interfacesObjects radioExposed start interfaces ↔
      (∃ number iface, interfaces[number]? = some iface ∧
        OfInterface (start + number) iface object) ∨
      radioExposed = false ∧ ∃ iface, interfaces.find? (·.radioLink.isSome) = some iface ∧
        OfRadioLink iface object := by
  induction interfaces generalizing radioExposed start with
  | nil => simp [interfacesObjects]
  | cons first rest ih =>
    rw [interfacesObjects, List.mem_append, mem_interfaceObjects, ih]
    have hNumbers : (∃ number iface, (first :: rest)[number]? = some iface ∧
        OfInterface (start + number) iface object) ↔ OfInterface start first object ∨
        ∃ number iface, rest[number]? = some iface ∧
          OfInterface (start + 1 + number) iface object := by
      constructor
      · rintro ⟨_ | number, iface, hIface, hObject⟩
        · cases hIface
          exact Or.inl hObject
        · exact Or.inr ⟨number, iface, hIface, by rwa [Nat.add_right_comm, Nat.add_assoc]⟩
      · rintro (hObject | ⟨number, iface, hIface, hObject⟩)
        · exact ⟨0, first, rfl, hObject⟩
        · exact ⟨number + 1, iface, hIface, by rwa [Nat.add_right_comm, Nat.add_assoc] at hObject⟩
    rw [hNumbers]
    cases radioExposed <;> cases hRadio : first.radioLink.isSome <;>
      simp [hRadio, or_assoc, or_comm, or_left_comm]

theorem fromScopes_of_rule (hRule : objectRule ∈ objectRules) {scopes : List Scope}
    (hScope : objectRule.scope ∈ scopes) {lead : GoString}
    (hLead : objectRule.scope = .scalar ∧ lead = [] ∨ objectRule.scope ≠ .scalar ∧ 91 ∈ lead)
    (hIndex : objectRule.scope = .scalar ∨ objectRule.scope = .radio → index = "0") :
    FromScopes scopes (objectRule.object (indexOID objectRule.oid index)
      (lead ++ objectRule.suffix)) :=
  ⟨objectRule, mem_allRules hRule, hScope, index, lead, rfl, hLead, hIndex, Or.inl ⟨hRule, rfl⟩⟩

theorem fromScopes_of_mem_tables {table : List Scope × List IndexedObject}
    (hTable : table ∈ tables root) (hObject : object ∈ table.2) :
    FromScopes table.1 object := by
  have hRows : ∀ (scope : Scope) keys (lead : GoString) keyed, scope ≠ .scalar → scope ≠ .radio →
      91 ∈ lead → object ∈ tableObjects scope keys lead keyed → FromScopes [scope] object := by
    intro scope keys lead keyed hScalar hRadio hLead hMem
    obtain ⟨key, _, hKey⟩ := List.mem_flatMap.mp hMem
    split at hKey
    · cases hKey
    · obtain ⟨objectRule, hRule, rfl⟩ := List.mem_map.mp hKey
      obtain ⟨hRule, hScope⟩ := List.mem_filter.mp hRule
      rw [decide_eq_true_eq] at hScope
      refine fromScopes_of_rule hRule (by simp [hScope]) (Or.inr ⟨by simp [*], ?_⟩) (by simp [*])
      simp [hLead]
  have hBracket : 91 ∈ text "interfaces/interface[name=" := by decide
  simp only [tables, List.mem_cons, List.not_mem_nil, or_false] at hTable
  rcases hTable with rfl | rfl | rfl | rfl | rfl | rfl
  · rcases List.mem_append.mp hObject with hScalar | hLast
    · obtain ⟨objectRule, hRule, rfl⟩ := List.mem_map.mp hScalar
      obtain ⟨hRule, hScope⟩ := List.mem_filter.mp hRule
      rw [Bool.and_eq_true, decide_eq_true_eq] at hScope
      exact fromScopes_of_rule hRule (by simp [hScope.1]) (Or.inl ⟨hScope.1, rfl⟩) fun _ => rfl
    · cases List.mem_singleton.mp hLast
      exact ⟨_, List.mem_cons_self, List.mem_cons_self, "0", [], rfl, Or.inl ⟨rfl, rfl⟩,
        fun _ => rfl, Or.inr ⟨not_mem_objectRules_of_constant _ List.mem_cons_self, rfl⟩⟩
  · rcases mem_interfacesObjects.mp hObject with
      ⟨number, iface, _, rfl | ⟨objectRule, hRule, hScope, rfl⟩⟩ |
      ⟨_, iface, _, objectRule, hRule, hScope, rfl⟩
    · exact ⟨_, List.mem_cons_of_mem _ List.mem_cons_self, List.mem_cons_self, _, "[", rfl,
        Or.inr ⟨by decide, by decide⟩, by simp [rule],
        Or.inr ⟨not_mem_objectRules_of_constant _ (List.mem_cons_of_mem _ List.mem_cons_self),
          rfl⟩⟩
    · refine fromScopes_of_rule hRule (by simp [hScope]) (Or.inr ⟨by simp [hScope], ?_⟩)
        (by simp [hScope])
      simp [hBracket]
    · refine fromScopes_of_rule hRule (by simp [hScope])
        (Or.inr ⟨by simp [hScope], ?_⟩) fun _ => rfl
      simp [hBracket]
  all_goals
    dsimp only at hObject
    exact hRows _ _ _ _ (by decide) (by decide) (by decide) hObject

theorem fromScopes_of_mem_buildObjects (hObject : object ∈ buildObjects root) :
    ∃ table ∈ tables root, object ∈ table.2 ∧ FromScopes table.1 object := by
  obtain ⟨table, hTable, hMem⟩ := List.mem_flatMap.mp ((perm_buildObjects root).mem_iff.mp hObject)
  exact ⟨table, hTable, hMem, fromScopes_of_mem_tables hTable hMem⟩

/-- An object with the OID of a rule stands in the table of its scope. -/
theorem mem_table_of_oid (hRule : objectRule ∈ allRules) (hObject : object ∈ buildObjects root)
    (hOID : object.oid = indexOID objectRule.oid index) :
    ∃ table ∈ tables root, objectRule.scope ∈ table.1 ∧ object ∈ table.2 := by
  obtain ⟨table, hTable, hMem, other, hOther, hScope, number, _, hNumber, _⟩ :=
    fromScopes_of_mem_buildObjects hObject
  cases (rule_eq_of_indexOID_eq hRule hOther (hOID.symm.trans hNumber)).1
  exact ⟨table, hTable, hScope, hMem⟩

/-- The objects that have the OID of a rule for interfaces with an instance. -/
theorem mem_buildObjects_and_oid_iff (hRule : objectRule ∈ objectRules)
    (hScope : objectRule.scope = .interface ∨ objectRule.scope = .radio) :
    object ∈ buildObjects root ∧ object.oid = indexOID objectRule.oid index ↔
      (objectRule.scope = .interface ∧ ∃ number iface, root.interfaces[number]? = some iface ∧
        index = formatNat (1 + number) ∧ object = objectRule.object
          (indexOID objectRule.oid index) (interfacePath iface.name objectRule.suffix)) ∨
      (objectRule.scope = .radio ∧ ∃ iface,
        root.interfaces.find? (·.radioLink.isSome) = some iface ∧ index = "0" ∧ object =
          objectRule.object (indexOID objectRule.oid index)
            (radioPath iface.name objectRule.suffix)) := by
  have hTable : object ∈ interfacesObjects false 1 root.interfaces → object ∈ buildObjects root :=
    fun hMem => (perm_buildObjects root).mem_iff.mpr (List.mem_flatMap.mpr
      ⟨_, List.mem_cons_of_mem _ List.mem_cons_self, hMem⟩)
  constructor
  · rintro ⟨hObject, hOID⟩
    have hMem : object ∈ interfacesObjects false 1 root.interfaces := by
      obtain ⟨table, hTable, hTableScope, hMem⟩ :=
        mem_table_of_oid (mem_allRules hRule) hObject hOID
      simp only [tables, List.mem_cons, List.not_mem_nil, or_false] at hTable
      rcases hTable with rfl | rfl | rfl | rfl | rfl | rfl
      case inr.inl => exact hMem
      all_goals rcases hScope with hScope | hScope <;> simp [hScope] at hTableScope
    rcases mem_interfacesObjects.mp hMem with
      ⟨number, iface, hIface, rfl | ⟨other, hOther, hOwn, rfl⟩⟩ |
      ⟨_, iface, hIface, other, hOther, hOwn, rfl⟩
    · have hSecond : rule .interface "" "1.3.6.1.2.1.2.2.1.1" .integer ∈ allRules.take 2 :=
        List.mem_cons_of_mem _ List.mem_cons_self
      obtain ⟨rfl, _⟩ := rule_eq_of_indexOID_eq (List.mem_of_mem_take hSecond) (mem_allRules hRule)
        hOID
      exact absurd hRule (not_mem_objectRules_of_constant _ hSecond)
    · obtain ⟨rfl, rfl⟩ := rule_eq_of_indexOID_eq (mem_allRules hOther) (mem_allRules hRule) hOID
      exact Or.inl ⟨hOwn, number, iface, hIface, rfl, rfl⟩
    · obtain ⟨rfl, rfl⟩ := rule_eq_of_indexOID_eq (mem_allRules hOther) (mem_allRules hRule) hOID
      exact Or.inr ⟨hOwn, iface, hIface, rfl, rfl⟩
  · rintro (⟨hScope, number, iface, hIface, rfl, rfl⟩ | ⟨hScope, iface, hIface, rfl, rfl⟩)
    · exact ⟨hTable (mem_interfacesObjects.mpr (Or.inl
        ⟨number, iface, hIface, Or.inr ⟨objectRule, hRule, hScope, rfl⟩⟩)), rfl⟩
    · exact ⟨hTable (mem_interfacesObjects.mpr (Or.inr
        ⟨rfl, iface, hIface, objectRule, hRule, hScope, rfl⟩)), rfl⟩

end Router

/-! ## GET -/

namespace Snmp

open Router

/-- `get`, for one variable. -/
def getAnswer (bindings : List Binding) (name : GoString) : PDU :=
  match (pduIndex bindings)[trimOID name]? with
  | some binding => toPDU binding
  | none => exception name .noSuchObject

/-- Of several bindings with one OID the last one counts. -/
theorem getElem?_pduIndex (bindings : List Binding) (oid : GoString) :
    (pduIndex bindings)[oid]? =
      (sortedBindings bindings).reverse.find? fun binding => binding.oid = oid := by
  have hFold : ∀ (sorted : List Binding) (index : Std.ExtTreeMap GoString Binding),
      (sorted.foldl (fun index binding => index.insert binding.oid binding) index)[oid]? =
        (sorted.reverse.find? fun binding => binding.oid = oid).or index[oid]? := by
    intro sorted
    induction sorted with
    | nil => exact fun index => rfl
    | cons binding sorted ih =>
      intro index
      rw [List.foldl_cons, ih, List.reverse_cons, List.find?_append, Option.or_assoc,
        Std.ExtTreeMap.getElem?_insert]
      by_cases hOID : binding.oid = oid <;> simp [hOID]
  exact (hFold (sortedBindings bindings) ∅).trans (by simp)

variable {objectRule : ObjectRule}

theorem trimOID_indexOID (hRule : objectRule ∈ allRules) (index : GoString) :
    trimOID (indexOID objectRule.oid index) = indexOID objectRule.oid index := by
  have hFirst : ∀ oid ∈ allRules.map ObjectRule.oid, oid.head? = some 49 := by decide +kernel
  obtain ⟨rest, hRest⟩ := List.head?_eq_some_iff.mp (hFirst _ (List.mem_map_of_mem hRule))
  rw [indexOID, hRest]
  rfl

/-- GET of an OID that at most one object has answers the leaf of that object. -/
theorem getAnswer_indexOID {device : Device} {values : Values} (hRule : objectRule ∈ objectRules)
    {index : GoString} {exposed : Option GoString} (hPath : exposed ≠ some [])
    (hExposed : ∀ object, object ∈ buildObjects device ∧
      object.oid = indexOID objectRule.oid index ↔
        ∃ path, exposed = some path ∧
          object = objectRule.object (indexOID objectRule.oid index) path) :
    getAnswer ((buildObjects device).filterMap (bindingOf values))
        (indexOID objectRule.oid index) =
      match exposed.bind (values[·]?) with
      | some leaf => toPDU ⟨indexOID objectRule.oid index, [],
          (objectRule.convert.map fun conversion =>
            conversion.apply (.leaf leaf)).getD (.leaf leaf),
          objectRule.type, false⟩
      | none => ⟨indexOID objectRule.oid index, .noSuchObject, .nil⟩ := by
  have hBinding : ∀ {path}, exposed = some path →
      bindingOf values (objectRule.object (indexOID objectRule.oid index) path) =
        values[path]?.map fun leaf => ⟨indexOID objectRule.oid index, path,
          (objectRule.convert.map fun conversion =>
            conversion.apply (.leaf leaf)).getD (.leaf leaf),
          objectRule.type, objectRule.writable⟩ := by
    rintro path rfl
    have hNonempty : path ≠ [] := fun hNil => hPath (by rw [hNil])
    simp [bindingOf, ObjectRule.object, hNonempty, Function.comp_def]
  rw [getAnswer, exception, trimOID_indexOID (mem_allRules hRule), getElem?_pduIndex]
  generalize hFound : List.find? _ _ = found
  cases found with
  | some binding =>
    have hSame : binding.oid = indexOID objectRule.oid index := by
      simpa only [decide_eq_true_eq] using List.find?_some hFound
    have hMem := List.mem_reverse.mp (List.mem_of_find?_eq_some hFound)
    obtain ⟨object, hObject, hOf⟩ := List.mem_filterMap.mp (mem_sortedBindings.mp hMem)
    have hOID : binding.oid = object.oid := by
      obtain ⟨_, _, rfl⟩ := Option.map_eq_some_iff.mp hOf
      rfl
    obtain ⟨path, rfl, rfl⟩ := (hExposed object).mp ⟨hObject, hOID.symm.trans hSame⟩
    rw [hBinding rfl] at hOf
    obtain ⟨leaf, hLeaf, rfl⟩ := Option.map_eq_some_iff.mp hOf
    simp [hLeaf, toPDU]
  | none =>
    cases hLeaf : exposed.bind (values[·]?) with
    | none => rfl
    | some leaf =>
      obtain ⟨path, rfl, hStored⟩ := Option.bind_eq_some_iff.mp hLeaf
      obtain ⟨hObject, _⟩ := (hExposed _).mpr ⟨path, rfl, rfl⟩
      have hMem := List.mem_reverse.mpr (mem_sortedBindings.mpr (List.mem_filterMap.mpr
        ⟨_, hObject, (hBinding rfl).trans (by rw [hStored]; rfl)⟩))
      simpa using List.find?_eq_none.mp hFound _ hMem

end Snmp
end TriadSim

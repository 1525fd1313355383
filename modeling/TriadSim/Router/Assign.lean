import TriadSim.Router.Lookup

/-!
# Taking a rebuild apart

A rebuild assigns the leaves of a map one after the other.  An assignment enters one field of a
struct and one entry of a list and leaves the others alone.  So the assignments to one field, or
to one entry of a list, can be looked at on their own: the field is what they make of it, from
what it was before.  The main results are `fieldAt_of_assignAll_eq_ok` and
`entryOf_of_assignAllType_eq_ok`.
-/

namespace TriadSim
namespace Router

open Go Library

/-! ## One assignment -/

/-- An assignment enters one field and leaves the others alone. -/
theorem assignField_eq_ok : ∀ {fields : Fields} {values updated : fields.Vals} {index : Nat}
    {last : Segment} {segments : List Segment} {leaf : Leaf},
    assignField fields values index last segments leaf = .ok updated →
    ∃ type value new, fieldAt fields index values = some ⟨type, value⟩ ∧
      assignType type value last segments leaf = .ok new ∧
      fieldAt fields index updated = some ⟨type, new⟩ ∧
      ∀ other, other ≠ index → fieldAt fields other updated = fieldAt fields other values
  | .nil, _, _, _, _, _, _, hAssign => by cases hAssign
  | .cons _ type _, (value, values), _, 0, _, _, _, hAssign => by
      obtain ⟨new, hType, rfl⟩ := map_eq_ok_iff.mp hAssign
      refine ⟨type, value, new, rfl, hType, rfl, fun other hOther => ?_⟩
      cases other with
      | zero => exact absurd rfl hOther
      | succ other => rfl
  | .cons _ _ _, (value, values), _, index + 1, _, _, _, hAssign => by
      obtain ⟨updated, hRest, rfl⟩ := map_eq_ok_iff.mp hAssign
      obtain ⟨type, old, new, hOld, hType, hNew, hOthers⟩ := assignField_eq_ok hRest
      refine ⟨type, old, new, hOld, hType, hNew, fun other hOther => ?_⟩
      cases other with
      | zero => rfl
      | succ other => exact hOthers other fun hSame => hOther (by rw [hSame])

variable {α : Type} {fields : Fields} {result : fields.Vals}

variable {ε : Type} {selects : α → Bool} {f : α → Except ε α} {type : GoType}

theorem updateFirst_eq_none :
    ∀ {elements : List α}, updateFirst selects f elements = none →
      ∀ element ∈ elements, selects element = false
  | [], _ => fun element hMem => (List.not_mem_nil hMem).elim
  | head :: rest, hUpdate => by
      rw [updateFirst] at hUpdate
      split at hUpdate
      · cases hUpdate
      · next hHead =>
        rw [Option.map_eq_none_iff] at hUpdate
        intro element hMem
        rcases List.mem_cons.mp hMem with rfl | hRest
        · exact Bool.eq_false_iff.mpr hHead
        · exact updateFirst_eq_none hUpdate element hRest

theorem updateFirst_eq_some_ok :
    ∀ {elements updated : List α}, updateFirst selects f elements = some (.ok updated) →
      ∃ earlier before later after, elements = earlier ++ before :: later ∧
        updated = earlier ++ after :: later ∧ f before = .ok after ∧ selects before = true ∧
        ∀ element ∈ earlier, selects element = false
  | [], _, hUpdate => by cases hUpdate
  | head :: rest, updated, hUpdate => by
      rw [updateFirst] at hUpdate
      split at hUpdate
      · next hHead =>
        rw [Option.some.injEq] at hUpdate
        cases hAfter : f head with
        | error err =>
          rw [hAfter] at hUpdate
          cases hUpdate
        | ok after =>
          rw [hAfter] at hUpdate
          cases hUpdate
          exact ⟨[], head, rest, after, rfl, rfl, hAfter, hHead, by simp⟩
      · next hHead =>
        obtain ⟨result, hResult, hMap⟩ := Option.map_eq_some_iff.mp hUpdate
        cases result with
        | error err => cases hMap
        | ok others =>
          cases hMap
          obtain ⟨earlier, before, later, after, rfl, rfl, hAfter, hBefore, hEarlier⟩ :=
            updateFirst_eq_some_ok hResult
          refine ⟨head :: earlier, before, later, after, rfl, rfl, hAfter, hBefore, ?_⟩
          intro element hMem
          rcases List.mem_cons.mp hMem with rfl | hRest
          · exact Bool.eq_false_iff.mpr hHead
          · exact hEarlier element hRest

section Entries

variable {fields : Fields}

/-- The entry that an assignment with a key begins with: the one that is there, or a new one. -/
def startOf (fields : Fields) (elements : List fields.Vals) (key : GoString) :
    Option fields.Vals :=
  (entryOf fields elements key).or (fields.setKey fields.zero key)

/-- The keys of a list after an assignment with a key. -/
def addKey (keys : List (Option GoString)) (key : GoString) : List (Option GoString) :=
  if some key ∈ keys then keys else keys ++ [some key]

variable {earlier later : List fields.Vals} {element : fields.Vals} {value : GoString}

theorem entryOf_append_cons_of_ne {other : GoString} (hKey : fields.keyText element = some value)
    (hOther : other ≠ value) :
    entryOf fields (earlier ++ element :: later) other =
      entryOf fields (earlier ++ later) other := by
  have hSkip : ¬ fields.keyText element = some other := by
    rw [hKey, Option.some.injEq]
    exact fun hSame => hOther hSame.symm
  simp [entryOf, List.find?_append, hSkip]

theorem entryOf_append_cons_self (hEarlier : ∀ entry ∈ earlier, fields.keyText entry ≠ some value)
    (hKey : fields.keyText element = some value) :
    entryOf fields (earlier ++ element :: later) value = some element := by
  have hNone : earlier.find? (fun entry => decide (fields.keyText entry = some value)) = none := by
    rw [List.find?_eq_none]
    intro entry hMem
    simpa using hEarlier entry hMem
  simp [entryOf, List.find?_append, hNone, hKey]

/-- The change of the entry of a predicate, for a change that keeps its key. -/
theorem updateElement_eq_ok {elements updated : List fields.Vals} {segment : Segment}
    {f : fields.Vals → Except Err fields.Vals} (hCanonical : CanonicalKey fields segment.value)
    (hKey : ∀ before after, fields.keyText before = some segment.value → f before = .ok after →
      fields.keyText after = some segment.value)
    (hUpdate : updateElement fields elements segment f = .ok updated) :
    fields.keyName = some segment.key ∧ ∃ before after,
      startOf fields elements segment.value = some before ∧ f before = .ok after ∧
      entryOf fields updated segment.value = some after ∧
      updated.map fields.keyText = addKey (elements.map fields.keyText) segment.value ∧
      ∀ other, other ≠ segment.value →
        entryOf fields updated other = entryOf fields elements other := by
  unfold updateElement at hUpdate
  split at hUpdate
  · cases hUpdate
  next name hName =>
  split at hUpdate
  · cases hUpdate
  next hSame =>
  refine ⟨by rw [hName, not_not.mp hSame], ?_⟩
  split at hUpdate
  · next result hFirst =>
    subst hUpdate
    obtain ⟨earlier, before, later, after, rfl, rfl, hAfter, hBefore, hEarlier⟩ :=
      updateFirst_eq_some_ok hFirst
    rw [decide_eq_true_eq] at hBefore
    have hEarlier : ∀ entry ∈ earlier, fields.keyText entry ≠ some segment.value :=
      fun entry hMem => by simpa using hEarlier entry hMem
    have hChanged := hKey before after hBefore hAfter
    refine ⟨before, after, ?_, hAfter, entryOf_append_cons_self hEarlier hChanged, ?_, ?_⟩
    · rw [startOf, entryOf_append_cons_self hEarlier hBefore, Option.some_or]
    · simp [addKey, hBefore, hChanged]
    · intro other hOther
      rw [entryOf_append_cons_of_ne hChanged hOther, entryOf_append_cons_of_ne hBefore hOther]
  · next hNone =>
    have hAbsent : ∀ entry ∈ elements, fields.keyText entry ≠ some segment.value :=
      fun entry hMem => by simpa using updateFirst_eq_none hNone entry hMem
    obtain ⟨fresh, hFresh, hFreshKey⟩ := hCanonical
    rw [hFresh] at hUpdate
    obtain ⟨after, hAfter, rfl⟩ := map_eq_ok_iff.mp hUpdate
    have hChanged := hKey fresh after hFreshKey hAfter
    refine ⟨fresh, after, ?_, hAfter, entryOf_append_cons_self hAbsent hChanged, ?_, ?_⟩
    · have hNoEntry : entryOf fields elements segment.value = none :=
        List.find?_eq_none.mpr fun entry hMem => by simpa using hAbsent entry hMem
      rw [startOf, hNoEntry, Option.none_or, hFresh]
    · have hNew : some segment.value ∉ elements.map fields.keyText := by
        rintro hMem
        obtain ⟨entry, hEntry, hText⟩ := List.mem_map.mp hMem
        exact hAbsent entry hEntry hText
      rw [addKey, if_neg hNew, List.map_append, List.map_singleton, hChanged]
    · intro other hOther
      rw [entryOf_append_cons_of_ne hChanged hOther, List.append_nil]

end Entries

/-- An assignment keeps the key of the entry, unless it assigns the key itself. -/
theorem keyText_of_assignField_eq_ok : ∀ {fields : Fields} {values updated : fields.Vals}
    {index : Nat} {last : Segment} {segments : List Segment} {leaf : Leaf} {value : GoString},
    (segments = [] → ∀ text, assignedKey fields index leaf = some text → text = value) →
    fields.keyText values = some value →
    assignField fields values index last segments leaf = .ok updated →
    fields.keyText updated = some value
  | .nil, _, _, _, _, _, _, _, _, _, hAssign => by cases hAssign
  | .cons tag type rest, (first, values), _, 0, last, segments, leaf, value, hAssigned, hKey,
      hAssign => by
      rw [assignField] at hAssign
      obtain ⟨updated, hType, rfl⟩ := map_eq_ok_iff.mp hAssign
      rw [Fields.keyText] at hKey ⊢
      split at hKey
      · next hTag =>
        rw [if_pos hTag]
        cases type with
        | scalar kind =>
          cases segments with
          | cons next more => cases hType
          | nil =>
            rw [assignType] at hType
            refine congrArg some (hAssigned rfl _ ?_)
            rw [assignedKey, if_pos hTag, hType]
            rfl
        | struct fields | slice fields => exact hKey
        | pointer fields =>
          cases first with
          | none => cases hKey
          | some target =>
            obtain ⟨changed, _, rfl⟩ := map_eq_ok_iff.mp hType
            exact hKey
      · next hTag =>
        rw [if_neg hTag]
        exact hKey
  | .cons tag type rest, (first, values), _, index + 1, last, segments, leaf, value, hAssigned,
      hKey, hAssign => by
      rw [assignField] at hAssign
      obtain ⟨updated, hRest, rfl⟩ := map_eq_ok_iff.mp hAssign
      rw [Fields.keyText] at hKey ⊢
      split at hKey
      · next hTag =>
        rw [if_pos hTag]
        exact hKey
      · next hTag =>
        rw [if_neg hTag]
        refine keyText_of_assignField_eq_ok ?_ hKey hRest
        intro hEnd text hText
        refine hAssigned hEnd text ?_
        rw [assignedKey, if_neg hTag]
        exact hText

/-- The assignment of a path through a list. -/
theorem assignType_slice_eq_ok {elements updated : List fields.Vals} {last : Segment}
    {segments : List Segment} {leaf : Leaf}
    (hAddressed : AddressedType (.slice fields) last segments)
    (hKeys : KeysMatchType (.slice fields) last segments leaf)
    (hAssign : assignType (.slice fields) elements last segments leaf = .ok updated) :
    last.key ≠ [] ∧ fields.keyName = some last.key ∧ ∃ before after,
      startOf fields elements last.value = some before ∧
      assignPath fields before segments leaf = .ok after ∧
      entryOf fields updated last.value = some after ∧
      updated.map fields.keyText = addKey (elements.map fields.keyText) last.value ∧
      ∀ other, other ≠ last.value →
        entryOf fields updated other = entryOf fields elements other := by
  rw [assignType] at hAssign
  split at hAssign
  · cases hAssign
  · next hKeyed =>
    have hCanonical : CanonicalKey fields last.value := by
      rw [AddressedType] at hAddressed
      rcases hAddressed.1 with hBare | ⟨_, hCanonical⟩
      · exact absurd hBare.1 hKeyed
      · exact hCanonical
    rw [KeysMatchType] at hKeys
    refine ⟨hKeyed, updateElement_eq_ok hCanonical ?_ hAssign⟩
    intro before after hBefore hAfter
    obtain ⟨found, hTurn, hField⟩ := assignStruct_eq_ok hAfter
    exact keyText_of_assignField_eq_ok (hKeys found hTurn).1 hBefore hField

/-! ## Many assignments -/

theorem atPath_eq_ok_iff {path : GoString} {result : Except Err α} {value : α} :
    atPath path result = .ok value ↔ result = .ok value := by
  cases result with
  | error err | ok found => simp [atPath]

/-- The assignments of a rebuild. -/
def assignAll (fields : Fields) (values : fields.Vals) (entries : List Entry) :
    Except Err fields.Vals :=
  entries.foldlM (fun device entry =>
    atPath entry.path (assignPath fields device entry.segments entry.leaf)) values

/-- The assignments to a field, each with the segment that stands for the field. -/
def assignAllType (type : GoType) (value : type.Val) (items : List (Segment × Entry)) :
    Except Err type.Val :=
  items.foldlM (fun value item =>
    atPath item.2.path (assignType type value item.1 item.2.segments item.2.leaf)) value

theorem assignAll_cons_eq_ok {values : fields.Vals} {entry : Entry} {entries : List Entry} :
    assignAll fields values (entry :: entries) = .ok result ↔
      ∃ next, assignPath fields values entry.segments entry.leaf = .ok next ∧
        assignAll fields next entries = .ok result := by
  rw [assignAll, List.foldlM_cons, bind_eq_ok_iff]
  simp only [atPath_eq_ok_iff]
  rfl

/-- Every one of many assignments succeeds. -/
theorem exists_assignPath_of_assignAll_eq_ok (entries : List Entry) :
    ∀ {values : fields.Vals}, assignAll fields values entries = .ok result →
      ∀ entry ∈ entries, ∃ before after,
        assignPath fields before entry.segments entry.leaf = .ok after := by
  induction entries with
  | nil => exact fun _ _ hNone => by cases hNone
  | cons entry entries ih =>
    intro values hAssign
    obtain ⟨next, hEntry, hRest⟩ := assignAll_cons_eq_ok.mp hAssign
    exact List.forall_mem_cons.mpr ⟨⟨values, next, hEntry⟩, ih hRest⟩

theorem assignAllType_cons_eq_ok {value result : type.Val} {item : Segment × Entry}
    {items : List (Segment × Entry)} :
    assignAllType type value (item :: items) = .ok result ↔
      ∃ next, assignType type value item.1 item.2.segments item.2.leaf = .ok next ∧
        assignAllType type next items = .ok result := by
  rw [assignAllType, List.foldlM_cons, bind_eq_ok_iff]
  simp only [atPath_eq_ok_iff]
  rfl

/-- What is left of an entry below the field at an index, if it leads there. -/
def Entry.into (fields : Fields) (index : Nat) (entry : Entry) : Option (Segment × Entry) :=
  (turn fields entry.segments).bind fun found =>
    if found.index = index then some (found.last, { entry with segments := found.rest })
    else none

/-- A field is what the assignments to it make of it. -/
theorem fieldAt_of_assignAll_eq_ok {index : Nat} (entries : List Entry) :
    ∀ {values : fields.Vals} {value : type.Val}, fieldAt fields index values = some ⟨type, value⟩ →
      assignAll fields values entries = .ok result →
      ∃ new, fieldAt fields index result = some ⟨type, new⟩ ∧
        assignAllType type value (entries.filterMap (Entry.into fields index)) = .ok new := by
  induction entries with
  | nil =>
    intro values value hField hAssign
    cases hAssign
    exact ⟨value, hField, rfl⟩
  | cons entry entries ih =>
    intro values value hField hAssign
    obtain ⟨next, hEntry, hRest⟩ := assignAll_cons_eq_ok.mp hAssign
    obtain ⟨found, hTurn, hStep⟩ := assignStruct_eq_ok hEntry
    obtain ⟨type', old, new, hOld, hType, hNew, hOthers⟩ := assignField_eq_ok hStep
    by_cases hIndex : found.index = index
    · subst hIndex
      cases hOld.symm.trans hField
      obtain ⟨last, hLast, hItems⟩ := ih hNew hRest
      refine ⟨last, hLast, ?_⟩
      have hInto : entry.into fields found.index =
          some (found.last, { entry with segments := found.rest }) := by
        simp [Entry.into, hTurn]
      rw [List.filterMap_cons_some hInto]
      exact assignAllType_cons_eq_ok.mpr ⟨new, hType, hItems⟩
    · rw [List.filterMap_cons_none (by simp [Entry.into, hTurn, hIndex])]
      exact ih ((hOthers index (Ne.symm hIndex)).trans hField) hRest

theorem assignAllType_struct (fields : Fields) (value : fields.Vals)
    (items : List (Segment × Entry)) :
    assignAllType (.struct fields) value items = assignAll fields value (items.map Prod.snd) := by
  rw [assignAll, List.foldlM_map]
  rfl

/-- A pointer that nothing is assigned to stays as it is, and otherwise points to what the
assignments make of the struct behind it. -/
theorem assignAllType_pointer_eq_ok {result : Option fields.Vals} (items : List (Segment × Entry)) :
    ∀ {value : Option fields.Vals},
      assignAllType (.pointer fields) value items = .ok result →
      items = [] ∧ result = value ∨ ∃ new, result = some new ∧
        assignAll fields (value.getD fields.zero) (items.map Prod.snd) = .ok new := by
  induction items with
  | nil =>
    intro value hAssign
    cases hAssign
    exact Or.inl ⟨rfl, rfl⟩
  | cons item items ih =>
    intro value hAssign
    obtain ⟨next, hItem, hRest⟩ := assignAllType_cons_eq_ok.mp hAssign
    obtain ⟨target, hTarget, rfl⟩ := map_eq_ok_iff.mp hItem
    refine Or.inr ?_
    rcases ih hRest with ⟨rfl, rfl⟩ | ⟨new, rfl, hNew⟩
    · exact ⟨target, rfl, assignAll_cons_eq_ok.mpr ⟨target, hTarget, rfl⟩⟩
    · exact ⟨new, rfl, assignAll_cons_eq_ok.mpr ⟨target, hTarget, hNew⟩⟩

/-- A scalar is the last leaf that is assigned to it, and nothing can be below it. -/
theorem assignAllType_scalar_eq_ok {kind : LeafKind} {result : kind.Val}
    (items : List (Segment × Entry)) : ∀ {value : kind.Val},
      assignAllType (.scalar kind) value items = .ok result →
      (∀ item ∈ items, item.2.segments = []) ∧ (items = [] ∧ result = value ∨
        ∃ item ∈ items, coerce kind (.leaf item.2.leaf) = .ok result) := by
  induction items with
  | nil =>
    intro value hAssign
    cases hAssign
    exact ⟨fun _ hNone => (by cases hNone), Or.inl ⟨rfl, rfl⟩⟩
  | cons item items ih =>
    intro value hAssign
    obtain ⟨next, hItem, hRest⟩ := assignAllType_cons_eq_ok.mp hAssign
    obtain ⟨hEnds, hLast⟩ := ih hRest
    cases hEnd : item.2.segments with
    | cons first more =>
      rw [hEnd] at hItem
      cases hItem
    | nil =>
      rw [hEnd] at hItem
      refine ⟨List.forall_mem_cons.mpr ⟨hEnd, hEnds⟩, Or.inr ?_⟩
      rcases hLast with ⟨rfl, rfl⟩ | ⟨other, hOther, hCoerce⟩
      · exact ⟨item, List.mem_cons_self, hItem⟩
      · exact ⟨other, List.mem_cons_of_mem _ hOther, hCoerce⟩

/-! ### The entries of a list -/

/-- The paths to the items name every node once, with their own keys. -/
def Placed (type : GoType) (item : Segment × Entry) : Prop :=
  AddressedType type item.1 item.2.segments ∧
    KeysMatchType type item.1 item.2.segments item.2.leaf

/-- What is left of an item below the entry with a key, if it leads there. -/
def belowKey (key : GoString) (item : Segment × Entry) : Option Entry :=
  if item.1.value = key then some item.2 else none

/-- An entry of a list is what the assignments with its key make of it. -/
theorem entryOf_of_assignAllType_eq_ok {result : List fields.Vals} (key : GoString)
    (items : List (Segment × Entry)) : ∀ {elements : List fields.Vals},
      (∀ item ∈ items, Placed (.slice fields) item) →
      assignAllType (.slice fields) elements items = .ok result →
      items.filterMap (belowKey key) = [] ∧
          entryOf fields result key = entryOf fields elements key ∨
        ∃ before after, startOf fields elements key = some before ∧
          assignAll fields before (items.filterMap (belowKey key)) = .ok after ∧
          entryOf fields result key = some after := by
  induction items with
  | nil =>
    intro elements _ hAssign
    cases hAssign
    exact Or.inl ⟨rfl, rfl⟩
  | cons item items ih =>
    intro elements hPlaced hAssign
    obtain ⟨middle, hItem, hRest⟩ := assignAllType_cons_eq_ok.mp hAssign
    obtain ⟨⟨hAddressed, hKeys⟩, hOthers⟩ := List.forall_mem_cons.mp hPlaced
    obtain ⟨_, _, before, after, hBefore, hAfter, hEntry, _, hSame⟩ :=
      assignType_slice_eq_ok hAddressed hKeys hItem
    by_cases hKey : item.1.value = key
    · subst hKey
      have hBelow : belowKey item.1.value item = some item.2 := if_pos rfl
      rw [List.filterMap_cons_some hBelow]
      refine Or.inr ⟨before, ?_⟩
      rcases ih hOthers hRest with ⟨hNone, hLast⟩ | ⟨start, last, hStart, hLast, hResult⟩
      · rw [hNone]
        exact ⟨after, hBefore, assignAll_cons_eq_ok.mpr ⟨after, hAfter, rfl⟩,
          hLast.trans hEntry⟩
      · rw [startOf, hEntry, Option.some_or, Option.some.injEq] at hStart
        subst hStart
        exact ⟨last, hBefore, assignAll_cons_eq_ok.mpr ⟨after, hAfter, hLast⟩, hResult⟩
    · have hBelow : belowKey key item = none := if_neg hKey
      rw [List.filterMap_cons_none hBelow]
      have hThere := hSame key (Ne.symm hKey)
      rcases ih hOthers hRest with ⟨hNone, hLast⟩ | ⟨start, last, hStart, hLast, hResult⟩
      · exact Or.inl ⟨hNone, hLast.trans hThere⟩
      · rw [startOf, hThere] at hStart
        exact Or.inr ⟨start, last, hStart, hLast, hResult⟩

/-- The keys of a list are those that it had, and the new ones in the order of the
assignments. -/
theorem keys_of_assignAllType_eq_ok {result : List fields.Vals} (items : List (Segment × Entry)) :
    ∀ {elements : List fields.Vals},
      (∀ item ∈ items, Placed (.slice fields) item) →
      assignAllType (.slice fields) elements items = .ok result →
      (∀ item ∈ items, item.1.key ≠ [] ∧ fields.keyName = some item.1.key) ∧
        result.map fields.keyText =
          (items.map fun item => item.1.value).foldl addKey (elements.map fields.keyText) := by
  induction items with
  | nil =>
    intro elements _ hAssign
    cases hAssign
    exact ⟨fun _ hNone => (by cases hNone), rfl⟩
  | cons item items ih =>
    intro elements hPlaced hAssign
    obtain ⟨middle, hItem, hRest⟩ := assignAllType_cons_eq_ok.mp hAssign
    obtain ⟨⟨hAddressed, hKeys⟩, hOthers⟩ := List.forall_mem_cons.mp hPlaced
    obtain ⟨hKeyed, hName, _, _, _, _, _, hMiddle, _⟩ :=
      assignType_slice_eq_ok hAddressed hKeys hItem
    obtain ⟨hNames, hResult⟩ := ih hOthers hRest
    refine ⟨List.forall_mem_cons.mpr ⟨⟨hKeyed, hName⟩, hNames⟩, ?_⟩
    rw [hResult, hMiddle, List.map_cons, List.foldl_cons]

end Router
end TriadSim

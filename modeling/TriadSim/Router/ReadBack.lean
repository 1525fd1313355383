import TriadSim.Router.Assign

/-!
# What the assignments leave behind

What can be read after a sequence of assignments, from what could be read before: a leaf that was
assigned holds what was assigned to it, another leaf holds what it held in the beginning, and a
list has got the entries that the assigned paths mention.  The main results are
`lookup_of_assignAll_eq_ok` and `growsTo_of_assignAll_eq_ok`.
-/

namespace TriadSim
namespace Router

open Go

/-! ## Reading a field -/

theorem addressedType_of_field : ∀ {fields : Fields} {index : Nat} {type : GoType} {last : Segment}
    {segments : List Segment}, typeAt fields index = some type →
    AddressedField fields index last segments → AddressedType type last segments
  | .nil, _, _, _, _, hType, _ => by cases hType
  | .cons _ _ _, 0, _, _, _, hType, hAddressed => by
      cases hType
      exact hAddressed
  | .cons _ _ rest, index + 1, _, _, _, hType, hAddressed =>
    @addressedType_of_field rest index _ _ _ hType hAddressed

theorem keysMatchType_of_field : ∀ {fields : Fields} {index : Nat} {type : GoType} {last : Segment}
    {segments : List Segment} {leaf : Leaf}, typeAt fields index = some type →
    KeysMatchField fields index last segments leaf → KeysMatchType type last segments leaf
  | .nil, _, _, _, _, _, hType, _ => by cases hType
  | .cons _ _ _, 0, _, _, _, _, hType, hKeys => by
      cases hType
      exact hKeys
  | .cons _ _ rest, index + 1, _, _, _, _, hType, hKeys =>
    @keysMatchType_of_field rest index _ _ _ _ hType hKeys

variable {fields : Fields} {values : fields.Vals} {segments : List Segment} {found : Turn}
    {value : GoString} {other : Turn} {others : List Segment} {entries : List Entry}
    {result : fields.Vals} {key : GoString} {items : List (Segment × Entry)}
    {keys : List (Option GoString)} {list : List Segment}

/-- A node that is no container is read in a field. -/
theorem lookup_eq_some {node : Found} (hNode : node ≠ .container)
    (hLookup : lookup fields values segments = some node) :
    ∃ found type value, turn fields segments = some found ∧
      fieldAt fields found.index values = some ⟨type, value⟩ ∧
      lookupType type value found.last found.rest = some node := by
  rw [lookup, lookupStruct] at hLookup
  split at hLookup
  · exact absurd (Option.some.inj hLookup).symm hNode
  · obtain ⟨found, hTurn, hField⟩ := Option.bind_eq_some_iff.mp hLookup
    rw [lookupField_eq_bind] at hField
    obtain ⟨⟨type, value⟩, hAt, hType⟩ := Option.bind_eq_some_iff.mp hField
    exact ⟨found, type, value, hTurn, hAt, hType⟩

theorem lookup_of_fieldAt {type : GoType} {value : type.Val}
    (hTurn : turn fields segments = some found)
    (hField : fieldAt fields found.index values = some ⟨type, value⟩) :
    lookup fields values segments = lookupType type value found.last found.rest := by
  have hNonempty : segments ≠ [] := by
    rintro rfl
    cases hTurn
  rw [lookup, lookupStruct, if_neg hNonempty, hTurn, Option.bind_some, lookupField_eq_bind, hField]
  rfl

/-! ## Items -/

theorem Segment.ext_of_bare {segment other : Segment} (hBare : segment.Bare)
    (hOther : other.Bare) (hName : segment.name = other.name) : segment = other := by
  obtain ⟨name, key, value⟩ := segment
  obtain ⟨name', key', value'⟩ := other
  obtain ⟨hKey, hValue⟩ := hBare
  obtain ⟨hKey', hValue'⟩ := hOther
  rw [Segment.mk.injEq]
  exact ⟨hName, hKey.trans hKey'.symm, hValue.trans hValue'.symm⟩

theorem eq_of_bare (hBare : ∀ segment ∈ segments, segment.Bare)
    (hOthers : ∀ segment ∈ others, segment.Bare)
    (hNames : segments.map Segment.name = others.map Segment.name) : segments = others := by
  induction segments generalizing others with
  | nil =>
    rw [List.map_nil, eq_comm, List.map_eq_nil_iff] at hNames
    exact hNames.symm
  | cons segment rest ih =>
    cases others with
    | nil => cases hNames
    | cons other more =>
      rw [List.map_cons, List.map_cons, List.cons.injEq] at hNames
      rw [List.forall_mem_cons] at hBare hOthers
      rw [Segment.ext_of_bare hBare.1 hOthers.1 hNames.1, ih hBare.2 hOthers.2 hNames.2]

/-- Two paths into the same field, both without predicates on the way to it. -/
theorem lead_eq_of_turn_eq_some (hTurn : turn fields segments = some found)
    (hOther : turn fields others = some other) (hIndex : found.index = other.index)
    (hBare : ∀ segment ∈ found.lead, segment.Bare)
    (hOtherBare : ∀ segment ∈ other.lead, segment.Bare) :
    found.lead = other.lead ∧ found.last.name = other.last.name := by
  obtain ⟨hLead, hLast⟩ := names_of_turn_eq_some hTurn hOther hIndex
  exact ⟨eq_of_bare hBare hOtherBare hLead, hLast⟩

/-- The path of an entry names every node once, with its own keys. -/
def Entry.Placed (fields : Fields) (entry : Entry) : Prop :=
  Addressed fields entry.segments ∧ KeysMatch fields entry.segments entry.leaf

theorem mem_into {index : Nat} {item : Segment × Entry} :
    item ∈ entries.filterMap (Entry.into fields index) ↔ ∃ entry ∈ entries, ∃ found,
      turn fields entry.segments = some found ∧ found.index = index ∧
        item = (found.last, { entry with segments := found.rest }) := by
  simp [Entry.into, Option.bind_eq_some_iff, @eq_comm _ item]

theorem placed_into {index : Nat} {type : GoType} (hType : typeAt fields index = some type)
    (hPlaced : ∀ entry ∈ entries, entry.Placed fields) :
    ∀ item ∈ entries.filterMap (Entry.into fields index), Placed type item := by
  intro item hItem
  obtain ⟨entry, hEntry, found, hTurn, rfl, rfl⟩ := mem_into.mp hItem
  obtain ⟨hAddressed, hKeys⟩ := hPlaced entry hEntry
  exact ⟨addressedType_of_field hType (hAddressed found hTurn).2,
    keysMatchType_of_field hType (hKeys found hTurn)⟩

theorem name_into (hTurn : turn fields segments = some found) :
    ∀ item ∈ entries.filterMap (Entry.into fields found.index), item.1.name = found.last.name := by
  intro item hItem
  obtain ⟨entry, _, other, hOther, hIndex, rfl⟩ := mem_into.mp hItem
  exact (names_of_turn_eq_some hOther hTurn hIndex).2

/-- Two paths into one field that go on in the same way are the same. -/
theorem segments_eq_of_into (hTurn : turn fields segments = some found)
    (hOther : turn fields others = some other) (hAddressed : Addressed fields segments)
    (hOthers : Addressed fields others) (hIndex : other.index = found.index)
    (hLast : other.last = found.last) (hRest : other.rest = found.rest) : others = segments := by
  have hLead := (lead_eq_of_turn_eq_some hOther hTurn hIndex (hOthers other hOther).1
    (hAddressed found hTurn).1).1
  rw [(turn_eq_some hOther).1, (turn_eq_some hTurn).1, hLead, hLast, hRest]

/-- What is assigned leads into a field. -/
theorem exists_turn_of_assignAll_eq_ok (hAssign : assignAll fields values entries = .ok result) :
    ∀ entry ∈ entries, ∃ found type, turn fields entry.segments = some found ∧
      typeAt fields found.index = some type := by
  intro entry hEntry
  obtain ⟨before, after, hPath⟩ := exists_assignPath_of_assignAll_eq_ok entries hAssign entry hEntry
  obtain ⟨found, hTurn, hField⟩ := assignStruct_eq_ok hPath
  obtain ⟨type, _, _, hAt, _⟩ := assignField_eq_ok hField
  exact ⟨found, type, hTurn, typeAt_of_fieldAt_eq_some hAt⟩

/-- The items of a list with the key of one of them share its segment. -/
theorem segment_eq_of_value_eq {item other : Segment} (hItem : fields.keyName = some item.key)
    (hOther : fields.keyName = some other.key) (hName : other.name = item.name)
    (hValue : other.value = item.value) : other = item := by
  obtain ⟨name, key, value⟩ := item
  obtain ⟨name', key', value'⟩ := other
  cases hItem.symm.trans hOther
  rw [Segment.mk.injEq]
  exact ⟨hName, rfl, hValue⟩

theorem mem_belowKey {entry : Entry} :
    entry ∈ items.filterMap (belowKey key) ↔
      ∃ item ∈ items, item.1.value = key ∧ item.2 = entry := by
  simp [belowKey]

theorem placed_belowKey (hPlaced : ∀ item ∈ items, Placed (.slice fields) item) :
    ∀ entry ∈ items.filterMap (belowKey key), entry.Placed fields := by
  intro entry hEntry
  obtain ⟨item, hItem, _, rfl⟩ := mem_belowKey.mp hEntry
  obtain ⟨hAddressed, hKeys⟩ := hPlaced item hItem
  rw [AddressedType] at hAddressed
  rw [KeysMatchType] at hKeys
  exact ⟨hAddressed.2, fun found hTurn => (hKeys found hTurn).2⟩

/-- The entry of a list that is there in the end. -/
theorem start_of_entryOf_eq_some {elements result : List fields.Vals} {after : fields.Vals}
    (hPlaced : ∀ item ∈ items, Placed (.slice fields) item)
    (hAssign : assignAllType (.slice fields) elements items = .ok result)
    (hEntry : entryOf fields result key = some after) :
    ∃ before, startOf fields elements key = some before ∧
      assignAll fields before (items.filterMap (belowKey key)) = .ok after := by
  rcases entryOf_of_assignAllType_eq_ok key items hPlaced hAssign with
    ⟨hNone, hSame⟩ | ⟨before, last, hBefore, hLast, hResult⟩
  · rw [hEntry] at hSame
    refine ⟨after, by rw [startOf, ← hSame, Option.some_or], ?_⟩
    rw [hNone]
    rfl
  · cases hEntry.symm.trans hResult
    exact ⟨before, hBefore, hLast⟩

/-! ## Assigned leaves -/

/-- A leaf that no other item agrees with in its place reads back. -/
def ReadsItems (type : GoType) : Prop :=
  ∀ {value result : type.Val} {items : List (Segment × Entry)} (item : Segment × Entry),
    (∀ other ∈ items, Placed type other) → (∀ other ∈ items, other.1.name = item.1.name) →
    (∀ other ∈ items, other.1 = item.1 → other.2.segments = item.2.segments →
      other.2.leaf = item.2.leaf) → item ∈ items →
    assignAllType type value items = .ok result → ∃ kind found,
      coerce kind (.leaf item.2.leaf) = .ok found ∧
        lookupType type result item.1 item.2.segments = some (.leaf (Leaf.ofVal kind found))

theorem lookup_of_assignAll_eq_ok
    (ih : ∀ {index type}, typeAt fields index = some type → ReadsItems type) {entry : Entry}
    (hPlaced : ∀ other ∈ entries, other.Placed fields)
    (hOnly : ∀ other ∈ entries, other.segments = entry.segments → other.leaf = entry.leaf)
    (hMem : entry ∈ entries) (hAssign : assignAll fields values entries = .ok result) :
    ∃ kind found, coerce kind (.leaf entry.leaf) = .ok found ∧
      lookup fields result entry.segments = some (.leaf (Leaf.ofVal kind found)) := by
  obtain ⟨found, type, hTurn, hType⟩ := exists_turn_of_assignAll_eq_ok hAssign entry hMem
  obtain ⟨value, hValue⟩ := exists_fieldAt_eq_some hType values
  obtain ⟨new, hNew, hItems⟩ := fieldAt_of_assignAll_eq_ok entries hValue hAssign
  rw [lookup_of_fieldAt hTurn hNew]
  refine ih hType (found.last, { entry with segments := found.rest }) (placed_into hType hPlaced)
    (name_into hTurn) ?_ (mem_into.mpr ⟨entry, hMem, found, hTurn, rfl, rfl⟩) hItems
  intro item hItem hLast hRest
  obtain ⟨other, hOther, next, hNext, hIndex, rfl⟩ := mem_into.mp hItem
  exact hOnly other hOther (segments_eq_of_into hTurn hNext (hPlaced entry hMem).1
    (hPlaced other hOther).1 hIndex hLast hRest)

theorem readsItems (type : GoType) : ReadsItems type := by
  induction type using typeInduction with
  | scalar kind =>
    intro value result items item hPlaced hNames hOnly hMem hAssign
    obtain ⟨hEnds, ⟨rfl, _⟩ | ⟨other, hOther, hCoerce⟩⟩ := assignAllType_scalar_eq_ok items hAssign
    · cases hMem
    have hSame := hOnly other hOther (Segment.ext_of_bare (hPlaced other hOther).1
      (hPlaced item hMem).1 (hNames other hOther))
      ((hEnds other hOther).trans (hEnds item hMem).symm)
    exact ⟨kind, result, hSame ▸ hCoerce, by rw [hEnds item hMem]; rfl⟩
  | struct fields ih =>
    intro value result items item hPlaced hNames hOnly hMem hAssign
    rw [assignAllType_struct] at hAssign
    refine lookup_of_assignAll_eq_ok ih ?_ ?_ (List.mem_map_of_mem hMem) hAssign
    · intro entry hEntry
      obtain ⟨other, hOther, rfl⟩ := List.mem_map.mp hEntry
      exact ⟨(hPlaced other hOther).1.2, (hPlaced other hOther).2⟩
    · intro entry hEntry hSegments
      obtain ⟨other, hOther, rfl⟩ := List.mem_map.mp hEntry
      exact hOnly other hOther (Segment.ext_of_bare (hPlaced other hOther).1.1
        (hPlaced item hMem).1.1 (hNames other hOther)) hSegments
  | pointer fields ih =>
    intro value result items item hPlaced hNames hOnly hMem hAssign
    rcases assignAllType_pointer_eq_ok items hAssign with ⟨rfl, _⟩ | ⟨new, rfl, hNew⟩
    · cases hMem
    · rw [← assignAllType_struct] at hNew
      exact ih item hPlaced hNames hOnly hMem hNew
  | slice fields _ ih =>
    intro elements result items item hPlaced hNames hOnly hMem hAssign
    have hKeys := (keys_of_assignAllType_eq_ok items hPlaced hAssign).1
    have hBelow : item.2 ∈ items.filterMap (belowKey item.1.value) :=
      mem_belowKey.mpr ⟨item, hMem, rfl, rfl⟩
    rcases entryOf_of_assignAllType_eq_ok item.1.value items hPlaced hAssign with
      ⟨hNone, _⟩ | ⟨before, after, _, hAfter, hEntry⟩
    · rw [hNone] at hBelow
      cases hBelow
    rw [lookupType, if_neg (hKeys item hMem).1, if_pos (hKeys item hMem).2, hEntry,
      Option.bind_some]
    refine lookup_of_assignAll_eq_ok ih (placed_belowKey hPlaced) ?_ hBelow hAfter
    intro entry hEntry hSegments
    obtain ⟨other, hOther, hValue, rfl⟩ := mem_belowKey.mp hEntry
    exact hOnly other hOther (segment_eq_of_value_eq (hKeys item hMem).2 (hKeys other hOther).2
      (hNames other hOther) hValue) hSegments

/-! ## Lists -/

theorem mem_foldl_addKey {key : Option GoString} (values : List GoString)
    (keys : List (Option GoString)) :
    key ∈ values.foldl addKey keys ↔ key ∈ keys ∨ ∃ value ∈ values, key = some value := by
  induction values generalizing keys with
  | nil => simp
  | cons value values ih =>
    have hStep : key ∈ addKey keys value ↔ key ∈ keys ∨ key = some value := by
      unfold addKey
      split
      · next hOld =>
        refine ⟨Or.inl, ?_⟩
        rintro (hMem | rfl)
        · exact hMem
        · exact hOld
      · simp
    rw [List.foldl_cons, ih, hStep, List.exists_mem_cons_iff, or_assoc]

theorem nodup_foldl_addKey (values : List GoString) (hKeys : keys.Nodup) :
    (values.foldl addKey keys).Nodup := by
  induction values generalizing keys with
  | nil => exact hKeys
  | cons value values ih =>
    refine ih ?_
    unfold addKey
    split
    · exact hKeys
    · next hNew => exact List.nodup_append_comm.mp (List.nodup_cons.mpr ⟨hNew, hKeys⟩)

/-! ### New values -/

theorem fieldAt_zero : ∀ (fields : Fields) (index : Nat),
    fieldAt fields index fields.zero = (typeAt fields index).map fun type => ⟨type, type.zero⟩
  | .nil, _ => rfl
  | .cons _ _ _, 0 => rfl
  | .cons _ _ rest, index + 1 => fieldAt_zero rest index

/-- Setting the key of an entry changes a scalar. -/
theorem fieldAt_of_setKey_eq_some : ∀ {fields : Fields} {values updated : fields.Vals}
    {value : GoString} {index : Nat}, fields.setKey values value = some updated →
    fieldAt fields index updated = fieldAt fields index values ∨
      ∃ kind scalar, fieldAt fields index updated = some ⟨.scalar kind, scalar⟩
  | .nil, _, _, _, _, hSet => by cases hSet
  | .cons tag type rest, (first, values), updated, value, index, hSet => by
      have hOther : (rest.setKey values value).map (fun others => (first, others)) = some updated →
          fieldAt (.cons tag type rest) index updated =
              fieldAt (.cons tag type rest) index (first, values) ∨
            ∃ kind scalar, fieldAt (.cons tag type rest) index updated =
              some ⟨.scalar kind, scalar⟩ := by
        intro hRest
        obtain ⟨others, hOthers, rfl⟩ := Option.map_eq_some_iff.mp hRest
        cases index with
        | zero => exact Or.inl rfl
        | succ index => exact @fieldAt_of_setKey_eq_some rest values others value index hOthers
      cases type with
      | scalar kind =>
        rw [Fields.setKey] at hSet
        split at hSet
        · obtain ⟨parsed, _, rfl⟩ := Option.map_eq_some_iff.mp hSet
          cases index with
          | zero => exact Or.inr ⟨kind, parsed, rfl⟩
          | succ index => exact Or.inl rfl
        · exact hOther hSet
      | _ =>
        change (if tag.key then none
          else (rest.setKey values value).map fun others => (first, others)) = _ at hSet
        split at hSet
        · cases hSet
        · exact hOther hSet

/-- The lists of a zero value are empty. -/
theorem keys_of_lookupType_zero (type : GoType) : ∀ {last : Segment} {segments : List Segment}
    {keys : List (Option GoString)},
    lookupType type type.zero last segments = some (.list keys) → keys = [] := by
  induction type using typeInduction with
  | scalar kind =>
    intro last segments keys hLookup
    rw [lookupType] at hLookup
    split at hLookup <;> cases hLookup
  | struct fields ih =>
    intro last segments keys hLookup
    obtain ⟨found, type, value, _, hAt, hType⟩ :=
      @lookup_eq_some fields fields.zero _ _ (by simp) hLookup
    have hZero := hAt
    rw [fieldAt_zero, Option.map_eq_some_iff] at hZero
    obtain ⟨_, _, hSame⟩ := hZero
    cases hSame
    exact ih (typeAt_of_fieldAt_eq_some hAt) hType
  | pointer fields ih => exact fun hLookup => by cases hLookup
  | slice fields =>
    intro last segments keys hLookup
    rcases lookupType_slice_eq_some hLookup with ⟨_, _, hKeys⟩ | ⟨_, _, element, hElement, _⟩
    · exact Found.list.inj hKeys
    · cases hElement

/-- So are those of a new entry. -/
theorem keys_of_lookup_setKey {fresh : fields.Vals}
    (hFresh : fields.setKey fields.zero value = some fresh)
    (hLookup : lookup fields fresh segments = some (.list keys)) : keys = [] := by
  obtain ⟨found, type, inner, hTurn, hAt, hType⟩ := lookup_eq_some (by simp) hLookup
  rcases fieldAt_of_setKey_eq_some hFresh with hSame | ⟨kind, scalar, hScalar⟩
  · rw [hAt] at hSame
    have hZero : lookupType (.struct fields) (GoType.zero (.struct fields)) found.last segments =
        some (.list keys) := (lookup_of_fieldAt hTurn hSame.symm).trans hType
    exact keys_of_lookupType_zero _ hZero
  · cases hAt.symm.trans hScalar
    rw [lookupType] at hType
    split at hType <;> cases hType

/-! ### Clear tags -/

def tagPaths : Fields → List (List GoString)
  | .nil => []
  | .cons tag _ rest => tag.path :: tagPaths rest

mutual

def clearTagsType : GoType → Bool
  | .scalar _ => true
  | .struct fields => clearTags fields
  | .pointer fields => clearTags fields
  | .slice fields => fields.keyName.isSome && clearTags fields

/-- No tag of a struct leads another one, the parts of the tags are plain names, and the
entries of lists have a key. -/
def clearTags : Fields → Bool
  | .nil => true
  | .cons tag type rest =>
    (tag.path.all fun part => part ≠ [] && !part.contains 47 && !part.contains 91) &&
    (tagPaths rest).all (fun path => !tag.path.isPrefixOf path && !path.isPrefixOf tag.path) &&
    clearTagsType type && clearTags rest

end

theorem clearTagsType_of_typeAt : ∀ {fields : Fields} {index : Nat} {type : GoType},
    clearTags fields = true → typeAt fields index = some type → clearTagsType type = true
  | .nil, _, _, _, hType => by cases hType
  | .cons _ _ _, 0, _, hClear, hType => by
      rw [clearTags, Bool.and_eq_true, Bool.and_eq_true] at hClear
      exact Option.some.inj hType ▸ hClear.1.2
  | .cons _ _ rest, index + 1, _, hClear, hType => by
      rw [clearTags, Bool.and_eq_true] at hClear
      exact @clearTagsType_of_typeAt rest index _ hClear.2 hType

theorem path_mem_tagPaths : ∀ {fields : Fields} {index : Nat} {tag : Tag},
    tagAt fields index = some tag → tag.path ∈ tagPaths fields
  | .nil, _, _, hTag => by cases hTag
  | .cons _ _ _, 0, _, hTag => by
      cases hTag
      exact List.mem_cons_self
  | .cons _ _ rest, index + 1, _, hTag => List.mem_cons_of_mem _ (path_mem_tagPaths hTag)

/-- Of two tags that lead each other there is only one. -/
theorem index_eq_of_isPrefix : ∀ {fields : Fields} {index other : Nat} {tag otherTag : Tag},
    clearTags fields = true → tagAt fields index = some tag → tagAt fields other = some otherTag →
    tag.path <+: otherTag.path ∨ otherTag.path <+: tag.path → index = other
  | .nil, _, _, _, _, _, hTag, _, _ => by cases hTag
  | .cons first type rest, index, other, tag, otherTag, hClear, hTag, hOther, hLead => by
      rw [clearTags, Bool.and_eq_true, Bool.and_eq_true, Bool.and_eq_true] at hClear
      obtain ⟨⟨⟨_, hPaths⟩, _⟩, hRest⟩ := hClear
      have hApart : ∀ {index : Nat} {tag : Tag}, tagAt rest index = some tag →
          ¬ (first.path <+: tag.path ∨ tag.path <+: first.path) := by
        intro index tag hTag hEither
        have hPath := List.all_eq_true.mp hPaths tag.path (path_mem_tagPaths hTag)
        rw [Bool.and_eq_true, Bool.not_eq_true', Bool.not_eq_true', ← Bool.not_eq_true,
          ← Bool.not_eq_true, List.isPrefixOf_iff_prefix, List.isPrefixOf_iff_prefix] at hPath
        exact hEither.elim hPath.1 hPath.2
      cases index with
      | zero =>
        cases hTag
        cases other with
        | zero => rfl
        | succ other => exact absurd hLead (hApart hOther)
      | succ index =>
        cases other with
        | zero =>
          cases hOther
          exact absurd hLead.symm (hApart hTag)
        | succ other =>
          rw [index_eq_of_isPrefix hRest hTag hOther hLead]

theorem isSome_bestField : ∀ {fields : Fields} {names : List GoString} {index : Nat}
    {best : Option (Nat × Tag)}, (best.isSome = true ∨ ∃ offset tag,
      tagAt fields offset = some tag ∧ tag.path <+: names ∧ tag.path ≠ []) →
    (bestField names index best fields).isSome = true
  | .nil, _, _, _, hBest => by
      rcases hBest with hBest | ⟨offset, tag, hTag, _⟩
      · exact hBest
      · cases hTag
  | .cons first type rest, names, index, best, hBest => by
      rw [bestField]
      refine isSome_bestField ?_
      rcases hBest with hBest | ⟨offset, tag, hTag, hLead, hNonempty⟩
      · refine Or.inl ?_
        split
        · rfl
        · exact hBest
      · cases offset with
        | succ offset => exact Or.inr ⟨offset, tag, hTag, hLead, hNonempty⟩
        | zero =>
          cases hTag
          refine Or.inl ?_
          split
          · rfl
          · next hLost =>
            cases best with
            | some found => rfl
            | none =>
              refine absurd ?_ hLost
              rw [Bool.and_eq_true, List.isPrefixOf_iff_prefix, decide_eq_true_eq]
              exact ⟨hLead, List.length_pos_of_ne_nil hNonempty⟩

/-- A longer path goes into the same field. -/
theorem turn_of_names_prefix (hClear : clearTags fields = true)
    (hOther : turn fields others = some other)
    (hNames : others.map Segment.name <+: segments.map Segment.name) :
    ∃ found, turn fields segments = some found ∧ found.index = other.index := by
  obtain ⟨hSplit, tag, hTag, hPath⟩ := turn_eq_some hOther
  have hLead : tag.path <+: others.map Segment.name := by
    rw [hSplit, ← hPath]
    exact ⟨other.rest.map Segment.name, by simp⟩
  cases segments with
  | nil =>
    have hEmpty := List.eq_nil_of_prefix_nil hNames
    rw [hSplit] at hEmpty
    simp at hEmpty
  | cons first more =>
    have hNonempty : tag.path ≠ [] := by
      rw [← hPath]
      simp
    have hSome : (turn fields (first :: more)).isSome = true := by
      rw [turn, Option.isSome_map]
      exact isSome_bestField (Or.inr ⟨other.index, tag, hTag, hLead.trans hNames, hNonempty⟩)
    obtain ⟨found, hTurn⟩ := Option.isSome_iff_exists.mp hSome
    refine ⟨found, hTurn, ?_⟩
    obtain ⟨hFoundSplit, foundTag, hFoundTag, hFoundPath⟩ := turn_eq_some hTurn
    refine index_eq_of_isPrefix hClear hFoundTag hTag ?_
    refine List.prefix_or_prefix_of_prefix ?_ (hLead.trans hNames)
    rw [hFoundSplit, ← hFoundPath]
    exact ⟨found.rest.map Segment.name, by simp⟩

/-! ### Mentioned entries -/

/-- A path goes through the entry with the key in the list at another path. -/
def Mentions (segments list : List Segment) (value : GoString) : Prop :=
  ∃ lead name key rest, key ≠ [] ∧ list = lead ++ [⟨name, [], []⟩] ∧
    segments = lead ++ ⟨name, key, value⟩ :: rest

theorem Mentions.append_left (hMentions : Mentions segments list value) (lead : List Segment) :
    Mentions (lead ++ segments) (lead ++ list) value := by
  obtain ⟨more, name, key, rest, hKey, rfl, rfl⟩ := hMentions
  exact ⟨lead ++ more, name, key, rest, hKey, by simp, by simp⟩

theorem Mentions.of_cons {last other : Segment}
    (hMentions : Mentions (last :: segments) (other :: others) value) :
    (others = [] ∧ other.Bare ∧ last.key ≠ [] ∧ last.value = value) ∨
      last = other ∧ Mentions segments others value := by
  obtain ⟨lead, name, key, rest, hKey, hList, hSegments⟩ := hMentions
  cases lead with
  | nil =>
    cases hList
    cases hSegments
    exact Or.inl ⟨rfl, ⟨rfl, rfl⟩, hKey, rfl⟩
  | cons first lead =>
    rw [List.cons_append, List.cons.injEq] at hList hSegments
    exact Or.inr ⟨hSegments.1.trans hList.1.symm, lead, name, key, rest, hKey, hList.2,
      hSegments.2⟩

theorem Mentions.names (hMentions : Mentions segments list value) :
    list.map Segment.name <+: segments.map Segment.name := by
  obtain ⟨lead, name, key, rest, _, rfl, rfl⟩ := hMentions
  exact ⟨rest.map Segment.name, by simp⟩

/-- A path that mentions an entry of a list goes into the field of the list, and mentions
the entry there. -/
theorem Mentions.of_turn (hClear : clearTags fields = true)
    (hMentions : Mentions segments list value) (hOther : turn fields list = some other) :
    ∃ found, turn fields segments = some found ∧ found.index = other.index ∧
      Mentions (found.last :: found.rest) (other.last :: other.rest) value := by
  obtain ⟨found, hTurn, hIndex⟩ := turn_of_names_prefix hClear hOther hMentions.names
  refine ⟨found, hTurn, hIndex, ?_⟩
  obtain ⟨hLead, _⟩ := names_of_turn_eq_some hTurn hOther hIndex
  have hLength : found.lead.length = other.lead.length := by
    simpa using congrArg List.length hLead
  obtain ⟨lead, name, key, rest, hKey, hList, hSegments⟩ := hMentions
  rw [(turn_eq_some hOther).1] at hList
  rw [(turn_eq_some hTurn).1] at hSegments
  -- The tag ends before the last segment of the list's path or at it.
  obtain ⟨more, hMore⟩ : ∃ more, lead = other.lead ++ more := by
    have hLe : other.lead.length ≤ lead.length := by
      have hCount := congrArg List.length hList
      simp at hCount
      omega
    exact (List.prefix_of_prefix_length_le ⟨_, hList⟩ ⟨_, rfl⟩ hLe).imp fun more hMore =>
      hMore.symm
  subst hMore
  rw [List.append_assoc] at hList hSegments
  have hRest := (List.append_inj hSegments (by simpa using hLength)).2
  exact ⟨more, name, key, rest, hKey, (List.append_inj hList rfl).2, hRest⟩

/-- The keys that a list has got: those that it had, if it was there, and those that are
mentioned. -/
def GrowsTo (mentioned : GoString → Prop) (before : Option Found)
    (keys : List (Option GoString)) : Prop :=
  ∃ old, (before = some (.list old) ∨ old = []) ∧ (old.Nodup → keys.Nodup) ∧
    ∀ key, key ∈ keys ↔ key ∈ old ∨ ∃ value, key = some value ∧ mentioned value

theorem GrowsTo.congr {mentioned others : GoString → Prop} {before : Option Found}
    (hGrows : GrowsTo mentioned before keys) (hSame : ∀ value, mentioned value ↔ others value) :
    GrowsTo others before keys := by
  obtain ⟨old, hOld, hNodup, hKeys⟩ := hGrows
  exact ⟨old, hOld, hNodup, by simpa only [hSame] using hKeys⟩

/-- Growing from a new value is growing from nothing. -/
theorem GrowsTo.of_new {mentioned : GoString → Prop} {before first : Option Found}
    (hGrows : GrowsTo mentioned before keys)
    (hNew : ∀ keys, before = some (.list keys) → keys = []) : GrowsTo mentioned first keys := by
  obtain ⟨old, hOld, hKeys⟩ := hGrows
  exact ⟨old, Or.inr (hOld.elim (hNew old) id), hKeys⟩

def ListsGrow (type : GoType) : Prop :=
  ∀ {value result : type.Val} {items : List (Segment × Entry)} {last : Segment}
    {segments : List Segment} {keys : List (Option GoString)}, clearTagsType type = true →
    (∀ item ∈ items, Placed type item) → (∀ item ∈ items, item.1.name = last.name) →
    AddressedType type last segments → assignAllType type value items = .ok result →
    lookupType type result last segments = some (.list keys) →
    GrowsTo (fun key => ∃ item ∈ items, Mentions (item.1 :: item.2.segments) (last :: segments) key)
      (lookupType type value last segments) keys

theorem growsTo_of_assignAll_eq_ok
    (ih : ∀ {index type}, typeAt fields index = some type → ListsGrow type)
    (hClear : clearTags fields = true) (hPlaced : ∀ entry ∈ entries, entry.Placed fields)
    (hAddressed : Addressed fields segments)
    (hAssign : assignAll fields values entries = .ok result)
    (hLookup : lookup fields result segments = some (.list keys)) :
    GrowsTo (fun key => ∃ entry ∈ entries, Mentions entry.segments segments key)
      (lookup fields values segments) keys := by
  obtain ⟨found, type, last, hTurn, hLast, hList⟩ := lookup_eq_some (by simp) hLookup
  have hType := typeAt_of_fieldAt_eq_some hLast
  obtain ⟨value, hValue⟩ := exists_fieldAt_eq_some hType values
  obtain ⟨new, hNew, hItems⟩ := fieldAt_of_assignAll_eq_ok entries hValue hAssign
  cases hLast.symm.trans hNew
  rw [lookup_of_fieldAt hTurn hValue]
  refine (ih hType (clearTagsType_of_typeAt hClear hType) (placed_into hType hPlaced)
    (name_into hTurn) (addressedType_of_field hType (hAddressed found hTurn).2) hItems hList).congr
    fun key => ⟨?_, ?_⟩
  · rintro ⟨item, hItem, hMentions⟩
    obtain ⟨entry, hEntry, other, hOther, hIndex, rfl⟩ := mem_into.mp hItem
    refine ⟨entry, hEntry, ?_⟩
    rw [(turn_eq_some hOther).1, (turn_eq_some hTurn).1,
      (lead_eq_of_turn_eq_some hOther hTurn hIndex
        ((hPlaced entry hEntry).1 other hOther).1 (hAddressed found hTurn).1).1]
    exact hMentions.append_left found.lead
  · rintro ⟨entry, hEntry, hMentions⟩
    obtain ⟨other, hOther, hIndex, hRest⟩ := hMentions.of_turn hClear hTurn
    exact ⟨_, mem_into.mpr ⟨entry, hEntry, other, hOther, hIndex, rfl⟩, hRest⟩

theorem listsGrow (type : GoType) : ListsGrow type := by
  induction type using typeInduction with
  | scalar kind =>
    intro value result items last segments keys _ _ _ _ _ hLookup
    rw [lookupType] at hLookup
    split at hLookup <;> cases hLookup
  | struct fields ih =>
    intro value result items last segments keys hClear hPlaced hNames hAddressed hAssign hLookup
    rw [assignAllType_struct] at hAssign
    refine (growsTo_of_assignAll_eq_ok ih hClear ?_ hAddressed.2 hAssign hLookup).congr
      fun key => ⟨?_, ?_⟩
    · intro entry hEntry
      obtain ⟨item, hItem, rfl⟩ := List.mem_map.mp hEntry
      exact ⟨(hPlaced item hItem).1.2, (hPlaced item hItem).2⟩
    · rintro ⟨entry, hEntry, hMentions⟩
      obtain ⟨item, hItem, rfl⟩ := List.mem_map.mp hEntry
      refine ⟨item, hItem, ?_⟩
      rw [Segment.ext_of_bare (hPlaced item hItem).1.1 hAddressed.1 (hNames item hItem)]
      exact hMentions.append_left [last]
    · rintro ⟨item, hItem, hMentions⟩
      refine ⟨item.2, List.mem_map_of_mem hItem, ?_⟩
      rcases hMentions.of_cons with ⟨rfl, _⟩ | ⟨_, hRest⟩
      · cases hLookup
      · exact hRest
  | pointer fields ih =>
    intro value result items last segments keys hClear hPlaced hNames hAddressed hAssign hLookup
    rcases assignAllType_pointer_eq_ok items hAssign with ⟨rfl, rfl⟩ | ⟨new, rfl, hNew⟩
    · exact ⟨keys, Or.inl hLookup, id, by simp⟩
    · rw [← assignAllType_struct] at hNew
      have hGrows := ih hClear hPlaced hNames hAddressed hNew hLookup
      cases value with
      | some target => exact hGrows
      | none => exact hGrows.of_new fun keys hZero => keys_of_lookupType_zero (.struct fields) hZero
  | slice fields _ ih =>
    intro elements result items last segments keys hClear hPlaced hNames hAddressed hAssign hLookup
    obtain ⟨hItemKeys, hKeys⟩ := keys_of_assignAllType_eq_ok items hPlaced hAssign
    rw [clearTagsType, Bool.and_eq_true] at hClear
    rcases lookupType_slice_eq_some hLookup with
      ⟨hBare, rfl, hList⟩ | ⟨hKeyed, hName, after, hEntry, hLookup⟩
    · cases hList
      rw [lookupType, if_pos hBare, if_pos rfl, hKeys]
      refine ⟨_, Or.inl rfl, nodup_foldl_addKey _, fun key => ?_⟩
      rw [mem_foldl_addKey]
      have hLast : last.Bare := hAddressed.1.resolve_right fun hKeyed => hKeyed.1 hBare
      refine or_congr Iff.rfl ⟨?_, ?_⟩
      · rintro ⟨value, hValue, rfl⟩
        obtain ⟨item, hItem, rfl⟩ := List.mem_map.mp hValue
        refine ⟨_, rfl, item, hItem, [], item.1.name, item.1.key, item.2.segments,
          (hItemKeys item hItem).1, ?_, rfl⟩
        have hList : last = ⟨item.1.name, [], []⟩ :=
          Segment.ext_of_bare hLast ⟨rfl, rfl⟩ (hNames item hItem).symm
        rw [hList, List.nil_append]
      · rintro ⟨value, rfl, item, hItem, hMentions⟩
        rcases hMentions.of_cons with ⟨_, _, _, rfl⟩ | ⟨_, hNone⟩
        · exact ⟨_, List.mem_map_of_mem hItem, rfl⟩
        · obtain ⟨_, _, _, _, _, hNil, _⟩ := hNone
          simp at hNil
    · rw [lookupType, if_neg hKeyed, if_pos hName]
      obtain ⟨before, hBefore, hAfter⟩ := start_of_entryOf_eq_some hPlaced hAssign hEntry
      have hSame : ∀ key, (∃ entry ∈ items.filterMap (belowKey last.value),
          Mentions entry.segments segments key) ↔ ∃ item ∈ items,
            Mentions (item.1 :: item.2.segments) (last :: segments) key := by
        refine fun key => ⟨?_, ?_⟩
        · rintro ⟨entry, hEntry, hMentions⟩
          obtain ⟨item, hItem, hValue, rfl⟩ := mem_belowKey.mp hEntry
          refine ⟨item, hItem, ?_⟩
          rw [segment_eq_of_value_eq hName (hItemKeys item hItem).2 (hNames item hItem) hValue]
          exact hMentions.append_left [last]
        · rintro ⟨item, hItem, hMentions⟩
          rcases hMentions.of_cons with ⟨_, hBare, _⟩ | ⟨hSame, hRest⟩
          · exact absurd hBare.1 hKeyed
          · exact ⟨item.2, mem_belowKey.mpr ⟨item, hItem, by rw [hSame], rfl⟩, hRest⟩
      have hGrows := (growsTo_of_assignAll_eq_ok ih hClear.2 (placed_belowKey hPlaced)
        hAddressed.2 hAfter hLookup).congr hSame
      cases hOld : entryOf fields elements last.value with
      | some old =>
        rw [startOf, hOld, Option.some_or, Option.some.injEq] at hBefore
        rw [hBefore]
        exact hGrows
      | none =>
        rw [startOf, hOld, Option.none_or] at hBefore
        exact hGrows.of_new fun keys => keys_of_lookup_setKey hBefore

end Router
end TriadSim

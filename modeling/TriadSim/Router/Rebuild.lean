import TriadSim.Router.ReadBack

/-!
# What a rebuilt device holds

A device rebuilt from a non-empty map reads back every leaf of the map, and its lists have the
entries that the map mentions and no others.  The main results are `rebuilt_device_reads_back`
and, for the entries alone, `hasMentionedEntries_of_deviceFromValues`.
-/

namespace TriadSim
namespace Router

open Go Library Store

/-! ## The pruned template -/

mutual

def uniqueKeysType : (type : GoType) → type.Val → Bool
  | .scalar _, _ => true
  | .struct fields, value => uniqueKeys fields value
  | .pointer fields, value => value.all (uniqueKeys fields)
  | .slice fields, elements =>
    decide (elements.map fields.keyText).Nodup && elements.all (uniqueKeys fields)

/-- No list of a value has two entries with the same key. -/
def uniqueKeys : (fields : Fields) → fields.Vals → Bool
  | .nil, _ => true
  | .cons _ type rest, (value, values) => uniqueKeysType type value && uniqueKeys rest values

end

theorem uniqueKeysType_of_fieldAt : ∀ {fields : Fields} {values : fields.Vals} {index : Nat}
    {field : Sigma GoType.Val}, uniqueKeys fields values = true →
    fieldAt fields index values = some field → uniqueKeysType field.1 field.2 = true
  | .nil, _, _, _, _, hField => by cases hField
  | .cons _ _ _, (_, _), 0, _, hUnique, hField => by
      rw [uniqueKeys, Bool.and_eq_true] at hUnique
      cases hField
      exact hUnique.1
  | .cons _ _ rest, (_, values), index + 1, _, hUnique, hField => by
      rw [uniqueKeys, Bool.and_eq_true] at hUnique
      exact @uniqueKeysType_of_fieldAt rest values index _ hUnique.2 hField

/-- The path below another one, without predicates. -/
def trail (path : GoString) (segments : List Segment) : GoString :=
  (segments.map Segment.name).foldl joinPath path

theorem foldl_joinPath {names : List GoString} (hNames : names ≠ [])
    (hParts : ∀ name ∈ names, name ≠ []) (path : GoString) :
    names.foldl joinPath path = joinPath path (join names 47) := by
  induction names generalizing path with
  | nil => exact absurd rfl hNames
  | cons name rest ih =>
    cases rest with
    | nil => simp [join, List.intercalate]
    | cons next more =>
      have hName := hParts name List.mem_cons_self
      have hRest : ∀ part ∈ next :: more, part ≠ [] :=
        fun part hPart => hParts part (List.mem_cons_of_mem _ hPart)
      have hJoin : join (name :: next :: more) 47 = name ++ 47 :: join (next :: more) 47 := by
        have hBoth := join_append 47 (List.cons_ne_nil name []) (List.cons_ne_nil next more)
        rw [List.singleton_append] at hBoth
        rw [hBoth]
        simp [join, List.intercalate]
      rw [List.foldl_cons, ih (List.cons_ne_nil _ _) hRest, hJoin]
      by_cases hPath : path = []
      · simp [joinPath, hPath, hName]
      · simp [joinPath, hPath]

theorem mem_trail_of_mem {byte : UInt8} {path : GoString} (segments : List Segment)
    (hMem : byte ∈ path) : byte ∈ trail path segments := by
  have hJoin : ∀ tag : GoString, byte ∈ joinPath path tag := by
    intro tag
    rw [joinPath, if_neg (List.ne_nil_of_mem hMem)]
    exact List.mem_append_left _ hMem
  induction segments generalizing path with
  | nil => exact hMem
  | cons segment rest ih =>
    refine ih (hJoin segment.name) ?_
    intro tag
    rw [joinPath, if_neg (List.ne_nil_of_mem (hJoin segment.name))]
    exact List.mem_append_left _ (hJoin segment.name)

theorem parts_of_clearTags : ∀ {fields : Fields} {index : Nat} {tag : Tag},
    clearTags fields = true → tagAt fields index = some tag →
    ∀ part ∈ tag.path, part ≠ [] ∧ 47 ∉ part ∧ 91 ∉ part
  | .nil, _, _, _, hTag => by cases hTag
  | .cons first type rest, index, tag, hClear, hTag => by
      rw [clearTags, Bool.and_eq_true, Bool.and_eq_true, Bool.and_eq_true] at hClear
      obtain ⟨⟨⟨hParts, _⟩, _⟩, hRest⟩ := hClear
      cases index with
      | zero =>
        cases hTag
        intro part hPart
        have hPlain := List.all_eq_true.mp hParts part hPart
        simpa [and_assoc] using hPlain
      | succ index => exact parts_of_clearTags hRest hTag

variable {fields : Fields} {segments : List Segment} {values : Values}

/-- The trail of a path into a field goes through the tag of the field. -/
theorem trail_of_turn {found : Turn} {tag : Tag} (hClear : clearTags fields = true)
    (hTurn : turn fields segments = some found) (hTag : tagAt fields found.index = some tag)
    (path : GoString) :
    trail path segments = trail (joinPath path (join tag.path 47)) found.rest := by
  obtain ⟨hSplit, other, hOther, hPath⟩ := turn_eq_some hTurn
  rw [hTag] at hOther
  cases hOther
  have hNonempty : tag.path ≠ [] := by
    rw [← hPath]
    simp
  have hParts := fun part hPart => (parts_of_clearTags hClear hTag part hPart).1
  have hNames : segments.map Segment.name = tag.path ++ found.rest.map Segment.name := by
    rw [← hPath, ← List.map_append]
    nth_rewrite 1 [hSplit]
    rw [List.append_assoc, List.singleton_append]
  rw [trail, hNames, List.foldl_append, foldl_joinPath hNonempty hParts]
  rfl

section Prune

variable {instances : List (GoString × GoString)}

theorem keyText_pruneFields : ∀ (fields : Fields) (path : GoString) (values : fields.Vals),
    fields.keyText (pruneFields instances fields path values) = fields.keyText values
  | .nil, _, _ => rfl
  | .cons tag type rest, path, (value, values) => by
      rw [pruneFields, Fields.keyText, Fields.keyText, keyText_pruneFields rest path values]
      have hScalar : ∀ here, type.scalarText (pruneType instances type here value) =
          type.scalarText value := by
        intro here
        cases type with
        | scalar kind | struct fields | slice fields => rfl
        | pointer fields => cases value <;> rfl
      rw [hScalar]

/-- A field of a pruned struct is pruned, below the path of its tag. -/
theorem fieldAt_pruneFields : ∀ {fields : Fields} {index : Nat} {tag : Tag}
    {values : fields.Vals} {field : Sigma GoType.Val}, tagAt fields index = some tag →
    fieldAt fields index values = some field → ∀ path,
      fieldAt fields index (pruneFields instances fields path values) =
        some ⟨field.1, pruneType instances field.1 (joinPath path (join tag.path 47)) field.2⟩
  | .nil, _, _, _, _, _, hField, _ => by cases hField
  | .cons _ _ _, 0, _, (_, _), _, hTag, hField, _ => by
      cases hTag
      cases hField
      rfl
  | .cons _ _ rest, index + 1, _, (_, values), _, hTag, hField, path =>
    @fieldAt_pruneFields rest index _ values _ hTag hField path

/-- What is known of the keys of a list in a pruned value: none twice, and each of them is
an instance of the list, which no entry of another list is around. -/
def Pruned (instances : List (GoString × GoString)) (path : GoString)
    (keys : List (Option GoString)) : Prop :=
  keys.Nodup ∧ ∀ key ∈ keys, ∃ value, key = some value ∧ (path, value) ∈ instances

variable {path : GoString}

theorem pruned_keys {fields : Fields} {elements : List fields.Vals}
    (hName : fields.keyName.isSome = true) (hUnique : (elements.map fields.keyText).Nodup) :
    Pruned instances path ((pruneType instances (.slice fields) path elements).map
      fields.keyText) := by
  have hKeys : (pruneType instances (.slice fields) path elements).map fields.keyText =
      (pruneList fields instances path elements).map fields.keyText := by
    rw [pruneType, List.map_map]
    exact List.map_congr_left fun element _ => keyText_pruneFields fields _ element
  obtain ⟨name, hName⟩ := Option.isSome_iff_exists.mp hName
  rw [hKeys, pruneList, hName]
  refine ⟨hUnique.sublist (List.filter_sublist.map _), ?_⟩
  intro key hKey
  obtain ⟨element, hElement, rfl⟩ := List.mem_map.mp hKey
  obtain ⟨value, hValue, hInstance⟩ :=
    (Option.any_eq_true _ _).mp (List.mem_filter.mp hElement).2
  exact ⟨value, hValue, by simpa using hInstance⟩

/-- A segment of a path that has no predicates and is made of plain names. -/
def Segment.Plain (segment : Segment) : Prop :=
  segment.Bare ∧ segment.name ≠ [] ∧ 47 ∉ segment.name

/-- A list inside an entry is empty: its path has the predicate of the entry, and the
instances have none. -/
theorem Pruned.eq_nil {keys : List (Option GoString)} (hPlain : ∀ found ∈ instances, 91 ∉ found.1)
    (hPath : 91 ∈ path) (hPruned : Pruned instances path keys) : keys = [] := by
  cases keys with
  | nil => rfl
  | cons key rest =>
    obtain ⟨value, _, hInstance⟩ := hPruned.2 key List.mem_cons_self
    exact absurd hPath (hPlain _ hInstance)

def ListsPruned (instances : List (GoString × GoString)) (type : GoType) : Prop :=
  ∀ {value : type.Val} {path : GoString} {last : Segment} {segments : List Segment}
    {keys : List (Option GoString)}, clearTagsType type = true →
    uniqueKeysType type value = true → AddressedType type last segments →
    lookupType type (pruneType instances type path value) last segments = some (.list keys) →
    Pruned instances (trail path segments) keys ∧
      (keys = [] ∨ last.Bare ∧ ∀ segment ∈ segments, segment.Plain)

theorem pruned_of_lookup {fields : Fields}
    (ih : ∀ {index type}, typeAt fields index = some type → ListsPruned instances type)
    {values : fields.Vals} {segments : List Segment} {keys : List (Option GoString)}
    (hClear : clearTags fields = true) (hUnique : uniqueKeys fields values = true)
    (hAddressed : Addressed fields segments)
    (hLookup : lookup fields (pruneFields instances fields path values) segments =
      some (.list keys)) :
    Pruned instances (trail path segments) keys ∧
      (keys = [] ∨ ∀ segment ∈ segments, segment.Plain) := by
  obtain ⟨found, type, pruned, hTurn, hPruned, hList⟩ := lookup_eq_some (by simp) hLookup
  have hType : typeAt fields found.index = some type := typeAt_of_fieldAt_eq_some hPruned
  obtain ⟨value, hValue⟩ := exists_fieldAt_eq_some hType values
  obtain ⟨hSplit, tag, hTag, hPath⟩ := turn_eq_some hTurn
  cases hPruned.symm.trans (fieldAt_pruneFields hTag hValue path)
  obtain ⟨hLead, hRest⟩ := hAddressed found hTurn
  obtain ⟨hKeys, hBare⟩ := ih hType (clearTagsType_of_typeAt hClear hType)
    (uniqueKeysType_of_fieldAt hUnique hValue) (addressedType_of_field hType hRest) hList
  rw [trail_of_turn hClear hTurn hTag]
  refine ⟨hKeys, hBare.imp_right ?_⟩
  rintro ⟨hLast, hRestPlain⟩
  have hName : ∀ segment ∈ found.lead ++ [found.last], segment.name ≠ [] ∧ 47 ∉ segment.name := by
    intro segment hSegment
    have hPart : segment.name ∈ tag.path := by
      rw [← hPath]
      exact List.mem_map_of_mem hSegment
    obtain ⟨hNonempty, hSlash, _⟩ := parts_of_clearTags hClear hTag _ hPart
    exact ⟨hNonempty, hSlash⟩
  rw [List.forall_mem_append] at hName
  rw [hSplit, List.forall_mem_append, List.forall_mem_cons]
  exact ⟨fun segment hSegment => ⟨hLead segment hSegment, hName.1 segment hSegment⟩,
    ⟨hLast, hName.2 _ (List.mem_singleton_self _)⟩, hRestPlain⟩

theorem listsPruned (hPlain : ∀ found ∈ instances, 91 ∉ found.1) (type : GoType) :
    ListsPruned instances type := by
  induction type using typeInduction with
  | scalar kind =>
    intro value path last segments keys _ _ _ hLookup
    rw [lookupType] at hLookup
    split at hLookup <;> cases hLookup
  | struct fields ih =>
    intro value path last segments keys hClear hUnique hAddressed hLookup
    obtain ⟨hPruned, hBare⟩ := pruned_of_lookup ih hClear hUnique hAddressed.2 hLookup
    exact ⟨hPruned, hBare.imp_right fun hRest => ⟨hAddressed.1, hRest⟩⟩
  | pointer fields ih =>
    intro value path last segments keys hClear hUnique hAddressed hLookup
    cases value with
    | none => cases hLookup
    | some value => exact @ih value path last segments keys hClear hUnique hAddressed hLookup
  | slice fields _ ih =>
    intro elements path last segments keys hClear hUnique hAddressed hLookup
    rw [clearTagsType, Bool.and_eq_true] at hClear
    rw [uniqueKeysType, Bool.and_eq_true, decide_eq_true_eq] at hUnique
    rcases lookupType_slice_eq_some hLookup with
      ⟨hKey, rfl, hList⟩ | ⟨_, _, entry, hEntry, hLookup⟩
    · cases hList
      refine ⟨pruned_keys hClear.1 hUnique.1, Or.inr ?_⟩
      have hBare := hAddressed.1.resolve_right fun hKeyed => hKeyed.1 hKey
      exact ⟨hBare, by simp⟩
    · rw [pruneType] at hEntry
      obtain ⟨element, hElement, rfl⟩ := List.mem_map.mp (List.mem_of_find?_eq_some hEntry)
      obtain ⟨name, hName⟩ := Option.isSome_iff_exists.mp hClear.1
      have hMem : element ∈ elements := by
        rw [pruneList, hName] at hElement
        exact (List.mem_filter.mp hElement).1
      have hText : fields.keyText element = some last.value := by
        have hFound := List.find?_some hEntry
        rwa [decide_eq_true_eq, keyText_pruneFields] at hFound
      obtain ⟨hPruned, _⟩ := pruned_of_lookup ih hClear.2
        (List.all_eq_true.mp hUnique.2 element hMem) hAddressed.2 hLookup
      have hBracket : 91 ∈ elementPath fields path element := by
        simp [elementPath, keyPredicateOf, hName, hText]
      have hNone := hPruned.eq_nil hPlain (mem_trail_of_mem segments hBracket)
      rw [hNone]
      exact ⟨⟨List.nodup_nil, by simp⟩, Or.inl rfl⟩

end Prune

/-! ## Instances are mentioned -/

theorem mem_listInstances : ∀ {lead : GoString} {segments : List Segment}
    {path value : GoString}, (path, value) ∈ listInstances lead segments →
    ∃ earlier segment later, segments = earlier ++ segment :: later ∧ segment.key ≠ [] ∧
      segment.value = value ∧ path = trail lead (earlier ++ [segment])
  | _, [], _, _, hMem => by cases hMem
  | lead, first :: rest, path, value, hMem => by
      have hLater : (path, value) ∈ listInstances (joinPath lead first.name) rest →
          ∃ earlier segment later, first :: rest = earlier ++ segment :: later ∧
            segment.key ≠ [] ∧ segment.value = value ∧
            path = trail lead (earlier ++ [segment]) := by
        intro hRest
        obtain ⟨earlier, segment, later, rfl, hKey, hValue, hPath⟩ := mem_listInstances hRest
        exact ⟨first :: earlier, segment, later, rfl, hKey, hValue, hPath⟩
      rw [listInstances] at hMem
      split at hMem
      · exact hLater hMem
      · next hKey =>
        rcases List.mem_cons.mp hMem with hHere | hRest
        · cases hHere
          exact ⟨[], first, rest, rfl, hKey, rfl, rfl⟩
        · exact hLater hRest

/-- The instance is at the first segment already, or further on. -/
theorem mentions_or_later {last otherLast segment : Segment} {others earlier later : List Segment}
    (hKey : segment.key ≠ []) (hBare : ∀ other ∈ otherLast :: others, other.Bare)
    (hSegments : last :: segments = earlier ++ segment :: later)
    (hNames : (otherLast :: others).map Segment.name = (earlier ++ [segment]).map Segment.name) :
    Mentions (last :: segments) (otherLast :: others) segment.value ∨
      others ≠ [] ∧ otherLast.name = last.name ∧ ∃ earlier,
        segments = earlier ++ segment :: later ∧
        others.map Segment.name = (earlier ++ [segment]).map Segment.name := by
  cases earlier with
  | nil =>
    rw [List.nil_append, List.cons.injEq] at hSegments
    obtain ⟨rfl, rfl⟩ := hSegments
    rw [List.map_cons, List.nil_append, List.map_singleton, List.cons.injEq,
      List.map_eq_nil_iff] at hNames
    obtain ⟨hName, rfl⟩ := hNames
    have hOther : otherLast = ⟨last.name, [], []⟩ :=
      Segment.ext_of_bare (hBare otherLast List.mem_cons_self) ⟨rfl, rfl⟩ hName
    exact Or.inl ⟨[], last.name, last.key, segments, hKey, by rw [hOther]; rfl, rfl⟩
  | cons first earlier =>
    rw [List.cons_append, List.cons.injEq] at hSegments
    obtain ⟨rfl, hSegments⟩ := hSegments
    rw [List.map_cons, List.cons_append, List.map_cons, List.cons.injEq] at hNames
    refine Or.inr ⟨?_, hNames.1, earlier, hSegments, hNames.2⟩
    rintro rfl
    simp at hNames

/-- An instance of a list outside of all entries is mentioned there. -/
def InstancesMentioned (type : GoType) : Prop :=
  ∀ {value : type.Val} {last otherLast segment : Segment}
    {segments others earlier later : List Segment} {keys : List (Option GoString)},
    clearTagsType type = true → segment.key ≠ [] → AddressedType type last segments →
    (∀ other ∈ otherLast :: others, other.Bare) →
    last :: segments = earlier ++ segment :: later →
    (otherLast :: others).map Segment.name = (earlier ++ [segment]).map Segment.name →
    lookupType type value otherLast others = some (.list keys) →
    Mentions (last :: segments) (otherLast :: others) segment.value

theorem mentions_of_lookup
    (ih : ∀ {index type}, typeAt fields index = some type → InstancesMentioned type)
    {values : fields.Vals} {others earlier later : List Segment} {segment : Segment}
    {keys : List (Option GoString)} (hClear : clearTags fields = true) (hKey : segment.key ≠ [])
    (hAddressed : Addressed fields segments) (hBare : ∀ other ∈ others, other.Bare)
    (hSegments : segments = earlier ++ segment :: later)
    (hNames : others.map Segment.name = (earlier ++ [segment]).map Segment.name)
    (hList : lookup fields values others = some (.list keys)) :
    Mentions segments others segment.value := by
  obtain ⟨other, type, value, hOther, hValue, hType⟩ := lookup_eq_some (by simp) hList
  have hAt := typeAt_of_fieldAt_eq_some hValue
  have hLonger : others.map Segment.name <+: segments.map Segment.name := by
    rw [hNames, hSegments]
    exact ⟨later.map Segment.name, by simp⟩
  obtain ⟨found, hTurn, hIndex⟩ := turn_of_names_prefix hClear hOther hLonger
  obtain ⟨hLeadBare, hFieldAddressed⟩ := hAddressed found hTurn
  have hSplit := (turn_eq_some hTurn).1
  have hOtherSplit := (turn_eq_some hOther).1
  rw [hOtherSplit] at hBare
  have hLead : found.lead = other.lead := (lead_eq_of_turn_eq_some hTurn hOther hIndex hLeadBare
    fun bare hMem => hBare bare (List.mem_append_left _ hMem)).1
  obtain ⟨more, hMore⟩ : ∃ more, earlier = found.lead ++ more := by
    have hCount := congrArg List.length hNames
    rw [hOtherSplit, ← hLead] at hCount
    simp at hCount
    refine (List.prefix_of_prefix_length_le ⟨_, hSplit.symm.trans hSegments⟩ ⟨_, rfl⟩
      (by omega)).imp fun more hMore => hMore.symm
  subst hMore
  have hRest : found.last :: found.rest = more ++ segment :: later := by
    rw [hSplit, List.append_assoc] at hSegments
    exact List.append_cancel_left hSegments
  have hRestNames : (other.last :: other.rest).map Segment.name =
      (more ++ [segment]).map Segment.name := by
    rw [hOtherSplit, ← hLead, List.append_assoc, List.map_append, List.map_append] at hNames
    exact List.append_cancel_left hNames
  rw [hSplit, hOtherSplit, hLead]
  rw [hIndex] at hFieldAddressed
  exact Mentions.append_left (ih hAt (clearTagsType_of_typeAt hClear hAt) hKey
    (addressedType_of_field hAt hFieldAddressed)
    (fun bare hMem => hBare bare (List.mem_append_right _ hMem)) hRest hRestNames hType) other.lead

theorem instancesMentioned (type : GoType) : InstancesMentioned type := by
  induction type using typeInduction with
  | scalar kind =>
    intro value last otherLast segment segments others earlier later keys _ _ _ _ _ _ hList
    rw [lookupType] at hList
    split at hList <;> cases hList
  | struct fields ih =>
    intro value last otherLast segment segments others earlier later keys hClear hKey hAddressed
      hBare hSegments hNames hList
    rcases mentions_or_later hKey hBare hSegments hNames with hHere | ⟨_, hName, more, hMore⟩
    · exact hHere
    · rw [List.forall_mem_cons] at hBare
      rw [Segment.ext_of_bare hAddressed.1 hBare.1 hName.symm]
      exact Mentions.append_left (mentions_of_lookup ih hClear hKey hAddressed.2 hBare.2 hMore.1
        hMore.2 hList) [otherLast]
  | pointer fields ih =>
    intro value last otherLast segment segments others earlier later keys hClear hKey hAddressed
      hBare hSegments hNames hList
    cases value with
    | none => cases hList
    | some value => exact ih hClear hKey hAddressed hBare hSegments hNames hList
  | slice fields _ ih =>
    intro elements last otherLast segment segments others earlier later keys hClear hKey hAddressed
      hBare hSegments hNames hList
    rw [lookupType, if_pos (hBare otherLast List.mem_cons_self).1] at hList
    rcases mentions_or_later hKey hBare hSegments hNames with hHere | ⟨hOthers, _⟩
    · exact hHere
    · rw [if_neg hOthers] at hList
      cases hList

/-! ## The rebuild -/

theorem not_mem_trail {byte : UInt8} (hByte : byte ≠ 47)
    (hNames : ∀ segment ∈ segments, byte ∉ segment.name) {path : GoString} (hPath : byte ∉ path) :
    byte ∉ trail path segments := by
  induction segments generalizing path with
  | nil => exact hPath
  | cons segment rest ih =>
    rw [List.forall_mem_cons] at hNames
    refine ih hNames.2 ?_
    rw [joinPath]
    split
    · exact hNames.1
    · simp [hPath, hByte, hNames.1]

/-- Plain names can be read off a trail. -/
theorem names_eq_of_trail_eq {first second : List Segment} (hFirst : first ≠ [])
    (hSecond : second ≠ [])
    (hFirstNames : ∀ segment ∈ first, segment.name ≠ [] ∧ 47 ∉ segment.name)
    (hSecondNames : ∀ segment ∈ second, segment.name ≠ [] ∧ 47 ∉ segment.name)
    (hTrail : trail [] first = trail [] second) :
    first.map Segment.name = second.map Segment.name := by
  have hSplit : ∀ segments : List Segment, segments ≠ [] →
      (∀ segment ∈ segments, segment.name ≠ [] ∧ 47 ∉ segment.name) →
      split (trail [] segments) 47 = segments.map Segment.name := by
    intro segments hNonempty hNames
    have hParts : ∀ name ∈ segments.map Segment.name, name ≠ [] ∧ 47 ∉ name := by
      simpa using hNames
    rw [trail, foldl_joinPath (by simpa using hNonempty) fun name hName => (hParts name hName).1,
      joinPath, if_pos rfl]
    exact List.splitOn_intercalate 47 (fun name hName => (hParts name hName).2)
      (by simpa using hNonempty)
  rw [← hSplit first hFirst hFirstNames, ← hSplit second hSecond hSecondNames, hTrail]

/-- An entry as the rebuild expects it. -/
structure Entry.Proper (fields : Fields) (entry : Entry) : Prop where
  parsed : parse entry.path = .ok entry.segments
  addressed : Addressed fields entry.segments
  keys : KeysMatch fields entry.segments entry.leaf

theorem Entry.Proper.placed {fields : Fields} {entry : Entry} (hProper : entry.Proper fields) :
    entry.Placed fields :=
  ⟨hProper.addressed, hProper.keys⟩

/-- The pruned template holds no entry that the map does not mention. -/
theorem mentions_of_lookup_prunedTemplate {template : fields.Vals} {entries : List Entry}
    {list : List Segment} {keys : List (Option GoString)} (hClear : clearTags fields = true)
    (hUnique : uniqueKeys fields template = true) (hEntries : entries ≠ [])
    (hProper : ∀ entry ∈ entries, entry.Proper fields) (hAddressed : Addressed fields list)
    (hLookup : lookup fields (prunedTemplate fields template entries) list = some (.list keys)) :
    keys.Nodup ∧ ∀ key ∈ keys, ∃ value, key = some value ∧
      ∃ entry ∈ entries, Mentions entry.segments list value := by
  rw [prunedTemplate, if_neg (by simpa using hEntries)] at hLookup
  have hInstance : ∀ {path value : GoString},
      (path, value) ∈ entries.flatMap (fun entry => listInstances [] entry.segments) →
      ∃ entry ∈ entries, ∃ earlier segment later,
        entry.segments = earlier ++ segment :: later ∧ segment.key ≠ [] ∧
        segment.value = value ∧ path = trail [] (earlier ++ [segment]) := by
    intro path value hMem
    obtain ⟨entry, hEntry, hFound⟩ := List.mem_flatMap.mp hMem
    exact ⟨entry, hEntry, mem_listInstances hFound⟩
  have hNames : ∀ entry ∈ entries, ∀ {earlier later : List Segment} {segment : Segment},
      entry.segments = earlier ++ segment :: later → ∀ other ∈ earlier ++ [segment],
      other.name ≠ [] ∧ 47 ∉ other.name ∧ 91 ∉ other.name := by
    intro entry hEntry earlier later segment hSegments other hOther
    refine name_of_parse_eq_ok (hProper entry hEntry).parsed ?_
    rw [hSegments, List.append_cons]
    exact List.mem_append_left _ hOther
  have hPlain : ∀ found ∈ entries.flatMap (fun entry => listInstances [] entry.segments),
      91 ∉ found.1 := by
    rintro ⟨path, value⟩ hMem
    obtain ⟨entry, hEntry, earlier, segment, later, hSegments, _, _, rfl⟩ := hInstance hMem
    exact not_mem_trail (by decide) (fun other hOther =>
      (hNames entry hEntry hSegments other hOther).2.2) (by simp)
  obtain ⟨⟨hNodup, hKeys⟩, hBare⟩ := pruned_of_lookup (fun _ => listsPruned hPlain _) hClear
    hUnique hAddressed hLookup
  refine ⟨hNodup, ?_⟩
  intro key hKey
  obtain ⟨value, rfl, hMem⟩ := hKeys key hKey
  obtain ⟨entry, hEntry, earlier, segment, later, hSegments, hSegmentKey, rfl, hTrail⟩ :=
    hInstance hMem
  have hPlainList := hBare.resolve_left (List.ne_nil_of_mem hKey)
  have hList : list ≠ [] := by
    rintro rfl
    cases hLookup
  have hSame := names_eq_of_trail_eq hList (by simp)
    (fun other hOther => (hPlainList other hOther).2)
    (fun other hOther => ⟨(hNames entry hEntry hSegments other hOther).1,
      (hNames entry hEntry hSegments other hOther).2.1⟩) hTrail
  exact ⟨segment.value, rfl, entry, hEntry, mentions_of_lookup (fun _ => instancesMentioned _)
    hClear hSegmentKey (hProper entry hEntry).addressed
    (fun other hOther => (hPlainList other hOther).1) hSegments hSame hLookup⟩

/-- The entries of a map: one for each leaf, with the parsed path. -/
theorem parseEntries_eq_ok {entries : List Entry} (hEntries : parseEntries values = .ok entries) :
    (entries.map Entry.path).Nodup ∧
      (∀ entry ∈ entries, parse entry.path = .ok entry.segments ∧
        values[entry.path]? = some entry.leaf) ∧
      ∀ (path : GoString) leaf, values[path]? = some leaf →
        ∃ entry ∈ entries, entry.path = path ∧ entry.leaf = leaf := by
  have hAll : List.Forall₂ (fun (stored : GoString × Leaf) (entry : Entry) =>
      entry.path = stored.1 ∧ entry.leaf = stored.2 ∧ parse entry.path = .ok entry.segments)
      values.toList entries := by
    refine (mapM_eq_ok_iff.mp hEntries).imp ?_
    intro stored entry hEntry
    obtain ⟨segments, hParse, rfl⟩ := map_eq_ok_iff.mp hEntry
    exact ⟨rfl, rfl, atPath_eq_ok_iff.mp hParse⟩
  have hPaths : entries.map Entry.path = values.toList.map Prod.fst := by
    clear hEntries
    generalize values.toList = stored at hAll
    induction hAll with
    | nil => rfl
    | cons hHead _ ih => rw [List.map_cons, List.map_cons, hHead.1, ih]
  refine ⟨?_, ?_, ?_⟩
  · rw [hPaths, Std.ExtTreeMap.map_fst_toList_eq_keys]
    exact values.nodup_keys
  · intro entry hEntry
    obtain ⟨⟨path, leaf⟩, hStored, hPath, hLeaf, hParse⟩ := exists_of_mem_right hAll hEntry
    rw [Std.ExtTreeMap.mem_toList_iff_getElem?_eq_some] at hStored
    exact ⟨hParse, by rw [hPath, hLeaf]; exact hStored⟩
  · intro path leaf hStored
    rw [← Std.ExtTreeMap.mem_toList_iff_getElem?_eq_some] at hStored
    obtain ⟨entry, hEntry, hPath, hLeaf, _⟩ := exists_of_mem_right hAll.flip hStored
    exact ⟨entry, hEntry, hPath, hLeaf⟩

/-- The entries of a properly keyed map, and the assignments of its rebuild. -/
theorem assignAll_of_hydrate_eq_ok {template result : fields.Vals} (hNonempty : values ≠ ∅)
    (hStored : ∀ (path : GoString) leaf segments, values[path]? = some leaf →
      parse path = .ok segments → Addressed fields segments ∧ KeysMatch fields segments leaf)
    (hHydrate : hydrate fields template values = .ok result) :
    ∃ entries, entries ≠ [] ∧ (∀ entry ∈ entries, entry.Proper fields) ∧
      (∀ entry ∈ entries, values[entry.path]? = some entry.leaf) ∧
      (∀ (path : GoString) leaf, values[path]? = some leaf →
        ∃ entry ∈ entries, entry.path = path ∧ entry.leaf = leaf) ∧
      assignAll fields (prunedTemplate fields template entries) entries = .ok result := by
  obtain ⟨entries, hEntries, hAssign⟩ := bind_eq_ok_iff.mp hHydrate
  obtain ⟨_, hParsed, hComplete⟩ := parseEntries_eq_ok hEntries
  refine ⟨entries, ?_, fun entry hEntry => ?_, fun entry hEntry => (hParsed entry hEntry).2,
    hComplete, hAssign⟩
  · rintro rfl
    refine hNonempty (Std.ExtTreeMap.ext_getElem? fun path => ?_)
    cases hValue : values[path]? with
    | none => simp
    | some leaf =>
      obtain ⟨entry, hEntry, _⟩ := hComplete path leaf hValue
      cases hEntry
  · obtain ⟨hParse, hLeaf⟩ := hParsed entry hEntry
    obtain ⟨hAddressed, hKeys⟩ := hStored _ _ _ hLeaf hParse
    exact ⟨hParse, hAddressed, hKeys⟩

theorem clearTags_device : clearTags Model.Device.fields = true := by
  decide +kernel

theorem uniqueKeys_defaultDevice :
    uniqueKeys Model.Device.fields Model.defaultDevice.toVals = true := by
  decide +kernel

/-- The leaf at a path is stored in its own type. -/
theorem ofVal_of_coerce_eq_ok_of_kind_eq {kind : LeafKind} {leaf : Leaf} {value : kind.Val}
    (hKind : leaf.kind = kind) (hCoerce : coerce kind (.leaf leaf) = .ok value) :
    Leaf.ofVal kind value = leaf := by
  subst hKind
  obtain ⟨found, hFound⟩ := leaf.exists_ofVal_eq
  have hSame := coerce_ofVal leaf.kind found
  rw [hFound, hCoerce, Except.ok.injEq] at hSame
  rw [hSame, hFound]

/-- Every leaf of a map reads back in the type of the leaf at its path, and as it is
stored if it is stored in that type. -/
def ReadsBack (values : Values) (device : Model.Device) : Prop :=
  ∀ (path : GoString) leaf, values[path]? = some leaf → ∃ segments kind readOnly found,
    parse path = .ok segments ∧
    leafAt Model.Device.fields (segments.map Segment.name) = some (kind, readOnly) ∧
    coerce kind (.leaf leaf) = .ok found ∧
    lookup Model.Device.fields device.toVals segments = some (.leaf (Leaf.ofVal kind found)) ∧
    (leaf.kind = kind → Leaf.ofVal kind found = leaf)

/-- Every list of a device has exactly one entry for each predicate that a path of the map
has there, and no other entry. -/
def HasMentionedEntries (values : Values) (device : Model.Device) : Prop :=
  ∀ list keys, Addressed Model.Device.fields list →
    lookup Model.Device.fields device.toVals list = some (.list keys) →
    keys.Nodup ∧ ∀ key, key ∈ keys ↔ ∃ value, key = some value ∧
      ∃ (path : GoString) (segments : List Segment), path ∈ values ∧ parse path = .ok segments ∧
        Mentions segments list value

/-- The paths of a map name every node once, and its keys are those of their predicates. -/
def ProperlyKeyed (values : Values) : Prop :=
  ∀ (path : GoString) leaf segments, values[path]? = some leaf → parse path = .ok segments →
    Addressed Model.Device.fields segments ∧ KeysMatch Model.Device.fields segments leaf

section Rebuilt

variable {template device : Model.Device}

/-- The lists of the device that is rebuilt from a properly keyed map have the entries that the
map mentions. -/
theorem hasMentionedEntries_of_deviceFromValues
    (hUnique : uniqueKeys Model.Device.fields template.toVals = true) (hNonempty : values ≠ ∅)
    (hStored : ProperlyKeyed values)
    (hDevice : deviceFromValues template values = .ok device) :
    HasMentionedEntries values device := by
  obtain ⟨vals, hHydrate, rfl⟩ := map_eq_ok_iff.mp hDevice
  obtain ⟨entries, hSome, hProper, hLeaves, hComplete, hAssign⟩ :=
    assignAll_of_hydrate_eq_ok hNonempty hStored hHydrate
  have hPlaced := fun entry hEntry => (hProper entry hEntry).placed
  rw [HasMentionedEntries, Model.Device.toVals_ofVals]
  intro list keys hList hLookup
  obtain ⟨old, hOld, hNodup, hKeys⟩ := growsTo_of_assignAll_eq_ok (fun _ => listsGrow _)
    clearTags_device hPlaced hList hAssign hLookup
  have hPruned : old.Nodup ∧ ∀ key ∈ old, ∃ value, key = some value ∧
      ∃ entry ∈ entries, Mentions entry.segments list value := by
    rcases hOld with hThere | rfl
    · exact mentions_of_lookup_prunedTemplate clearTags_device hUnique hSome hProper hList hThere
    · exact ⟨List.nodup_nil, by simp⟩
  refine ⟨hNodup hPruned.1, fun key => (hKeys key).trans ⟨?_, ?_⟩⟩
  · intro hKey
    obtain ⟨value, rfl, entry, hEntry, hMentions⟩ := hKey.elim (hPruned.2 key) id
    refine ⟨value, rfl, entry.path, entry.segments, ?_, (hProper entry hEntry).parsed, hMentions⟩
    rw [FinMap.mem_iff_isSome, hLeaves entry hEntry]
    rfl
  · rintro ⟨value, rfl, path, segments, hPath, hParse, hMentions⟩
    rw [FinMap.mem_iff_isSome, Option.isSome_iff_exists] at hPath
    obtain ⟨leaf, hLeaf⟩ := hPath
    obtain ⟨entry, hEntry, rfl, rfl⟩ := hComplete path leaf hLeaf
    rw [(hProper entry hEntry).parsed, Except.ok.injEq] at hParse
    subst hParse
    exact Or.inr ⟨value, rfl, entry, hEntry, hMentions⟩

end Rebuilt

/-- A properly keyed map can be read back from the device that is rebuilt from it. -/
theorem rebuilt_device_reads_back (template device : Model.Device) (values : Values)
    (hUnique : uniqueKeys Model.Device.fields template.toVals = true) (hNonempty : values ≠ ∅)
    (hStored : ProperlyKeyed values)
    (hDevice : deviceFromValues template values = .ok device) :
    ReadsBack values device ∧ HasMentionedEntries values device := by
  refine ⟨?_, hasMentionedEntries_of_deviceFromValues hUnique hNonempty hStored hDevice⟩
  obtain ⟨vals, hHydrate, rfl⟩ := map_eq_ok_iff.mp hDevice
  obtain ⟨entries, _, hProper, hLeaves, hComplete, hAssign⟩ :=
    assignAll_of_hydrate_eq_ok hNonempty hStored hHydrate
  have hPlaced := fun entry hEntry => (hProper entry hEntry).placed
  rw [ReadsBack, Model.Device.toVals_ofVals]
  intro path leaf hLeaf
  obtain ⟨entry, hEntry, rfl, rfl⟩ := hComplete path leaf hLeaf
  have hOnly : ∀ other ∈ entries, other.segments = entry.segments → other.leaf = entry.leaf := by
    intro other hOther hSame
    have hPath : other.path = entry.path :=
      parse_injective (hProper other hOther).parsed (hSame ▸ (hProper entry hEntry).parsed)
    have hLeaf := hLeaves other hOther
    rw [hPath, hLeaves entry hEntry, Option.some.injEq] at hLeaf
    exact hLeaf.symm
  obtain ⟨kind, found, hCoerce, hLookup⟩ := lookup_of_assignAll_eq_ok (fun _ => readsItems _)
    hPlaced hOnly hEntry hAssign
  obtain ⟨readOnly, hResolve⟩ := resolve_of_lookup_eq_some hLookup
  rw [Found.shape, Leaf.kind_ofVal] at hResolve
  exact ⟨entry.segments, kind, readOnly, found, (hProper entry hEntry).parsed,
    leafAt_of_resolve_eq_ok hResolve, hCoerce, hLookup,
    fun hKind => ofVal_of_coerce_eq_ok_of_kind_eq hKind hCoerce⟩

/-- `ProperlyKeyed` as a check. -/
def isProperlyKeyed (values : Values) : Bool :=
  values.toList.all fun stored => (parse stored.1).toOption.all fun segments =>
    decide (Addressed Model.Device.fields segments) &&
      decide (KeysMatch Model.Device.fields segments stored.2)

theorem properlyKeyed_of_isProperlyKeyed (hCheck : isProperlyKeyed values = true) :
    ProperlyKeyed values := by
  intro path leaf segments hLeaf hParse
  rw [← Std.ExtTreeMap.mem_toList_iff_getElem?_eq_some] at hLeaf
  have hStored := List.all_eq_true.mp hCheck _ hLeaf
  dsimp only at hStored
  rw [hParse] at hStored
  simpa [Except.toOption] using hStored

/-- A VLAN with a port in it, and the size of the MAC table. -/
def taggedPort : Values :=
  Std.ExtTreeMap.ofList
    [(text "mac-table/current-count", Leaf.uint32 0),
      (text "vlans/vlan[id=10]/id", .uint16 10),
      (text "vlans/vlan[id=10]/ports/port[port=eth0]/port", .string "eth0")]

theorem rebuilt_tagged_port_reads_back :
    ∃ device, deviceFromValues Model.defaultDevice taggedPort = .ok device ∧
      ReadsBack taggedPort device ∧ HasMentionedEntries taggedPort device := by
  obtain ⟨device, hDevice⟩ := exists_eq_ok_of_isOk
    (show (deviceFromValues Model.defaultDevice taggedPort).isOk = true by decide +kernel)
  have hNonempty : taggedPort ≠ ∅ := by
    intro hEmpty
    have hSize : taggedPort.isEmpty = false := by decide +kernel
    rw [hEmpty] at hSize
    cases hSize
  exact ⟨device, hDevice, rebuilt_device_reads_back _ _ _ uniqueKeys_defaultDevice hNonempty
    (properlyKeyed_of_isProperlyKeyed (by decide +kernel)) hDevice⟩

/-- An integer that is stored at a float leaf and has no float of its value. -/
def storedInteger : Values :=
  Std.ExtTreeMap.ofList [(text "ptp/clock/offset", Leaf.int 9007199254740993)]

/-- The path of the leaf. -/
def offsetSegments : List Segment :=
  [⟨"ptp", [], []⟩, ⟨"clock", [], []⟩, ⟨"offset", [], []⟩]

/-- The leaf holds the float next to the integer. -/
def holdsRounded (device : Model.Device) : Bool :=
  match lookup Model.Device.fields device.toVals offsetSegments with
  | some (.leaf (.float64 found)) => found.toInt? = some 9007199254740992
  | _ => false

theorem rebuilt_device_rounds_stored_integer :
    ProperlyKeyed storedInteger ∧
      parse "ptp/clock/offset" = .ok offsetSegments ∧
      ∃ device, deviceFromValues Model.defaultDevice storedInteger = .ok device ∧
        ∃ found : Float64, lookup Model.Device.fields device.toVals offsetSegments =
          some (.leaf (.float64 found)) ∧ found.toInt? = some 9007199254740992 := by
  refine ⟨properlyKeyed_of_isProperlyKeyed (by decide +kernel), by decide +kernel, ?_⟩
  have hRounded :
      (deviceFromValues Model.defaultDevice storedInteger).toOption.any holdsRounded = true := by
    decide +kernel
  obtain ⟨device, hDevice, hFound⟩ := (Option.any_eq_true _ _).mp hRounded
  cases hResult : deviceFromValues Model.defaultDevice storedInteger with
  | error err =>
    rw [hResult] at hDevice
    cases hDevice
  | ok rebuilt =>
    rw [hResult] at hDevice
    cases hDevice
    refine ⟨device, rfl, ?_⟩
    unfold holdsRounded at hFound
    split at hFound
    · next found hLookup => exact ⟨found, hLookup, of_decide_eq_true hFound⟩
    · cases hFound

end Router
end TriadSim

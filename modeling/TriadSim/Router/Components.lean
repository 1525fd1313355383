import TriadSim.Router.Rebuild

/-!
# The rebuild, field by field

The leaves below one field of the device do not touch the others: what the rebuild makes of a
field depends on the leaves that lead into that field only.  The main result is
`fieldAt_of_hydrate_eq_ok`.
-/

namespace TriadSim
namespace Router

open Go Library Store

/-! ## Pruning -/

/-- Two lists of instances that agree below a path prune it alike. -/
def SameBelow (path : GoString) (instances others : List (GoString × GoString)) : Prop :=
  ∀ list key, path <+: list → ((list, key) ∈ instances ↔ (list, key) ∈ others)

variable {path : GoString} {others : Values} {name : GoString} {fields : Fields} {tag : Tag}
    {names : List GoString} {values : Values} {entries : List Entry}

theorem SameBelow.of_isPrefix {lower : GoString} {instances others : List (GoString × GoString)}
    (hSame : SameBelow path instances others) (hLower : path <+: lower) :
    SameBelow lower instances others :=
  fun list key hList => hSame list key (hLower.trans hList)

theorem isPrefix_joinPath (path tag : GoString) : path <+: joinPath path tag := by
  unfold joinPath
  split
  · next hNone => exact hNone ▸ List.nil_prefix
  · exact List.prefix_append _ _

theorem isPrefix_elementPath (fields : Fields) (path : GoString) (element : fields.Vals) :
    path <+: elementPath fields path element := by
  unfold elementPath
  split
  · exact ⟨_, by simp only [List.append_assoc]; rfl⟩
  · exact List.prefix_rfl

section Prune

variable {instances others : List (GoString × GoString)}

theorem pruneList_congr {fields : Fields} {path : GoString}
    (hSame : SameBelow path instances others) (elements : List fields.Vals) :
    pruneList fields instances path elements = pruneList fields others path elements := by
  unfold pruneList
  split
  · rfl
  · refine List.filter_congr fun element _ => ?_
    cases fields.keyText element with
    | none => rfl
    | some key => exact decide_eq_decide.mpr (hSame path key List.prefix_rfl)

mutual

theorem pruneType_congr : ∀ {type : GoType} {path : GoString},
    SameBelow path instances others → ∀ value,
      pruneType instances type path value = pruneType others type path value
  | .scalar _, _, _, _ => rfl
  | .struct fields, _, hSame, value => pruneFields_congr hSame value
  | .pointer fields, _, hSame, none => rfl
  | .pointer fields, _, hSame, some value =>
    congrArg some (pruneFields_congr hSame value)
  | .slice fields, path, hSame, elements => by
      rw [pruneType, pruneType, pruneList_congr hSame]
      refine List.map_congr_left fun element _ => ?_
      exact pruneFields_congr (hSame.of_isPrefix (isPrefix_elementPath fields path element)) element

theorem pruneFields_congr : ∀ {fields : Fields} {path : GoString},
    SameBelow path instances others → ∀ values,
      pruneFields instances fields path values = pruneFields others fields path values
  | .nil, _, _, _ => rfl
  | .cons tag type rest, path, hSame, (value, values) => by
      rw [pruneFields, pruneFields, pruneFields_congr hSame values,
        pruneType_congr (hSame.of_isPrefix (isPrefix_joinPath path _)) value]

end

end Prune

/-! ## The rebuild of a field -/

/-- A joined path starts with its first part, which ends there or at a slash. -/
theorem join_cons (part : GoString) (parts : List GoString) :
    ∃ tail, join (part :: parts) 47 = part ++ tail ∧ (tail = [] ∨ tail.head? = some 47) := by
  cases parts with
  | nil => exact ⟨[], by simp [join, List.intercalate], Or.inl rfl⟩
  | cons next more =>
    have hBoth := join_append 47 (List.cons_ne_nil part []) (List.cons_ne_nil next more)
    rw [List.singleton_append] at hBoth
    exact ⟨47 :: join (next :: more) 47, by rw [hBoth]; simp [join, List.intercalate],
      Or.inr rfl⟩

/-- A plain name that leads a joined path leads the first part. -/
theorem isPrefix_of_isPrefix_join {part : GoString} {parts : List GoString} (hName : 47 ∉ name)
    (hLead : name <+: join (part :: parts) 47) : name <+: part := by
  obtain ⟨tail, hJoin, hTail⟩ := join_cons part parts
  rw [hJoin] at hLead
  rcases List.prefix_or_prefix_of_prefix hLead (List.prefix_append part tail) with
    hShort | ⟨more, rfl⟩
  · exact hShort
  · rw [List.prefix_append_right_inj] at hLead
    cases more with
    | nil => rw [List.append_nil]
    | cons byte more =>
      rcases hTail with rfl | hSlash
      · exact absurd hLead (by simp)
      · obtain ⟨rest, rfl⟩ := hLead
        cases hSlash
        exact absurd (List.mem_append_right part List.mem_cons_self) hName

/-- A path starts with its first name. -/
theorem name_isPrefix_of_parse_eq_ok {first : Segment} {rest : List Segment}
    (hParse : parse path = .ok (first :: rest)) : first.name <+: path := by
  have hPath := pathText_of_parse_eq_ok hParse
  obtain ⟨tail, hJoin, _⟩ := join_cons first.text (rest.map Segment.text)
  rw [pathText, List.map_cons, hJoin] at hPath
  rw [← hPath]
  refine List.IsPrefix.trans ?_ (List.prefix_append _ tail)
  unfold Segment.text
  split
  · exact List.prefix_rfl
  · simp only [List.append_assoc]
    exact List.prefix_append _ _

/-- An entry whose instances are below a field has a path that starts like it. -/
theorem isPrefix_path_of_mem_listInstances {list key : GoString} {segments : List Segment}
    (hParse : parse path = .ok segments) (hName : 47 ∉ name)
    (hInstance : (list, key) ∈ listInstances [] segments) (hLead : name <+: list) :
    name <+: path := by
  obtain ⟨earlier, segment, later, hSegments, _, _, hList⟩ := mem_listInstances hInstance
  have hParts : ∀ part ∈ (earlier ++ [segment]).map Segment.name, part ≠ [] := by
    intro part hPart
    obtain ⟨other, hOther, rfl⟩ := List.mem_map.mp hPart
    refine (name_of_parse_eq_ok hParse ?_).1
    rw [hSegments, List.append_cons]
    exact List.mem_append_left _ hOther
  rw [trail, foldl_joinPath (by simp) hParts, joinPath, if_pos rfl] at hList
  obtain ⟨first, rest, hFirst⟩ := List.exists_cons_of_ne_nil
    (show earlier ++ [segment] ≠ [] by simp)
  rw [hFirst, List.map_cons] at hList
  have hNamed : name <+: first.name := isPrefix_of_isPrefix_join hName (hList ▸ hLead)
  rw [hSegments, List.append_cons, hFirst, List.cons_append] at hParse
  exact hNamed.trans (name_isPrefix_of_parse_eq_ok hParse)

/-- An entry that leads into a field has a path that starts like its tag. -/
theorem isPrefix_path_of_turn {segments : List Segment} {found : Turn}
    (hTag : tagAt fields found.index = some tag) (hNames : tag.path = name :: names)
    (hParse : parse path = .ok segments) (hTurn : turn fields segments = some found) :
    name <+: path := by
  obtain ⟨hSegments, other, hOther, hLead⟩ := turn_eq_some hTurn
  rw [hTag] at hOther
  cases hOther
  obtain ⟨first, rest, hFirst⟩ := List.exists_cons_of_ne_nil
    (show found.lead ++ [found.last] ≠ [] by simp)
  rw [hNames, hFirst, List.map_cons, List.cons.injEq] at hLead
  rw [hSegments, List.append_cons, hFirst, List.cons_append] at hParse
  rw [← hLead.1]
  exact name_isPrefix_of_parse_eq_ok hParse

/-- The entry of a stored leaf. -/
def entryOfLeaf (stored : GoString × Leaf) : Entry :=
  ⟨stored.1, (parse stored.1).toOption.getD [], stored.2⟩

theorem eq_map_of_parseEntries_eq_ok (hEntries : parseEntries values = .ok entries) :
    entries = values.toList.map entryOfLeaf := by
  have hAll := mapM_eq_ok_iff.mp hEntries
  clear hEntries
  generalize values.toList = stored at hAll
  induction hAll with
  | nil => rfl
  | cons hHead _ ih =>
    obtain ⟨segments, hParse, rfl⟩ := map_eq_ok_iff.mp hHead
    rw [List.map_cons, ih, entryOfLeaf, atPath_eq_ok_iff.mp hParse]
    rfl

theorem mem_map_entryOfLeaf
    (hSame : ∀ path : GoString, name <+: path → values[path]? = others[path]?) {entry : Entry}
    (hEntry : entry ∈ values.toList.map entryOfLeaf) (hLead : name <+: entry.path) :
    entry ∈ others.toList.map entryOfLeaf := by
  obtain ⟨⟨path, leaf⟩, hStored, rfl⟩ := List.mem_map.mp hEntry
  refine List.mem_map.mpr ⟨(path, leaf), ?_, rfl⟩
  rw [Std.ExtTreeMap.mem_toList_iff_getElem?_eq_some] at hStored ⊢
  rw [← hSame path hLead]
  exact hStored

/-- The instances below a field come from leaves that start like its tag. -/
theorem mem_instances_of_same {rest : List Entry} {list key : GoString} (hName : 47 ∉ name)
    (hSame : ∀ path : GoString, name <+: path → values[path]? = others[path]?)
    (hEntries : parseEntries values = .ok entries) (hRest : parseEntries others = .ok rest)
    (hLead : name <+: list)
    (hMem : (list, key) ∈ entries.flatMap fun entry => listInstances [] entry.segments) :
    (list, key) ∈ rest.flatMap fun entry => listInstances [] entry.segments := by
  obtain ⟨entry, hEntry, hInstance⟩ := List.mem_flatMap.mp hMem
  have hParse := ((parseEntries_eq_ok hEntries).2.1 entry hEntry).1
  refine List.mem_flatMap.mpr ⟨entry, ?_, hInstance⟩
  rw [eq_map_of_parseEntries_eq_ok hRest]
  rw [eq_map_of_parseEntries_eq_ok hEntries] at hEntry
  exact mem_map_entryOfLeaf hSame hEntry
    (isPrefix_path_of_mem_listInstances hParse hName hInstance hLead)

/-- So do the entries that lead into it. -/
theorem filterMap_into_of_same {index : Nat} {rest : List Entry}
    (hTag : tagAt fields index = some tag) (hNames : tag.path = name :: names)
    (hSame : ∀ path : GoString, name <+: path → values[path]? = others[path]?)
    (hEntries : parseEntries values = .ok entries) (hRest : parseEntries others = .ok rest) :
    entries.filterMap (Entry.into fields index) = rest.filterMap (Entry.into fields index) := by
  have hLeaves : (values.filter fun path leaf =>
        ((entryOfLeaf (path, leaf)).into fields index).isSome) =
      others.filter fun path leaf => ((entryOfLeaf (path, leaf)).into fields index).isSome := by
    refine Std.ExtTreeMap.ext_getElem? fun path => ?_
    rw [Std.ExtTreeMap.getElem?_filter', Std.ExtTreeMap.getElem?_filter']
    cases hParse : parse path with
    | error err => simp [entryOfLeaf, hParse, Entry.into, turn, Except.toOption]
    | ok segments =>
      cases hTurn : turn fields segments with
      | none => simp [entryOfLeaf, hParse, Entry.into, hTurn, Except.toOption]
      | some found =>
        by_cases hIndex : found.index = index
        · rw [hSame path (isPrefix_path_of_turn (hIndex ▸ hTag) hNames hParse hTurn)]
        · simp [entryOfLeaf, hParse, Entry.into, hTurn, hIndex, Except.toOption]
  have hLists := congrArg (fun map => map.toList.filterMap (Entry.into fields index ∘ entryOfLeaf))
    hLeaves
  simp only [Std.ExtTreeMap.toList_filter, List.filterMap_filter] at hLists
  rw [eq_map_of_parseEntries_eq_ok hEntries, eq_map_of_parseEntries_eq_ok hRest,
    List.filterMap_map, List.filterMap_map]
  have hInto : (fun stored : GoString × Leaf =>
      if ((entryOfLeaf stored).into fields index).isSome = true then
        (Entry.into fields index ∘ entryOfLeaf) stored else none) =
      Entry.into fields index ∘ entryOfLeaf := by
    funext stored
    cases hStored : (entryOfLeaf stored).into fields index with
    | none | some item => simp [hStored]
  rwa [hInto] at hLists

/-- The rebuild of one field sees the leaves that start like its tag, and no others. -/
theorem fieldAt_of_hydrate_eq_ok {index : Nat} {template first second : fields.Vals}
    (hTag : tagAt fields index = some tag) (hNames : tag.path = name :: names) (hName : 47 ∉ name)
    (hFirst : hydrate fields template values = .ok first)
    (hSecond : hydrate fields template others = .ok second) (hValues : values.isEmpty = false)
    (hOthers : others.isEmpty = false)
    (hSame : ∀ path : GoString, name <+: path → values[path]? = others[path]?) :
    fieldAt fields index first = fieldAt fields index second := by
  obtain ⟨entries, hEntries, hAssign⟩ := bind_eq_ok_iff.mp hFirst
  obtain ⟨rest, hRest, hAssignRest⟩ := bind_eq_ok_iff.mp hSecond
  have hLead : name <+: join tag.path 47 := by
    obtain ⟨tail, hJoin, _⟩ := join_cons name names
    rw [hNames, hJoin]
    exact List.prefix_append _ _
  have hSome : ∀ {content : Values} {parsed : List Entry}, content.isEmpty = false →
      parseEntries content = .ok parsed → parsed.isEmpty = false := by
    intro content parsed hContent hParsed
    rw [eq_map_of_parseEntries_eq_ok hParsed, List.isEmpty_map, Std.ExtTreeMap.isEmpty_toList]
    exact hContent
  have hSameBelow : SameBelow (join tag.path 47)
      (entries.flatMap fun entry => listInstances [] entry.segments)
      (rest.flatMap fun entry => listInstances [] entry.segments) :=
    fun list key hList => ⟨mem_instances_of_same hName hSame hEntries hRest (hLead.trans hList),
      mem_instances_of_same hName (fun path hPath => (hSame path hPath).symm) hRest hEntries
        (hLead.trans hList)⟩
  obtain ⟨type, hType⟩ := exists_typeAt_eq_some hTag
  obtain ⟨value, hValue⟩ := exists_fieldAt_eq_some hType template
  -- Both rebuilds begin with the same field and assign the same items to it.
  have hStart : ∀ {parsed : List Entry}, parsed.isEmpty = false →
      fieldAt fields index (prunedTemplate fields template parsed) = some ⟨type, pruneType
        (parsed.flatMap fun entry => listInstances [] entry.segments) type (join tag.path 47)
          value⟩ := by
    intro parsed hParsed
    rw [prunedTemplate, hParsed]
    exact fieldAt_pruneFields hTag hValue []
  obtain ⟨new, hNew, hItems⟩ :=
    fieldAt_of_assignAll_eq_ok entries (hStart (hSome hValues hEntries)) hAssign
  obtain ⟨other, hOther, hOtherItems⟩ :=
    fieldAt_of_assignAll_eq_ok rest (hStart (hSome hOthers hRest)) hAssignRest
  rw [pruneType_congr hSameBelow, filterMap_into_of_same hTag hNames hSame hEntries hRest,
    hOtherItems, Except.ok.injEq] at hItems
  rw [hNew, hOther, hItems]

end Router
end TriadSim

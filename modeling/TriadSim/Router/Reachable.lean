import TriadSim.Router.Rebuild

/-!
# Paths that a rebuild accepts

Three walks read a path: the rebuild of a device assigns a leaf and creates on its way the list
entries and the subtrees that are missing, `resolve` follows the values of the boot template, and
the schema has the names and the keys.  A path that the rebuild accepts has the shape of a leaf of
the types, and `resolve` follows it as far as the template has what the rebuild would create.  The
main results are `fits_of_assignType_eq_ok` and `resolveType_iff_of_assignType_eq_ok`.
-/

namespace TriadSim
namespace Router

open Go Library

/-! ## What the template holds -/

/-- One turn of a walk inside a struct: nothing is missing at its end or off the schema. -/
def presentStruct (fields : Fields) (segments : List Segment)
    (descend : Nat → Tag → Segment → List Segment → Bool) : Bool :=
  match segments with
  | [] => true
  | first :: _ =>
    match matchField fields segments with
    | none => true
    | some (index, tag) =>
      descend index tag (segments.getD (tag.path.length - 1) first)
        (segments.drop tag.path.length)

mutual

/-- From a field that `last` has matched, the subtrees on the way are there, and so is every
list entry unless its list is creatable. -/
def presentType : (type : GoType) → type.Val → Bool → Segment → List Segment → Bool
  | .scalar _, _, _, _, _ => true
  | .struct fields, value, _, _, segments =>
    presentStruct fields segments fun index tag last rest =>
      presentField fields value index tag last rest
  | .pointer _, none, _, _, _ => false
  | .pointer fields, some value, _, _, segments =>
    presentStruct fields segments fun index tag last rest =>
      presentField fields value index tag last rest
  | .slice fields, elements, creatable, last, segments =>
    match entryOf fields elements last.value with
    | some element =>
      presentStruct fields segments fun index tag last rest =>
        presentField fields element index tag last rest
    | none =>
      creatable && presentStruct fields segments fun index tag last rest =>
        presentField fields fields.zero index tag last rest

def presentField : (fields : Fields) → fields.Vals → Nat → Tag → Segment → List Segment → Bool
  | .nil, _, _, _, _, _ => true
  | .cons _ type _, (value, _), 0, tag, last, segments =>
    presentType type value tag.creatable last segments
  | .cons _ _ rest, (_, values), index + 1, tag, last, segments =>
    presentField rest values index tag last segments

end

/-- The template holds what a path goes through. -/
def present (fields : Fields) (root : fields.Vals) (segments : List Segment) : Bool :=
  presentStruct fields segments fun index tag last rest =>
    presentField fields root index tag last rest

/-! ## From the rebuild to `resolve` -/

variable {α : Type} {fields : Fields} {segments : List Segment} {leaf : Leaf}
    {names : List GoString}

variable {assign : Nat → Segment → List Segment → Except Err α} {updated : α} {tag : Tag}
    {found : LeafKind × Bool}

theorem walkStruct_iff_of_assignStruct_eq_ok {isPresent : Nat → Tag → Segment → List Segment → Bool}
    {here : Resolved} {walk : Nat → Tag → Segment → List Segment → Except Err Resolved}
    (hAssign : assignStruct fields segments leaf assign = .ok updated)
    (hDescend : ∀ index tag last rest, assign index last rest = .ok updated →
      (isPresent index tag last rest = true ↔
        ∃ kind readOnly, walk index tag last rest = .ok ⟨.leaf kind, readOnly⟩)) :
    presentStruct fields segments isPresent = true ↔
      ∃ kind readOnly, walkStruct fields segments here walk = .ok ⟨.leaf kind, readOnly⟩ := by
  cases segments with
  | nil => cases hAssign
  | cons first more =>
    unfold assignStruct at hAssign
    unfold presentStruct walkStruct
    dsimp only at hAssign ⊢
    cases hMatch : matchField fields (first :: more) with
    | none =>
      rw [hMatch] at hAssign
      cases hAssign
    | some found =>
      rw [hMatch] at hAssign
      exact hDescend _ _ _ _ hAssign

/-- An assignment through a list names the key of the list, and goes on in some entry. -/
theorem exists_of_updateElement_eq_ok {elements updated : List fields.Vals} {segment : Segment}
    {f : fields.Vals → Except Err fields.Vals}
    (hUpdate : updateElement fields elements segment f = .ok updated) :
    fields.keyName = some segment.key ∧ ∃ before after, f before = .ok after := by
  unfold updateElement at hUpdate
  split at hUpdate
  · cases hUpdate
  next name hKey =>
  split at hUpdate
  · cases hUpdate
  next hName =>
  refine ⟨by rw [hKey, not_not.mp hName], ?_⟩
  split at hUpdate
  · next result hFirst =>
    rw [hUpdate] at hFirst
    obtain ⟨_, before, _, after, _, _, hAfter, _⟩ := updateFirst_eq_some_ok hFirst
    exact ⟨before, after, hAfter⟩
  · split at hUpdate
    · cases hUpdate
    · next fresh _ =>
      obtain ⟨after, hAfter, _⟩ := map_eq_ok_iff.mp hUpdate
      exact ⟨fresh, after, hAfter⟩

theorem presentField_eq_all : ∀ (fields : Fields) (values : fields.Vals) (index : Nat) (tag : Tag)
    (last : Segment) (segments : List Segment), presentField fields values index tag last segments =
      (fieldAt fields index values).all fun field =>
        presentType field.1 field.2 tag.creatable last segments
  | .nil, _, _, _, _, _ => rfl
  | .cons _ _ _, (_, _), 0, _, _, _ => rfl
  | .cons _ _ rest, (_, values), index + 1, tag, last, segments =>
    presentField_eq_all rest values index tag last segments

/-- What the rebuild assigns is a leaf for `resolve` exactly if the template has what is on the way.
The two walks may be in different values. -/
theorem resolveType_iff_of_assignType_eq_ok {type : GoType} : ∀ (value other updated : type.Val)
    (creatable readOnly : Bool) (last : Segment) (segments : List Segment),
    assignType type other last segments leaf = .ok updated →
    (presentType type value creatable last segments = true ↔
      ∃ kind access, resolveType type value creatable readOnly last segments =
        .ok ⟨.leaf kind, access⟩) := by
  induction type using typeInduction with
  | scalar kind =>
    intro value other updated creatable readOnly last segments hAssign
    cases segments with
    | nil => exact ⟨fun _ => ⟨kind, readOnly, rfl⟩, fun _ => rfl⟩
    | cons next rest => cases hAssign
  | struct fields ih =>
    intro value other updated creatable readOnly last segments hAssign
    rw [assignType] at hAssign
    rw [presentType, resolveType]
    refine walkStruct_iff_of_assignStruct_eq_ok hAssign ?_
    intro index tag last rest hField
    obtain ⟨type, old, new, hOld, hType, _⟩ := assignField_eq_ok hField
    have hAt := typeAt_of_fieldAt_eq_some hOld
    obtain ⟨inner, hValue⟩ := exists_fieldAt_eq_some hAt value
    rw [presentField_eq_all, resolveField_eq, hValue]
    exact ih hAt inner old new _ _ last rest hType
  | pointer fields ih =>
    intro value other updated creatable readOnly last segments hAssign
    obtain ⟨inner, hInner, _⟩ := map_eq_ok_iff.mp hAssign
    cases value with
    | none => simp [presentType, resolveType]
    | some value => exact ih value _ inner creatable readOnly last segments hInner
  | slice fields ih _ =>
    intro elements other updated creatable readOnly last segments hAssign
    rw [assignType] at hAssign
    rw [presentType, resolveType]
    split at hAssign
    · cases hAssign
    · next hKeyed =>
      rw [if_neg hKeyed]
      obtain ⟨hName, before, after, hAfter⟩ := exists_of_updateElement_eq_ok hAssign
      unfold entryOf
      simp only [selectElement, hName, ne_eq, not_true_eq_false, if_false]
      cases hEntry : elements.find? fun element => fields.keyText element = some last.value with
      | some element => exact ih element before after creatable readOnly last segments hAfter
      | none =>
        cases creatable with
        | false => simp
        | true => exact ih fields.zero before after true readOnly last segments hAfter

/-! ## Shapes -/

/-- A segment of the shape of a path: its name, and the key at an entry of a list. -/
abbrev ShapePart := GoString × Option GoString

/-- The key of the list that a field is, if it is one. -/
def keyOf : GoType → Option GoString
  | .slice fields => fields.keyName
  | _ => none

/-- The shape of what a tag consumes. -/
def tagShape (tag : Tag) (type : GoType) : List ShapePart :=
  tag.path.dropLast.map (fun name => (name, none)) ++
    tag.path.getLast?.toList.map fun name => (name, keyOf type)

mutual

/-- The shapes of the paths to the leaves of a type. -/
def shapesOfType : GoType → List (List ShapePart)
  | .scalar _ => [[]]
  | .struct fields => leafShapes fields
  | .pointer fields => leafShapes fields
  | .slice fields => leafShapes fields

/-- The shapes of the paths to the leaves of a struct. -/
def leafShapes : Fields → List (List ShapePart)
  | .nil => []
  | .cons tag type rest =>
    (shapesOfType type).map (fun inner => tagShape tag type ++ inner) ++ leafShapes rest

end

/-- A segment fits a part of a shape: it has the name, and at a list the key. -/
def Fits (part : ShapePart) (segment : Segment) : Prop :=
  segment.name = part.1 ∧ ∀ key, part.2 = some key → segment.key = key ∧ key ≠ []

theorem forall₂_fits_lead (hNames : segments.map Segment.name = names) :
    List.Forall₂ Fits (names.map fun name => (name, none)) segments := by
  subst hNames
  rw [List.map_map, List.forall₂_map_left_iff, List.forall₂_same]
  exact fun segment _ => ⟨rfl, fun key hKey => by cases hKey⟩

/-- What a tag consumes fits the shape of the tag. -/
theorem forall₂_fits_tagShape {type : GoType} {lead : List Segment} {last : Segment}
    (hNames : (lead ++ [last]).map Segment.name = tag.path)
    (hKey : ∀ key, keyOf type = some key → last.key = key ∧ key ≠ []) :
    List.Forall₂ Fits (tagShape tag type) (lead ++ [last]) := by
  rw [tagShape, ← hNames, List.map_append, List.map_singleton, List.dropLast_concat,
    List.getLast?_concat]
  exact List.rel_append (forall₂_fits_lead rfl) (.cons ⟨rfl, hKey⟩ .nil)

theorem mem_leafShapes : ∀ {fields : Fields} {index : Nat} {tag : Tag} {type : GoType}
    {inner : List ShapePart}, tagAt fields index = some tag → typeAt fields index = some type →
    inner ∈ shapesOfType type → tagShape tag type ++ inner ∈ leafShapes fields
  | .nil, _, _, _, _, hTag, _, _ => by cases hTag
  | .cons _ _ _, 0, _, _, _, hTag, hType, hInner => by
      cases hTag
      cases hType
      exact List.mem_append_left _ (List.mem_map_of_mem hInner)
  | .cons _ _ _, index + 1, _, _, _, hTag, hType, hInner =>
    List.mem_append_right _ (mem_leafShapes hTag hType hInner)

/-- A path that the rebuild accepts has the shape of a leaf. -/
theorem fits_of_assignType_eq_ok {type : GoType} : ∀ (value updated : type.Val) (last : Segment)
    (segments : List Segment), assignType type value last segments leaf = .ok updated →
    (∃ shape ∈ shapesOfType type, List.Forall₂ Fits shape segments) ∧
      ∀ key, keyOf type = some key → last.key = key ∧ key ≠ [] := by
  induction type using typeInduction with
  | scalar kind =>
    intro value updated last segments hAssign
    cases segments with
    | nil => exact ⟨⟨[], List.mem_singleton_self _, .nil⟩, fun key hKey => by cases hKey⟩
    | cons next rest => cases hAssign
  | struct fields ih =>
    intro value updated last segments hAssign
    rw [assignType] at hAssign
    refine ⟨?_, fun key hKey => by cases hKey⟩
    obtain ⟨found, hTurn, hField⟩ := assignStruct_eq_ok hAssign
    obtain ⟨hSegments, tag, hTag, hNames⟩ := turn_eq_some hTurn
    obtain ⟨type, old, new, hOld, hType, _⟩ := assignField_eq_ok hField
    have hAt := typeAt_of_fieldAt_eq_some hOld
    obtain ⟨⟨inner, hShape, hInner⟩, hKey⟩ := ih hAt old new found.last found.rest hType
    refine ⟨_, mem_leafShapes hTag hAt hShape, ?_⟩
    rw [hSegments, ← List.singleton_append, ← List.append_assoc]
    exact List.rel_append (forall₂_fits_tagShape hNames hKey) hInner
  | pointer fields ih =>
    intro value updated last segments hAssign
    obtain ⟨inner, hInner, _⟩ := map_eq_ok_iff.mp hAssign
    exact ih _ inner last segments hInner
  | slice fields ih _ =>
    intro elements updated last segments hAssign
    rw [assignType] at hAssign
    split at hAssign
    · cases hAssign
    · next hKeyed =>
      obtain ⟨hName, before, after, hAfter⟩ := exists_of_updateElement_eq_ok hAssign
      refine ⟨(ih before after last segments hAfter).1, ?_⟩
      intro key hKey
      have hSame : last.key = key := Option.some.inj (hName.symm.trans hKey)
      exact ⟨hSame, hSame ▸ hKeyed⟩

/-! ## The names of leaves -/

theorem names_tagShape (hPath : tag.path ≠ []) (type : GoType) :
    (tagShape tag type).map Prod.fst = tag.path := by
  obtain ⟨names, last, hNames⟩ := (List.eq_nil_or_concat tag.path).resolve_left hPath
  rw [List.concat_eq_append] at hNames
  rw [tagShape, hNames, List.dropLast_concat, List.getLast?_concat]
  simp [Function.comp_def]

theorem shape_of_leafOfType_eq_some {type : GoType} : ∀ (readOnly : Bool) (names : List GoString),
    leafOfType type readOnly names = some found →
    ∃ shape ∈ shapesOfType type, shape.map Prod.fst = names := by
  induction type using typeInduction with
  | scalar kind =>
    intro readOnly names hLeaf
    rw [leafOfType] at hLeaf
    split at hLeaf
    · next hEnd => exact ⟨[], List.mem_singleton_self _, hEnd.symm⟩
    · cases hLeaf
  | struct fields ih =>
    intro readOnly names hLeaf
    rw [leafOfType] at hLeaf
    cases names with
    | nil => cases hLeaf
    | cons first more =>
      rw [walkNames] at hLeaf
      split at hLeaf
      · cases hLeaf
      next index tag hBest =>
      rcases bestField_eq_some hBest with hNone | ⟨offset, hIndex, hTag, ⟨rest, hRest⟩, hPath⟩
      · cases hNone
      dsimp only at hIndex hTag hRest hPath
      rw [Nat.zero_add] at hIndex
      subst hIndex
      rw [leafOfField_eq_bind] at hLeaf
      obtain ⟨type, hType, hInner⟩ := Option.bind_eq_some_iff.mp hLeaf
      obtain ⟨inner, hShape, hNames⟩ := ih hType _ _ hInner
      refine ⟨_, mem_leafShapes hTag hType hShape, ?_⟩
      rw [List.map_append, names_tagShape hPath, hNames, ← hRest, List.drop_left]
  | pointer fields ih | slice fields ih =>
    intro readOnly names hLeaf
    exact ih readOnly names hLeaf

/-- The names of a leaf are those of one of the shapes. -/
theorem shape_of_leafAt_eq_some (hLeaf : leafAt fields names = some found) :
    ∃ shape ∈ leafShapes fields, shape.map Prod.fst = names :=
  @shape_of_leafOfType_eq_some found (.struct fields) false names hLeaf

/-- No leaf of the device is below another one. -/
theorem leafShapes_device_apart :
    ∀ first ∈ leafShapes Model.Device.fields, ∀ second ∈ leafShapes Model.Device.fields,
      first.map Prod.fst <+: second.map Prod.fst →
        first.map Prod.fst = second.map Prod.fst := by
  decide +kernel

theorem rest_eq_nil_of_leafAt {rest : List GoString} {first second : LeafKind × Bool}
    (hFirst : leafAt Model.Device.fields names = some first)
    (hSecond : leafAt Model.Device.fields (names ++ rest) = some second) : rest = [] := by
  obtain ⟨above, hAbove, hNames⟩ := shape_of_leafAt_eq_some hFirst
  obtain ⟨below, hBelow, hLonger⟩ := shape_of_leafAt_eq_some hSecond
  have hSame := leafShapes_device_apart above hAbove below hBelow
    (by rw [hNames, hLonger]; exact List.prefix_append names rest)
  rw [hNames, hLonger] at hSame
  simpa using hSame

/-! ## A rebuilt map -/

/-- Every stored path of a map that the rebuild accepts has been assigned to some device. -/
theorem exists_assignPath_of_hydrate_eq_ok {template result : fields.Vals} {values : Store.Values}
    (hHydrate : hydrate fields template values = .ok result) {path : GoString}
    (hLeaf : values[path]? = some leaf) :
    ∃ segments before after, parse path = .ok segments ∧
      assignPath fields before segments leaf = .ok after := by
  obtain ⟨entries, hEntries, hFold⟩ := bind_eq_ok_iff.mp hHydrate
  obtain ⟨_, hParsed, hComplete⟩ := parseEntries_eq_ok hEntries
  obtain ⟨entry, hEntry, rfl, rfl⟩ := hComplete path leaf hLeaf
  have hAssigned := foldlM_induction (I := fun done _ => ∀ other ∈ done, ∃ before after,
    assignPath fields before other.segments other.leaf = .ok after) (by simp) ?_ hFold
  · obtain ⟨before, after, hAssign⟩ := hAssigned entry hEntry
    exact ⟨entry.segments, before, after, (hParsed entry hEntry).1, hAssign⟩
  · intro done next state updated _ hDone hStep other hOther
    rcases List.mem_append.mp hOther with hOld | hNew
    · exact hDone other hOld
    · rw [List.mem_singleton.mp hNew]
      exact ⟨state, updated, atPath_eq_ok_iff.mp hStep⟩

end Router
end TriadSim

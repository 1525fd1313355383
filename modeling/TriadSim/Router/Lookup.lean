import TriadSim.Router.Hydrate

/-!
# Reading a device by path

A path is walked one field at a time: the tag of a field consumes some segments, and the type of
the field says what comes next.  `lookup` reads what stands at a path of a device, as `resolve`
reaches it; `Addressed` is the shape of the paths that name every node exactly once.  The two
walks agree by `resolve_of_lookup_eq_some`.
-/

namespace TriadSim
namespace Router

open Go

/-! ## One turn of a walk -/

/-- What the tag of the matching field consumes of a path. -/
structure Turn where
  index : Nat
  lead : List Segment
  last : Segment
  rest : List Segment
  deriving DecidableEq

def turn (fields : Fields) : List Segment → Option Turn
  | [] => none
  | first :: more =>
    (matchField fields (first :: more)).map fun found =>
      { index := found.1
        lead := (first :: more).take (found.2.path.length - 1)
        last := (first :: more).getD (found.2.path.length - 1) first
        rest := (first :: more).drop found.2.path.length }

/-- The tag of the field at an index. -/
def tagAt : Fields → Nat → Option Tag
  | .nil, _ => none
  | .cons tag _ _, 0 => some tag
  | .cons _ _ rest, index + 1 => tagAt rest index

theorem exists_typeAt_eq_some : ∀ {fields : Fields} {index : Nat} {tag : Tag},
    tagAt fields index = some tag → ∃ type, typeAt fields index = some type
  | .nil, _, _, hTag => by cases hTag
  | .cons _ type _, 0, _, _ => ⟨type, rfl⟩
  | .cons _ _ rest, index + 1, _, hTag => @exists_typeAt_eq_some rest index _ hTag

/-- The best field is the one to beat, or a later one whose tag leads the names. -/
theorem bestField_eq_some {names : List GoString} {found : Nat × Tag} :
    ∀ {fields : Fields} {index : Nat} {best : Option (Nat × Tag)},
      bestField names index best fields = some found → best = some found ∨
        ∃ offset, found.1 = index + offset ∧ tagAt fields offset = some found.2 ∧
          found.2.path <+: names ∧ found.2.path ≠ []
  | .nil, _, _, hBest => Or.inl hBest
  | .cons tag type rest, index, best, hBest => by
      rw [bestField] at hBest
      rcases bestField_eq_some hBest with hHere | ⟨offset, hIndex, hTag, hLead⟩
      · split at hHere
        · next hMatch =>
          cases hHere
          rw [Bool.and_eq_true, decide_eq_true_eq, List.isPrefixOf_iff_prefix] at hMatch
          refine Or.inr ⟨0, rfl, rfl, hMatch.1, ?_⟩
          exact List.ne_nil_of_length_pos (Nat.lt_of_le_of_lt (Nat.zero_le _) hMatch.2)
        · exact Or.inl hHere
      · exact Or.inr ⟨offset + 1, by omega, hTag, hLead⟩

variable {fields : Fields} {segments : List Segment}

theorem turn_eq_some {found : Turn} (hTurn : turn fields segments = some found) :
    segments = found.lead ++ found.last :: found.rest ∧
      ∃ tag, tagAt fields found.index = some tag ∧
        (found.lead ++ [found.last]).map Segment.name = tag.path := by
  cases segments with
  | nil => cases hTurn
  | cons first more =>
    obtain ⟨⟨index, tag⟩, hMatch, rfl⟩ := Option.map_eq_some_iff.mp hTurn
    rcases bestField_eq_some hMatch with hNone | ⟨offset, hIndex, hTag, hLead, hNonempty⟩
    · cases hNone
    · dsimp only at hIndex hTag hLead hNonempty
      rw [Nat.zero_add] at hIndex
      subst hIndex
      obtain ⟨count, hCount⟩ := Nat.exists_eq_succ_of_ne_zero
        (List.length_pos_of_ne_nil hNonempty).ne'
      have hBound : count < (first :: more).length := by
        have hLength := hLead.length_le
        rw [List.length_map] at hLength
        omega
      have hLast : (first :: more).getD (tag.path.length - 1) first = (first :: more)[count] := by
        rw [hCount, Nat.succ_sub_one, List.getD_eq_getElem?_getD,
          List.getElem?_eq_getElem hBound, Option.getD_some]
      dsimp only
      rw [hLast, hCount, Nat.succ_sub_one]
      refine ⟨?_, tag, hTag, ?_⟩
      · rw [List.getElem_cons_drop, List.take_append_drop]
      · rw [List.take_append_getElem, List.map_take, ← Nat.succ_eq_add_one, ← hCount]
        exact (List.prefix_iff_eq_take.mp hLead).symm

/-- Two paths into the same field have the same names up to there. -/
theorem names_of_turn_eq_some {others : List Segment} {found other : Turn}
    (hTurn : turn fields segments = some found) (hOther : turn fields others = some other)
    (hIndex : found.index = other.index) :
    found.lead.map Segment.name = other.lead.map Segment.name ∧
      found.last.name = other.last.name := by
  obtain ⟨_, tag, hTag, hNames⟩ := turn_eq_some hTurn
  obtain ⟨_, _, hSame, hOtherNames⟩ := turn_eq_some hOther
  rw [← hIndex, hTag] at hSame
  cases hSame
  rw [← hOtherNames, List.map_append, List.map_append] at hNames
  obtain ⟨hLead, hLast⟩ := List.append_inj' hNames rfl
  exact ⟨hLead, by simpa using hLast⟩

theorem assignStruct_eq_ok {α : Type} {leaf : Leaf}
    {descend : Nat → Segment → List Segment → Except Err α} {result : α}
    (hAssign : assignStruct fields segments leaf descend = .ok result) :
    ∃ found, turn fields segments = some found ∧
      descend found.index found.last found.rest = .ok result := by
  cases segments with
  | nil => cases hAssign
  | cons first more =>
    unfold assignStruct at hAssign
    dsimp only at hAssign
    cases hMatch : matchField fields (first :: more) with
    | none =>
      rw [hMatch] at hAssign
      cases hAssign
    | some found =>
      rw [hMatch] at hAssign
      exact ⟨_, by rw [turn, hMatch]; rfl, hAssign⟩

/-! ## Reading -/

/-- What stands at a path: a leaf with its value, a container, or a list with the keys of
its entries. -/
inductive Found where
  | leaf (value : Leaf)
  | container
  | list (keys : List (Option GoString))
  deriving DecidableEq, Repr

def Found.shape : Found → Shape
  | .leaf value => .leaf value.kind
  | .container => .container
  | .list _ => .list

/-- One turn of a reading inside a struct. -/
def lookupStruct (fields : Fields) (segments : List Segment)
    (descend : Nat → Segment → List Segment → Option Found) : Option Found :=
  if segments = [] then some .container
  else (turn fields segments).bind fun found => descend found.index found.last found.rest

/-- The entry of a list that a predicate selects. -/
def entryOf (fields : Fields) (elements : List fields.Vals) (value : GoString) :
    Option fields.Vals :=
  elements.find? fun element => fields.keyText element = some value

mutual

/-- The reading from a field that `last` has matched. -/
def lookupType : (type : GoType) → type.Val → Segment → List Segment → Option Found
  | .scalar kind, value, _, segments =>
    if segments = [] then some (.leaf (Leaf.ofVal kind value)) else none
  | .struct fields, value, _, segments =>
    lookupStruct fields segments fun index last rest => lookupField fields value index last rest
  | .pointer _, none, _, _ => none
  | .pointer fields, some value, _, segments =>
    lookupStruct fields segments fun index last rest => lookupField fields value index last rest
  | .slice fields, elements, last, segments =>
    if last.key = [] then
      if segments = [] then some (.list (elements.map fields.keyText)) else none
    else if fields.keyName = some last.key then
      (entryOf fields elements last.value).bind fun element =>
        lookupStruct fields segments fun index last rest =>
          lookupField fields element index last rest
    else none

def lookupField : (fields : Fields) → fields.Vals → Nat → Segment → List Segment → Option Found
  | .nil, _, _, _, _ => none
  | .cons _ type _, (value, _), 0, last, segments => lookupType type value last segments
  | .cons _ _ rest, (_, values), index + 1, last, segments =>
    lookupField rest values index last segments

end

/-- What stands at a path of a struct. -/
def lookup (fields : Fields) (root : fields.Vals) (segments : List Segment) : Option Found :=
  lookupStruct fields segments fun index last rest => lookupField fields root index last rest

/-- What can be read is what `resolve` reaches. -/
theorem walkStruct_of_lookupStruct_eq_some {node : Found} {readOnly : Bool}
    {descend : Nat → Segment → List Segment → Option Found}
    {walk : Nat → Tag → Segment → List Segment → Except Err Resolved}
    (hLookup : lookupStruct fields segments descend = some node)
    (hDescend : ∀ index tag last rest, descend index last rest = some node →
      ∃ found, walk index tag last rest = .ok ⟨node.shape, found⟩) :
    ∃ found, walkStruct fields segments ⟨.container, readOnly⟩ walk =
      .ok ⟨node.shape, found⟩ := by
  cases segments with
  | nil =>
    cases hLookup
    exact ⟨readOnly, rfl⟩
  | cons first more =>
    rw [lookupStruct, if_neg (List.cons_ne_nil _ _)] at hLookup
    obtain ⟨found, hTurn, hFound⟩ := Option.bind_eq_some_iff.mp hLookup
    obtain ⟨⟨index, tag⟩, hMatch, rfl⟩ := Option.map_eq_some_iff.mp hTurn
    rw [walkStruct, hMatch]
    exact hDescend index tag _ _ hFound

theorem lookupField_eq_bind : ∀ (fields : Fields) (values : fields.Vals) (index : Nat)
    (last : Segment) (segments : List Segment), lookupField fields values index last segments =
      (fieldAt fields index values).bind fun field => lookupType field.1 field.2 last segments
  | .nil, _, _, _, _ => rfl
  | .cons _ _ _, (_, _), 0, _, _ => rfl
  | .cons _ _ rest, (_, values), index + 1, last, segments =>
    lookupField_eq_bind rest values index last segments

/-- What is read in a list: the list as a whole, or something in the entry of a predicate. -/
theorem lookupType_slice_eq_some {elements : List fields.Vals} {last : Segment} {node : Found}
    (hLookup : lookupType (.slice fields) elements last segments = some node) :
    (last.key = [] ∧ segments = [] ∧ node = .list (elements.map fields.keyText)) ∨
      (last.key ≠ [] ∧ fields.keyName = some last.key ∧ ∃ element,
        entryOf fields elements last.value = some element ∧
        lookup fields element segments = some node) := by
  rw [lookupType] at hLookup
  split at hLookup
  · next hBare =>
    split at hLookup
    · next hEnd => exact Or.inl ⟨hBare, hEnd, (Option.some.inj hLookup).symm⟩
    · cases hLookup
  · next hKeyed =>
    split at hLookup
    · next hName => exact Or.inr ⟨hKeyed, hName, Option.bind_eq_some_iff.mp hLookup⟩
    · cases hLookup

theorem resolveType_of_lookupType_eq_some {type : GoType} {node : Found} :
    ∀ (value : type.Val) (creatable readOnly : Bool) (last : Segment) (segments : List Segment),
      lookupType type value last segments = some node →
      ∃ found, resolveType type value creatable readOnly last segments =
        .ok ⟨node.shape, found⟩ := by
  induction type using typeInduction with
  | scalar kind =>
    intro value creatable readOnly last segments hLookup
    rw [lookupType] at hLookup
    split at hLookup
    · next hEnd =>
      subst hEnd
      cases hLookup
      exact ⟨readOnly, by rw [resolveType, Found.shape, Leaf.kind_ofVal]⟩
    · cases hLookup
  | struct fields ih =>
    intro value creatable readOnly last segments hLookup
    rw [resolveType]
    refine walkStruct_of_lookupStruct_eq_some hLookup ?_
    intro index tag last rest hField
    rw [lookupField_eq_bind] at hField
    obtain ⟨field, hAt, hType⟩ := Option.bind_eq_some_iff.mp hField
    rw [resolveField_eq, hAt]
    exact ih (typeAt_of_fieldAt_eq_some hAt) field.2 _ _ _ _ hType
  | pointer fields ih =>
    intro value creatable readOnly last segments hLookup
    cases value with
    | none => cases hLookup
    | some value => exact ih value creatable readOnly last segments hLookup
  | slice fields ih _ =>
    intro elements creatable readOnly last segments hLookup
    rw [resolveType]
    rcases lookupType_slice_eq_some hLookup with
      ⟨hBare, hEnd, rfl⟩ | ⟨hKeyed, hName, element, hElement, hRest⟩
    · rw [if_pos hBare, if_pos hEnd]
      exact ⟨readOnly, rfl⟩
    · have hSelect : selectElement fields elements last creatable = .ok element := by
        unfold entryOf at hElement
        simp only [selectElement, hName, ne_eq, not_true_eq_false, if_false, hElement]
      rw [if_neg hKeyed, hSelect]
      exact ih element creatable readOnly last segments hRest

theorem resolve_of_lookup_eq_some {root : fields.Vals} {node : Found}
    (hLookup : lookup fields root segments = some node) :
    ∃ readOnly, resolve fields root segments = .ok ⟨node.shape, readOnly⟩ :=
  @resolveType_of_lookupType_eq_some (.struct fields) _ root false false default segments hLookup

/-! ## Paths that name a node once -/

/-- A segment without a predicate. -/
def Segment.Bare (segment : Segment) : Prop :=
  segment.key = [] ∧ segment.value = []

/-- A text that is the canonical text of the key it reads as. -/
def CanonicalKey (fields : Fields) (value : GoString) : Prop :=
  ∃ fresh, fields.setKey fields.zero value = some fresh ∧ fields.keyText fresh = some value

mutual

def AddressedType : GoType → Segment → List Segment → Prop
  | .scalar _, last, _ => last.Bare
  | .struct fields, last, segments => last.Bare ∧ ∀ found, turn fields segments = some found →
      (∀ segment ∈ found.lead, segment.Bare) ∧
        AddressedField fields found.index found.last found.rest
  | .pointer fields, last, segments => last.Bare ∧ ∀ found, turn fields segments = some found →
      (∀ segment ∈ found.lead, segment.Bare) ∧
        AddressedField fields found.index found.last found.rest
  | .slice fields, last, segments =>
    (last.Bare ∨ last.key ≠ [] ∧ CanonicalKey fields last.value) ∧
    ∀ found, turn fields segments = some found → (∀ segment ∈ found.lead, segment.Bare) ∧
      AddressedField fields found.index found.last found.rest

def AddressedField : Fields → Nat → Segment → List Segment → Prop
  | .nil, _, _, _ => True
  | .cons _ type _, 0, last, segments => AddressedType type last segments
  | .cons _ _ rest, index + 1, last, segments => AddressedField rest index last segments

end

/-- The segments of lists carry predicates in the canonical text of the key's type, except
that a path may end in a whole list, and the other segments carry none. -/
def Addressed (fields : Fields) (segments : List Segment) : Prop :=
  ∀ found, turn fields segments = some found → (∀ segment ∈ found.lead, segment.Bare) ∧
    AddressedField fields found.index found.last found.rest

/-- The key that a leaf gives its entry when it is assigned to the field at the index: the
text of the leaf in the type of the field, if the field is the key. -/
def assignedKey : Fields → Nat → Leaf → Option GoString
  | .nil, _, _ => none
  | .cons tag (.scalar kind) _, 0, leaf =>
    if tag.key then (coerce kind (.leaf leaf)).toOption.map kind.scalarText else none
  | .cons _ _ _, 0, _ => none
  | .cons tag _ rest, index + 1, leaf => if tag.key then none else assignedKey rest index leaf

mutual

def KeysMatchType : GoType → Segment → List Segment → Leaf → Prop
  | .scalar _, _, _, _ => True
  | .struct fields, _, segments, leaf => ∀ found, turn fields segments = some found →
      KeysMatchField fields found.index found.last found.rest leaf
  | .pointer fields, _, segments, leaf => ∀ found, turn fields segments = some found →
      KeysMatchField fields found.index found.last found.rest leaf
  | .slice fields, last, segments, leaf => ∀ found, turn fields segments = some found →
      (found.rest = [] → ∀ text, assignedKey fields found.index leaf = some text →
        text = last.value) ∧ KeysMatchField fields found.index found.last found.rest leaf

def KeysMatchField : Fields → Nat → Segment → List Segment → Leaf → Prop
  | .nil, _, _, _, _ => True
  | .cons _ type _, 0, last, segments, leaf => KeysMatchType type last segments leaf
  | .cons _ _ rest, index + 1, last, segments, leaf => KeysMatchField rest index last segments leaf

end

/-- A leaf at the key of a list entry equals the predicate of the entry. -/
def KeysMatch (fields : Fields) (segments : List Segment) (leaf : Leaf) : Prop :=
  ∀ found, turn fields segments = some found →
    KeysMatchField fields found.index found.last found.rest leaf

/-! ### The shape of a path can be checked -/

def decidableOfSome {α : Type} {P : α → Prop} (option : Option α)
    (decide : ∀ value, Decidable (P value)) : Decidable (∀ value, option = some value → P value) :=
  match option with
  | none => isTrue fun _ hNone => by cases hNone
  | some value => @decidable_of_iff _ (P value) (by simp) (decide value)

instance (segment : Segment) : Decidable segment.Bare :=
  inferInstanceAs (Decidable (segment.key = [] ∧ segment.value = []))

instance (fields : Fields) (value : GoString) : Decidable (CanonicalKey fields value) :=
  decidable_of_iff ((fields.setKey fields.zero value).any fun fresh =>
    decide (fields.keyText fresh = some value)) (by simp [CanonicalKey, Option.any_eq_true])

mutual

def decideAddressedType : (type : GoType) → (last : Segment) → (segments : List Segment) →
    Decidable (AddressedType type last segments)
  | .scalar _, last, _ => inferInstanceAs (Decidable last.Bare)
  | .struct fields, _, segments | .pointer fields, _, segments | .slice fields, _, segments =>
    @instDecidableAnd _ _ inferInstance (decidableOfSome (turn fields segments) fun found =>
      @instDecidableAnd _ _ inferInstance
        (decideAddressedField fields found.index found.last found.rest))

def decideAddressedField : (fields : Fields) → (index : Nat) → (last : Segment) →
    (segments : List Segment) → Decidable (AddressedField fields index last segments)
  | .nil, _, _, _ => isTrue trivial
  | .cons _ type _, 0, last, segments => decideAddressedType type last segments
  | .cons _ _ rest, index + 1, last, segments => decideAddressedField rest index last segments

end

instance (fields : Fields) (segments : List Segment) : Decidable (Addressed fields segments) :=
  decidableOfSome (turn fields segments) fun found => @instDecidableAnd _ _ inferInstance
    (decideAddressedField fields found.index found.last found.rest)

mutual

def decideKeysMatchType : (type : GoType) → (last : Segment) → (segments : List Segment) →
    (leaf : Leaf) → Decidable (KeysMatchType type last segments leaf)
  | .scalar _, _, _, _ => isTrue trivial
  | .struct fields, _, segments, leaf | .pointer fields, _, segments, leaf =>
    decidableOfSome (turn fields segments) fun found =>
      decideKeysMatchField fields found.index found.last found.rest leaf
  | .slice fields, _, segments, leaf => decidableOfSome (turn fields segments) fun found =>
    @instDecidableAnd _ _
      (@instDecidableForall _ _ inferInstance
        (decidableOfSome (assignedKey fields found.index leaf) fun _ => inferInstance))
      (decideKeysMatchField fields found.index found.last found.rest leaf)

def decideKeysMatchField : (fields : Fields) → (index : Nat) → (last : Segment) →
    (segments : List Segment) → (leaf : Leaf) →
    Decidable (KeysMatchField fields index last segments leaf)
  | .nil, _, _, _, _ => isTrue trivial
  | .cons _ type _, 0, last, segments, leaf => decideKeysMatchType type last segments leaf
  | .cons _ _ rest, index + 1, last, segments, leaf =>
    decideKeysMatchField rest index last segments leaf

end

instance (fields : Fields) (segments : List Segment) (leaf : Leaf) :
    Decidable (KeysMatch fields segments leaf) :=
  decidableOfSome (turn fields segments) fun found =>
    decideKeysMatchField fields found.index found.last found.rest leaf

end Router
end TriadSim

import TriadSim.Go.Reflect
import TriadSim.Router.Path

/-!
# Resolving a path

`resolve` of `internal/router/reflect.go`: walk the segments of a path from a struct value.  The
router uses the result for the type and the access of the node it reaches, never for the value
there, so a resolved node keeps these two only; the values on the way matter, since a nil pointer
or a missing entry of a closed list ends the walk.  The names on a resolved path lead to a leaf of
the types by `leafAt_of_resolve_eq_ok`.
-/

namespace TriadSim
namespace Router

open Go

instance : Inhabited Segment := ⟨⟨[], [], []⟩⟩

/-- What a path resolves to. -/
inductive Shape where
  | leaf (kind : LeafKind)
  | container
  | list
  deriving DecidableEq, Repr

/-- `node`: a resolved model position. -/
structure Resolved where
  shape : Shape
  readOnly : Bool
  deriving DecidableEq, Repr

/-! ## Errors -/

def nodeNotFound (name : GoString) : Err :=
  .sentinel .routerNotFound ++ .text (": " ++ name)

def keyRequired (name : GoString) : Err :=
  .sentinel .routerInvalidPath ++ .text (": list " ++ name ++ " requires a key predicate")

def noKeyField (name : GoString) : Err :=
  .sentinel .routerInvalidPath ++ .text (": list " ++ name ++ " has no key field")

def noSuchKey (name key : GoString) : Err :=
  .sentinel .routerInvalidPath ++ .text (": list " ++ name ++ " has no key ") ++
    .piece (.quoted key)

def notContainer (name : GoString) (kind : LeafKind) : Err :=
  .sentinel .routerNotFound ++ .text (": " ++ name ++ " is a " ++ kind.name ++ ", not a container")

/-! ## Fields by index -/

/-- The type of the field at an index. -/
def typeAt : Fields → Nat → Option GoType
  | .nil, _ => none
  | .cons _ type _, 0 => some type
  | .cons _ _ rest, index + 1 => typeAt rest index

/-- The field at an index, with its type. -/
def fieldAt : (fields : Fields) → Nat → fields.Vals → Option (Sigma GoType.Val)
  | .nil, _, _ => none
  | .cons _ type _, 0, (value, _) => some ⟨type, value⟩
  | .cons _ _ rest, index + 1, (_, values) => fieldAt rest index values

theorem map_fst_fieldAt : ∀ (fields : Fields) (index : Nat) (values : fields.Vals),
    (fieldAt fields index values).map Sigma.fst = typeAt fields index
  | .nil, _, _ => rfl
  | .cons _ _ _, 0, _ => rfl
  | .cons _ _ rest, index + 1, (_, values) => map_fst_fieldAt rest index values

variable {fields : Fields} {index : Nat} {segments : List Segment} {kind : LeafKind}

theorem typeAt_of_fieldAt_eq_some {values : fields.Vals} {field : Sigma GoType.Val}
    (hField : fieldAt fields index values = some field) :
    typeAt fields index = some field.1 := by
  rw [← map_fst_fieldAt fields index values, hField]
  rfl

theorem exists_fieldAt_eq_some {type : GoType} (hType : typeAt fields index = some type)
    (values : fields.Vals) :
    ∃ value, fieldAt fields index values = some ⟨type, value⟩ := by
  rw [← map_fst_fieldAt fields index values] at hType
  obtain ⟨⟨found, value⟩, hField, rfl⟩ := Option.map_eq_some_iff.mp hType
  exact ⟨value, hField⟩

section Induction

variable {motive : GoType → Prop} (scalar : ∀ kind, motive (.scalar kind))
  (struct : ∀ fields, (∀ {index type}, typeAt fields index = some type → motive type) →
    motive (.struct fields))
  (pointer : ∀ fields, motive (.struct fields) → motive (.pointer fields))
  (slice : ∀ fields, motive (.struct fields) →
    (∀ {index type}, typeAt fields index = some type → motive type) → motive (.slice fields))

include scalar struct pointer slice

set_option linter.unusedSectionVars false in
mutual

/-- What holds of a type if it holds of the types of its fields, and of a pointer or a slice if it
holds of the struct behind it, holds of every type. -/
@[elab_as_elim]
theorem typeInduction : ∀ type, motive type
  | .scalar kind => scalar kind
  | .struct fields => struct fields (fieldsInduction fields)
  | .pointer fields => pointer fields (struct fields (fieldsInduction fields))
  | .slice fields => slice fields (struct fields (fieldsInduction fields)) (fieldsInduction fields)

theorem fieldsInduction : ∀ (fields : Fields) {index : Nat} {type : GoType},
    typeAt fields index = some type → motive type
  | .nil, _, _, hType => by cases hType
  | .cons _ type _, 0, _, hType => Option.some.inj hType ▸ typeInduction type
  | .cons _ _ rest, _ + 1, _, hType => fieldsInduction rest hType

end

end Induction

/-! ## Fields -/

/-- The field whose tag matches the longest lead of the names, with its index; of
equally long tags the first. -/
def bestField (names : List GoString) :
    Nat → Option (Nat × Tag) → Fields → Option (Nat × Tag)
  | _, best, .nil => best
  | index, best, .cons tag _ rest =>
    let bestLength := best.elim 0 fun found => found.2.path.length
    bestField names (index + 1)
      (if tag.path.isPrefixOf names && decide (bestLength < tag.path.length) then
        some (index, tag)
      else best) rest

/-- `matchField`: predicates play no part. -/
def matchField (fields : Fields) (segments : List Segment) : Option (Nat × Tag) :=
  bestField (segments.map Segment.name) 0 none fields

/-- The element of a list that a predicate selects, or a fresh one when the list is
tagged creatable: `selectElement`. -/
def selectElement (fields : Fields) (elements : List fields.Vals) (segment : Segment)
    (creatable : Bool) : Except Err fields.Vals :=
  match fields.keyName with
  | none => .error (noKeyField segment.name)
  | some name =>
    if name ≠ segment.key then .error (noSuchKey segment.name segment.key)
    else
      match elements.find? fun element => fields.keyText element = some segment.value with
      | some element => .ok element
      | none =>
        if creatable then .ok fields.zero
        else .error (.sentinel .routerNotFound ++
          .text (": " ++ segment.name ++ "[" ++ segment.key ++ "=" ++ segment.value ++ "]"))

/-- One turn of the walk inside a struct: the end of the path is the struct itself,
and otherwise `descend` goes on in the matching field, with the last segment the
tag has consumed and the segments after it. -/
def walkStruct {α : Type} (fields : Fields) (segments : List Segment) (here : α)
    (descend : Nat → Tag → Segment → List Segment → Except Err α) : Except Err α :=
  match segments with
  | [] => .ok here
  | first :: _ =>
    match matchField fields segments with
    | none => .error (nodeNotFound first.name)
    | some (index, tag) =>
      descend index tag (segments.getD (tag.path.length - 1) first)
        (segments.drop tag.path.length)

mutual

/-- The walk from a field that `last` has matched. -/
def resolveType : (type : GoType) → type.Val → (creatable readOnly : Bool) → Segment →
    List Segment → Except Err Resolved
  | .scalar kind, _, _, readOnly, _, segments =>
    match segments with
    | [] => .ok ⟨.leaf kind, readOnly⟩
    | next :: _ => .error (notContainer next.name kind)
  | .struct fields, value, _, readOnly, _, segments =>
    walkStruct fields segments ⟨.container, readOnly⟩ fun index tag last rest =>
      resolveField fields value index tag readOnly last rest
  | .pointer _, none, _, _, last, _ => .error (nodeNotFound last.name)
  | .pointer fields, some value, _, readOnly, _, segments =>
    walkStruct fields segments ⟨.container, readOnly⟩ fun index tag last rest =>
      resolveField fields value index tag readOnly last rest
  | .slice fields, elements, creatable, readOnly, last, segments =>
    if last.key = [] then
      if segments = [] then .ok ⟨.list, readOnly⟩ else .error (keyRequired last.name)
    else
      match selectElement fields elements last creatable with
      | .error err => .error err
      | .ok element =>
        walkStruct fields segments ⟨.container, readOnly⟩ fun index tag last rest =>
          resolveField fields element index tag readOnly last rest

/-- The walk into the field at an index. -/
def resolveField : (fields : Fields) → fields.Vals → Nat → Tag → Bool → Segment →
    List Segment → Except Err Resolved
  | .nil, _, _, _, _, last, _ => .error (nodeNotFound last.name)
  | .cons _ type _, (value, _), 0, tag, readOnly, last, segments =>
    resolveType type value tag.creatable (readOnly || tag.readOnly) last segments
  | .cons _ _ rest, (_, values), index + 1, tag, readOnly, last, segments =>
    resolveField rest values index tag readOnly last segments

end

theorem resolveField_eq : ∀ (fields : Fields) (values : fields.Vals) (index : Nat) (tag : Tag)
    (readOnly : Bool) (last : Segment) (segments : List Segment),
    resolveField fields values index tag readOnly last segments =
      match fieldAt fields index values with
      | none => .error (nodeNotFound last.name)
      | some field =>
        resolveType field.1 field.2 tag.creatable (readOnly || tag.readOnly) last segments
  | .nil, _, _, _, _, _, _ => rfl
  | .cons _ _ _, (_, _), 0, _, _, _, _ => rfl
  | .cons _ _ rest, (_, values), index + 1, tag, readOnly, last, segments =>
    resolveField_eq rest values index tag readOnly last segments

/-- `resolve` from a struct. -/
def resolve (fields : Fields) (root : fields.Vals) (segments : List Segment) :
    Except Err Resolved :=
  walkStruct fields segments ⟨.container, false⟩ fun index tag last rest =>
    resolveField fields root index tag false last rest

/-! ## The type behind a path

Which leaf a path can resolve to, and whether it is a state leaf, follows from the
names of its segments alone: the values on the way only decide whether the walk
gets there. -/

/-- One turn of the walk by names. -/
def walkNames {α : Type} (fields : Fields) (names : List GoString)
    (descend : Nat → Tag → List GoString → Option α) : Option α :=
  match names with
  | [] => none
  | _ :: _ =>
    match bestField names 0 none fields with
    | none => none
    | some (index, tag) => descend index tag (names.drop tag.path.length)

mutual

def leafOfType : GoType → Bool → List GoString → Option (LeafKind × Bool)
  | .scalar kind, readOnly, names => if names = [] then some (kind, readOnly) else none
  | .struct fields, readOnly, names =>
    walkNames fields names fun index tag rest => leafOfField fields index tag readOnly rest
  | .pointer fields, readOnly, names =>
    walkNames fields names fun index tag rest => leafOfField fields index tag readOnly rest
  | .slice fields, readOnly, names =>
    walkNames fields names fun index tag rest => leafOfField fields index tag readOnly rest

def leafOfField : Fields → Nat → Tag → Bool → List GoString → Option (LeafKind × Bool)
  | .nil, _, _, _, _ => none
  | .cons _ type _, 0, tag, readOnly, names => leafOfType type (readOnly || tag.readOnly) names
  | .cons _ _ rest, index + 1, tag, readOnly, names => leafOfField rest index tag readOnly names

end

theorem leafOfField_eq_bind : ∀ (fields : Fields) (index : Nat) (tag : Tag) (readOnly : Bool)
    (names : List GoString), leafOfField fields index tag readOnly names =
      (typeAt fields index).bind fun type => leafOfType type (readOnly || tag.readOnly) names
  | .nil, _, _, _, _ => rfl
  | .cons _ _ _, 0, _, _, _ => rfl
  | .cons _ _ rest, index + 1, tag, readOnly, names =>
    leafOfField_eq_bind rest index tag readOnly names

/-- The leaf at a list of names: its kind, and whether it is a state leaf. -/
def leafAt (fields : Fields) (names : List GoString) : Option (LeafKind × Bool) :=
  walkNames fields names fun index tag rest => leafOfField fields index tag false rest

/-- A walk through a struct that ends in a leaf is also a walk by names. -/
theorem walkNames_of_walkStruct_eq_ok {here result : Resolved}
    {descend : Nat → Tag → Segment → List Segment → Except Err Resolved}
    {byNames : Nat → Tag → List GoString → Option (LeafKind × Bool)}
    (hHere : here.shape ≠ .leaf kind) (hResult : result.shape = .leaf kind)
    (hWalk : walkStruct fields segments here descend = .ok result)
    (hDescend : ∀ index tag last rest, descend index tag last rest = .ok result →
      byNames index tag (rest.map Segment.name) = some (kind, result.readOnly)) :
    walkNames fields (segments.map Segment.name) byNames = some (kind, result.readOnly) := by
  cases segments with
  | nil =>
    rw [walkStruct, Except.ok.injEq] at hWalk
    subst hWalk
    exact absurd hResult hHere
  | cons first rest =>
    unfold walkStruct at hWalk
    dsimp only at hWalk
    have hMatch : matchField fields (first :: rest) =
        bestField (first.name :: rest.map Segment.name) 0 none fields := rfl
    rw [hMatch] at hWalk
    cases hBest : bestField (first.name :: rest.map Segment.name) 0 none fields with
    | none =>
      rw [hBest] at hWalk
      cases hWalk
    | some found =>
      rw [hBest] at hWalk
      have hNames := hDescend _ _ _ _ hWalk
      rw [List.map_drop] at hNames
      rw [List.map_cons, walkNames, hBest]
      exact hNames

theorem leafOfType_of_resolveType_eq_ok {type : GoType} : ∀ (value : type.Val)
    (creatable readOnly : Bool) (last : Segment) (segments : List Segment) (result : Resolved),
    result.shape = .leaf kind →
    resolveType type value creatable readOnly last segments = .ok result →
    leafOfType type readOnly (segments.map Segment.name) = some (kind, result.readOnly) := by
  induction type using typeInduction with
  | scalar found =>
    intro value creatable readOnly last segments result hShape hResolve
    cases segments with
    | nil =>
      rw [resolveType, Except.ok.injEq] at hResolve
      subst hResolve
      cases hShape
      rfl
    | cons next rest => cases hResolve
  | struct fields ih =>
    intro value creatable readOnly last segments result hShape hResolve
    rw [resolveType] at hResolve
    refine walkNames_of_walkStruct_eq_ok (by simp) hShape hResolve ?_
    intro index tag next rest hField
    rw [resolveField_eq] at hField
    split at hField
    · cases hField
    · next field hAt =>
      have hType := typeAt_of_fieldAt_eq_some hAt
      rw [leafOfField_eq_bind, hType]
      exact ih hType _ _ _ _ _ _ hShape hField
  | pointer fields ih =>
    intro value creatable readOnly last segments result hShape hResolve
    cases value with
    | none => cases hResolve
    | some value => exact ih value creatable readOnly last segments result hShape hResolve
  | slice fields ih _ =>
    intro elements creatable readOnly last segments result hShape hResolve
    rw [resolveType] at hResolve
    split at hResolve
    · split at hResolve
      · cases hResolve
        cases hShape
      · cases hResolve
    · split at hResolve
      · cases hResolve
      · next element _ =>
        exact ih element creatable readOnly last segments result hShape hResolve

/-- The kind and the access of a resolved leaf are those of its names. -/
theorem leafAt_of_resolve_eq_ok {root : fields.Vals} {readOnly : Bool}
    (hResolve : resolve fields root segments = .ok ⟨.leaf kind, readOnly⟩) :
    leafAt fields (segments.map Segment.name) = some (kind, readOnly) :=
  @leafOfType_of_resolveType_eq_ok kind (.struct fields) root false false default segments _ rfl
    hResolve

end Router
end TriadSim

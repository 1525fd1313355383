import TriadSim.Model.Seed
import TriadSim.Router.Coerce
import TriadSim.Router.Resolve
import TriadSim.Store.Persist

/-!
# Rebuilding a device

`internal/router/hydrate.go`: a device is rebuilt from the flat map of a datastore.
The boot template supplies the shape and the values the map does not mention; its
list entries that the map does not hold are dropped; then every path of the map is
assigned in order, creating list entries and pointer subtrees on demand.
-/

namespace TriadSim
namespace Router

open Go Store

/-! ## List membership -/

/-- `joinPath`. -/
def joinPath (lead tag : GoString) : GoString :=
  if lead = [] then tag else lead ++ 47 :: tag

/-- The list instances on a path: for each predicate, the path of the list without
predicates and the key value (the inner loop of `newHydrator`). -/
def listInstances (lead : GoString) : List Segment → List (GoString × GoString)
  | [] => []
  | segment :: rest =>
    let here := joinPath lead segment.name
    if segment.key = [] then listInstances here rest
    else (here, segment.value) :: listInstances here rest

/-- `keyPredicateOf`. -/
def keyPredicateOf (fields : Fields) (element : fields.Vals) : Option GoString :=
  match fields.keyName, fields.keyText element with
  | some name, some value => some (name ++ [61] ++ value)
  | _, _ => none

/-- `pruneList`: keep the entries whose key the datastore holds. -/
def pruneList (fields : Fields) (instances : List (GoString × GoString)) (path : GoString)
    (elements : List fields.Vals) : List fields.Vals :=
  match fields.keyName with
  | none => elements
  | some _ =>
    elements.filter fun element =>
      (fields.keyText element).any fun key => (path, key) ∈ instances

/-- The path of a list entry while the template is pruned. -/
def elementPath (fields : Fields) (path : GoString) (element : fields.Vals) : GoString :=
  match keyPredicateOf fields element with
  | some predicate => path ++ [91] ++ predicate ++ [93]
  | none => path

mutual

/-- `pruneLists` on a value.  The path of a nested list carries the predicate of
the entry around it, while the instances are collected without predicates. -/
def pruneType (instances : List (GoString × GoString)) :
    (type : GoType) → GoString → type.Val → type.Val
  | .scalar _, _, value => value
  | .struct fields, path, value => pruneFields instances fields path value
  | .pointer fields, path, value => value.map (pruneFields instances fields path)
  | .slice fields, path, elements =>
    (pruneList fields instances path elements).map fun element =>
      pruneFields instances fields (elementPath fields path element) element

def pruneFields (instances : List (GoString × GoString)) :
    (fields : Fields) → GoString → fields.Vals → fields.Vals
  | .nil, _, values => values
  | .cons tag type rest, path, (value, values) =>
    (pruneType instances type (joinPath path (join tag.path 47)) value,
      pruneFields instances rest path values)

end

/-! ## Assignment -/

/-- Change the first element that satisfies `selects`, if there is one. -/
def updateFirst {α ε : Type} (selects : α → Bool) (f : α → Except ε α) :
    List α → Option (Except ε (List α))
  | [] => none
  | element :: rest =>
    if selects element then some ((f element).map fun updated => updated :: rest)
    else (updateFirst selects f rest).map fun result =>
      result.map fun others => element :: others

/-- `appendOrSelect` followed by a change of the element: the entry keyed by the
segment, or a fresh one at the end of the list. -/
def updateElement (fields : Fields) (elements : List fields.Vals) (segment : Segment)
    (f : fields.Vals → Except Err fields.Vals) : Except Err (List fields.Vals) :=
  match fields.keyName with
  | none => .error (noKeyField segment.name)
  | some name =>
    if name ≠ segment.key then .error (noSuchKey segment.name segment.key)
    else
      match updateFirst (fun element => fields.keyText element = some segment.value) f
          elements with
      | some result => result
      | none =>
        match fields.setKey fields.zero segment.value with
        | none =>
          .error (.sentinel .routerTypeMismatch ++
            .text (": " ++ segment.name ++ "[" ++ segment.key ++ "=" ++ segment.value ++ "]"))
        | some fresh => (f fresh).map fun element => elements ++ [element]

/-- One turn of `assignPath` inside a struct. -/
def assignStruct {α : Type} (fields : Fields) (segments : List Segment) (leaf : Leaf)
    (descend : Nat → Segment → List Segment → Except Err α) : Except Err α :=
  match segments with
  | [] => .error (cannotUse (.leaf leaf) "struct")
  | first :: _ =>
    match matchField fields segments with
    | none => .error (nodeNotFound first.name)
    | some (index, tag) =>
      descend index (segments.getD (tag.path.length - 1) first)
        (segments.drop tag.path.length)

mutual

/-- `assignPath` from a field that `last` has matched. -/
def assignType : (type : GoType) → type.Val → Segment → List Segment → Leaf →
    Except Err type.Val
  | .scalar kind, _, _, segments, leaf =>
    match segments with
    | [] => coerce kind (.leaf leaf)
    | next :: _ =>
      .error (.sentinel .routerNotFound ++ .text (": " ++ next.name ++ " is not a container"))
  | .struct fields, value, _, segments, leaf =>
    assignStruct fields segments leaf fun index last rest =>
      assignField fields value index last rest leaf
  | .pointer fields, value, _, segments, leaf =>
    (assignStruct fields segments leaf fun index last rest =>
      assignField fields (value.getD fields.zero) index last rest leaf).map some
  | .slice fields, elements, last, segments, leaf =>
    if last.key = [] then .error (keyRequired last.name)
    else
      updateElement fields elements last fun element =>
        assignStruct fields segments leaf fun index last rest =>
          assignField fields element index last rest leaf

def assignField : (fields : Fields) → fields.Vals → Nat → Segment → List Segment → Leaf →
    Except Err fields.Vals
  | .nil, _, _, last, _, _ => .error (nodeNotFound last.name)
  | .cons _ type _, (value, values), 0, last, segments, leaf =>
    (assignType type value last segments leaf).map fun updated => (updated, values)
  | .cons _ _ rest, (value, values), index + 1, last, segments, leaf =>
    (assignField rest values index last segments leaf).map fun updated => (value, updated)

end

/-- `assignPath` from the root. -/
def assignPath (fields : Fields) (root : fields.Vals) (segments : List Segment) (leaf : Leaf) :
    Except Err fields.Vals :=
  assignStruct fields segments leaf fun index last rest =>
    assignField fields root index last rest leaf

/-! ## The rebuild -/

/-- An error about one path of the map. -/
def atPath {α : Type} (path : GoString) (result : Except Err α) : Except Err α :=
  match result with
  | .ok value => .ok value
  | .error err => .error (.text (path ++ ": ") ++ err)

/-- A path of the map, parsed, with its value. -/
structure Entry where
  path : GoString
  segments : List Segment
  leaf : Leaf

/-- The entries of a map in path order. -/
def parseEntries (values : Values) : Except Err (List Entry) :=
  values.toList.mapM fun entry =>
    (atPath entry.1 (parse entry.1)).map fun segments => ⟨entry.1, segments, entry.2⟩

/-- The template without the list entries that the map does not hold; an empty map
keeps the whole template. -/
def prunedTemplate (fields : Fields) (template : fields.Vals) (entries : List Entry) :
    fields.Vals :=
  if entries.isEmpty then template
  else pruneFields (entries.flatMap fun entry => listInstances [] entry.segments) fields []
    template

/-- `deviceFromValues`, for any template type. -/
def hydrate (fields : Fields) (template : fields.Vals) (values : Values) :
    Except Err fields.Vals := do
  let entries ← parseEntries values
  entries.foldlM (fun device entry =>
    atPath entry.path (assignPath fields device entry.segments entry.leaf))
    (prunedTemplate fields template entries)

/-- `deviceFromValues`. -/
def deviceFromValues (template : Model.Device) (values : Values) : Except Err Model.Device :=
  (hydrate Model.Device.fields template.toVals values).map Model.Device.ofVals

/-- `Router.Validate`. -/
def validateValues (template : Model.Device) (ctx : Option Err) (values : Values) :
    Except Err Unit :=
  match ctx with
  | some err => .error err
  | none =>
    match deviceFromValues template values with
    | .error err => .error (.text "router: validate: " ++ err)
    | .ok device =>
      match device.validate with
      | .error err => .error (.text "router: validate: " ++ err)
      | .ok () => .ok ()

end Router
end TriadSim

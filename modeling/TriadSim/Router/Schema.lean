import TriadSim.Model.Types
import TriadSim.Router.Resolve

/-!
# The schema

`internal/router/schema.go`: the tree of node names the protocol codecs walk.  It is built from
the types alone, so it is the same for every device; a tag with several segments creates the
containers it passes through.  That the schema and the walk by names agree on which nodes are
leaves is checked on the built tree.  The check is used through `nodeAgrees_of_childrenOf_eq_ok`.
-/

namespace TriadSim
namespace Router

open Go Library

/-- The kind of a schema node, with the key name of a list and the type of a leaf. -/
inductive NodeKind where
  | container
  | list (key : GoString)
  | leaf (kind : LeafKind)
  deriving DecidableEq, Repr

/-- `Node`. -/
structure Node where
  name : GoString
  kind : NodeKind
  deriving DecidableEq, Repr

/-- `schemaNode`. -/
inductive SchemaNode where
  | mk (node : Node) (children : List SchemaNode)

namespace SchemaNode

def node : SchemaNode → Node
  | mk node _ => node

def children : SchemaNode → List SchemaNode
  | mk _ children => children

end SchemaNode

/-- `child` of a node, in the list of its children. -/
def childNamed (nodes : List SchemaNode) (name : GoString) : Option SchemaNode :=
  nodes.find? fun child => child.node.name = name

/-- Replace the children of the first node with a name. -/
def replaceChildren (name : GoString) (children : List SchemaNode) :
    List SchemaNode → List SchemaNode
  | [] => []
  | child :: rest =>
    if child.node.name = name then .mk child.node children :: rest
    else child :: replaceChildren name children rest

/-- Add a node under the path of a tag, creating the containers on the way: the
loop of `addSchemaChildren` over the parts of one tag. -/
def insertAt (tag : GoString) (child : GoString → SchemaNode) (nodes : List SchemaNode) :
    List GoString → Except Err (List SchemaNode)
  | [] => .ok nodes
  | [name] =>
    match childNamed nodes name with
    | some _ => .error (.text ("schema: duplicate node " ++ tag))
    | none => .ok (nodes ++ [child name])
  | part :: rest =>
    match childNamed nodes part with
    | none => do
        let inner ← insertAt tag child [] rest
        return nodes ++ [.mk ⟨part, .container⟩ inner]
    | some existing =>
      if existing.node.kind ≠ .container then
        .error (.text ("schema: " ++ tag ++ ": ") ++ .piece (.quoted part) ++
          .text " is not a container")
      else do
        let inner ← insertAt tag child existing.children rest
        return replaceChildren part inner nodes

mutual

/-- `newSchemaNode`: the node of a field, up to its name. -/
def schemaOfType : GoType → Except Err (GoString → SchemaNode)
  | .scalar kind => .ok fun name => .mk ⟨name, .leaf kind⟩ []
  | .struct fields => do
      let children ← addSchemaChildren fields []
      return fun name => .mk ⟨name, .container⟩ children
  | .pointer fields => do
      let children ← addSchemaChildren fields []
      return fun name => .mk ⟨name, .container⟩ children
  | .slice fields =>
    match fields.keyName with
    | none => .error (.text "list has no key field")
    | some key => do
        let children ← addSchemaChildren fields []
        return fun name => .mk ⟨name, .list key⟩ children

/-- `addSchemaChildren`. -/
def addSchemaChildren : Fields → List SchemaNode → Except Err (List SchemaNode)
  | .nil, nodes => .ok nodes
  | .cons tag type rest, nodes => do
      let child ← schemaOfType type
      let extended ← insertAt (join tag.path 47) child nodes tag.path
      addSchemaChildren rest extended

end

/-- `buildSchema`: the children of the root. -/
def buildSchema (fields : Fields) : Except Err (List SchemaNode) :=
  addSchemaChildren fields []

/-- The predicate checks of `Children` for one segment. -/
def checkPredicate (segment : Segment) (kind : NodeKind) : Except Err Unit :=
  match kind with
  | .list key =>
    if segment.key = [] then .error (keyRequired segment.name)
    else if segment.key ≠ key then .error (noSuchKey segment.name segment.key)
    else .ok ()
  | _ =>
    if segment.key = [] then .ok ()
    else .error (.sentinel .routerInvalidPath ++ .text (": " ++ segment.name ++ " is not a list"))

/-- The loop of `Children`: the nodes below a path. -/
def descend (path : GoString) : List SchemaNode → List Segment → Except Err (List SchemaNode)
  | nodes, [] => .ok nodes
  | nodes, segment :: rest =>
    match childNamed nodes segment.name with
    | none => .error (nodeNotFound segment.name)
    | some child =>
      match checkPredicate segment child.node.kind with
      | .error err => .error err
      | .ok () =>
        match child.node.kind with
        | .leaf _ =>
          if rest = [] then
            .error (.sentinel .routerInvalidPath ++ .text (": " ++ path ++ " is a leaf"))
          else
            .error (.sentinel .routerNotFound ++ .text (": " ++ segment.name ++ " is a leaf"))
        | _ => descend path child.children rest

/-- The schema of the device. -/
def deviceSchema : List SchemaNode :=
  (buildSchema Model.Device.fields).toOption.getD []

theorem buildSchema_device : buildSchema Model.Device.fields = .ok deviceSchema := by
  rfl

/-- `Children`. -/
def childrenOf (path : GoString) : Except Err (List Node) :=
  if path = [] then .ok (deviceSchema.map SchemaNode.node)
  else do
    let segments ← parse path
    let nodes ← descend path deviceSchema segments
    return nodes.map SchemaNode.node

/-! ## Agreement with the types -/

/-- A name that can stand in a path: not empty, no slash and no bracket. -/
def plainName (name : GoString) : Bool :=
  name ≠ [] && !containsAny name [47, 91, 93]

/-- What a schema node below `names` says about the types: a leaf is a leaf of its
kind, and no other node is a leaf. -/
def nodeAgrees (fields : Fields) (names : List GoString) (node : Node) : Bool :=
  plainName node.name &&
    match node.kind with
    | .leaf kind => (leafAt fields (names ++ [node.name])).any fun found => found.1 = kind
    | .list key =>
      (leafAt fields (names ++ [node.name])).isNone && plainName key && !key.contains 61
    | .container => (leafAt fields (names ++ [node.name])).isNone

/-- Every node of the tree, down to a depth that covers it, agrees with the types. -/
def treeAgrees (fields : Fields) : Nat → List GoString → List SchemaNode → Bool
  | 0, _, nodes => nodes.isEmpty
  | depth + 1, names, nodes =>
    nodes.all fun child => nodeAgrees fields names child.node &&
      treeAgrees fields depth (names ++ [child.node.name]) child.children

theorem treeAgrees_deviceSchema : treeAgrees Model.Device.fields 8 [] deviceSchema = true := by
  decide +kernel

variable {fields : Fields} {depth : Nat} {names : List GoString} {nodes : List SchemaNode}
    {child : SchemaNode} {path : GoString}

theorem nodeAgrees_of_treeAgrees (hTree : treeAgrees fields depth names nodes = true)
    (hChild : child ∈ nodes) :
    nodeAgrees fields names child.node = true ∧
      ∃ below, treeAgrees fields below (names ++ [child.node.name]) child.children = true := by
  cases depth with
  | zero =>
    rw [treeAgrees, List.isEmpty_iff] at hTree
    simp [hTree] at hChild
  | succ depth =>
    rw [treeAgrees, List.all_eq_true] at hTree
    have hBoth := hTree child hChild
    rw [Bool.and_eq_true] at hBoth
    exact ⟨hBoth.1, depth, hBoth.2⟩

theorem childNamed_eq_some {name : GoString} (hChild : childNamed nodes name = some child) :
    child ∈ nodes ∧ child.node.name = name := by
  have hFound := List.find?_some hChild
  exact ⟨List.mem_of_find?_eq_some hChild, by simpa using hFound⟩

/-- The nodes below a path agree with the types below its names. -/
theorem treeAgrees_of_descend_eq_ok {segments : List Segment} {result : List SchemaNode}
    (hTree : treeAgrees fields depth names nodes = true)
    (hDescend : descend path nodes segments = .ok result) :
    ∃ below, treeAgrees fields below (names ++ segments.map Segment.name) result = true := by
  induction segments generalizing nodes depth names with
  | nil =>
    rw [descend, Except.ok.injEq] at hDescend
    subst hDescend
    exact ⟨depth, by simpa using hTree⟩
  | cons segment rest ih =>
    rw [descend] at hDescend
    split at hDescend
    · cases hDescend
    · next child hChild =>
      obtain ⟨hMem, hName⟩ := childNamed_eq_some hChild
      obtain ⟨_, below, hBelow⟩ := nodeAgrees_of_treeAgrees hTree hMem
      split at hDescend
      · cases hDescend
      · split at hDescend
        · split at hDescend <;> cases hDescend
        · obtain ⟨final, hFinal⟩ := ih hBelow hDescend
          refine ⟨final, ?_⟩
          rw [hName] at hFinal
          simpa using hFinal

/-- The segments of the path of a node whose children are listed; the root has
none. -/
def baseSegments (path : GoString) : Except Err (List Segment) :=
  if path = [] then .ok [] else parse path

theorem baseSegments_of_parse_eq_ok {segments : List Segment} (hParse : parse path = .ok segments) :
    baseSegments path = .ok segments := by
  rw [baseSegments, if_neg (path_ne_nil_of_parse_eq_ok hParse), hParse]

theorem baseSegments_eq_ok {segments : List Segment} (hBase : baseSegments path = .ok segments) :
    path = [] ∧ segments = [] ∨ path ≠ [] ∧ parse path = .ok segments := by
  unfold baseSegments at hBase
  split at hBase
  · next hRoot => exact Or.inl ⟨hRoot, (Except.ok.inj hBase).symm⟩
  · next hPath => exact Or.inr ⟨hPath, hBase⟩

/-- The children of a node, as `Children` lists them, agree with the types. -/
theorem nodeAgrees_of_childrenOf_eq_ok {nodes : List Node}
    (hChildren : childrenOf path = .ok nodes) :
    ∃ segments, baseSegments path = .ok segments ∧
      ∀ node ∈ nodes, nodeAgrees Model.Device.fields (segments.map Segment.name) node = true := by
  unfold childrenOf at hChildren
  unfold baseSegments
  split at hChildren
  · next hRoot =>
    cases hChildren
    refine ⟨[], by rw [if_pos hRoot], ?_⟩
    intro node hNode
    obtain ⟨child, hChild, rfl⟩ := List.mem_map.mp hNode
    exact (nodeAgrees_of_treeAgrees treeAgrees_deviceSchema hChild).1
  · next hPath =>
    rw [if_neg hPath]
    obtain ⟨segments, hParse, hRest⟩ := bind_eq_ok_iff.mp hChildren
    obtain ⟨found, hDescend, hNodes⟩ := bind_eq_ok_iff.mp hRest
    cases hNodes
    obtain ⟨below, hBelow⟩ := treeAgrees_of_descend_eq_ok treeAgrees_deviceSchema hDescend
    refine ⟨segments, hParse, ?_⟩
    intro node hNode
    obtain ⟨child, hChild, rfl⟩ := List.mem_map.mp hNode
    simpa using (nodeAgrees_of_treeAgrees hBelow hChild).1

end Router
end TriadSim

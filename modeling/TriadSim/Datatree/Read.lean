import TriadSim.Datatree.Edit

/-!
# Reading a datastore

`internal/datatree/read.go` and the node type of `node.go`: the leaves of a datastore are
arranged along the schema.  A container is always there, a list has the entries that some
leaf names, in the order of their keys, and a leaf is there when the datastore holds it and
the request asks for its kind.
-/

namespace TriadSim
namespace Datatree

open Go Router Store

/-- `Content`. -/
inductive Content where
  | all
  | config
  | nonconfig
  deriving DecidableEq, Repr

/-- `includeConfig`. -/
def Content.includeConfig (content : Content) : Bool :=
  content ≠ .nonconfig

/-- `includeState`. -/
def Content.includeState (content : Content) : Bool :=
  content = .all || content = .nonconfig

/-- `selected`. -/
def selected (result : Result) (content : Content) : Bool :=
  if result.writable then content.includeConfig else content.includeState

/-! ## The tree -/

mutual

/-- `Node`, by its kind.  Only a list has entries, and only a leaf has a value. -/
inductive DataNode where
  | leaf (path name : GoString) (kind : LeafKind) (value : Leaf)
  | container (path name : GoString) (children : List DataNode)
  | list (path name key : GoString) (entries : List ListNode)

/-- An entry of a list: a container that has the name and the key of its list. -/
inductive ListNode where
  | mk (path keyValue : GoString) (children : List DataNode)

end

def DataNode.name : DataNode → GoString
  | leaf _ name _ _ => name
  | container _ name _ => name
  | list _ name _ _ => name

def DataNode.path : DataNode → GoString
  | leaf path _ _ _ => path
  | container path _ _ => path
  | list path _ _ _ => path

def DataNode.children : DataNode → List DataNode
  | container _ _ children => children
  | _ => []

def ListNode.path : ListNode → GoString
  | mk path _ _ => path

def ListNode.keyValue : ListNode → GoString
  | mk _ keyValue _ => keyValue

def ListNode.children : ListNode → List DataNode
  | mk _ _ children => children

/-! ## Entries of a list -/

/-- `listEntry`. -/
structure ListEntry where
  path : GoString
  key : GoString
  deriving DecidableEq, Repr

/-- The number of segments of a path, which is zero for the root.  A path that does not
parse has none. -/
def depthOf (lead : GoString) : Option Nat :=
  if lead = [] then some 0
  else
    match parse lead with
    | .ok segments => some segments.length
    | .error _ => none

/-- The instance of a list that one path of a datastore goes through. -/
def instanceAt (lead name : GoString) (depth : Nat) (path : GoString) : Option ListEntry :=
  if !hasPrefix path (if lead = [] then [] else lead ++ [47]) then none
  else
    match parse path with
    | .error _ => none
    | .ok segments =>
      match segments[depth]? with
      | none => none
      | some segment =>
        if segment.name ≠ name || segment.key = [] then none
        else some ⟨joinPath lead segment.text, segment.value⟩

/-- `instancesOf`. -/
def instancesOf (values : Std.ExtTreeMap GoString Result) (lead name : GoString) :
    List ListEntry :=
  match depthOf lead with
  | none => []
  | some depth => (values.keys.filterMap (instanceAt lead name depth)).dedup

/-- The order of `sortEntries`. -/
def entryLess (numeric : Bool) (first second : ListEntry) : Bool :=
  match numeric, parseFloat first.key, parseFloat second.key with
  | true, some left, some right => Float64.lt left right
  | _, _, _ => decide (first.key < second.key)

/-- `sortEntries`.  A key node that is not a leaf has no kind, and counts as numeric. -/
def sortEntries (kind : NodeKind) (entries : List ListEntry) : List ListEntry :=
  let numeric : Bool := kind ≠ .leaf .string && kind ≠ .leaf .bool
  entries.insertionSort fun first second => entryLess numeric second first = false

/-! ## Building the tree -/

section Build

variable (values : Std.ExtTreeMap GoString Result) (content : Content)

/-- The node of a leaf, if the datastore holds it and the request asks for it. -/
def leafNode (path name : GoString) (kind : LeafKind) : Option DataNode :=
  match values[path]? with
  | none => none
  | some result =>
    if selected result content then some (.leaf path name kind result.value) else none

/-- The key leaf of an entry. -/
def keyNode (path key : GoString) : NodeKind → Option DataNode
  | .leaf kind => leafNode values content (joinPath path key) key kind
  | _ => none

/-- One entry of `buildEntries`: the key leaf comes first. -/
def buildEntry (build : GoString → Except Err (List DataNode)) (key : GoString)
    (keyKind : NodeKind) (entry : ListEntry) : Except Err ListNode := do
  let inner ← build entry.path
  return .mk entry.path entry.key
    ((keyNode values content entry.path key keyKind).toList ++
      inner.filter fun child => child.name ≠ key)

/-- `buildEntries`. -/
def buildEntries (build : GoString → Except Err (List DataNode)) (lead name key : GoString) :
    Except Err (List ListNode) :=
  match instancesOf values lead name with
  | [] => .ok []
  | first :: rest => do
      let entryChildren ← childrenOf first.path
      match nodeNamed entryChildren key with
      | none => .error (.text ("list " ++ name ++ " has no key node " ++ key))
      | some node =>
        (sortEntries node.kind (first :: rest)).mapM
          (buildEntry values content build key node.kind)

/-- One round of the loop of `buildChildren`. -/
def buildChild (build : GoString → Except Err (List DataNode)) (lead : GoString) (child : Node) :
    Except Err (Option DataNode) :=
  let path := joinPath lead child.name
  match child.kind with
  | .leaf kind => .ok (leafNode values content path child.name kind)
  | .container => do
      let inner ← build path
      return some (.container path child.name inner)
  | .list key => do
      let entries ← buildEntries values content build lead child.name key
      return some (.list path child.name key entries)

/-- `buildChildren`, down to some number of levels. -/
def buildChildren : Nat → GoString → Except Err (List DataNode)
  | 0, _ => .error (.text "schema: too many levels")
  | levels + 1, lead => do
      let children ← childrenOf lead
      let nodes ← children.mapM (buildChild values content (buildChildren levels) lead)
      return nodes.reduceOption

end Build

mutual

/-- The number of levels of a schema node, itself included. -/
def schemaDepth : SchemaNode → Nat
  | .mk _ children => schemaDepths children + 1

/-- The number of levels of a list of schema nodes. -/
def schemaDepths : List SchemaNode → Nat
  | [] => 0
  | node :: rest => max (schemaDepth node) (schemaDepths rest)

end

/-- The levels of the device, which bound the recursion of `buildChildren`. -/
def deviceLevels : Nat :=
  schemaDepths deviceSchema + 1

/-! ## `Read` -/

/-- `splitPrefix`. -/
def splitLead (path : GoString) : Except Err (GoString × Segment) := do
  let segments ← parse path
  match segments.getLast? with
  | none => .error (invalidPath path)
  | some last => return (pathText segments.dropLast, last)

/-- `listEntryNode`. -/
def listEntryNode (path name key : GoString) (entries : List ListNode) (segment : Segment) :
    Option DataNode :=
  (entries.find? fun entry => entry.keyValue = segment.value).map fun entry =>
    .list path name key [entry]

/-- The part of `Read` after the datastore has been collected. -/
def readNode (values : Std.ExtTreeMap GoString Result) (lead : GoString) (content : Content) :
    Except Err (Option DataNode) :=
  if lead = [] then do
    let children ← buildChildren values content deviceLevels []
    return some (.container [] [] children)
  else do
    let (parent, last) ← splitLead lead
    let children ← buildChildren values content deviceLevels parent
    match children.find? fun node => node.name = last.name with
    | some (.list path name key entries) =>
      if last.key = [] then return some (.list path name key entries)
      else return listEntryNode path name key entries last
    | found => return found

/-- `collect`. -/
def collect (r : Router) (ds : Datastore) :
    Prog (Except Err (Std.ExtTreeMap GoString Result)) :=
  mapError failed (r.values ds)

/-- `Read`. -/
def read (r : Router) (ds : Datastore) (lead : GoString) (content : Content) :
    Prog (Except Err (Option DataNode)) :=
  checkCtx <| andThen (collect r ds) fun values => .ret (readNode values lead content)

end Datatree
end TriadSim

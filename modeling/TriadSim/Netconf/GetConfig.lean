import TriadSim.Datatree.Answers
import TriadSim.Netconf.Commit
import TriadSim.Netconf.Render

/-!
# The `get-config` operation

`internal/netconf/ops/getconfig.go`: the configuration of one datastore is read as a whole and
then narrowed by the subtree filter of the request.  A request is a tree of elements, of which
the operation reads the name, the attributes, the text and the children; these are the fields
of a `Document`.

The filter is looked at where the read tree has nodes and nowhere else, and a node takes the
first filter element of its name.
-/

namespace TriadSim
namespace Netconf

open Datatree Go Router Store

/-! ## The source of the data -/

/-- `NotSupported`. -/
def notSupported (message : Err) : Err :=
  newError .protocol .operationNotSupported [] message

/-- `datastoreElement`. -/
def datastoreElement (container : Document) : Except Err Datastore :=
  match container.children with
  | [] => .error (missingElement "datastore")
  | [child] =>
    if child.name = text "running" then .ok .running
    else if child.name = text "candidate" then .ok .candidate
    else if child.name = text "startup" then .ok .startup
    else .error (unknownElement child.name)
  | _ => .error (invalidValue (.text "exactly one datastore is expected"))

/-- `sourceDatastore`. -/
def sourceDatastore (operation : Document) : Except Err Datastore :=
  match operation.child "source" with
  | none => .error (missingElement "source")
  | some source => datastoreElement source

/-! ## The filter -/

/-- `filterNode`; it has a text when there is one besides white space. -/
inductive FilterNode where
  | mk (name : GoString) (text : Option GoString) (children : List FilterNode)

namespace FilterNode

def name : FilterNode → GoString
  | mk name _ _ => name

def text : FilterNode → Option GoString
  | mk _ text _ => text

def children : FilterNode → List FilterNode
  | mk _ _ children => children

end FilterNode

mutual

/-- `filterNodeOf`. -/
def filterNodeOf : Document → FilterNode
  | .mk name text _ children =>
    .mk name (if trimSpace text = [] then none else some (trimSpace text))
      (filterNodesOf children)

/-- The loop of `filterNodeOf` and of `parseFilter`. -/
def filterNodesOf : List Document → List FilterNode
  | [] => []
  | document :: rest => filterNodeOf document :: filterNodesOf rest

end

/-- `parseFilter`: the nodes of the filter, if the request has one. -/
def parseFilter : Option Document → Except Err (Option (List FilterNode))
  | none => .ok none
  | some element =>
    match element.attr "type" with
    | none => .ok (some (filterNodesOf element.children))
    | some kind =>
      if kind = text "subtree" then .ok (some (filterNodesOf element.children))
      else .error (notSupported
        (.text "filter type " ++ .piece (.quoted kind) ++
          .text " is not supported (only subtree)"))

/-- `filterLevel`. -/
structure FilterLevel where
  active : Bool
  nodes : List FilterNode

namespace FilterLevel

/-- `selectsAll`. -/
def selectsAll (level : FilterLevel) : Bool :=
  !level.active || level.nodes.isEmpty

/-- The zero value, which selects every child. -/
def inactive : FilterLevel :=
  ⟨false, []⟩

/-- `child`: the filter node of a name, if the level has to look for one, and the level of its
children. -/
def child (level : FilterLevel) (name : GoString) : Option (Option FilterNode × FilterLevel) :=
  if level.selectsAll then some (none, inactive)
  else (level.nodes.find? fun node => node.name = name).map fun node =>
    (some node, ⟨true, node.children⟩)

end FilterLevel

/-- `ContentMatches`. -/
def contentMatches (kind : LeafKind) (s : GoString) (value : Leaf) : Bool :=
  match parseLeaf kind s with
  | .ok parsed => Leaf.goEq parsed value
  | .error _ => false

/-- A leaf passes a filter node unless the node asks for another value. -/
def FilterNode.accepts (node : FilterNode) (kind : LeafKind) (value : Leaf) : Bool :=
  node.text.all fun s => contentMatches kind s value

/-- The value that a filter node asks the key leaf of an entry for. -/
def FilterNode.keyMatches (node : FilterNode) (key : GoString) (children : List DataNode) :
    Bool :=
  match children.find? fun child => child.name = key with
  | some (.leaf _ _ kind value) => node.accepts kind value
  | _ => false

/-- `entrySelected`. -/
def entrySelected (node : Option FilterNode) (children : List DataNode) (key : GoString) : Bool :=
  match node with
  | none => true
  | some node =>
    match node.children.find? fun child => child.name = key && child.text.isSome with
    | none => true
    | some child => child.keyMatches key children

mutual

/-- One round of the loop of `pruneNodes`. -/
def pruneNode (level : FilterLevel) : DataNode → Option DataNode
  | .leaf path name kind value =>
    match level.child name with
    | none => none
    | some (matched, _) =>
      if matched.all fun node => node.accepts kind value then
        some (.leaf path name kind value)
      else none
  | .container path name children =>
    match level.child name with
    | none => none
    | some (_, childLevel) =>
      match pruneNodes childLevel children with
      | [] => none
      | inner => some (.container path name inner)
  | .list path name key entries =>
    match level.child name with
    | none => none
    | some (matched, childLevel) =>
      match pruneEntries matched childLevel key entries with
      | [] => none
      | kept => some (.list path name key kept)

/-- `pruneNodes`. -/
def pruneNodes (level : FilterLevel) : List DataNode → List DataNode
  | [] => []
  | node :: rest => (pruneNode level node).toList ++ pruneNodes level rest

/-- `pruneEntries`. -/
def pruneEntries (node : Option FilterNode) (level : FilterLevel) (key : GoString) :
    List ListNode → List ListNode
  | [] => []
  | .mk path keyValue children :: rest =>
    if entrySelected node children key then
      match pruneChildren level key children with
      | ([], []) => pruneEntries node level key rest
      | (keys, kept) => .mk path keyValue (keys ++ kept) :: pruneEntries node level key rest
    else pruneEntries node level key rest

/-- The inner loop of `pruneEntries`, together with the call of `pruneNodes` after it: the key
leaf, and what is kept of the other children. -/
def pruneChildren (level : FilterLevel) (key : GoString) :
    List DataNode → List DataNode × List DataNode
  | [] => ([], [])
  | child :: rest =>
    if child.name = key then
      (child :: (pruneChildren level key rest).1, (pruneChildren level key rest).2)
    else
      ((pruneChildren level key rest).1,
        (pruneNode level child).toList ++ (pruneChildren level key rest).2)

end

/-! ## The operation -/

/-- What the filter leaves of the nodes that have been read. -/
def narrowed (filter : Option (List FilterNode)) (nodes : List DataNode) : List DataNode :=
  match filter with
  | none => nodes
  | some elements => pruneNodes ⟨true, elements⟩ nodes

/-- The `<data>` element of a reply. -/
def dataElement (nodes : List DataNode) : XMLElement :=
  .mk [] "data" [] (renderNodes nodes [])

/-- `GetConfig`. -/
def getConfig (r : Router) (operation : Document) : Prog (Except Err XMLElement) :=
  match sourceDatastore operation with
  | .error err => .ret (.error err)
  | .ok ds =>
    match parseFilter (operation.child "filter") with
    | .error err => .ret (.error err)
    | .ok filter =>
      andThen (mapError fromDataTree (read r ds [] .config)) fun root =>
        .ret (.ok (dataElement (narrowed filter (root.elim [] DataNode.children))))

end Netconf
end TriadSim

import TriadSim.Datatree.Document
import TriadSim.Router.Ops

/-!
# Editing a datastore

`internal/datatree/edit.go`: the documents of a request are walked along the schema
and change a proposed snapshot of the datastore; the snapshot is validated as a
whole, and the difference to the original is written back in one batch.
-/

namespace TriadSim
namespace Datatree

open Go Library Router Store

/-- `Op`: the edit operations, and `none`, which only a default operation can be. -/
inductive Op where
  | merge
  | replace
  | create
  | delete
  | remove
  | none
  deriving DecidableEq, Repr

/-- `Request`. -/
structure EditRequest where
  basePath : GoString
  default : Op
  documents : List Document

/-- `parseOperationAttr`: the operation attribute of a document, if it has one. -/
def parseOperationAttr (document : Document) : Except Err (Option Op) :=
  match document.attr "operation" with
  | Option.none => .ok Option.none
  | some name =>
    if name = text "merge" then .ok (some .merge)
    else if name = text "replace" then .ok (some .replace)
    else if name = text "create" then .ok (some .create)
    else if name = text "delete" then .ok (some .delete)
    else if name = text "remove" then .ok (some .remove)
    else .error (invalidValue (.text "unknown operation " ++ .piece (.quoted name)))

/-- `listKey`: the key value of a list entry. -/
def listKey (document : Document) (keyName : GoString) : Except Err GoString :=
  let value := ((document.child keyName).map fun key => trimSpace key.text).getD []
  if value = [] then .error (missingElement (keyName ++ " of " ++ document.name))
  else if containsAny value [47, 91, 93] then
    .error (invalidValue (.text ("key " ++ keyName ++ " has an invalid value ") ++
      .piece (.quoted value)))
  else .ok value

/-- `childOperation`. -/
def childOperation : Op → Op
  | .replace => .merge
  | .create => .merge
  | op => op

/-! ## The editor -/

/-- `editor`: the proposed snapshot, and the paths configuration data may touch. -/
structure Editor where
  proposed : Values
  writable : Std.ExtTreeMap GoString Bool

namespace Editor

def isWritable (e : Editor) (path : GoString) : Bool :=
  e.writable.getD path false

/-- The writable leaves below a path. -/
def below (e : Editor) (path : GoString) : List GoString :=
  e.proposed.keys.filter fun candidate =>
    e.isWritable candidate && hasPrefix candidate (path ++ [47])

/-- `contains`. -/
def contains (e : Editor) (path : GoString) : Bool :=
  e.isWritable path || !(e.below path).isEmpty

/-- `remove`, for several paths. -/
def removeAll (e : Editor) (paths : List GoString) : Editor :=
  ⟨FinMap.eraseAll e.proposed paths, FinMap.eraseAll e.writable paths⟩

/-- `remove`. -/
def remove (e : Editor) (path : GoString) : Editor :=
  e.removeAll [path]

/-- `wipe`: the path itself goes whatever it is. -/
def wipe (e : Editor) (path : GoString) : Editor :=
  e.removeAll (e.below path ++ [path])

/-- The end of `leaf`: the path holds a value and is writable. -/
def put (e : Editor) (path : GoString) (value : Leaf) : Editor :=
  ⟨e.proposed.insert path value, e.writable.insert path true⟩

/-- `prepareSubtree`. -/
def prepareSubtree (e : Editor) (path : GoString) : Op → Except Err Editor
  | .create => if e.contains path then .error (dataExists path) else .ok e
  | .delete => if e.contains path then .ok (e.wipe path) else .error (dataMissing path)
  | .remove => .ok (e.wipe path)
  | .replace => .ok (e.wipe path)
  | .merge => .ok e
  | .none => .ok e

/-- The value a leaf document stands for: parsed as the schema says, then converted
as the router says. -/
def leafValue (r : Router) (path : GoString) (document : Document) (kind : LeafKind) :
    Except Err Leaf :=
  match parseLeaf kind (trimSpace document.text) with
  | .error err => .error (invalidValueAt path (.text (path ++ ": ") ++ err))
  | .ok value =>
    match r.convert path (.leaf value) with
    | .ok converted => .ok converted.value
    | .error err =>
      if err.is .routerReadOnly then .error (accessDenied path)
      else if err.is .routerNotFound then .error (unknownElement document.name)
      else .error (invalidValueAt path err)

/-- `leaf`. -/
def leaf (r : Router) (e : Editor) (path : GoString) (document : Document) (kind : LeafKind) :
    Op → Except Err Editor
  | .none => .ok e
  | .delete =>
    if e.isWritable path then .ok (e.remove path)
    else if path ∈ e.proposed then .error (accessDenied path)
    else .error (dataMissing path)
  | .remove =>
    if path ∈ e.proposed && !e.isWritable path then .error (accessDenied path)
    else .ok (e.remove path)
  | op => do
      let value ← leafValue r path document kind
      if op = .create && e.isWritable path then .error (dataExists path)
      else .ok (e.put path value)

/-- The path a document addresses below `base`: a list entry carries its key. -/
def addressOf (base : GoString) (document : Document) (node : Node) : Except Err GoString :=
  match node.kind with
  | .list key => do
      let value ← listKey document key
      return joinPath base document.name ++ [91] ++ key ++ [61] ++ value ++ [93]
  | _ => .ok (joinPath base document.name)

/-- What `container` and `list` share: the subtree is prepared, and unless it has gone
the children are walked. -/
def enter (e : Editor) (path name : GoString) (op : Op)
    (walkChildren : List Node → Editor → Except Err Editor) : Except Err Editor := do
  let prepared ← e.prepareSubtree path op
  if op = .delete || op = .remove then .ok prepared
  else
    match childrenOf path with
    | .error _ => .error (unknownElement name)
    | .ok nodes => walkChildren nodes prepared

mutual

/-- `walk`. -/
def walk (r : Router) : Document → GoString → List Node → Op → Editor → Except Err Editor
  | .mk name text attrs children, base, schema, inherited, e =>
    let document : Document := .mk name text attrs children
    match nodeNamed schema name with
    | Option.none => .error (unknownElement name)
    | some node => do
        let explicit ← parseOperationAttr document
        let op := explicit.getD inherited
        let path ← addressOf base document node
        match node.kind with
        | .leaf kind => leaf r e path document kind op
        | _ =>
          e.enter path name op fun nodes prepared =>
            walkAll r children path nodes (childOperation op) prepared

/-- The loop over the children of a document, and over those of a request. -/
def walkAll (r : Router) : List Document → GoString → List Node → Op → Editor →
    Except Err Editor
  | [], _, _, _, e => .ok e
  | document :: rest, base, schema, inherited, e =>
    match walk r document base schema inherited e with
    | .error err => .error err
    | .ok next => walkAll r rest base schema inherited next

end

end Editor

/-! ## The edit -/

/-- The editor at the start: the described leaves of the datastore. -/
def editorOf (results : Std.ExtTreeMap GoString Result) : Editor :=
  ⟨results.map fun _ found => found.value, results.map fun _ found => found.writable⟩

/-- The proposal of a request: its documents walked from the base path. -/
def propose (r : Router) (req : EditRequest) (start : Editor) : Except Err Editor :=
  match childrenOf req.basePath with
  | .error err => .error (failed err)
  | .ok schema => Editor.walkAll r req.documents req.basePath schema req.default start

/-- The leaves of a proposal that the original does not hold, by Go's equality. -/
def changedLeaves (original proposed : Values) : Values :=
  proposed.filter fun path value => !(original[path]?.any fun old => Leaf.goEq old value)

/-- The paths of the original that a proposal has dropped. -/
def droppedPaths (original proposed : Values) : List GoString :=
  original.keys.filter fun path => path ∉ proposed

/-- Give the error of a program another form. -/
def mapError {α : Type} (f : Err → Err) (program : Prog (Except Err α)) : Prog (Except Err α) :=
  program.bind fun
    | .error err => .ret (.error (f err))
    | .ok value => .ret (.ok value)

/-- `applyDiff`. -/
def applyDiff (r : Router) (ds : Datastore) (original proposed : Values) :
    Prog (Except Err Unit) :=
  mapError failed (r.apply ds ((changedLeaves original proposed).map fun _ value => .leaf value)
    (droppedPaths original proposed))

/-- The end of `apply`: the proposal is validated and written. -/
def validateAndWrite (r : Router) (ds : Datastore) (original proposed : Values) :
    Prog (Except Err Unit) :=
  andThen (mapError validationError (r.validateProg proposed)) fun () =>
    applyDiff r ds original proposed

/-- `apply`, which runs inside a transaction. -/
def applyBody (r : Router) (ds : Datastore) (req : EditRequest) : Prog (Except Err Unit) :=
  andThen (mapError failed (r.values ds)) fun results =>
    andThen (.ret (propose r req (editorOf results))) fun edited =>
      validateAndWrite r ds (editorOf results).proposed edited.proposed

/-- `Apply`. -/
def apply (r : Router) (ds : Datastore) (req : EditRequest) : Prog (Except Err Unit) :=
  checkCtx (transaction (applyBody r ds req))

end Datatree
end TriadSim

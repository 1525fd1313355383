import TriadSim.Datatree.Read

/-!
# Request targets

`internal/restconf/path.go` and `errors.go`: the URL of a request is split before it is
percent-decoded, and its segments are resolved one by one against the schema.
`settled_parseTarget` says what a resolved target is.
-/

namespace TriadSim
namespace Restconf

open Datatree Go Library Router Store

/-! ## Error responses -/

/-- `httpError`. -/
structure HttpError where
  status : Nat
  type : ErrorType
  tag : ErrorTag
  path : GoString
  message : List Piece
  allow : GoString
  deriving DecidableEq, Repr

/-- `newHTTPError`. -/
def newHTTPError (status : Nat) (type : ErrorType) (tag : ErrorTag) (message : Err) : HttpError :=
  ⟨status, type, tag, [], message.message, []⟩

def malformedRequest (message : Err) : HttpError :=
  newHTTPError 400 .protocol .malformedMessage message

def unknownNode (name : GoString) : HttpError :=
  newHTTPError 400 .protocol .unknownElement (.text ("unknown element: " ++ name))

def notFound (resource : GoString) : HttpError :=
  newHTTPError 404 .protocol .invalidValue (.text ("resource not found: " ++ resource))

def methodNotAllowed (allow : GoString) : HttpError :=
  { newHTTPError 405 .protocol .operationNotSupported (.text "method not allowed") with
    allow := allow }

/-- The status of a data-tree error: a rejected snapshot is told apart from a rejected
leaf value. -/
def statusOf (error : EditError) : Nat :=
  match error.tag with
  | .malformedMessage | .unknownElement | .missingElement => 400
  | .invalidValue => if error.validation then 422 else 400
  | .accessDenied => 403
  | .dataExists => 409
  | .dataMissing => 404
  | .operationNotSupported => 501
  | .tooBig => 413
  | .operationFailed | .missingAttribute => 500

/-- `asTreeError`: an error that is no data-tree error is a failure of the device. -/
def asTreeError (err : Err) : Err :=
  if err.asEdit?.isSome then err else failed err

/-- `dataTreeHTTPError`, of what `asTreeError` makes of an error. -/
def dataTreeHTTPError (err : Err) : HttpError :=
  match (asTreeError err).asEdit? with
  | some error =>
    ⟨statusOf error, error.type, error.tag, error.path, (asTreeError err).message, []⟩
  | none => newHTTPError 500 .application .operationFailed err

/-! ## Segments -/

/-- The value of a hexadecimal digit (`unhex`, `ishex`). -/
def unhex (byte : UInt8) : Option UInt8 :=
  if 48 ≤ byte && byte ≤ 57 then some (byte - 48)
  else if 97 ≤ byte && byte ≤ 102 then some (byte - 97 + 10)
  else if 65 ≤ byte && byte ≤ 70 then some (byte - 65 + 10)
  else none

/-- `url.PathUnescape`. -/
def pathUnescape : GoString → Option GoString
  | [] => some []
  | [byte] => if byte = 37 then none else some [byte]
  | [byte, last] => if byte = 37 || last = 37 then none else some [byte, last]
  | byte :: high :: low :: rest =>
    if byte = 37 then
      match unhex high, unhex low with
      | some h, some l => (pathUnescape rest).map ((h * 16 + l) :: ·)
      | _, _ => none
    else (pathUnescape (high :: low :: rest)).map (byte :: ·)

/-- `splitSegment`: the module, the name and the key value of one segment. -/
def splitSegment (part : GoString) : Except HttpError (GoString × GoString × GoString) :=
  let (rawName, rawValue) := (cut part 61).getD (part, [])
  let (rawModule, rawName) := (cut rawName 58).getD ([], rawName)
  match pathUnescape rawModule, pathUnescape rawName, pathUnescape rawValue with
  | some module, some name, some value => .ok (module, name, value)
  | _, _, _ => .error (malformedRequest
      (.text "malformed percent-encoding in " ++ .piece (.quoted part)))

/-- `ModuleFor`: the module a path belongs to, by its name. -/
def moduleFor (path : GoString) : GoString :=
  let owner (part : GoString) : Option GoString :=
    let name := ((cut part 91).map Prod.fst).getD part
    if name = text "radio-link" || name = text "modulation-profile" then some "sim-radio-link"
    else if name = text "vlans" || name = text "mac-table" || name = text "stp" ||
      name = text "lldp" then some "sim-l2-switching"
    else if name = text "ptp" || name = text "synce" then some "sim-sync"
    else none
  ((split path 47).findSome? owner).getD "sim-device"

/-! ## Addressing -/

/-- The parts of a request that address a resource: the escaped path of its URL and
its two query parameters. -/
structure Address where
  escapedPath : GoString
  datastore : GoString
  content : GoString

/-- `parseDatastore`. -/
def parseDatastore (value : GoString) : Except HttpError Datastore :=
  if value = [] || value = text "running" then .ok .running
  else if value = text "candidate" then .ok .candidate
  else if value = text "startup" then .ok .startup
  else .error (malformedRequest (.text "unknown datastore " ++ .piece (.quoted value)))

/-- `parseDatastoreIdentity`. -/
def parseDatastoreIdentity (value : GoString) : Except HttpError Datastore :=
  if value = text "ietf-datastores:running" then .ok .running
  else if value = text "ietf-datastores:candidate" then .ok .candidate
  else if value = text "sim-device:startup" then .ok .startup
  else .error (malformedRequest (.text "unknown datastore " ++ .piece (.quoted value)))

/-- `parseContent`. -/
def parseContent (value : GoString) : Except HttpError Content :=
  if value = [] || value = text "all" then .ok .all
  else if value = text "config" then .ok .config
  else if value = text "nonconfig" then .ok .nonconfig
  else .error (malformedRequest (.text "unknown content " ++ .piece (.quoted value)))

/-- `resolveAddressing`: the addressing root, the escaped data path and the datastore. -/
def resolveAddressing (address : Address) :
    Except HttpError (GoString × GoString × Datastore) :=
  let path := address.escapedPath
  if hasPrefix path "/restconf/data" then
    let rest := trimLead path "/restconf/data"
    if rest ≠ [] && !hasPrefix rest [47] then .error (notFound path)
    else do
      let datastore ← parseDatastore address.datastore
      return ("/restconf/data", rest, datastore)
  else if hasPrefix path "/restconf/ds/" then
    if address.datastore ≠ [] then
      .error (malformedRequest
        (.text "?datastore= and /restconf/ds/ address the same thing; use one"))
    else
      let rest := trimLead path "/restconf/ds/"
      let (identity, raw) := ((cut rest 47).map fun halves =>
        (halves.1, 47 :: halves.2)).getD (rest, [])
      do
        let datastore ← parseDatastoreIdentity identity
        return (text "/restconf/ds/" ++ identity, raw, datastore)
  else .error (notFound path)

/-- `target`.  Only the datastore root has no schema node. -/
structure Target where
  base : GoString
  path : GoString
  basePath : GoString
  name : GoString
  segment : Segment
  node : Option Node
  collection : Bool
  datastore : Datastore
  content : Content
  deriving DecidableEq

/-- How a segment addresses its node: the parsed segment, its canonical text, and
whether it names a list as a whole, which only the last segment may do. -/
def addressNode (node : Node) (name value : GoString) (last : Bool) :
    Except HttpError (Segment × GoString × Bool) :=
  match node.kind with
  | .list key =>
    if value = [] then
      if last then .ok (⟨name, [], []⟩, name, true)
      else .error (malformedRequest (.text ("list " ++ name ++ " is missing its key predicate")))
    else .ok (⟨name, key, value⟩, name ++ [91] ++ key ++ [61] ++ value ++ [93], false)
  | _ =>
    if value = [] then .ok (⟨name, [], []⟩, name, false)
    else .error (malformedRequest (.text (name ++ " is not a list")))

/-- The schema node a segment names below `parent`. -/
def childNode (parent name : GoString) : Except HttpError Node :=
  match childrenOf parent with
  | .error _ => .error (unknownNode name)
  | .ok children =>
    match nodeNamed children name with
    | none => .error (unknownNode name)
    | some node => .ok node

/-- The body of the loop of `parseTarget`: the target that ends in one more segment. -/
def extend (target : Target) (parent part : GoString) (last : Bool) : Except HttpError Target := do
  let (module, name, value) ← splitSegment part
  if name = [] then
    .error (malformedRequest (.text "empty node name in " ++ .piece (.quoted part)))
  else do
    let node ← childNode parent name
    let (segment, canonical, collection) ← addressNode node name value last
    let path := joinPath parent canonical
    if module ≠ [] && module ≠ moduleFor path then
      .error (malformedRequest (.text "module " ++ .piece (.quoted module) ++
        .text (" does not own " ++ name)))
    else .ok { target with basePath := parent, name, segment, node := some node, path, collection }

/-- The loop of `parseTarget`. -/
def parseParts : List GoString → Target → GoString → Except HttpError Target
  | [], target, _ => .ok target
  | part :: rest, target, parent => do
      let next ← extend target parent part rest.isEmpty
      if next.collection then .ok next else parseParts rest next next.path

/-- `strings.Trim` with a one-byte cutset. -/
def trimByte (s : GoString) (byte : UInt8) : GoString :=
  ((s.dropWhile (· = byte)).reverse.dropWhile (· = byte)).reverse

/-- `parseTarget`. -/
def parseTarget (address : Address) : Except HttpError Target := do
  let (base, raw, datastore) ← resolveAddressing address
  let content ← parseContent address.content
  let root : Target := ⟨base, [], [], [], ⟨[], [], []⟩, none, false, datastore, content⟩
  let raw := trimByte raw 47
  if raw = [] then .ok root else parseParts (split raw 47) root []

/-! ## What a target addresses -/

/-- The target is a node below its parent, and its path is the node's address. -/
structure Resolves (target : Target) (node : Node) : Prop where
  child : ∃ children, childrenOf target.basePath = .ok children ∧
    nodeNamed children target.name = some node
  list : ∀ key, node.kind = .list key → target.segment.key = key ∧
    target.path = joinPath target.basePath
      (target.name ++ [91] ++ key ++ [61] ++ target.segment.value ++ [93])
  inner : (∀ key, node.kind ≠ .list key) → target.segment.key = [] ∧
    target.path = joinPath target.basePath target.name

/-- A target with a node that is no whole list resolves to that node. -/
def Target.Settled (target : Target) : Prop :=
  ∀ node, target.node = some node → target.collection = false → Resolves target node

theorem childNode_eq_ok {parent name : GoString} {node : Node}
    (hNode : childNode parent name = .ok node) :
    ∃ children, childrenOf parent = .ok children ∧ nodeNamed children name = some node := by
  unfold childNode at hNode
  cases hChildren : childrenOf parent with
  | error err =>
    rw [hChildren] at hNode
    cases hNode
  | ok children =>
    rw [hChildren] at hNode
    dsimp only at hNode
    cases hNamed : nodeNamed children name with
    | none =>
      rw [hNamed] at hNode
      cases hNode
    | some found =>
      rw [hNamed] at hNode
      cases hNode
      exact ⟨children, rfl, hNamed⟩

/-- A segment that does not name a whole list carries the key of its node. -/
theorem addressNode_eq_ok {node : Node} {name value canonical : GoString} {last : Bool}
    {segment : Segment} (hAddress : addressNode node name value last = .ok (segment, canonical,
      false)) :
    (∀ key, node.kind = .list key → segment.key = key ∧
        canonical = name ++ [91] ++ key ++ [61] ++ segment.value ++ [93]) ∧
      ((∀ key, node.kind ≠ .list key) → segment.key = [] ∧ canonical = name) := by
  unfold addressNode at hAddress
  cases hKind : node.kind with
  | list key =>
    rw [hKind] at hAddress
    dsimp only at hAddress
    split at hAddress
    · split at hAddress <;> cases hAddress
    · cases hAddress
      refine ⟨?_, fun hOther => absurd rfl (hOther key)⟩
      rintro _ ⟨⟩
      exact ⟨rfl, rfl⟩
  | container | leaf =>
    rw [hKind] at hAddress
    dsimp only at hAddress
    split at hAddress
    · cases hAddress
      exact ⟨fun _ hList => (by cases hList), fun _ => ⟨rfl, rfl⟩⟩
    · cases hAddress

theorem settled_extend {target next : Target} {parent part : GoString} {last : Bool}
    (hExtend : extend target parent part last = .ok next) : next.Settled := by
  obtain ⟨⟨module, name, value⟩, _, hExtend⟩ := bind_eq_ok_iff.mp hExtend
  dsimp only at hExtend
  split at hExtend
  · cases hExtend
  obtain ⟨node, hNode, hExtend⟩ := bind_eq_ok_iff.mp hExtend
  obtain ⟨⟨segment, canonical, collection⟩, hAddress, hExtend⟩ := bind_eq_ok_iff.mp hExtend
  dsimp only at hExtend
  split at hExtend
  · cases hExtend
  cases hExtend
  rintro _ ⟨⟩ hSingle
  have hSingle : collection = false := hSingle
  subst hSingle
  obtain ⟨hList, hInner⟩ := addressNode_eq_ok hAddress
  refine ⟨childNode_eq_ok hNode, ?_, ?_⟩
  · intro key hKind
    obtain ⟨hKey, rfl⟩ := hList key hKind
    exact ⟨hKey, rfl⟩
  · intro hKind
    obtain ⟨hKey, rfl⟩ := hInner hKind
    exact ⟨hKey, rfl⟩

/-- The loop keeps the property: each round replaces the target by a settled one. -/
theorem settled_parseParts {parts : List GoString} {target result : Target} {parent : GoString}
    (hStart : target.Settled) (hParse : parseParts parts target parent = .ok result) :
    result.Settled := by
  induction parts generalizing target parent with
  | nil =>
    cases hParse
    exact hStart
  | cons part rest ih =>
    obtain ⟨next, hExtend, hParse⟩ := bind_eq_ok_iff.mp hParse
    have hNext := settled_extend hExtend
    split at hParse
    · cases hParse
      exact hNext
    · exact ih hNext hParse

theorem settled_parseTarget {address : Address} {target : Target}
    (hParse : parseTarget address = .ok target) : target.Settled := by
  obtain ⟨⟨base, raw, datastore⟩, _, hParse⟩ := bind_eq_ok_iff.mp hParse
  obtain ⟨content, _, hParse⟩ := bind_eq_ok_iff.mp hParse
  dsimp only at hParse
  split at hParse
  · cases hParse
    rintro node ⟨⟩
  · refine settled_parseParts ?_ hParse
    rintro node ⟨⟩

end Restconf
end TriadSim

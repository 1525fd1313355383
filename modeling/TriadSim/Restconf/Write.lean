import TriadSim.Datatree.Run
import TriadSim.Restconf.Payload
import TriadSim.Restconf.Target

/-!
# Writing a resource

`internal/restconf/ops/write.go`, `deps.go` and `handleWrite` of `server.go`: a PUT or
a PATCH is an edit rooted at the parent of its target.  The documents of the edit are
named by the body, so the edit stays inside the target only when the body names it
(`write_of_fitting_body_stays_inside_target`).
-/

namespace TriadSim
namespace Restconf

open Datatree Go Library Router Store

/-! ## The operations -/

/-- `ops.Target`. -/
structure OpsTarget where
  path : GoString
  basePath : GoString
  name : GoString
  schema : Option Node
  key : GoString
  keyValue : GoString
  collection : Bool

/-- `opsTarget`. -/
def opsTarget (target : Target) : OpsTarget :=
  ⟨target.path, target.basePath, target.name, target.node, target.segment.key,
    target.segment.value, target.collection⟩

/-- The target is a leaf. -/
def OpsTarget.isLeaf (target : OpsTarget) : Bool :=
  target.schema.any fun node =>
    match node.kind with
    | .leaf _ => true
    | _ => false

/-- `NotSupported`. -/
def notSupported (message : Err) : Err :=
  newError .protocol .operationNotSupported [] message

/-- `ensureKey`. -/
def OpsTarget.ensureKey (target : OpsTarget) (document : Document) : Except Err Document :=
  if target.key = [] then .ok document
  else
    match document.child target.key with
    | some key =>
      if trimSpace key.text ≠ target.keyValue then
        .error (invalidValueAt target.path (.text ("key " ++ target.key ++ "=" ++
          trimSpace key.text ++ " does not match the request path")))
      else .ok document
    | none =>
      .ok (.mk document.name document.text document.attrs
        (document.children ++ [leafOf target.key target.keyValue]))

/-- The document of a scalar body, for a leaf only. -/
def scalarDocument (target : OpsTarget) (payload : Payload) : Except Err Document :=
  if target.isLeaf then .ok (leafOf target.name payload.scalar)
  else .error (invalidValue (.text (target.name ++ " expects an object body")))

/-- `documentFor`. -/
def documentFor (target : OpsTarget) (payload : Payload) : Except Err Document :=
  if payload.isScalar then scalarDocument target payload
  else
    match payload.documents with
    | [document] => .ok document
    | _ => .error (invalidValue
        (.text (payload.name ++ " expects exactly one entry in the body")))

/-- `payloadDocuments`. -/
def payloadDocuments (target : OpsTarget) (payload : Payload) : Except Err (List Document) :=
  if payload.isScalar then (scalarDocument target payload).map fun document => [document]
  else if payload.documents.isEmpty then
    .error (invalidValue (.text "the request body holds no data"))
  else .ok payload.documents

/-- The two methods that write an existing or a new resource in place. -/
inductive Method where
  | put
  | patch
  deriving DecidableEq, Repr

/-- The operation a method stands for. -/
def Method.op : Method → Op
  | put => .replace
  | patch => .merge

/-- The documents of a write: what `Put` and `Patch` do before they apply the edit. -/
def documentsOf (target : OpsTarget) (payload : Payload) : Method → Except Err (List Document)
  | .put =>
    if target.collection then
      .error (notSupported (.text ("PUT is not supported on the list " ++ target.name)))
    else do
      let document ← documentFor target payload
      let keyed ← target.ensureKey document
      return [keyed]
  | .patch => do
      let documents ← payloadDocuments target payload
      documents.mapM target.ensureKey

/-- The edit of a write. -/
def editOf (target : OpsTarget) (method : Method) (documents : List Document) : EditRequest :=
  ⟨target.basePath, method.op, documents⟩

/-- `Put` and `Patch`. -/
def write (r : Router) (ds : Datastore) (target : OpsTarget) (payload : Payload)
    (method : Method) : Prog (Except Err Unit) :=
  match documentsOf target payload method with
  | .error err => .ret (.error err)
  | .ok documents => mapError asTreeError (Datatree.apply r ds (editOf target method documents))

/-- `checkWritable`, for the two methods. -/
def checkWritable (target : Target) (method : Method) : Except HttpError Unit :=
  if target.datastore = .startup then .error (methodNotAllowed "GET, HEAD")
  else if method = .put && target.collection then
    .error (methodNotAllowed "GET, HEAD, PATCH, POST, DELETE")
  else .ok ()

/-- `handleWrite`.  The verdict on the conditional headers is whatever it is: it reads
the store and can only turn the request down. -/
def handleWrite (r : Router) (target : Target) (method : Method)
    (preconditions : Except HttpError Unit) (body : Body) : Prog (Except HttpError Unit) :=
  match checkWritable target method, preconditions, decode body with
  | .error err, _, _ => .ret (.error err)
  | .ok (), .error err, _ => .ret (.error err)
  | .ok (), .ok (), .error err => .ret (.error (dataTreeHTTPError err))
  | .ok (), .ok (), .ok payload =>
    (write r target.datastore (opsTarget target) payload method).bind fun
      | .error err => .ret (.error (dataTreeHTTPError err))
      | .ok () => .ret (.ok ())

/-! ## What a write touches -/

/-- The body fits the target: it names the target and identifies a list entry by the
key as the URL has it, or it cannot be taken for a sibling of the target. -/
def Fits (target : OpsTarget) (payload : Payload) : Prop :=
  (payload.name = target.name ∧
      (trimSpace target.keyValue = target.keyValue ∨
        ∀ document ∈ payload.documents, (document.child target.key).isSome = true)) ∨
    (payload.isScalar = false ∧ ∀ children, childrenOf target.basePath = .ok children →
      nodeNamed children payload.name = none)

theorem Document.child_append {name text keyName : GoString} {attrs : List (GoString × GoString)}
    {children : List Document} {added : Document}
    (hAbsent : (Document.mk name text attrs children).child keyName = none)
    (hName : added.name = keyName) :
    (Document.mk name text attrs (children ++ [added])).child keyName = some added := by
  have hNone : children.find? (fun child => child.name = keyName) = none := hAbsent
  show (children ++ [added]).find? (fun child => child.name = keyName) = some added
  rw [List.find?_append, hNone]
  simp [hName]

/-- A write reaches the shared editor with the documents of its body: the method is allowed on
the resource, the conditional headers hold, and the body gives documents. -/
structure Reaches (target : Target) (method : Method) (preconditions : Except HttpError Unit)
    (body : Body) (payload : Payload) (documents : List Document) : Prop where
  writable : checkWritable target method = .ok ()
  unconditional : preconditions = .ok ()
  decoded : decode body = .ok payload
  documented : documentsOf (opsTarget target) payload method = .ok documents

variable {target : OpsTarget} {document : Document} {payload : Payload} {documents : List Document}
    {method : Method}

/-- A document that has passed `ensureKey` keeps its name and carries the key of the
target, up to the white space an edit trims. -/
theorem ensureKey_eq_ok {keyed : Document} (hKeyed : target.ensureKey document = .ok keyed) :
    keyed.name = document.name ∧ (target.key ≠ [] → ∃ key, keyed.child target.key = some key ∧
      (trimSpace key.text = target.keyValue ∨
        (document.child target.key = none ∧ key.text = target.keyValue))) := by
  unfold OpsTarget.ensureKey at hKeyed
  by_cases hKey : target.key = []
  · rw [if_pos hKey] at hKeyed
    cases hKeyed
    exact ⟨rfl, fun hSome => absurd hKey hSome⟩
  rw [if_neg hKey] at hKeyed
  cases hChild : document.child target.key with
  | some key =>
    rw [hChild] at hKeyed
    dsimp only at hKeyed
    split at hKeyed
    · cases hKeyed
    · next hMatches =>
      cases hKeyed
      exact ⟨rfl, fun _ => ⟨key, hChild, Or.inl (not_not.mp hMatches)⟩⟩
  | none =>
    rw [hChild] at hKeyed
    cases hKeyed
    cases document with
    | mk name text attrs children =>
      exact ⟨rfl, fun _ => ⟨_, Document.child_append hChild rfl, Or.inr ⟨rfl, rfl⟩⟩⟩

/-- Where the documents of a write come from: a scalar body gives a leaf named like the
target, any other body its own documents. -/
def Source (target : OpsTarget) (payload : Payload) (document : Document) : Prop :=
  (payload.isScalar = true ∧ target.isLeaf = true ∧
      document = leafOf target.name payload.scalar) ∨
    (payload.isScalar = false ∧ document ∈ payload.documents)

theorem source_of_documentFor_eq_ok (hDocument : documentFor target payload = .ok document) :
    Source target payload document := by
  unfold documentFor scalarDocument at hDocument
  split at hDocument
  · next hScalar =>
    split at hDocument
    · next hLeaf =>
      cases hDocument
      exact Or.inl ⟨hScalar, hLeaf, rfl⟩
    · cases hDocument
  · next hObject =>
    split at hDocument
    · next found hDocuments =>
      cases hDocument
      exact Or.inr ⟨by simpa using hObject, by rw [hDocuments]; exact List.mem_singleton_self _⟩
    · cases hDocument

theorem source_of_payloadDocuments_eq_ok
    (hDocuments : payloadDocuments target payload = .ok documents) :
    documents ≠ [] ∧ ∀ document ∈ documents, Source target payload document := by
  unfold payloadDocuments scalarDocument at hDocuments
  split at hDocuments
  · next hScalar =>
    split at hDocuments
    · next hLeaf =>
      cases hDocuments
      refine ⟨List.cons_ne_nil _ _, ?_⟩
      intro document hMem
      exact Or.inl ⟨hScalar, hLeaf, List.mem_singleton.mp hMem⟩
    · cases hDocuments
  · next hObject =>
    split at hDocuments
    · cases hDocuments
    · next hSome =>
      cases hDocuments
      refine ⟨by simpa using hSome, ?_⟩
      intro document hMem
      exact Or.inr ⟨by simpa using hObject, hMem⟩

/-- A write has at least one document, and each is a document of its body with the key
of the target ensured. -/
theorem documentsOf_eq_ok (hDocuments : documentsOf target payload method = .ok documents) :
    documents ≠ [] ∧ ∀ keyed ∈ documents, ∃ document,
      Source target payload document ∧ target.ensureKey document = .ok keyed := by
  cases method with
  | put =>
    simp only [documentsOf] at hDocuments
    split at hDocuments
    · cases hDocuments
    obtain ⟨document, hDocument, hDocuments⟩ := bind_eq_ok_iff.mp hDocuments
    obtain ⟨keyed, hKeyed, hDocuments⟩ := bind_eq_ok_iff.mp hDocuments
    cases hDocuments
    refine ⟨List.cons_ne_nil _ _, ?_⟩
    intro found hMem
    rw [List.mem_singleton.mp hMem]
    exact ⟨document, source_of_documentFor_eq_ok hDocument, hKeyed⟩
  | patch =>
    obtain ⟨sources, hSources, hKeyed⟩ := bind_eq_ok_iff.mp hDocuments
    obtain ⟨hNonempty, hSource⟩ := source_of_payloadDocuments_eq_ok hSources
    have hPaired := mapM_eq_ok_iff.mp hKeyed
    refine ⟨?_, ?_⟩
    · rintro rfl
      exact hNonempty (List.forall₂_nil_right_iff.mp hPaired)
    · intro keyed hMem
      obtain ⟨document, hDocument, hEnsured⟩ := exists_of_mem_right hPaired hMem
      exact ⟨document, hSource document hDocument, hEnsured⟩

/-- A document of a fitting body that names a child of the target's parent at all is
addressed at the target. -/
theorem address_eq_path {target : Target} {node found : Node} {keyed : Document}
    {children : List Node} {root : GoString} (hTargetNode : target.node = some node)
    (hResolves : Resolves target node) (hChildren : childrenOf target.basePath = .ok children)
    (hFits : Fits (opsTarget target) payload) (hUniform : payload.Uniform)
    (hSource : Source (opsTarget target) payload document)
    (hKeyed : (opsTarget target).ensureKey document = .ok keyed)
    (hFound : nodeNamed children keyed.name = some found)
    (hAddress : Editor.addressOf target.basePath keyed found = .ok root) :
    found = node ∧ root = target.path := by
  obtain ⟨hName, hKey⟩ := ensureKey_eq_ok hKeyed
  obtain ⟨_, hAgain, hNode⟩ := hResolves.child
  rw [hChildren, Except.ok.injEq] at hAgain
  subst hAgain
  -- Only the first way of fitting leaves a document that names a child.
  have hNamed : keyed.name = target.name ∧ (trimSpace target.segment.value =
      target.segment.value ∨ (document.child target.segment.key).isSome = true ∨
        payload.isScalar = true) := by
    rcases hSource with ⟨hScalar, hLeaf, rfl⟩ | ⟨hObject, hMem⟩
    · exact ⟨hName, Or.inr (Or.inr hScalar)⟩
    · rw [hUniform document hMem] at hName
      rcases hFits with ⟨hSame, hTrim | hCarries⟩ | ⟨_, hUnknown⟩
      · exact ⟨hName.trans hSame, Or.inl hTrim⟩
      · exact ⟨hName.trans hSame, Or.inr (Or.inl (hCarries document hMem))⟩
      · rw [hName, hUnknown children hChildren] at hFound
        cases hFound
  obtain ⟨hTarget, hValue⟩ := hNamed
  rw [hTarget, hNode, Option.some.injEq] at hFound
  subst hFound
  refine ⟨rfl, ?_⟩
  unfold Editor.addressOf at hAddress
  cases hKind : node.kind with
  | list key =>
    obtain ⟨hSegment, hPath⟩ := hResolves.list key hKind
    simp only [hKind] at hAddress
    obtain ⟨value, hListKey, hRoot⟩ := bind_eq_ok_iff.mp hAddress
    cases hRoot
    have hSomeKey : target.segment.key ≠ [] :=
      hSegment ▸ key_ne_nil_of_childrenOf_eq_ok hChildren (nodeNamed_eq_some hNode).1 hKind
    obtain ⟨found, hChild, hText⟩ := hKey hSomeKey
    have hChild : keyed.child key = some found := by
      rw [← hSegment]
      exact hChild
    have hTrimmed : trimSpace found.text = target.segment.value := by
      rcases hText with hText | ⟨hAbsent, hText⟩
      · exact hText
      · have hAbsent : document.child target.segment.key = none := hAbsent
        have hText : found.text = target.segment.value := hText
        rcases hValue with hTrim | hCarries | hScalar
        · rw [hText, hTrim]
        · rw [hAbsent] at hCarries
          cases hCarries
        · rcases hSource with ⟨_, hLeaf, _⟩ | ⟨hObject, _⟩
          · simp [OpsTarget.isLeaf, opsTarget, hTargetNode, hKind] at hLeaf
          · rw [hObject] at hScalar
            cases hScalar
    obtain ⟨hListValue, _⟩ := listKey_eq_ok hListKey
    rw [hChild, Option.map_some, Option.getD_some, hTrimmed] at hListValue
    rw [hPath, hListValue, hTarget]
    simp only [joinPath_append]
  | container | leaf =>
    simp only [hKind] at hAddress
    cases hAddress
    rw [(hResolves.inner (by simp [hKind])).2, hTarget]

/-- The edit of a fitting body names nothing outside the target. -/
theorem covers_of_names {target : Target} {node : Node} {path : GoString}
    (hTargetNode : target.node = some node) (hResolves : Resolves target node)
    (hFits : Fits (opsTarget target) payload) (hUniform : payload.Uniform)
    (hDocuments : documentsOf (opsTarget target) payload method = .ok documents)
    (hNames : (editOf (opsTarget target) method documents).Names path) :
    Covers node target.path path := by
  obtain ⟨children, hChildren, keyed, hMem, found, root, hFound, hAddress, hCovers⟩ := hNames
  obtain ⟨document, hSource, hKeyed⟩ := (documentsOf_eq_ok hDocuments).2 keyed hMem
  obtain ⟨rfl, rfl⟩ := address_eq_path hTargetNode hResolves hChildren hFits hUniform hSource
    hKeyed hFound hAddress
  exact hCovers

/-- An edit whose first document names no child of the base path is refused. -/
theorem propose_ne_ok_of_unknown {r : Router} {req : EditRequest} {start edited : Editor}
    (hNonempty : req.documents ≠ [])
    (hUnknown : ∀ document ∈ req.documents, ∀ children, childrenOf req.basePath = .ok children →
      nodeNamed children document.name = none) : propose r req start ≠ .ok edited := by
  intro hPropose
  unfold propose at hPropose
  cases hChildren : childrenOf req.basePath with
  | error err =>
    rw [hChildren] at hPropose
    cases hPropose
  | ok children =>
    rw [hChildren] at hPropose
    cases hDocuments : req.documents with
    | nil => exact hNonempty hDocuments
    | cons document rest =>
      have hMem : document ∈ req.documents := by
        rw [hDocuments]
        exact List.mem_cons_self
      have hNone := hUnknown document hMem children hChildren
      rw [hDocuments] at hPropose
      cases document with
      | mk name text attrs below =>
        have hNone : nodeNamed children name = none := hNone
        dsimp only at hPropose
        rw [Editor.walkAll, Editor.walk] at hPropose
        simp only [hNone] at hPropose
        cases hPropose

/-- No edit of a fitting body with another name than the target's is accepted. -/
theorem name_eq_of_accepts {r : Router} {content : Values} {edited : Editor}
    (hFits : Fits target payload) (hUniform : payload.Uniform)
    (hDocuments : documentsOf target payload method = .ok documents)
    (hAccepts : Accepts r (editOf target method documents) content edited) :
    payload.name = target.name := by
  obtain ⟨hNonempty, hSources⟩ := documentsOf_eq_ok hDocuments
  rcases hFits with ⟨hName, _⟩ | ⟨hObject, hUnknown⟩
  · exact hName
  · obtain ⟨results, _, hPropose⟩ := hAccepts.proposed
    refine absurd hPropose (propose_ne_ok_of_unknown hNonempty ?_)
    intro keyed hMem children hChildren
    obtain ⟨document, ⟨hScalar, _⟩ | ⟨_, hSource⟩, hKeyed⟩ := hSources keyed hMem
    · rw [hObject] at hScalar
      cases hScalar
    · rw [(ensureKey_eq_ok hKeyed).1, hUniform document hSource]
      exact hUnknown children hChildren

section Ensures

variable {json : Json} {opts : Options} {machine : Machine json} {r : Router}

/-- What a write leaves behind: an error leaves the contents alone, and a success is
the success of the edit its body stands for. -/
def Written (r : Router) (target : Target) (method : Method)
    (preconditions : Except HttpError Unit) (body : Body) (before : Machine json) :
    Except HttpError Unit → Machine json → Prop
  | .error _, after => after.contents = before.contents
  | .ok (), after => ∃ payload documents,
      Reaches target method preconditions body payload documents ∧
      Edited r target.datastore (editOf (opsTarget target) method documents) before (.ok ()) after

theorem ensures_handleWrite (target : Target) (method : Method)
    (preconditions : Except HttpError Unit) (body : Body) :
    (handleWrite r target method preconditions body).Ensures opts
      (Written r target method preconditions body machine) machine := by
  unfold handleWrite
  split
  · exact rfl
  · exact rfl
  · exact rfl
  · next payload hWritable hDecode =>
    unfold write
    cases hDocuments : documentsOf (opsTarget target) payload method with
    | error err => exact rfl
    | ok documents =>
      have hEdit : (mapError asTreeError (Datatree.apply r target.datastore
          (editOf (opsTarget target) method documents))).Ensures opts
          (Edited r target.datastore (editOf (opsTarget target) method documents) machine)
          machine := by
        refine ensures_mapError (ensures_apply.mono ?_)
        intro result after hEdited
        cases result with
        | error err | ok done => exact hEdited
      refine Program.Ensures.bind hEdit ?_
      intro result after hEdited
      cases result with
      | error err => exact hEdited
      | ok done =>
        exact ⟨payload, documents, ⟨hWritable, rfl, hDecode, hDocuments⟩, hEdited⟩

end Ensures

/-- A PUT or PATCH whose body fits its target, if it reaches the shared editor, changes no leaf
of the datastore outside the target, and is rejected, with all datastores as they were, when the
body has another name than the target.  Of the other datastores only candidate changes, as the
mirror of running, and outside the target only where running holds a value that Go does not find
equal to itself. -/
theorem write_of_fitting_body_stays_inside_target {json : Json} (opts : Options) (r : Router)
    (address : Address) (target : Target) (node : Node) (method : Method)
    (preconditions : Except HttpError Unit) (body : Body) (env : Nat → CallEnv)
    (machine : Machine json) (hTarget : parseTarget address = .ok target)
    (hNode : target.node = some node) (hSingle : target.collection = false)
    (hFits : ∀ payload documents, Reaches target method preconditions body payload documents →
      Fits (opsTarget target) payload) :
    let done := (handleWrite r target method preconditions body).run opts env machine
    (done.1 = .ok () → ∃ old new, machine.memory.datastore target.datastore = .ok old ∧
        done.2.memory.datastore target.datastore = .ok new ∧
        (∀ path : GoString, new[path]? ≠ old[path]? → Covers node target.path path) ∧
        ∀ other before after, other ≠ target.datastore →
          machine.memory.datastore other = .ok before → done.2.memory.datastore other = .ok after →
          ∀ path : GoString, after[path]? ≠ before[path]? →
            target.datastore = .running ∧ other = .candidate ∧
              (Covers node target.path path ∨
                ∃ value, old[path]? = some value ∧ Leaf.goEq value value = false)) ∧
      (∀ payload, decode body = .ok payload → payload.name ≠ target.name →
        ∃ err, done.1 = .error err) ∧
      ∀ err, done.1 = .error err → done.2.contents = machine.contents := by
  intro done
  have hWritten : Written r target method preconditions body machine done.1 done.2 :=
    (ensures_handleWrite target method preconditions body).run env
  have hResolves := settled_parseTarget hTarget node hNode hSingle
  refine ⟨?_, ?_, ?_⟩
  · intro hOk
    rw [hOk] at hWritten
    obtain ⟨payload, documents, hReaches, content, edited, hContent, hAccepts, hAfter⟩ := hWritten
    have hNew := datastore_of_contents_eq_edit hContent hAfter
    have hNamed : ∀ path, (editOf (opsTarget target) method documents).Names path →
        Covers node target.path path :=
      fun path => covers_of_names hNode hResolves (hFits payload documents hReaches)
        (uniform_of_decode_eq_ok hReaches.decoded) hReaches.documented
    refine ⟨content, written content edited.proposed, hContent, hNew,
      fun path hDiffers => hNamed path (hAccepts.written.2.1 path hDiffers), ?_⟩
    intro other before after hOther hBefore hLater path hDiffers
    rcases mirrored_of_contents_eq_edit hOther hBefore hLater hAfter with
      rfl | ⟨hRunning, hMirror, rfl⟩
    · exact absurd rfl hDiffers
    · exact ⟨hRunning, hMirror, (hAccepts.mirrored hDiffers).imp_left (hNamed path)⟩
  · intro payload hDecode hOther
    cases hResult : done.1 with
    | error err => exact ⟨err, rfl⟩
    | ok value =>
      rw [hResult] at hWritten
      obtain ⟨found, documents, hReaches, content, edited, _, hAccepts, _⟩ := hWritten
      cases hDecode.symm.trans hReaches.decoded
      exact absurd (name_eq_of_accepts (hFits payload documents hReaches)
        (uniform_of_decode_eq_ok hDecode) hReaches.documented hAccepts) hOther
  · intro err hError
    rw [hError] at hWritten
    exact hWritten

/-- A container of the device as a target on running. -/
def containerTarget (name : GoString) : Target :=
  ⟨"/restconf/data", name, [], name, ⟨name, [], []⟩, some ⟨name, .container⟩, false, .running,
    .all⟩

/-- A body that gives one member of a container a text value. -/
def containerBody (container leaf value : GoString) : Body :=
  .json (.document (.object [(container, .object [(leaf, .string value)])]))

theorem patch_of_system_info_stays_inside_target :
    let done := (handleWrite defaultRouter (containerTarget "system-info") .patch (.ok ())
      (containerBody "system-info" "description" "lab")).run (defaultRouter.options [])
        (fun _ => CallEnv.quiet) (machineWith bareContent)
    ∃ old new, (machineWith bareContent).memory.datastore .running = .ok old ∧
      done.2.memory.datastore .running = .ok new ∧
      ∀ path : GoString, new[path]? ≠ old[path]? →
        Covers ⟨"system-info", .container⟩ "system-info" path := by
  obtain ⟨old, new, hOld, hNew, hInside, _⟩ :=
    (write_of_fitting_body_stays_inside_target (defaultRouter.options []) defaultRouter
      ⟨"/restconf/data/sim-device:system-info", [], []⟩ (containerTarget "system-info")
      ⟨"system-info", .container⟩ .patch (.ok ())
      (containerBody "system-info" "description" "lab") (fun _ => CallEnv.quiet)
      (machineWith bareContent) (by decide +kernel) rfl rfl (by
        intro payload documents hReaches
        have hName : (decode (containerBody "system-info" "description" "lab")).map Payload.name =
            .ok (text "system-info") := by decide +kernel
        rw [hReaches.decoded] at hName
        exact Or.inl ⟨Except.ok.inj hName, Or.inl (by decide)⟩)).1 (by decide +kernel)
  exact ⟨old, new, hOld, hNew, hInside⟩

/-- A PUT on the MAC table with a body that names its sibling is accepted and writes the
sibling. -/
theorem put_on_mac_table_writes_system_info :
    let done := (handleWrite defaultRouter (containerTarget "mac-table") .put (.ok ())
      (containerBody "system-info" "description" "lab")).run (defaultRouter.options [])
        (fun _ => CallEnv.quiet) (machineWith bareContent)
    parseTarget ⟨"/restconf/data/sim-l2-switching:mac-table", [], []⟩ =
        .ok (containerTarget "mac-table") ∧
      done.1 = .ok () ∧
      (machineWith bareContent).memory.running[text "system-info/description"]? = none ∧
      done.2.memory.running[text "system-info/description"]? = some (.string "lab") ∧
      ¬ Covers ⟨"mac-table", .container⟩ "mac-table" "system-info/description" := by
  refine ⟨by decide +kernel, by decide +kernel, by decide +kernel, by decide +kernel, ?_⟩
  rw [covers_inner_iff (fun kind hKind => by cases hKind), Below]
  decide

end Restconf
end TriadSim

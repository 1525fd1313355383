import TriadSim.Netconf.GetConfig

/-!
# The names of a subtree filter

`GetConfig` reads the datastore, takes from the tree what the filter names and drops the rest. An
element of the filter that names nothing in the tree is not noticed, whether the schema has such a
node or not, so that the only unknown-element of the operation is about its source.  The main
result is `misnamed_filter_answer_iff`.
-/

namespace TriadSim

open Go Library Router Store

/-! ## Errors that are no data-tree errors -/

@[simp] theorem Err.asEdit?_append (first second : Err) :
    (first ++ second).asEdit? = first.asEdit?.or second.asEdit? := by
  show (first.wraps ++ second.wraps).findSome? _ = _
  rw [List.findSome?_append]
  rfl

@[simp] theorem Err.asEdit?_text (s : GoString) : (Err.text s).asEdit? = none :=
  rfl

@[simp] theorem Err.asEdit?_piece (p : Piece) : (Err.piece p).asEdit? = none :=
  rfl

@[simp] theorem Err.asEdit?_asText (err : Err) : err.asText.asEdit? = none :=
  rfl

/-- If a computation fails, then not with a data-tree error. -/
def Untagged {α : Type} (result : Except Err α) : Prop :=
  ∀ err, result = .error err → err.asEdit? = none

theorem Untagged.ok {α : Type} (value : α) : Untagged (.ok value : Except Err α) := by
  intro err hError
  cases hError

theorem Untagged.error {α : Type} {err : Err} (hErr : err.asEdit? = none) :
    Untagged (.error err : Except Err α) := by
  intro other hError
  cases hError
  exact hErr

theorem Untagged.bind {α β : Type} {first : Except Err α} {next : α → Except Err β}
    (hFirst : Untagged first) (hNext : ∀ value, Untagged (next value)) :
    Untagged (first >>= next) := by
  cases first with
  | error err => exact Untagged.error (hFirst err rfl)
  | ok value => exact hNext value

theorem Untagged.mapM {α β : Type} {f : α → Except Err β} {inputs : List α}
    (hEach : ∀ input, Untagged (f input)) : Untagged (inputs.mapM f) := by
  induction inputs with
  | nil => exact Untagged.ok []
  | cons input rest ih =>
    rw [List.mapM_cons]
    exact (hEach input).bind fun output => ih.bind fun outputs => Untagged.ok _

namespace Router

theorem untagged_parse (s : GoString) : Untagged (parse s) := by
  unfold parse
  split
  · exact Untagged.error (by decide)
  · split
    · exact Untagged.error (by simp [invalidPath]; decide)
    · split
      · exact Untagged.ok _
      · exact Untagged.error (by simp [invalidPath]; decide)

theorem untagged_checkPredicate (segment : Segment) (kind : NodeKind) :
    Untagged (checkPredicate segment kind) := by
  unfold checkPredicate
  split
  · split
    · exact Untagged.error (by simp [keyRequired]; decide)
    · split
      · exact Untagged.error (by simp [noSuchKey]; decide)
      · exact Untagged.ok ()
  · split
    · exact Untagged.ok ()
    · exact Untagged.error (by simp; decide)

theorem untagged_descend (path : GoString) (segments : List Segment) :
    ∀ nodes, Untagged (descend path nodes segments) := by
  induction segments with
  | nil => exact fun nodes => Untagged.ok nodes
  | cons segment rest ih =>
    intro nodes
    unfold descend
    split
    · exact Untagged.error (by simp [nodeNotFound]; decide)
    · next child _ =>
      split
      · next err hPredicate =>
        exact Untagged.error (untagged_checkPredicate segment child.node.kind err hPredicate)
      · split
        · split
          · exact Untagged.error (by simp; decide)
          · exact Untagged.error (by simp; decide)
        · exact ih child.children

theorem untagged_childrenOf (path : GoString) : Untagged (childrenOf path) := by
  unfold childrenOf
  split
  · exact Untagged.ok _
  · exact (untagged_parse path).bind fun segments =>
      (untagged_descend path segments deviceSchema).bind fun nodes => Untagged.ok _

end Router

namespace Datatree

section Build

variable (values : Std.ExtTreeMap GoString Result) (content : Content)
  {build : GoString → Except Err (List DataNode)}

theorem untagged_buildEntries (hBuild : ∀ lead, Untagged (build lead)) (lead name key : GoString) :
    Untagged (buildEntries values content build lead name key) := by
  unfold buildEntries
  split
  · exact Untagged.ok []
  · refine (untagged_childrenOf _).bind fun entryChildren => ?_
    split
    · exact Untagged.error rfl
    · exact Untagged.mapM fun entry => (hBuild entry.path).bind fun inner => Untagged.ok _

theorem untagged_buildChild (hBuild : ∀ lead, Untagged (build lead)) (lead : GoString)
    (child : Node) : Untagged (buildChild values content build lead child) := by
  unfold buildChild
  dsimp only
  split
  · exact Untagged.ok _
  · exact (hBuild _).bind fun inner => Untagged.ok _
  · exact (untagged_buildEntries values content hBuild _ _ _).bind fun entries => Untagged.ok _

theorem untagged_buildChildren (levels : Nat) :
    ∀ lead, Untagged (buildChildren values content levels lead) := by
  induction levels with
  | zero => exact fun lead => Untagged.error rfl
  | succ levels ih =>
    intro lead
    exact (untagged_childrenOf lead).bind fun children =>
      (Untagged.mapM (untagged_buildChild values content ih lead)).bind fun nodes =>
        Untagged.ok _

end Build

end Datatree

namespace Netconf

open Datatree

/-- The answer of an operation is an error with a tag. -/
def Answers {α : Type} (tag : ErrorTag) (result : Except Err α) : Prop :=
  ∃ err, result = .error err ∧ err.tag? = some tag

@[simp] theorem answers_ok {α : Type} (tag : ErrorTag) (value : α) :
    Answers tag (.ok value : Except Err α) ↔ False := by
  simp [Answers]

@[simp] theorem answers_error {α : Type} (tag : ErrorTag) (err : Err) :
    Answers tag (.error err : Except Err α) ↔ err.tag? = some tag := by
  simp [Answers]

@[simp] theorem tag?_newError (type : ErrorType) (tag : ErrorTag) (path : GoString)
    (message : Err) : (newError type tag path message).tag? = some tag :=
  rfl

/-- A program ends in some result. -/
theorem ensures_true {Env State α : Type}
    {handle : Program.Handler Request Request.Response Env State} (program : Prog α) :
    ∀ state, Program.Ensures handle program (fun _ _ => True) state := by
  induction program with
  | ret value => exact fun _ => trivial
  | call request next ih => exact fun state env => ih _ _
  | acquire lock next ih | release lock next ih => exact ih

theorem not_answers_of_untagged {α : Type} {result : Except Err α} (hResult : Untagged result)
    (tag : ErrorTag) : ¬ Answers tag result := by
  rintro ⟨err, hError, hTag⟩
  rw [Err.tag?, hResult err hError] at hTag
  cases hTag

/-- The surroundings of a call whose context ends with an error of package `context`. -/
abbrev PlainEnv := {env : CallEnv // ∀ err, env.ctx = some err → err.asEdit? = none}

/-- The read of a whole datastore fails with an error of the context or of the schema, or
because the store has failed. -/
theorem ensures_read_root {json : Json} (opts : Options) (r : Router) (ds : Datastore)
    (machine : Machine json) :
    Program.Ensures (fun env : PlainEnv => Machine.handle opts env.1) (read r ds [] .config)
      (fun result _ => ¬ Answers .unknownElement result) machine := by
  rintro ⟨env, hPlain⟩
  generalize hCtx : (Machine.handle opts env .ctxErr machine).1 = ctx
  cases ctx with
  | some err => exact not_answers_of_untagged (Untagged.error (hPlain err hCtx)) _
  | none =>
    have hCollect : Program.Ensures (fun env : PlainEnv => Machine.handle opts env.1)
        (collect r ds) (fun result _ => ¬ Answers .unknownElement result) machine := by
      refine Program.Ensures.bind (ensures_true (r.values ds) machine) ?_
      intro result after _
      cases result with
      | error err => simp [failed, Program.Ensures]
      | ok values => exact not_answers_of_untagged (Untagged.ok values) _
    refine Program.Ensures.bind hCollect ?_
    intro result after hResult
    cases result with
    | error err =>
      rw [answers_error] at hResult
      exact fun hAnswers => hResult ((answers_error _ err).mp hAnswers)
    | ok values =>
      refine not_answers_of_untagged ?_ _
      exact (untagged_buildChildren values .config deviceLevels []).bind fun children =>
        Untagged.ok _

/-! ## The names of a filter -/

mutual

/-- A filter element, or one inside of it, has a name that is not the name of a schema child of
the node around it. -/
def misnamed (nodes : List SchemaNode) : FilterNode → Bool
  | .mk name _ children =>
    match childNamed nodes name with
    | none => true
    | some child => misnamedAny child.children children

def misnamedAny (nodes : List SchemaNode) : List FilterNode → Bool
  | [] => false
  | node :: rest => misnamed nodes node || misnamedAny nodes rest

end

/-- The request has a subtree filter with a misnamed element. -/
def MisnamedFilter (operation : Document) : Prop :=
  ∃ elements, parseFilter (operation.child "filter") = .ok (some elements) ∧
    misnamedAny deviceSchema elements = true

/-- The source of a request is one element that is the name of no datastore. -/
def NamesUnknownDatastore (operation : Document) : Prop :=
  ∃ source child, operation.child "source" = some source ∧ source.children = [child] ∧
    child.name ∉ [text "running", text "candidate", text "startup"]

theorem answers_datastoreElement_iff (container : Document) :
    Answers .unknownElement (datastoreElement container) ↔
      ∃ child, container.children = [child] ∧
        child.name ∉ [text "running", text "candidate", text "startup"] := by
  unfold datastoreElement
  split
  · next hNone => simp [hNone, missingElement]
  · next child hOne =>
    simp only [hOne, List.cons.injEq, and_true, exists_eq_left', List.mem_cons, List.not_mem_nil,
      or_false, not_or]
    split
    · next hName => simp [hName]
    · split
      · next hName => simp [hName]
      · split
        · next hName => simp [hName]
        · next hRunning hCandidate hStartup =>
          simp [unknownElement, hRunning, hCandidate, hStartup]
  · next hNone hMany =>
    simp only [invalidValue, answers_error, tag?_newError, Option.some.injEq, reduceCtorEq,
      false_iff, not_exists, not_and]
    exact fun child hOne => absurd hOne (hMany child)

theorem answers_sourceDatastore_iff (operation : Document) :
    Answers .unknownElement (sourceDatastore operation) ↔ NamesUnknownDatastore operation := by
  unfold sourceDatastore NamesUnknownDatastore
  cases hSource : operation.child "source" with
  | none => simp [missingElement]
  | some source => simp [answers_datastoreElement_iff]

theorem not_answers_parseFilter (element : Option Document) :
    ¬ Answers .unknownElement (parseFilter element) := by
  unfold parseFilter
  split
  · simp
  · split
    · simp
    · split <;> simp [notSupported]

theorem not_answers_fromDataTree {err : Err} (hErr : err.tag? ≠ some .unknownElement) :
    (fromDataTree err).tag? ≠ some .unknownElement := by
  unfold fromDataTree
  split
  · exact hErr
  · simp [failed]

/-- The read of a request fails with no unknown-element, and neither does what comes after it. -/
theorem ensures_answer {json : Json} (opts : Options) (r : Router) (ds : Datastore)
    (filter : Option (List FilterNode)) (machine : Machine json) :
    Program.Ensures (fun env : PlainEnv => Machine.handle opts env.1)
      (andThen (mapError fromDataTree (read r ds [] .config)) fun root =>
        .ret (.ok (dataElement (narrowed filter (root.elim [] DataNode.children)))))
      (fun result _ => ¬ Answers .unknownElement result) machine := by
  have hRead : Program.Ensures (fun env : PlainEnv => Machine.handle opts env.1)
      (mapError fromDataTree (read r ds [] .config))
      (fun result _ => ¬ Answers .unknownElement result) machine := by
    refine Program.Ensures.bind (ensures_read_root opts r ds machine) ?_
    intro result after hResult
    cases result with
    | error err =>
      rw [answers_error] at hResult
      exact fun hAnswers =>
        not_answers_fromDataTree hResult ((answers_error _ _).mp hAnswers)
    | ok root => exact not_answers_of_untagged (Untagged.ok root) _
  refine Program.Ensures.bind hRead ?_
  intro result after hResult
  cases result with
  | error err =>
    rw [answers_error] at hResult
    exact fun hAnswers => hResult ((answers_error _ _).mp hAnswers)
  | ok root => exact not_answers_of_untagged (Untagged.ok _) _

/-- `GetConfig` answers unknown-element for a datastore it does not know, and for nothing else. -/
theorem answers_getConfig_iff {json : Json} (opts : Options) (r : Router) (machine : Machine json)
    (env : Nat → CallEnv) (hContext : ∀ index err, (env index).ctx = some err → err.asEdit? = none)
    (operation : Document) :
    Answers .unknownElement ((getConfig r operation).run opts env machine).1 ↔
      NamesUnknownDatastore operation := by
  rw [← answers_sourceDatastore_iff]
  unfold getConfig
  cases hSource : sourceDatastore operation with
  | error err => exact (answers_error _ err).trans (answers_error _ err).symm
  | ok ds =>
    simp only [answers_ok, iff_false]
    have hParse := not_answers_parseFilter (operation.child "filter")
    cases hFilter : parseFilter (operation.child "filter") with
    | error err =>
      rw [hFilter, answers_error] at hParse
      exact fun hAnswers => hParse ((answers_error _ err).mp hAnswers)
    | ok filter =>
      have hRun := Program.Ensures.exec (ensures_answer opts r ds filter machine)
        fun index => ⟨env index, hContext index⟩
      rw [(Program.exec_comap (Machine.handle opts) (fun plain : PlainEnv => plain.1) _
        (fun index => ⟨env index, hContext index⟩) machine).1] at hRun
      exact hRun

/-- A filter with a misnamed element is answered with unknown-element, and any other is not, only
where the answer is about the source of the request: the names of a filter are never looked up. -/
theorem misnamed_filter_answer_iff {json : Json} (opts : Options) (r : Router)
    (machine : Machine json) (env : Nat → CallEnv)
    (hContext : ∀ index err, (env index).ctx = some err → err.asEdit? = none)
    (operation : Document) :
    ((MisnamedFilter operation →
        Answers .unknownElement ((getConfig r operation).run opts env machine).1) ∧
      (¬ MisnamedFilter operation →
        ¬ Answers .unknownElement ((getConfig r operation).run opts env machine).1)) ↔
      (MisnamedFilter operation ↔ NamesUnknownDatastore operation) := by
  rw [answers_getConfig_iff opts r machine env hContext operation]
  constructor
  · rintro ⟨hMisnamed, hOther⟩
    exact ⟨hMisnamed, fun hUnknown => by_contra fun hNamed => hOther hNamed hUnknown⟩
  · intro hIff
    exact ⟨hIff.mp, fun hNamed hUnknown => hNamed (hIff.mpr hUnknown)⟩

/-- A request for a part of running. -/
def runningRequest (filter : List Document) : Document :=
  .mk "get-config" [] []
    [.mk "source" [] [] [.mk "running" [] [] []], .mk "filter" [] [] filter]

theorem known_runningRequest (filter : List Document) :
    ¬ NamesUnknownDatastore (runningRequest filter) := by
  rw [← answers_sourceDatastore_iff]
  exact not_answers_of_untagged (Untagged.ok Datastore.running) _

theorem misnamedFilter_runningRequest_iff (filter : List Document) :
    MisnamedFilter (runningRequest filter) ↔
      misnamedAny deviceSchema (filterNodesOf filter) = true := by
  constructor
  · rintro ⟨elements, hParse, hMisnamed⟩
    cases hParse
    exact hMisnamed
  · exact fun hMisnamed => ⟨_, rfl, hMisnamed⟩

/-- `<system-info><name/></system-info>` -/
def nameFilter : List Document :=
  [.mk "system-info" [] [] [.mk "name" [] [] []]]

theorem name_filter_is_answered :
    ¬ MisnamedFilter (runningRequest nameFilter) ∧
      ¬ Answers .unknownElement ((getConfig defaultRouter (runningRequest nameFilter)).run
        (defaultRouter.options []) (fun _ => CallEnv.quiet) (machineWith bareContent)).1 := by
  have hNamed : ¬ MisnamedFilter (runningRequest nameFilter) := by
    rw [misnamedFilter_runningRequest_iff]
    decide +kernel
  refine ⟨hNamed, ?_⟩
  have hAnswer := misnamed_filter_answer_iff (defaultRouter.options []) defaultRouter
    (machineWith bareContent) (fun _ => CallEnv.quiet) (fun _ _ hCtx => by cases hCtx)
    (runningRequest nameFilter)
  exact (hAnswer.mpr (iff_of_false hNamed (known_runningRequest nameFilter))).2 hNamed

/-- A filter for an element that the model does not have is answered with data. -/
theorem unknown_filter_name_is_answered :
    MisnamedFilter (runningRequest [.mk "nope" [] [] []]) ∧
      ((getConfig defaultRouter (runningRequest [.mk "nope" [] [] []])).run
        (defaultRouter.options []) (fun _ => CallEnv.quiet) (machineWith bareContent)).1.isOk =
        true := by
  refine ⟨(misnamedFilter_runningRequest_iff _).mpr ?_, ?_⟩ <;> decide +kernel

end Netconf
end TriadSim

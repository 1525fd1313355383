import TriadSim.System.Activities

/-!
# What a successful edit has written is valid

An edit validates a proposal made from what it has read and then writes the difference. The
router's transaction keeps other edits away in between, but a commit and a discard replace whole
datastores without it.  As long as none of them changes the datastore that the edit under way is
about, what the edit leaves behind is what it has validated.  The main result is
`successful_edit_leaves_valid_content`.
-/

namespace TriadSim

open Datatree Go Library Router Store

/-- The accesses of a commit or a discard that replace whole datastores. -/
def Request.Replaces : Request → Prop
  | .mutate .commit | .mutate .rollback | .commitConfirmed _ => True
  | _ => False

/-- The datastore that an activity edits in its transaction. -/
def Activity.target : Activity → Option Datastore
  | .transaction (.edit ds _) => some ds
  | .transaction (.set _) => some .running
  | .editConfig target _ => some target
  | _ => none

/-- Edits of every plane, commits and discards: what management does to the datastores,
apart from the rollback of a confirmed commit. -/
def Activity.Configures : Activity → Prop
  | .transaction _ | .editConfig _ _ | .discardChanges | .commit | .confirmedCommit _ => True
  | _ => False

/-- The client is told that its edit has succeeded. -/
def Outcome.reportsSuccess : Outcome → Bool
  | .answered (.edited result) => result.isOk
  | .answered (.replied reply) => reply.status = .noError
  | .done result => result.isOk
  | _ => false

section Validity

variable {ι : Type} {json : Json}

/-- The datastore that a call has written a batch to. -/
def writtenTo : MachineEvent ι json → Option Datastore
  | ⟨_, .mutate (.apply ds _ _), .ok (), _, _⟩ => some ds
  | _ => none

/-- The content of a datastore is one that the router accepts. -/
def HoldsValid (r : Router) (machine : Machine json) (ds : Datastore) : Prop :=
  ∃ content, machine.memory.datastore ds = .ok content ∧ r.validate none content = .ok ()

/-- A commit or discard in the middle of an edit's transaction leaves the datastore of that
edit as it is. -/
def SparesEdits (activities : ι → Activity) (world : MachineWorld ι json)
    (event : MachineEvent ι json) : Prop :=
  event.request.Replaces → ∀ thread ds, world.holder .transaction = some thread →
    (activities thread).target = some ds →
      event.after.memory.datastore ds = event.before.memory.datastore ds

/-- The thread has written to the datastore. -/
def HasWritten (thread : ι) (ds : Datastore) (world : MachineWorld ι json) : Prop :=
  ∃ event ∈ world.history, event.thread = thread ∧ writtenTo event = some ds

/-- What the threads owe each other: whoever changes a datastore other than by replacing it
holds the transaction, and leaves what it writes valid. -/
def validityContract (r : Router) (activities : ι → Activity) : MachineContract ι json Outcome where
  inv world := HoldsValid r world.state .running ∧
    ∀ event ∈ world.history, ∀ ds, writtenTo event = some ds → HoldsValid r event.after ds
  rely thread world now := world.history <+: now.history ∧
    (world.holder .transaction = some thread → now.holder .transaction = some thread ∧
      ∀ ds, (activities thread).target = some ds →
        now.state.memory.datastore ds = world.state.memory.datastore ds)
  allowed := SparesEdits activities
  guarantee world event := HoldsValid r event.after .running ∧
    (∀ ds, writtenTo event = some ds → HoldsValid r event.after ds) ∧
    (event.after.contents = event.before.contents ∨ event.request.Replaces ∨
      world.holder .transaction = some event.thread)
  yields _ _ _ := True
  post thread outcome world := ∀ ds, (activities thread).target = some ds →
    outcome.reportsSuccess = true → HasWritten thread ds world

variable {ds : Datastore} {thread : ι} {world : MachineWorld ι json} {env : CallEnv}
    {request : Request} {machine : Machine json} {startupFile : GoString}
    {content : Except Err Values} {req : EditRequest}

theorem HoldsValid.of_contents_eq {r : Router} {before after : Machine json}
    (hValid : HoldsValid r before ds) (hSame : after.contents = before.contents) :
    HoldsValid r after ds := by
  obtain ⟨content, hContent, hAccepted⟩ := hValid
  exact ⟨content, (Memory.datastore_of_contents_eq hSame ds).trans hContent, hAccepted⟩

theorem HasWritten.of_history {now : MachineWorld ι json} (hWritten : HasWritten thread ds world)
    (hHistory : world.history <+: now.history) :
    HasWritten thread ds now := by
  obtain ⟨event, hEvent, hThread, hTo⟩ := hWritten
  exact ⟨event, hHistory.subset hEvent, hThread, hTo⟩

variable {opts : Options} {r : Router} {activities : ι → Activity}

theorem fits_validityContract [DecidableEq ι] :
    Contract.Fits (Machine.handler json opts) (validityContract r activities) := by
  refine ⟨?_, ?_, ?_, ?_, ?_, ?_⟩
  · intro thread world
    exact ⟨List.prefix_rfl, fun hHolds => ⟨hHolds, fun _ _ => rfl⟩⟩
  · intro thread first second third hFirst hSecond
    refine ⟨hFirst.1.trans hSecond.1, fun hHolds => ?_⟩
    obtain ⟨hStill, hSame⟩ := hFirst.2 hHolds
    obtain ⟨hLast, hSame'⟩ := hSecond.2 hStill
    exact ⟨hLast, fun ds hTarget => (hSame' ds hTarget).trans (hSame ds hTarget)⟩
  · intro thread outcome world now hPost hRely ds hTarget hSuccess
    exact (hPost ds hTarget hSuccess).of_history hRely.1
  · intro thread env request world hInv hAllowed hGuarantee
    obtain ⟨hRunning, hWritten, hWho⟩ := hGuarantee
    refine ⟨⟨hRunning, ?_⟩, ?_⟩
    · intro event hEvent
      rw [World.history_record, List.mem_append, List.mem_singleton] at hEvent
      rcases hEvent with hEvent | rfl
      · exact hInv.2 event hEvent
      · exact hWritten
    · intro other hOther
      refine ⟨List.prefix_append _ _, fun hHolds => ⟨hHolds, ?_⟩⟩
      intro ds hTarget
      -- the call changes nothing, or replaces datastores with care, or is by the holder
      rcases hWho with hSame | hReplaces | hMine
      · exact Memory.datastore_of_contents_eq hSame ds
      · exact hAllowed hReplaces other ds hHolds hTarget
      · rw [hHolds, Option.some.injEq] at hMine
        exact absurd hMine hOther
  · intro thread lock world hInv hFree
    refine ⟨hInv, fun other _ => ⟨List.prefix_rfl, fun hHolds => ⟨?_, fun _ _ => rfl⟩⟩⟩
    exact World.holder_hand_of_held hHolds (by rw [hFree]; simp)
  · intro thread lock world hInv hHeld _
    refine ⟨hInv, fun other hOther => ⟨List.prefix_rfl, fun hHolds => ⟨?_, fun _ _ => rfl⟩⟩⟩
    exact World.holder_hand_of_held hHolds (by rw [hHeld]; simpa using hOther.symm)

/-! ## Reads, commits and discards -/

theorem writtenTo_of_reads (hReads : request.Reads) :
    writtenTo (callEvent (Machine.handle opts) thread env request machine) = none := by
  cases request with
  | mutate op => exact hReads.elim
  | _ => rfl

/-- An access that is not a mutation of the store and leaves its contents alone. -/
theorem guarantee_of_contents_eq (hInv : (validityContract r activities).inv world)
    (hWritten : writtenTo (callEvent (Machine.handle opts) thread env request world.state) = none)
    (hSame : (Machine.handle opts env request world.state).2.contents = world.state.contents) :
    (validityContract r activities).guarantee world
      (callEvent (Machine.handle opts) thread env request world.state) := by
  refine ⟨hInv.1.of_contents_eq hSame, ?_, Or.inl hSame⟩
  intro ds hTo
  rw [hWritten] at hTo
  cases hTo

theorem guarantee_of_reads (hReads : request.Reads)
    (hInv : (validityContract r activities).inv world) :
    (validityContract r activities).guarantee world
      (callEvent (Machine.handle opts) thread env request world.state) := by
  refine guarantee_of_contents_eq hInv (writtenTo_of_reads hReads) ?_
  obtain ⟨bindCache, hAfter⟩ := handle_of_reads hReads opts env world.state
  rw [hAfter]

/-- A commit puts a validated candidate in the place of running. -/
theorem holdsValid_of_commit (hValid : HoldsValid r machine .running) :
    HoldsValid r (machine.withOutcome
      (machine.memory.mutate (r.options startupFile) env .commit)).2 .running := by
  rcases machine.memory.mutate_meets (r.options startupFile) env .commit with
    ⟨_, hCandidate, hAfter⟩ | ⟨err, _, hSame⟩
  · have hRunning := congrArg Contents.running hAfter
    exact ⟨machine.memory.candidate, congrArg Except.ok hRunning, validate_eq_ok hCandidate⟩
  · exact hValid.of_contents_eq hSame

/-- A discard leaves running alone. -/
theorem holdsValid_of_rollback (hValid : HoldsValid r machine .running) :
    HoldsValid r (machine.withOutcome (machine.memory.mutate opts env .rollback)).2 .running := by
  rcases machine.memory.mutate_meets opts env .rollback with ⟨_, hAfter⟩ | ⟨err, _, hSame⟩
  · obtain ⟨content, hContent, hAccepted⟩ := hValid
    cases hContent
    have hRunning := congrArg Contents.running hAfter
    exact ⟨machine.memory.running, congrArg Except.ok hRunning, hAccepted⟩
  · exact hValid.of_contents_eq hSame

/-- The accesses of commits and discards keep running valid. -/
theorem guarantee_of_commits (hCommits : request.Commits)
    (hInv : (validityContract r activities).inv world) :
    (validityContract r activities).guarantee world
      (callEvent (Machine.handle (r.options startupFile)) thread env request world.state) := by
  cases request with
  | mutate op =>
    cases op with
    | commit =>
      exact ⟨holdsValid_of_commit hInv.1, fun ds hTo => (by cases hTo), Or.inr (Or.inl trivial)⟩
    | rollback =>
      exact ⟨holdsValid_of_rollback hInv.1, fun ds hTo => (by cases hTo),
        Or.inr (Or.inl trivial)⟩
    | _ => exact hCommits.elim
  | commitConfirmed rollback =>
    exact ⟨holdsValid_of_commit hInv.1, fun ds hTo => (by cases hTo), Or.inr (Or.inl trivial)⟩
  | issued confirmed | returned confirmed ok | snapshot | pending =>
    exact guarantee_of_contents_eq hInv rfl rfl
  | arm sessionID rollback | confirm => exact guarantee_of_contents_eq hInv rfl rfl
  | _ => exact hCommits.elim

/-! ## Inside the transaction -/

/-- The thread is in its transaction and knows what its datastore holds. -/
def Inside (thread : ι) (ds : Datastore) (content : Except Err Values)
    (world : MachineWorld ι json) : Prop :=
  world.holder .transaction = some thread ∧ world.state.memory.datastore ds = content

theorem steady_inside (hTarget : (activities thread).target = some ds) :
    Steady opts (validityContract r activities) thread
      fun world : MachineWorld ι json => Inside thread ds content world := by
  constructor
  · rintro world now ⟨hHolds, hContent⟩ ⟨_, hRely⟩
    obtain ⟨hStill, hSame⟩ := hRely hHolds
    exact ⟨hStill, (hSame ds hTarget).trans hContent⟩
  · rintro world env request hReads hInv ⟨hHolds, hContent⟩
    refine ⟨guarantee_of_reads hReads hInv, hHolds, ?_⟩
    obtain ⟨bindCache, hAfter⟩ := handle_of_reads hReads opts env world.state
    show ((Machine.handle opts env request world.state).2).memory.datastore ds = content
    rw [hAfter]
    exact hContent

theorem steady_hasWritten :
    Steady opts (validityContract r activities) thread
      fun world : MachineWorld ι json => HasWritten thread ds world := by
  constructor
  · rintro world now hWritten ⟨hHistory, _⟩
    exact hWritten.of_history hHistory
  · intro world env request hReads hInv hWritten
    exact ⟨guarantee_of_reads hReads hInv, hWritten.of_history (List.prefix_append _ _)⟩

theorem steady_true :
    Steady opts (validityContract r activities) thread fun _ : MachineWorld ι json => True :=
  ⟨fun _ _ _ _ => trivial, fun _ _ _ hReads hInv _ => ⟨guarantee_of_reads hReads hInv, trivial⟩⟩

variable {batch : Std.ExtTreeMap GoString GoValue} {deletions : List GoString}
    {varbinds : List Snmp.VarBind} {α : Type}

/-- The write: what the batch makes of the content that the thread knows is valid. -/
theorem triple_write {content : Values} (hTarget : (activities thread).target = some ds)
    (hValid : ∀ leaves, Memory.checkValues batch = .ok leaves →
      (ds = .running → r.validate none content = .ok ()) →
      r.validate none (FinMap.eraseAll (content ∪ leaves) deletions) = .ok ()) :
    Contract.Triple (Machine.handler json opts) (validityContract r activities) thread
      (Inside thread ds (.ok content)) (ask (.mutate (.apply ds batch deletions)))
      fun result world => result.isOk = true → HasWritten thread ds world := by
  intro world hInside now hInv hRely env _
  have hSteady : Steady opts (validityContract r activities) thread
      fun world : MachineWorld ι json => Inside thread ds (.ok content) world :=
    steady_inside hTarget
  obtain ⟨hHolds, hContent⟩ := hSteady.rely world now hInside hRely
  let outcome := now.state.memory.mutate opts env (.apply ds batch deletions)
  rcases now.state.memory.mutate_meets opts env (.apply ds batch deletions) with
    ⟨hResult, leaves, hCheck, _, _, hAfter⟩ | ⟨err, hResult, hSame⟩
  · have hOld : ds = .running → r.validate none content = .ok () := by
      rintro rfl
      obtain ⟨old, hRunning, hAccepted⟩ := hInv.1
      rw [hContent, Except.ok.injEq] at hRunning
      exact hRunning ▸ hAccepted
    have hNew : HoldsValid r (now.state.withOutcome outcome).2 ds :=
      ⟨_, datastore_of_contents_eq_edit hContent hAfter, hValid leaves hCheck hOld⟩
    have hTo : writtenTo (callEvent (Machine.handle opts) thread env
        (.mutate (.apply ds batch deletions)) now.state) = some ds := by
      show writtenTo ⟨thread, .mutate (.apply ds batch deletions), outcome.1, _, _⟩ = some ds
      rw [hResult]
      rfl
    refine ⟨⟨?_, ?_, Or.inr (Or.inr hHolds)⟩, ?_⟩
    · by_cases hRunning : ds = .running
      · exact hRunning ▸ hNew
      · obtain ⟨old, hOld, hAccepted⟩ := hInv.1
        have hKept :=
          (congrArg Contents.running hAfter).trans (Contents.running_edit_of_ne hRunning)
        exact ⟨old, (congrArg Except.ok hKept).trans hOld, hAccepted⟩
    · intro other hOther
      rw [hTo, Option.some.injEq] at hOther
      exact hOther ▸ hNew
    · intro _
      exact ⟨_, List.mem_append_right _ (List.mem_singleton_self _), rfl, hTo⟩
  · have hTo : writtenTo (callEvent (Machine.handle opts) thread env
        (.mutate (.apply ds batch deletions)) now.state) = none := by
      show writtenTo ⟨thread, .mutate (.apply ds batch deletions), outcome.1, _, _⟩ = none
      rw [hResult]
      rfl
    refine ⟨guarantee_of_contents_eq hInv hTo hSame, ?_⟩
    intro hOk
    have hFailed : outcome.1.isOk = true := hOk
    rw [hResult] at hFailed
    cases hFailed

/-- The write through the router. -/
theorem triple_apply {content : Values} (hTarget : (activities thread).target = some ds)
    (hValid : ∀ converted leaves, r.convertAll batch = .ok converted →
      Memory.checkValues converted = .ok leaves →
      (ds = .running → r.validate none content = .ok ()) →
      r.validate none (FinMap.eraseAll (content ∪ leaves) deletions) = .ok ()) :
    Contract.Triple (Machine.handler json opts) (validityContract r activities) thread
      (Inside thread ds (.ok content)) (r.apply ds batch deletions)
      fun result world => result.isOk = true → HasWritten thread ds world := by
  refine triple_checkCtx (steady_inside hTarget) ?_ fun err world _ hOk => (by cases hOk)
  cases hConvert : r.convertAll batch with
  | error err => exact fun world _ hOk => (by cases hOk)
  | ok converted =>
    exact triple_write hTarget fun leaves hCheck => hValid converted leaves hConvert hCheck

/-- The end of an edit: a proposal that passes validation is written. -/
theorem triple_validateAndWrite {content : Values} {edited : Editor}
    (hTarget : (activities thread).target = some ds)
    (hProposed : ∃ results, r.describeAll content = .ok results ∧
      propose r req (editorOf results) = .ok edited) :
    Contract.Triple (Machine.handler json opts) (validityContract r activities) thread
      (Inside thread ds (.ok content)) (validateAndWrite r ds content edited.proposed)
      fun result world => result.isOk = true → HasWritten thread ds world := by
  have hSteady : Steady opts (validityContract r activities) thread
      fun world : MachineWorld ι json => Inside thread ds (.ok content) world :=
    steady_inside hTarget
  have hValidate : (r.validateProg edited.proposed).Only Request.Reads (fun _ => False)
      fun result => ∀ done, result = .ok done → r.validate none edited.proposed = .ok () :=
    only_validateProg fun _ hReads => hReads
  refine triple_andThen (triple_mapError (triple_of_only hSteady hValidate) ?_) ?_
    fun err world _ hOk => (by cases hOk)
  · rintro err world ⟨hInside, _⟩
    exact ⟨hInside, fun done hDone => (by cases hDone)⟩
  · intro done world hMiddle
    have hAccepts : Accepts r req content edited := ⟨hProposed, hMiddle.2 done rfl⟩
    refine triple_mapError (triple_apply hTarget ?_) (fun err world _ hOk => (by cases hOk)) world
      hMiddle.1
    intro converted leaves hConvert hCheck _
    rw [checkValues_of_convertAll_eq_ok (convert_changedLeaves hAccepts) hConvert hCheck]
    exact hAccepts.written.1

/-- The body of an edit. -/
theorem triple_applyBody (hTarget : (activities thread).target = some ds) :
    Contract.Triple (Machine.handler json opts) (validityContract r activities) thread
      (Inside thread ds content) (applyBody r ds req)
      fun result world => result.isOk = true → HasWritten thread ds world := by
  have hSteady : Steady opts (validityContract r activities) thread
      fun world : MachineWorld ι json => Inside thread ds content world := steady_inside hTarget
  refine triple_andThen (triple_mapError (triple_values hSteady fun world hInside => hInside.2) ?_)
    ?_ fun err world _ hOk => (by cases hOk)
  · rintro err world ⟨hInside, _⟩
    exact ⟨hInside, fun results hResults => (by cases hResults)⟩
  · rintro results world ⟨hInside, hRead⟩
    obtain ⟨values, rfl, hDescribe⟩ := hRead results rfl
    obtain ⟨hOriginal, _⟩ := editorOf_spec hDescribe
    rw [hOriginal]
    cases hPropose : propose r req (editorOf results) with
    | error err => exact fun hOk => (by cases hOk)
    | ok edited =>
      exact triple_validateAndWrite hTarget ⟨results, hDescribe, hPropose⟩ world hInside

/-- The body of a SET. -/
theorem triple_applySet (hTarget : (activities thread).target = some .running) :
    Contract.Triple (Machine.handler json opts) (validityContract r activities) thread
      (Inside thread .running content) (Snmp.applySet r varbinds)
      fun reply world => reply.status = .noError → HasWritten thread .running world := by
  have hSteady : Steady opts (validityContract r activities) thread
      fun world : MachineWorld ι json => Inside thread .running content world :=
    steady_inside hTarget
  refine triple_orGenErr (triple_values hSteady fun world hInside => hInside.2) ?_
    fun world hNoError => (by cases hNoError)
  rintro results world ⟨hInside, hRead⟩
  obtain ⟨values, rfl, hDescribe⟩ := hRead results rfl
  obtain ⟨hContent, _⟩ := editorOf_spec hDescribe
  refine triple_orGenErr (triple_of_only hSteady (only_index fun _ hReads => hReads)) ?_
    (fun world hNoError => (by cases hNoError)) world hInside
  rintro found world ⟨hInside, _⟩
  rw [show (results.map fun _ result => result.value) = values ∪ ∅ by
    rw [FinMap.union_empty]; exact hContent]
  refine (triple_of_only hSteady (Snmp.only_checkVarBinds (fun _ hReads => hReads) found 1 varbinds
    ∅ Snmp.Checked.empty) world hInside).bind ?_
  rintro checked world ⟨hInside, hChecked⟩
  cases checked with
  | error failure => exact fun hNoError => absurd hNoError hChecked
  | ok changed =>
    refine triple_orGenErr (triple_apply hTarget ?_) ?_
      (fun world hNoError => (by cases hNoError)) world hInside
    · intro converted leaves hConvert hCheck hOld
      rw [checkValues_of_convertAll_eq_ok hChecked.stable hConvert hCheck]
      rcases hChecked.valid with rfl | hValid
      · rw [FinMap.union_empty]
        exact hOld rfl
      · exact hValid
    · intro done world hWritten
      refine triple_orGenErr (triple_of_only steady_hasWritten
        (only_index fun _ hReads => hReads)) ?_ (fun world hNoError => (by cases hNoError)) world
        (hWritten rfl)
      rintro written world ⟨hWritten, _⟩ _
      exact hWritten

/-! ## Activities -/

/-- A transaction whose body writes when it succeeds. -/
theorem triple_transaction {body : Prog (Except Err α)} {succeeds : Except Err α → Prop}
    (hBody : ∀ content, Contract.Triple (Machine.handler json opts) (validityContract r activities)
      thread (Inside thread ds content) body
      fun result world => succeeds result → HasWritten thread ds world)
    (hError : ∀ err, ¬ succeeds (.error err)) :
    Contract.Triple (Machine.handler json opts) (validityContract r activities) thread
      (fun _ => True) (transaction body)
      fun result world => succeeds result → HasWritten thread ds world := by
  refine triple_checkCtx steady_true ?_ fun err world _ hSucceeds => absurd hSucceeds (hError err)
  refine Contract.Triple.locked ?_ ?_ (fun _ _ _ => trivial) fun _ _ hPost => hPost
  · intro world now _ _ _ _
    exact hBody _ _ ⟨World.holder_hand_self now .transaction (some thread), rfl⟩
  · intro result world now hPost hRely hSucceeds
    exact (hPost hSucceeds).of_history hRely.1

theorem triple_edit (hTarget : (activities thread).target = some ds) :
    Contract.Triple (Machine.handler json opts) (validityContract r activities) thread
      (fun _ => True) (Datatree.apply r ds req)
      fun result world => result.isOk = true → HasWritten thread ds world := by
  refine triple_checkCtx steady_true ?_ fun err world _ hOk => (by cases hOk)
  exact triple_transaction (fun _ => triple_applyBody hTarget) fun err hOk => (by cases hOk)

theorem triple_editConfig {target : Datastore}
    (hTarget : (activities thread).target = some target) :
    Contract.Triple (Machine.handler json opts) (validityContract r activities) thread
      (fun _ => True) (Netconf.editConfig r target req)
      fun result world => result.isOk = true → HasWritten thread target world := by
  unfold Netconf.editConfig
  split
  · exact fun world _ hOk => (by cases hOk)
  · exact triple_mapError (triple_edit hTarget) fun err world _ hOk => (by cases hOk)

/-- A SET that ends with its transaction and without an error status. -/
def setSucceeds : Except Err Snmp.Reply → Prop
  | .ok reply => reply.status = .noError
  | .error _ => False

theorem triple_set (hTarget : (activities thread).target = some .running) :
    Contract.Triple (Machine.handler json opts) (validityContract r activities) thread
      (fun _ => True) (Snmp.set r varbinds)
      fun reply world => reply.status = .noError → HasWritten thread .running world := by
  have hBody : ∀ content, Contract.Triple (Machine.handler json opts)
      (validityContract r activities) thread (Inside thread .running content)
      ((Snmp.applySet r varbinds).bind fun reply => .ret (.ok reply))
      fun result world => setSucceeds result → HasWritten thread .running world :=
    fun content => (triple_applySet hTarget).bind fun reply world hReply => hReply
  refine triple_orGenErr (triple_transaction hBody fun err hSucceeds => hSucceeds) ?_
    fun world hNoError => (by cases hNoError)
  intro reply world hWritten
  exact hWritten

theorem triple_commits {program : Prog α}
    (hOnly : program.Only Request.Commits (fun _ => True) fun _ => True) :
    Contract.Triple (Machine.handler json (r.options startupFile)) (validityContract r activities)
      thread (fun _ => True) program fun _ _ => True :=
  Contract.Triple.of_only (fun _ _ _ hCommits hInv _ => guarantee_of_commits hCommits hInv)
    (fun _ _ _ _ _ => trivial) hOnly

/-- Every activity of the planes keeps the contract. -/
theorem triple_program (hConfigures : (activities thread).Configures) :
    Contract.Triple (Machine.handler json (r.options startupFile)) (validityContract r activities)
      thread (fun _ => True) ((activities thread).program r)
      ((validityContract r activities).post thread) := by
  have hWrites : ∀ {ds : Datastore} {outcome : Outcome} {world : MachineWorld ι json},
      (activities thread).target = some ds →
      (outcome.reportsSuccess = true → HasWritten thread ds world) →
      (validityContract r activities).post thread outcome world := by
    intro ds outcome world hTarget hWritten other hOther
    rw [hTarget, Option.some.injEq] at hOther
    exact hOther ▸ hWritten
  have hNoTarget : ∀ {outcome : Outcome} {world : MachineWorld ι json},
      (activities thread).target = none →
      (validityContract r activities).post thread outcome world := by
    intro outcome world hTarget other hOther
    rw [hTarget] at hOther
    cases hOther
  cases hActivity : activities thread with
  | transaction op =>
    cases op with
    | edit ds req =>
      have hTarget : (activities thread).target = some ds := by rw [hActivity]; rfl
      refine Contract.Triple.map _ (Contract.Triple.map _ ((triple_edit hTarget).mono ?_))
      exact fun result world hWritten => hWrites hTarget hWritten
    | set varbinds =>
      have hTarget : (activities thread).target = some .running := by rw [hActivity]; rfl
      refine Contract.Triple.map _ (Contract.Triple.map _ ((triple_set hTarget).mono ?_))
      intro reply world hWritten
      exact hWrites hTarget fun hSuccess => hWritten (of_decide_eq_true hSuccess)
  | editConfig target req =>
    have hTarget : (activities thread).target = some target := by rw [hActivity]; rfl
    refine Contract.Triple.map _ ((triple_editConfig hTarget).mono ?_)
    exact fun result world hWritten => hWrites hTarget hWritten
  | discardChanges =>
    have hTarget : (activities thread).target = none := by rw [hActivity]; rfl
    refine Contract.Triple.map _ ((triple_commits (Netconf.only_discardChanges
      fun _ hCommits => hCommits)).mono ?_)
    exact fun result world _ => hNoTarget hTarget
  | commit =>
    have hTarget : (activities thread).target = none := by rw [hActivity]; rfl
    refine Contract.Triple.map _ ((triple_commits (Netconf.only_commit
      (fun _ hCommits => hCommits) trivial)).mono ?_)
    exact fun result world _ => hNoTarget hTarget
  | confirmedCommit sessionID =>
    have hTarget : (activities thread).target = none := by rw [hActivity]; rfl
    refine Contract.Triple.map _ ((triple_commits (Netconf.only_commitConfirmed
      (fun _ hCommits => hCommits) trivial)).mono ?_)
    exact fun result world _ => hNoTarget hTarget
  | _ =>
    rw [hActivity] at hConfigures
    exact hConfigures.elim

/-- In every run whose commits and discards spare the edits under way, an edit that reports
success has written to its datastore, and every write has left a valid content. -/
theorem successful_edit_leaves_valid_content [DecidableEq ι] (r : Router) (startupFile : GoString)
    (activities : ι → Activity) (envs : ι → Nat → CallEnv) (machine : Machine json)
    (hConfigures : ∀ thread, (activities thread).Configures)
    (hValid : HoldsValid r machine .running)
    {system : System ι Mutex Request Request.Response CallEnv (Machine json) Outcome}
    (hReaches : System.Reaches (Machine.handle (r.options startupFile)) (SparesEdits activities)
      (activitySystem r activities envs machine) system)
    {thread : ι} {ds : Datastore} {outcome : Outcome}
    (hTarget : (activities thread).target = some ds)
    (hReturned : (system.threads thread).1 = .ret outcome)
    (hSuccess : outcome.reportsSuccess = true) :
    (∃ event ∈ system.world.history, event.thread = thread ∧ writtenTo event = some ds) ∧
      ∀ event ∈ system.world.history, ∀ ds, writtenTo event = some ds →
        HoldsValid r event.after ds := by
  have hFirst : Contract.Kept (Machine.handler json (r.options startupFile))
      (validityContract r activities) (activitySystem r activities envs machine) :=
    ⟨⟨hValid, fun _ hEvent => (by cases hEvent)⟩,
      fun thread => triple_program (hConfigures thread) _ trivial⟩
  have hKept := hFirst.of_reaches fits_validityContract hReaches
  have hPost := hKept.keeps thread
  rw [hReturned] at hPost
  exact ⟨hPost ds hTarget hSuccess, hKept.inv.2⟩

end Validity

/-- Describe the new VLAN. -/
def describeVLANRequest : EditRequest :=
  ⟨[], .merge, [.mk "vlans" [] [] [.mk "vlan" [] []
    [.mk "id" "10" [] [], .mk "description" "bench" [] []]]]⟩

/-- A commit or discard comes between transactions. -/
def betweenTransactions {ι : Type} {json : Json} (world : MachineWorld ι json)
    (event : MachineEvent ι json) : Bool :=
  (world.holder .transaction).isNone || match event.request with
    | .mutate .commit | .mutate .rollback | .commitConfirmed _ => false
    | _ => true

variable {json : Json}

theorem sparesEdits_of_betweenTransactions {ι : Type} {activities : ι → Activity}
    (world : MachineWorld ι json) (event : MachineEvent ι json)
    (hBetween : betweenTransactions world event = true) : SparesEdits activities world event := by
  intro hReplaces thread ds hHolds _
  have hRequest : (match event.request with
      | .mutate .commit | .mutate .rollback | .commitConfirmed _ => false
      | _ => true) = true := by
    simpa [betweenTransactions, hHolds] using hBetween
  split at hRequest
  · cases hRequest
  · cases hRequest
  · cases hRequest
  · next hCommit hRollback hConfirmed =>
    unfold Request.Replaces at hReplaces
    split at hReplaces
    · next hRequest => exact absurd hRequest hCommit
    · next hRequest => exact absurd hRequest hRollback
    · next rollback hRequest => exact absurd hRequest (hConfirmed rollback)
    · exact hReplaces.elim

theorem HoldsValid.of_isOk {r : Router} {machine : Machine json} {ds : Datastore} {content : Values}
    (hContent : machine.memory.datastore ds = .ok content)
    (hIsOk : (r.validate none content).isOk = true) : HoldsValid r machine ds := by
  obtain ⟨done, hDone⟩ := exists_eq_ok_of_isOk hIsOk
  exact ⟨content, hContent, hDone⟩

/-- An edit of the new VLAN and a commit whose calls overlap. -/
def editBesideCommit : Option (System (Fin 2) Mutex Request Request.Response CallEnv
    (Machine Json.plain) Outcome) :=
  (activitySystem defaultRouter ![.editConfig .candidate describeVLANRequest, .commit]
    (fun _ _ => CallEnv.quiet) labMachine).checkedRun (Machine.handle (defaultRouter.options []))
      betweenTransactions ([0, 0, 1] ++ List.replicate 7 0 ++ List.replicate 5 1)

theorem edit_beside_commit_leaves_valid_content :
    ∃ system, editBesideCommit = some system ∧
      (∃ event ∈ system.world.history, event.thread = 0 ∧ writtenTo event = some .candidate) ∧
        ∀ event ∈ system.world.history, ∀ ds, writtenTo event = some ds →
          HoldsValid defaultRouter event.after ds := by
  have hAnswers : editBesideCommit.map (fun system =>
      (system.threads 0).1.result?.map Outcome.reportsSuccess) = some (some true) := by
    decide +kernel
  obtain ⟨system, hRun, hAnswer⟩ := Option.map_eq_some_iff.mp hAnswers
  obtain ⟨outcome, hOutcome, hSuccess⟩ := Option.map_eq_some_iff.mp hAnswer
  refine ⟨system, hRun, successful_edit_leaves_valid_content defaultRouter []
    ![.editConfig .candidate describeVLANRequest, .commit] (fun _ _ => CallEnv.quiet) labMachine
    (by rw [Fin.forall_fin_two]; exact ⟨trivial, trivial⟩)
    (HoldsValid.of_isOk rfl (by decide +kernel))
    (System.reaches_of_checkedRun _ sparesEdits_of_betweenTransactions .start hRun) rfl
    (Program.eq_ret_of_result?_eq_some hOutcome) hSuccess⟩

/-- The same edit with a discard between its read and its write. -/
def editUnderDiscard : Option (System (Fin 2) Mutex Request Request.Response CallEnv
    (Machine Json.plain) Outcome) :=
  (activitySystem defaultRouter ![.editConfig .candidate describeVLANRequest, .discardChanges]
    (fun _ _ => CallEnv.quiet) labMachine).run (Machine.handle (defaultRouter.options []))
      (List.replicate 5 0 ++ [1] ++ List.replicate 4 0)

/-- The discard takes the name of the VLAN away, and the edit writes the description only. -/
theorem discard_under_edit_leaves_invalid_content :
    (∀ ds, (∀ name, ds ≠ .unknown name) → HoldsValid defaultRouter labMachine ds) ∧
      ∃ system, editUnderDiscard = some system ∧
        (∃ outcome, (system.threads 0).1 = .ret outcome ∧ outcome.reportsSuccess = true) ∧
        ∃ event ∈ system.world.history, event.thread = 0 ∧ writtenTo event = some .candidate ∧
          ¬ HoldsValid defaultRouter event.after .candidate := by
  constructor
  · intro ds hKnown
    cases ds with
    | running | candidate | startup => exact HoldsValid.of_isOk rfl (by decide +kernel)
    | unknown name => exact absurd rfl (hKnown name)
  · have hWrong : editUnderDiscard.map (fun system =>
        ((system.threads 0).1.result?.map Outcome.reportsSuccess,
          system.world.history.any fun event => event.thread = 0 &&
            writtenTo event = some .candidate &&
            !(defaultRouter.validate none event.after.memory.candidate).isOk)) =
        some (some true, true) := by
      decide +kernel
    obtain ⟨system, hRun, hWrong⟩ := Option.map_eq_some_iff.mp hWrong
    rw [Prod.mk.injEq] at hWrong
    obtain ⟨outcome, hOutcome, hSuccess⟩ := Option.map_eq_some_iff.mp hWrong.1
    obtain ⟨event, hEvent, hInvalid⟩ := List.any_eq_true.mp hWrong.2
    simp only [Bool.and_eq_true, decide_eq_true_eq, Bool.not_eq_true'] at hInvalid
    refine ⟨system, hRun, ⟨outcome, Program.eq_ret_of_result?_eq_some hOutcome, hSuccess⟩, event,
      hEvent, hInvalid.1.1, hInvalid.1.2, ?_⟩
    rintro ⟨content, hContent, hAccepted⟩
    cases hContent
    rw [hAccepted] at hInvalid
    cases hInvalid.2

end TriadSim

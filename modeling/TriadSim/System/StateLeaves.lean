import TriadSim.Library.Histories
import TriadSim.System.Domains

/-!
# State leaves and configuration operations

The domains own the state leaves of running.  Configuration operations copy whole datastores
around, and the state leaves with them: a commit copies the candidate, whose state leaves mirror
running, and the rollback of a confirmed commit copies a snapshot, whose state leaves are as old
as the snapshot.  The main result is `keepsState_of_reaches`.
-/

namespace TriadSim

open Datatree Go Library Router Store

/-! ## What an access may do to state leaves -/

/-- The accesses of the activities: batches without state leaves, domain writes of the
given paths, and nothing that replaces running but a commit and the rollback of one. -/
def Request.Spares (r : Router) (written : GoString → Prop) (clock : Prop) : Request → Prop
  | .mutate (.apply _ batch deletions) => ∀ path : GoString, r.isState path = true →
      batch[path]? = none ∧ path ∉ deletions
  | .mutate (.set ds path _) => ds = .running ∧ written path
  | .mutate (.delete ds path) => ds = .running ∧ written path
  | .mutate (.restore _) | .mutate .loadStartup => False
  | .setClockManager _ => clock
  | _ => True

/-- The paths that a domain activity writes. -/
def Activity.Writes : Activity → GoString → Prop
  | .setState path _, written => written = path
  | .deleteState path, written => written = path
  | .increment port _, written => ∃ name, written = L2.counterPath port name
  | .clockEvent _, written | .syncLoss _, written | .expireHoldover, written
  | .reconcilePTP, written => written = Sync.statePath
  | _, _ => False

/-- The activities of the clock. -/
def Activity.IsClock : Activity → Prop
  | .clockEvent _ | .syncLoss _ | .expireHoldover | .reconcilePTP => True
  | _ => False

section Only

variable {r : Router} {written : GoString → Prop} {clock : Prop}

theorem spares_of_reads (request : Request) (hReads : request.Reads) :
    request.Spares r written clock := by
  cases request with
  | mutate op | setClockManager manager => exact hReads.elim
  | _ => trivial

theorem spares_of_commits (request : Request) (hCommits : request.Commits) :
    request.Spares r written clock := by
  cases request with
  | mutate op =>
    cases op with
    | commit | rollback => trivial
    | _ => exact hCommits.elim
  | setClockManager manager => exact hCommits.elim
  | _ => trivial

variable {path : GoString}

/-- A converted batch has no state leaf. -/
theorem getElem?_of_convertAll_eq_ok {batch converted : Std.ExtTreeMap GoString GoValue}
    (hConvert : r.convertAll batch = .ok converted) (hState : r.isState path = true) :
    converted[path]? = none := by
  obtain ⟨hImage, hNone⟩ := FinMap.traverse_eq_ok_image hConvert path
  cases hValue : batch[path]? with
  | none => exact hNone hValue
  | some value =>
    obtain ⟨image, hResult, _⟩ := hImage value hValue
    obtain ⟨result, hResult, _⟩ := map_eq_ok_iff.mp hResult
    rw [isState_of_convert_eq_ok hResult] at hState
    cases hState

/-- An accepted edit drops no state leaf. -/
theorem not_mem_droppedPaths_of_isState {req : EditRequest} {content : Values} {edited : Editor}
    (hAccepts : Accepts r req content edited) (hState : r.isState path = true) :
    path ∉ droppedPaths content edited.proposed := by
  obtain ⟨start, rfl, hTouches⟩ := hAccepts.touches
  intro hDropped
  obtain ⟨hThere, hGone⟩ := mem_droppedPaths.mp hDropped
  rw [FinMap.mem_iff_isSome] at hThere hGone
  rw [hTouches.state path hState] at hGone
  exact hGone hThere

theorem spares_edit {req : EditRequest} {ds : Datastore} (content : Values) (edited : Editor)
    (batch : Std.ExtTreeMap GoString GoValue) (hAccepts : Accepts r req content edited)
    (hConvert : r.convertAll ((changedLeaves content edited.proposed).map
      fun _ value => .leaf value) = .ok batch) :
    Request.Spares r written clock
      (.mutate (.apply ds batch (droppedPaths content edited.proposed))) :=
  fun _ hState => ⟨getElem?_of_convertAll_eq_ok hConvert hState,
    not_mem_droppedPaths_of_isState hAccepts hState⟩

theorem spares_domain {value : GoValue} {converted : Result} (hWritten : written path)
    (hConvert : r.convertTo true path value = .ok converted) :
    Request.Spares r written clock
      (.mutate (.set .running converted.path (.leaf converted.value))) := by
  refine ⟨rfl, ?_⟩
  rw [path_of_convertTo_eq_ok hConvert]
  exact hWritten

/-- Every activity spares the state leaves that are not its own. -/
theorem only_activity (activity : Activity) (hWritten : ∀ path, activity.Writes path → written path)
    (hClock : activity.IsClock → clock) :
    (activity.program r).Only (Request.Spares r written clock)
      (fun lock => lock = .syncManager → clock) fun _ => True := by
  have hTransaction : Mutex.transaction = .syncManager → clock := fun hLock => by cases hLock
  have hConfirmed : Mutex.confirmed = .syncManager → clock := fun hLock => by cases hLock
  have hReads : ∀ request : Request, request.Reads → request.Spares r written clock :=
    spares_of_reads
  have hCommits : ∀ request : Request, request.Commits → request.Spares r written clock :=
    spares_of_commits
  have hTaken : ∀ {take : Prog (Option Rollback)}, take.Only (Request.Spares r written clock)
      (fun lock => lock = .syncManager → clock) (fun _ => True) →
      ((Program.locked .confirmed take).bind Netconf.runRollback).Only
        (Request.Spares r written clock)
        (fun lock => lock = .syncManager → clock) fun _ => True := by
    intro take hTake
    refine (Program.Only.locked hConfirmed hTake).bind ?_
    rintro (_ | rollback) _
    · trivial
    · exact only_ask trivial fun _ => trivial
  cases activity with
  | transaction op =>
    have hOp : (op.program r).Only (Request.Spares r written clock)
        (fun lock => lock = .syncManager → clock) fun _ => True := by
      cases op with
      | edit ds req =>
        exact (only_edit hReads spares_edit hTransaction).bind fun _ _ => trivial
      | set varbinds =>
        refine (Snmp.only_set hReads ?_ hTransaction).bind fun _ _ => trivial
        intro content changed batch _ hConvert path hState
        exact ⟨getElem?_of_convertAll_eq_ok hConvert hState, List.not_mem_nil⟩
    exact hOp.bind fun _ _ => trivial
  | editConfig target req =>
    exact (Netconf.only_editConfig hReads spares_edit hTransaction).bind fun _ _ => trivial
  | discardChanges => exact (Netconf.only_discardChanges hCommits).bind fun _ _ => trivial
  | commit => exact (Netconf.only_commit hCommits hConfirmed).bind fun _ _ => trivial
  | confirmedCommit sessionID =>
    exact (Netconf.only_commitConfirmed hCommits hConfirmed).bind fun _ _ => trivial
  | sessionEnded sessionID | timer seq =>
    exact (hTaken (only_ask trivial fun _ => trivial)).bind fun _ _ => trivial
  | setState path value =>
    exact (only_setState hReads fun converted => spares_domain (hWritten path rfl)).bind
      fun _ _ => trivial
  | deleteState path =>
    refine (only_deleteState hReads ?_).bind fun _ _ => trivial
    rintro ⟨canonical, kind, readOnly⟩ hLocate
    obtain ⟨rfl, _⟩ := locate_eq_ok hLocate
    exact ⟨rfl, hWritten canonical rfl⟩
  | increment port delta =>
    exact (only_increment hReads (fun hLock => by cases hLock) fun name value converted =>
      spares_domain (hWritten _ ⟨name, rfl⟩)).bind fun _ _ => trivial
  | clockEvent type =>
    exact (Sync.only_handle hReads trivial (fun _ => hClock trivial)
      (fun value converted => spares_domain (hWritten _ rfl)) fun _ => hClock trivial).bind
        fun _ _ => trivial
  | syncLoss source =>
    exact (Sync.only_syncLoss hReads trivial (fun _ => hClock trivial)
      (fun value converted => spares_domain (hWritten _ rfl)) fun _ => hClock trivial).bind
        fun _ _ => trivial
  | expireHoldover =>
    exact (Sync.only_expireHoldover hReads trivial (fun _ => hClock trivial)
      (fun value converted => spares_domain (hWritten _ rfl)) fun _ => hClock trivial).bind
        fun _ _ => trivial
  | reconcilePTP =>
    exact (Sync.only_reconcilePTP hReads trivial (fun _ => hClock trivial)
      (fun value converted => spares_domain (hWritten _ rfl)) fun _ => hClock trivial).bind
        fun _ _ => trivial

end Only

/-! ## The last domain write -/

section History

variable {ι : Type} {json : Json}

/-- The leaf that a call writes or deletes for a domain, if it does. -/
def domainWrite (event : MachineEvent ι json) : Option (GoString × Option Leaf) :=
  match event with
  | ⟨_, .mutate (.set .running path (.leaf value)), .ok (), _, _⟩ => some (path, some value)
  | ⟨_, .mutate (.delete .running path), .ok (), _, _⟩ => some (path, none)
  | _ => none

/-- A leaf after a call, if only domains write it. -/
def afterWrite (path : GoString) (current : Option Leaf) (event : MachineEvent ι json) :
    Option Leaf :=
  match domainWrite event with
  | some (written, value) => if written = path then value else current
  | none => current

/-- The value of the last domain write to a leaf, or what it was before all of them. -/
def lastWrite (content : Values) (history : List (MachineEvent ι json)) (path : GoString) :
    Option Leaf :=
  history.foldl (afterWrite path) content[path]?

theorem lastWrite_append (content : Values) (history : List (MachineEvent ι json))
    (event : MachineEvent ι json) (path : GoString) :
    lastWrite content (history ++ [event]) path =
      afterWrite path (lastWrite content history path) event := by
  rw [lastWrite, List.foldl_append]
  rfl

/-- The candidate has the state leaves of running. -/
def Mirrored (r : Router) (contents : Contents) : Prop :=
  ∀ path : GoString, r.isState path = true → contents.candidate[path]? = contents.running[path]?

/-- The rollback of a confirmed commit finds the state leaves as they are in its
snapshot. -/
def RestoresState (r : Router) (event : MachineEvent ι json) : Prop :=
  ∀ rollback, event.request = .restore rollback → ∀ path : GoString, r.isState path = true →
    rollback.snapshot[path]? = event.before.memory.running[path]?

/-- What a call may do to the state leaves of running: nothing but a domain write. -/
def KeepsState (r : Router) (event : MachineEvent ι json) : Prop :=
  Mirrored r event.after.contents ∧ ∀ path : GoString, r.isState path = true →
    event.after.memory.running[path]? = afterWrite path event.before.memory.running[path]? event

variable {r : Router} {written : GoString → Prop} {clock : Prop} {opts : Options} {thread : ι}
  {env : CallEnv} {machine : Machine json}

variable {event : MachineEvent ι json} {contents : Contents}

theorem afterWrite_of_domainWrite_eq_none {path : GoString} {current : Option Leaf}
    (hNone : domainWrite event = none) :
    afterWrite path current event = current := by
  rw [afterWrite, hNone]

theorem domainWrite_of_error {op : Mutation} {err : Err} {before after : Machine json} :
    domainWrite (⟨thread, .mutate op, .error err, before, after⟩ : MachineEvent ι json) = none := by
  cases op with
  | set ds path value => cases ds <;> cases value <;> rfl
  | delete ds path => cases ds <;> rfl
  | _ => rfl

/-- A call that leaves the contents alone and is no domain write. -/
theorem keepsState_of_contents_eq (hMirrored : Mirrored r event.before.contents)
    (hSame : event.after.contents = event.before.contents) (hNone : domainWrite event = none) :
    KeepsState r event := by
  refine ⟨by rw [hSame]; exact hMirrored, ?_⟩
  intro path _
  rw [afterWrite_of_domainWrite_eq_none hNone]
  exact congrArg (fun contents : Contents => contents.running[path]?) hSame

/-- The state leaves after an edit of a datastore that treats each leaf for itself: those
of running, and of the candidate next to them. -/
theorem mirrored_edit {f : Values → Values} (step : GoString → Option Leaf → Option Leaf)
    (hMirrored : Mirrored r contents)
    (hLeaf : ∀ values (path : GoString), r.isState path = true →
      (f values)[path]? = step path values[path]?) :
    Mirrored r (contents.edit .running f) ∧ ∀ path : GoString, r.isState path = true →
      (contents.edit .running f).running[path]? = step path contents.running[path]? := by
  refine ⟨?_, fun path hState => hLeaf contents.running path hState⟩
  intro path hState
  calc (contents.edit .running f).candidate[path]?
      = step path contents.candidate[path]? := hLeaf contents.candidate path hState
    _ = step path contents.running[path]? := by rw [hMirrored path hState]
    _ = (contents.edit .running f).running[path]? := (hLeaf contents.running path hState).symm

/-- A batch without state leaves, in whatever datastore. -/
theorem mirrored_apply {ds : Datastore} {leaves : Values} {batch : Std.ExtTreeMap GoString GoValue}
    {deletions : List GoString} (hMirrored : Mirrored r contents)
    (hCheck : Memory.checkValues batch = .ok leaves)
    (hSpares : ∀ path : GoString, r.isState path = true → batch[path]? = none ∧ path ∉ deletions) :
    Mirrored r (contents.edit ds fun target => FinMap.eraseAll (target ∪ leaves) deletions) ∧
      ∀ path : GoString, r.isState path = true → (contents.edit ds fun target =>
        FinMap.eraseAll (target ∪ leaves) deletions).running[path]? = contents.running[path]? := by
  have hLeaf : ∀ (values : Values) (path : GoString), r.isState path = true →
      (FinMap.eraseAll (values ∪ leaves) deletions)[path]? = values[path]? := by
    intro values path hState
    obtain ⟨hBatch, hKept⟩ := hSpares path hState
    have hNone : leaves[path]? = none := (FinMap.traverse_eq_ok_image hCheck path).2 hBatch
    rw [FinMap.getElem?_eraseAll, if_neg hKept, Std.ExtTreeMap.getElem?_union, hNone]
    rfl
  cases ds with
  | running => exact mirrored_edit (fun _ current => current) hMirrored hLeaf
  | candidate =>
    refine ⟨?_, fun path _ => rfl⟩
    intro path hState
    exact (hLeaf contents.candidate path hState).trans (hMirrored path hState)
  | startup | unknown name => exact ⟨hMirrored, fun path _ => rfl⟩

/-- A call after which running and the candidate have the old state leaves. -/
theorem keepsState_of_contents (hAfter : event.after.contents = contents)
    (hNone : domainWrite event = none)
    (hKept : Mirrored r contents ∧ ∀ path : GoString, r.isState path = true →
      contents.running[path]? = event.before.memory.running[path]?) : KeepsState r event := by
  subst hAfter
  refine ⟨hKept.1, ?_⟩
  intro path hState
  rw [afterWrite_of_domainWrite_eq_none hNone]
  exact hKept.2 path hState

/-- A commit moves the candidate to running. -/
theorem mirrored_commit (hMirrored : Mirrored r contents) :
    Mirrored r (.uniform contents.candidate) ∧ ∀ path : GoString, r.isState path = true →
      (Contents.uniform contents.candidate).running[path]? = contents.running[path]? :=
  ⟨fun _ _ => rfl, hMirrored⟩

/-- The effect of a mutation that spares the state leaves. -/
theorem keepsState_of_effect {op : Mutation} {after : Memory json}
    (hSpares : Request.Spares r written clock (.mutate op))
    (hMirrored : Mirrored r machine.contents)
    (hEffect : op.Effect opts env machine.memory after.contents) :
    KeepsState r ⟨thread, .mutate op, .ok (), machine, { machine with memory := after }⟩ := by
  cases op with
  | set ds path value =>
    obtain ⟨rfl, _⟩ := hSpares
    obtain ⟨leaf, rfl, _, _, hAfter⟩ := hEffect
    have hEdit := mirrored_edit (fun other current => if path = other then some leaf else current)
      hMirrored fun values other _ => FinMap.getElem?_insert_ite values path other leaf
    rw [← hAfter] at hEdit
    exact hEdit
  | delete ds path =>
    obtain ⟨rfl, _⟩ := hSpares
    obtain ⟨_, hAfter⟩ := hEffect
    have hEdit := mirrored_edit (fun other current => if path = other then none else current)
      hMirrored fun values other _ => FinMap.getElem?_erase_ite values path other
    rw [← hAfter] at hEdit
    exact hEdit
  | apply ds batch deletions =>
    obtain ⟨leaves, hCheck, _, _, hAfter⟩ := hEffect
    exact keepsState_of_contents hAfter rfl (mirrored_apply hMirrored hCheck hSpares)
  | commit => exact keepsState_of_contents hEffect.2 rfl (mirrored_commit hMirrored)
  | rollback => exact keepsState_of_contents hEffect rfl ⟨fun _ _ => rfl, fun _ _ => rfl⟩
  | restore values | loadStartup => exact hSpares.elim

/-- No call that spares the state leaves changes one, except for a domain write and for a
rollback that finds them changed. -/
theorem keepsState_of_call {request : Request} (hSpares : request.Spares r written clock)
    (hMirrored : Mirrored r machine.contents)
    (hRestores : RestoresState r (callEvent (Machine.handle opts) thread env request machine)) :
    KeepsState r (callEvent (Machine.handle opts) thread env request machine) := by
  cases request with
  | mutate op =>
    show KeepsState r ⟨thread, .mutate op, (machine.memory.mutate opts env op).1, machine,
      { machine with memory := (machine.memory.mutate opts env op).2 }⟩
    rcases machine.memory.mutate_meets opts env op with ⟨hOk, hEffect⟩ | ⟨err, hErr, hSame⟩
    · rw [hOk]
      exact keepsState_of_effect hSpares hMirrored hEffect
    · rw [hErr]
      exact keepsState_of_contents_eq hMirrored hSame domainWrite_of_error
  | commitConfirmed rollback =>
    rcases machine.memory.mutate_meets opts env .commit with ⟨_, _, hAfter⟩ | ⟨err, _, hSame⟩
    · exact keepsState_of_contents hAfter rfl (mirrored_commit hMirrored)
    · exact keepsState_of_contents_eq hMirrored hSame rfl
  | restore rollback =>
    rcases machine.memory.mutate_meets opts env (.restore rollback.snapshot) with
      ⟨_, hAfter⟩ | ⟨err, _, hSame⟩
    · refine keepsState_of_contents hAfter rfl ⟨?_, hRestores rollback rfl⟩
      intro path hState
      exact (hMirrored path hState).trans (hRestores rollback rfl path hState).symm
    · exact keepsState_of_contents_eq hMirrored hSame rfl
  | takeDue seq | takeOwned sessionID =>
    refine keepsState_of_contents_eq hMirrored ?_ rfl
    show (machine.take _).2.contents = machine.contents
    unfold Machine.take
    repeat' split
    all_goals rfl
  | _ => exact keepsState_of_contents_eq hMirrored rfl rfl

/-! ## Runs -/

/-- In a run whose rollbacks find the state leaves of their snapshots, every call keeps the
state leaves or writes one for a domain. -/
theorem keepsState_of_reaches [DecidableEq ι] {activities : ι → Activity}
    {envs : ι → Nat → CallEnv} {machine : Machine json} (hMirrored : Mirrored r machine.contents)
    {system : System ι Mutex Request Request.Response CallEnv (Machine json) Outcome}
    (hReaches : System.Reaches (Machine.handle opts) (fun _ event => RestoresState r event)
      (activitySystem r activities envs machine) system) :
    Each (fun _ event => KeepsState r event) system.world.history ∧
      Mirrored r system.world.state.contents ∧ ∀ path : GoString, r.isState path = true →
        system.world.state.memory.running[path]? =
          lastWrite machine.memory.running system.world.history path := by
  obtain ⟨hReplays, hState⟩ := hReaches.replays rfl
  have hSpares := hReaches.each_only rfl fun thread =>
    only_activity (r := r) (activities thread) (fun _ _ => trivial) fun _ => trivial
  have hAllowed : Each (fun _ event => RestoresState r event) system.world.history :=
    hReaches.each each_nil fun _ _ _ _ _ _ _ hAllowed => hAllowed
  rw [hState]
  refine ((hReplays.and hSpares).and hAllowed).induction
    (I := fun history => Each (fun _ event => KeepsState r event) history ∧
      Mirrored r (lastState machine history).contents ∧ ∀ path : GoString,
        r.isState path = true → (lastState machine history).memory.running[path]? =
          lastWrite machine.memory.running history path)
    ⟨each_nil, hMirrored, fun path _ => rfl⟩ ?_
  rintro earlier event ⟨hEarlier, hBefore, hLast⟩ ⟨⟨⟨env, hEvent⟩, hRequest⟩, hRestores⟩
  have hKeeps : KeepsState r event := by
    rw [hEvent] at hRestores ⊢
    exact keepsState_of_call hRequest hBefore hRestores
  refine ⟨each_append_singleton.mpr ⟨hEarlier, hKeeps⟩, ?_⟩
  rw [lastState_append]
  refine ⟨hKeeps.1, ?_⟩
  intro path hPath
  have hCurrent : event.before = lastState machine earlier := by rw [hEvent]; rfl
  rw [hKeeps.2 path hPath, lastWrite_append, hCurrent, hLast path hPath]

end History

end TriadSim

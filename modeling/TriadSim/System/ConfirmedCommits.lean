import TriadSim.System.Phases

/-!
# Confirmed commits over whole runs

What becomes of the rollback of a confirmed commit, over every interleaving of sessions, timers,
the other planes and the domains.  Both results are inductions over the history: where a rollback
comes from, and which rollbacks a confirming commit leaves behind.  They are
`rollback_restores_running_before_first_commit` and `confirming_commit_is_final`.
-/

namespace TriadSim

open Go Library Router Store

section ConfirmedCommits

variable {ι : Type} {json : Json} {opts : Options}

/-! ## Where a rollback comes from -/

/-- When the first confirmed commit of a chain is applied, running still is what its
snapshot says. -/
def SnapshotCurrent (event : MachineEvent ι json) : Prop :=
  ∀ rollback, event.request = .commitConfirmed rollback → event.before.confirmed.pend = none →
    event.before.memory.running = rollback.snapshot

/-- The rollback leads back to just before its commit, the first of its chain. -/
def Origin (history : List (MachineEvent ι json)) (rollback : Rollback) : Prop :=
  ∃ commit ∈ history, confirmedBy commit = some rollback ∧ commit.before.confirmed.pend = none ∧
    commit.before.memory.running = rollback.snapshot

variable {history : List (MachineEvent ι json)} {machine : Machine json}

theorem Origin.append {rollback : Rollback} (hOrigin : Origin history rollback)
    (event : MachineEvent ι json) :
    Origin (history ++ [event]) rollback := by
  obtain ⟨commit, hCommit, hFacts⟩ := hOrigin
  exact ⟨commit, List.mem_append_left _ hCommit, hFacts⟩

variable [DecidableEq ι]

/-- Every rollback that is armed or in someone's hands has its origin. -/
structure Traceable (machine : Machine json) (history : List (MachineEvent ι json)) : Prop where
  pend : ∀ pend, (lastState machine history).confirmed.pend = some pend →
    Origin history pend.rollback
  applied : ∀ thread rollback, phaseOf history thread = .applied rollback → Origin history rollback
  holding : ∀ thread rollback, phaseOf history thread = .holding rollback → Origin history rollback

/-- What is known of a call of a run in which snapshots stay current. -/
structure CurrentCall (opts : Options) (machine : Machine json)
    (earlier : List (MachineEvent ι json)) (event : MachineEvent ι json) : Prop where
  replays : ∃ env, event = callEvent (Machine.handle opts) event.thread env event.request
    (lastState machine earlier)
  disciplined : Disciplined earlier event
  current : SnapshotCurrent event

theorem Traceable.step {earlier : List (MachineEvent ι json)} {event : MachineEvent ι json}
    (hTraceable : Traceable machine earlier) (hCall : CurrentCall opts machine earlier event) :
    Traceable machine (earlier ++ [event]) := by
  obtain ⟨env, hEvent⟩ := hCall.replays
  have hBefore : event.before = lastState machine earlier := by rw [hEvent]; rfl
  have hOrigin : ∀ rollback, confirmedBy event = some rollback →
      event.before.confirmed.pend = none → Origin (earlier ++ [event]) rollback := by
    intro rollback hApplied hNone
    exact ⟨event, List.mem_append_right _ (List.mem_singleton_self _), hApplied, hNone,
      hCall.current rollback (request_of_confirmedBy hApplied) hNone⟩
  refine ⟨?_, ?_, ?_⟩
  · intro pend hPend
    rw [lastState_append, hEvent] at hPend
    rcases pend_of_call hPend with hOld | ⟨sessionID, hArm⟩
    · exact (hTraceable.pend pend hOld).append event
    · have hPhase := hCall.disciplined
      rw [Disciplined, hArm] at hPhase
      exact (hTraceable.applied _ _ hPhase).append event
  · intro thread rollback hPhase
    rw [phaseOf_append] at hPhase
    split at hPhase
    · rcases applied_of_next hPhase with hOld | ⟨hApplied, hNone⟩
      · exact (hTraceable.applied thread rollback hOld).append event
      · exact hOrigin rollback hApplied hNone
    · exact (hTraceable.applied thread rollback hPhase).append event
  · intro thread rollback hPhase
    rw [phaseOf_append] at hPhase
    split at hPhase
    · rw [hEvent] at hPhase
      rcases holding_of_next hPhase with hOld | ⟨pend, hPend, rfl⟩
      · exact (hTraceable.holding thread rollback hOld).append event
      · exact (hTraceable.pend pend hPend).append event
    · exact (hTraceable.holding thread rollback hPhase).append event

theorem traceable_of_each (hIdle : machine.confirmed.pend = none)
    (hEach : Each (CurrentCall opts machine) history) :
    Traceable machine history := by
  refine hEach.induction ⟨?_, ?_, ?_⟩ fun earlier event hTraceable hCall => hTraceable.step hCall
  · intro pend hPend
    rw [lastState_nil, hIdle] at hPend
    cases hPend
  · intro thread rollback hPhase
    cases hPhase
  · intro thread rollback hPhase
    cases hPhase

/-- In every run in which snapshots stay current, a rollback puts back exactly what running
held just before the first confirmed commit of its chain was applied. -/
theorem rollback_restores_running_before_first_commit (opts : Options) (r : Router)
    (activities : ι → Activity) (envs : ι → Nat → CallEnv) (machine : Machine json)
    (hIdle : machine.confirmed.pend = none)
    {system : System ι Mutex Request Request.Response CallEnv (Machine json) Outcome}
    (hReaches : System.Reaches (Machine.handle opts) (fun _ event => SnapshotCurrent event)
      (activitySystem r activities envs machine) system)
    {earlier later : List (MachineEvent ι json)} {event : MachineEvent ι json}
    {rollback : Rollback} (hHistory : system.world.history = earlier ++ event :: later)
    (hRestored : restoredBy event = some rollback) :
    ∃ commit ∈ earlier, confirmedBy commit = some rollback ∧
      commit.before.confirmed.pend = none ∧
      event.after.memory.running = commit.before.memory.running := by
  have hReplays := (hReaches.replays rfl).1
  have hCurrent : Each (fun _ event => SnapshotCurrent event) system.world.history :=
    hReaches.each each_nil fun _ _ _ _ _ _ _ hAllowed => hAllowed
  have hEach : Each (CurrentCall opts machine) system.world.history :=
    fun before found rest hSplit => ⟨hReplays before found rest hSplit,
      disciplined_of_reaches hReaches before found rest hSplit, hCurrent before found rest hSplit⟩
  rw [hHistory] at hEach
  have hCall := hEach earlier event later rfl
  have hTraceable := traceable_of_each hIdle hEach.of_append
  have hPhase := hCall.disciplined
  rw [Disciplined, request_of_restoredBy hRestored] at hPhase
  obtain ⟨commit, hCommit, hApplied, hNone, hRunning⟩ := hTraceable.holding _ _ hPhase
  refine ⟨commit, hCommit, hApplied, hNone, ?_⟩
  obtain ⟨env, hEvent⟩ := hCall.replays
  rw [hRunning]
  rw [hEvent] at hRestored ⊢
  exact running_of_restoredBy hRestored

/-! ## Confirming commits -/

/-- No confirmed commit and no rollback is on its way in this phase. -/
def Phase.Settled : Phase → Prop
  | .idle | .confirming => True
  | _ => False

/-- A plain commit confirms while no confirmed commit and no rollback is on its way, and no
confirmed commit arrives between that and the answer of the plain commit. -/
def Unhindered (earlier : List (MachineEvent ι json)) (event : MachineEvent ι json) : Prop :=
  (event.request = .confirm → ∀ thread, (phaseOf earlier thread).Settled) ∧
    (event.request = .issued true → ∀ thread, phaseOf earlier thread ≠ .confirming)

/-- The confirmed commit with the number is in progress, or on its way there, or its
rollback is about to be run. -/
def Live (machine : Machine json) (history : List (MachineEvent ι json)) (rpc : Nat) : Prop :=
  (∃ pend, (lastState machine history).confirmed.pend = some pend ∧ pend.rollback.rpc = rpc) ∨
    ∃ thread, phaseOf history thread = .applying rpc ∨ ∃ rollback, rollback.rpc = rpc ∧
      (phaseOf history thread = .applied rollback ∨ phaseOf history thread = .holding rollback)

/-- A number that no plain commit had yet seen when it was answered. -/
def Unseen (history : List (MachineEvent ι json)) (rpc : Nat) : Prop :=
  ∀ event ∈ history, event.request = .returned false true → event.before.requests ≤ rpc

/-- What a run keeps up when plain commits are not hindered. -/
structure Settling (machine : Machine json) (history : List (MachineEvent ι json)) : Prop where
  unseen : ∀ rpc, Live machine history rpc → Unseen history rpc
  confirming : ∀ thread, phaseOf history thread = .confirming → ∀ rpc, ¬ Live machine history rpc
  requests : Unseen history (lastState machine history).requests
  issued : ∀ event ∈ history, ∀ rpc, issuedNumber event = some rpc →
    rpc < (lastState machine history).requests

/-- What is known of a call of such a run. -/
structure UnhinderedCall (opts : Options) (machine : Machine json)
    (earlier : List (MachineEvent ι json)) (event : MachineEvent ι json) : Prop where
  replays : ∃ env, event = callEvent (Machine.handle opts) event.thread env event.request
    (lastState machine earlier)
  disciplined : Disciplined earlier event
  unhindered : Unhindered earlier event

section Steps

variable {machine : Machine json} {earlier : List (MachineEvent ι json)}
  {event : MachineEvent ι json}

variable {rpc : Nat}

/-- A live number was live before or has just been given out. -/
theorem live_of_append (hCall : UnhinderedCall opts machine earlier event)
    (hLive : Live machine (earlier ++ [event]) rpc) :
    Live machine earlier rpc ∨
      event.request = .issued true ∧ rpc = (lastState machine earlier).requests := by
  obtain ⟨env, hEvent⟩ := hCall.replays
  have hDisciplined := hCall.disciplined
  rcases hLive with ⟨pend, hPend, rfl⟩ | ⟨thread, hPhase⟩
  · rw [lastState_append, hEvent] at hPend
    rcases pend_of_call hPend with hOld | ⟨sessionID, hArm⟩
    · exact Or.inl (Or.inl ⟨pend, hOld, rfl⟩)
    · rw [Disciplined, hArm] at hDisciplined
      exact Or.inl (Or.inr ⟨_, Or.inr ⟨_, rfl, Or.inl hDisciplined⟩⟩)
  · rw [phaseOf_append] at hPhase
    split at hPhase
    · next hThread =>
      subst hThread
      rcases hPhase with hApplying | ⟨rollback, rfl, hApplied | hHolding⟩
      · rcases applying_of_next hApplying with hOld | hIssued
        · exact Or.inl (Or.inr ⟨_, Or.inl hOld⟩)
        · rw [hEvent] at hIssued
          exact Or.inr (issued_of_issuedNumber hIssued)
      · rcases applied_of_next hApplied with hOld | ⟨hConfirmed, _⟩
        · exact Or.inl (Or.inr ⟨_, Or.inr ⟨_, rfl, Or.inl hOld⟩⟩)
        · rw [Disciplined, request_of_confirmedBy hConfirmed] at hDisciplined
          exact Or.inl (Or.inr ⟨_, Or.inl hDisciplined⟩)
      · rw [hEvent] at hHolding
        rcases holding_of_next hHolding with hOld | ⟨pend, hPend, rfl⟩
        · exact Or.inl (Or.inr ⟨_, Or.inr ⟨_, rfl, Or.inr hOld⟩⟩)
        · exact Or.inl (Or.inl ⟨pend, hPend, rfl⟩)
    · exact Or.inl (Or.inr ⟨thread, hPhase⟩)

omit [DecidableEq ι] in
theorem unseen_append (hEarlier : Unseen earlier rpc)
    (hEvent : event.request = .returned false true → event.before.requests ≤ rpc) :
    Unseen (earlier ++ [event]) rpc := by
  intro found hFound
  rw [List.mem_append, List.mem_singleton] at hFound
  rcases hFound with hFound | rfl
  · exact hEarlier found hFound
  · exact hEvent

theorem not_live_of_settled (hNone : (lastState machine earlier).confirmed.pend = none)
    (hSettled : ∀ thread, (phaseOf earlier thread).Settled) : ¬ Live machine earlier rpc := by
  rintro (⟨pend, hPend, _⟩ | ⟨thread, hPhase⟩)
  · rw [hNone] at hPend
    cases hPend
  · have hThread := hSettled thread
    rcases hPhase with hPhase | ⟨rollback, _, hPhase | hPhase⟩
    all_goals
      rw [hPhase] at hThread
      exact hThread

theorem Settling.step (hSettling : Settling machine earlier)
    (hCall : UnhinderedCall opts machine earlier event) :
    Settling machine (earlier ++ [event]) := by
  obtain ⟨env, hEvent⟩ := hCall.replays
  have hBefore : event.before = lastState machine earlier := by rw [hEvent]; rfl
  have hRequests : (lastState machine earlier).requests ≤ event.after.requests := by
    rw [hEvent]
    exact requests_le_of_call
  refine ⟨?_, ?_, ?_, ?_⟩
  · intro rpc hLive
    rcases live_of_append hCall hLive with hOld | ⟨hIssued, rfl⟩
    · refine unseen_append (hSettling.unseen rpc hOld) ?_
      -- a plain commit is answered while it confirms, when nothing is live
      intro hReturned
      have hPhase := hCall.disciplined
      rw [Disciplined, hReturned] at hPhase
      exact absurd hOld (hSettling.confirming event.thread hPhase rpc)
    · refine unseen_append hSettling.requests ?_
      intro hReturned
      rw [hIssued] at hReturned
      cases hReturned
  · intro thread hPhase rpc hLive
    rw [phaseOf_append] at hPhase
    have hOld : phaseOf earlier thread = .confirming → False := by
      intro hConfirming
      rcases live_of_append hCall hLive with hOld | ⟨hIssued, _⟩
      · exact hSettling.confirming thread hConfirming rpc hOld
      · exact hCall.unhindered.2 hIssued thread hConfirming
    split at hPhase
    · rcases confirming_of_next hPhase with hConfirming | hConfirm
      · exact hOld hConfirming
      · refine not_live_of_settled ?_ ?_ hLive
        · rw [lastState_append, hEvent, hConfirm]
          rfl
        · intro other
          rw [phaseOf_append]
          split
          · rw [hEvent, hConfirm]
            trivial
          · exact hCall.unhindered.1 hConfirm other
    · exact hOld hPhase
  · rw [lastState_append]
    refine unseen_append ?_ ?_
    · intro found hFound hReturned
      exact (hSettling.requests found hFound hReturned).trans hRequests
    · intro _
      rw [hBefore]
      exact hRequests
  · intro found hFound rpc hIssued
    rw [lastState_append]
    rw [List.mem_append, List.mem_singleton] at hFound
    rcases hFound with hFound | rfl
    · exact (hSettling.issued found hFound rpc hIssued).trans_le hRequests
    · rw [hEvent] at hIssued ⊢
      obtain ⟨hRequest, rfl⟩ := issued_of_issuedNumber hIssued
      rw [hRequest]
      exact Nat.lt_succ_self _

end Steps

theorem settling_of_each (hIdle : machine.confirmed.pend = none)
    (hEach : Each (UnhinderedCall opts machine) history) :
    Settling machine history := by
  refine hEach.induction ⟨?_, ?_, ?_, ?_⟩ fun earlier event hSettling hCall => hSettling.step hCall
  · intro rpc hLive
    exact absurd hLive (not_live_of_settled hIdle fun _ => trivial)
  · intro thread hPhase
    cases hPhase
  · intro event hEvent
    cases hEvent
  · intro event hEvent
    cases hEvent

/-- In every run whose plain commits are not hindered, no rollback that succeeds after a
plain commit was answered with success belongs to a confirmed commit that had been taken
in by then. -/
theorem confirming_commit_is_final (opts : Options) (r : Router) (activities : ι → Activity)
    (envs : ι → Nat → CallEnv) (machine : Machine json) (hIdle : machine.confirmed.pend = none)
    {system : System ι Mutex Request Request.Response CallEnv (Machine json) Outcome}
    (hReaches : System.Reaches (Machine.handle opts)
      (fun world event => Unhindered world.history event)
      (activitySystem r activities envs machine) system)
    {earlier middle later : List (MachineEvent ι json)} {answer restore : MachineEvent ι json}
    {rollback : Rollback}
    (hHistory : system.world.history = earlier ++ answer :: middle ++ restore :: later)
    (hAnswer : answer.request = .returned false true)
    (hRestored : restoredBy restore = some rollback) :
    ∀ issue ∈ earlier, issuedNumber issue ≠ some rollback.rpc := by
  have hReplays := (hReaches.replays rfl).1
  have hUnhindered : Each Unhindered system.world.history :=
    hReaches.each each_nil fun _ _ _ _ _ _ _ hAllowed => hAllowed
  have hEach : Each (UnhinderedCall opts machine) system.world.history :=
    fun before found rest hSplit => ⟨hReplays before found rest hSplit,
      disciplined_of_reaches hReaches before found rest hSplit,
      hUnhindered before found rest hSplit⟩
  rw [hHistory] at hEach
  -- the rollback is live when it is run, so the plain commit had not seen it
  have hRun := settling_of_each hIdle hEach.of_append
  have hPhase := (hEach _ restore later rfl).disciplined
  rw [Disciplined, request_of_restoredBy hRestored] at hPhase
  have hLive : Live machine (earlier ++ answer :: middle) rollback.rpc :=
    Or.inr ⟨_, Or.inr ⟨rollback, rfl, Or.inr hPhase⟩⟩
  have hLater := hRun.unseen _ hLive answer (by simp) hAnswer
  -- while whatever had been taken in by then has a smaller number
  have hUpTo : Each (UnhinderedCall opts machine) (earlier ++ answer :: middle) := hEach.of_append
  obtain ⟨env, hCall⟩ := (hUpTo earlier answer middle rfl).replays
  have hBefore : answer.before = lastState machine earlier := by rw [hCall]; rfl
  have hEarlier := settling_of_each hIdle hUpTo.of_append
  intro issue hIssue hIssued
  have hSmaller := hEarlier.issued issue hIssue _ hIssued
  rw [← hBefore] at hSmaller
  omega

end ConfirmedCommits

/-! ## Runs -/

/-- The call that answers a plain commit with success. -/
def answersPlainCommit {ι : Type} {json : Json} (event : MachineEvent ι json) : Bool :=
  match event.request with
  | .returned false true => true
  | _ => false

variable {json : Json}

theorem request_of_answersPlainCommit {ι : Type} {event : MachineEvent ι json}
    (hAnswers : answersPlainCommit event = true) : event.request = .returned false true := by
  unfold answersPlainCommit at hAnswers
  split at hAnswers
  · next hRequest => exact hRequest
  · cases hAnswers

def Phase.isSettled : Phase → Bool
  | .idle | .confirming => true
  | _ => false

def Phase.isConfirming : Phase → Bool
  | .confirming => true
  | _ => false

/-- `Unhindered` as a check. -/
def isUnhindered {n : Nat} {json : Json} (world : MachineWorld (Fin n) json)
    (event : MachineEvent (Fin n) json) : Bool :=
  match event.request with
  | .confirm => decide (∀ thread, (phaseOf world.history thread).isSettled = true)
  | .issued true => decide (∀ thread, (phaseOf world.history thread).isConfirming = false)
  | _ => true

theorem unhindered_of_isUnhindered {n : Nat} (world : MachineWorld (Fin n) json)
    (event : MachineEvent (Fin n) json) (hCheck : isUnhindered world event = true) :
    Unhindered world.history event := by
  constructor
  · intro hConfirm thread
    rw [isUnhindered, hConfirm, decide_eq_true_eq] at hCheck
    have hThread := hCheck thread
    cases hPhase : phaseOf world.history thread with
    | idle | confirming => trivial
    | _ =>
      rw [hPhase] at hThread
      cases hThread
  · intro hIssued thread hPhase
    rw [isUnhindered, hIssued, decide_eq_true_eq] at hCheck
    have hThread := hCheck thread
    rw [hPhase] at hThread
    cases hThread

/-- A confirmed commit that is confirmed, and another one that times out. -/
def confirmThenTimeout : Option (System (Fin 4) Mutex Request Request.Response CallEnv
    (Machine Json.plain) Outcome) :=
  (labSystem ![.confirmedCommit 1, .commit, .confirmedCommit 1, .timer 2]).checkedRun labHandle
    isUnhindered (List.replicate 9 0 ++ List.replicate 6 1 ++ List.replicate 9 2 ++
      List.replicate 4 3)

theorem timeout_after_confirming_commit_is_of_later_commit :
    ∃ system, confirmThenTimeout = some system ∧
      ∃ earlier answer middle restore later rollback,
        system.world.history = earlier ++ answer :: middle ++ restore :: later ∧
        answer.request = .returned false true ∧ restoredBy restore = some rollback ∧
        ∀ issue ∈ earlier, issuedNumber issue ≠ some rollback.rpc := by
  have hCalls : confirmThenTimeout.map (fun system =>
      (system.world.history[10]?.any answersPlainCommit,
        (system.world.history.drop 11)[8]?.any fun event => (restoredBy event).isSome)) =
      some (true, true) := by
    decide +kernel
  obtain ⟨system, hRun, hCalls⟩ := Option.map_eq_some_iff.mp hCalls
  rw [Prod.mk.injEq] at hCalls
  obtain ⟨answer, hAnswer, hAnswers⟩ := (Option.any_eq_true _ _).mp hCalls.1
  obtain ⟨restore, hRestore, hRestores⟩ := (Option.any_eq_true _ _).mp hCalls.2
  obtain ⟨rollback, hRollback⟩ := Option.isSome_iff_exists.mp hRestores
  have hSplit := split_of_getElem?_of_getElem? hAnswer hRestore
  refine ⟨system, hRun, _, answer, _, restore, _, rollback, hSplit,
    request_of_answersPlainCommit hAnswers, hRollback, ?_⟩
  exact confirming_commit_is_final (defaultRouter.options []) defaultRouter
    ![.confirmedCommit 1, .commit, .confirmedCommit 1, .timer 2] (fun _ _ => CallEnv.quiet)
    labMachine rfl (System.reaches_of_checkedRun _ unhindered_of_isUnhindered .start hRun) hSplit
    (request_of_answersPlainCommit hAnswers) hRollback

/-- The timer has taken the rollback when the plain commit confirms, and runs it after the
plain commit was answered. -/
def confirmBeforeRestore : Option (System (Fin 3) Mutex Request Request.Response CallEnv
    (Machine Json.plain) Outcome) :=
  (labSystem ![.confirmedCommit 1, .timer 1, .commit]).run labHandle
    (List.replicate 9 0 ++ List.replicate 3 1 ++ List.replicate 6 2 ++ [1])

/-- The name of the VLAN that the commits brought into running. -/
def labName : GoString := "vlans/vlan[id=10]/name"

theorem confirmed_commit_is_rolled_back_after_confirming_commit :
    ∃ system, confirmBeforeRestore = some system ∧
      ∃ earlier answer middle restore later rollback,
        system.world.history = earlier ++ answer :: middle ++ restore :: later ∧
        answer.request = .returned false true ∧ restoredBy restore = some rollback ∧
        (∃ issue ∈ earlier, issuedNumber issue = some rollback.rpc) ∧
        labName ∈ answer.after.memory.running ∧ labName ∉ restore.after.memory.running := by
  have hCalls : confirmBeforeRestore.map (fun system =>
      (system.world.history[11]?.any fun answer =>
          answersPlainCommit answer && answer.after.memory.running.contains labName,
        (system.world.history.drop 12)[0]?.any fun restore =>
          !restore.after.memory.running.contains labName &&
            (restoredBy restore).any fun rollback => (system.world.history.take 11).any
              fun issue => issuedNumber issue = some rollback.rpc)) = some (true, true) := by
    decide +kernel
  obtain ⟨system, hRun, hCalls⟩ := Option.map_eq_some_iff.mp hCalls
  rw [Prod.mk.injEq] at hCalls
  obtain ⟨answer, hAnswer, hAnswers⟩ := (Option.any_eq_true _ _).mp hCalls.1
  obtain ⟨restore, hRestore, hRestores⟩ := (Option.any_eq_true _ _).mp hCalls.2
  rw [Bool.and_eq_true] at hAnswers hRestores
  obtain ⟨rollback, hRollback, hIssued⟩ := (Option.any_eq_true _ _).mp hRestores.2
  obtain ⟨issue, hIssue, hNumber⟩ := List.any_eq_true.mp hIssued
  refine ⟨system, hRun, _, answer, _, restore, _, rollback,
    split_of_getElem?_of_getElem? hAnswer hRestore, request_of_answersPlainCommit hAnswers.1,
    hRollback, ⟨issue, hIssue, of_decide_eq_true hNumber⟩, ?_, ?_⟩
  · exact Std.ExtTreeMap.contains_iff_mem.mp hAnswers.2
  · intro hMem
    rw [Std.ExtTreeMap.contains_iff_mem.mpr hMem] at hRestores
    cases hRestores.1

/-- `SnapshotCurrent` as a check. -/
def isSnapshotCurrent {ι : Type} {json : Json} (_ : MachineWorld ι json)
    (event : MachineEvent ι json) : Bool :=
  match event.request with
  | .commitConfirmed rollback =>
    event.before.confirmed.pend.isSome ||
      event.before.memory.running.toList = rollback.snapshot.toList
  | _ => true

theorem snapshotCurrent_of_isSnapshotCurrent {ι : Type} (world : MachineWorld ι json)
    (event : MachineEvent ι json) (hCheck : isSnapshotCurrent world event = true) :
    SnapshotCurrent event := by
  intro rollback hRequest hNone
  rw [isSnapshotCurrent, hRequest] at hCheck
  dsimp only at hCheck
  rw [hNone, Option.isSome_none, Bool.false_or, decide_eq_true_eq] at hCheck
  exact Std.ExtTreeMap.ext_toList (by rw [hCheck])

/-- A confirmed commit that times out, with an edit of running after it. -/
def editThenTimeout : Option (System (Fin 3) Mutex Request Request.Response CallEnv
    (Machine Json.plain) Outcome) :=
  (labSystem ![.confirmedCommit 1, .transaction (.edit .running Datatree.describeRequest),
    .timer 1]).checkedRun labHandle isSnapshotCurrent
      (List.replicate 9 0 ++ List.replicate 9 1 ++ List.replicate 4 2)

theorem timeout_restores_running_before_first_commit :
    ∃ system, editThenTimeout = some system ∧
      ∃ earlier event later rollback, system.world.history = earlier ++ event :: later ∧
        restoredBy event = some rollback ∧
        ∃ commit ∈ earlier, confirmedBy commit = some rollback ∧
          commit.before.confirmed.pend = none ∧
          event.after.memory.running = commit.before.memory.running := by
  have hCalls : editThenTimeout.map (fun system =>
      system.world.history[15]?.any fun event => (restoredBy event).isSome) = some true := by
    decide +kernel
  obtain ⟨system, hRun, hCalls⟩ := Option.map_eq_some_iff.mp hCalls
  obtain ⟨event, hEvent, hRestores⟩ := (Option.any_eq_true _ _).mp hCalls
  obtain ⟨rollback, hRollback⟩ := Option.isSome_iff_exists.mp hRestores
  refine ⟨system, hRun, _, event, _, rollback, split_of_getElem? hEvent, hRollback, ?_⟩
  exact rollback_restores_running_before_first_commit (defaultRouter.options []) defaultRouter
    ![.confirmedCommit 1, .transaction (.edit .running Datatree.describeRequest), .timer 1]
    (fun _ _ => CallEnv.quiet) labMachine rfl
    (System.reaches_of_checkedRun _ snapshotCurrent_of_isSnapshotCurrent .start hRun)
    (split_of_getElem? hEvent) hRollback

/-- The edit of running comes between the snapshot and the commit. -/
def editAfterSnapshot : Option (System (Fin 3) Mutex Request Request.Response CallEnv
    (Machine Json.plain) Outcome) :=
  (labSystem ![.confirmedCommit 1, .transaction (.edit .running Datatree.describeRequest),
    .timer 1]).run labHandle
      (List.replicate 2 0 ++ List.replicate 9 1 ++ List.replicate 7 0 ++ List.replicate 4 2)

/-- The leaf that the edit has written. -/
def labDescription : GoString := "system-info/description"

theorem rollback_discards_edit_before_confirmed_commit :
    ∃ system, editAfterSnapshot = some system ∧
      ∃ earlier commit middle restore later rollback,
        system.world.history = earlier ++ commit :: middle ++ restore :: later ∧
        confirmedBy commit = some rollback ∧ commit.before.confirmed.pend = none ∧
        restoredBy restore = some rollback ∧
        labDescription ∈ commit.before.memory.running ∧
        labDescription ∉ restore.after.memory.running := by
  have hCalls : editAfterSnapshot.map (fun system =>
      system.world.history[10]?.any fun commit =>
        (system.world.history.drop 11)[4]?.any fun restore =>
          ((commit.before.confirmed.pend.isNone &&
            (commit.before.memory.running.contains labDescription &&
              !restore.after.memory.running.contains labDescription)) &&
            (confirmedBy commit).any fun armed => (restoredBy restore).any fun run =>
              armed.rpc = run.rpc && armed.snapshot.toList = run.snapshot.toList)) = some true := by
    decide +kernel
  obtain ⟨system, hRun, hCalls⟩ := Option.map_eq_some_iff.mp hCalls
  obtain ⟨commit, hCommit, hCalls⟩ := (Option.any_eq_true _ _).mp hCalls
  obtain ⟨restore, hRestore, hCalls⟩ := (Option.any_eq_true _ _).mp hCalls
  simp only [Bool.and_eq_true, Bool.not_eq_true', Option.isNone_iff_eq_none,
    Std.ExtTreeMap.contains_iff_mem] at hCalls
  obtain ⟨⟨hNone, hBefore, hAfter⟩, hSame⟩ := hCalls
  obtain ⟨armed, hArmed, hSame⟩ := (Option.any_eq_true _ _).mp hSame
  obtain ⟨run, hRestored, hSame⟩ := (Option.any_eq_true _ _).mp hSame
  rw [Bool.and_eq_true, decide_eq_true_eq, decide_eq_true_eq] at hSame
  have hRollback : armed = run := by
    obtain ⟨rpc, snapshot⟩ := armed
    obtain ⟨rpc', snapshot'⟩ := run
    obtain ⟨hRpc, hList⟩ := hSame
    have hSnapshot : snapshot = snapshot' := Std.ExtTreeMap.ext_toList (by rw [hList])
    rw [Rollback.mk.injEq]
    exact ⟨hRpc, hSnapshot⟩
  subst hRollback
  exact ⟨system, hRun, _, commit, _, restore, _, armed,
    split_of_getElem?_of_getElem? hCommit hRestore, hArmed, hNone, hRestored, hBefore,
    fun hMem => by rw [Std.ExtTreeMap.contains_iff_mem.mpr hMem] at hAfter; cases hAfter⟩

end TriadSim

import TriadSim.System.Chains

/-!
# Timers that expire while the lock is held

`time.AfterFunc` runs its callback in a goroutine of its own, and `Confirmed.fire` begins by taking
the lock of `Confirmed`.  So a timer can have expired while its callback still waits for the lock.
Here every critical section of that lock is one step, and so are the expiry of a timer, which
leaves a waiting callback behind, every access of another thread to the shared state, and the run
of a rollback that was taken before.

`Reset` of a timer that has expired does not call back the callback that waits.  As long as no
callback of a confirmed commit waits when the commit is followed up, no timeout rolls it back
before the restarted timer is due (`follow_up_restarts_clock`).
-/

namespace TriadSim

open Datatree Go Library Router Store

/-! ## Critical sections as steps -/

/-- A rollback that was taken under the lock and has not run yet: the timer of its chain, and
whether a callback has taken it. -/
structure TakenRollback where
  timer : Nat
  byTimeout : Bool
  rollback : Rollback

/-- A process with the callbacks that wait for the lock, by the numbers of their confirmed
commits, and the rollbacks that were taken. -/
structure LockSite (json : Json) where
  site : Site json
  waiting : List UInt64
  taken : List TakenRollback

/-- What happens between two moments at which the lock of `Confirmed` is free. -/
inductive LockStep where
  /-- Some thread accesses what is shared, outside of the lock. -/
  | access (request : Request)
  /-- `Confirmed.Apply`, with the rollback of the request. -/
  | apply (sessionID : UInt32) (timeout : Int64) (rollback : Rollback)
  /-- `Confirmed.Confirm`. -/
  | confirm
  /-- `Confirmed.SessionEnded`, up to the unlock. -/
  | sessionEnded (sessionID : UInt32)
  /-- A timer expires and its callback starts to wait. -/
  | expire (timer : Nat)
  /-- `Confirmed.fire` of a callback that waits, up to the unlock. -/
  | fire (callback : Nat)
  /-- A rollback that was taken runs. -/
  | restore (taken : Nat)
  /-- Time goes by. -/
  | elapse (time : Nat)

/-- A step as it went. -/
structure LockRecord (json : Json) where
  before : LockSite json
  step : LockStep
  result : Except Err Unit
  after : LockSite json

/-- The accesses that have nothing to do with a confirmed commit, as a check. -/
def Request.isPlain : Request → Bool
  | .ctxErr | .values _ | .generation _ | .snapshot | .mutate _ | .cachedBindings _ _
  | .cacheBindings _ | .pending | .clockManager | .setClockManager _ => true
  | _ => false

theorem Request.plain_of_isPlain {request : Request} (hPlain : request.isPlain = true) :
    request.Plain := by
  cases request <;> trivial

namespace LockSite

variable {json : Json}

/-- A process before its first confirmed commit. -/
def start (machine : Machine json) : LockSite json :=
  ⟨Site.start machine, [], []⟩

/-- `Confirmed.Apply`: a confirmed commit that goes through starts a timer or restarts the one
of the commit in progress. -/
def apply (opts : Options) (env : Nat → CallEnv) (sessionID : UInt32) (timeout : Int64)
    (rollback : Rollback) (state : LockSite json) : LockRecord json :=
  let done := (Netconf.confirmedApply sessionID rollback).run opts env state.site.machine
  let site := { state.site with machine := done.2 }
  ⟨state, .apply sessionID timeout rollback, done.1, { state with
    site :=
      if done.1.isOk then
        match state.site.machine.confirmed.pend with
        | some _ => site.reset timeout
        | none => site.afterFunc done.2.confirmed.next timeout
      else site }⟩

/-- `Confirmed.Confirm`. -/
def confirm (opts : Options) (env : Nat → CallEnv) (state : LockSite json) : LockRecord json :=
  let done := Netconf.confirm.run opts env state.site.machine
  ⟨state, .confirm, .ok (), { state with site := ({ state.site with machine := done.2 }).stop }⟩

/-- The rollback in progress, if it is the one meant, leaves with the caller. -/
def take (byTimeout : Bool) (meant : PendingCommit → Bool) (state : LockSite json) :
    LockSite json :=
  let done := state.site.machine.take meant
  { state with
    site := { state.site with
      machine := done.2
      pendTimer := if done.1.isSome then none else state.site.pendTimer }
    taken := state.taken ++
      (state.site.pendTimer.bind fun handle => done.1.map fun rollback =>
        (⟨handle.id, byTimeout, rollback⟩ : TakenRollback)).toList }

/-- `Confirmed.SessionEnded` also stops the timer of what it takes. -/
def sessionEnded (sessionID : UInt32) (state : LockSite json) : LockRecord json :=
  let meant := fun pend : PendingCommit => decide (pend.sessionID = sessionID)
  let after := state.take false meant
  ⟨state, .sessionEnded sessionID, .ok (),
    if (state.site.machine.take meant).1.isSome then
      { after with site := { after.site with timers := state.site.stop.timers } }
    else after⟩

/-- One step.  A callback is there once its timer has expired, and a rollback once it was taken. -/
def step (opts : Options) (env : Nat → CallEnv) (state : LockSite json) :
    LockStep → Option (LockRecord json)
  | .access request =>
    if request.isPlain then
      let done := Machine.handle opts (env 0) request state.site.machine
      some ⟨state, .access request, .ok (),
        { state with site := { state.site with machine := done.2 } }⟩
    else none
  | .apply sessionID timeout rollback => some (state.apply opts env sessionID timeout rollback)
  | .confirm => some (state.confirm opts env)
  | .sessionEnded sessionID => some (state.sessionEnded sessionID)
  | .expire timer =>
    (state.site.timers[timer]?.filter fun running => running.deadline ≤ state.site.now).map
      fun running => ⟨state, .expire timer, .ok (),
        { state with
          site := { state.site with timers := state.site.timers.erase timer }
          waiting := state.waiting ++ [running.seq] }⟩
  | .fire callback =>
    state.waiting[callback]?.map fun seq => ⟨state, .fire callback, .ok (),
      { state with waiting := state.waiting.eraseIdx callback }.take true
        fun pend => pend.seq = seq⟩
  | .restore taken =>
    state.taken[taken]?.map fun entry =>
      let done := (ask (.restore entry.rollback)).run opts env state.site.machine
      ⟨state, .restore taken, done.1,
        { state with
          site := { state.site with machine := done.2 }
          taken := state.taken.eraseIdx taken }⟩
  | .elapse time =>
    some ⟨state, .elapse time, .ok (),
      { state with site := { state.site with now := state.site.now + time } }⟩

/-- Steps one after another, each in its own surroundings. -/
def run (opts : Options) :
    List (LockStep × (Nat → CallEnv)) → LockSite json → Option (List (LockRecord json))
  | [], _ => some []
  | (next, env) :: rest, state => do
      let record ← state.step opts env next
      let later ← record.after.run opts rest
      return record :: later

end LockSite

/-! ## What a step can do -/

section Steps

variable {json : Json}

/-- What a step does to the confirmed commit in progress, its timer, the waiting callbacks and
the rollbacks that were taken. -/
inductive LockSite.Moves (before : LockSite json) :
    LockStep → Except Err Unit → LockSite json → Prop where
  /-- Nothing starts and nothing ends, but a callback or a rollback may be over. -/
  | quiet {step : LockStep} {result : Except Err Unit} {after : LockSite json}
      (hConfirmed : after.site.machine.confirmed = before.site.machine.confirmed)
      (hTimers : after.site.timers = before.site.timers)
      (hStarted : after.site.started = before.site.started)
      (hHandle : after.site.pendTimer = before.site.pendTimer)
      (hNow : before.site.now ≤ after.site.now)
      (hWaiting : ∀ seq ∈ after.waiting, seq ∈ before.waiting)
      (hTaken : ∀ entry ∈ after.taken, entry ∈ before.taken)
      (hApply : ∀ sessionID timeout rollback,
        step = .apply sessionID timeout rollback → result ≠ .ok ()) :
      Moves before step result after
  /-- A follow-up restarts the timer. -/
  | followed {pend : PendingCommit} {machine : Machine json} (sessionID : UInt32) (timeout : Int64)
      (rollback : Rollback) (hPend : before.site.machine.confirmed.pend = some pend)
      (hSame : machine.confirmed = before.site.machine.confirmed) :
      Moves before (.apply sessionID timeout rollback) (.ok ())
        { before with site := ({ before.site with machine }).reset timeout }
  /-- The first confirmed commit of a chain starts a timer. -/
  | armed {pend : PendingCommit} {machine : Machine json} (sessionID : UInt32) (timeout : Int64)
      (rollback : Rollback) (hNone : before.site.machine.confirmed.pend = none)
      (hPend : machine.confirmed.pend = some pend) :
      Moves before (.apply sessionID timeout rollback) (.ok ())
        { before with site := ({ before.site with machine }).afterFunc pend.seq timeout }
  /-- What is in progress ends, and its timer with it. -/
  | ended {step : LockStep} {result : Except Err Unit} {after : LockSite json}
      (hNone : after.site.machine.confirmed.pend = none)
      (hTimers : after.site.timers = before.site.stop.timers)
      (hStarted : after.site.started = before.site.started)
      (hHandle : after.site.pendTimer = none)
      (hNow : after.site.now = before.site.now)
      (hWaiting : after.waiting = before.waiting)
      (hTaken : ∀ entry ∈ after.taken, entry ∈ before.taken ∨
        entry.byTimeout = false ∧ ∃ handle, before.site.pendTimer = some handle ∧
          entry.timer = handle.id)
      (hApply : ∀ sessionID timeout rollback, step ≠ .apply sessionID timeout rollback) :
      Moves before step result after
  | expired {timer : Nat} {running : Timer} (hRunning : before.site.timers[timer]? = some running)
      (hDue : running.deadline ≤ before.site.now) :
      Moves before (.expire timer) (.ok ())
        { before with
          site := { before.site with timers := before.site.timers.erase timer }
          waiting := before.waiting ++ [running.seq] }
  /-- A callback takes the rollback in progress. -/
  | fired {pend : PendingCommit} {callback : Nat} {after : LockSite json}
      (hPend : before.site.machine.confirmed.pend = some pend) (hWaits : pend.seq ∈ before.waiting)
      (hNone : after.site.machine.confirmed.pend = none)
      (hTimers : after.site.timers = before.site.timers)
      (hStarted : after.site.started = before.site.started)
      (hHandle : after.site.pendTimer = none)
      (hNow : after.site.now = before.site.now)
      (hTaken : ∀ entry ∈ after.taken, entry ∈ before.taken ∨
        ∃ handle, before.site.pendTimer = some handle ∧ entry.timer = handle.id) :
      Moves before (.fire callback) (.ok ()) after

theorem moves_apply (opts : Options) (env : Nat → CallEnv) (sessionID : UInt32) (timeout : Int64)
    (rollback : Rollback) (state : LockSite json) :
    state.Moves (.apply sessionID timeout rollback)
      (state.apply opts env sessionID timeout rollback).result
      (state.apply opts env sessionID timeout rollback).after := by
  have hSpec := Prog.Ensures.run (@ensures_confirmedApply _ opts state.site.machine sessionID
    rollback) env
  unfold LockSite.apply
  generalize (Netconf.confirmedApply sessionID rollback).run opts env state.site.machine = done
    at hSpec ⊢
  obtain ⟨result, machine⟩ := done
  cases hSpec with
  | refused err =>
    exact .quiet rfl rfl rfl rfl le_rfl (fun _ h => h) (fun _ h => h)
      fun _ _ _ _ hOk => (by cases hOk)
  | failed hOwned hSame =>
    exact .quiet hSame rfl rfl rfl le_rfl (fun _ h => h) (fun _ h => h)
      fun _ _ _ _ hOk => (by cases hOk)
  | followed hPend hOwner hSame =>
    have hOk : (Except.ok () : Except Err Unit).isOk = true := rfl
    dsimp only
    rw [if_pos hOk, hPend]
    exact .followed sessionID timeout rollback hPend hSame
  | armed hNone hArmed =>
    have hOk : (Except.ok () : Except Err Unit).isOk = true := rfl
    dsimp only
    rw [if_pos hOk, hNone, hArmed]
    exact .armed sessionID timeout rollback hNone (congrArg Confirmed.pend hArmed)

/-- Of the rollback in progress: it is taken, or it is not the one meant. -/
theorem take_spec (byTimeout : Bool) (meant : PendingCommit → Bool) (state : LockSite json) :
    (∃ pend, state.site.machine.confirmed.pend = some pend ∧ meant pend = true ∧
      (state.site.machine.take meant).1.isSome = true ∧
      (state.take byTimeout meant).site.machine.confirmed.pend = none ∧
      (state.take byTimeout meant).site.pendTimer = none ∧
      ∀ entry ∈ (state.take byTimeout meant).taken, entry ∈ state.taken ∨
        entry.byTimeout = byTimeout ∧ ∃ handle, state.site.pendTimer = some handle ∧
          entry.timer = handle.id) ∨
    ((state.site.machine.take meant).1.isSome = false ∧ state.take byTimeout meant = state) := by
  rcases take_cases state.site.machine meant with ⟨pend, hPend, hMeant, hTake⟩ | hTake
  · refine Or.inl ⟨pend, hPend, hMeant, by rw [hTake]; rfl, ?_⟩
    unfold LockSite.take
    rw [hTake]
    refine ⟨rfl, rfl, ?_⟩
    intro entry hEntry
    rcases List.mem_append.mp hEntry with hOld | hNew
    · exact Or.inl hOld
    · obtain ⟨handle, hHandle, hSome⟩ := Option.bind_eq_some_iff.mp (Option.mem_toList.mp hNew)
      cases hSome
      exact Or.inr ⟨rfl, handle, hHandle, rfl⟩
  · refine Or.inr ⟨by rw [hTake]; rfl, ?_⟩
    unfold LockSite.take
    rw [hTake]
    obtain ⟨⟨machine, now, timers, started, pendTimer⟩, waiting, taken⟩ := state
    cases pendTimer <;> simp

variable {state before after : LockSite json} {result : Except Err Unit} {chain : Nat}
    {records : List (LockRecord json)} {last : LockSite json}

/-- Each step moves in one of these ways. -/
theorem moves_of_step {opts : Options} {env : Nat → CallEnv} {next : LockStep}
    {record : LockRecord json} (hStep : state.step opts env next = some record) :
    record.before = state ∧ record.step = next ∧ state.Moves next record.result record.after := by
  cases next with
  | access request =>
    simp only [LockSite.step] at hStep
    split at hStep
    · next hPlain =>
      cases hStep
      have hConfirmed : (Machine.handle opts (env 0) request state.site.machine).2.confirmed =
          state.site.machine.confirmed :=
        confirmed_of_plain (env 0) request state.site.machine (Request.plain_of_isPlain hPlain)
      exact ⟨rfl, rfl, .quiet hConfirmed rfl rfl rfl le_rfl (fun _ h => h) (fun _ h => h)
        fun _ _ _ hApply => (by cases hApply)⟩
    · cases hStep
  | apply sessionID timeout rollback =>
    cases hStep
    exact ⟨rfl, rfl, moves_apply opts env sessionID timeout rollback state⟩
  | confirm =>
    cases hStep
    refine ⟨rfl, rfl, .ended ?_ ?_ ?_ ?_ ?_ rfl (fun _ h => Or.inl h)
      fun _ _ _ hApply => (by cases hApply)⟩
    · exact congrArg Confirmed.pend (congrArg Machine.confirmed (Site.machine_stop _))
    · simp only [LockSite.confirm, Site.stop]
      split <;> rfl
    · simp only [LockSite.confirm, Site.stop]
      split <;> rfl
    · simp only [LockSite.confirm, Site.stop]
      split
      · assumption
      · rfl
    · simp only [LockSite.confirm, Site.stop]
      split <;> rfl
  | sessionEnded sessionID =>
    cases hStep
    refine ⟨rfl, rfl, ?_⟩
    rcases take_spec false (fun pend => pend.sessionID = sessionID) state with
      ⟨pend, _, _, hSome, hNone, hHandle, hTaken⟩ | ⟨hUntaken, hSame⟩
    · simp only [LockSite.sessionEnded, hSome, if_true]
      exact .ended hNone rfl rfl hHandle rfl rfl hTaken fun _ _ _ hApply => (by cases hApply)
    · simp only [LockSite.sessionEnded, hUntaken, Bool.false_eq_true, if_false, hSame]
      exact .quiet rfl rfl rfl rfl le_rfl (fun _ h => h) (fun _ h => h)
        fun _ _ _ hApply => (by cases hApply)
  | expire timer =>
    obtain ⟨running, hFilter, rfl⟩ := Option.map_eq_some_iff.mp hStep
    obtain ⟨hRunning, hDue⟩ := Option.filter_eq_some_iff.mp hFilter
    exact ⟨rfl, rfl, .expired hRunning (of_decide_eq_true hDue)⟩
  | fire callback =>
    obtain ⟨seq, hSeq, rfl⟩ := Option.map_eq_some_iff.mp hStep
    refine ⟨rfl, rfl, ?_⟩
    rcases take_spec true (fun pend => pend.seq = seq)
        { state with waiting := state.waiting.eraseIdx callback } with
      ⟨pend, hPend, hMeant, _, hNone, hHandle, hTaken⟩ | ⟨_, hSame⟩
    · refine .fired hPend ?_ hNone rfl rfl hHandle rfl fun entry hEntry =>
        (hTaken entry hEntry).imp_right And.right
      rw [of_decide_eq_true hMeant]
      exact List.mem_of_getElem? hSeq
    · dsimp only
      rw [hSame]
      exact .quiet rfl rfl rfl rfl le_rfl (fun _ h => List.mem_of_mem_eraseIdx h)
        (fun _ h => h) fun _ _ _ hApply => (by cases hApply)
  | restore taken =>
    obtain ⟨entry, _, rfl⟩ := Option.map_eq_some_iff.mp hStep
    exact ⟨rfl, rfl, .quiet rfl rfl rfl rfl le_rfl (fun _ h => h)
      (fun _ h => List.mem_of_mem_eraseIdx h) fun _ _ _ hApply => (by cases hApply)⟩
  | elapse time =>
    cases hStep
    exact ⟨rfl, rfl, .quiet rfl rfl rfl rfl (by simp) (fun _ h => h) (fun _ h => h)
      fun _ _ _ hApply => (by cases hApply)⟩

/-- A restart changes the timers alone. -/
theorem Site.reset_eq (site : Site json) (timeout : Int64) :
    site.reset timeout = { site with timers := (site.reset timeout).timers } := by
  unfold Site.reset
  split <;> rfl

theorem Site.timers_reset {site : Site json} {handle : TimerHandle}
    (hHandle : site.pendTimer = some handle) (machine : Machine json) (timeout : Int64) :
    (({ site with machine }).reset timeout).timers =
      site.timers.insert handle.id ⟨handle.seq, site.deadline timeout⟩ := by
  unfold Site.reset
  dsimp only
  rw [hHandle]
  rfl

/-- No callback with the number of a confirmed commit that is applied waits for the lock. -/
def LockRecord.Fresh (record : LockRecord json) : Prop :=
  ∀ sessionID timeout rollback pend, record.step = .apply sessionID timeout rollback →
    record.result = .ok () → record.after.site.machine.confirmed.pend = some pend →
    pend.seq ∉ record.before.waiting

/-- The timer of the confirmed commit in progress is the only one that runs, none of its
callbacks waits while it runs, and the timers are numbered in the order of their start. -/
structure LockSite.Steady (state : LockSite json) : Prop where
  pending : ∀ pend, state.site.machine.confirmed.pend = some pend →
    ∃ id, state.site.pendTimer = some ⟨id, pend.seq⟩
  idle : state.site.machine.confirmed.pend = none → state.site.pendTimer = none
  running : ∀ (id : Nat) timer, state.site.timers[id]? = some timer →
    state.site.pendTimer = some ⟨id, timer.seq⟩ ∧ timer.seq ∉ state.waiting
  handle : ∀ handle, state.site.pendTimer = some handle → handle.id < state.site.started ∧
    ∀ entry ∈ state.taken, entry.timer < handle.id
  taken : ∀ entry ∈ state.taken, entry.timer < state.site.started

theorem steady_start {machine : Machine json} (hFresh : machine.confirmed.pend = none) :
    (LockSite.start machine).Steady where
  pending := by
    intro pend hPend
    cases hFresh.symm.trans hPend
  idle := fun _ => rfl
  running := by
    intro id timer hTimer
    cases Std.ExtTreeMap.getElem?_empty.symm.trans hTimer
  handle := by
    intro handle hHandle
    cases hHandle
  taken := by
    intro entry hEntry
    cases hEntry

/-- Once the timer of what was in progress is stopped, none runs. -/
theorem LockSite.Steady.timers_stop (hSteady : state.Steady) (id : Nat) :
    state.site.stop.timers[id]? = none := by
  cases hTimer : state.site.timers[id]? with
  | none =>
    unfold Site.stop
    split
    · exact hTimer
    · dsimp only
      rw [FinMap.getElem?_erase_ite, hTimer, ite_self]
  | some timer =>
    have hHandle := (hSteady.running id timer hTimer).1
    unfold Site.stop
    rw [hHandle]
    dsimp only
    rw [FinMap.getElem?_erase_ite, if_pos rfl]

/-- A state with nothing in progress, no timer and only old rollbacks. -/
theorem LockSite.Steady.of_over (hNone : state.site.machine.confirmed.pend = none)
    (hHandle : state.site.pendTimer = none) (hTimers : ∀ id : Nat, state.site.timers[id]? = none)
    (hTaken : ∀ entry ∈ state.taken, entry.timer < state.site.started) : state.Steady where
  pending := by
    intro pend hPend
    cases hNone.symm.trans hPend
  idle := fun _ => hHandle
  running := by
    intro id timer hTimer
    cases (hTimers id).symm.trans hTimer
  handle := by
    intro handle hSome
    cases hHandle.symm.trans hSome
  taken := hTaken

theorem LockSite.Steady.step {step : LockStep} (hSteady : before.Steady)
    (hMoves : before.Moves step result after)
    (hFresh : LockRecord.Fresh ⟨before, step, result, after⟩) : after.Steady := by
  cases hMoves with
  | quiet hConfirmed hTimers hStarted hHandle hNow hWaiting hTaken hApply =>
    refine ⟨?_, ?_, ?_, ?_, ?_⟩
    · rw [hConfirmed, hHandle]
      exact hSteady.pending
    · rw [hConfirmed, hHandle]
      exact hSteady.idle
    · intro id timer hTimer
      rw [hTimers] at hTimer
      rw [hHandle]
      obtain ⟨hSome, hFree⟩ := hSteady.running id timer hTimer
      exact ⟨hSome, fun hWaits => hFree (hWaiting _ hWaits)⟩
    · intro handle hSome
      rw [hHandle] at hSome
      rw [hStarted]
      obtain ⟨hId, hEntries⟩ := hSteady.handle handle hSome
      exact ⟨hId, fun entry hEntry => hEntries entry (hTaken entry hEntry)⟩
    · intro entry hEntry
      rw [hStarted]
      exact hSteady.taken entry (hTaken entry hEntry)
  | @followed pend machine sessionID timeout rollback hPend hSame =>
    obtain ⟨id, hHandle⟩ := hSteady.pending pend hPend
    have hTimers := Site.timers_reset hHandle machine timeout
    rw [Site.reset_eq] at hFresh ⊢
    have hFree : pend.seq ∉ before.waiting := hFresh sessionID timeout rollback pend rfl rfl
      ((congrArg Confirmed.pend hSame).trans hPend)
    refine ⟨?_, ?_, ?_, hSteady.handle, hSteady.taken⟩
    · intro found hFound
      exact hSteady.pending found ((congrArg Confirmed.pend hSame).symm.trans hFound)
    · intro hNone
      cases hPend.symm.trans ((congrArg Confirmed.pend hSame).symm.trans hNone)
    · intro other timer hTimer
      dsimp only at hTimer
      rw [hTimers, FinMap.getElem?_insert_ite] at hTimer
      split at hTimer
      · next hSameId =>
        cases hTimer
        cases hSameId
        exact ⟨hHandle, hFree⟩
      · exact hSteady.running other timer hTimer
  | @armed pend machine sessionID timeout rollback hNone hPend =>
    have hFree : pend.seq ∉ before.waiting := hFresh sessionID timeout rollback pend rfl rfl hPend
    have hNoTimer : ∀ id : Nat, before.site.timers[id]? = none := by
      intro id
      cases hTimer : before.site.timers[id]? with
      | none => rfl
      | some timer =>
        have hHandle := (hSteady.running id timer hTimer).1
        cases (hSteady.idle hNone).symm.trans hHandle
    refine ⟨?_, ?_, ?_, ?_, ?_⟩
    · intro found hFound
      cases hPend.symm.trans hFound
      exact ⟨before.site.started, rfl⟩
    · intro hNone'
      cases hPend.symm.trans hNone'
    · intro id timer hTimer
      simp only [Site.afterFunc] at hTimer
      rw [FinMap.getElem?_insert_ite, hNoTimer] at hTimer
      split at hTimer
      · next hSameId =>
        cases hTimer
        cases hSameId
        exact ⟨rfl, hFree⟩
      · cases hTimer
    · intro handle hHandle
      cases hHandle
      exact ⟨Nat.lt_succ_self _, hSteady.taken⟩
    · intro entry hEntry
      exact Nat.lt_succ_of_lt (hSteady.taken entry hEntry)
  | ended hNone hTimers hStarted hHandle hNow hWaiting hTaken hApply =>
    refine .of_over hNone hHandle (by rw [hTimers]; exact hSteady.timers_stop) ?_
    intro entry hEntry
    rw [hStarted]
    rcases hTaken entry hEntry with hOld | ⟨_, handle, hSome, hId⟩
    · exact hSteady.taken entry hOld
    · rw [hId]
      exact (hSteady.handle handle hSome).1
  | @expired timer running hRunning hDue =>
    obtain ⟨hHandle, _⟩ := hSteady.running timer running hRunning
    refine ⟨hSteady.pending, hSteady.idle, ?_, hSteady.handle, hSteady.taken⟩
    intro id other hOther
    dsimp only at hOther
    rw [FinMap.getElem?_erase_ite] at hOther
    split at hOther
    · cases hOther
    · next hId =>
      -- No other timer runs than the one that has expired.
      have hSame := (hSteady.running id other hOther).1.symm.trans hHandle
      rw [Option.some.injEq, TimerHandle.mk.injEq] at hSame
      exact absurd hSame.1.symm hId
  | @fired pend callback after hPend hWaits hNone hTimers hStarted hHandle hNow hTaken =>
    refine .of_over hNone hHandle ?_ ?_
    · intro id
      rw [hTimers]
      cases hTimer : before.site.timers[id]? with
      | none => rfl
      | some timer =>
        -- The callback of a timer that still runs does not wait.
        obtain ⟨hSome, hFree⟩ := hSteady.running id timer hTimer
        obtain ⟨_, hPending⟩ := hSteady.pending pend hPend
        have hSame := hSome.symm.trans hPending
        rw [Option.some.injEq, TimerHandle.mk.injEq] at hSame
        rw [hSame.2] at hFree
        exact absurd hWaits hFree
    · intro entry hEntry
      rw [hStarted]
      rcases hTaken entry hEntry with hOld | ⟨handle, hSome, hId⟩
      · exact hSteady.taken entry hOld
      · rw [hId]
        exact (hSteady.handle handle hSome).1

/-! ## The clock of a follow-up -/

/-- A follow-up of the chain with the timer, and when the restarted timer is due. -/
def LockRecord.FollowsUp (record : LockRecord json) (chain : Nat) (deadline : Int) : Prop :=
  ∃ sessionID timeout rollback, record.step = .apply sessionID timeout rollback ∧
    record.result = .ok () ∧ record.before.site.machine.confirmed.pend.isSome = true ∧
    record.before.site.pendTimer.map TimerHandle.id = some chain ∧
    record.before.site.deadline timeout = deadline

/-- A rollback of the chain runs because of a timeout. -/
def LockRecord.TimesOut (record : LockRecord json) (chain : Nat) : Prop :=
  ∃ index entry, record.step = .restore index ∧ record.before.taken[index]? = some entry ∧
    entry.byTimeout = true ∧ entry.timer = chain

/-- Nothing can roll the chain back because of a timeout before a moment. -/
structure LockSite.NotBefore (chain : Nat) (moment : Int) (state : LockSite json) : Prop where
  started : chain < state.site.started
  running : ∀ timer, state.site.timers[chain]? = some timer → moment ≤ timer.deadline
  waiting : ∀ seq, state.site.pendTimer = some ⟨chain, seq⟩ → seq ∈ state.waiting →
    moment ≤ state.site.now
  taken : ∀ entry ∈ state.taken, entry.byTimeout = true → entry.timer = chain →
    moment ≤ state.site.now

/-- After a follow-up nothing can before its timer is due. -/
theorem notBefore_of_followsUp {step : LockStep} (hSteady : before.Steady)
    (hMoves : before.Moves step result after)
    (hFresh : LockRecord.Fresh ⟨before, step, result, after⟩) {deadline : Int}
    (hFollows : LockRecord.FollowsUp ⟨before, step, result, after⟩ chain deadline) :
    after.NotBefore chain deadline := by
  obtain ⟨sessionID, timeout, rollback, rfl, rfl, hSome, hChain, hDeadline⟩ := hFollows
  cases hMoves with
  | quiet hConfirmed hTimers hStarted hHandle hNow hWaiting hTaken hApply =>
    exact absurd rfl (hApply sessionID timeout rollback rfl)
  | armed sessionID timeout rollback hNone hPend =>
    dsimp only at hSome
    rw [hNone] at hSome
    cases hSome
  | ended hNone hTimers hStarted hHandle hNow hWaiting hTaken hApply =>
    exact absurd rfl (hApply sessionID timeout rollback)
  | @followed pend machine sessionID timeout rollback hPend hSame =>
    obtain ⟨id, hHandle⟩ := hSteady.pending pend hPend
    dsimp only at hChain
    rw [hHandle] at hChain
    cases hChain
    have hOld := hSteady.handle _ hHandle
    have hTimers := Site.timers_reset hHandle machine timeout
    rw [Site.reset_eq] at hFresh ⊢
    refine ⟨hOld.1, ?_, ?_, ?_⟩
    · intro timer hTimer
      dsimp only at hTimer
      rw [hTimers, FinMap.getElem?_insert_ite, if_pos rfl] at hTimer
      cases hTimer
      exact hDeadline.ge
    · intro seq hSeq hWaits
      cases hHandle.symm.trans hSeq
      exact absurd hWaits (hFresh sessionID timeout rollback pend rfl rfl
        ((congrArg Confirmed.pend hSame).trans hPend))
    · intro entry hEntry _ hTimer
      have hLess := hOld.2 entry hEntry
      rw [hTimer] at hLess
      exact absurd hLess (Nat.lt_irrefl _)

theorem LockSite.NotBefore.step {step : LockStep} {moment : Int}
    (hNotBefore : before.NotBefore chain moment) (hSteady : before.Steady)
    (hMoves : before.Moves step result after)
    (hFresh : LockRecord.Fresh ⟨before, step, result, after⟩)
    (hLater : ∀ deadline, LockRecord.FollowsUp ⟨before, step, result, after⟩ chain deadline →
      moment ≤ deadline) : after.NotBefore chain moment := by
  cases hMoves with
  | quiet hConfirmed hTimers hStarted hHandle hNow hWaiting hTaken hApply =>
    refine ⟨by rw [hStarted]; exact hNotBefore.started, ?_, ?_, ?_⟩
    · rw [hTimers]
      exact hNotBefore.running
    · intro seq hSeq hWaits
      rw [hHandle] at hSeq
      exact (hNotBefore.waiting seq hSeq (hWaiting seq hWaits)).trans hNow
    · intro entry hEntry hTimeout hTimer
      exact (hNotBefore.taken entry (hTaken entry hEntry) hTimeout hTimer).trans hNow
  | @followed pend machine sessionID timeout rollback hPend hSame =>
    obtain ⟨id, hHandle⟩ := hSteady.pending pend hPend
    have hTimers := Site.timers_reset hHandle machine timeout
    rw [Site.reset_eq]
    refine ⟨hNotBefore.started, ?_, hNotBefore.waiting, hNotBefore.taken⟩
    · intro timer hTimer
      dsimp only at hTimer
      rw [hTimers, FinMap.getElem?_insert_ite] at hTimer
      split at hTimer
      · next hSameId =>
        cases hTimer
        refine hLater _ ⟨sessionID, timeout, rollback, rfl, rfl, ?_, ?_, rfl⟩
        · rw [hPend]
          rfl
        · rw [hHandle, ← hSameId]
          rfl
      · exact hNotBefore.running timer hTimer
  | @armed pend machine sessionID timeout rollback hNone hPend =>
    refine ⟨Nat.lt_succ_of_lt hNotBefore.started, ?_, ?_, hNotBefore.taken⟩
    · intro timer hTimer
      simp only [Site.afterFunc] at hTimer
      rw [FinMap.getElem?_insert_ite, if_neg hNotBefore.started.ne'] at hTimer
      exact hNotBefore.running timer hTimer
    · intro seq hSeq
      cases hSeq
      exact absurd hNotBefore.started (Nat.lt_irrefl _)
  | ended hNone hTimers hStarted hHandle hNow hWaiting hTaken hApply =>
    refine ⟨by rw [hStarted]; exact hNotBefore.started, ?_, ?_, ?_⟩
    · intro timer hTimer
      rw [hTimers, hSteady.timers_stop] at hTimer
      cases hTimer
    · intro seq hSeq
      cases hHandle.symm.trans hSeq
    · intro entry hEntry hTimeout hTimer
      rw [hNow]
      rcases hTaken entry hEntry with hOld | ⟨hEnded, _⟩
      · exact hNotBefore.taken entry hOld hTimeout hTimer
      · cases hTimeout.symm.trans hEnded
  | @expired timer running hRunning hDue =>
    obtain ⟨hHandle, _⟩ := hSteady.running timer running hRunning
    refine ⟨hNotBefore.started, ?_, ?_, hNotBefore.taken⟩
    · intro other hOther
      dsimp only at hOther
      rw [FinMap.getElem?_erase_ite] at hOther
      split at hOther
      · cases hOther
      · exact hNotBefore.running other hOther
    · intro seq hSeq _
      dsimp only at hSeq
      rw [hHandle, Option.some.injEq, TimerHandle.mk.injEq] at hSeq
      cases hSeq.1
      exact (hNotBefore.running running hRunning).trans hDue
  | @fired pend callback after hPend hWaits hNone hTimers hStarted hHandle hNow hTaken =>
    refine ⟨by rw [hStarted]; exact hNotBefore.started, ?_, ?_, ?_⟩
    · rw [hTimers]
      exact hNotBefore.running
    · intro seq hSeq
      cases hHandle.symm.trans hSeq
    · intro entry hEntry hTimeout hTimer
      rw [hNow]
      rcases hTaken entry hEntry with hOld | ⟨handle, hSome, hId⟩
      · exact hNotBefore.taken entry hOld hTimeout hTimer
      · obtain ⟨id, hPending⟩ := hSteady.pending pend hPend
        cases hSome.symm.trans hPending
        cases hId.symm.trans hTimer
        exact hNotBefore.waiting pend.seq hPending hWaits

/-! ## Runs -/

/-- Steps from one state to another, as they went. -/
inductive LockSite.Runs (opts : Options) : LockSite json → List (LockRecord json) →
    LockSite json → Prop where
  | nil (state : LockSite json) : Runs opts state [] state
  | cons {state last : LockSite json} {record : LockRecord json} {rest : List (LockRecord json)}
      {env : Nat → CallEnv} {next : LockStep} (hStep : state.step opts env next = some record)
      (hRest : Runs opts record.after rest last) : Runs opts state (record :: rest) last

variable {opts : Options}

theorem runs_of_run {steps : List (LockStep × (Nat → CallEnv))}
    (hRun : state.run opts steps = some records) :
    ∃ last, state.Runs opts records last := by
  induction steps generalizing state records with
  | nil =>
    cases hRun
    exact ⟨state, .nil state⟩
  | cons head rest ih =>
    obtain ⟨next, env⟩ := head
    simp only [LockSite.run, Option.bind_eq_bind, Option.bind_eq_some_iff] at hRun
    obtain ⟨record, hStep, later, hRest, hRecords⟩ := hRun
    cases hRecords
    obtain ⟨last, hLast⟩ := ih hRest
    exact ⟨last, .cons hStep hLast⟩

theorem LockSite.Runs.split {earlier later : List (LockRecord json)}
    (hRuns : state.Runs opts (earlier ++ later) last) :
    ∃ middle, state.Runs opts earlier middle ∧ middle.Runs opts later last := by
  induction earlier generalizing state with
  | nil => exact ⟨state, .nil state, hRuns⟩
  | cons head rest ih =>
    cases hRuns with
    | cons hStep hRest =>
      obtain ⟨middle, hFirst, hSecond⟩ := ih hRest
      exact ⟨middle, .cons hStep hFirst, hSecond⟩

theorem LockSite.Runs.steady (hRuns : state.Runs opts records last) (hSteady : state.Steady)
    (hFresh : ∀ record ∈ records, record.Fresh) : last.Steady := by
  induction hRuns with
  | nil state => exact hSteady
  | cons hStep hRest ih =>
    obtain ⟨rfl, rfl, hMoves⟩ := moves_of_step hStep
    exact ih (hSteady.step hMoves (hFresh _ List.mem_cons_self))
      fun record hRecord => hFresh record (List.mem_cons_of_mem _ hRecord)

theorem LockSite.Runs.notBefore (hRuns : state.Runs opts records last) (hSteady : state.Steady)
    (hFresh : ∀ record ∈ records, record.Fresh) {moment : Int}
    (hLater : ∀ record ∈ records, ∀ deadline, record.FollowsUp chain deadline → moment ≤ deadline)
    (hNotBefore : state.NotBefore chain moment) : last.NotBefore chain moment := by
  induction hRuns with
  | nil state => exact hNotBefore
  | cons hStep hRest ih =>
    obtain ⟨rfl, rfl, hMoves⟩ := moves_of_step hStep
    exact ih (hSteady.step hMoves (hFresh _ List.mem_cons_self))
      (fun record hRecord => hFresh record (List.mem_cons_of_mem _ hRecord))
      (fun record hRecord => hLater record (List.mem_cons_of_mem _ hRecord))
      (hNotBefore.step hSteady hMoves (hFresh _ List.mem_cons_self)
        (hLater _ List.mem_cons_self))

end Steps

/-- In every run in which no callback with the number of a confirmed commit waits for the lock
when the commit is applied: after a follow-up with some timeout, no timeout rolls back its chain
before the timeout is over, unless a later follow-up has set an earlier time. -/
theorem follow_up_restarts_clock {json : Json} (opts : Options) (machine : Machine json)
    (hIdle : machine.confirmed.pend = none) (steps : List (LockStep × (Nat → CallEnv)))
    {records : List (LockRecord json)}
    (hRun : (LockSite.start machine).run opts steps = some records)
    (hFresh : ∀ record ∈ records, record.Fresh)
    {earlier middle later : List (LockRecord json)} {followUp rollback : LockRecord json}
    (hSplit : records = earlier ++ followUp :: (middle ++ rollback :: later))
    {chain : Nat} {deadline : Int} (hFollows : followUp.FollowsUp chain deadline)
    (hLater : ∀ record ∈ middle, ∀ other, record.FollowsUp chain other → deadline ≤ other)
    (hTimesOut : rollback.TimesOut chain) : deadline ≤ rollback.before.site.now := by
  subst hSplit
  obtain ⟨last, hRuns⟩ := runs_of_run hRun
  obtain ⟨first, hEarlier, hRuns⟩ := hRuns.split
  have hFirst : first.Steady := hEarlier.steady (steady_start hIdle) fun record hRecord =>
    hFresh record (List.mem_append_left _ hRecord)
  have hFreshLater : ∀ record ∈ followUp :: (middle ++ rollback :: later), record.Fresh :=
    fun record hRecord => hFresh record (List.mem_append_right _ hRecord)
  cases hRuns with
  | cons hStep hRest =>
    obtain ⟨rfl, rfl, hMoves⟩ := moves_of_step hStep
    have hFollowFresh := hFreshLater followUp List.mem_cons_self
    have hAfter := notBefore_of_followsUp hFirst hMoves hFollowFresh hFollows
    obtain ⟨second, hMiddle, hRest⟩ := hRest.split
    have hSecond : second.NotBefore chain deadline :=
      hMiddle.notBefore (hFirst.step hMoves hFollowFresh)
        (fun record hRecord => hFreshLater record
          (List.mem_cons_of_mem _ (List.mem_append_left _ hRecord))) hLater hAfter
    cases hRest with
    | cons hStep _ =>
      obtain ⟨rfl, _, _⟩ := moves_of_step hStep
      obtain ⟨index, entry, _, hEntry, hTimeout, hTimer⟩ := hTimesOut
      exact hSecond.taken entry (List.mem_of_getElem? hEntry) hTimeout hTimer

/-! ## Two runs -/

section Runs

variable {json : Json}

/-- `Fresh`, as a check. -/
def LockRecord.isFresh (record : LockRecord json) : Bool :=
  record.after.site.machine.confirmed.pend.all fun pend => !record.before.waiting.contains pend.seq

variable {record : LockRecord json}

theorem fresh_of_isFresh (hFresh : record.isFresh = true) :
    record.Fresh := by
  intro _ _ _ pend _ _ hPend hWaits
  rw [LockRecord.isFresh, hPend] at hFresh
  simp [hWaits] at hFresh

/-- The chain that a step follows up, and when its timer is due then. -/
def LockRecord.followUp? (record : LockRecord json) : Option (Nat × Int) :=
  match record.step with
  | .apply _ timeout _ =>
    if record.result.isOk && record.before.site.machine.confirmed.pend.isSome then
      record.before.site.pendTimer.map fun handle =>
        (handle.id, record.before.site.deadline timeout)
    else none
  | _ => none

theorem followUp?_eq_some_iff {chain : Nat} {deadline : Int} :
    record.followUp? = some (chain, deadline) ↔ record.FollowsUp chain deadline := by
  unfold LockRecord.followUp? LockRecord.FollowsUp
  constructor
  · intro hSome
    split at hSome
    · next sessionID timeout rollback hStep =>
      split at hSome
      · next hOk =>
        rw [Bool.and_eq_true] at hOk
        obtain ⟨_, hResult⟩ := exists_eq_ok_of_isOk hOk.1
        obtain ⟨handle, hHandle, hPair⟩ := Option.map_eq_some_iff.mp hSome
        cases hPair
        exact ⟨sessionID, timeout, rollback, hStep, hResult, hOk.2, by rw [hHandle]; rfl, rfl⟩
      · cases hSome
    · cases hSome
  · rintro ⟨sessionID, timeout, rollback, hStep, hResult, hPend, hChain, rfl⟩
    obtain ⟨handle, hHandle, rfl⟩ := Option.map_eq_some_iff.mp hChain
    rw [hStep, hResult, hPend, hHandle]
    rfl

/-- The chain that a step rolls back because of a timeout. -/
def LockRecord.timedOut? (record : LockRecord json) : Option Nat :=
  match record.step with
  | .restore index =>
    (record.before.taken[index]?.filter TakenRollback.byTimeout).map TakenRollback.timer
  | _ => none

theorem timesOut_of_timedOut? {chain : Nat} (hSome : record.timedOut? = some chain) :
    record.TimesOut chain := by
  unfold LockRecord.timedOut? at hSome
  split at hSome
  · next index hStep =>
    obtain ⟨entry, hFilter, hTimer⟩ := Option.map_eq_some_iff.mp hSome
    obtain ⟨hEntry, hTimeout⟩ := Option.filter_eq_some_iff.mp hFilter
    exact ⟨index, entry, hStep, hEntry, hTimeout, hTimer⟩
  · cases hSome

end Runs

/-- Steps on the process with a VLAN in candidate, in quiet surroundings. -/
def labLockRun (steps : List LockStep) : Option (List (LockRecord Json.plain)) :=
  (LockSite.start labMachine).run (defaultRouter.options []) (steps.map fun step =>
    (step, fun _ => CallEnv.quiet))

/-- The rollback that a confirmed commit on that process prepares. -/
def labRollback : Rollback :=
  ⟨0, labMachine.memory.running⟩

/-- What a run of a follow-up is checked for: its step, the later step of the rollback, that no
step between them is a follow-up, and the time of the rollback. -/
def followedUp (records : List (LockRecord Json.plain)) (followUp rollback : Nat)
    (deadline now : Int) : Bool :=
  records[followUp]?.any (fun record => record.followUp? = some (0, deadline)) &&
    (records.drop (followUp + 1))[rollback]?.any (fun record =>
      record.timedOut? = some 0 && record.before.site.now = now) &&
    ((records.drop (followUp + 1)).take rollback).all fun record => record.followUp?.isNone

theorem exists_split_of_followedUp {records : List (LockRecord Json.plain)}
    {followUp rollback : Nat} {deadline now : Int}
    (hChecked : followedUp records followUp rollback deadline now = true) :
    ∃ earlier middle later first last,
      records = earlier ++ first :: (middle ++ last :: later) ∧ first.FollowsUp 0 deadline ∧
      (∀ record ∈ middle, ∀ other, ¬ record.FollowsUp 0 other) ∧ last.TimesOut 0 ∧
      last.before.site.now = now := by
  simp only [followedUp, Bool.and_eq_true, Option.any_eq_true, decide_eq_true_eq,
    List.all_eq_true] at hChecked
  obtain ⟨⟨⟨first, hFirst, hFollows⟩, last, hLast, hTimedOut, hNow⟩, hMiddle⟩ := hChecked
  refine ⟨records.take followUp, (records.drop (followUp + 1)).take rollback,
    (records.drop (followUp + 1)).drop (rollback + 1), first, last, ?_,
    followUp?_eq_some_iff.mp hFollows, ?_, timesOut_of_timedOut? hTimedOut, hNow⟩
  · rw [← split_of_getElem? hLast]
    exact split_of_getElem? hFirst
  · intro record hRecord other hOther
    have hNone := hMiddle record hRecord
    rw [followUp?_eq_some_iff.mpr hOther] at hNone
    cases hNone

/-- A follow-up at time 3 with a timeout of 5, before the timer of the first commit expires. -/
def followUpInTime : List LockStep :=
  [.apply 1 5 labRollback, .elapse 3, .apply 1 5 labRollback, .elapse 5, .expire 0, .fire 0,
    .restore 0]

theorem follow_up_in_time_restarts_clock :
    ∃ records earlier middle later : List (LockRecord Json.plain), ∃ followUp rollback,
      labLockRun followUpInTime = some records ∧
      records = earlier ++ followUp :: (middle ++ rollback :: later) ∧ followUp.FollowsUp 0 8 ∧
      rollback.TimesOut 0 ∧ (8 : Int) ≤ rollback.before.site.now := by
  have hEvaluated : ((labLockRun followUpInTime).any fun records =>
      records.all LockRecord.isFresh && followedUp records 2 3 8 8) = true := by
    decide +kernel
  obtain ⟨records, hRun, hChecked⟩ := (Option.any_eq_true _ _).mp hEvaluated
  rw [Bool.and_eq_true, List.all_eq_true] at hChecked
  obtain ⟨earlier, middle, later, followUp, rollback, hSplit, hFollows, hMiddle, hTimesOut, _⟩ :=
    exists_split_of_followedUp hChecked.2
  exact ⟨records, earlier, middle, later, followUp, rollback, hRun, hSplit, hFollows, hTimesOut,
    follow_up_restarts_clock (defaultRouter.options []) labMachine rfl _ hRun
      (fun record hRecord => fresh_of_isFresh (hChecked.1 record hRecord)) hSplit hFollows
      (fun record hRecord other hOther => absurd hOther (hMiddle record hRecord other)) hTimesOut⟩

/-- A follow-up with a timeout of 600 that comes before the waiting callback of the first commit,
whose timer has expired at time 10. -/
def followUpTooLate : List LockStep :=
  [.apply 1 10 labRollback, .elapse 10, .expire 0, .apply 1 600 labRollback, .fire 0, .restore 0]

/-- The follow-up goes through, and the chain is rolled back at once. -/
theorem waiting_callback_rolls_back_follow_up :
    ∃ records earlier middle later : List (LockRecord Json.plain), ∃ followUp rollback,
      labLockRun followUpTooLate = some records ∧
      records = earlier ++ followUp :: (middle ++ rollback :: later) ∧ followUp.FollowsUp 0 610 ∧
      (∀ record ∈ middle, ∀ other, ¬ record.FollowsUp 0 other) ∧ rollback.TimesOut 0 ∧
      rollback.before.site.now = 10 := by
  have hEvaluated : ((labLockRun followUpTooLate).any fun records =>
      followedUp records 3 1 610 10) = true := by
    decide +kernel
  obtain ⟨records, hRun, hChecked⟩ := (Option.any_eq_true _ _).mp hEvaluated
  obtain ⟨earlier, middle, later, followUp, rollback, hFacts⟩ :=
    exists_split_of_followedUp hChecked
  exact ⟨records, earlier, middle, later, followUp, rollback, hRun, hFacts⟩

end TriadSim

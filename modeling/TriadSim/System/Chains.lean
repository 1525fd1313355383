import TriadSim.System.Phases

/-!
# Confirmed commits and their timers, one whole step after another

`internal/netconf/ops/confirmed_commit.go` with its timers: the first confirmed commit of a
chain starts one, a follow-up restarts it, and a confirming commit or the end of the session
stops it.  Here every request, every end of a session and every expiry is one step.  The
history of a run says which chain is in progress, and in every run a rollback belongs to that
chain (`confirmed_commit_chains_are_sound`).
-/

namespace TriadSim

open Datatree Go Library Router Store

/-! ## Timers -/

/-- A timer that runs: the confirmed commit that its callback is for, and when it expires. -/
structure Timer where
  seq : UInt64
  deadline : Int

/-- `clock.Timer`: what a confirmed commit keeps of its timer. -/
structure TimerHandle where
  id : Nat
  seq : UInt64

/-- A process with its clock, in nanoseconds.  `pendTimer` is the timer of the confirmed commit
in progress, and `started` counts the timers that were ever started. -/
structure Site (json : Json) where
  machine : Machine json
  now : Int
  timers : Std.ExtTreeMap Nat Timer
  started : Nat
  pendTimer : Option TimerHandle

/-- A process before its first confirmed commit. -/
def Site.start {json : Json} (machine : Machine json) : Site json :=
  ⟨machine, 0, ∅, 0, none⟩

/-- `DefaultConfirmTimeout`. -/
def defaultConfirmTimeout : Int64 := 600000000000

/-- The timeout that `Apply` uses. -/
def confirmTimeout (timeout : Int64) : Int64 :=
  if timeout ≤ 0 then defaultConfirmTimeout else timeout

namespace Site

variable {json : Json}

/-- When a timer expires that is started now. -/
def deadline (site : Site json) (timeout : Int64) : Int :=
  site.now + (confirmTimeout timeout).toInt

/-- `AfterFunc` for the confirmed commit in progress. -/
def afterFunc (site : Site json) (seq : UInt64) (timeout : Int64) : Site json :=
  { site with
    timers := site.timers.insert site.started ⟨seq, site.deadline timeout⟩
    started := site.started + 1
    pendTimer := some ⟨site.started, seq⟩ }

/-- `Reset` of the timer of the confirmed commit in progress. -/
def reset (site : Site json) (timeout : Int64) : Site json :=
  match site.pendTimer with
  | none => site
  | some handle =>
    { site with timers := site.timers.insert handle.id ⟨handle.seq, site.deadline timeout⟩ }

/-- `Stop` of the timer of the confirmed commit in progress, which is over. -/
def stop (site : Site json) : Site json :=
  match site.pendTimer with
  | none => site
  | some handle => { site with timers := site.timers.erase handle.id, pendTimer := none }

end Site

/-! ## Steps -/

/-- What happens as a whole. -/
inductive SiteStep where
  /-- An edit, a SET, discarded changes, or a step of a domain. -/
  | activity (activity : Activity)
  | commit
  | confirmedCommit (sessionID : UInt32) (timeout : Int64)
  | sessionEnded (sessionID : UInt32)
  /-- A timer expires. -/
  | expire (timer : Nat)
  /-- Time goes by. -/
  | elapse (time : Nat)

/-- A step that has nothing to do with a confirmed commit. -/
def SiteStep.isQuiet : SiteStep → Bool
  | activity _ => true
  | elapse _ => true
  | _ => false

/-- A step as it went: what it ended with, and the rollback that it ran. -/
structure Record (json : Json) where
  before : Site json
  step : SiteStep
  outcome : Outcome
  restored : Option Rollback
  after : Site json

namespace Site

variable {json : Json}

/-- A plain commit ends what is in progress when it goes through. -/
def commit (opts : Options) (env : Nat → CallEnv) (site : Site json) : Record json :=
  let done := Netconf.commit.run opts env site.machine
  let after := { site with machine := done.2 }
  ⟨site, .commit, .done done.1, none, if done.1.isOk then after.stop else after⟩

/-- A confirmed commit that goes through starts a timer or restarts the one that runs. -/
def commitConfirmed (opts : Options) (env : Nat → CallEnv) (sessionID : UInt32) (timeout : Int64)
    (site : Site json) : Record json :=
  let done := (Netconf.commitConfirmed sessionID).run opts env site.machine
  let after := { site with machine := done.2 }
  ⟨site, .confirmedCommit sessionID timeout, .done done.1, none,
    if done.1.isOk then
      match site.machine.confirmed.pend with
      | some _ => after.reset timeout
      | none => after.afterFunc done.2.confirmed.next timeout
    else after⟩

/-- The end of a session stops the timer of its confirmed commit. -/
def sessionEnded (opts : Options) (env : Nat → CallEnv) (sessionID : UInt32) (site : Site json) :
    Record json :=
  let taken := (site.machine.take fun pend => pend.sessionID = sessionID).1
  let done := (Netconf.sessionEnded sessionID).run opts env site.machine
  let after := { site with machine := done.2 }
  ⟨site, .sessionEnded sessionID, .done done.1, taken, if taken.isSome then after.stop else after⟩

/-- The callback of a timer that has expired. -/
def expire (opts : Options) (env : Nat → CallEnv) (timer : Nat) (running : Timer)
    (site : Site json) : Record json :=
  let taken := (site.machine.take fun pend => pend.seq = running.seq).1
  let done := (Netconf.fire running.seq).run opts env site.machine
  ⟨site, .expire timer, .done done.1, taken,
    { site with
      machine := done.2
      timers := site.timers.erase timer
      pendTimer := if taken.isSome then none else site.pendTimer }⟩

/-- One step.  Commits and what ends them are steps of their own, and a timer expires when it
runs and its time has come. -/
def step (opts : Options) (r : Router) (env : Nat → CallEnv) (site : Site json) :
    SiteStep → Option (Record json)
  | .activity activity =>
    if activity.isPlain then
      let done := (activity.program r).run opts env site.machine
      some ⟨site, .activity activity, done.1, none, { site with machine := done.2 }⟩
    else none
  | .commit => some (site.commit opts env)
  | .confirmedCommit sessionID timeout => some (site.commitConfirmed opts env sessionID timeout)
  | .sessionEnded sessionID => some (site.sessionEnded opts env sessionID)
  | .expire timer =>
    (site.timers[timer]?.filter fun running => running.deadline ≤ site.now).map fun running =>
      site.expire opts env timer running
  | .elapse time =>
    some ⟨site, .elapse time, .done (.ok ()), none, { site with now := site.now + time }⟩

/-- Steps one after another, each in its own surroundings. -/
def run (opts : Options) (r : Router) :
    List (SiteStep × (Nat → CallEnv)) → Site json → Option (List (Record json))
  | [], _ => some []
  | (next, env) :: rest, site => do
      let record ← site.step opts r env next
      let later ← record.after.run opts r rest
      return record :: later

end Site

/-! ## What the requests do to the confirmed commit -/

section Requests

variable {json : Json} {opts : Options} {machine : Machine json}

theorem confirmed_of_activity (r : Router) {activity : Activity} (hPlain : activity.isPlain = true)
    (env : Nat → CallEnv) :
    ((activity.program r).run opts env machine).2.confirmed = machine.confirmed := by
  have hKeeps : (activity.program r).Ensures opts (fun _ after =>
      True ∧ after.confirmed = machine.confirmed) machine :=
    Program.Ensures.of_only (only_plain_of_isPlain r hPlain)
      (fun env request state hRequest hSame =>
        (confirmed_of_plain env request state hRequest).trans hSame) rfl
  exact (hKeeps.run env).2

/-- The numbering of a commit request and the note of its answer do nothing else. -/
theorem ensures_reported {confirmed : Bool} {body : Nat → Prog (Except Err Unit)}
    {post : Except Err Unit → Machine json → Prop}
    (hBody : (body machine.requests).Ensures opts post
      { machine with requests := machine.requests + 1 }) :
    (Netconf.reported confirmed body).Ensures opts post machine := by
  intro env
  refine Program.Ensures.bind hBody ?_
  intro result after hPost _
  exact hPost

/-- A plain commit ends the confirmed commit in progress, or fails and leaves it. -/
theorem ensures_commit :
    Netconf.commit.Ensures opts (fun result after =>
      (result = .ok () → after.confirmed.pend = none) ∧
        ∀ err, result = .error err → after.confirmed = machine.confirmed) machine := by
  refine ensures_reported (ensures_andThen (ensures_mapError fun env => ⟨?_, ?_⟩))
  · intro _ _ _
    exact ⟨fun _ => rfl, fun err hErr => (by cases hErr)⟩
  · intro err _
    exact ⟨fun hOk => (by cases hOk), fun _ _ => rfl⟩

theorem running_of_snapshot_eq_ok {memory : Memory json} {env : CallEnv} {snapshot : Values}
    {f : Err → Err} (hSnapshot : (memory.snapshot env).mapError f = .ok snapshot) :
    memory.running = snapshot := by
  unfold Memory.snapshot at hSnapshot
  split at hSnapshot
  · cases hSnapshot
  · cases hSnapshot
    rfl

variable {sessionID : UInt32}

theorem owned_of_not_any {pend? : Option PendingCommit}
    (hOwned : ¬ (pend?.any fun pend => pend.sessionID ≠ sessionID) = true) (pend : PendingCommit)
    (hPend : pend? = some pend) : pend.sessionID = sessionID := by
  subst hPend
  simpa using hOwned

/-- How a confirmed commit ends, and with which confirmed commit in progress. -/
inductive ConfirmedOutcome (machine : Machine json) (sessionID : UInt32) :
    Except Err Unit → Machine json → Prop where
  /-- Nothing was done but to number the request. -/
  | refused (err : Err) :
      ConfirmedOutcome machine sessionID (.error err)
        { machine with requests := machine.requests + 1 }
  /-- The store has refused candidate. -/
  | failed {err : Err} {after : Machine json}
      (hOwned : ∀ pend, machine.confirmed.pend = some pend → pend.sessionID = sessionID)
      (hSame : after.confirmed = machine.confirmed) :
      ConfirmedOutcome machine sessionID (.error err) after
  /-- A follow-up. -/
  | followed {pend : PendingCommit} {after : Machine json}
      (hPend : machine.confirmed.pend = some pend) (hOwner : pend.sessionID = sessionID)
      (hSame : after.confirmed = machine.confirmed) :
      ConfirmedOutcome machine sessionID (.ok ()) after
  /-- The first of a chain. -/
  | armed (rpc : Nat) {after : Machine json} (hNone : machine.confirmed.pend = none)
      (hArmed : after.confirmed = ⟨machine.confirmed.next + 1,
        some ⟨machine.confirmed.next + 1, sessionID, ⟨rpc, machine.memory.running⟩⟩⟩) :
      ConfirmedOutcome machine sessionID (.ok ()) after

/-- How `Confirmed.Apply` ends, and with which confirmed commit in progress. -/
inductive ApplyOutcome (machine : Machine json) (sessionID : UInt32) (rollback : Rollback) :
    Except Err Unit → Machine json → Prop where
  /-- Another session's confirmed commit is in progress. -/
  | refused (err : Err) : ApplyOutcome machine sessionID rollback (.error err) machine
  | failed {err : Err} {after : Machine json}
      (hOwned : ∀ pend, machine.confirmed.pend = some pend → pend.sessionID = sessionID)
      (hSame : after.confirmed = machine.confirmed) :
      ApplyOutcome machine sessionID rollback (.error err) after
  | followed {pend : PendingCommit} {after : Machine json}
      (hPend : machine.confirmed.pend = some pend) (hOwner : pend.sessionID = sessionID)
      (hSame : after.confirmed = machine.confirmed) :
      ApplyOutcome machine sessionID rollback (.ok ()) after
  | armed {after : Machine json} (hNone : machine.confirmed.pend = none)
      (hArmed : after.confirmed = ⟨machine.confirmed.next + 1,
        some ⟨machine.confirmed.next + 1, sessionID, rollback⟩⟩) :
      ApplyOutcome machine sessionID rollback (.ok ()) after

/-- After its commit of the store: a follow-up is done, the first of a chain arms. -/
theorem ensures_arm {rollback : Rollback} {committed : Machine json}
    (hSame : committed.confirmed = machine.confirmed)
    (hOwned : ∀ pend, machine.confirmed.pend = some pend → pend.sessionID = sessionID) :
    Prog.Ensures opts (.call .pending fun
      | some _ => .ret (.ok ())
      | none => .call (.arm sessionID rollback) fun () => .ret (.ok ()))
      (ApplyOutcome machine sessionID rollback) committed := by
  intro env
  show Prog.Ensures opts (match committed.confirmed.pend with
    | some _ => .ret (.ok ())
    | none => .call (.arm sessionID rollback) fun () => .ret (.ok ()) :
      Prog (Except Err Unit)) _ committed
  rw [hSame]
  cases hPend : machine.confirmed.pend with
  | some pend => exact .followed hPend (hOwned pend hPend) hSame
  | none =>
    intro env
    refine .armed hPend ?_
    show Confirmed.mk (committed.confirmed.next + 1) _ = _
    rw [hSame]

theorem ensures_confirmedApply {rollback : Rollback} :
    (Netconf.confirmedApply sessionID rollback).Ensures opts
      (ApplyOutcome machine sessionID rollback) machine := by
  refine Program.Ensures.locked fun env => ?_
  dsimp only
  split
  · exact .refused _
  · next hOwned =>
    refine ensures_andThen (ensures_mapError fun env => ⟨?_, ?_⟩)
    · intro _ _
      exact ensures_arm rfl (owned_of_not_any hOwned)
    · intro err _
      exact .failed (owned_of_not_any hOwned) rfl

theorem ensures_commitConfirmed :
    (Netconf.commitConfirmed sessionID).Ensures opts (ConfirmedOutcome machine sessionID)
      machine := by
  refine ensures_reported (ensures_andThen (ensures_mapError fun env => ⟨?_, ?_⟩))
  · intro snapshot hSnapshot
    have hRunning : machine.memory.running = snapshot := running_of_snapshot_eq_ok hSnapshot
    subst hRunning
    refine Program.Ensures.mono ensures_confirmedApply ?_
    intro result after hOutcome
    cases hOutcome with
    | refused err => exact .refused err
    | failed hOwned hSame => exact .failed hOwned hSame
    | followed hPend hOwner hSame => exact .followed hPend hOwner hSame
    | armed hNone hArmed => exact .armed machine.requests hNone hArmed
  · intro err _
    exact .refused _

/-- How the end of a session or a timer ends that takes the rollback in progress, if it is the
one meant, and runs it. -/
structure RolledBack (machine : Machine json) (meant : PendingCommit → Bool)
    (result : Except Err Unit) (after : Machine json) : Prop where
  confirmed : after.confirmed = (machine.take meant).2.confirmed
  untaken : (machine.take meant).1 = none → after = machine
  restored : ∀ rollback, (machine.take meant).1 = some rollback → result = .ok () →
    after.contents = ⟨rollback.snapshot, machine.memory.candidate, rollback.snapshot⟩

theorem take_cases (machine : Machine json) (meant : PendingCommit → Bool) :
    (∃ pend, machine.confirmed.pend = some pend ∧ meant pend = true ∧
      machine.take meant =
        (some pend.rollback, { machine with confirmed := ⟨machine.confirmed.next, none⟩ })) ∨
      machine.take meant = (none, machine) := by
  unfold Machine.take
  cases hPend : machine.confirmed.pend with
  | none => exact Or.inr rfl
  | some pend =>
    cases hMeant : meant pend with
    | true => exact Or.inl ⟨pend, rfl, hMeant, if_pos hMeant⟩
    | false => exact Or.inr (if_neg (by simp [hMeant]))

theorem ensures_takenRollback {meant : PendingCommit → Bool} {take : Prog (Option Rollback)}
    (hTake : take.Ensures opts (fun taken after => (taken, after) = machine.take meant) machine) :
    Prog.Ensures opts (take.bind Netconf.runRollback) (RolledBack machine meant) machine := by
  refine Program.Ensures.bind hTake ?_
  intro taken after hTaken
  rcases take_cases machine meant with ⟨pend, _, _, hCase⟩ | hCase
  · rw [hCase] at hTaken
    cases hTaken
    intro env
    refine ⟨by rw [hCase]; rfl, fun hNone => (by rw [hCase] at hNone; cases hNone), ?_⟩
    intro rollback hRollback hOk
    rw [hCase] at hRollback
    cases hRollback
    rcases machine.memory.restore_meets opts env pend.rollback.snapshot with
      ⟨_, hAfter⟩ | ⟨err, hResult, _⟩
    · exact hAfter
    · cases hResult.symm.trans hOk
  · rw [hCase] at hTaken
    cases hTaken
    refine ⟨by rw [hCase], fun _ => rfl, ?_⟩
    intro rollback hRollback
    rw [hCase] at hRollback
    cases hRollback

theorem ensures_sessionEnded :
    (Netconf.sessionEnded sessionID).Ensures opts
      (RolledBack machine fun pend => pend.sessionID = sessionID) machine :=
  ensures_takenRollback (Program.Ensures.locked fun _ => rfl)

theorem ensures_fire {seq : UInt64} :
    (Netconf.fire seq).Ensures opts (RolledBack machine fun pend => pend.seq = seq) machine :=
  ensures_takenRollback (Program.Ensures.locked fun _ => rfl)

end Requests

/-! ## Chains -/

namespace Record

variable {json : Json}

/-- The step went through. -/
def Succeeds (record : Record json) : Prop :=
  record.outcome = .done (.ok ())

/-- The step was refused. -/
def Fails (record : Record json) : Prop :=
  ∃ err, record.outcome = .done (.error err)

/-- A plain commit that went through. -/
def Confirms (record : Record json) : Prop :=
  record.step = .commit ∧ record.Succeeds

/-- A confirmed commit that went through, and so started or restarted its timer. -/
def Applies (record : Record json) (sessionID : UInt32) (timeout : Int64) : Prop :=
  record.step = .confirmedCommit sessionID timeout ∧ record.Succeeds

end Record

section Chains

variable {json : Json}

/-- The history ends in a chain of confirmed commits that the session has begun with `first`:
there was no confirmed commit in progress, and since then no plain commit went through and
nothing was rolled back. -/
def InChain (history : List (Record json)) (sessionID : UInt32) (first : Record json) : Prop :=
  ∃ old since timeout, history = old ++ first :: since ∧
    first.before.machine.confirmed.pend = none ∧ first.Applies sessionID timeout ∧
    ∀ record ∈ since, ¬ record.Confirms ∧ record.restored = none

/-- The timer that the history has started or restarted last, and when it expires. -/
def LastTimer (history : List (Record json)) (timer : Nat) (deadline : Int) : Prop :=
  ∃ older last newer sessionID timeout, history = older ++ last :: newer ∧
    last.Applies sessionID timeout ∧ last.after.pendTimer.map TimerHandle.id = some timer ∧
    last.before.deadline timeout = deadline ∧
    ∀ record ∈ newer, ∀ sessionID timeout, ¬ record.Applies sessionID timeout

variable {history : List (Record json)} {record : Record json}

theorem InChain.append {sessionID : UInt32} {first : Record json}
    (hChain : InChain history sessionID first) (hConfirms : ¬ record.Confirms)
    (hRestored : record.restored = none) :
    InChain (history ++ [record]) sessionID first := by
  obtain ⟨old, since, timeout, rfl, hNone, hApplies, hSince⟩ := hChain
  refine ⟨old, since ++ [record], timeout, by simp, hNone, hApplies, ?_⟩
  intro later hLater
  rcases List.mem_append.mp hLater with hOld | hNew
  · exact hSince later hOld
  · cases List.mem_singleton.mp hNew
    exact ⟨hConfirms, hRestored⟩

theorem LastTimer.append {timer : Nat} {deadline : Int} (hTimer : LastTimer history timer deadline)
    (hApplies : ∀ sessionID timeout, ¬ record.Applies sessionID timeout) :
    LastTimer (history ++ [record]) timer deadline := by
  obtain ⟨older, last, newer, sessionID, timeout, rfl, hLast, hId, hDeadline, hNewer⟩ := hTimer
  refine ⟨older, last, newer ++ [record], sessionID, timeout, by simp, hLast, hId, hDeadline, ?_⟩
  intro later hLater
  rcases List.mem_append.mp hLater with hOld | hNew
  · exact hNewer later hOld
  · cases List.mem_singleton.mp hNew
    exact hApplies

/-- What a step may do after a history. -/
structure Record.Sound (earlier : List (Record json)) (record : Record json) : Prop where
  /-- A rollback is run for the chain in progress, when its session ends or when the timer
  expires that was started or restarted last. -/
  rollback : ∀ rollback, record.restored = some rollback →
    ∃ sessionID first, InChain earlier sessionID first ∧
      (record.step = .sessionEnded sessionID ∨
        ∃ timer deadline, record.step = .expire timer ∧ LastTimer earlier timer deadline ∧
          deadline ≤ record.before.now) ∧
      (record.Succeeds → record.after.machine.contents =
        ⟨first.before.machine.memory.running, record.before.machine.memory.candidate,
          first.before.machine.memory.running⟩)
  /-- The end of a session and an expiry that run no rollback change nothing else. -/
  idle : record.restored = none →
    ((∃ sessionID, record.step = .sessionEnded sessionID) ∨
      ∃ timer, record.step = .expire timer) → record.after.machine = record.before.machine
  /-- A confirmed commit of another session is refused. -/
  refused : ∀ sessionID timeout pend, record.step = .confirmedCommit sessionID timeout →
    record.before.machine.confirmed.pend = some pend → pend.sessionID ≠ sessionID →
      record.Fails ∧ record.after = { record.before with
        machine := { record.before.machine with
          requests := record.before.machine.requests + 1 } }
  /-- A commit that fails leaves what is armed. -/
  failed : (record.step = .commit ∨
      ∃ sessionID timeout, record.step = .confirmedCommit sessionID timeout) → record.Fails →
    record.after.machine.confirmed = record.before.machine.confirmed ∧
      record.after.timers = record.before.timers ∧
      record.after.pendTimer = record.before.pendTimer

/-- What a process knows of a confirmed commit in progress is what its history says. -/
structure Armed (history : List (Record json)) (pend : PendingCommit) (timer : Nat)
    (deadline : Int) (site : Site json) : Prop where
  chain : ∃ first, InChain history pend.sessionID first ∧
    pend.rollback.snapshot = first.before.machine.memory.running
  last : LastTimer history timer deadline
  handle : site.pendTimer = some ⟨timer, pend.seq⟩
  timers : ∀ id : Nat, site.timers[id]? = if timer = id then some ⟨pend.seq, deadline⟩ else none

/-- Nothing is in progress and no timer runs, or what is in progress is armed. -/
def Tracks (history : List (Record json)) (site : Site json) : Prop :=
  (site.machine.confirmed.pend = none ∧ site.pendTimer = none ∧
      ∀ id : Nat, site.timers[id]? = none) ∨
    ∃ pend timer deadline, site.machine.confirmed.pend = some pend ∧
      Armed history pend timer deadline site

theorem tracks_start {machine : Machine json} (hNone : machine.confirmed.pend = none) :
    Tracks [] (Site.start machine) :=
  Or.inl ⟨hNone, rfl, fun _ => Std.ExtTreeMap.getElem?_empty⟩

/-- A step that is no successful commit, runs no rollback and leaves what is armed. -/
theorem Tracks.append (hTracks : Tracks history record.before)
    (hConfirmed : record.after.machine.confirmed = record.before.machine.confirmed)
    (hTimers : record.after.timers = record.before.timers)
    (hHandle : record.after.pendTimer = record.before.pendTimer) (hConfirms : ¬ record.Confirms)
    (hRestored : record.restored = none)
    (hApplies : ∀ sessionID timeout, ¬ record.Applies sessionID timeout) :
    Tracks (history ++ [record]) record.after := by
  unfold Tracks at hTracks ⊢
  rw [hConfirmed]
  rcases hTracks with ⟨hNone, hNoHandle, hNoTimers⟩ | ⟨pend, timer, deadline, hPend, hArmed⟩
  · exact Or.inl ⟨hNone, hHandle.trans hNoHandle, by rwa [hTimers]⟩
  · obtain ⟨⟨first, hChain, hSnapshot⟩, hLast, hArmedHandle, hArmedTimers⟩ := hArmed
    exact Or.inr ⟨pend, timer, deadline, hPend,
      ⟨first, hChain.append hConfirms hRestored, hSnapshot⟩, hLast.append hApplies,
      hHandle.trans hArmedHandle, by rwa [hTimers]⟩

@[simp] theorem Site.machine_stop (site : Site json) : site.stop.machine = site.machine := by
  unfold Site.stop
  split <;> rfl

/-- Once the timer of what was in progress is stopped, none runs. -/
theorem Tracks.stop {site : Site json} {machine : Machine json} (hTracks : Tracks history site)
    (hNone : machine.confirmed.pend = none) :
    Tracks history ({ site with machine } : Site json).stop := by
  refine Or.inl ⟨by rwa [Site.machine_stop], ?_⟩
  unfold Site.stop
  rcases hTracks with ⟨_, hNoHandle, hNoTimers⟩ | ⟨pend, timer, deadline, _, hArmed⟩
  · rw [hNoHandle]
    exact ⟨rfl, hNoTimers⟩
  · rw [hArmed.handle]
    refine ⟨rfl, fun id => ?_⟩
    dsimp only
    rw [FinMap.getElem?_erase_ite, hArmed.timers]
    split <;> rfl

/-- Without a confirmed commit in progress the history does not matter. -/
theorem Tracks.of_none {other : List (Record json)} {site : Site json}
    (hTracks : Tracks history site) (hNone : site.machine.confirmed.pend = none) :
    Tracks other site := by
  rcases hTracks with hIdle | ⟨pend, _, _, hPend, _⟩
  · exact Or.inl hIdle
  · cases hNone.symm.trans hPend

/-! ## What each step does -/

section Steps

variable {opts : Options} {r : Router} {env : Nat → CallEnv} {site : Site json}
  {record : Record json} {history : List (Record json)}

/-- A step that has nothing to do with a confirmed commit. -/
theorem quiet_step (hTracks : Tracks history record.before) (hQuiet : record.step.isQuiet = true)
    (hRestored : record.restored = none)
    (hConfirmed : record.after.machine.confirmed = record.before.machine.confirmed)
    (hTimers : record.after.timers = record.before.timers)
    (hHandle : record.after.pendTimer = record.before.pendTimer) :
    Tracks (history ++ [record]) record.after ∧ record.Sound history := by
  have hOther : ∀ step : SiteStep, step.isQuiet = false → record.step ≠ step := by
    rintro _ hNot rfl
    cases hQuiet.symm.trans hNot
  refine ⟨hTracks.append hConfirmed hTimers hHandle (fun h => hOther _ rfl h.1) hRestored
    fun _ _ h => hOther _ rfl h.1, ?_, ?_, ?_, ?_⟩
  · intro rollback hSome
    cases hRestored.symm.trans hSome
  · rintro _ (⟨_, hStep⟩ | ⟨_, hStep⟩)
    · exact absurd hStep (hOther _ rfl)
    · exact absurd hStep (hOther _ rfl)
  · intro _ _ _ hStep
    exact absurd hStep (hOther _ rfl)
  · rintro (hStep | ⟨_, _, hStep⟩)
    · exact absurd hStep (hOther _ rfl)
    · exact absurd hStep (hOther _ rfl)

theorem commit_step (hTracks : Tracks history site) :
    Tracks (history ++ [site.commit opts env]) (site.commit opts env).after ∧
      (site.commit opts env).Sound history := by
  have hSpec := Prog.Ensures.run (@ensures_commit _ opts site.machine) env
  unfold Site.commit
  generalize Netconf.commit.run opts env site.machine = done at hSpec
  obtain ⟨result, after⟩ := done
  refine ⟨?_, fun _ hRestored => (by cases hRestored), ?_, fun _ _ _ hStep => (by cases hStep), ?_⟩
  · cases result with
    | ok done => exact (hTracks.stop (hSpec.1 rfl)).of_none (by simpa using hSpec.1 rfl)
    | error err =>
      refine hTracks.append (hSpec.2 err rfl) rfl rfl ?_ rfl ?_
      · rintro ⟨_, hOk⟩
        cases hOk
      · rintro _ _ ⟨hStep, _⟩
        cases hStep
  · rintro _ (⟨_, hStep⟩ | ⟨_, hStep⟩)
    · cases hStep
    · cases hStep
  · rintro _ ⟨err, hErr⟩
    cases hErr
    exact ⟨hSpec.2 err rfl, rfl, rfl⟩

variable {sessionID : UInt32} {timeout : Int64} {after : Machine json} {timer : Nat}

/-- A confirmed commit runs no rollback, so only what it says of itself is left to show. -/
theorem Record.sound_of_confirmedCommit (hStep : record.step = .confirmedCommit sessionID timeout)
    (hRestored : record.restored = none)
    (hRefused : ∀ pend, record.before.machine.confirmed.pend = some pend →
      pend.sessionID ≠ sessionID → record.Fails ∧ record.after = { record.before with
        machine := { record.before.machine with
          requests := record.before.machine.requests + 1 } })
    (hFailed : record.Fails → record.after.machine.confirmed = record.before.machine.confirmed ∧
      record.after.timers = record.before.timers ∧
      record.after.pendTimer = record.before.pendTimer) : record.Sound history := by
  refine ⟨?_, ?_, ?_, fun _ => hFailed⟩
  · intro rollback hSome
    cases hRestored.symm.trans hSome
  · rintro _ (⟨_, hEnd⟩ | ⟨_, hEnd⟩)
    · cases hStep.symm.trans hEnd
    · cases hStep.symm.trans hEnd
  · intro _ _ pend hSame hPend hOther
    cases hStep.symm.trans hSame
    exact hRefused pend hPend hOther

/-- A confirmed commit that fails leaves the chain as it was. -/
theorem Tracks.append_failed {err : Err} (hTracks : Tracks history site)
    (hSame : after.confirmed = site.machine.confirmed) :
    Tracks (history ++ [⟨site, .confirmedCommit sessionID timeout, .done (.error err), none,
      { site with machine := after }⟩]) { site with machine := after } := by
  refine @Tracks.append _ history ⟨site, .confirmedCommit sessionID timeout, .done (.error err),
    none, { site with machine := after }⟩ hTracks hSame rfl rfl ?_ rfl ?_
  · rintro ⟨hStep, _⟩
    cases hStep
  · rintro _ _ ⟨_, hOk⟩
    cases hOk

/-- A follow-up restarts the timer of the chain. -/
theorem Tracks.append_reset {pend : PendingCommit} (hTracks : Tracks history site)
    (hPend : site.machine.confirmed.pend = some pend)
    (hSame : after.confirmed = site.machine.confirmed)
    (hStep : record.step = .confirmedCommit pend.sessionID timeout) (hSucceeds : record.Succeeds)
    (hRestored : record.restored = none) (hBefore : record.before = site)
    (hAfter : record.after = ({ site with machine := after } : Site json).reset timeout) :
    Tracks (history ++ [record]) record.after := by
  rcases hTracks with ⟨hNone, _⟩ | ⟨armed, timer, deadline, hArmedPend, hArmed⟩
  · cases hNone.symm.trans hPend
  · cases hPend.symm.trans hArmedPend
    obtain ⟨⟨first, hChain, hSnapshot⟩, _, hHandle, hTimers⟩ := hArmed
    have hReset : record.after = { site with
        machine := after
        timers := site.timers.insert timer ⟨pend.seq, site.deadline timeout⟩ } := by
      rw [hAfter]
      unfold Site.reset
      rw [hHandle]
      rfl
    rw [hReset]
    refine Or.inr ⟨pend, timer, site.deadline timeout, ?_, ⟨first, ?_, hSnapshot⟩, ?_, hHandle, ?_⟩
    · exact (congrArg Confirmed.pend hSame).trans hPend
    · refine hChain.append ?_ hRestored
      rintro ⟨hCommit, _⟩
      cases hStep.symm.trans hCommit
    · refine ⟨history, record, [], pend.sessionID, timeout, rfl, ⟨hStep, hSucceeds⟩, ?_, ?_, ?_⟩
      · rw [hReset]
        show site.pendTimer.map TimerHandle.id = some timer
        rw [hHandle]
        rfl
      · rw [hBefore]
      · intro _ hNil
        cases hNil
    · intro id
      dsimp only
      rw [FinMap.getElem?_insert_ite, hTimers]
      split <;> rfl

/-- The first confirmed commit of a chain starts its timer. -/
theorem Tracks.append_started {rpc : Nat} (hTracks : Tracks history site)
    (hNone : site.machine.confirmed.pend = none)
    (hArmed : after.confirmed = ⟨site.machine.confirmed.next + 1,
      some ⟨site.machine.confirmed.next + 1, sessionID, ⟨rpc, site.machine.memory.running⟩⟩⟩)
    (hStep : record.step = .confirmedCommit sessionID timeout) (hSucceeds : record.Succeeds)
    (hBefore : record.before = site)
    (hAfter : record.after =
      ({ site with machine := after } : Site json).afterFunc after.confirmed.next timeout) :
    Tracks (history ++ [record]) record.after := by
  rcases hTracks with ⟨_, _, hTimers⟩ | ⟨armed, _, _, hArmedPend, _⟩
  · rw [hAfter]
    refine Or.inr ⟨_, site.started, site.deadline timeout, congrArg Confirmed.pend hArmed,
      ⟨record, ⟨history, [], timeout, rfl, ?_, ⟨hStep, hSucceeds⟩, ?_⟩, ?_⟩,
      ⟨history, record, [], sessionID, timeout, rfl, ⟨hStep, hSucceeds⟩, ?_, ?_, ?_⟩, ?_, ?_⟩
    · rw [hBefore]
      exact hNone
    · intro _ hNil
      cases hNil
    · rw [hBefore]
    · rw [hAfter]
      rfl
    · rw [hBefore]
    · intro _ hNil
      cases hNil
    · rw [hArmed]
      rfl
    · intro id
      show (site.timers.insert site.started ⟨after.confirmed.next, site.deadline timeout⟩)[id]? = _
      rw [FinMap.getElem?_insert_ite, hTimers, hArmed]
  · cases hNone.symm.trans hArmedPend

theorem commitConfirmed_step (hTracks : Tracks history site) :
    Tracks (history ++ [site.commitConfirmed opts env sessionID timeout])
        (site.commitConfirmed opts env sessionID timeout).after ∧
      (site.commitConfirmed opts env sessionID timeout).Sound history := by
  have hSpec := Prog.Ensures.run (@ensures_commitConfirmed _ opts site.machine sessionID) env
  unfold Site.commitConfirmed
  generalize (Netconf.commitConfirmed sessionID).run opts env site.machine = done at hSpec
  obtain ⟨result, after⟩ := done
  dsimp only at hSpec ⊢
  cases hSpec with
  | refused err =>
    refine ⟨hTracks.append_failed rfl, Record.sound_of_confirmedCommit rfl rfl ?_ ?_⟩
    · exact fun _ _ _ => ⟨⟨err, rfl⟩, rfl⟩
    · exact fun _ => ⟨rfl, rfl, rfl⟩
  | failed hOwned hSame =>
    refine ⟨hTracks.append_failed hSame, Record.sound_of_confirmedCommit rfl rfl ?_ ?_⟩
    · exact fun pend hPend hOther => absurd (hOwned pend hPend) hOther
    · exact fun _ => ⟨hSame, rfl, rfl⟩
  | @followed pend after hPend hOwner hSame =>
    subst hOwner
    refine ⟨hTracks.append_reset hPend hSame rfl rfl rfl rfl ?_,
      Record.sound_of_confirmedCommit rfl rfl ?_ ?_⟩
    · rw [hPend]
      rfl
    · intro other hOther hNot
      cases hPend.symm.trans hOther
      exact absurd rfl hNot
    · rintro ⟨err, hErr⟩
      cases hErr
  | armed rpc hNone hArmed =>
    refine ⟨hTracks.append_started hNone hArmed rfl rfl rfl ?_,
      Record.sound_of_confirmedCommit rfl rfl ?_ ?_⟩
    · rw [hNone]
      rfl
    · intro pend hPend
      cases hNone.symm.trans hPend
    · rintro ⟨err, hErr⟩
      cases hErr

/-- A rollback that is armed, taken and run is a rollback of the chain. -/
theorem Armed.rolledBack {pend : PendingCommit} {deadline : Int} {meant : PendingCommit → Bool}
    {result : Except Err Unit} (hArmed : Armed history pend timer deadline site)
    (hTake : (site.machine.take meant).1 = some pend.rollback)
    (hSpec : RolledBack site.machine meant result after) :
    ∃ first, InChain history pend.sessionID first ∧
      (Outcome.done result = .done (.ok ()) → after.contents =
        ⟨first.before.machine.memory.running, site.machine.memory.candidate,
          first.before.machine.memory.running⟩) := by
  obtain ⟨first, hChain, hSnapshot⟩ := hArmed.chain
  refine ⟨first, hChain, fun hOk => ?_⟩
  cases hOk
  rw [hSpec.restored _ hTake rfl, hSnapshot]

/-- A step that ends a chain is no commit. -/
theorem Record.sound_of_end (hStep : (∃ sessionID, record.step = .sessionEnded sessionID) ∨
      ∃ timer, record.step = .expire timer)
    (hRollback : ∀ rollback, record.restored = some rollback →
      ∃ sessionID first, InChain history sessionID first ∧
        (record.step = .sessionEnded sessionID ∨
          ∃ timer deadline, record.step = .expire timer ∧ LastTimer history timer deadline ∧
            deadline ≤ record.before.now) ∧
        (record.Succeeds → record.after.machine.contents =
          ⟨first.before.machine.memory.running, record.before.machine.memory.candidate,
            first.before.machine.memory.running⟩))
    (hIdle : record.restored = none → record.after.machine = record.before.machine) :
    record.Sound history := by
  have hOther : record.step ≠ .commit ∧
      ∀ sessionID timeout, record.step ≠ .confirmedCommit sessionID timeout := by
    rcases hStep with ⟨_, hStep⟩ | ⟨_, hStep⟩ <;> rw [hStep] <;> simp
  refine ⟨hRollback, fun hNone _ => hIdle hNone, ?_, ?_⟩
  · intro sessionID timeout _ hCommit
    exact absurd hCommit (hOther.2 sessionID timeout)
  · rintro (hCommit | ⟨sessionID, timeout, hCommit⟩)
    · exact absurd hCommit hOther.1
    · exact absurd hCommit (hOther.2 sessionID timeout)

theorem sessionEnded_step (hTracks : Tracks history site) :
    Tracks (history ++ [site.sessionEnded opts env sessionID])
        (site.sessionEnded opts env sessionID).after ∧
      (site.sessionEnded opts env sessionID).Sound history := by
  have hSpec := Prog.Ensures.run (@ensures_sessionEnded _ opts site.machine sessionID) env
  unfold Site.sessionEnded
  generalize (Netconf.sessionEnded sessionID).run opts env site.machine = done at hSpec
  obtain ⟨result, after⟩ := done
  dsimp only at hSpec ⊢
  rcases take_cases site.machine fun pend => pend.sessionID = sessionID with
    ⟨pend, hPend, hMeant, hTake⟩ | hTake
  · have hTaken := congrArg Prod.fst hTake
    have hNone : after.confirmed.pend = none := by
      rw [hSpec.confirmed, hTake]
    rw [hTaken]
    refine ⟨(hTracks.stop hNone).of_none (by simpa using hNone),
      Record.sound_of_end (Or.inl ⟨sessionID, rfl⟩) ?_ fun hRestored => (by cases hRestored)⟩
    rintro _ ⟨⟩
    rcases hTracks with ⟨hIdle, _⟩ | ⟨armed, timer, deadline, hArmedPend, hArmed⟩
    · cases hIdle.symm.trans hPend
    · cases hPend.symm.trans hArmedPend
      cases of_decide_eq_true hMeant
      obtain ⟨first, hChain, hRestored⟩ := hArmed.rolledBack hTaken hSpec
      refine ⟨_, first, hChain, Or.inl rfl, fun hSucceeds => ?_⟩
      show ({ site with machine := after } : Site json).stop.machine.contents = _
      rw [Site.machine_stop]
      exact hRestored hSucceeds
  · have hTaken := congrArg Prod.fst hTake
    have hSame : after = site.machine := hSpec.untaken hTaken
    rw [hTaken]
    subst hSame
    refine ⟨hTracks.append rfl rfl rfl ?_ rfl ?_,
      Record.sound_of_end (Or.inl ⟨sessionID, rfl⟩) (fun _ hRestored => by cases hRestored)
        fun _ => rfl⟩
    · rintro ⟨hStep, _⟩
      cases hStep
    · rintro _ _ ⟨hStep, _⟩
      cases hStep

/-- A timer that runs is the one of the confirmed commit in progress. -/
theorem Tracks.armed_of_timer {running : Timer} (hTracks : Tracks history site)
    (hRunning : site.timers[timer]? = some running) :
    ∃ pend, site.machine.confirmed.pend = some pend ∧ pend.seq = running.seq ∧
      Armed history pend timer running.deadline site := by
  rcases hTracks with ⟨_, _, hNoTimers⟩ | ⟨pend, armed, deadline, hPend, hArmed⟩
  · cases (hNoTimers timer).symm.trans hRunning
  · have hTimer := hArmed.timers timer
    rw [hRunning] at hTimer
    split at hTimer
    · next hSame =>
      cases hTimer
      subst hSame
      exact ⟨pend, hPend, rfl, hArmed⟩
    · cases hTimer

theorem expire_step {running : Timer} (hTracks : Tracks history site)
    (hRunning : site.timers[timer]? = some running) (hDue : running.deadline ≤ site.now) :
    Tracks (history ++ [site.expire opts env timer running])
        (site.expire opts env timer running).after ∧
      (site.expire opts env timer running).Sound history := by
  obtain ⟨pend, hPend, hSeq, hArmed⟩ := hTracks.armed_of_timer hRunning
  have hSpec := Prog.Ensures.run (@ensures_fire _ opts site.machine running.seq) env
  unfold Site.expire
  generalize (Netconf.fire running.seq).run opts env site.machine = done at hSpec
  obtain ⟨result, after⟩ := done
  dsimp only at hSpec ⊢
  have hTake : site.machine.take (fun pend => pend.seq = running.seq) =
      (some pend.rollback,
        { site.machine with confirmed := ⟨site.machine.confirmed.next, none⟩ }) := by
    unfold Machine.take
    rw [hPend]
    exact if_pos (decide_eq_true hSeq)
  have hTaken := congrArg Prod.fst hTake
  rw [hTaken]
  refine ⟨Or.inl ⟨by rw [hSpec.confirmed, hTake], rfl, ?_⟩,
    Record.sound_of_end (Or.inr ⟨timer, rfl⟩) ?_ fun hRestored => (by cases hRestored)⟩
  · intro id
    dsimp only
    rw [FinMap.getElem?_erase_ite, hArmed.timers]
    split <;> rfl
  · rintro _ ⟨⟩
    obtain ⟨first, hChain, hRestored⟩ := hArmed.rolledBack hTaken hSpec
    exact ⟨pend.sessionID, first, hChain, Or.inr ⟨timer, running.deadline, rfl, hArmed.last, hDue⟩,
      hRestored⟩

/-- Each step keeps track of the chain in progress and does only what it may. -/
theorem step_sound {next : SiteStep} (hTracks : Tracks history site)
    (hStep : site.step opts r env next = some record) :
    Tracks (history ++ [record]) record.after ∧ record.Sound history := by
  cases next with
  | activity activity =>
    simp only [Site.step] at hStep
    split at hStep
    · next hPlain =>
      cases hStep
      exact quiet_step hTracks rfl rfl (confirmed_of_activity r hPlain env) rfl rfl
    · cases hStep
  | commit =>
    cases hStep
    exact commit_step hTracks
  | confirmedCommit sessionID timeout =>
    cases hStep
    exact commitConfirmed_step hTracks
  | sessionEnded sessionID =>
    cases hStep
    exact sessionEnded_step hTracks
  | expire timer =>
    obtain ⟨running, hFilter, rfl⟩ := Option.map_eq_some_iff.mp hStep
    obtain ⟨hRunning, hDue⟩ := Option.filter_eq_some_iff.mp hFilter
    exact expire_step hTracks hRunning (of_decide_eq_true hDue)
  | elapse time =>
    cases hStep
    exact quiet_step hTracks rfl rfl rfl rfl rfl

/-- Steps after a history do only what they may after all that went before. -/
theorem sound_of_run {steps : List (SiteStep × (Nat → CallEnv))} {records : List (Record json)}
    (hTracks : Tracks history site) (hRun : site.run opts r steps = some records)
    {earlier later : List (Record json)} (hSplit : records = earlier ++ record :: later) :
    record.Sound (history ++ earlier) := by
  induction steps generalizing site history records earlier with
  | nil =>
    cases hRun
    cases List.append_eq_nil_iff.mp hSplit.symm |>.2
  | cons next rest ih =>
    obtain ⟨next, env⟩ := next
    simp only [Site.run, Option.bind_eq_bind, Option.bind_eq_some_iff] at hRun
    obtain ⟨head, hStep, tail, hRest, hRecords⟩ := hRun
    cases hRecords
    obtain ⟨hNext, hSound⟩ := step_sound hTracks hStep
    cases earlier with
    | nil =>
      cases hSplit
      rwa [List.append_nil]
    | cons first others =>
      cases hSplit
      have hLater := ih hNext hRest rfl
      rwa [List.append_assoc] at hLater

end Steps

end Chains

/-- Whatever the candidate edits, the writes to running, the commits, the ends of sessions and
the expiries are and in whatever order they come: a rollback is run for the chain in progress
only, it puts back what running was before the first confirmed commit of the chain, no other
session can join the chain, and a commit that fails leaves the rollback armed as it was. -/
theorem confirmed_commit_chains_are_sound {json : Json} (opts : Options) (r : Router)
    (machine : Machine json) (hFresh : machine.confirmed.pend = none)
    (steps : List (SiteStep × (Nat → CallEnv))) {records : List (Record json)}
    (hRun : (Site.start machine).run opts r steps = some records)
    {earlier later : List (Record json)} {record : Record json}
    (hSplit : records = earlier ++ record :: later) : record.Sound earlier :=
  sound_of_run (tracks_start hFresh) hRun hSplit

/-- A confirmed commit, one of another session, a follow-up and the time until it expires. -/
def labSteps : List (SiteStep × (Nat → CallEnv)) :=
  [.confirmedCommit 1 5, .confirmedCommit 2 5, .elapse 3, .confirmedCommit 1 5, .elapse 5,
    .expire 0].map fun step => (step, fun _ => CallEnv.quiet)

theorem follow_up_expires_soundly :
    ∃ records earlier later : List (Record Json.plain), ∃ record,
      (Site.start labMachine).run (defaultRouter.options []) defaultRouter labSteps =
        some records ∧ records = earlier ++ record :: later ∧
      (∃ rollback, record.restored = some rollback) ∧ record.Sound earlier := by
  have hEvaluated : ((Site.start labMachine).run (defaultRouter.options []) defaultRouter
      labSteps).map (fun records => records[5]?.any fun record => record.restored.isSome) =
        some true := by
    decide +kernel
  obtain ⟨records, hRun, hRecord⟩ := Option.map_eq_some_iff.mp hEvaluated
  obtain ⟨record, hRecord, hRestored⟩ := (Option.any_eq_true _ _).mp hRecord
  have hSplit := split_of_getElem? hRecord
  exact ⟨records, _, _, record, hRun, hSplit, Option.isSome_iff_exists.mp hRestored,
    confirmed_commit_chains_are_sound (defaultRouter.options []) defaultRouter labMachine rfl
      labSteps hRun hSplit⟩

end TriadSim

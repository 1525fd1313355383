import TriadSim.Sync.Holdover
import TriadSim.System.Domains

/-!
# When a holdover expires

A holdover that has begun with no expiry on its way ends after its timeout at the earliest: the
only timer that runs is its own.  `Sound` says so of every state, and each call of the clock keeps
it if no expiry is on its way when it begins a holdover.  An expiry of an earlier holdover that is
still on its way ends the new one at once.  The main result is `holdover_lasts_in_safe_runs`.
-/

namespace TriadSim
namespace Sync

open Go Library Model Router Store

namespace Timed

variable {json : Json}

/-- An expiry is on its way to the manager. -/
def OnTheWay (timed : Timed json) : Prop :=
  0 < timed.callbacks ∨ timed.expired = true ∨ timed.taken = true

/-- No timer runs, and no expiry is on its way. -/
structure Idle (timed : Timed json) : Prop where
  timer : timed.timer = none
  forgotten : timed.forgotten = []
  quiet : ¬ timed.OnTheWay

/-- The only timer is that of the holdover the clock is in, and an expiry of that holdover is on
its way after the timeout at the earliest. -/
structure Sound (timed : Timed json) : Prop where
  unknown : timed.clock.known = false → timed.clock.state = []
  forgotten : timed.forgotten = []
  outside : timed.clock.state ≠ stateHoldoverInSpec → timed.timer = none
  inside : timed.clock.state = stateHoldoverInSpec → ∃ period, timed.period = some period ∧
    (∀ deadline, timed.timer = some deadline → period.due ≤ deadline) ∧
    (timed.OnTheWay → period.due ≤ timed.now ∧ timed.timer = none)

/-! ## Moves -/

/-- What happens between the calls, and what a call does that leaves the clock alone. -/
structure Follows (before after : Timed json) : Prop where
  clock : after.clock = before.clock
  period : after.period = before.period
  timer : before.timer = none → after.timer = none
  sound : before.Sound → after.Sound
  idle : before.Idle → after.Idle

theorem Follows.refl (timed : Timed json) : Follows timed timed :=
  ⟨rfl, rfl, id, id, id⟩

theorem Follows.trans {first second third : Timed json} (hFirst : Follows first second)
    (hSecond : Follows second third) : Follows first third where
  clock := hSecond.clock.trans hFirst.clock
  period := hSecond.period.trans hFirst.period
  timer := hSecond.timer ∘ hFirst.timer
  sound := hSecond.sound ∘ hFirst.sound
  idle := hSecond.idle ∘ hFirst.idle

/-- A change that neither the timers nor the clock see. -/
theorem follows_of_eq {before after : Timed json} (hClock : after.clock = before.clock)
    (hPeriod : after.period = before.period) (hNow : before.now ≤ after.now)
    (hTimer : after.timer = before.timer) (hForgotten : after.forgotten = before.forgotten)
    (hWay : after.OnTheWay → before.OnTheWay) : Follows before after where
  clock := hClock
  period := hPeriod
  timer := hTimer.trans
  sound hSound := by
    refine ⟨hClock ▸ hSound.unknown, hForgotten.trans hSound.forgotten, ?_, ?_⟩
    · rw [hClock, hTimer]
      exact hSound.outside
    · rw [hClock, hPeriod, hTimer]
      intro hState
      obtain ⟨period, hPeriod, hDeadline, hExpiry⟩ := hSound.inside hState
      refine ⟨period, hPeriod, hDeadline, fun hOn => ?_⟩
      exact ⟨(hExpiry (hWay hOn)).1.trans hNow, (hExpiry (hWay hOn)).2⟩
  idle hIdle := ⟨hTimer.trans hIdle.timer, hForgotten.trans hIdle.forgotten, hIdle.quiet ∘ hWay⟩

theorem follows_move (timed : Timed json) (move : Move) : Follows timed (timed.move move) := by
  cases move with
  | elapse duration => exact follows_of_eq rfl rfl (Nat.le_add_right _ _) rfl rfl id
  | fire =>
    dsimp only [Timed.move]
    split
    · next deadline hTimer =>
      split
      · next hDue =>
        refine ⟨rfl, rfl, fun hNone => (by cases hTimer.symm.trans hNone), fun hSound => ?_,
          fun hIdle => (by cases hTimer.symm.trans hIdle.timer)⟩
        refine ⟨hSound.unknown, hSound.forgotten, fun _ => rfl, fun hState => ?_⟩
        obtain ⟨period, hPeriod, hDeadline, _⟩ := hSound.inside hState
        exact ⟨period, hPeriod, fun _ hNone => (by cases hNone),
          fun _ => ⟨(hDeadline deadline hTimer).trans hDue, rfl⟩⟩
      · exact Follows.refl _
    · exact Follows.refl _
  | fireForgotten index =>
    dsimp only [Timed.move]
    split
    · next deadline hForgotten =>
      have hSome : timed.forgotten ≠ [] := by
        intro hNone
        rw [hNone] at hForgotten
        cases hForgotten
      split
      · exact ⟨rfl, rfl, id, fun hSound => absurd hSound.forgotten hSome,
          fun hIdle => absurd hIdle.forgotten hSome⟩
      · exact Follows.refl _
    · exact Follows.refl _
  | deliver =>
    dsimp only [Timed.move]
    split
    · exact Follows.refl _
    · next callbacks hCallbacks =>
      refine follows_of_eq rfl rfl (Nat.le_refl _) rfl rfl fun _ => Or.inl ?_
      rw [hCallbacks]
      exact Nat.succ_pos _
  | take =>
    dsimp only [Timed.move]
    split
    · next hExpired =>
      exact follows_of_eq rfl rfl (Nat.le_refl _) rfl rfl fun _ => Or.inr (Or.inl hExpired)
    · exact Follows.refl _
  | write running => exact follows_of_eq rfl rfl (Nat.le_refl _) rfl rfl id

theorem follows_moves (moves : List Move) (timed : Timed json) :
    Follows timed (moves.foldl Timed.move timed) := by
  induction moves generalizing timed with
  | nil => exact Follows.refl _
  | cons move rest ih => exact (follows_move timed move).trans (ih _)

/-! ## The state of the clock -/

/-- A new state of the clock: only a holdover has to begin with nothing on its way, and only one
whose timer has fired may expire. -/
theorem Sound.setClock {timed : Timed json} (hSound : timed.Sound) (r : Router)
    {new : ClockManager} (hKnown : new.known = false → new.state = [])
    (hBegins : new.state = stateHoldoverInSpec → new.state ≠ timed.clock.state → timed.Idle)
    (hExpires : new.state = stateHoldoverOutOfSpec → timed.timer = none) :
    (timed.setClock r new).Sound := by
  unfold Timed.setClock
  dsimp only
  split
  · next hSame =>
    refine ⟨hKnown, hSound.forgotten, ?_, ?_⟩
    · show new.state ≠ _ → _
      rw [hSame.2]
      exact hSound.outside
    · show new.state = _ → _
      rw [hSame.2]
      exact hSound.inside
  next hOther =>
  split
  · next hState =>
    have hNew : new.state ≠ timed.clock.state := by
      intro hSame
      refine hOther ⟨?_, hSame⟩
      cases hNewKnown : new.known with
      | false =>
        rw [hKnown hNewKnown] at hState
        cases hState
      | true =>
        cases hOldKnown : timed.clock.known with
        | true => rfl
        | false =>
          rw [hSame, hSound.unknown hOldKnown] at hState
          cases hState
    have hIdle := hBegins hState hNew
    refine ⟨hKnown, hIdle.forgotten, fun hElse => absurd hState hElse, fun _ => ?_⟩
    exact ⟨_, rfl, fun deadline hDeadline => (Option.some.inj hDeadline).le,
      fun hOn => absurd hOn hIdle.quiet⟩
  next hOutside =>
  split
  · next hState =>
    refine ⟨hKnown, ?_, fun _ => rfl, fun hInside => absurd hInside hOutside⟩
    show timed.forgotten ++ timed.timer.toList = []
    rw [hSound.forgotten, hExpires hState]
    rfl
  · exact ⟨hKnown, hSound.forgotten, fun _ => rfl, fun hInside => absurd hInside hOutside⟩

/-- Outside a holdover, a state that is not a holdover either leaves everything idle. -/
theorem Idle.setClock {timed : Timed json} (hIdle : timed.Idle) (r : Router) {new : ClockManager}
    (hState : new.state ≠ stateHoldoverInSpec) : (timed.setClock r new).Idle := by
  unfold Timed.setClock
  dsimp only
  split
  · exact ⟨hIdle.timer, hIdle.forgotten, hIdle.quiet⟩
  split
  · refine ⟨rfl, ?_, hIdle.quiet⟩
    show timed.forgotten ++ timed.timer.toList = []
    rw [hIdle.forgotten, hIdle.timer]
    rfl
  · exact ⟨rfl, hIdle.forgotten, hIdle.quiet⟩

@[simp] theorem clock_setClock (timed : Timed json) (r : Router) (new : ClockManager) :
    (timed.setClock r new).clock = new := by
  unfold Timed.setClock
  dsimp only
  split
  · rfl
  split
  · rfl
  split <;> rfl

/-! ## Accesses -/

section Calls

variable {opts : Options} {r : Router}

/-- A program of the clock ends, from a state, with a result and a state. -/
abbrev Ends {α : Type} (opts : Options) (r : Router) (program : Prog α)
    (post : α → Timed json → Prop) (timed : Timed json) : Prop :=
  Program.Ensures (Timed.handle opts r) program post timed

/-- An access that leaves the clock alone. -/
def Spares (request : Request) : Prop :=
  ∀ new, request ≠ .setClockManager new

theorem clockManager_handle_of_spares (opts : Options) {request : Request}
    (hSpares : Spares request) (env : CallEnv) (machine : Machine json) :
    (Machine.handle opts env request machine).2.clockManager = machine.clockManager := by
  cases request with
  | setClockManager new => exact absurd rfl (hSpares new)
  | takeDue seq | takeOwned sessionID =>
    show (machine.take _).2.clockManager = _
    unfold Machine.take
    split
    · split <;> rfl
    · rfl
  | _ => rfl

theorem follows_handle {request : Request} (hSpares : Spares request) (env : CallEnv × List Move)
    (timed : Timed json) : Follows timed (Timed.handle opts r env request timed).2 := by
  refine (follows_moves env.2 timed).trans ?_
  have hClock := clockManager_handle_of_spares opts hSpares env.1
    (env.2.foldl Timed.move timed).machine
  cases request with
  | setClockManager new => exact absurd rfl (hSpares new)
  | _ => exact follows_of_eq hClock rfl (Nat.le_refl _) rfl rfl id

variable {α : Type} {timed : Timed json} {type : EventType}

/-- A program that leaves the clock alone. -/
theorem ends_of_only {program : Prog α} {locks : Mutex → Prop} {returns : α → Prop}
    (hOnly : program.Only Spares locks returns) (timed : Timed json) :
    Ends opts r program (fun _ after => Follows timed after) timed :=
  (Program.Ensures.of_only hOnly (fun env _ _ hSpares hFollows =>
    hFollows.trans (follows_handle hSpares env _)) (Follows.refl timed)).mono
      fun _ _ hAfter => hAfter.2

theorem spares_of_reads (request : Request) (hReads : request.Reads) : Spares request := by
  rintro new rfl
  exact hReads

theorem ends_snapshot {state : State} {context : GoString}
    {next : Device → Prog (State × Option Err)} {post : State × Option Err → Timed json → Prop}
    (hError : ∀ err after, Follows timed after → post (state, some err) after)
    (hNext : ∀ device after, Follows timed after → Ends opts r (next device) post after) :
    Ends opts r (orState (r.snapshot .running) state context next) post timed := by
  have hOnly : (r.snapshot .running).Only Spares (fun _ => True) fun _ => True :=
    only_snapshot spares_of_reads
  refine Program.Ensures.bind (ends_of_only hOnly timed) ?_
  rintro (err | device) after hFollows
  · exact hError _ after hFollows
  · exact hNext device after hFollows

/-- A call that sets the clock does so after what has happened by itself. -/
theorem ends_setClockManager {new : ClockManager} {next : Prog α} {post : α → Timed json → Prop}
    (hNext : ∀ before, Follows timed before → Ends opts r next post (before.setClock r new)) :
    Ends opts r (.call (.setClockManager new) fun () => next) post timed :=
  fun env => hNext _ (follows_moves env.2 timed)

theorem ends_clockManager {next : ClockManager → Prog α} {post : α → Timed json → Prop}
    (hNext : ∀ after, Follows timed after → Ends opts r (next timed.clock) post after) :
    Ends opts r (.call .clockManager next) post timed := by
  intro env
  have hFollows := follows_moves env.2 timed
  show Ends opts r (next (env.2.foldl Timed.move timed).clock) post _
  rw [hFollows.clock]
  exact hNext _ hFollows

/-! ## Calls of the clock -/

/-- A call keeps everything sound, and a clock that is known expires through the event of an
expiry only. -/
structure Kept (type : EventType) (before after : Timed json) : Prop where
  sound : after.Sound
  known : before.clock.known = true → after.clock.known = true
  expired : before.clock.known = true → after.clock.state = stateHoldoverOutOfSpec →
    before.clock.state = stateHoldoverOutOfSpec ∨
      type = .holdoverExpired ∧ before.clock.state = stateHoldoverInSpec

theorem Kept.of_follows {first second third : Timed json} (hFollows : Follows first second)
    (hKept : Kept type second third) : Kept type first third :=
  ⟨hKept.sound, hFollows.clock ▸ hKept.known, hFollows.clock ▸ hKept.expired⟩

/-- Another event after the first one. -/
theorem Kept.trans {other : EventType} {first second third : Timed json}
    (hFirst : Kept type first second) (hOther : other ≠ .holdoverExpired)
    (hSecond : Kept other second third) : Kept type first third := by
  refine ⟨hSecond.sound, hSecond.known ∘ hFirst.known, fun hKnown hOut => ?_⟩
  rcases hSecond.expired (hFirst.known hKnown) hOut with hState | ⟨hType, _⟩
  · exact hFirst.expired hKnown hState
  · exact absurd hType hOther

theorem Sound.kept (hSound : timed.Sound) (type : EventType) :
    Kept type timed timed :=
  ⟨hSound, id, fun _ => Or.inl⟩

/-- A clock that is not known cannot expire. -/
theorem Sound.kept_of_unknown {before after : Timed json} (hSound : after.Sound)
    (hKnown : before.clock.known = false) (type : EventType) : Kept type before after :=
  ⟨hSound, fun hYes => (by cases hKnown.symm.trans hYes),
    fun hYes => (by cases hKnown.symm.trans hYes)⟩

section Transition

variable (hSound : timed.Sound) {next : State} (hKnown : timed.clock.known = true)
  (hBegins : next = stateHoldoverInSpec → timed.Idle)
  (hExpires : next = stateHoldoverOutOfSpec → timed.timer = none)

include hSound hKnown hBegins hExpires

/-- The write of a transition. -/
theorem ends_writeState :
    Ends opts r (writeState r timed.clock next) (fun _ after => after.Sound ∧
      (after.clock = timed.clock ∨ after.clock = ⟨true, next⟩)) timed := by
  have hOnly : (r.setState statePath (.leaf (.string next))).Only Spares (fun _ => True)
      fun _ => True :=
    only_setState spares_of_reads fun _ _ _ hSame => by cases hSame
  refine Program.Ensures.bind (ends_of_only hOnly timed) ?_
  rintro (err | done) after hFollows
  · exact ⟨hFollows.sound hSound, Or.inl hFollows.clock⟩
  refine ends_setClockManager fun before hBefore => ?_
  have hAll := hFollows.trans hBefore
  refine ⟨(hAll.sound hSound).setClock r (fun hNot => ?_) (fun hState _ => ?_) fun hState => ?_,
    Or.inr (by rw [clock_setClock, hKnown])⟩
  · cases hKnown.symm.trans hNot
  · exact hAll.idle (hBegins hState)
  · exact hAll.timer (hExpires hState)

/-- A transition of a clock that is known. -/
theorem ends_transition :
    Ends opts r (transition r timed.clock next) (fun _ after => after.Sound ∧
      (after.clock = timed.clock ∨ after.clock = ⟨true, next⟩)) timed := by
  unfold transition
  split
  · refine ends_snapshot (fun err after hFollows => ?_) fun device after hFollows => ?_
    · exact ⟨hFollows.sound hSound, Or.inl hFollows.clock⟩
    · rw [← hFollows.clock]
      exact ends_writeState (hFollows.sound hSound) (by rw [hFollows.clock, hKnown])
        (hFollows.idle ∘ hBegins) (hFollows.timer ∘ hExpires)
  · exact ends_writeState hSound hKnown hBegins hExpires

end Transition

/-- What a call needs to find: a call that may begin a holdover, which a clock that is not known
may, finds no expiry on its way. -/
def Ready (timed : Timed json) (type : EventType) : Prop :=
  timed.clock.known = false ∨ nextState timed.clock.state type = some stateHoldoverInSpec →
    ¬ timed.OnTheWay

theorem Sound.idle (hSound : timed.Sound) (hState : timed.clock.state ≠ stateHoldoverInSpec)
    (hQuiet : ¬ timed.OnTheWay) : timed.Idle :=
  ⟨hSound.outside hState, hSound.forgotten, hQuiet⟩

theorem Sound.unknown_ne (hSound : timed.Sound) (hKnown : timed.clock.known = false) :
    timed.clock.state ≠ stateHoldoverInSpec := by
  rw [hSound.unknown hKnown]
  decide

/-- Only a locked clock begins a holdover. -/
theorem eq_stateLocked_of_nextState {source : State}
    (hNext : nextState source type = some stateHoldoverInSpec) : source = stateLocked := by
  cases type with
  | sourceLost =>
    simp only [nextState] at hNext
    split at hNext
    · assumption
    · split at hNext
      · exact absurd hNext (by decide)
      · cases hNext
  | unknown name => cases hNext
  | _ =>
    simp only [nextState] at hNext
    split at hNext <;> exact absurd hNext (by decide)

/-- What is ready stays ready until the clock changes. -/
theorem Ready.of_follows {before after : Timed json} (hReady : before.Ready type)
    (hSound : before.Sound) (hFollows : Follows before after) :
    after.Ready type := by
  intro hBegins
  rw [hFollows.clock] at hBegins
  have hState : before.clock.state ≠ stateHoldoverInSpec := by
    rcases hBegins with hKnown | hNext
    · exact hSound.unknown_ne hKnown
    · rw [eq_stateLocked_of_nextState hNext]
      decide
  exact (hFollows.idle (hSound.idle hState (hReady hBegins))).quiet

/-- Only an expiry ends a holdover. -/
theorem eq_holdoverExpired_of_nextState {source : State}
    (hNext : nextState source type = some stateHoldoverOutOfSpec) :
    type = .holdoverExpired ∧ source = stateHoldoverInSpec := by
  cases type with
  | holdoverExpired =>
    simp only [nextState] at hNext
    split at hNext
    · exact ⟨rfl, by assumption⟩
    · cases hNext
  | sourceLost =>
    simp only [nextState] at hNext
    split at hNext
    · exact absurd hNext (by decide)
    · split at hNext
      · exact absurd hNext (by decide)
      · cases hNext
  | unknown name => cases hNext
  | _ =>
    simp only [nextState] at hNext
    split at hNext <;> exact absurd hNext (by decide)

/-- The machine on a clock that is known. -/
theorem ends_next (hSound : timed.Sound) (type : EventType) (hKnown : timed.clock.known = true)
    (hBegins : nextState timed.clock.state type = some stateHoldoverInSpec → timed.Idle)
    (hExpires : type = .holdoverExpired → timed.clock.state = stateHoldoverInSpec →
      timed.timer = none) :
    Ends opts r (takeEvent r type timed.clock) (fun _ after => Kept type timed after) timed := by
  unfold takeEvent
  cases hNext : nextState timed.clock.state type with
  | none => exact hSound.kept type
  | some next =>
    dsimp only
    split
    · exact hSound.kept type
    refine (ends_transition hSound hKnown ?_ ?_).mono ?_
    · rintro rfl
      exact hBegins hNext
    · rintro rfl
      obtain ⟨hType, hState⟩ := eq_holdoverExpired_of_nextState hNext
      exact hExpires hType hState
    · rintro _ after ⟨hAfter, hSame | hState⟩
      · exact ⟨hAfter, fun _ => hSame ▸ hKnown, fun _ hOut => Or.inl (hSame ▸ hOut)⟩
      · refine ⟨hAfter, fun _ => (by rw [hState]), fun _ hOut => Or.inr ?_⟩
        rw [hState] at hOut
        subst hOut
        exact eq_holdoverExpired_of_nextState hNext

theorem follows_setClock_self (r : Router) (timed : Timed json) :
    Follows timed (timed.setClock r timed.clock) := by
  unfold Timed.setClock
  rw [if_pos ⟨rfl, rfl⟩]
  exact follows_of_eq rfl rfl (Nat.le_refl _) rfl rfl id

/-- Adopting the state of a device begins its holdover, if it is in one. -/
theorem ends_adopt (hSound : timed.Sound) (hIdle : timed.clock.known = false → timed.Idle)
    (device : Device) :
    Ends opts r (adopt device) (fun manager after => manager = after.clock ∧
      manager.known = true ∧ after.Sound ∧ (timed.clock.known = true → Follows timed after) ∧
      (timed.clock.known = false → after.clock.state ≠ stateHoldoverInSpec → after.Idle))
      timed := by
  refine ends_clockManager fun after hFollows => ends_setClockManager fun before hBefore => ?_
  have hAll := hFollows.trans hBefore
  have hNew : (adopted timed.clock device).known = true := by
    unfold adopted
    split
    · assumption
    · split <;> rfl
  cases hKnown : timed.clock.known with
  | true =>
    have hSame : adopted timed.clock device = before.clock := by
      rw [adopted, if_pos hKnown, hAll.clock]
    rw [hSame]
    have hSelf := hAll.trans (follows_setClock_self r before)
    exact ⟨(clock_setClock ..).symm, hSame ▸ hNew, hSelf.sound hSound, fun _ => hSelf,
      fun hNot => by cases hNot⟩
  | false =>
    have hStart := hAll.idle (hIdle hKnown)
    refine ⟨(clock_setClock ..).symm, hNew, ?_, fun hNot => (by cases hNot), fun _ hState => ?_⟩
    · exact (hAll.sound hSound).setClock r (fun hNot => by cases hNew.symm.trans hNot)
        (fun _ _ => hStart) fun _ => hStart.timer
    · rw [clock_setClock] at hState
      exact hStart.setClock r hState

/-- `handleLocked`, for a call that is ready; an expiry has to find the timer of its holdover
fired. -/
theorem ends_handleLocked (hSound : timed.Sound) (hReady : timed.Ready type)
    (hExpires : type = .holdoverExpired → timed.clock.known = true ∧
      (timed.clock.state = stateHoldoverInSpec → timed.timer = none)) :
    Ends opts r (handleLocked r type) (fun _ after => Kept type timed after) timed := by
  have hEnsure : Ends opts r (ensureState r (takeEvent r type))
      (fun _ after => Kept type timed after) timed := by
    refine ends_clockManager fun after hFollows => ?_
    have hAfter := hFollows.sound hSound
    split
    · next hKnown =>
      rw [← hFollows.clock] at hKnown ⊢
      refine (ends_next hAfter type hKnown (fun hNext => ?_) fun hType hState => ?_).mono
        fun _ _ => Kept.of_follows hFollows
      · rw [hFollows.clock] at hNext
        refine hFollows.idle (hSound.idle ?_ (hReady (Or.inr hNext)))
        rw [eq_stateLocked_of_nextState hNext]
        decide
      · rw [hFollows.clock] at hState
        exact hFollows.timer ((hExpires hType).2 hState)
    · next hKnown =>
      have hKnown : timed.clock.known = false := by simpa using hKnown
      have hIdle := hSound.idle (hSound.unknown_ne hKnown) (hReady (Or.inl hKnown))
      refine ends_snapshot (fun err last hLast => ?_) fun device last hLast => ?_
      · exact (hLast.sound hAfter).kept_of_unknown hKnown type
      have hKnownLast : last.clock.known = false := by
        rw [hLast.clock, hFollows.clock, hKnown]
      refine Program.Ensures.bind (ends_adopt (hLast.sound hAfter)
        (fun _ => hLast.idle (hFollows.idle hIdle)) device) ?_
      rintro manager adopted ⟨rfl, hNew, hAdopted, _, hQuiet⟩
      refine (ends_next hAdopted type hNew (fun hNext => hQuiet hKnownLast ?_)
        fun hType _ => ?_).mono fun _ _ hDone => hDone.sound.kept_of_unknown hKnown type
      · rw [eq_stateLocked_of_nextState hNext]
        decide
      · cases hKnown.symm.trans (hExpires hType).1
  cases type with
  | unknown name =>
    exact ends_clockManager fun after hFollows =>
      ((hFollows.sound hSound).kept _).of_follows hFollows
  | _ => exact hEnsure

/-- A call that is not an expiry. -/
theorem ends_ready (hSound : timed.Sound) (hType : type ≠ .holdoverExpired)
    (hReady : timed.Ready type) :
    Ends opts r (handleLocked r type) (fun _ after => Kept type timed after) timed :=
  ends_handleLocked hSound hReady fun hExpired => absurd hExpired hType

/-- A clock whose state has been adopted is ready for what does not begin a holdover, and if it
is not in one, for what does. -/
theorem ends_adopt_bind (hSound : timed.Sound) (hReady : timed.Ready type) {device : Device}
    {next : ClockManager → Prog α}
    (hNext : ∀ after : Timed json, after.Sound → after.Ready type → after.clock.known = true →
      Ends opts r (next after.clock) (fun _ last => Kept type after last) after) :
    Ends opts r ((adopt device).bind next) (fun _ last => Kept type timed last) timed := by
  have hIdle : timed.clock.known = false → timed.Idle := fun hKnown =>
    hSound.idle (hSound.unknown_ne hKnown) (hReady (Or.inl hKnown))
  refine Program.Ensures.bind (ends_adopt hSound hIdle device) ?_
  rintro manager after ⟨rfl, hNew, hAfter, hSame, hQuiet⟩
  cases hKnown : timed.clock.known with
  | true =>
    have hFollows := hSame hKnown
    exact (hNext after hAfter (hReady.of_follows hSound hFollows) hNew).mono
      fun _ _ => Kept.of_follows hFollows
  | false =>
    refine (hNext after hAfter ?_ hNew).mono
      fun _ _ hLast => hLast.sound.kept_of_unknown hKnown type
    rintro (hNot | hBegins)
    · cases hNew.symm.trans hNot
    · refine (hQuiet hKnown ?_).quiet
      rw [eq_stateLocked_of_nextState hBegins]
      decide

theorem ends_syncLoss (hSound : timed.Sound) (hReady : timed.Ready .sourceLost)
    (source : GoString) :
    Ends opts r (syncLoss r source) (fun _ after => Kept .sourceLost timed after) timed := by
  refine Program.Ensures.locked ?_
  split
  · exact ends_ready hSound (by decide) hReady
  refine ends_clockManager fun after hFollows => ends_snapshot ?_ ?_
  · exact fun err last hLast =>
      (((hLast.sound (hFollows.sound hSound)).kept _).of_follows hLast).of_follows hFollows
  · intro device last hLast
    have hAll := hFollows.trans hLast
    split
    · refine (ends_adopt_bind (hAll.sound hSound) (hReady.of_follows hSound hAll)
        fun adopted hSound hReady _ => ?_).mono fun _ _ => Kept.of_follows hAll
      exact ends_ready hSound (by decide) hReady
    · exact ((hAll.sound hSound).kept _).of_follows hAll

theorem ends_reconcilePTP (hSound : timed.Sound) (hReady : timed.Ready .sourceDetected) :
    Ends opts r (reconcilePTP r) (fun _ after => Kept .sourceDetected timed after) timed := by
  refine Program.Ensures.locked (ends_clockManager fun after hFollows => ends_snapshot ?_ ?_)
  · exact fun err last hLast =>
      (((hLast.sound (hFollows.sound hSound)).kept _).of_follows hLast).of_follows hFollows
  intro device last hLast
  have hAll := hFollows.trans hLast
  refine (ends_adopt_bind (hAll.sound hSound) (hReady.of_follows hSound hAll)
    fun adopted hAdopted hDetects hKnown => ?_).mono fun _ _ => Kept.of_follows hAll
  split
  · refine Program.Ensures.bind (ends_ready hAdopted (by decide) hDetects) ?_
    rintro ⟨state, _ | err⟩ detected hDetected
    · refine (ends_ready hDetected.sound (by decide) ?_).mono
        fun _ _ => hDetected.trans (by decide)
      rintro (hNot | hNext)
      · cases (hDetected.known hKnown).symm.trans hNot
      · have hLocked := eq_stateLocked_of_nextState hNext
        rw [hLocked] at hNext
        cases hNext
    · exact hDetected
  · exact hAdopted.kept _

/-- `expireHoldover`, when the timer of the holdover has fired. -/
theorem ends_expireHoldover (hSound : timed.Sound)
    (hFired : timed.clock.state = stateHoldoverInSpec → timed.timer = none) :
    Ends opts r (expireHoldover r) (fun _ after => Kept .holdoverExpired timed after) timed := by
  refine Program.Ensures.locked (ends_clockManager fun after hFollows => ?_)
  split
  · next hState =>
    have hKnown : timed.clock.known = true := by
      cases hKnown : timed.clock.known with
      | true => rfl
      | false => exact absurd hState (hSound.unknown_ne hKnown)
    refine (ends_handleLocked (hFollows.sound hSound) ?_ fun _ => ?_).mono
      fun _ _ => Kept.of_follows hFollows
    · rw [Ready, hFollows.clock]
      rintro (hNot | hNext)
      · cases hKnown.symm.trans hNot
      · rw [eq_stateLocked_of_nextState hNext] at hState
        exact absurd hState (by decide)
    · rw [hFollows.clock]
      exact ⟨hKnown, fun _ => hFollows.timer (hFired hState)⟩
  · exact ((hFollows.sound hSound).kept _).of_follows hFollows

end Calls

end Timed

/-! ## Runs -/

section Runs

variable {json : Json} {opts : Options} {r : Router}

/-- The condition on a call: nobody feeds the expiry of a holdover to the machine, and a call that
may begin a holdover finds no expiry on its way. -/
def ClockCall.Safe (timed : Timed json) : ClockCall → Prop
  | handle type => type ≠ .holdoverExpired ∧ timed.Ready type
  | syncLoss _ => timed.Ready .sourceLost
  | radioAlarm raised => timed.Ready (if raised then .sourceLost else .sourceRestored)
  | tick => timed.Ready .sourceDetected
  | expiry => True

/-- The event that a call feeds to the machine. -/
def ClockCall.type : ClockCall → EventType
  | handle type => type
  | syncLoss _ => .sourceLost
  | radioAlarm raised => if raised then .sourceLost else .sourceRestored
  | tick => .sourceDetected
  | expiry => .holdoverExpired

variable {timed : Timed json}

/-- A safe call keeps everything sound, and only an expiry ends a holdover. -/
theorem ClockCall.kept (hSound : timed.Sound) (call : ClockCall) (hSafe : call.Safe timed)
    (env : Nat → CallEnv × List Move) :
    Timed.Kept call.type timed (call.run opts r env timed) := by
  cases call with
  | handle type =>
    exact Program.Ensures.exec (Program.Ensures.locked
      (Timed.ends_ready hSound hSafe.1 hSafe.2)) env
  | syncLoss source => exact Program.Ensures.exec (Timed.ends_syncLoss hSound hSafe source) env
  | radioAlarm raised =>
    refine Program.Ensures.exec (Program.Ensures.locked (Timed.ends_ready hSound ?_ hSafe)) env
    cases raised <;> decide
  | tick => exact Program.Ensures.exec (Timed.ends_reconcilePTP hSound hSafe) env
  | expiry =>
    cases hTaken : timed.taken with
    | false =>
      simp only [ClockCall.run, hTaken]
      exact hSound.kept _
    | true =>
      simp only [ClockCall.run, hTaken]
      have hFollows : Timed.Follows timed { timed with taken := false } :=
        Timed.follows_of_eq rfl rfl (Nat.le_refl _) rfl rfl
          (Or.imp id (Or.imp id fun hNot => by cases hNot))
      refine Timed.Kept.of_follows hFollows (Program.Ensures.exec
        (Timed.ends_expireHoldover (hFollows.sound hSound) fun hState => ?_) env)
      obtain ⟨_, _, _, hExpiry⟩ := hSound.inside hState
      exact (hExpiry (Or.inr (Or.inr hTaken))).2

/-- One step of a run: something happens by itself, `Run` ends and stops the timer, or the clock
is called. -/
inductive Action where
  | move (happens : Move)
  | stop
  | call (made : ClockCall)

def Action.step (opts : Options) (r : Router) (env : Nat → CallEnv × List Move)
    (timed : Timed json) : Action → Timed json
  | move happens => timed.move happens
  | stop => { timed with timer := none }
  | call made => made.run opts r env timed

def Action.Safe (timed : Timed json) : Action → Prop
  | call made => made.Safe timed
  | _ => True

theorem Action.sound (hSound : timed.Sound) {action : Action} (hSafe : action.Safe timed)
    (env : Nat → CallEnv × List Move) :
    (action.step opts r env timed).Sound := by
  cases action with
  | move move => exact (Timed.follows_move timed move).sound hSound
  | stop =>
    refine ⟨hSound.unknown, hSound.forgotten, fun _ => rfl, fun hState => ?_⟩
    obtain ⟨period, hPeriod, _, hExpiry⟩ := hSound.inside hState
    exact ⟨period, hPeriod, fun _ hNone => (by cases hNone),
      fun hOn => ⟨(hExpiry hOn).1, rfl⟩⟩
  | call call => exact (ClockCall.kept hSound call hSafe env).sound

/-- A manager that `New` has just built. -/
def Timed.fresh (machine : Machine json) (now : Time) : Timed json :=
  { machine := { machine with clockManager := ⟨false, []⟩ }, read := ∅, now, timer := none,
    forgotten := [], callbacks := 0, expired := false, taken := false, period := none }

theorem Timed.sound_fresh (machine : Machine json) (now : Time) :
    (Timed.fresh machine now).Sound :=
  ⟨fun _ => rfl, rfl, fun _ => rfl, fun hState => by cases hState⟩

/-- The states that a manager reaches by safe steps. -/
inductive SafeRun (opts : Options) (r : Router) (start : Timed json) : Timed json → Prop
  | start : SafeRun opts r start start
  | step {timed : Timed json} (action : Action) (env : Nat → CallEnv × List Move)
      (hRun : SafeRun opts r start timed) (hSafe : action.Safe timed) :
      SafeRun opts r start (action.step opts r env timed)

theorem SafeRun.sound {start : Timed json} (hStart : start.Sound)
    (hRun : SafeRun opts r start timed) : timed.Sound := by
  induction hRun with
  | start => exact hStart
  | step action env _ hSafe ih => exact Action.sound ih hSafe env

/-- In every run whose steps are safe, a clock leaves its holdover for the worse only when it has
been in it, without interruption, for the timeout that was configured when it began. -/
theorem holdover_lasts_in_safe_runs (opts : Options) (r : Router) (machine : Machine json)
    (now : Time) (timed : Timed json) (hRun : SafeRun opts r (Timed.fresh machine now) timed)
    (action : Action) (env : Nat → CallEnv × List Move) (hSafe : action.Safe timed)
    (hKnown : timed.clock.known = true) (hBefore : timed.clock.state ≠ stateHoldoverOutOfSpec)
    (hAfter : (action.step opts r env timed).clock.state = stateHoldoverOutOfSpec) :
    timed.clock.state = stateHoldoverInSpec ∧
      ∃ period, timed.period = some period ∧ period.due ≤ timed.now := by
  have hSound := hRun.sound (Timed.sound_fresh machine now)
  cases action with
  | move move =>
    rw [show (Action.step opts r env timed (.move move)).clock = timed.clock from
      (Timed.follows_move timed move).clock] at hAfter
    exact absurd hAfter hBefore
  | stop => exact absurd hAfter hBefore
  | call call =>
    rcases (ClockCall.kept hSound call hSafe env).expired hKnown hAfter with hOut | ⟨hType, hState⟩
    · exact absurd hOut hBefore
    refine ⟨hState, ?_⟩
    cases call with
    | handle type => exact absurd hType hSafe.1
    | syncLoss source => cases hType
    | radioAlarm raised => cases raised <;> cases hType
    | tick => cases hType
    | expiry =>
      obtain ⟨period, hPeriod, _, hExpiry⟩ := hSound.inside hState
      refine ⟨period, hPeriod, (hExpiry (Or.inr (Or.inr ?_))).1⟩
      -- Without a token nothing is run.
      cases hTaken : timed.taken with
      | true => rfl
      | false =>
        have hSame : Action.step opts r env timed (.call .expiry) = timed := by
          simp only [Action.step, ClockCall.run, hTaken]
        rw [hSame] at hAfter
        exact absurd hAfter hBefore

end Runs

/-! ## Two runs -/

/-- Nobody interferes with a call. -/
def undisturbed : Nat → CallEnv × List Move :=
  fun _ => (CallEnv.quiet, [])

def Action.steps (timed : Timed Json.plain) (actions : List Action) : Timed Json.plain :=
  actions.foldl (fun timed action =>
    action.step (defaultRouter.options []) defaultRouter undisturbed timed) timed

/-- A clock that has lost its source for the 300 seconds that are configured. -/
def expiredHoldover : List Action :=
  [.call (.syncLoss ""), .move (.elapse 300000000000), .move .fire, .move .deliver]

theorem SafeRun.expiredHoldover (start : Timed Json.plain) (hQuiet : ¬ start.OnTheWay) :
    SafeRun (defaultRouter.options []) defaultRouter start
      (Action.steps start (Sync.expiredHoldover ++ [.move .take])) :=
  have hLoss := SafeRun.step (.call (.syncLoss "")) undisturbed .start fun _ => hQuiet
  have hElapse := SafeRun.step (.move (.elapse 300000000000)) undisturbed hLoss trivial
  have hFire := SafeRun.step (.move .fire) undisturbed hElapse trivial
  have hDeliver := SafeRun.step (.move .deliver) undisturbed hFire trivial
  SafeRun.step (.move .take) undisturbed hDeliver trivial

/-- `Run` handles the expiry of a holdover that is still going on. -/
theorem holdover_expires_in_time :
    let timed := Action.steps (Timed.fresh (Datatree.machineWith Datatree.bareContent) 0)
      (expiredHoldover ++ [.move .take])
    timed.clock.state = stateHoldoverInSpec ∧
      ∃ period, timed.period = some period ∧ period.due ≤ timed.now := by
  have hRun := SafeRun.expiredHoldover (Timed.fresh (Datatree.machineWith Datatree.bareContent) 0)
    (by rintro (hOn | hOn | hOn) <;> cases hOn)
  refine holdover_lasts_in_safe_runs (defaultRouter.options []) defaultRouter _ 0 _ hRun
    (.call .expiry) undisturbed trivial ?_ ?_ ?_
  · decide +kernel
  · decide +kernel
  · decide +kernel

/-- The source comes back and goes again before `Run` gets to the expiry: the new holdover is over
at once. -/
theorem late_expiry_ends_new_holdover :
    let timed := Action.steps (Timed.fresh (Datatree.machineWith Datatree.bareContent) 0)
      (expiredHoldover ++ [.call (.handle .sourceRestored), .call (.handle .sourceLost),
        .move .take])
    timed.clock.known = true ∧ timed.clock.state = stateHoldoverInSpec ∧
      timed.period = some ⟨300000000000, 300⟩ ∧ timed.now = 300000000000 ∧
      (Action.steps timed [.call .expiry]).clock.state = stateHoldoverOutOfSpec := by
  decide +kernel

end Sync
end TriadSim

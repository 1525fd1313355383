import Mathlib.Tactic
import TriadSim.Library.Program

/-!
# Threads over a shared state

Any number of threads, each a program with the surroundings of its own calls, take
turns: a call is one move, and so is taking or giving back a lock.  A world keeps the
history of all calls next to the shared state.

`Contract` is the rely-guarantee reading of such a system.  A thread that keeps its
contract for as long as the others change the world only as it relies on does so in
every run, and so does every thread at once (`Contract.Kept.of_reaches`).
-/

namespace TriadSim
namespace Library

section

variable (ι Lock Req : Type) (Resp : Req → Type) (Env State α : Type)

/-- A call that a thread has made, with the state before and after it. -/
structure Event where
  thread : ι
  request : Req
  response : Resp request
  before : State
  after : State

/-- What the threads share: who holds which lock, the state, and the calls made so far. -/
structure World where
  holder : Lock → Option ι
  state : State
  history : List (Event ι Req Resp State)

/-- The threads of a system, with what each still has to do, and their world. -/
structure System where
  world : World ι Lock Req Resp State
  threads : ι → Program Lock Req Resp α × (Nat → Env)

end

/-- A system of two threads has a first one, and so has one of three. -/
instance neZeroTwo : NeZero 2 := ⟨by decide⟩

instance neZeroThree : NeZero 3 := ⟨by decide⟩

variable {ι Lock Req : Type} {Resp : Req → Type} {Env State α β : Type}

namespace World

/-- The world after a call. -/
def record (world : World ι Lock Req Resp State) (event : Event ι Req Resp State) :
    World ι Lock Req Resp State :=
  { world with state := event.after, history := world.history ++ [event] }

@[simp] theorem holder_record (world : World ι Lock Req Resp State)
    (event : Event ι Req Resp State) : (world.record event).holder = world.holder := rfl

@[simp] theorem state_record (world : World ι Lock Req Resp State)
    (event : Event ι Req Resp State) : (world.record event).state = event.after := rfl

@[simp] theorem history_record (world : World ι Lock Req Resp State)
    (event : Event ι Req Resp State) :
    (world.record event).history = world.history ++ [event] := rfl

variable {world : World ι Lock Req Resp State} {lock other : Lock}

theorem record_injective {first second : Event ι Req Resp State}
    (hSame : world.record first = world.record second) :
    first = second := by
  have hHistory := congrArg World.history hSame
  simpa using hHistory

variable [DecidableEq Lock]

/-- The world after a lock has changed hands. -/
def hand (world : World ι Lock Req Resp State) (lock : Lock) (holder : Option ι) :
    World ι Lock Req Resp State :=
  { world with holder := Function.update world.holder lock holder }

@[simp] theorem history_hand (world : World ι Lock Req Resp State) (lock : Lock)
    (holder : Option ι) : (world.hand lock holder).history = world.history := rfl

@[simp] theorem holder_hand_self (world : World ι Lock Req Resp State) (lock : Lock)
    (holder : Option ι) : (world.hand lock holder).holder lock = holder := by
  simp [hand]

theorem holder_hand_of_ne (world : World ι Lock Req Resp State) (holder : Option ι)
    (hOther : other ≠ lock) :
    (world.hand lock holder).holder other = world.holder other := by
  simp [hand, hOther]

/-- A lock stays with its holder while another thread's lock changes hands. -/
theorem holder_hand_of_held {thread : ι} {holder : Option ι}
    (hHolds : world.holder other = some thread) (hLock : world.holder lock ≠ some thread) :
    (world.hand lock holder).holder other = some thread := by
  have hOther : other ≠ lock := by
    rintro rfl
    exact hLock hHolds
  rw [holder_hand_of_ne world holder hOther]
  exact hHolds

end World

/-- The call a thread makes in a world. -/
def callEvent (handle : Program.Handler Req Resp Env State) (thread : ι) (env : Env)
    (request : Req) (state : State) : Event ι Req Resp State :=
  ⟨thread, request, (handle env request state).1, state, (handle env request state).2⟩

variable [DecidableEq ι] [DecidableEq Lock]

namespace System

variable (handle : Program.Handler Req Resp Env State)

/-- The threads before anyone has moved. -/
def start (programs : ι → Program Lock Req Resp α) (envs : ι → Nat → Env) (state : State) :
    System ι Lock Req Resp Env State α :=
  ⟨⟨fun _ => none, state, []⟩, fun thread => (programs thread, envs thread)⟩

/-- The next move of a thread.  A thread that has returned has none, and one that waits
for a lock has none while the lock is held. -/
def step (thread : ι) (system : System ι Lock Req Resp Env State α) :
    Option (System ι Lock Req Resp Env State α) :=
  match system.threads thread with
  | (.ret _, _) => none
  | (.call request next, env) =>
    let event := callEvent handle thread (env 0) request system.world.state
    some ⟨system.world.record event,
      Function.update system.threads thread (next event.response, Program.later env)⟩
  | (.acquire lock next, env) =>
    if system.world.holder lock = none then
      some ⟨system.world.hand lock (some thread),
        Function.update system.threads thread (next, env)⟩
    else none
  | (.release lock next, env) =>
    if system.world.holder lock = some thread then
      some ⟨system.world.hand lock none, Function.update system.threads thread (next, env)⟩
    else none

/-- The moves of a schedule, one after another. -/
def run : List ι → System ι Lock Req Resp Env State α →
    Option (System ι Lock Req Resp Env State α)
  | [], system => some system
  | thread :: rest, system => (system.step handle thread).bind (run rest)

variable {system after : System ι Lock Req Resp Env State α} {schedule : List ι}

/-- What a move is: a call, or a lock taken while it is free, or one given back. -/
theorem step_cases {thread : ι} (hStep : system.step handle thread = some after) :
    (∃ request next env, system.threads thread = (.call request next, env) ∧
        after = ⟨system.world.record
            (callEvent handle thread (env 0) request system.world.state),
          Function.update system.threads thread
            (next (handle (env 0) request system.world.state).1, Program.later env)⟩) ∨
      (∃ lock next env, system.threads thread = (.acquire lock next, env) ∧
        system.world.holder lock = none ∧
        after = ⟨system.world.hand lock (some thread),
          Function.update system.threads thread (next, env)⟩) ∨
      ∃ lock next env, system.threads thread = (.release lock next, env) ∧
        system.world.holder lock = some thread ∧
        after = ⟨system.world.hand lock none,
          Function.update system.threads thread (next, env)⟩ := by
  unfold step at hStep
  split at hStep
  · cases hStep
  · next request next env hThread =>
    cases hStep
    exact Or.inl ⟨request, next, env, hThread, rfl⟩
  · next lock next env hThread =>
    split at hStep
    · next hFree =>
      cases hStep
      exact Or.inr (Or.inl ⟨lock, next, env, hThread, hFree, rfl⟩)
    · cases hStep
  · next lock next env hThread =>
    split at hStep
    · next hHeld =>
      cases hStep
      exact Or.inr (Or.inr ⟨lock, next, env, hThread, hHeld, rfl⟩)
    · cases hStep

/-- A property that every move keeps holds after a schedule. -/
theorem run_induction {P : System ι Lock Req Resp Env State α → Prop} (hStart : P system)
    (hStep : ∀ thread before next, P before → before.step handle thread = some next → P next)
    (hRun : system.run handle schedule = some after) : P after := by
  induction schedule generalizing system with
  | nil =>
    cases hRun
    exact hStart
  | cons thread rest ih =>
    obtain ⟨next, hNext, hRest⟩ := Option.bind_eq_some_iff.mp hRun
    exact ih (hStep thread system next hStart hNext) hRest

/-- The systems a run can come to when all its calls are `allowed` in the world they are
made in. -/
inductive Reaches (allowed : World ι Lock Req Resp State → Event ι Req Resp State → Prop)
    (first : System ι Lock Req Resp Env State α) : System ι Lock Req Resp Env State α → Prop
  | start : Reaches allowed first first
  | step {system next : System ι Lock Req Resp Env State α} (thread : ι)
      (hReaches : Reaches allowed first system) (hStep : system.step handle thread = some next)
      (hAllowed : ∀ event, next.world = system.world.record event → allowed system.world event) :
      Reaches allowed first next

variable {first : System ι Lock Req Resp Env State α}

/-- A schedule is a run without a restriction on its calls. -/
theorem reaches_of_run (hRun : first.run handle schedule = some after) :
    Reaches handle (fun _ _ => True) first after :=
  run_induction handle .start
    (fun thread _ _ hBefore hStep => .step thread hBefore hStep fun _ _ => trivial) hRun

/-- The moves of a schedule, as long as every call passes the check. -/
def checkedRun (check : World ι Lock Req Resp State → Event ι Req Resp State → Bool) :
    List ι → System ι Lock Req Resp Env State α → Option (System ι Lock Req Resp Env State α)
  | [], system => some system
  | thread :: rest, system => (system.step handle thread).bind fun next =>
    if (next.world.history.drop system.world.history.length).all (check system.world) then
      checkedRun check rest next
    else none

/-- A schedule that passes a check for what is allowed. -/
theorem reaches_of_checkedRun
    {allowed : World ι Lock Req Resp State → Event ι Req Resp State → Prop}
    {check : World ι Lock Req Resp State → Event ι Req Resp State → Bool}
    (hCheck : ∀ world event, check world event = true → allowed world event)
    (hFirst : Reaches handle allowed first system)
    (hRun : system.checkedRun handle check schedule = some after) :
    Reaches handle allowed first after := by
  induction schedule generalizing system with
  | nil =>
    cases hRun
    exact hFirst
  | cons thread rest ih =>
    obtain ⟨next, hNext, hRest⟩ := Option.bind_eq_some_iff.mp hRun
    split at hRest
    · next hPassed =>
      refine ih (.step thread hFirst hNext ?_) hRest
      intro event hEvent
      rw [hEvent, World.history_record, List.drop_left] at hPassed
      exact hCheck _ _ (List.all_eq_true.mp hPassed event (List.mem_singleton_self _))
    · cases hRest

end System

/-! ## Contracts -/

/-- A contract between threads: an invariant of the world, what each thread relies on
when the others move, which calls a run may make, what a call guarantees, in what shape
a thread gives a lock back, and what holds once a thread has returned. -/
structure Contract (ι Lock Req : Type) (Resp : Req → Type) (State α : Type) where
  inv : World ι Lock Req Resp State → Prop
  rely : ι → World ι Lock Req Resp State → World ι Lock Req Resp State → Prop
  allowed : World ι Lock Req Resp State → Event ι Req Resp State → Prop
  guarantee : World ι Lock Req Resp State → Event ι Req Resp State → Prop
  yields : ι → Lock → World ι Lock Req Resp State → Prop
  post : ι → α → World ι Lock Req Resp State → Prop

namespace Contract

variable (handle : Program.Handler Req Resp Env State) (c : Contract ι Lock Req Resp State α)

/-- The contract fits together: a guaranteed call and a change of hands of a lock keep
the invariant and are what every other thread relies on. -/
structure Fits : Prop where
  refl : ∀ thread world, c.rely thread world world
  trans : ∀ thread {first second third}, c.rely thread first second →
    c.rely thread second third → c.rely thread first third
  stable : ∀ thread value {world now}, c.post thread value world → c.rely thread world now →
    c.post thread value now
  call : ∀ thread env request world, c.inv world →
    c.allowed world (callEvent handle thread env request world.state) →
    c.guarantee world (callEvent handle thread env request world.state) →
    c.inv (world.record (callEvent handle thread env request world.state)) ∧
      ∀ other, other ≠ thread →
        c.rely other world (world.record (callEvent handle thread env request world.state))
  acquire : ∀ thread lock world, c.inv world → world.holder lock = none →
    c.inv (world.hand lock (some thread)) ∧
      ∀ other, other ≠ thread → c.rely other world (world.hand lock (some thread))
  release : ∀ thread lock world, c.inv world → world.holder lock = some thread →
    c.yields thread lock world → c.inv (world.hand lock none) ∧
      ∀ other, other ≠ thread → c.rely other world (world.hand lock none)

/-- A program of a thread keeps the contract from a world on, and satisfies `post` when
it returns.  Before each of its moves the others may change the world as the thread
relies on. -/
def Keeps (thread : ι) : Program Lock Req Resp β →
    (β → World ι Lock Req Resp State → Prop) → World ι Lock Req Resp State → Prop
  | .ret value, post, world => post value world
  | .call request next, post, world => ∀ now, c.inv now → c.rely thread world now → ∀ env,
      c.allowed now (callEvent handle thread env request now.state) →
      c.guarantee now (callEvent handle thread env request now.state) ∧
        Keeps thread (next (handle env request now.state).1) post
          (now.record (callEvent handle thread env request now.state))
  | .acquire lock next, post, world => ∀ now, c.inv now → c.rely thread world now →
      now.holder lock = none → Keeps thread next post (now.hand lock (some thread))
  | .release lock next, post, world => ∀ now, c.inv now → c.rely thread world now →
      now.holder lock = some thread →
      c.yields thread lock now ∧ Keeps thread next post (now.hand lock none)

variable {handle c} {γ : Type}

variable {program : Program Lock Req Resp β} {middle : β → World ι Lock Req Resp State → Prop}
    {post : γ → World ι Lock Req Resp State → Prop}

variable {k : β → Program Lock Req Resp γ} {world : World ι Lock Req Resp State}
    {system : System ι Lock Req Resp Env State α}

omit [DecidableEq ι] in
theorem Keeps.bind {thread : ι} (hFirst : c.Keeps handle thread program middle world)
    (hNext : ∀ value after, middle value after → c.Keeps handle thread (k value) post after) :
    c.Keeps handle thread (program.bind k) post world := by
  induction program generalizing world with
  | ret value => exact hNext value world hFirst
  | call request next ih =>
    intro now hInv hRely env hAllowed
    obtain ⟨hGuarantee, hRest⟩ := hFirst now hInv hRely env hAllowed
    exact ⟨hGuarantee, ih _ hRest⟩
  | acquire lock next ih =>
    intro now hInv hRely hFree
    exact ih (hFirst now hInv hRely hFree)
  | release lock next ih =>
    intro now hInv hRely hHeld
    obtain ⟨hYields, hRest⟩ := hFirst now hInv hRely hHeld
    exact ⟨hYields, ih hRest⟩

omit [DecidableEq ι] in
/-- A thread that still has to move does not mind a change it relies on. -/
theorem Keeps.of_rely (hFits : c.Fits handle) {thread : ι} {program : Program Lock Req Resp α}
    {now : World ι Lock Req Resp State}
    (hKeeps : c.Keeps handle thread program (c.post thread) world)
    (hRely : c.rely thread world now) : c.Keeps handle thread program (c.post thread) now := by
  cases program with
  | ret value => exact hFits.stable thread value hKeeps hRely
  | call request next | acquire lock next | release lock next =>
    intro later hInv hLater
    exact hKeeps later hInv (hFits.trans thread hRely hLater)

/-- The invariant holds and every thread keeps the contract with what it still has to
do. -/
structure Kept (handle : Program.Handler Req Resp Env State)
    (c : Contract ι Lock Req Resp State α) (system : System ι Lock Req Resp Env State α) :
    Prop where
  inv : c.inv system.world
  keeps : ∀ thread, c.Keeps handle thread (system.threads thread).1 (c.post thread) system.world

/-- One move: the thread that moves keeps its contract by definition, the others by what
they rely on. -/
theorem Kept.step (hFits : c.Fits handle) {thread : ι} {next : System ι Lock Req Resp Env State α}
    (hKept : Kept handle c system) (hStep : system.step handle thread = some next)
    (hAllowed : ∀ event, next.world = system.world.record event → c.allowed system.world event) :
    Kept handle c next ∧
      ∀ event, next.world = system.world.record event → c.guarantee system.world event := by
  have hMover := hKept.keeps thread
  have hOthers : ∀ {world : World ι Lock Req Resp State} {moved : Program Lock Req Resp α}
      {env : Nat → Env}, c.Keeps handle thread moved (c.post thread) world →
      (∀ other, other ≠ thread → c.rely other system.world world) → ∀ other,
      c.Keeps handle other (Function.update system.threads thread (moved, env) other).1
        (c.post other) world := by
    intro world moved env hMoved hRely other
    by_cases hSelf : other = thread
    · subst hSelf
      rw [Function.update_self]
      exact hMoved
    · rw [Function.update_of_ne hSelf]
      exact (hKept.keeps other).of_rely hFits (hRely other hSelf)
  rcases System.step_cases handle hStep with ⟨request, rest, env, hThread, rfl⟩ |
    ⟨lock, rest, env, hThread, hFree, rfl⟩ | ⟨lock, rest, env, hThread, hHeld, rfl⟩
  · rw [hThread] at hMover
    have hCall := hAllowed _ rfl
    obtain ⟨hGuarantee, hMoved⟩ :=
      hMover system.world hKept.inv (hFits.refl thread _) (env 0) hCall
    obtain ⟨hInv, hRely⟩ := hFits.call thread (env 0) request _ hKept.inv hCall hGuarantee
    refine ⟨⟨hInv, hOthers hMoved hRely⟩, ?_⟩
    intro event hEvent
    rw [← World.record_injective hEvent]
    exact hGuarantee
  · rw [hThread] at hMover
    have hMoved := hMover system.world hKept.inv (hFits.refl thread _) hFree
    obtain ⟨hInv, hRely⟩ := hFits.acquire thread lock _ hKept.inv hFree
    refine ⟨⟨hInv, hOthers hMoved hRely⟩, ?_⟩
    intro event hEvent
    have hHistory := congrArg World.history hEvent
    simp at hHistory
  · rw [hThread] at hMover
    obtain ⟨hYields, hMoved⟩ := hMover system.world hKept.inv (hFits.refl thread _) hHeld
    obtain ⟨hInv, hRely⟩ := hFits.release thread lock _ hKept.inv hHeld hYields
    refine ⟨⟨hInv, hOthers hMoved hRely⟩, ?_⟩
    intro event hEvent
    have hHistory := congrArg World.history hEvent
    simp at hHistory

/-- Every run of threads that keep a fitting contract keeps it. -/
theorem Kept.of_reaches (hFits : c.Fits handle) {first : System ι Lock Req Resp Env State α}
    (hFirst : Kept handle c first) (hReaches : System.Reaches handle c.allowed first system) :
    Kept handle c system := by
  induction hReaches with
  | start => exact hFirst
  | step thread hReaches hStep hAllowed ih => exact (ih.step hFits hStep hAllowed).1

/-! ### Assertions -/

/-- From every world where `pre` holds, the program keeps the contract and returns with
`post`. -/
def Triple (handle : Program.Handler Req Resp Env State) (c : Contract ι Lock Req Resp State α)
    (thread : ι) (pre : World ι Lock Req Resp State → Prop) (program : Program Lock Req Resp β)
    (post : β → World ι Lock Req Resp State → Prop) : Prop :=
  ∀ world, pre world → c.Keeps handle thread program post world

variable {thread : ι} {pre : World ι Lock Req Resp State → Prop}

omit [DecidableEq ι] in
theorem Triple.bind (hFirst : Triple handle c thread pre program middle)
    (hNext : ∀ value, Triple handle c thread (middle value) (k value) post) :
    Triple handle c thread pre (program.bind k) post :=
  fun world hPre => (hFirst world hPre).bind hNext

omit [DecidableEq ι] in
/-- The result of a program in another form. -/
theorem Triple.map (f : β → γ)
    (hProgram : Triple handle c thread pre program fun value => post (f value)) :
    Triple handle c thread pre (program.bind fun value => .ret (f value)) post :=
  hProgram.bind fun _ _ hPost => hPost

omit [DecidableEq ι] in
theorem Triple.mono {post weaker : β → World ι Lock Req Resp State → Prop}
    (hTriple : Triple handle c thread pre program post)
    (hPost : ∀ value world, post value world → weaker value world) :
    Triple handle c thread pre program weaker := by
  intro world hPre
  have hKeeps := hTriple world hPre
  clear hPre hTriple
  induction program generalizing world with
  | ret value => exact hPost value world hKeeps
  | call request next ih =>
    intro now hInv hRely env hAllowed
    obtain ⟨hGuarantee, hRest⟩ := hKeeps now hInv hRely env hAllowed
    exact ⟨hGuarantee, ih _ _ hRest⟩
  | acquire lock next ih =>
    intro now hInv hRely hFree
    exact ih _ (hKeeps now hInv hRely hFree)
  | release lock next ih =>
    intro now hInv hRely hHeld
    obtain ⟨hYields, hRest⟩ := hKeeps now hInv hRely hHeld
    exact ⟨hYields, ih _ hRest⟩

omit [DecidableEq ι] in
/-- A critical section: the body starts from whatever the world is when the lock is taken,
and what it establishes survives the others until the lock is given back. -/
theorem Triple.locked {lock : Lock} {body : Program Lock Req Resp β}
    {post : β → World ι Lock Req Resp State → Prop}
    (hBody : ∀ world now, pre world → c.inv now → c.rely thread world now →
      now.holder lock = none → c.Keeps handle thread body middle (now.hand lock (some thread)))
    (hStable : ∀ value world now, middle value world → c.rely thread world now → middle value now)
    (hYields : ∀ value world, middle value world → c.yields thread lock world)
    (hReturn : ∀ value world, middle value world → post value (world.hand lock none)) :
    Triple handle c thread pre (Program.locked lock body) post := by
  intro world hPre now hInv hRely hFree
  refine (hBody world now hPre hInv hRely hFree).bind ?_
  intro value after hMiddle later _ hLater _
  have hLast := hStable value after later hMiddle hLater
  exact ⟨hYields value later hLast, hReturn value later hLast⟩

omit [DecidableEq ι] in
/-- A program all of whose calls are guaranteed wherever they are made. -/
theorem Triple.of_only {calls : Req → Prop} {locks : Lock → Prop} {returns : β → Prop}
    (hCalls : ∀ env request world, calls request → c.inv world →
      c.allowed world (callEvent handle thread env request world.state) →
      c.guarantee world (callEvent handle thread env request world.state))
    (hYields : ∀ lock world, locks lock → c.inv world → world.holder lock = some thread →
      c.yields thread lock world) (hOnly : program.Only calls locks returns) :
    Triple handle c thread (fun _ => True) program fun value _ => returns value := by
  induction program with
  | ret value => exact fun _ _ => hOnly
  | call request next ih =>
    intro world _ now hInv _ env hAllowed
    exact ⟨hCalls env request now hOnly.1 hInv hAllowed, ih _ (hOnly.2 _) _ trivial⟩
  | acquire lock next ih =>
    intro world _ now hInv _ hFree
    exact ih hOnly.2 _ trivial
  | release lock next ih =>
    intro world _ now hInv _ hHeld
    exact ⟨hYields lock now hOnly.1 hInv hHeld, ih hOnly.2 _ trivial⟩

end Contract

end Library
end TriadSim

import Mathlib.Data.Fintype.Basic
import TriadSim.Library.Interleaving

/-!
# Serializability of one critical section

Threads that touch the shared state only inside one critical section each, all under the same
lock, leave the state and return the values of a serial execution: the one in the order in which
they have taken the lock.  The main result is `exists_serial_order`.
-/

namespace TriadSim
namespace Library
namespace Serial

variable {ι Lock Req : Type} {Resp : Req → Type} {Env State α β : Type}

/-- The request neither reads nor changes the shared state. -/
def Local (handle : Program.Handler Req Resp Env State) (request : Req) : Prop :=
  ∀ env state other, (handle env request state).2 = state ∧
    (handle env request state).1 = (handle env request other).1

/-- Where a thread stands with its critical section. -/
inductive Phase where
  | before
  | inside
  | after
  deriving DecidableEq

variable (handle : Program.Handler Req Resp Env State) (lock : Lock)

/-- The program has at most one critical section, under `lock`, and is local around it. -/
def Transactional : Phase → Program Lock Req Resp α → Prop
  | .inside, .ret _ => False
  | _, .ret _ => True
  | .inside, .call _ next => ∀ response, Transactional .inside (next response)
  | phase, .call request next =>
    Local handle request ∧ ∀ response, Transactional phase (next response)
  | .before, .acquire taken next => taken = lock ∧ Transactional .inside next
  | _, .acquire _ _ => False
  | .inside, .release given next => given = lock ∧ Transactional .after next
  | _, .release _ _ => False

/-- The program neither takes nor gives back a lock. -/
abbrev LockFree (program : Program Lock Req Resp α) : Prop :=
  program.Only (fun _ => True) (fun _ => False) fun _ => True

theorem transactional_locked {body : Program Lock Req Resp α} (hBody : LockFree body) :
    Transactional handle lock .before (Program.locked lock body) := by
  refine ⟨rfl, ?_⟩
  induction body with
  | ret value => exact ⟨rfl, trivial⟩
  | call request next ih => exact fun response => ih response (hBody.2 response)
  | acquire taken next | release given next => exact hBody.1.elim

variable {program : Program Lock Req Resp α}

/-- The result of a transactional program may be given another form. -/
theorem Transactional.bind_ret {k : α → Program Lock Req Resp β} {phase : Phase}
    (hProgram : Transactional handle lock phase program)
    (hReturns : ∀ value, ∃ result, k value = .ret result) :
    Transactional handle lock phase (program.bind k) := by
  induction program generalizing phase with
  | ret value =>
    obtain ⟨result, hResult⟩ := hReturns value
    rw [Program.bind, hResult]
    cases phase with
    | inside => exact hProgram.elim
    | before | after => trivial
  | call request next ih =>
    cases phase with
    | inside => exact fun response => ih response (hProgram response)
    | before | after => exact ⟨hProgram.1, fun response => ih response (hProgram.2 response)⟩
  | acquire taken next ih =>
    cases phase with
    | before => exact ⟨hProgram.1, ih hProgram.2⟩
    | inside | after => exact hProgram.elim
  | release given next ih =>
    cases phase with
    | inside => exact ⟨hProgram.1, ih hProgram.2⟩
    | before | after => exact hProgram.elim

/-- Outside a critical section that is over, a program leaves the state alone and returns
what it returns anywhere. -/
theorem exec_of_after (hAfter : Transactional handle lock .after program) (env : Nat → Env)
    (state other : State) :
    (program.exec handle env state).2.2 = state ∧
      (program.exec handle env state).1 = (program.exec handle env other).1 := by
  induction program generalizing env with
  | ret value => exact ⟨rfl, rfl⟩
  | call request next ih =>
    obtain ⟨hLocal, hNext⟩ := hAfter
    have hHere := hLocal (env 0) state other
    have hThere := hLocal (env 0) other state
    rw [Program.exec_call, Program.exec_call, hHere.1, hThere.1, ← hHere.2]
    exact ih _ (hNext _) _
  | acquire taken next | release given next => exact hAfter.elim

/-! ## Serial executions -/

variable (programs : ι → Program Lock Req Resp α) (envs : ι → Nat → Env)

/-- The threads one after another: what each returns, and the state they leave. -/
def serially : List ι → State → List (ι × α) × State
  | [], state => ([], state)
  | thread :: rest, state =>
    let done := (programs thread).exec handle (envs thread) state
    let remaining := serially rest done.2.2
    ((thread, done.1) :: remaining.1, remaining.2)

theorem serially_append (first second : List ι) (state : State) :
    serially handle programs envs (first ++ second) state =
      let left := serially handle programs envs first state
      let right := serially handle programs envs second left.2
      (left.1 ++ right.1, right.2) := by
  induction first generalizing state with
  | nil => rfl
  | cons thread rest ih =>
    rw [List.cons_append, serially, serially, ih]
    rfl

/-! ## The order of the critical sections -/

section Order

variable (first : State)

/-- A thread that has not taken the lock: from any state it would do what it would have
done from the start. -/
structure Fresh (thread : ι) (remaining : Program Lock Req Resp α × (Nat → Env)) : Prop where
  phase : Transactional handle lock .before remaining.1
  exec : ∀ state, remaining.1.exec handle remaining.2 state =
    (programs thread).exec handle (envs thread) state

/-- A thread whose critical section is over. -/
def Over (remaining : Program Lock Req Resp α × (Nat → Env)) : Prop :=
  Transactional handle lock .after remaining.1

/-- What a thread will return, if it no longer depends on the state. -/
def outcome (remaining : Program Lock Req Resp α × (Nat → Env)) : α :=
  (remaining.1.exec handle remaining.2 first).1

/-- The threads of `done` have left their critical sections in this order, and the state
is the one they leave, up to what the thread inside has done since. -/
structure Ordered (system : System ι Lock Req Resp Env State α) (done : List ι)
    (reached : State) : Prop where
  nodup : done.Nodup
  finished : ∀ thread ∈ done, Over handle lock (system.threads thread)
  serial : serially handle programs envs done first =
    (done.map fun thread => (thread, outcome handle first (system.threads thread)), reached)
  free : system.world.holder lock = none → system.world.state = reached
  fresh : ∀ thread ∉ done, system.world.holder lock ≠ some thread →
    Fresh handle lock programs envs thread (system.threads thread)
  held : ∀ thread, system.world.holder lock = some thread → thread ∉ done ∧
    Transactional handle lock .inside (system.threads thread).1 ∧
    (system.threads thread).1.exec handle (system.threads thread).2 system.world.state =
      (programs thread).exec handle (envs thread) reached

variable {handle lock programs envs first}

variable {thread : ι} {request : Req} {next : Resp request → Program Lock Req Resp α}
    {env : Nat → Env}

theorem Fresh.call (hFresh : Fresh handle lock programs envs thread (.call request next, env))
    (state : State) :
    (handle (env 0) request state).2 = state ∧ Fresh handle lock programs envs thread
      (next (handle (env 0) request state).1, Program.later env) := by
  obtain ⟨⟨hLocal, hNext⟩, hExec⟩ := hFresh
  refine ⟨(hLocal (env 0) state state).1, hNext _, ?_⟩
  intro other
  have hOther := hLocal (env 0) other state
  rw [← hExec other, Program.exec_call, hOther.1, hOther.2]

theorem Over.call (hOver : Over handle lock (.call request next, env)) (state : State) :
    (handle (env 0) request state).2 = state ∧
      Over handle lock (next (handle (env 0) request state).1, Program.later env) ∧
      outcome handle first (next (handle (env 0) request state).1, Program.later env) =
        outcome handle first (.call request next, env) := by
  obtain ⟨hLocal, hNext⟩ := hOver
  refine ⟨(hLocal (env 0) state state).1, hNext _, ?_⟩
  have hFirst := hLocal (env 0) first state
  simp only [outcome, Program.exec_call]
  rw [hFirst.1, hFirst.2]

variable [DecidableEq ι]

/-- The others do not notice a move that keeps the lock, the outcomes and the state. -/
theorem map_outcome_update {threads : ι → Program Lock Req Resp α × (Nat → Env)} {done : List ι}
    {remaining : Program Lock Req Resp α × (Nat → Env)}
    (hSame : thread ∈ done →
      outcome handle first remaining = outcome handle first (threads thread)) :
    (done.map fun other => (other, outcome handle first
      (Function.update threads thread remaining other))) =
      done.map fun other => (other, outcome handle first (threads other)) := by
  refine List.map_congr_left ?_
  intro other hMem
  by_cases hSelf : other = thread
  · subst hSelf
    rw [Function.update_self, hSame hMem]
  · rw [Function.update_of_ne hSelf]

variable {system : System ι Lock Req Resp Env State α} {done : List ι} {reached : State}

/-- A call: inside the critical section it is part of the serial execution of its thread,
outside it is local. -/
theorem Ordered.call (hOrdered : Ordered handle lock programs envs first system done reached)
    (hThread : system.threads thread = (.call request next, env)) :
    Ordered handle lock programs envs first
      ⟨system.world.record (callEvent handle thread (env 0) request system.world.state),
        Function.update system.threads thread
          (next (handle (env 0) request system.world.state).1,
            Program.later env)⟩ done reached := by
  -- What the call does outside the critical section of its thread.
  have hOver : thread ∈ done → (handle (env 0) request system.world.state).2 = system.world.state ∧
      Over handle lock (next (handle (env 0) request system.world.state).1, Program.later env) ∧
      outcome handle first (next (handle (env 0) request system.world.state).1,
        Program.later env) = outcome handle first (system.threads thread) := by
    intro hMem
    have hPhase := hOrdered.finished thread hMem
    rw [hThread] at hPhase ⊢
    exact hPhase.call system.world.state
  have hFresh : thread ∉ done → system.world.holder lock ≠ some thread →
      (handle (env 0) request system.world.state).2 = system.world.state ∧
      Fresh handle lock programs envs thread
        (next (handle (env 0) request system.world.state).1, Program.later env) := by
    intro hNew hOther
    have hPhase := hOrdered.fresh thread hNew hOther
    rw [hThread] at hPhase
    exact hPhase.call system.world.state
  have hSame : system.world.holder lock ≠ some thread →
      (handle (env 0) request system.world.state).2 = system.world.state := by
    intro hOther
    by_cases hMem : thread ∈ done
    · exact (hOver hMem).1
    · exact (hFresh hMem hOther).1
  refine ⟨hOrdered.nodup, ?_, ?_, ?_, ?_, ?_⟩
  · intro other hMem
    dsimp only
    by_cases hSelf : other = thread
    · subst hSelf
      rw [Function.update_self]
      exact (hOver hMem).2.1
    · rw [Function.update_of_ne hSelf]
      exact hOrdered.finished other hMem
  · dsimp only
    rw [map_outcome_update fun hMem => (hOver hMem).2.2]
    exact hOrdered.serial
  · intro hFree
    have hFree : system.world.holder lock = none := hFree
    have hKept := hSame (by rw [hFree]; exact (by simp))
    exact hKept.trans (hOrdered.free hFree)
  · intro other hNew hOther
    dsimp only
    by_cases hSelf : other = thread
    · subst hSelf
      rw [Function.update_self]
      exact (hFresh hNew hOther).2
    · rw [Function.update_of_ne hSelf]
      exact hOrdered.fresh other hNew hOther
  · intro other hHeld
    have hHeld : system.world.holder lock = some other := hHeld
    obtain ⟨hNew, hInside, hExec⟩ := hOrdered.held other hHeld
    refine ⟨hNew, ?_⟩
    dsimp only
    by_cases hSelf : other = thread
    · subst hSelf
      rw [hThread] at hInside hExec
      rw [Function.update_self]
      exact ⟨hInside _, hExec⟩
    · rw [Function.update_of_ne hSelf]
      have hKept := hSame (by rw [hHeld]; simpa using hSelf)
      refine ⟨hInside, ?_⟩
      show (system.threads other).1.exec handle (system.threads other).2
        (handle (env 0) request system.world.state).2 = _
      rw [hKept]
      exact hExec

variable [DecidableEq Lock]

/-- Taking the lock: the thread is fresh, and its serial execution starts here. -/
theorem Ordered.acquire {taken : Lock} {next : Program Lock Req Resp α}
    (hOrdered : Ordered handle lock programs envs first system done reached)
    (hThread : system.threads thread = (.acquire taken next, env))
    (hFree : system.world.holder taken = none) :
    Ordered handle lock programs envs first
      ⟨system.world.hand taken (some thread),
        Function.update system.threads thread (next, env)⟩ done reached := by
  have hNew : thread ∉ done := by
    intro hMem
    have hPhase := hOrdered.finished thread hMem
    rw [hThread] at hPhase
    exact hPhase
  have hNotHeld : system.world.holder lock ≠ some thread := by
    intro hHeld
    have hInside := (hOrdered.held thread hHeld).2.1
    rw [hThread] at hInside
    exact hInside
  have hFresh := hOrdered.fresh thread hNew hNotHeld
  rw [hThread] at hFresh
  obtain ⟨⟨rfl, hInside⟩, hExec⟩ := hFresh
  refine ⟨hOrdered.nodup, ?_, ?_, ?_, ?_, ?_⟩
  · intro other hMem
    dsimp only
    have hSelf : other ≠ thread := by
      rintro rfl
      exact hNew hMem
    rw [Function.update_of_ne hSelf]
    exact hOrdered.finished other hMem
  · dsimp only
    rw [map_outcome_update fun hMem => absurd hMem hNew]
    exact hOrdered.serial
  · intro hHolder
    rw [World.holder_hand_self] at hHolder
    cases hHolder
  · intro other hOtherNew hOther
    rw [World.holder_hand_self] at hOther
    have hSelf : other ≠ thread := fun hSelf => hOther (by rw [hSelf])
    dsimp only
    rw [Function.update_of_ne hSelf]
    exact hOrdered.fresh other hOtherNew (by rw [hFree]; simp)
  · intro other hHolder
    rw [World.holder_hand_self, Option.some.injEq] at hHolder
    subst hHolder
    dsimp only
    rw [Function.update_self]
    refine ⟨hNew, hInside, ?_⟩
    show next.exec handle env system.world.state = _
    rw [hOrdered.free hFree, ← hExec reached]
    rfl

/-- Giving the lock back: the thread joins the serial execution. -/
theorem Ordered.release {given : Lock} {next : Program Lock Req Resp α}
    (hOrdered : Ordered handle lock programs envs first system done reached)
    (hThread : system.threads thread = (.release given next, env))
    (hHeld : system.world.holder given = some thread) :
    Ordered handle lock programs envs first
      ⟨system.world.hand given none, Function.update system.threads thread (next, env)⟩
      (done ++ [thread]) system.world.state := by
  have hHolder : system.world.holder lock = some thread := by
    by_contra hOther
    by_cases hMem : thread ∈ done
    · have hPhase := hOrdered.finished thread hMem
      rw [hThread] at hPhase
      exact hPhase
    · have hPhase := (hOrdered.fresh thread hMem hOther).phase
      rw [hThread] at hPhase
      exact hPhase
  obtain ⟨hNew, hInside, hExec⟩ := hOrdered.held thread hHolder
  rw [hThread] at hInside hExec
  obtain ⟨rfl, hAfter⟩ := hInside
  -- The rest of the thread is local, so its serial execution ends in the present state.
  have hRest := exec_of_after handle given hAfter env system.world.state first
  have hSerial : (programs thread).exec handle (envs thread) reached =
      next.exec handle env system.world.state := hExec.symm
  refine ⟨?_, ?_, ?_, ?_, ?_, ?_⟩
  · rw [List.nodup_append]
    refine ⟨hOrdered.nodup, List.nodup_singleton _, ?_⟩
    intro other hMem last hLast hSame
    rw [List.mem_singleton.mp hLast] at hSame
    exact hNew (hSame ▸ hMem)
  · intro other hMem
    dsimp only
    by_cases hSelf : other = thread
    · subst hSelf
      rw [Function.update_self]
      exact hAfter
    · rw [Function.update_of_ne hSelf]
      refine hOrdered.finished other ?_
      rcases List.mem_append.mp hMem with hMem | hMem
      · exact hMem
      · exact absurd (List.mem_singleton.mp hMem) hSelf
  · dsimp only
    rw [serially_append, hOrdered.serial, List.map_append,
      map_outcome_update fun hMem => absurd hMem hNew]
    simp only [serially, hSerial, hRest.1, List.map_cons, List.map_nil, Function.update_self,
      outcome, hRest.2]
  · intro _
    rfl
  · intro other hOtherNew _
    rw [List.mem_append, not_or, List.mem_singleton] at hOtherNew
    dsimp only
    rw [Function.update_of_ne hOtherNew.2]
    refine hOrdered.fresh other hOtherNew.1 ?_
    rw [hHolder]
    exact fun hSame => hOtherNew.2 (Option.some.inj hSame).symm
  · intro other hNone
    rw [World.holder_hand_self] at hNone
    cases hNone

variable {allowed : World ι Lock Req Resp State → Event ι Req Resp State → Prop} {value : ι → α}

/-- Every run has an order of the critical sections it has been through. -/
theorem exists_ordered (hPrograms : ∀ thread, Transactional handle lock .before (programs thread))
    (hReaches : System.Reaches handle allowed (System.start programs envs first) system) :
    ∃ done reached, Ordered handle lock programs envs first system done reached := by
  induction hReaches with
  | start =>
    refine ⟨[], first, List.nodup_nil, ?_, rfl, fun _ => rfl, ?_, ?_⟩
    · intro thread hMem
      cases hMem
    · intro thread _ _
      exact ⟨hPrograms thread, fun _ => rfl⟩
    · intro thread hHeld
      cases hHeld
  | step thread _ hStep _ ih =>
    obtain ⟨done, reached, hOrdered⟩ := ih
    rcases System.step_cases handle hStep with ⟨request, next, env, hThread, rfl⟩ |
      ⟨taken, next, env, hThread, hFree, rfl⟩ | ⟨given, next, env, hThread, hHeld, rfl⟩
    · exact ⟨done, reached, hOrdered.call hThread⟩
    · exact ⟨done, reached, hOrdered.acquire hThread hFree⟩
    · exact ⟨done ++ [thread], _, hOrdered.release hThread hHeld⟩

omit [DecidableEq ι] [DecidableEq Lock] in
/-- Threads that return without a critical section can come last. -/
theorem serially_of_fresh {rest : List ι} {state : State}
    (hRest : ∀ thread ∈ rest, ∃ env, Fresh handle lock programs envs thread
      (.ret (value thread), env)) :
    serially handle programs envs rest state =
      (rest.map fun thread => (thread, value thread), state) := by
  induction rest with
  | nil => rfl
  | cons thread rest ih =>
    obtain ⟨env, hFresh⟩ := hRest thread List.mem_cons_self
    have hExec : (programs thread).exec handle (envs thread) state = (value thread, env, state) :=
      (hFresh.exec state).symm
    simp only [serially, hExec, List.map_cons]
    rw [ih fun other hMem => hRest other (List.mem_cons_of_mem _ hMem)]

/-- A run in which all threads have returned is a serial execution of them. -/
theorem exists_serial_order [Fintype ι]
    (hPrograms : ∀ thread, Transactional handle lock .before (programs thread))
    (hReaches : System.Reaches handle allowed (System.start programs envs first) system)
    (hReturned : ∀ thread, (system.threads thread).1 = .ret (value thread)) :
    ∃ order : List ι, order.Nodup ∧ (∀ thread, thread ∈ order) ∧
      serially handle programs envs order first =
        (order.map fun thread => (thread, value thread), system.world.state) := by
  obtain ⟨done, reached, hOrdered⟩ := exists_ordered hPrograms hReaches
  have hPair : ∀ thread, system.threads thread =
      (.ret (value thread), (system.threads thread).2) :=
    fun thread => Prod.ext (hReturned thread) rfl
  -- Nobody is inside: a thread inside its critical section has not returned.
  have hFree : system.world.holder lock = none := by
    cases hHolder : system.world.holder lock with
    | none => rfl
    | some thread =>
      have hInside := (hOrdered.held thread hHolder).2.1
      rw [hReturned thread] at hInside
      exact hInside.elim
  have hRest : ∀ thread ∈ (Finset.univ.toList.filter fun thread => thread ∉ done),
      ∃ env, Fresh handle lock programs envs thread (.ret (value thread), env) := by
    intro thread hMem
    have hNew : thread ∉ done := by simpa using (List.mem_filter.mp hMem).2
    have hFresh := hOrdered.fresh thread hNew (by rw [hFree]; simp)
    rw [hPair thread] at hFresh
    exact ⟨_, hFresh⟩
  have hOutcome : (done.map fun thread => (thread, outcome handle first (system.threads thread))) =
      done.map fun thread => (thread, value thread) := by
    refine List.map_congr_left ?_
    intro thread _
    rw [hPair thread]
    rfl
  refine ⟨done ++ Finset.univ.toList.filter fun thread => thread ∉ done, ?_, ?_, ?_⟩
  · rw [List.nodup_append]
    refine ⟨hOrdered.nodup, (Finset.nodup_toList _).filter _, ?_⟩
    intro thread hMem other hOther hSame
    have hNew : other ∉ done := by simpa using (List.mem_filter.mp hOther).2
    exact hNew (hSame ▸ hMem)
  · intro thread
    by_cases hMem : thread ∈ done
    · exact List.mem_append_left _ hMem
    · exact List.mem_append_right _ (List.mem_filter.mpr ⟨by simp, by simpa using hMem⟩)
  · rw [serially_append, hOrdered.serial, hOutcome, List.map_append]
    simp only [serially_of_fresh hRest, hOrdered.free hFree]

end Order

end Serial
end Library
end TriadSim

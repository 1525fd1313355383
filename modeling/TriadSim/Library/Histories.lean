import Mathlib.Data.List.Induction
import TriadSim.Library.Interleaving

/-!
# Histories

The calls of a run, in order, say everything about the shared state: each was answered
from the state that the calls before it had left.  A property of runs is therefore an
induction over histories, from what is known of every call (`Each.induction`).
-/

namespace TriadSim
namespace Library

/-- Every element of a list stands in the relation to those before it. -/
def Each {ε : Type} (P : List ε → ε → Prop) (history : List ε) : Prop :=
  ∀ earlier event later, history = earlier ++ event :: later → P earlier event

section Each

variable {ε : Type} {P Q : List ε → ε → Prop} {history : List ε}

theorem each_nil : Each P [] := by
  intro earlier event later hNil
  simp at hNil

variable {event : ε} {index : Nat}

theorem each_append_singleton :
    Each P (history ++ [event]) ↔ Each P history ∧ P history event := by
  constructor
  · intro hEach
    refine ⟨?_, hEach history event [] rfl⟩
    rintro earlier found later rfl
    exact hEach earlier found (later ++ [event]) (by simp)
  · rintro ⟨hEach, hLast⟩ earlier found later hSplit
    rcases List.eq_nil_or_concat later with rfl | ⟨init, last, rfl⟩
    · obtain ⟨rfl, hFound⟩ := List.append_inj' hSplit rfl
      cases hFound
      exact hLast
    · have hInit : history ++ [event] = (earlier ++ found :: init) ++ [last] := by
        simpa using hSplit
      obtain ⟨rfl, _⟩ := List.append_inj' hInit rfl
      exact hEach earlier found init rfl

theorem Each.of_mem (hEach : Each P history) (hEvent : event ∈ history) :
    ∃ earlier, P earlier event := by
  obtain ⟨earlier, later, hSplit⟩ := List.append_of_mem hEvent
  exact ⟨earlier, hEach earlier event later hSplit⟩

/-- What precedes an element satisfies it as well. -/
theorem Each.of_append {earlier later : List ε} (hEach : Each P (earlier ++ later)) :
    Each P earlier := by
  rintro before event rest rfl
  exact hEach before event (rest ++ later) (by simp)

theorem Each.and (hFirst : Each P history) (hSecond : Each Q history) :
    Each (fun earlier event => P earlier event ∧ Q earlier event) history :=
  fun earlier event later hSplit =>
    ⟨hFirst earlier event later hSplit, hSecond earlier event later hSplit⟩

/-- What holds of no calls and is kept by each call, holds of the whole history. -/
theorem Each.induction {I : List ε → Prop} (hEach : Each P history) (hNil : I [])
    (hStep : ∀ earlier event, I earlier → P earlier event → I (earlier ++ [event])) :
    I history := by
  induction history using List.reverseRecOn with
  | nil => exact hNil
  | append_singleton earlier event ih =>
    obtain ⟨hEarlier, hEvent⟩ := each_append_singleton.mp hEach
    exact hStep earlier event (ih hEarlier) hEvent

/-- A list around one of its elements. -/
theorem split_of_getElem? (hEvent : history[index]? = some event) :
    history = history.take index ++ event :: history.drop (index + 1) := by
  obtain ⟨_, hGet⟩ := List.getElem?_eq_some_iff.mp hEvent
  rw [← hGet, List.getElem_cons_drop, List.take_append_drop]

/-- A list around two of its elements. -/
theorem split_of_getElem?_of_getElem? {gap : Nat} {later : ε}
    (hEvent : history[index]? = some event)
    (hLater : (history.drop (index + 1))[gap]? = some later) :
    history = history.take index ++ event :: (history.drop (index + 1)).take gap ++
      later :: (history.drop (index + 1)).drop (gap + 1) := by
  have hRest := split_of_getElem? hLater
  calc history = history.take index ++ event :: history.drop (index + 1) :=
        split_of_getElem? hEvent
    _ = history.take index ++ event :: ((history.drop (index + 1)).take gap ++
          later :: (history.drop (index + 1)).drop (gap + 1)) := by rw [← hRest]
    _ = _ := by simp

end Each

variable {ι Lock Req : Type} {Resp : Req → Type} {Env State α : Type}

/-- The state after the calls of a history. -/
def lastState (initial : State) (history : List (Event ι Req Resp State)) : State :=
  (history.getLast?.map Event.after).getD initial

@[simp] theorem lastState_nil (initial : State) :
    lastState initial ([] : List (Event ι Req Resp State)) = initial := rfl

@[simp] theorem lastState_append (initial : State) (history : List (Event ι Req Resp State))
    (event : Event ι Req Resp State) :
    lastState initial (history ++ [event]) = event.after := by
  simp [lastState]

namespace System

variable [DecidableEq ι] [DecidableEq Lock] {handle : Program.Handler Req Resp Env State}
  {allowed : World ι Lock Req Resp State → Event ι Req Resp State → Prop}
  {first system : System ι Lock Req Resp Env State α}

variable {thread : ι} {env : Nat → Env} {calls : ι → Req → Prop} {locks : ι → Lock → Prop}
    {returns : ι → α → Prop}

/-- A run goes on with the next call of a thread. -/
theorem Reaches.call {request : Req} {next : Resp request → Program Lock Req Resp α}
    (hReaches : Reaches handle (fun _ _ => True) first system)
    (hThread : system.threads thread = (.call request next, env)) :
    Reaches handle (fun _ _ => True) first
      ⟨system.world.record (callEvent handle thread (env 0) request system.world.state),
        Function.update system.threads thread
          (next (handle (env 0) request system.world.state).1, Program.later env)⟩ := by
  refine .step thread hReaches ?_ fun _ _ => trivial
  unfold System.step
  rw [hThread]
  rfl

/-- A run goes on with a thread that runs alone to its end.  What its calls keep, they keep
before and after each of them. -/
theorem Reaches.exec {calls : Req → Prop} {P : State → Prop} {program : Program Lock Req Resp α}
    (hReaches : Reaches handle (fun _ _ => True) first system)
    (hThread : system.threads thread = (program, env))
    (hOnly : program.Only calls (fun _ => False) fun _ => True)
    (hKeeps : ∀ env request state, calls request → P state → P (handle env request state).2)
    (hState : P system.world.state) :
    ∃ after : System ι Lock Req Resp Env State α,
      Reaches handle (fun _ _ => True) first after ∧
      after.threads thread = (.ret (program.exec handle env system.world.state).1,
        (program.exec handle env system.world.state).2.1) ∧
      (∀ other, other ≠ thread → after.threads other = system.threads other) ∧
      after.world.state = (program.exec handle env system.world.state).2.2 ∧
      ∃ own, after.world.history = system.world.history ++ own ∧
        ∀ event ∈ own, event.thread = thread ∧ P event.before ∧ P event.after := by
  induction program generalizing system env with
  | ret value =>
    exact ⟨system, hReaches, hThread, fun _ _ => rfl, rfl, [], (List.append_nil _).symm, by simp⟩
  | call request next ih =>
    have hAfter := hKeeps (env 0) request system.world.state hOnly.1 hState
    obtain ⟨after, hRun, hReturned, hOthers, hLast, own, hHistory, hOwn⟩ :=
      ih _ (hReaches.call hThread) (Function.update_self _ _ _) (hOnly.2 _) hAfter
    refine ⟨after, hRun, hReturned, ?_, hLast, _ :: own,
      hHistory.trans (List.append_assoc _ [_] own), ?_⟩
    · intro other hOther
      rw [hOthers other hOther]
      exact Function.update_of_ne hOther _ _
    · intro event hEvent
      rcases List.mem_cons.mp hEvent with rfl | hEvent
      · exact ⟨rfl, hState, hAfter⟩
      · exact hOwn event hEvent
  | acquire lock next ih | release lock next ih => exact hOnly.1.elim

/-- A run under a condition is a run. -/
theorem Reaches.mono {weaker : World ι Lock Req Resp State → Event ι Req Resp State → Prop}
    (hReaches : Reaches handle allowed first system)
    (hMono : ∀ world event, allowed world event → weaker world event) :
    Reaches handle weaker first system := by
  induction hReaches with
  | start => exact .start
  | step thread _ hStep hAllowed ih =>
    exact .step thread ih hStep fun event hEvent => hMono _ event (hAllowed event hEvent)

/-- Every call of a run satisfies what can be said of a call when it is made. -/
theorem Reaches.each {P : List (Event ι Req Resp State) → Event ι Req Resp State → Prop}
    (hReaches : Reaches handle allowed first system) (hFirst : Each P first.world.history)
    (hCall : ∀ system thread next event, Reaches handle allowed first system →
      system.step handle thread = some next → next.world = system.world.record event →
      allowed system.world event → P system.world.history event) :
    Each P system.world.history := by
  induction hReaches with
  | start => exact hFirst
  | @step system next thread hReaches hStep hAllowed ih =>
    rcases step_cases handle hStep with ⟨request, rest, env, hThread, rfl⟩ |
      ⟨lock, rest, env, hThread, hFree, rfl⟩ | ⟨lock, rest, env, hThread, hHeld, rfl⟩
    · exact each_append_singleton.mpr
        ⟨ih, hCall system thread _ _ hReaches hStep rfl (hAllowed _ rfl)⟩
    · exact ih
    · exact ih

/-- Each call of a run was answered from the state that the calls before it had left. -/
theorem Reaches.replays (hReaches : Reaches handle allowed first system)
    (hFirst : first.world.history = []) :
    Each (fun earlier event => ∃ env, event = callEvent handle event.thread env event.request
        (lastState first.world.state earlier)) system.world.history ∧
      system.world.state = lastState first.world.state system.world.history := by
  induction hReaches with
  | start => exact ⟨by rw [hFirst]; exact each_nil, by rw [hFirst, lastState_nil]⟩
  | @step system next thread hReaches hStep hAllowed ih =>
    obtain ⟨hEach, hState⟩ := ih
    rcases step_cases handle hStep with ⟨request, rest, env, hThread, rfl⟩ |
      ⟨lock, rest, env, hThread, hFree, rfl⟩ | ⟨lock, rest, env, hThread, hHeld, rfl⟩
    · refine ⟨each_append_singleton.mpr ⟨hEach, env 0, ?_⟩, ?_⟩
      · rw [← hState]
        rfl
      · rw [World.history_record, lastState_append, World.state_record]
    · exact ⟨hEach, hState⟩
    · exact ⟨hEach, hState⟩

/-- A thread only makes calls that its program can make. -/
theorem Reaches.only (hReaches : Reaches handle allowed first system)
    (hFirst : ∀ thread, (first.threads thread).1.Only (calls thread) (locks thread)
      (returns thread)) (thread : ι) :
    (system.threads thread).1.Only (calls thread) (locks thread) (returns thread) := by
  induction hReaches with
  | start => exact hFirst thread
  | @step system next mover hReaches hStep hAllowed ih =>
    rcases step_cases handle hStep with ⟨request, rest, env, hThread, rfl⟩ |
      ⟨lock, rest, env, hThread, hFree, rfl⟩ | ⟨lock, rest, env, hThread, hHeld, rfl⟩
    all_goals
      by_cases hMover : thread = mover
      · subst hMover
        rw [hThread] at ih
        dsimp only
        rw [Function.update_self]
        first | exact ih.2 _ | exact ih.2
      · dsimp only
        rw [Function.update_of_ne hMover]
        exact ih

theorem Reaches.each_only (hReaches : Reaches handle allowed first system)
    (hHistory : first.world.history = [])
    (hFirst : ∀ thread, (first.threads thread).1.Only (calls thread) (locks thread)
      (returns thread)) :
    Each (fun _ event => calls event.thread event.request) system.world.history := by
  refine hReaches.each (by rw [hHistory]; exact each_nil) ?_
  intro system thread next event hReaches hStep hEvent _
  rcases step_cases handle hStep with ⟨request, rest, env, hThread, rfl⟩ |
    ⟨lock, rest, env, hThread, hFree, rfl⟩ | ⟨lock, rest, env, hThread, hHeld, rfl⟩
  · have hOnly := hReaches.only hFirst thread
    rw [hThread] at hOnly
    rw [← World.record_injective hEvent]
    exact hOnly.1
  · have hHistory := congrArg World.history hEvent
    simp at hHistory
  · have hHistory := congrArg World.history hEvent
    simp at hHistory

end System

end Library
end TriadSim

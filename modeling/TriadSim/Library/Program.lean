import Mathlib.Logic.Function.Basic

/-!
# Programs that call a shared state

A program is a tree: it returns, calls the shared state and goes on with the
response, or acquires or releases a lock.  What a call does is a parameter, the
handler, which also sees what the surroundings contribute to the call.  `exec` runs
one program alone; `System.step` lets one of many threads make its next move.
-/

namespace TriadSim
namespace Library

/-- A program over the requests `Req` that returns an `α`. -/
inductive Program (Lock Req : Type) (Resp : Req → Type) (α : Type) : Type where
  | ret (value : α)
  | call (request : Req) (next : Resp request → Program Lock Req Resp α)
  | acquire (lock : Lock) (next : Program Lock Req Resp α)
  | release (lock : Lock) (next : Program Lock Req Resp α)

namespace Program

variable {Lock Req : Type} {Resp : Req → Type} {α β : Type}

/-- One program after the other. -/
def bind : Program Lock Req Resp α → (α → Program Lock Req Resp β) → Program Lock Req Resp β
  | ret value, k => k value
  | call request next, k => call request fun response => (next response).bind k
  | acquire lock next, k => acquire lock (next.bind k)
  | release lock next, k => release lock (next.bind k)

instance : Monad (Program Lock Req Resp) where
  pure := ret
  bind := bind

/-- A single call. -/
def request (req : Req) : Program Lock Req Resp (Resp req) :=
  call req ret

/-- A body inside a critical section. -/
def locked (lock : Lock) (body : Program Lock Req Resp α) : Program Lock Req Resp α :=
  acquire lock (body.bind fun value => release lock (ret value))

/-- The value of a program that has returned. -/
def result? : Program Lock Req Resp α → Option α
  | ret value => some value
  | _ => none

theorem eq_ret_of_result?_eq_some {program : Program Lock Req Resp α} {value : α}
    (hResult : program.result? = some value) : program = ret value := by
  cases program with
  | ret found =>
    cases hResult
    rfl
  | _ => cases hResult

/-! ## What a program can do at all -/

/-- Whatever the responses are, the program makes only such calls, touches only such
locks and returns only such values. -/
def Only (calls : Req → Prop) (locks : Lock → Prop) (returns : α → Prop) :
    Program Lock Req Resp α → Prop
  | ret value => returns value
  | call request next => calls request ∧ ∀ response, Only calls locks returns (next response)
  | acquire lock next => locks lock ∧ Only calls locks returns next
  | release lock next => locks lock ∧ Only calls locks returns next

section Only

variable {calls : Req → Prop} {locks : Lock → Prop}

theorem Only.bind {program : Program Lock Req Resp α} {k : α → Program Lock Req Resp β}
    {middle : α → Prop} {returns : β → Prop} (hProgram : program.Only calls locks middle)
    (hNext : ∀ value, middle value → (k value).Only calls locks returns) :
    (program.bind k).Only calls locks returns := by
  induction program with
  | ret value => exact hNext value hProgram
  | call request next ih => exact ⟨hProgram.1, fun response => ih response (hProgram.2 response)⟩
  | acquire lock next ih | release lock next ih => exact ⟨hProgram.1, ih hProgram.2⟩

theorem Only.locked {lock : Lock} {body : Program Lock Req Resp α} {returns : α → Prop}
    (hLock : locks lock) (hBody : body.Only calls locks returns) :
    (Program.locked lock body).Only calls locks returns :=
  ⟨hLock, hBody.bind fun _ hValue => ⟨hLock, hValue⟩⟩

/-- Every program does something. -/
theorem only_true (program : Program Lock Req Resp α) :
    program.Only (fun _ => True) (fun _ => True) fun _ => True := by
  induction program with
  | ret value => trivial
  | call request next ih | acquire lock next ih | release lock next ih => exact ⟨trivial, ih⟩

end Only

/-! ## Running a program alone -/

section Exec

variable {Env State : Type}

/-- What a call does: its response and the state after it, from what the call finds
around it and the state before. -/
abbrev Handler (Req : Type) (Resp : Req → Type) (Env State : Type) :=
  Env → (request : Req) → State → Resp request × State

/-- The surroundings of the calls after the first. -/
def later (env : Nat → Env) : Nat → Env :=
  fun index => env (index + 1)

variable (handle : Handler Req Resp Env State)

/-- Run a program from its first call to its result, with nobody else around. -/
def exec : Program Lock Req Resp α → (Nat → Env) → State → α × (Nat → Env) × State
  | ret value, env, state => (value, env, state)
  | call request next, env, state =>
    let answered := handle (env 0) request state
    (next answered.1).exec (later env) answered.2
  | acquire _ next, env, state => next.exec env state
  | release _ next, env, state => next.exec env state

@[simp] theorem exec_call (req : Req) (next : Resp req → Program Lock Req Resp α)
    (env : Nat → Env) (state : State) :
    (call req next).exec handle env state =
      (next (handle (env 0) req state).1).exec handle (later env)
        (handle (env 0) req state).2 := rfl

theorem exec_bind (program : Program Lock Req Resp α) (k : α → Program Lock Req Resp β)
    (env : Nat → Env) (state : State) :
    (program >>= k).exec handle env state =
      (k (program.exec handle env state).1).exec handle (program.exec handle env state).2.1
        (program.exec handle env state).2.2 := by
  induction program generalizing env state with
  | ret value => rfl
  | call req next ih => exact ih _ _ _
  | acquire lock next ih | release lock next ih => exact ih _ _

/-! ## Postconditions -/

/-- From `state`, with any surroundings, the program ends in a result and a state that
satisfy `post`. -/
def Ensures : Program Lock Req Resp α → (α → State → Prop) → State → Prop
  | ret value, post, state => post value state
  | call request next, post, state =>
    ∀ env, (next (handle env request state).1).Ensures post (handle env request state).2
  | acquire _ next, post, state => next.Ensures post state
  | release _ next, post, state => next.Ensures post state

variable {handle}

variable {program : Program Lock Req Resp α} {post : α → State → Prop} {state : State}

theorem Ensures.exec (hEnsures : program.Ensures handle post state) (env : Nat → Env) :
    post (program.exec handle env state).1 (program.exec handle env state).2.2 := by
  induction program generalizing env state with
  | ret value => exact hEnsures
  | call req next ih => exact ih _ (hEnsures (env 0)) _
  | acquire lock next ih | release lock next ih => exact ih hEnsures env

theorem Ensures.bind {k : α → Program Lock Req Resp β} {middle : α → State → Prop}
    {post : β → State → Prop} (hFirst : program.Ensures handle middle state)
    (hNext : ∀ value after, middle value after → (k value).Ensures handle post after) :
    (program.bind k).Ensures handle post state := by
  induction program generalizing state with
  | ret value => exact hNext value state hFirst
  | call req next ih => exact fun env => ih _ (hFirst env)
  | acquire lock next ih | release lock next ih => exact ih hFirst

theorem Ensures.mono {weaker : α → State → Prop} (hEnsures : program.Ensures handle post state)
    (hWeaker : ∀ value after, post value after → weaker value after) :
    program.Ensures handle weaker state := by
  induction program generalizing state with
  | ret value => exact hWeaker value state hEnsures
  | call req next ih => exact fun env => ih _ (hEnsures env)
  | acquire lock next ih | release lock next ih => exact ih hEnsures

theorem Ensures.locked {lock : Lock} {body : Program Lock Req Resp α}
    (hBody : body.Ensures handle post state) :
    (locked lock body).Ensures handle post state :=
  Ensures.bind hBody fun _ _ hPost => hPost

/-- What every call of a program keeps, the program keeps. -/
theorem Ensures.of_only {calls : Req → Prop} {locks : Lock → Prop} {returns : α → Prop}
    {I : State → Prop} (hOnly : program.Only calls locks returns)
    (hKeeps : ∀ env request state, calls request → I state → I (handle env request state).2)
    (hState : I state) :
    program.Ensures handle (fun value after => returns value ∧ I after) state := by
  induction program generalizing state with
  | ret value => exact ⟨hOnly, hState⟩
  | call request next ih =>
    exact fun env => ih _ (hOnly.2 _) (hKeeps env request state hOnly.1 hState)
  | acquire lock next ih | release lock next ih => exact ih hOnly.2 hState

/-- What a program does in some surroundings only, as calls through a handler for these. -/
theorem exec_comap {Env' : Type} (handle : Env → (request : Req) → State → Resp request × State)
    (f : Env' → Env) (program : Program Lock Req Resp α)
    (env : Nat → Env') (state : State) :
    (program.exec (fun env => handle (f env)) env state).1 =
        (program.exec handle (fun index => f (env index)) state).1 ∧
      (program.exec (fun env => handle (f env)) env state).2.2 =
        (program.exec handle (fun index => f (env index)) state).2.2 := by
  induction program generalizing env state with
  | ret value => exact ⟨rfl, rfl⟩
  | call request next ih => exact ih _ (later env) _
  | acquire lock next ih | release lock next ih => exact ih env state

/-- What a program ensures in all surroundings, it ensures in some. -/
theorem Ensures.comap {Env' : Type} {handle : Env → (request : Req) → State → Resp request × State}
    (f : Env' → Env) (hEnsures : program.Ensures handle post state) :
    program.Ensures (fun env => handle (f env)) post state := by
  induction program generalizing state with
  | ret value => exact hEnsures
  | call request next ih => exact fun env => ih _ (hEnsures (f env))
  | acquire lock next ih | release lock next ih => exact ih hEnsures

end Exec

end Program

end Library
end TriadSim

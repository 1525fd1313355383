import TriadSim.Library.Serial
import TriadSim.System.Rules

/-!
# Concurrent edits and SETs

An edit and an SNMP SET each do all their reading and writing inside one router transaction, and
outside it they only look at their own context.  Any number of them, interleaved call by call, is
therefore as good as one after another.  The main result is `interleaved_transactions_are_serial`.
-/

namespace TriadSim

open Datatree Library Library.Serial Router Store

/-- The operations that run in a router transaction. -/
inductive Transaction where
  | edit (ds : Datastore) (req : EditRequest)
  | set (varbinds : List Snmp.VarBind)

/-- What the client of such an operation is told. -/
inductive Answer where
  | edited (result : Except Err Unit)
  | replied (reply : Snmp.Reply)
  deriving DecidableEq

/-- The program of an operation. -/
def Transaction.program (r : Router) : Transaction → Prog Answer
  | edit ds req => (Datatree.apply r ds req).bind fun result => .ret (.edited result)
  | set varbinds => (Snmp.set r varbinds).bind fun reply => .ret (.replied reply)

/-! ## One critical section -/

section Shape

variable {α : Type} {json : Json} (opts : Options)

/-- Looking at the context is local to a thread. -/
theorem local_ctxErr : Local (Machine.handler json opts) .ctxErr :=
  fun _ _ _ => ⟨rfl, rfl⟩

theorem transactional_checkCtx {next : Prog (Except Err α)}
    (hNext : Transactional (Machine.handler json opts) .transaction .before next) :
    Transactional (Machine.handler json opts) .transaction .before (checkCtx next) := by
  refine ⟨local_ctxErr opts, ?_⟩
  intro response
  cases response with
  | none => exact hNext
  | some err => trivial

theorem transactional_transaction {body : Prog (Except Err α)} (hBody : LockFree body) :
    Transactional (Machine.handler json opts) .transaction .before (transaction body) :=
  transactional_checkCtx opts (transactional_locked _ _ hBody)

theorem transactional_program (r : Router) (op : Transaction) :
    Transactional (Machine.handler json opts) .transaction .before (op.program r) := by
  cases op with
  | edit ds req =>
    refine Transactional.bind_ret _ _ ?_ fun _ => ⟨_, rfl⟩
    exact transactional_checkCtx opts
      (transactional_transaction opts
        (only_applyBody (fun _ _ => trivial) fun _ _ _ _ _ => trivial))
  | set varbinds =>
    refine Transactional.bind_ret _ _ ?_ fun _ => ⟨_, rfl⟩
    refine Transactional.bind_ret _ _ (transactional_transaction opts ?_) ?_
    · exact (Snmp.only_applySet (fun _ _ => trivial) fun _ _ _ _ _ => trivial).bind
        fun _ _ => trivial
    · intro result
      cases result with
      | error err | ok reply => exact ⟨_, rfl⟩

end Shape

/-- The system of any number of operations on one machine. -/
def transactionSystem {json : Json} {n : Nat} (r : Router) (ops : Fin n → Transaction)
    (envs : Fin n → Nat → CallEnv) (machine : Machine json) :
    System (Fin n) Mutex Request Request.Response CallEnv (Machine json) Answer :=
  System.start (fun thread => (ops thread).program r) envs machine

/-- However the calls of edits and SETs are interleaved, what they leave and what they
answer is what they would in some serial order. -/
theorem interleaved_transactions_are_serial {json : Json} (opts : Options) (r : Router) {n : Nat}
    (ops : Fin n → Transaction) (envs : Fin n → Nat → CallEnv) (machine : Machine json)
    (schedule : List (Fin n))
    (system : System (Fin n) Mutex Request Request.Response CallEnv (Machine json) Answer)
    (answers : Fin n → Answer)
    (hRun : (transactionSystem r ops envs machine).run (Machine.handle opts) schedule = some system)
    (hAnswers : ∀ thread, (system.threads thread).1 = .ret (answers thread)) :
    ∃ order : List (Fin n), order.Nodup ∧ (∀ thread, thread ∈ order) ∧
      serially (Machine.handle opts) (fun thread => (ops thread).program r) envs order machine =
        (order.map fun thread => (thread, answers thread), system.world.state) :=
  exists_serial_order (fun thread => transactional_program opts r (ops thread))
    (System.reaches_of_run _ hRun) hAnswers

/-- Give the device a location. -/
def locateRequest : EditRequest :=
  ⟨[], .merge, [.mk "system-info" [] [] [.mk "location" "roof" [] []]]⟩

/-- Two edits of running whose calls overlap: both have looked at their contexts before
the first takes the transaction. -/
def overlapping : Option (System (Fin 2) Mutex Request Request.Response CallEnv
    (Machine Json.plain) Answer) :=
  (transactionSystem defaultRouter ![.edit .running describeRequest, .edit .running locateRequest]
    (fun _ _ => CallEnv.quiet) (machineWith bareContent)).run
      (Machine.handle (defaultRouter.options [])) ([0, 1, 1, 0] ++ List.replicate 7 0 ++
        List.replicate 7 1)

theorem overlapping_edits_are_serial :
    ∃ system, overlapping = some system ∧
      ∃ order : List (Fin 2), order.Nodup ∧ (∀ thread, thread ∈ order) ∧
        serially (Machine.handle (defaultRouter.options []))
            (fun thread => ((![.edit .running describeRequest, .edit .running locateRequest] :
              Fin 2 → Transaction) thread).program defaultRouter)
            (fun _ _ => CallEnv.quiet) order (machineWith bareContent) =
          (order.map fun thread => (thread, .edited (.ok ())), system.world.state) := by
  have hResults : overlapping.map (fun system =>
      ((system.threads 0).1.result?, (system.threads 1).1.result?)) =
        some (some (.edited (.ok ())), some (.edited (.ok ()))) := by decide +kernel
  obtain ⟨system, hRun, hResults⟩ := Option.map_eq_some_iff.mp hResults
  rw [Prod.mk.injEq] at hResults
  refine ⟨system, hRun, interleaved_transactions_are_serial (defaultRouter.options [])
    defaultRouter ![.edit .running describeRequest, .edit .running locateRequest]
    (fun _ _ => CallEnv.quiet) (machineWith bareContent) _ system (fun _ => .edited (.ok ()))
    hRun ?_⟩
  rw [Fin.forall_fin_two]
  exact ⟨Program.eq_ret_of_result?_eq_some hResults.1,
    Program.eq_ret_of_result?_eq_some hResults.2⟩

end TriadSim

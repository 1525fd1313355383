import TriadSim.Library.Program
import TriadSim.Router.Oid
import TriadSim.Store.Effects

/-!
# The shared state of the simulator

The management planes and the domains of one process share the store, the router's
memoized SNMP index, the confirmed commit in progress and the clock manager's own
state.  A handler of a plane is a program over single accesses to them: a store call
is one access, since the store holds its lock for the whole call, and so is what a
short critical section does.
-/

namespace TriadSim

open Go Store

/-- The mutexes that are held across accesses: the router's `txMu`, the `mu` of
`Confirmed` and the `mu` of the two domain managers. -/
inductive Mutex where
  | transaction
  | confirmed
  | syncManager
  | l2Manager
  deriving DecidableEq, Repr

/-- `Binding`: an SNMP object with its current value. -/
structure Binding where
  oid : GoString
  path : GoString
  value : GoValue
  type : Router.SNMPType
  writable : Bool

/-- `bindingCache`. -/
structure BindingCache where
  ds : Datastore
  generation : UInt64
  bindings : List Binding

/-- The rollback of a confirmed commit: the snapshot it puts back, and the number of the
request that took it. -/
structure Rollback where
  rpc : Nat
  snapshot : Values

/-- `pendingCommit`. -/
structure PendingCommit where
  seq : UInt64
  sessionID : UInt32
  rollback : Rollback

/-- `Confirmed`. -/
structure Confirmed where
  next : UInt64
  pend : Option PendingCommit

/-- What the sync manager remembers of the clock: whether it has read the state yet,
and the state. -/
structure ClockManager where
  known : Bool
  state : GoString

/-- The state the threads of a process share.  `requests` counts the commit requests that
have arrived; no program reads it, it tells the requests apart. -/
structure Machine (json : Json) where
  memory : Memory json
  bindCache : Option BindingCache
  confirmed : Confirmed
  clockManager : ClockManager
  requests : Nat

/-- A process next to a store, before anything has run. -/
def Machine.start {json : Json} (memory : Memory json) : Machine json :=
  { memory, bindCache := none, confirmed := ⟨0, none⟩, clockManager := ⟨false, []⟩, requests := 0 }

/-- One access to the surroundings of a program. -/
inductive Request where
  /-- `ctx.Err()`. -/
  | ctxErr
  | values (ds : Datastore)
  | generation (ds : Datastore)
  | snapshot
  | mutate (op : Mutation)
  /-- `Commit` on behalf of a confirmed commit, with the rollback it would arm. -/
  | commitConfirmed (rollback : Rollback)
  /-- `Restore` of the snapshot of a confirmed commit. -/
  | restore (rollback : Rollback)
  | cachedBindings (ds : Datastore) (generation : UInt64)
  | cacheBindings (cache : BindingCache)
  /-- The confirmed commit in progress. -/
  | pending
  /-- A new confirmed commit is in progress. -/
  | arm (sessionID : UInt32) (rollback : Rollback)
  /-- Whatever is in progress is final. -/
  | confirm
  /-- Take the rollback of the confirmed commit with the sequence number. -/
  | takeDue (seq : UInt64)
  /-- Take the rollback of the session's confirmed commit. -/
  | takeOwned (sessionID : UInt32)
  | clockManager
  | setClockManager (state : ClockManager)
  /-- A commit request arrives and is numbered. -/
  | issued (confirmed : Bool)
  /-- A commit request is answered. -/
  | returned (confirmed ok : Bool)

/-- What an access answers. -/
@[reducible]
def Request.Response : Request → Type
  | .ctxErr => Option Err
  | .values _ => Except Err Values
  | .generation _ => Except Err UInt64
  | .snapshot => Except Err Values
  | .mutate _ => Except Err Unit
  | .commitConfirmed _ => Except Err Unit
  | .restore _ => Except Err Unit
  | .cachedBindings _ _ => Option (List Binding)
  | .cacheBindings _ => Unit
  | .pending => Option PendingCommit
  | .arm _ _ => Unit
  | .confirm => Unit
  | .takeDue _ => Option Rollback
  | .takeOwned _ => Option Rollback
  | .clockManager => ClockManager
  | .setClockManager _ => Unit
  | .issued _ => Nat
  | .returned _ _ => Unit

/-- A program of the simulator. -/
abbrev Prog (α : Type) := Library.Program Mutex Request Request.Response α

/-- A single access. -/
abbrev ask (request : Request) : Prog request.Response :=
  .request request

namespace Machine

variable {json : Json}

/-- The memoized bindings, if they are those of the datastore at the generation. -/
def cached (machine : Machine json) (ds : Datastore) (generation : UInt64) :
    Option (List Binding) :=
  (machine.bindCache.filter fun cache => cache.ds = ds && cache.generation = generation).map
    BindingCache.bindings

/-- A machine with a new store, from the outcome of a store call. -/
def withOutcome (machine : Machine json) (outcome : Memory.Outcome json) :
    Except Err Unit × Machine json :=
  (outcome.1, { machine with memory := outcome.2 })

/-- Take the rollback of the confirmed commit in progress, if it is the one meant. -/
def take (machine : Machine json) (meant : PendingCommit → Bool) :
    Option Rollback × Machine json :=
  match machine.confirmed.pend with
  | some pend =>
    if meant pend then
      (some pend.rollback, { machine with confirmed := ⟨machine.confirmed.next, none⟩ })
    else (none, machine)
  | none => (none, machine)

/-- What an access does. -/
def handle (opts : Options) (env : CallEnv) :
    (request : Request) → Machine json → request.Response × Machine json
  | .ctxErr, machine => (env.ctx, machine)
  | .values ds, machine => (machine.memory.values env ds, machine)
  | .generation ds, machine => (machine.memory.generationOf env ds, machine)
  | .snapshot, machine => (machine.memory.snapshot env, machine)
  | .mutate op, machine => machine.withOutcome (machine.memory.mutate opts env op)
  | .commitConfirmed _, machine => machine.withOutcome (machine.memory.mutate opts env .commit)
  | .restore rollback, machine =>
    machine.withOutcome (machine.memory.restore opts env rollback.snapshot)
  | .cachedBindings ds generation, machine => (machine.cached ds generation, machine)
  | .cacheBindings cache, machine => ((), { machine with bindCache := some cache })
  | .pending, machine => (machine.confirmed.pend, machine)
  | .arm sessionID rollback, machine =>
    let seq := machine.confirmed.next + 1
    ((), { machine with confirmed := ⟨seq, some ⟨seq, sessionID, rollback⟩⟩ })
  | .confirm, machine => ((), { machine with confirmed := ⟨machine.confirmed.next, none⟩ })
  | .takeDue seq, machine => machine.take fun pend => pend.seq = seq
  | .takeOwned sessionID, machine => machine.take fun pend => pend.sessionID = sessionID
  | .clockManager, machine => (machine.clockManager, machine)
  | .setClockManager state, machine => ((), { machine with clockManager := state })
  | .issued _, machine => (machine.requests, { machine with requests := machine.requests + 1 })
  | .returned _ _, machine => ((), machine)

/-- The accesses of a process, as the handler of its programs. -/
abbrev handler (json : Json) (opts : Options) :
    Library.Program.Handler Request Request.Response CallEnv (Machine json) :=
  handle opts

/-- The three datastores of a machine. -/
abbrev contents (machine : Machine json) : Contents :=
  machine.memory.contents

end Machine

/-- Run a program alone, with the surroundings of its calls in order. -/
def Prog.run {α : Type} {json : Json} (opts : Options) (program : Prog α)
    (env : Nat → CallEnv) (machine : Machine json) : α × Machine json :=
  let done := program.exec (Machine.handle opts) env machine
  (done.1, done.2.2)

end TriadSim

import TriadSim.Gnmi.Events

/-!
# gNMI Subscribe

`internal/gnmi/subscribe.go`: a stream reads and sends one snapshot for each of its paths,
sends the sync response, registers on the event bus, and then answers one event after another
by reading the matching paths again.  The handler is a machine that takes one visible action
in each step, so that the writers of the store and the publishers of the bus can come in
between any two of them.
-/

namespace TriadSim
namespace Gnmi

open Datatree Events Go Library Router Store

/-! ## The handler -/

/-- `gnmi.SubscribeResponse`. -/
inductive Response (Raw : Type) where
  | update (found : Notification Raw)
  | sync

/-- What the handler does next. -/
inductive Phase (Raw : Type) where
  /-- Read the snapshots of some paths. -/
  | snapshots (todo : List GoString)
  /-- Send a snapshot. -/
  | sendSnapshot (found : Notification Raw) (todo : List GoString)
  /-- Send the sync response. -/
  | sync
  /-- Register on the bus. -/
  | register
  /-- Wait for an event, after a number of them. -/
  | wait (channel handled : Nat)
  /-- Read some targets for an event. -/
  | notify (channel handled : Nat) (event : Events.Event) (todo : List GoString)
  /-- Send what was read for an event. -/
  | sendUpdate (channel handled : Nat) (event : Events.Event) (target : GoString)
      (found : Notification Raw) (todo : List GoString)
  | ended (result : Except Status Unit)

/-- What a stream was opened with. -/
structure Stream where
  paths : List GoString
  encoding : Encoding
  once : Bool

/-- The store, the bus and one stream. -/
structure World (json : Json) where
  machine : Machine json
  bus : Bus
  phase : Phase json.Raw

/-- What can be seen of a step: what the handler reads, sends and receives, and what goes on
around it. -/
inductive Label (Raw : Type) where
  /-- The snapshot of a path was read. -/
  | readSnapshot (path : GoString) (found : Option (Notification Raw))
  | sent (response : Response Raw)
  | registered
  /-- The event of some number was received. -/
  | received (number : Nat) (event : Events.Event)
  /-- A target was read for the event of some number. -/
  | readTarget (number : Nat) (target : GoString) (found : Option (Notification Raw))
  /-- A target was notified of the event of some number. -/
  | notified (number : Nat) (target : GoString) (found : Notification Raw)
  /-- The handler went on. -/
  | moved
  | published (event : Events.Event)
  /-- Somebody else did something. -/
  | other

/-- A step of the handler. -/
def Label.isHandler {Raw : Type} : Label Raw → Bool
  | .published _ => false
  | .other => false
  | _ => true

/-- The surroundings of a step of the handler: those of the calls to the store, and what the
transport answers to a send. -/
structure StreamEnv where
  calls : Nat → CallEnv
  send : Option Err

section Handler

variable {json : Json}

/-- Leave the handler; a registered channel is given back. -/
def World.leave (world : World json) (channel : Option Nat) (result : Except Status Unit) :
    World json :=
  { world with
    bus := channel.elim world.bus fun number => (world.bus.unsubscribe number).2
    phase := .ended result }

/-- Send a response and go on. -/
def World.send (world : World json) (env : StreamEnv) (channel : Option Nat)
    (label : Label json.Raw) (next : Phase json.Raw) : Label json.Raw × World json :=
  match env.send with
  | some err => (.moved, world.leave channel (.error (statusError err)))
  | none => (label, { world with phase := next })

/-- Read a path and go on. -/
def World.look (opts : Options) (r : Router) (stream : Stream) (world : World json)
    (env : StreamEnv) (channel : Option Nat) (target : GoString)
    (label : Option (Notification json.Raw) → Label json.Raw)
    (next : Option (Notification json.Raw) → Phase json.Raw) : Label json.Raw × World json :=
  let done := (notification r json target .all stream.encoding).run opts env.calls world.machine
  match done.1 with
  | .error status => (.moved, { world with machine := done.2 }.leave channel (.error status))
  | .ok found => (label found, { world with machine := done.2, phase := next found })

/-- One step of `subscribeOnce` or `subscribeOnChange`.  The handler is blocked while it waits
on an empty channel, and has no step once it has returned. -/
def World.step (opts : Options) (r : Router) (stream : Stream) (env : StreamEnv)
    (world : World json) : Option (Label json.Raw × World json) :=
  match world.phase with
  | .snapshots [] => some (.moved, { world with phase := .sync })
  | .snapshots (path :: todo) =>
    some (world.look opts r stream env none path (.readSnapshot path) fun found =>
      found.elim (.snapshots todo) fun found => .sendSnapshot found todo)
  | .sendSnapshot found todo => some (world.send env none (.sent (.update found)) (.snapshots todo))
  | .sync =>
    some (world.send env none (.sent .sync)
      (if stream.once then .ended (.ok ()) else .register))
  | .register =>
    some (.registered, { world with
      bus := world.bus.subscribe.2, phase := .wait world.bus.subscribe.1 0 })
  | .wait channel handled =>
    match world.bus.channels[channel]?.map Chan.receive with
    | some (.value event rest) =>
      some (.received handled event, { world with
        bus := world.bus.taken channel rest
        phase := .notify channel handled event (eventTargets stream.paths event) })
    | some .closed => some (.moved, world.leave (some channel) (.ok ()))
    | _ => none
  | .notify channel handled _ [] =>
    some (.moved, { world with phase := .wait channel (handled + 1) })
  | .notify channel handled event (target :: todo) =>
    some (world.look opts r stream env (some channel) target (.readTarget handled target)
      fun found => found.elim (.notify channel handled event todo) fun found =>
        .sendUpdate channel handled event target found todo)
  | .sendUpdate channel handled event target found todo =>
    some (world.send env (some channel) (.notified handled target found)
      (.notify channel handled event todo))
  | .ended _ => none

/-- What goes on around the handler. -/
inductive Other (json : Json) where
  /-- Somebody writes the store. -/
  | write (machine : Machine json)
  | publish (event : Events.Event)
  /-- Other subscribers come, go and receive. -/
  | subscribe
  | unsubscribe (channel : Nat)
  | receive (channel : Nat)
  | closeBus
  /-- The client goes away while the handler waits. -/
  | cancel

/-- The channel of a registered handler. -/
def Phase.channel {Raw : Type} : Phase Raw → Option Nat
  | .wait channel _ => some channel
  | .notify channel .. => some channel
  | .sendUpdate channel .. => some channel
  | _ => none

/-- One step of the surroundings.  A channel is used by its own subscriber only. -/
def World.around (world : World json) : Other json → Option (Label json.Raw × World json)
  | .write machine => some (.other, { world with machine := machine })
  | .publish event => some (.published event, { world with bus := world.bus.publish event })
  | .subscribe => some (.other, { world with bus := world.bus.subscribe.2 })
  | .unsubscribe channel =>
    if world.phase.channel = some channel then none
    else some (.other, { world with bus := (world.bus.unsubscribe channel).2 })
  | .receive channel =>
    if world.phase.channel = some channel then none
    else
      match world.bus.channels[channel]?.map Chan.receive with
      | some (.value _ rest) => some (.other, { world with bus := world.bus.taken channel rest })
      | _ => none
  | .closeBus => some (.other, { world with bus := world.bus.close })
  | .cancel =>
    match world.phase with
    | .wait channel _ => some (.other, world.leave (some channel) (.ok ()))
    | _ => none

/-- A step of the handler or of its surroundings. -/
inductive Action (json : Json) where
  | handler (env : StreamEnv)
  | around (other : Other json)

def World.act (opts : Options) (r : Router) (stream : Stream) (world : World json) :
    Action json → Option (Label json.Raw × World json)
  | .handler env => world.step opts r stream env
  | .around other => world.around other

/-- An interleaving, with what can be seen of it. -/
def World.run (opts : Options) (r : Router) (stream : Stream) :
    List (Action json) → World json → Option (List (Label json.Raw) × World json)
  | [], world => some ([], world)
  | action :: rest, world => do
      let (label, next) ← world.act opts r stream action
      let (labels, last) ← next.run opts r stream rest
      return (label :: labels, last)

end Handler

end Gnmi
end TriadSim

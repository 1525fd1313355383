import TriadSim.Router.Ops

/-!
# The PTP clock

`internal/sync`: the state machine of the clock.  The manager keeps the state of its own
and writes every change to `ptp/clock/state` first; it adopts what the datastore holds
when it has not seen a state yet.  Everything runs under the lock of the manager.
-/

namespace TriadSim
namespace Sync

open Go Model Router

/-- `State`. -/
abbrev State := GoString

def stateFreerun : State := "freerun"
def stateAcquiring : State := "acquiring"
def stateLocked : State := "locked"
def stateHoldoverInSpec : State := "holdover-in-spec"
def stateHoldoverOutOfSpec : State := "holdover-out-of-spec"

/-- `validState`. -/
def validState (state : State) : Bool :=
  state = stateFreerun || state = stateAcquiring || state = stateLocked ||
    state = stateHoldoverInSpec || state = stateHoldoverOutOfSpec

/-- `EventType`; a name that the machine does not know stays as it is. -/
inductive EventType where
  | sourceDetected
  | calibrationComplete
  | sourceLost
  | sourceRestored
  | holdoverExpired
  | reset
  | unknown (name : GoString)
  deriving DecidableEq, Repr

/-- `nextState`; an undefined pair has none. -/
def nextState (source : State) : EventType → Option State
  | .sourceDetected => if source = stateFreerun then some stateAcquiring else none
  | .calibrationComplete => if source = stateAcquiring then some stateLocked else none
  | .sourceLost =>
    if source = stateLocked then some stateHoldoverInSpec
    else if source = stateAcquiring then some stateFreerun
    else none
  | .holdoverExpired =>
    if source = stateHoldoverInSpec then some stateHoldoverOutOfSpec else none
  | .sourceRestored =>
    if source = stateHoldoverInSpec || source = stateHoldoverOutOfSpec then some stateLocked
    else none
  | .reset => if source = stateFreerun then none else some stateFreerun
  | .unknown _ => none

/-- A transition leads to a state of the model. -/
theorem validState_of_nextState_eq_some {source next : State} {type : EventType}
    (hNext : nextState source type = some next) : validState next = true := by
  cases type with
  | unknown name => cases hNext
  | _ =>
    simp only [nextState] at hNext
    split at hNext <;> first
      | (cases hNext; rfl)
      | (split at hNext <;> first | (cases hNext; rfl) | cases hNext)
      | cases hNext

/-- The path of the stored clock state. -/
def statePath : GoString := "ptp/clock/state"

/-- A step that may fail; the answer of the machine is then the state it still has. -/
def orState {α : Type} (step : Prog (Except Err α)) (state : State) (context : GoString)
    (next : α → Prog (State × Option Err)) : Prog (State × Option Err) :=
  step.bind fun
    | .error err => .ret (state, some (.text context ++ err))
    | .ok value => next value

/-- `adopt`: the state of a device, for a manager that has not seen one yet. -/
def adopted (manager : ClockManager) (device : Device) : ClockManager :=
  if manager.known then manager
  else if validState device.ptp.state then ⟨true, device.ptp.state⟩
  else ⟨true, stateFreerun⟩

/-- `adopt` as a step. -/
def adopt (device : Device) : Prog ClockManager :=
  .call .clockManager fun manager =>
    .call (.setClockManager (adopted manager device)) fun () => .ret (adopted manager device)

/-- `ensureState`, which goes on with the manager. -/
def ensureState (r : Router) (next : ClockManager → Prog (State × Option Err)) :
    Prog (State × Option Err) :=
  .call .clockManager fun manager =>
    if manager.known then next manager
    else orState (r.snapshot .running) manager.state "sync: " fun device =>
      (adopt device).bind next

/-- The write of a transition: the datastore, then the manager. -/
def writeState (r : Router) (manager : ClockManager) (next : State) :
    Prog (State × Option Err) :=
  orState (r.setState statePath (.leaf (.string next))) manager.state
    ("sync: write " ++ statePath ++ ": ") fun _ =>
      .call (.setClockManager ⟨manager.known, next⟩) fun () => .ret (next, none)

/-- `transition`: entering holdover reads the device before anything is written. -/
def transition (r : Router) (manager : ClockManager) (next : State) :
    Prog (State × Option Err) :=
  if next = stateHoldoverInSpec then
    orState (r.snapshot .running) manager.state "sync: " fun _ => writeState r manager next
  else writeState r manager next

/-- What `handleLocked` does with an event once the manager knows its state. -/
def takeEvent (r : Router) (type : EventType) (manager : ClockManager) :
    Prog (State × Option Err) :=
  match nextState manager.state type with
  | none => .ret (manager.state, none)
  | some next =>
    if next = manager.state then .ret (manager.state, none) else transition r manager next

/-- `handleLocked`. -/
def handleLocked (r : Router) (type : EventType) : Prog (State × Option Err) :=
  match type with
  | .unknown name =>
    .call .clockManager fun manager =>
      .ret (manager.state, some (.sentinel (.external "sync: unknown event") ++ .text ": " ++
        .piece (.quoted name)))
  | _ => ensureState r (takeEvent r type)

/-- `Handle`. -/
def handle (r : Router) (type : EventType) : Prog (State × Option Err) :=
  .locked .syncManager (handleLocked r type)

/-- `SyncLoss`. -/
def syncLoss (r : Router) (source : GoString) : Prog (State × Option Err) :=
  .locked .syncManager <|
    if source = [] then handleLocked r .sourceLost
    else
      .call .clockManager fun manager =>
        orState (r.snapshot .running) manager.state "sync: " fun device =>
          if device.syncE.interfaces.any fun interface => interface.name = source then
            (adopt device).bind fun _ => handleLocked r .sourceLost
          else
            .ret (manager.state, some (.sentinel (.external "sync: unknown source") ++
              .text ": " ++ .piece (.quoted source)))

/-- `expireHoldover`. -/
def expireHoldover (r : Router) : Prog (State × Option Err) :=
  .locked .syncManager <| .call .clockManager fun manager =>
    if manager.state = stateHoldoverInSpec then handleLocked r .holdoverExpired
    else .ret (manager.state, none)

/-- `reconcilePTP`, with the snapshot a tick begins with: a free-running master locks to
its own reference. -/
def reconcilePTP (r : Router) : Prog (State × Option Err) :=
  .locked .syncManager <| .call .clockManager fun manager =>
    orState (r.snapshot .running) manager.state "sync: " fun device =>
      (adopt device).bind fun manager =>
        if device.ptp.mode = "master" && manager.state = stateFreerun then
          (handleLocked r .sourceDetected).bind fun
            | (state, some err) => .ret (state, some err)
            | (_, none) => handleLocked r .calibrationComplete
        else .ret (manager.state, none)

end Sync
end TriadSim

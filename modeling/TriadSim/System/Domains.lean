import TriadSim.System.Activities

/-!
# What the programs of the domains can do

The domains read running through the router and write state leaves one at a time.
-/

namespace TriadSim

open Go Library Model Router Store

section Only

variable {calls : Request → Prop} {locks : Mutex → Prop} {r : Router}
  (hReads : ∀ request, request.Reads → calls request)
include hReads

theorem only_snapshot {ds : Datastore} : (r.snapshot ds).Only calls locks fun _ => True :=
  only_andThen (fun _ => True)
    (only_checkCtx hReads (only_ask (hReads _ trivial) fun _ => trivial) fun _ => trivial)
    (fun _ _ => trivial) fun _ => trivial

theorem only_setState {path : GoString} {value : GoValue}
    (hSet : ∀ converted, r.convertTo true path value = .ok converted →
      calls (.mutate (.set .running converted.path (.leaf converted.value)))) :
    (r.setState path value).Only calls locks fun _ => True := by
  refine only_checkCtx hReads (only_andThen_ret ?_ fun _ => trivial) fun _ => trivial
  intro converted hConvert
  exact only_andThen (fun _ => True) (only_ask (hSet converted hConvert) fun _ => trivial)
    (fun _ _ => trivial) fun _ => trivial

theorem only_deleteState {path : GoString}
    (hDelete : ∀ located, r.locate path = .ok located →
      calls (.mutate (.delete .running located.1))) :
    (r.deleteState path).Only calls locks fun _ => True := by
  refine only_checkCtx hReads (only_andThen_ret ?_ fun _ => trivial) fun _ => trivial
  intro located hLocate
  refine ⟨hDelete located hLocate, ?_⟩
  intro response
  cases response with
  | error err | ok done => trivial

/-! ## Counters -/

/-- The loop over the counters, by induction on what is left of them. -/
theorem only_writeCounters {port : GoString} (fields : List (GoString × Leaf))
    (hSet : ∀ name value converted,
      r.convertTo true (L2.counterPath port name) value = .ok converted →
        calls (.mutate (.set .running converted.path (.leaf converted.value)))) :
    (L2.writeCounters r port fields).Only calls locks fun _ => True := by
  induction fields with
  | nil => trivial
  | cons field rest ih =>
    refine (only_setState hReads (hSet field.1 (.leaf field.2))).bind ?_
    intro result _
    cases result with
    | error err => trivial
    | ok converted => exact ih

theorem only_increment {port : GoString} {delta : InterfaceCounters}
    (hLock : locks .l2Manager)
    (hSet : ∀ name value converted,
      r.convertTo true (L2.counterPath port name) value = .ok converted →
        calls (.mutate (.set .running converted.path (.leaf converted.value)))) :
    (L2.increment r port delta).Only calls locks fun _ => True := by
  refine Program.Only.locked hLock (only_andThen (fun _ => True) ?_ ?_ fun _ => trivial)
  · refine (only_snapshot hReads).bind ?_
    intro result _
    cases result with
    | error err | ok device => trivial
  · intro current _
    exact only_writeCounters hReads _ hSet

end Only

/-! ## The clock -/

namespace Sync

section Only

variable {calls : Request → Prop} {locks : Mutex → Prop} {r : Router}

theorem only_orState {α : Type} {step : Prog (Except Err α)} {state : State} {context : GoString}
    {next : α → Prog (State × Option Err)} (hStep : step.Only calls locks fun _ => True)
    (hNext : ∀ value, (next value).Only calls locks fun _ => True) :
    (orState step state context next).Only calls locks fun _ => True := by
  refine hStep.bind ?_
  intro result _
  cases result with
  | error err => trivial
  | ok value => exact hNext value

variable (hReads : ∀ request, request.Reads → calls request) (hManager : calls .clockManager)
  (hSetManager : ∀ manager, calls (.setClockManager manager))
  (hSet : ∀ value converted, r.convertTo true statePath value = .ok converted →
    calls (.mutate (.set .running converted.path (.leaf converted.value))))

include hManager hSetManager in
theorem only_adopt {device : Device} : (adopt device).Only calls locks fun _ => True :=
  ⟨hManager, fun _ => ⟨hSetManager _, fun _ => trivial⟩⟩

include hReads hSetManager hSet in
theorem only_transition {manager : ClockManager} {next : State} :
    (transition r manager next).Only calls locks fun _ => True := by
  have hWrite : (writeState r manager next).Only calls locks fun _ => True :=
    only_orState (only_setState hReads (hSet _)) fun _ => ⟨hSetManager _, fun _ => trivial⟩
  unfold transition
  split
  · exact only_orState (only_snapshot hReads) fun _ => hWrite
  · exact hWrite

include hReads hManager hSetManager hSet

theorem only_handleLocked {type : EventType} :
    (handleLocked r type).Only calls locks fun _ => True := by
  have hTurn : ∀ manager, (takeEvent r type manager).Only calls locks fun _ => True := by
    intro manager
    unfold takeEvent
    split
    · trivial
    · split
      · trivial
      · exact only_transition hReads hSetManager hSet
  have hKnown : (ensureState r (takeEvent r type)).Only calls locks fun _ => True := by
    refine ⟨hManager, ?_⟩
    intro manager
    dsimp only
    split
    · exact hTurn manager
    · refine only_orState (only_snapshot hReads) ?_
      intro device
      exact (only_adopt hManager hSetManager).bind fun manager _ => hTurn manager
  cases type with
  | unknown name => exact ⟨hManager, fun _ => trivial⟩
  | _ => exact hKnown

variable (hLock : locks .syncManager)
include hLock

theorem only_handle {type : EventType} : (handle r type).Only calls locks fun _ => True :=
  Program.Only.locked hLock (only_handleLocked hReads hManager hSetManager hSet)

theorem only_syncLoss {source : GoString} :
    (syncLoss r source).Only calls locks fun _ => True := by
  refine Program.Only.locked hLock ?_
  split
  · exact only_handleLocked hReads hManager hSetManager hSet
  · refine ⟨hManager, fun manager => only_orState (only_snapshot hReads) ?_⟩
    intro device
    split
    · exact (only_adopt hManager hSetManager).bind fun _ _ =>
        only_handleLocked hReads hManager hSetManager hSet
    · trivial

theorem only_expireHoldover : (expireHoldover r).Only calls locks fun _ => True := by
  refine Program.Only.locked hLock ⟨hManager, ?_⟩
  intro manager
  dsimp only
  split
  · exact only_handleLocked hReads hManager hSetManager hSet
  · trivial

theorem only_reconcilePTP : (reconcilePTP r).Only calls locks fun _ => True := by
  refine Program.Only.locked hLock ⟨hManager, fun manager => only_orState (only_snapshot hReads) ?_⟩
  intro device
  refine (only_adopt hManager hSetManager).bind ?_
  intro manager _
  split
  · refine (only_handleLocked hReads hManager hSetManager hSet).bind ?_
    rintro ⟨state, err⟩ _
    cases err with
    | some err => trivial
    | none => exact only_handleLocked hReads hManager hSetManager hSet
  · trivial

end Only

end Sync

end TriadSim

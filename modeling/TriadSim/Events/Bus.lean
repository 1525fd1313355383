import TriadSim.Go.Chan
import TriadSim.Go.Text

/-!
# The event bus

`internal/event`: events, and the bus that hands each one to every subscriber it has at that
moment.  A subscriber whose buffer is full loses the event.
-/

namespace TriadSim
namespace Events

open Go

/-- `EventType`. -/
inductive EventType where
  | alarmRaised
  | alarmCleared
  | configChanged
  | stateTransition
  deriving DecidableEq, Repr

/-- `Event`, without its message and its time stamp. -/
structure Event where
  type : EventType
  resource : GoString
  severity : GoString := []
  domain : GoString := []
  alarm : GoString := []
  fromState : GoString := []
  toState : GoString := []
  deriving DecidableEq, Repr

def domainRadio : GoString := "radio"
def domainL2 : GoString := "l2"
def domainSync : GoString := "sync"

def alarmRadioLinkDown : GoString := "radioLinkDown"
def alarmRadioLinkDegraded : GoString := "radioLinkDegraded"
def alarmL2Storm : GoString := "l2Storm"
def alarmSyncHoldover : GoString := "syncHoldover"

/-- `DefaultBuffer`. -/
def defaultBuffer : Nat := 64

/-- `Bus`.  Every channel that `Subscribe` returned is kept under its number; the registered
ones are those that are open. -/
structure Bus where
  channels : List (Chan Event)
  buffer : Nat
  closed : Bool
  deriving Repr

namespace Bus

/-- `New`. -/
def new (bufferSize : Int) : Bus :=
  ⟨[], if bufferSize ≤ 0 then defaultBuffer else bufferSize.toNat, false⟩

/-- `Publish`. -/
def publish (bus : Bus) (event : Event) : Bus :=
  if bus.closed then bus
  else { bus with channels := bus.channels.map fun channel => channel.trySend bus.buffer event }

/-- `Subscribe`: the number of the new channel. -/
def subscribe (bus : Bus) : Nat × Bus :=
  (bus.channels.length,
    { bus with channels := bus.channels ++ [if bus.closed then Chan.new.close else Chan.new] })

/-- `Unsubscribe`. -/
def unsubscribe (bus : Bus) (number : Nat) : Bool × Bus :=
  ((bus.channels[number]?.map Chan.isOpen).getD false,
    { bus with channels := bus.channels.modify number Chan.close })

/-- `Close`. -/
def close (bus : Bus) : Bus :=
  { bus with channels := bus.channels.map Chan.close, closed := true }

/-- The bus after the subscriber of a channel has taken a value from it. -/
def taken (bus : Bus) (number : Nat) (rest : Chan Event) : Bus :=
  { bus with channels := bus.channels.set number rest }

/-! ## One channel -/

section Channel

variable {bus : Bus} {number other : Nat}

theorem getElem?_publish (hOpen : bus.closed = false) (event : Event) :
    (bus.publish event).channels[number]? =
      bus.channels[number]?.map fun channel => channel.trySend bus.buffer event := by
  simp [publish, hOpen]

theorem publish_of_closed (hClosed : bus.closed = true) (event : Event) :
    bus.publish event = bus := by
  simp [publish, hClosed]

theorem getElem?_subscribe {channel : Chan Event}
    (hChannel : bus.channels[number]? = some channel) :
    bus.subscribe.2.channels[number]? = some channel := by
  obtain ⟨hLess, _⟩ := List.getElem?_eq_some_iff.mp hChannel
  rw [subscribe, List.getElem?_append_left hLess, hChannel]

theorem getElem?_unsubscribe (hOther : other ≠ number) :
    (bus.unsubscribe other).2.channels[number]? = bus.channels[number]? :=
  List.getElem?_modify_ne _ _ hOther

theorem getElem?_taken (hOther : other ≠ number) (rest : Chan Event) :
    (bus.taken other rest).channels[number]? = bus.channels[number]? := by
  rw [taken, List.getElem?_set_ne hOther]

theorem getElem?_taken_self {channel : Chan Event} (hChannel : bus.channels[number]? = some channel)
    (rest : Chan Event) : (bus.taken number rest).channels[number]? = some rest := by
  obtain ⟨hLess, _⟩ := List.getElem?_eq_some_iff.mp hChannel
  rw [taken, List.getElem?_set_self hLess]

theorem getElem?_close :
    bus.close.channels[number]? = bus.channels[number]?.map Chan.close := by
  rw [close, List.getElem?_map]

end Channel

end Bus
end Events
end TriadSim

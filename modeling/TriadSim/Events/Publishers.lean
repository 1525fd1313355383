import TriadSim.Events.Bus
import TriadSim.L2.Stp
import TriadSim.Sync.Ptp

/-!
# What the domains publish

The events of `internal/l2/stp.go` and `storm.go`, `internal/radio/alarms.go` and
`internal/sync/ptp.go`, next to the paths of the leaves that each domain writes before it
publishes them.
-/

namespace TriadSim

open Go

namespace L2

open Events

/-- The event of `transition`, for a port that enters a new role or phase. -/
def transitionEvent (port source target : GoString) : Event where
  type := .stateTransition
  resource := "l2/stp/" ++ port
  domain := domainL2
  fromState := source
  toState := target

/-- `reportStorm`: an alarm that changes is raised or cleared. -/
def reportStorm (port : GoString) (previous storming : Bool) : List Event :=
  if previous = storming then []
  else if storming then
    [{ type := .alarmRaised, resource := "l2/storm/" ++ port, severity := "major",
       domain := domainL2, alarm := alarmL2Storm }]
  else
    [{ type := .alarmCleared, resource := "l2/storm/" ++ port, severity := "cleared",
       domain := domainL2, alarm := alarmL2Storm }]

end L2

namespace Radio

open Events

def radioLinkStateDegraded : GoString := "degraded"
def radioLinkStateDown : GoString := "down"

/-- `linkPath`. -/
def linkPath (ifaceName suffix : GoString) : GoString :=
  "interfaces/interface[name=" ++ ifaceName ++ "]/radio-link/" ++ suffix

/-- The alarm that a link has in a state, and how severe it is. -/
def alarmOf (state : GoString) : Option (GoString × GoString) :=
  if state = radioLinkStateDown then some (alarmRadioLinkDown, "critical")
  else if state = radioLinkStateDegraded then some (alarmRadioLinkDegraded, "major")
  else none

/-- `report`: the alarm the link leaves is cleared, then the one it enters is raised. -/
def report (name current next : GoString) : List Event :=
  (alarmOf current).toList.map (fun alarm =>
    { type := .alarmCleared, resource := name, severity := "cleared", domain := domainRadio,
      alarm := alarm.1 }) ++
  (alarmOf next).toList.map fun alarm =>
    { type := .alarmRaised, resource := name, severity := alarm.2, domain := domainRadio,
      alarm := alarm.1 }

end Radio

namespace Sync

open Events

/-- The events of `transition`. -/
def transitionEvents (source next : State) : List Event :=
  { type := .stateTransition, resource := "ptp/clock", domain := domainSync, fromState := source,
    toState := next } ::
  if next = stateHoldoverOutOfSpec then
    [{ type := .alarmRaised, resource := "ptp/clock", severity := "major", domain := domainSync,
       alarm := alarmSyncHoldover }]
  else if source = stateHoldoverOutOfSpec then
    [{ type := .alarmCleared, resource := "ptp/clock", severity := "cleared",
       domain := domainSync, alarm := alarmSyncHoldover }]
  else []

end Sync

namespace Events

/-- A change that a domain has made and tells about. -/
inductive Publication where
  /-- A bridge port has a new role or phase. -/
  | bridgePort (port source target : GoString)
  /-- Frames were counted on an interface, and the storm alarm is reported. -/
  | interface (port : GoString) (sum : Model.InterfaceCounters) (previous storming : Bool)
  /-- A radio link has a new state. -/
  | radioLink (name current next : GoString)
  /-- The clock has a new state. -/
  | clock (source next : Sync.State)

namespace Publication

/-- What is published. -/
def events : Publication → List Event
  | bridgePort port source target => [L2.transitionEvent port source target]
  | interface port _ previous storming => L2.reportStorm port previous storming
  | radioLink name current next => Radio.report name current next
  | clock source next => Sync.transitionEvents source next

/-- The leaves that are written just before. -/
def writes : Publication → List GoString
  | bridgePort port _ _ => [L2.stpPortPath port "role", L2.stpPortPath port "state"]
  | interface port sum _ _ => (L2.counterFields sum).map fun field => L2.counterPath port field.1
  | radioLink name _ _ => [Radio.linkPath name "link-state"]
  | clock _ _ => [Sync.statePath]

/-- The model node that the written leaves belong to. -/
def node : Publication → GoString
  | bridgePort port _ _ => L2.stpPrefix ++ "/ports/port[port=" ++ port ++ "]"
  | interface port _ _ _ => "interfaces/interface[name=" ++ port ++ "]"
  | radioLink name _ _ => "interfaces/interface[name=" ++ name ++ "]/radio-link"
  | clock _ _ => "ptp/clock"

/-- The port, the interface or the link that it is about. -/
def subject : Publication → Option GoString
  | bridgePort port _ _ => some port
  | interface port _ _ _ => some port
  | radioLink name _ _ => some name
  | clock _ _ => none

end Publication
end Events
end TriadSim

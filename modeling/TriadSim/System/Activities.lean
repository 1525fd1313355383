import TriadSim.L2.Counters
import TriadSim.Sync.Ptp
import TriadSim.System.Transactions

/-!
# The activities of a running simulator

Everything that happens in a process is one of these activities: a request of a
management plane, a timer that fires, the end of a session, a step of a domain.  A
session handles its requests one after another, so an interleaving of sessions is in
particular an interleaving of their requests.
-/

namespace TriadSim

open Datatree Go Library Router Store

inductive Activity where
  /-- An edit through RESTCONF or gNMI, or an SNMP SET. -/
  | transaction (op : Transaction)
  | editConfig (target : Datastore) (req : EditRequest)
  | discardChanges
  | commit
  | confirmedCommit (sessionID : UInt32)
  | sessionEnded (sessionID : UInt32)
  /-- The timer of a confirmed commit fires. -/
  | timer (seq : UInt64)
  /-- A domain writes or deletes a state leaf. -/
  | setState (path : GoString) (value : GoValue)
  | deleteState (path : GoString)
  | increment (port : GoString) (delta : Model.InterfaceCounters)
  /-- The clock reacts to an event, to the loss of a source, to the end of its holdover or
  to a tick. -/
  | clockEvent (type : Sync.EventType)
  | syncLoss (source : GoString)
  | expireHoldover
  | reconcilePTP

/-- An activity that is no commit and no end of one. -/
def Activity.isPlain : Activity → Bool
  | commit => false
  | confirmedCommit _ => false
  | sessionEnded _ => false
  | timer _ => false
  | _ => true

/-- What an activity ends with. -/
inductive Outcome where
  | answered (answer : Answer)
  | done (result : Except Err Unit)
  | wrote (result : Except Err Result)
  | clock (state : Sync.State) (err : Option Err)

/-- The program of an activity. -/
def Activity.program (r : Router) : Activity → Prog Outcome
  | transaction op => (op.program r).bind fun answer => .ret (.answered answer)
  | editConfig target req =>
    (Netconf.editConfig r target req).bind fun result => .ret (.done result)
  | discardChanges => Netconf.discardChanges.bind fun result => .ret (.done result)
  | commit => Netconf.commit.bind fun result => .ret (.done result)
  | confirmedCommit sessionID =>
    (Netconf.commitConfirmed sessionID).bind fun result => .ret (.done result)
  | sessionEnded sessionID =>
    (Netconf.sessionEnded sessionID).bind fun result => .ret (.done result)
  | timer seq => (Netconf.fire seq).bind fun result => .ret (.done result)
  | setState path value => (r.setState path value).bind fun result => .ret (.wrote result)
  | deleteState path => (r.deleteState path).bind fun result => .ret (.done result)
  | increment port delta => (L2.increment r port delta).bind fun result => .ret (.done result)
  | clockEvent type => (Sync.handle r type).bind fun answer => .ret (.clock answer.1 answer.2)
  | syncLoss source => (Sync.syncLoss r source).bind fun answer => .ret (.clock answer.1 answer.2)
  | expireHoldover => (Sync.expireHoldover r).bind fun answer => .ret (.clock answer.1 answer.2)
  | reconcilePTP => (Sync.reconcilePTP r).bind fun answer => .ret (.clock answer.1 answer.2)

/-- The threads of a process, each with its activity, on one machine. -/
def activitySystem {ι : Type} {json : Json} (r : Router) (activities : ι → Activity)
    (envs : ι → Nat → CallEnv) (machine : Machine json) :
    System ι Mutex Request Request.Response CallEnv (Machine json) Outcome :=
  System.start (fun thread => (activities thread).program r) envs machine

/-- A candidate with a VLAN that is not in running yet. -/
def labContent : Values :=
  (bareContent.insert (text "vlans/vlan[id=10]/id") (.uint16 10)).insert
    (text "vlans/vlan[id=10]/name") (.string "lab")

/-- Running holds the bare content and candidate the new VLAN. -/
def labMachine : Machine Json.plain :=
  Machine.start { newMemory none with running := bareContent, candidate := labContent }

/-- Activities on that process, in quiet surroundings. -/
def labSystem {n : Nat} (activities : Fin n → Activity) :
    System (Fin n) Mutex Request Request.Response CallEnv (Machine Json.plain) Outcome :=
  activitySystem defaultRouter activities (fun _ _ => CallEnv.quiet) labMachine

/-- What the calls of such activities do, without a startup file. -/
abbrev labHandle : Program.Handler Request Request.Response CallEnv (Machine Json.plain) :=
  Machine.handle (defaultRouter.options [])

end TriadSim

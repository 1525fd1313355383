import TriadSim.L2.Tables

/-!
# The spanning-tree machine

`internal/l2/stp.go` and the `Tick` of the manager: an input (a link change or a received BPDU)
sets the roles and the states of the bridge ports, and a port that does not forward yet is armed
with a deadline, after which a tick moves it on to the next phase.  The deadlines are the
manager's own and are passed in and out; every reading of the clock within one call is the same.
-/

namespace TriadSim
namespace L2

open Go Model Router

def errSTPDisabled : Sentinel := .external "stp is disabled"

/-- `stpPrefix`. -/
def stpPrefix : GoString := "stp/state"

/-- `stpPath`. -/
def stpPath (leaf : GoString) : GoString :=
  stpPrefix ++ "/" ++ leaf

/-- `stpPortPath`. -/
def stpPortPath (port leaf : GoString) : GoString :=
  stpPrefix ++ "/ports/port[port=" ++ port ++ "]/" ++ leaf

/-- `STPEventKind`; a name that the machine does not know stays as it is. -/
inductive STPEventKind where
  | linkUp
  | linkDown
  | bpdu
  | unknown (name : GoString)
  deriving DecidableEq, Repr

/-- `STPEvent`. -/
structure STPEvent where
  kind : STPEventKind
  port : GoString
  rootID : GoString
  rootPriority : UInt16
  pathCost : UInt32

/-- `STPPhase`. -/
inductive STPPhase where
  | disabled
  | blocking
  | listening
  | learning
  | forwarding
  deriving DecidableEq, Repr

/-- The text of a phase. -/
def STPPhase.text : STPPhase → GoString
  | disabled => "disabled"
  | blocking => "blocking"
  | listening => "listening"
  | learning => "learning"
  | forwarding => "forwarding"

/-- `stpDeadline`. -/
structure STPDeadline where
  due : Time
  phase : STPPhase
  deriving DecidableEq, Repr

/-- `stpPending`. -/
abbrev Pending := Std.ExtTreeMap GoString STPDeadline

/-- What the manager remembers between two calls. -/
structure Manager where
  lastAging : Option Time
  stpPending : Pending

def roleRoot : GoString := "root"
def roleDesignated : GoString := "designated"
def roleAlternate : GoString := "alternate"

/-- `stateName`. -/
def stateName (protocol : GoString) (phase : STPPhase) : GoString :=
  if protocol = text "rstp" then
    match phase with
    | .disabled | .blocking | .listening => "discarding"
    | _ => phase.text
  else phase.text

/-- `findSTPPort`. -/
def findSTPPort (ports : List STPPort) (port : GoString) : Option STPPort :=
  ports.find? fun candidate => candidate.port = port

/-- The zero value of a port. -/
def zeroSTPPort : STPPort :=
  ⟨[], [], [], 0, 0, false⟩

/-- `currentPort`. -/
def currentPort (state : STPState) (port : GoString) : STPPort :=
  (findSTPPort state.ports port).getD zeroSTPPort

/-- `normalizeMACString`. -/
def normalizeMACString (address : GoString) : GoString :=
  match normalizeMAC address with
  | .ok normal => normal
  | .error _ => address

/-- `compareBridgeID`. -/
def compareBridgeID (priority : UInt16) (address : GoString) (otherPriority : UInt16)
    (otherAddress : GoString) : Ordering :=
  if priority ≠ otherPriority then if priority < otherPriority then .lt else .gt
  else compare (normalizeMACString address) (normalizeMACString otherAddress)

/-- `scheduleSTP`. -/
def scheduleSTP (delay now : Time) (pending : Pending) (port : GoString) : STPPhase → Pending
  | .blocking | .listening => pending.insert port ⟨now + delay, .learning⟩
  | .learning => pending.insert port ⟨now + delay, .forwarding⟩
  | _ => pending.erase port

/-- The role and the state of the first port with a name, as `setSTPPort` keeps the snapshot in
step. -/
def updatePort (port role name : GoString) : List STPPort → List STPPort
  | [] => []
  | candidate :: rest =>
    if candidate.port = port then { candidate with role, state := name } :: rest
    else candidate :: updatePort port role name rest

/-- `setSTPPort`: the role is written before the state. -/
def setSTPPort (r : Router) (state : STPState) (port role name : GoString) :
    Prog (Except Err STPState) :=
  andThen (during ("l2: stp " ++ port ++ ": set role: ")
    (r.set .running (stpPortPath port "role") (.leaf (.string role)))) fun _ =>
    andThen (during ("l2: stp " ++ port ++ ": set state: ")
      (r.set .running (stpPortPath port "state") (.leaf (.string name)))) fun _ =>
      .ret (.ok { state with ports := updatePort port role name state.ports })

/-- The snapshot that a call works on and the deadlines. -/
structure Working where
  state : STPState
  pending : Pending

/-- The end of a step of the machine: its error, and what it has changed until then. -/
abbrev Stepped := Except Err Unit × Working

/-- Go on after a step that has succeeded. -/
def continued (step : Prog Stepped) (next : Working → Prog Stepped) : Prog Stepped :=
  step.bind fun
    | (.error err, work) => .ret (.error err, work)
    | (.ok (), work) => next work

/-- `transition`: a port that is in the target role and state already is left alone. -/
def transition (r : Router) (delay now : Time) (port role : GoString) (phase : STPPhase)
    (work : Working) : Prog Stepped :=
  let name := stateName work.state.protocol phase
  let current := currentPort work.state port
  if current.role = role ∧ current.state = name then .ret (.ok (), work)
  else (setSTPPort r work.state port role name).bind fun
    | .error err => .ret (.error err, work)
    | .ok state => .ret (.ok (), ⟨state, scheduleSTP delay now work.pending port phase⟩)

/-- The loop of `elect` over what is left of the ports of the bridge; the receiving port is
skipped. -/
def electOthers (r : Router) (delay now : Time) (receiver role : GoString) (phase : STPPhase) :
    List STPPort → Working → Prog Stepped
  | [], work => .ret (.ok (), work)
  | other :: rest, work =>
    if other.port = receiver then electOthers r delay now receiver role phase rest work
    else continued (transition r delay now other.port role phase work)
      (electOthers r delay now receiver role phase rest)

/-- `elect`; the cost wraps around. -/
def elect (r : Router) (delay now : Time) (event : STPEvent) (port : STPPort) (work : Working) :
    Prog Stepped :=
  let better := compareBridgeID event.rootPriority event.rootID work.state.bridgePriority
    work.state.bridgeAddress = .lt
  let rootID := if better then event.rootID else work.state.bridgeAddress
  let rootCost := if better then event.pathCost + port.pathCost else 0
  (andThen (state r (stpPath "root-id") (.string rootID)) fun () =>
    state r (stpPath "root-cost") (.uint32 rootCost)).bind fun
    | .error err => .ret (.error err, work)
    | .ok () =>
      let recorded := { work with state := { work.state with rootID, rootCost } }
      continued (electOthers r delay now port.port
          (if better then roleAlternate else roleDesignated)
          (if better then .blocking else .forwarding) recorded.state.ports recorded)
        (transition r delay now port.port (if better then roleRoot else roleDesignated)
          (if better && recorded.state.protocol ≠ text "rstp" then .blocking else .forwarding))

/-- `Handle`, without the lock. -/
def handleLocked (r : Router) (delay now : Time) (event : STPEvent) (pending : Pending) :
    Prog (Except Err Unit × Pending) :=
  (during "l2: stp event: " (r.snapshot .running)).bind fun
    | .error err => .ret (.error err, pending)
    | .ok device =>
      if !device.stp.enabled then .ret (.error (.sentinel errSTPDisabled), pending)
      else
        match findSTPPort device.stp.ports event.port with
        | none => .ret (.error (failure errPortUnknown event.port), pending)
        | some port =>
          let work : Working := ⟨device.stp, pending⟩
          let handled : Prog Stepped := match event.kind with
            | .linkDown => transition r delay now port.port roleAlternate .disabled work
            | .linkUp =>
              transition r delay now port.port roleDesignated
                (if port.edgePort then .forwarding else .blocking) work
            | .bpdu => elect r delay now event port work
            | .unknown name =>
              .ret (.error (.text "l2: unknown stp event " ++ .piece (.quoted name)), work)
          handled.bind fun (result, work) => .ret (result, work.pending)

/-- `Handle`. -/
def handle (r : Router) (delay now : Time) (event : STPEvent) (pending : Pending) :
    Prog (Except Err Unit × Pending) :=
  if event.port = [] then .ret (.error (.text "l2: stp event without a port"), pending)
  else .locked .l2Manager (handleLocked r delay now event pending)

/-! ## Ticks -/

/-- The deadlines that have been reached, in the order of the ports. -/
def dueDeadlines (pending : Pending) (now : Time) : List (GoString × STPDeadline) :=
  pending.toList.filter fun entry => entry.2.due ≤ now

/-- The loop of `advanceSTP` over what is left of the deadlines.  A transition only moves the
deadline of its own port, so a deadline does not change before its turn. -/
def advanceDue (r : Router) (delay now : Time) :
    List (GoString × STPDeadline) → Working → Prog Stepped
  | [], work => .ret (.ok (), work)
  | (port, deadline) :: rest, work =>
    let fired : Working := { work with pending := work.pending.erase port }
    match findSTPPort fired.state.ports port with
    | none => advanceDue r delay now rest fired
    | some current =>
      continued (transition r delay now port current.role deadline.phase fired)
        (advanceDue r delay now rest)

/-- `advanceSTP`. -/
def advanceSTP (r : Router) (delay now : Time) (pending : Pending) :
    Prog (Except Err Unit × Pending) :=
  if (dueDeadlines pending now).isEmpty then .ret (.ok (), pending)
  else (during "l2: stp forward delay: " (r.snapshot .running)).bind fun
    | .error err => .ret (.error err, pending)
    | .ok device =>
      if !device.stp.enabled then .ret (.ok (), ∅)
      else (advanceDue r delay now (dueDeadlines pending now) ⟨device.stp, pending⟩).bind
        fun (result, work) => .ret (result, work.pending)

/-- `errors.Join`. -/
def joinErrors (results : List (Except Err Unit)) : Except Err Unit :=
  match results.filterMap fun
    | .error err => some err
    | .ok () => none with
  | [] => .ok ()
  | first :: rest => .error (rest.foldl (fun joined err => joined ++ .text "\n" ++ err) first)

/-- `Tick`: each of the three runs whatever becomes of the others. -/
def tick (r : Router) (delay now : Time) (manager : Manager) :
    Prog (Except Err Unit × Manager) :=
  .locked .l2Manager <| (age r manager.lastAging now).bind fun aged =>
    (advanceSTP r delay now manager.stpPending).bind fun (advanced, pending) =>
      (refreshLLDP r).bind fun refreshed =>
        .ret (joinErrors [aged, advanced, refreshed], ⟨some now, pending⟩)

end L2
end TriadSim

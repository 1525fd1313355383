import TriadSim.L2.Tables

/-!
# Frames

`Transmit` in `internal/l2/counters.go`: a frame moves the counters of its ingress port, teaches
the bridge its source address, and leaves through the port that its destination is known on or
through the other members of its VLAN.  The egress ports come from the snapshot that the call
begins with; every counter is moved on a snapshot of its own.
-/

namespace TriadSim
namespace L2

open Go Model Router

/-- `Frame`. -/
structure Frame where
  src : GoString
  dst : GoString
  vlan : UInt16
  ingress : GoString
  bytes : UInt64
  broadcast : Bool

/-- `MinFrameBytes`. -/
def minFrameBytes : UInt64 := 64

/-- The length of a frame; one that names none has the minimum. -/
def Frame.octets (frame : Frame) : UInt64 :=
  if frame.bytes = 0 then minFrameBytes else frame.bytes

/-- `FrameResult`. -/
structure FrameResult where
  ingress : GoString
  egress : List GoString
  learned : Bool
  dropped : GoString

/-- The zero value of a result. -/
def zeroResult : FrameResult :=
  ⟨[], [], false, []⟩

/-- The zero value of the counters. -/
def zeroCounters : InterfaceCounters :=
  ⟨0, 0, 0, 0, 0, 0, 0, 0⟩

/-- What a forwarded frame adds to its ingress port. -/
def arrival (octets : UInt64) : InterfaceCounters :=
  { zeroCounters with inOctets := octets, inUcastPkts := 1 }

/-- What a frame adds to each port that it leaves through. -/
def departure (octets : UInt64) : InterfaceCounters :=
  { zeroCounters with outOctets := octets, outUcastPkts := 1 }

/-- `portNameOf`. -/
def portNameOf (device : Device) (number : UInt32) : Except Err GoString :=
  if number = 0 ∨ UInt32.ofNat device.interfaces.length < number then
    .error (failure errPortUnknown (formatNat number.toNat))
  else
    match device.interfaces[number.toNat - 1]? with
    | some interface => .ok interface.name
    | none => .error (failure errPortUnknown (formatNat number.toNat))

/-- The members of a VLAN apart from the ingress port, in order; an unknown VLAN has none. -/
def floodPorts (device : Device) (vlanID : UInt16) (ingress : GoString) : List GoString :=
  match findVLAN device.vlans vlanID with
  | none => []
  | some vlan =>
    ((vlan.ports.map VLANPort.port).filter fun port => port ≠ ingress).insertionSort
      fun first second => compare first second ≠ .gt

/-- `egressPorts`. -/
def egressPorts (device : Device) (frame : Frame) (destination : GoString)
    (ingressIndex : UInt32) : List GoString :=
  if frame.broadcast then floodPorts device frame.vlan frame.ingress
  else
    match findMAC device.macTable.entries destination with
    | none => floodPorts device frame.vlan frame.ingress
    | some entry =>
      if entry.port = ingressIndex then []
      else
        match portNameOf device entry.port with
        | .ok name => [name]
        | .error _ => floodPorts device frame.vlan frame.ingress

/-- The loop of `Transmit` over what is left of the egress ports. -/
def sendOut (r : Router) (delta : InterfaceCounters) : List GoString → Prog (Except Err Unit)
  | [] => .ret (.ok ())
  | port :: rest => andThen (incrementLocked r port delta) fun () => sendOut r delta rest

/-- The end of `Transmit`, for a frame that the ingress port takes. -/
def forward (r : Router) (device : Device) (frame : Frame) (source destination : GoString)
    (ingressIndex : UInt32) : Prog (FrameResult × Except Err Unit) :=
  let send (learned : Bool) : Prog (FrameResult × Except Err Unit) :=
    let egress := egressPorts device frame destination ingressIndex
    (sendOut r (departure frame.octets) egress).bind fun sent =>
      .ret (⟨frame.ingress, egress, learned, []⟩, sent)
  (learnLocked r source frame.vlan frame.ingress).bind fun
    | .ok _ => send true
    | .error err =>
      if err.is errTableFull then send false
      else .ret (⟨frame.ingress, [], false, []⟩, .error err)

/-- `Transmit`, for two addresses that parse, without the lock. -/
def transmitLocked (r : Router) (frame : Frame) (source destination : GoString) :
    Prog (FrameResult × Except Err Unit) :=
  (during "l2: transmit: " (r.snapshot .running)).bind fun
    | .error err => .ret (zeroResult, .error err)
    | .ok device =>
      match findInterface device frame.ingress, bridgePortOf device frame.ingress with
      | none, _ => .ret (zeroResult, .error (failure errPortUnknown frame.ingress))
      | some _, .error err => .ret (zeroResult, .error err)
      | some interface, .ok ingressIndex =>
        if !portAccepts device frame.ingress frame.vlan then
          (incrementLocked r frame.ingress { zeroCounters with inDiscards := 1 }).bind
            fun done => .ret (⟨frame.ingress, [], false,
              "vlan " ++ decimal frame.vlan ++ " is not on port " ++ frame.ingress⟩, done)
        else if interface.mtu.toUInt64 < frame.octets then
          (incrementLocked r frame.ingress { zeroCounters with inErrors := 1 }).bind
            fun done => .ret (⟨frame.ingress, [], false,
              "frame of " ++ formatNat frame.octets.toNat ++ " bytes exceeds the " ++
                formatNat interface.mtu.toNat ++ " byte MTU"⟩, done)
        else
          (incrementLocked r frame.ingress (arrival frame.octets)).bind fun
            | .error err => .ret (⟨frame.ingress, [], false, []⟩, .error err)
            | .ok () => forward r device frame source destination ingressIndex

/-- `Transmit`. -/
def transmit (r : Router) (frame : Frame) : Prog (FrameResult × Except Err Unit) :=
  match normalizeMAC frame.src, normalizeMAC frame.dst with
  | .error err, _ => .ret (zeroResult, .error err)
  | .ok _, .error err => .ret (zeroResult, .error err)
  | .ok source, .ok destination =>
    .locked .l2Manager (transmitLocked r frame source destination)

end L2
end TriadSim

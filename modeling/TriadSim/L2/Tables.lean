import TriadSim.Go.Hex
import TriadSim.L2.Counters
import Mathlib.Data.List.Sort

/-!
# The switching tables

`internal/l2`: the VLANs and their member ports, the MAC forwarding database and the LLDP
neighbours.  The manager reads the device that running describes, writes the fields of an
entry one leaf at a time and removes an entry leaf by leaf, under its own lock.  The clock
readings and the time of the last aging sweep are passed in and out.
-/

namespace TriadSim
namespace L2

open Go Model Router Store

/-! ## Errors -/

def errVLANNotFound : Sentinel := .external "vlan not found"
def errVLANExists : Sentinel := .external "vlan already exists"
def errMemberNotFound : Sentinel := .external "vlan member not found"
def errInvalidMAC : Sentinel := .external "invalid mac address"
def errTableFull : Sentinel := .external "mac table is full"
def errPortUnknown : Sentinel := .external "bridge port not found"

/-- A domain error about something. -/
def failure (cause : Sentinel) (about : GoString) : Err :=
  .sentinel cause ++ .text (": " ++ about)

/-- A numeral in a message or a path. -/
def decimal (id : UInt16) : GoString :=
  formatNat id.toNat

/-- A step of the manager, with what was being done in its error. -/
def during {α : Type} (context : GoString) (step : Prog (Except Err α)) : Prog (Except Err α) :=
  step.bind fun
    | .error err => .ret (.error (inContext context err))
    | .ok value => .ret (.ok value)

/-- A check before a program. -/
def afterCheck {α : Type} (context : GoString) (check : Check) (next : Prog (Except Err α)) :
    Prog (Except Err α) :=
  match check with
  | .error err => .ret (.error (inContext context err))
  | .ok () => next

/-! ## Leaves of an entry -/

/-- The loop of the `write` functions over what is left of the fields of an entry; an error
names the field. -/
def writeFields (r : Router) (entry : GoString) (context : GoString) :
    List (GoString × Leaf) → Prog (Except Err Unit)
  | [] => .ret (.ok ())
  | (name, value) :: rest =>
    andThen (during (context ++ "set " ++ name ++ ": ")
      (r.set .running (entry ++ "/" ++ name) (.leaf value))) fun _ =>
        writeFields r entry context rest

/-- The loop of `removeSubtree` over what is left of the leaves. -/
def removeLeaves (r : Router) (ds : Datastore) : List Result → Prog (Except Err Unit)
  | [] => .ret (.ok ())
  | leaf :: rest => andThen (r.delete ds leaf.path) fun () => removeLeaves r ds rest

/-- `removeSubtree`. -/
def removeSubtree (r : Router) (ds : Datastore) (entry : GoString) : Prog (Except Err Unit) :=
  andThen (r.list ds entry) (removeLeaves r ds)

/-- `Manager.state`. -/
def state (r : Router) (path : GoString) (value : Leaf) : Prog (Except Err Unit) :=
  andThen (r.setState path (.leaf value)) fun _ => .ret (.ok ())

/-! ## VLANs -/

/-- `vlanPrefix`. -/
def vlanEntry (id : UInt16) : GoString :=
  "vlans/vlan[id=" ++ decimal id ++ "]"

/-- `memberPrefix`. -/
def memberEntry (id : UInt16) (port : GoString) : GoString :=
  vlanEntry id ++ "/ports/port[port=" ++ port ++ "]"

/-- `VLANs`. -/
def vlans (r : Router) : Prog (Except Err (List VLAN)) :=
  andThen (during "l2: list vlans: " (r.snapshot .running)) fun device =>
    .ret (.ok (device.vlans.insertionSort fun first second => first.id ≤ second.id))

/-- `findVLAN`. -/
def findVLAN (vlans : List VLAN) (id : UInt16) : Option VLAN :=
  vlans.find? fun vlan => vlan.id = id

/-- `findMember`. -/
def findMember (members : List VLANPort) (port : GoString) : Option VLANPort :=
  members.find? fun member => member.port = port

/-- `Manager.VLAN`. -/
def vlan (r : Router) (id : UInt16) : Prog (Except Err VLAN) :=
  andThen (vlans r) fun found =>
    .ret <| match findVLAN found id with
      | some vlan => .ok vlan
      | none => .error (failure errVLANNotFound (decimal id))

/-- `Member`. -/
def member (r : Router) (id : UInt16) (port : GoString) : Prog (Except Err VLANPort) :=
  andThen (vlan r id) fun found =>
    .ret <| match findMember found.ports port with
      | some member => .ok member
      | none => .error (failure errMemberNotFound ("vlan " ++ decimal id ++ " port " ++ port))

/-- `writeVLAN`. -/
def writeVLAN (r : Router) (vlan : VLAN) : Prog (Except Err Unit) :=
  writeFields r (vlanEntry vlan.id) ("l2: vlan " ++ decimal vlan.id ++ ": ")
    [("name", .string vlan.name), ("description", .string vlan.description)]

/-- `writeMember`. -/
def writeMember (r : Router) (id : UInt16) (member : VLANPort) : Prog (Except Err Unit) :=
  writeFields r (memberEntry id member.port)
    ("l2: vlan " ++ decimal id ++ " port " ++ member.port ++ ": ")
    [("mode", .string member.mode), ("pvid", .uint16 member.pvid), ("tagged", .bool member.tagged),
      ("qinq", .bool member.qinQ), ("s-tag-vid", .uint16 member.outerVID),
      ("c-tag-handling", .string member.cTagHandling)]

/-- The loop over what is left of the members of a VLAN. -/
def writeMembers (r : Router) (id : UInt16) : List VLANPort → Prog (Except Err Unit)
  | [] => .ret (.ok ())
  | member :: rest => andThen (writeMember r id member) fun () => writeMembers r id rest

/-- `removeMember`. -/
def dropMember (r : Router) (id : UInt16) (port : GoString) : Prog (Except Err Unit) :=
  removeSubtree r .running (memberEntry id port)

/-- The loop of `ReplaceVLAN` over what is left of the members that the VLAN has. -/
def dropMembers (r : Router) (vlan : VLAN) : List VLANPort → Prog (Except Err Unit)
  | [] => .ret (.ok ())
  | member :: rest =>
    if (findMember vlan.ports member.port).isSome then dropMembers r vlan rest
    else andThen (dropMember r vlan.id member.port) fun () => dropMembers r vlan rest

/-- `CreateVLAN`. -/
def createVLAN (r : Router) (new : VLAN) : Prog (Except Err Unit) :=
  afterCheck ("l2: vlan " ++ decimal new.id ++ ": ") new.validate <| .locked .l2Manager <|
    (vlan r new.id).bind fun
      | .ok _ => .ret (.error (failure errVLANExists (decimal new.id)))
      | .error err =>
        if err.is errVLANNotFound then
          andThen (writeVLAN r new) fun () => writeMembers r new.id new.ports
        else .ret (.error err)

/-- `ReplaceVLAN`. -/
def replaceVLAN (r : Router) (new : VLAN) : Prog (Except Err Unit) :=
  afterCheck ("l2: vlan " ++ decimal new.id ++ ": ") new.validate <| .locked .l2Manager <|
    andThen (vlan r new.id) fun current =>
      andThen (dropMembers r new current.ports) fun () =>
        andThen (writeVLAN r new) fun () => writeMembers r new.id new.ports

/-- `DeleteVLAN`. -/
def deleteVLAN (r : Router) (id : UInt16) : Prog (Except Err Unit) :=
  .locked .l2Manager <| andThen (vlan r id) fun _ => removeSubtree r .running (vlanEntry id)

/-- `SetMember`. -/
def setMember (r : Router) (id : UInt16) (new : VLANPort) : Prog (Except Err Unit) :=
  afterCheck ("l2: vlan " ++ decimal id ++ ": ") new.validate <| .locked .l2Manager <|
    andThen (vlan r id) fun _ => writeMember r id new

/-- `RemoveMember`. -/
def removeMember (r : Router) (id : UInt16) (port : GoString) : Prog (Except Err Unit) :=
  .locked .l2Manager <| andThen (member r id port) fun _ => dropMember r id port

/-! ## MAC addresses -/

/-- `HardwareAddr.String`: two digits for each octet, with colons between them. -/
def addressText (octets : List UInt8) : GoString :=
  join (octets.map fun octet => [hexDigit (octet.toNat / 16), hexDigit (octet.toNat % 16)]) 58

/-- `normalizeMAC`. -/
def normalizeMAC (address : GoString) : Except Err GoString :=
  match (parseMAC address).filter fun octets => octets.length = 6 with
  | some octets => .ok (addressText octets)
  | none =>
    .error (.sentinel errInvalidMAC ++ .text ": " ++ .piece (.quoted address) ++
      .text " is not a 48-bit MAC address")

/-- `equalMAC`. -/
def equalMAC (first second : GoString) : Bool :=
  match normalizeMAC first, normalizeMAC second with
  | .ok left, .ok right => left = right
  | _, _ => first = second

/-- `compareMAC`. -/
def compareMAC (first second : GoString) : Ordering :=
  match normalizeMAC first, normalizeMAC second with
  | .ok left, .ok right => compare left right
  | _, _ => .eq

/-- `findMAC`. -/
def findMAC (entries : List MACEntry) (address : GoString) : Option MACEntry :=
  entries.find? fun entry => equalMAC entry.mac address

/-- `macPrefix`. -/
def macEntry (address : GoString) : GoString :=
  "mac-table/entry[mac-address=" ++ address ++ "]"

/-- `bridgePortOf`: the position of an interface, counted from 1. -/
def bridgePortOf (device : Device) (name : GoString) : Except Err UInt32 :=
  match device.interfaces.findIdx? fun interface => interface.name = name with
  | some index => .ok (UInt32.ofNat (index + 1))
  | none => .error (failure errPortUnknown name)

/-- `portAccepts`. -/
def portAccepts (device : Device) (port : GoString) (vlanID : UInt16) : Bool :=
  match findVLAN device.vlans vlanID with
  | some vlan => (findMember vlan.ports port).isSome
  | none => false

/-- `MACEntries`: ordered by VLAN and then by address. -/
def macEntries (r : Router) : Prog (Except Err (List MACEntry)) :=
  andThen (during "l2: mac table: " (r.snapshot .running)) fun device =>
    .ret (.ok (device.macTable.entries.insertionSort fun first second =>
      first.vlan < second.vlan ∨ first.vlan = second.vlan ∧ compareMAC first.mac second.mac ≠ .gt))

/-- `syncCount`. -/
def syncCount (r : Router) : Prog (Except Err Unit) :=
  andThen (macEntries r) fun entries =>
    during "l2: mac count: "
      (state r "mac-table/current-count" (.uint32 (UInt32.ofNat entries.length)))

/-- `writeMAC`. -/
def writeMAC (r : Router) (entry : MACEntry) : Prog (Except Err Unit) :=
  andThen (writeFields r (macEntry entry.mac) ("l2: mac " ++ entry.mac ++ ": ")
    [("vlan-id", .uint16 entry.vlan), ("port", .uint32 entry.port), ("type", .string entry.type),
      ("permanent", .bool entry.permanent)]) fun () =>
    andThen (during ("l2: mac " ++ entry.mac ++ ": set age: ")
      (state r (macEntry entry.mac ++ "/age") (.uint32 entry.age))) fun () => syncCount r

/-- `removeMAC`. -/
def removeMAC (r : Router) (address : GoString) : Prog (Except Err Unit) :=
  removeSubtree r .running (macEntry address)

/-- Whether the table of a device has no room for another entry. -/
def tableFull (device : Device) : Bool :=
  device.macTable.maxEntries ≤ UInt32.ofNat device.macTable.entries.length

/-- The error of a full table. -/
def tableFullError (device : Device) : Err :=
  .sentinel errTableFull ++ .text ": " ++ .piece (.decimal device.macTable.maxEntries.toNat) ++
    .text " entries"

/-- What `learn` stores for an address, from the device: an entry, or the static entry that it
leaves alone. -/
def learned (device : Device) (address : GoString) (vlanID : UInt16) (port : GoString) :
    Except Err (MACEntry × Bool) :=
  match bridgePortOf device port with
  | .error err => .error err
  | .ok index =>
    if !portAccepts device port vlanID then
      .error (failure errMemberNotFound ("vlan " ++ decimal vlanID ++ " port " ++ port))
    else
      match findMAC device.macTable.entries address with
      | some existing =>
        if existing.type = text "static" then .ok (existing, false)
        else .ok (⟨address, vlanID, index, "dynamic", 0, existing.permanent⟩, true)
      | none =>
        if tableFull device then .error (tableFullError device)
        else .ok (⟨address, vlanID, index, "dynamic", 0, false⟩, true)

/-- `learn`. -/
def learnLocked (r : Router) (address : GoString) (vlanID : UInt16) (port : GoString) :
    Prog (Except Err MACEntry) :=
  andThen (during ("l2: learn " ++ address ++ ": ") (r.snapshot .running)) fun device =>
    andThen (.ret (learned device address vlanID port)) fun (entry, fresh) =>
      if fresh then andThen (writeMAC r entry) fun () => .ret (.ok entry) else .ret (.ok entry)

/-! ## Aging -/

/-- A reading of the clock, in nanoseconds. -/
abbrev Time := Int

/-- The whole seconds between two sweeps; there are none before the first sweep or when the clock
has not moved on. -/
def elapsedSeconds (lastAging : Option Time) (now : Time) : UInt32 :=
  match lastAging with
  | none => 0
  | some last => if last < now then UInt32.ofNat ((now - last).toNat / 1000000000) else 0

/-- The loop of `age` over what is left of the entries, with the number that it has removed. -/
def ageEntries (r : Router) (agingTime elapsed : UInt32) :
    Nat → List MACEntry → Prog (Except Err Unit)
  | removed, [] => if removed = 0 then .ret (.ok ()) else syncCount r
  | removed, entry :: rest =>
    if entry.type ≠ text "dynamic" then ageEntries r agingTime elapsed removed rest
    else if agingTime ≤ entry.age + elapsed then
      andThen (removeMAC r entry.mac) fun () =>
        ageEntries r agingTime elapsed (removed + 1) rest
    else
      andThen (state r (macEntry entry.mac ++ "/age") (.uint32 (entry.age + elapsed))) fun () =>
        ageEntries r agingTime elapsed removed rest

/-- `age`; the time of the sweep is kept whatever becomes of it. -/
def age (r : Router) (lastAging : Option Time) (now : Time) : Prog (Except Err Unit) :=
  if elapsedSeconds lastAging now = 0 then .ret (.ok ())
  else andThen (during "l2: mac aging: " (r.snapshot .running)) fun device =>
    ageEntries r device.macTable.agingTime (elapsedSeconds lastAging now) 0
      device.macTable.entries

/-! ## LLDP -/

/-- `lldpNeighborPrefix`. -/
def neighborEntry (port : GoString) : GoString :=
  "lldp/neighbors/neighbor[port=" ++ port ++ "]"

/-- `Manager.LLDP`. -/
def lldp (r : Router) : Prog (Except Err LLDPConfig) :=
  andThen (during "l2: lldp config: " (r.snapshot .running)) fun device => .ret (.ok device.lldp)

/-- The loop of `refreshLLDP` over what is left of the neighbours. -/
def refreshNeighbors (r : Router) (ttl : UInt32) : List LLDPNeighbor → Prog (Except Err Unit)
  | [] => .ret (.ok ())
  | neighbor :: rest =>
    if neighbor.ttl = ttl then refreshNeighbors r ttl rest
    else
      andThen (during ("l2: lldp refresh " ++ neighbor.port ++ ": ")
        (r.set .running (neighborEntry neighbor.port ++ "/ttl") (.leaf (.uint32 ttl)))) fun _ =>
          refreshNeighbors r ttl rest

/-- `refreshLLDP`; the product wraps around. -/
def refreshLLDP (r : Router) : Prog (Except Err Unit) :=
  andThen (lldp r) fun config =>
    let ttl := config.txInterval * config.txHoldMultiplier
    if !config.enabled || config.neighbors.isEmpty || ttl = 0 || 65535 < ttl then .ret (.ok ())
    else refreshNeighbors r ttl config.neighbors

end L2
end TriadSim

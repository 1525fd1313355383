import TriadSim.Go.Reflect

/-!
# The managed objects

`internal/model`: the device and everything below it.  Each object is a structure
with the source's fields, next to the description of its Go type that the router
reflects on; `ofVals` and `toVals` are the two views of one value.
-/

namespace TriadSim
namespace Model

open Go

/-! ## Field descriptions -/

@[reducible]
def field (path : String) (kind : LeafKind) (rest : Fields) : Fields :=
  .cons ⟨[text path], false, false, false⟩ (.scalar kind) rest

@[reducible]
def keyField (path : String) (kind : LeafKind) (rest : Fields) : Fields :=
  .cons ⟨[text path], true, false, false⟩ (.scalar kind) rest

/-- A field tagged `config:"false"`. -/
@[reducible]
def stateField (path : String) (kind : LeafKind) (rest : Fields) : Fields :=
  .cons ⟨[text path], false, true, false⟩ (.scalar kind) rest

@[reducible]
def structField (path : List String) (fields : Fields) (rest : Fields) : Fields :=
  .cons ⟨path.map text, false, false, false⟩ (.struct fields) rest

@[reducible]
def pointerField (path : List String) (fields : Fields) (rest : Fields) : Fields :=
  .cons ⟨path.map text, false, false, false⟩ (.pointer fields) rest

@[reducible]
def listField (path : List String) (creatable : Bool) (fields : Fields) (rest : Fields) :
    Fields :=
  .cons ⟨path.map text, false, false, creatable⟩ (.slice fields) rest

/-! ## System information -/

structure SystemInfo where
  deviceID : GoString
  name : GoString
  description : GoString
  contact : GoString
  location : GoString
  uptime : UInt32

namespace SystemInfo

@[reducible]
def fields : Fields :=
  field "device-id" .string <| field "name" .string <| field "description" .string <|
  field "contact" .string <| field "location" .string <| stateField "uptime" .uint32 .nil

def ofVals : fields.Vals → SystemInfo
  | (deviceID, name, description, contact, location, uptime, ()) =>
    { deviceID, name, description, contact, location, uptime }

def toVals (s : SystemInfo) : fields.Vals :=
  (s.deviceID, s.name, s.description, s.contact, s.location, s.uptime, ())

end SystemInfo

/-! ## Interfaces and radio links -/

structure InterfaceCounters where
  inOctets : UInt64
  outOctets : UInt64
  inUcastPkts : UInt64
  outUcastPkts : UInt64
  inErrors : UInt32
  outErrors : UInt32
  inDiscards : UInt32
  outDiscards : UInt32

namespace InterfaceCounters

@[reducible]
def fields : Fields :=
  stateField "in-octets" .uint64 <| stateField "out-octets" .uint64 <|
  stateField "in-ucast-pkts" .uint64 <| stateField "out-ucast-pkts" .uint64 <|
  stateField "in-errors" .uint32 <| stateField "out-errors" .uint32 <|
  stateField "in-discards" .uint32 <| stateField "out-discards" .uint32 .nil

def ofVals : fields.Vals → InterfaceCounters
  | (inOctets, outOctets, inUcastPkts, outUcastPkts, inErrors, outErrors, inDiscards,
      outDiscards, ()) =>
      { inOctets, outOctets, inUcastPkts, outUcastPkts, inErrors, outErrors, inDiscards,
        outDiscards }

def toVals (s : InterfaceCounters) : fields.Vals :=
  (s.inOctets, s.outOctets, s.inUcastPkts, s.outUcastPkts, s.inErrors, s.outErrors, s.inDiscards,
    s.outDiscards, ())

end InterfaceCounters

structure LinkBudget where
  linkLength : Float64
  frequency : Float64
  txAntennaGain : Float64
  rxAntennaGain : Float64
  feedLoss : Float64
  calculatedRSL : Float64

namespace LinkBudget

@[reducible]
def fields : Fields :=
  field "link-length" .float64 <| field "frequency" .float64 <|
  field "tx-antenna-gain" .float64 <| field "rx-antenna-gain" .float64 <|
  field "feed-loss" .float64 <| stateField "calculated-rsl" .float64 .nil

def ofVals : fields.Vals → LinkBudget
  | (linkLength, frequency, txAntennaGain, rxAntennaGain, feedLoss, calculatedRSL, ()) =>
    { linkLength, frequency, txAntennaGain, rxAntennaGain, feedLoss, calculatedRSL }

def toVals (s : LinkBudget) : fields.Vals :=
  (s.linkLength, s.frequency, s.txAntennaGain, s.rxAntennaGain, s.feedLoss, s.calculatedRSL, ())

end LinkBudget

structure ATPC where
  enabled : Bool
  targetRSL : Float64
  minPower : Float64
  maxPower : Float64
  range : Float64
  currentPower : Float64

namespace ATPC

@[reducible]
def fields : Fields :=
  field "enabled" .bool <| field "target-rsl" .float64 <| field "min-power" .float64 <|
  field "max-power" .float64 <| field "range" .float64 <|
  stateField "current-power" .float64 .nil

def ofVals : fields.Vals → ATPC
  | (enabled, targetRSL, minPower, maxPower, range, currentPower, ()) =>
    { enabled, targetRSL, minPower, maxPower, range, currentPower }

def toVals (s : ATPC) : fields.Vals :=
  (s.enabled, s.targetRSL, s.minPower, s.maxPower, s.range, s.currentPower, ())

end ATPC

structure ACM where
  enabled : Bool
  mode : GoString
  minProfile : UInt8
  maxProfile : UInt8
  currentProfile : UInt8
  currentCapacity : UInt32

namespace ACM

@[reducible]
def fields : Fields :=
  field "enabled" .bool <| field "mode" .string <| field "min-profile" .uint8 <|
  field "max-profile" .uint8 <| stateField "current-profile" .uint8 <|
  stateField "current-capacity" .uint32 .nil

def ofVals : fields.Vals → ACM
  | (enabled, mode, minProfile, maxProfile, currentProfile, currentCapacity, ()) =>
    { enabled, mode, minProfile, maxProfile, currentProfile, currentCapacity }

def toVals (s : ACM) : fields.Vals :=
  (s.enabled, s.mode, s.minProfile, s.maxProfile, s.currentProfile, s.currentCapacity, ())

end ACM

structure ModProfile where
  id : UInt8
  name : GoString
  modulation : GoString
  codingRate : GoString
  spectralEfficiency : Float64
  rslThreshold : Float64
  capacity : UInt32

namespace ModProfile

@[reducible]
def fields : Fields :=
  keyField "id" .uint8 <| field "name" .string <| field "modulation" .string <|
  field "coding-rate" .string <| field "spectral-efficiency" .float64 <|
  field "rsl-threshold" .float64 <| field "capacity" .uint32 .nil

def ofVals : fields.Vals → ModProfile
  | (id, name, modulation, codingRate, spectralEfficiency, rslThreshold, capacity, ()) =>
    { id, name, modulation, codingRate, spectralEfficiency, rslThreshold, capacity }

def toVals (s : ModProfile) : fields.Vals :=
  (s.id, s.name, s.modulation, s.codingRate, s.spectralEfficiency, s.rslThreshold, s.capacity,
    ())

end ModProfile

structure RadioLink where
  name : GoString
  txPower : Float64
  rssi : Float64
  fadeMargin : Float64
  capacity : UInt32
  linkState : GoString
  linkBudget : LinkBudget
  atpc : ATPC
  acm : ACM
  profiles : List ModProfile

namespace RadioLink

@[reducible]
def fields : Fields :=
  field "name" .string <| field "tx-power" .float64 <| stateField "rssi" .float64 <|
  stateField "fade-margin" .float64 <| stateField "capacity" .uint32 <|
  stateField "link-state" .string <| structField ["link-budget"] LinkBudget.fields <|
  structField ["atpc"] ATPC.fields <| structField ["acm"] ACM.fields <|
  listField ["modulation-profile"] false ModProfile.fields .nil

def ofVals : fields.Vals → RadioLink
  | (name, txPower, rssi, fadeMargin, capacity, linkState, linkBudget, atpc, acm, profiles, ()) =>
    { name, txPower, rssi, fadeMargin, capacity, linkState,
      linkBudget := LinkBudget.ofVals linkBudget, atpc := ATPC.ofVals atpc,
      acm := ACM.ofVals acm, profiles := profiles.map ModProfile.ofVals }

def toVals (s : RadioLink) : fields.Vals :=
  (s.name, s.txPower, s.rssi, s.fadeMargin, s.capacity, s.linkState, s.linkBudget.toVals,
    s.atpc.toVals, s.acm.toVals, s.profiles.map ModProfile.toVals, ())

end RadioLink

structure Interface where
  name : GoString
  type : GoString
  enabled : Bool
  mtu : UInt32
  macAddress : GoString
  radioLink : Option RadioLink
  counters : InterfaceCounters

namespace Interface

@[reducible]
def fields : Fields :=
  keyField "name" .string <| field "type" .string <| field "enabled" .bool <|
  field "mtu" .uint32 <| field "mac-address" .string <|
  pointerField ["radio-link"] RadioLink.fields <|
  structField ["counters"] InterfaceCounters.fields .nil

def ofVals : fields.Vals → Interface
  | (name, type, enabled, mtu, macAddress, radioLink, counters, ()) =>
    { name, type, enabled, mtu, macAddress, radioLink := radioLink.map RadioLink.ofVals,
      counters := InterfaceCounters.ofVals counters }

def toVals (s : Interface) : fields.Vals :=
  (s.name, s.type, s.enabled, s.mtu, s.macAddress, s.radioLink.map RadioLink.toVals,
    s.counters.toVals, ())

end Interface

/-! ## Switching -/

structure VLANPort where
  port : GoString
  mode : GoString
  pvid : UInt16
  tagged : Bool
  qinQ : Bool
  outerVID : UInt16
  cTagHandling : GoString

namespace VLANPort

@[reducible]
def fields : Fields :=
  keyField "port" .string <| field "mode" .string <| field "pvid" .uint16 <|
  field "tagged" .bool <| field "qinq" .bool <| field "s-tag-vid" .uint16 <|
  field "c-tag-handling" .string .nil

def ofVals : fields.Vals → VLANPort
  | (port, mode, pvid, tagged, qinQ, outerVID, cTagHandling, ()) =>
    { port, mode, pvid, tagged, qinQ, outerVID, cTagHandling }

def toVals (s : VLANPort) : fields.Vals :=
  (s.port, s.mode, s.pvid, s.tagged, s.qinQ, s.outerVID, s.cTagHandling, ())

end VLANPort

structure VLAN where
  id : UInt16
  name : GoString
  description : GoString
  ports : List VLANPort

namespace VLAN

@[reducible]
def fields : Fields :=
  keyField "id" .uint16 <| field "name" .string <| field "description" .string <|
  listField ["ports", "port"] true VLANPort.fields .nil

def ofVals : fields.Vals → VLAN
  | (id, name, description, ports, ()) =>
    { id, name, description, ports := ports.map VLANPort.ofVals }

def toVals (s : VLAN) : fields.Vals :=
  (s.id, s.name, s.description, s.ports.map VLANPort.toVals, ())

end VLAN

structure MACEntry where
  mac : GoString
  vlan : UInt16
  port : UInt32
  type : GoString
  age : UInt32
  permanent : Bool

namespace MACEntry

@[reducible]
def fields : Fields :=
  keyField "mac-address" .string <| field "vlan-id" .uint16 <| field "port" .uint32 <|
  field "type" .string <| stateField "age" .uint32 <| field "permanent" .bool .nil

def ofVals : fields.Vals → MACEntry
  | (mac, vlan, port, type, age, permanent, ()) =>
    { mac, vlan, port, type, age, permanent }

def toVals (s : MACEntry) : fields.Vals :=
  (s.mac, s.vlan, s.port, s.type, s.age, s.permanent, ())

end MACEntry

structure MACTable where
  entries : List MACEntry
  agingTime : UInt32
  maxEntries : UInt32
  currentCount : UInt32

namespace MACTable

@[reducible]
def fields : Fields :=
  listField ["entry"] true MACEntry.fields <| field "aging-time" .uint32 <|
  field "max-entries" .uint32 <| stateField "current-count" .uint32 .nil

def ofVals : fields.Vals → MACTable
  | (entries, agingTime, maxEntries, currentCount, ()) =>
    { entries := entries.map MACEntry.ofVals, agingTime, maxEntries, currentCount }

def toVals (s : MACTable) : fields.Vals :=
  (s.entries.map MACEntry.toVals, s.agingTime, s.maxEntries, s.currentCount, ())

end MACTable

structure STPPort where
  port : GoString
  role : GoString
  state : GoString
  priority : UInt8
  pathCost : UInt32
  edgePort : Bool

namespace STPPort

@[reducible]
def fields : Fields :=
  keyField "port" .string <| field "role" .string <| field "state" .string <|
  field "priority" .uint8 <| field "path-cost" .uint32 <| field "edge-port" .bool .nil

def ofVals : fields.Vals → STPPort
  | (port, role, state, priority, pathCost, edgePort, ()) =>
    { port, role, state, priority, pathCost, edgePort }

def toVals (s : STPPort) : fields.Vals :=
  (s.port, s.role, s.state, s.priority, s.pathCost, s.edgePort, ())

end STPPort

structure STPState where
  enabled : Bool
  protocol : GoString
  bridgePriority : UInt16
  bridgeAddress : GoString
  rootID : GoString
  rootCost : UInt32
  ports : List STPPort

namespace STPState

@[reducible]
def fields : Fields :=
  field "enabled" .bool <| field "protocol" .string <| field "bridge-priority" .uint16 <|
  field "bridge-address" .string <| stateField "root-id" .string <|
  stateField "root-cost" .uint32 <| listField ["ports", "port"] false STPPort.fields .nil

def ofVals : fields.Vals → STPState
  | (enabled, protocol, bridgePriority, bridgeAddress, rootID, rootCost, ports, ()) =>
    { enabled, protocol, bridgePriority, bridgeAddress, rootID, rootCost,
      ports := ports.map STPPort.ofVals }

def toVals (s : STPState) : fields.Vals :=
  (s.enabled, s.protocol, s.bridgePriority, s.bridgeAddress, s.rootID, s.rootCost,
    s.ports.map STPPort.toVals, ())

end STPState

structure LLDPNeighbor where
  port : GoString
  chassisID : GoString
  portID : GoString
  systemName : GoString
  systemDescription : GoString
  ttl : UInt32
  capabilities : GoString

namespace LLDPNeighbor

@[reducible]
def fields : Fields :=
  keyField "port" .string <| field "chassis-id" .string <| field "port-id" .string <|
  field "system-name" .string <| field "system-description" .string <| field "ttl" .uint32 <|
  field "capabilities" .string .nil

def ofVals : fields.Vals → LLDPNeighbor
  | (port, chassisID, portID, systemName, systemDescription, ttl, capabilities, ()) =>
    { port, chassisID, portID, systemName, systemDescription, ttl, capabilities }

def toVals (s : LLDPNeighbor) : fields.Vals :=
  (s.port, s.chassisID, s.portID, s.systemName, s.systemDescription, s.ttl, s.capabilities, ())

end LLDPNeighbor

structure LLDPConfig where
  enabled : Bool
  txInterval : UInt32
  txHoldMultiplier : UInt32
  reinitDelay : UInt32
  txDelay : UInt32
  chassisID : GoString
  systemName : GoString
  systemDescription : GoString
  neighbors : List LLDPNeighbor

namespace LLDPConfig

@[reducible]
def fields : Fields :=
  field "enabled" .bool <| field "tx-interval" .uint32 <| field "tx-hold-multiplier" .uint32 <|
  field "reinit-delay" .uint32 <| field "tx-delay" .uint32 <| field "chassis-id" .string <|
  field "system-name" .string <| field "system-description" .string <|
  listField ["neighbors", "neighbor"] true LLDPNeighbor.fields .nil

def ofVals : fields.Vals → LLDPConfig
  | (enabled, txInterval, txHoldMultiplier, reinitDelay, txDelay, chassisID, systemName,
      systemDescription, neighbors, ()) =>
      { enabled, txInterval, txHoldMultiplier, reinitDelay, txDelay, chassisID, systemName,
        systemDescription, neighbors := neighbors.map LLDPNeighbor.ofVals }

def toVals (s : LLDPConfig) : fields.Vals :=
  (s.enabled, s.txInterval, s.txHoldMultiplier, s.reinitDelay, s.txDelay, s.chassisID,
    s.systemName, s.systemDescription, s.neighbors.map LLDPNeighbor.toVals, ())

end LLDPConfig

/-! ## Synchronization -/

structure PTPClock where
  mode : GoString
  domain : UInt8
  priority1 : UInt8
  priority2 : UInt8
  clockClass : UInt8
  clockAccuracy : UInt8
  holdoverTimeout : UInt32
  state : GoString
  offset : Float64
  jitter : Float64

namespace PTPClock

@[reducible]
def fields : Fields :=
  field "mode" .string <| field "domain" .uint8 <| field "priority1" .uint8 <|
  field "priority2" .uint8 <| field "clock-class" .uint8 <| field "clock-accuracy" .uint8 <|
  field "holdover-timeout" .uint32 <| stateField "state" .string <|
  stateField "offset" .float64 <| stateField "jitter" .float64 .nil

def ofVals : fields.Vals → PTPClock
  | (mode, domain, priority1, priority2, clockClass, clockAccuracy, holdoverTimeout, state,
      offset, jitter, ()) =>
      { mode, domain, priority1, priority2, clockClass, clockAccuracy, holdoverTimeout, state,
        offset, jitter }

def toVals (s : PTPClock) : fields.Vals :=
  (s.mode, s.domain, s.priority1, s.priority2, s.clockClass, s.clockAccuracy, s.holdoverTimeout,
    s.state, s.offset, s.jitter, ())

end PTPClock

structure SyncEInterface where
  name : GoString
  ssmEnabled : Bool
  ql : GoString
  extendedQL : GoString
  priority : UInt8
  ptpPreference : Bool

namespace SyncEInterface

@[reducible]
def fields : Fields :=
  keyField "name" .string <| field "ssm-enabled" .bool <| field "ql" .string <|
  field "extended-ql" .string <| field "priority" .uint8 <| field "ptp-preference" .bool .nil

def ofVals : fields.Vals → SyncEInterface
  | (name, ssmEnabled, ql, extendedQL, priority, ptpPreference, ()) =>
    { name, ssmEnabled, ql, extendedQL, priority, ptpPreference }

def toVals (s : SyncEInterface) : fields.Vals :=
  (s.name, s.ssmEnabled, s.ql, s.extendedQL, s.priority, s.ptpPreference, ())

end SyncEInterface

structure ESMC where
  enabled : Bool
  txInterval : UInt32
  extendedCodes : Bool

namespace ESMC

@[reducible]
def fields : Fields :=
  field "enabled" .bool <| field "tx-interval" .uint32 <| field "extended-codes" .bool .nil

def ofVals : fields.Vals → ESMC
  | (enabled, txInterval, extendedCodes, ()) =>
    { enabled, txInterval, extendedCodes }

def toVals (s : ESMC) : fields.Vals :=
  (s.enabled, s.txInterval, s.extendedCodes, ())

end ESMC

structure SyncEState where
  enabled : Bool
  selectedSource : GoString
  selectedQL : GoString
  selectedExtendedQL : GoString
  interfaces : List SyncEInterface
  esmc : ESMC

namespace SyncEState

@[reducible]
def fields : Fields :=
  field "enabled" .bool <| stateField "selected-source" .string <|
  stateField "selected-ql" .string <| stateField "selected-extended-ql" .string <|
  listField ["interfaces", "interface"] false SyncEInterface.fields <|
  structField ["esmc"] ESMC.fields .nil

def ofVals : fields.Vals → SyncEState
  | (enabled, selectedSource, selectedQL, selectedExtendedQL, interfaces, esmc, ()) =>
    { enabled, selectedSource, selectedQL, selectedExtendedQL,
      interfaces := interfaces.map SyncEInterface.ofVals, esmc := ESMC.ofVals esmc }

def toVals (s : SyncEState) : fields.Vals :=
  (s.enabled, s.selectedSource, s.selectedQL, s.selectedExtendedQL,
    s.interfaces.map SyncEInterface.toVals, s.esmc.toVals, ())

end SyncEState

/-! ## The device -/

structure Device where
  systemInfo : SystemInfo
  interfaces : List Interface
  vlans : List VLAN
  macTable : MACTable
  stp : STPState
  lldp : LLDPConfig
  ptp : PTPClock
  syncE : SyncEState

namespace Device

@[reducible]
def fields : Fields :=
  structField ["system-info"] SystemInfo.fields <|
  listField ["interfaces", "interface"] false Interface.fields <|
  listField ["vlans", "vlan"] true VLAN.fields <| structField ["mac-table"] MACTable.fields <|
  structField ["stp", "state"] STPState.fields <| structField ["lldp"] LLDPConfig.fields <|
  structField ["ptp", "clock"] PTPClock.fields <| structField ["synce"] SyncEState.fields .nil

def ofVals : fields.Vals → Device
  | (systemInfo, interfaces, vlans, macTable, stp, lldp, ptp, syncE, ()) =>
    { systemInfo := SystemInfo.ofVals systemInfo,
      interfaces := interfaces.map Interface.ofVals, vlans := vlans.map VLAN.ofVals,
      macTable := MACTable.ofVals macTable, stp := STPState.ofVals stp,
      lldp := LLDPConfig.ofVals lldp, ptp := PTPClock.ofVals ptp,
      syncE := SyncEState.ofVals syncE }

def toVals (s : Device) : fields.Vals :=
  (s.systemInfo.toVals, s.interfaces.map Interface.toVals, s.vlans.map VLAN.toVals,
    s.macTable.toVals, s.stp.toVals, s.lldp.toVals, s.ptp.toVals, s.syncE.toVals, ())

end Device

/-! ## The fields of a device are the device -/

/-- A list of values that are read and rendered again. -/
theorem map_toVals_ofVals {fields : Fields} {α : Type} {ofVals : fields.Vals → α}
    {toVals : α → fields.Vals} (hElement : ∀ values, toVals (ofVals values) = values)
    (elements : List fields.Vals) : (elements.map ofVals).map toVals = elements := by
  rw [List.map_map]
  exact (List.map_congr_left fun values _ => hElement values).trans (List.map_id _)

theorem ModProfile.toVals_ofVals (values : ModProfile.fields.Vals) :
    (ModProfile.ofVals values).toVals = values := rfl

theorem RadioLink.toVals_ofVals : ∀ values : RadioLink.fields.Vals,
    (RadioLink.ofVals values).toVals = values
  | (_, _, _, _, _, _, _, _, _, profiles, ()) => by
      rw [RadioLink.ofVals, RadioLink.toVals, map_toVals_ofVals ModProfile.toVals_ofVals profiles]
      rfl

theorem Interface.toVals_ofVals : ∀ values : Interface.fields.Vals,
    (Interface.ofVals values).toVals = values
  | (_, _, _, _, _, none, _, ()) => rfl
  | (_, _, _, _, _, some link, _, ()) => by
      rw [Interface.ofVals, Interface.toVals, Option.map_some, Option.map_some,
        RadioLink.toVals_ofVals link]
      rfl

theorem VLANPort.toVals_ofVals (values : VLANPort.fields.Vals) :
    (VLANPort.ofVals values).toVals = values := rfl

theorem VLAN.toVals_ofVals : ∀ values : VLAN.fields.Vals, (VLAN.ofVals values).toVals = values
  | (_, _, _, ports, ()) => by
      rw [VLAN.ofVals, VLAN.toVals, map_toVals_ofVals VLANPort.toVals_ofVals ports]

theorem MACEntry.toVals_ofVals (values : MACEntry.fields.Vals) :
    (MACEntry.ofVals values).toVals = values := rfl

theorem MACTable.toVals_ofVals : ∀ values : MACTable.fields.Vals,
    (MACTable.ofVals values).toVals = values
  | (entries, _) => by
      rw [MACTable.ofVals, MACTable.toVals, map_toVals_ofVals MACEntry.toVals_ofVals entries]

theorem STPPort.toVals_ofVals (values : STPPort.fields.Vals) :
    (STPPort.ofVals values).toVals = values := rfl

theorem STPState.toVals_ofVals : ∀ values : STPState.fields.Vals,
    (STPState.ofVals values).toVals = values
  | (_, _, _, _, _, _, ports, ()) => by
      rw [STPState.ofVals, STPState.toVals, map_toVals_ofVals STPPort.toVals_ofVals ports]

theorem LLDPNeighbor.toVals_ofVals (values : LLDPNeighbor.fields.Vals) :
    (LLDPNeighbor.ofVals values).toVals = values := rfl

theorem LLDPConfig.toVals_ofVals : ∀ values : LLDPConfig.fields.Vals,
    (LLDPConfig.ofVals values).toVals = values
  | (_, _, _, _, _, _, _, _, neighbors, ()) => by
      rw [LLDPConfig.ofVals, LLDPConfig.toVals,
        map_toVals_ofVals LLDPNeighbor.toVals_ofVals neighbors]

theorem SyncEInterface.toVals_ofVals (values : SyncEInterface.fields.Vals) :
    (SyncEInterface.ofVals values).toVals = values := rfl

theorem SyncEState.toVals_ofVals : ∀ values : SyncEState.fields.Vals,
    (SyncEState.ofVals values).toVals = values
  | (_, _, _, _, interfaces, _, ()) => by
      rw [SyncEState.ofVals, SyncEState.toVals,
        map_toVals_ofVals SyncEInterface.toVals_ofVals interfaces]
      rfl

theorem Device.toVals_ofVals : ∀ values : Device.fields.Vals,
    (Device.ofVals values).toVals = values
  | (_, interfaces, vlans, macTable, stp, lldp, _, syncE, ()) => by
      rw [Device.ofVals, Device.toVals, map_toVals_ofVals Interface.toVals_ofVals interfaces,
        map_toVals_ofVals VLAN.toVals_ofVals vlans, MACTable.toVals_ofVals macTable,
        STPState.toVals_ofVals stp, LLDPConfig.toVals_ofVals lldp,
        SyncEState.toVals_ofVals syncE]
      rfl

end Model
end TriadSim

import TriadSim.Model.Validate

/-!
# The boot configuration

`DefaultDevice` of `internal/model/seed.go`: the template the router indexes, and
the data the simulator seeds its store with on the first boot.
-/

namespace TriadSim
namespace Model

open Go

/-- A decimal constant with one digit after the point. -/
def tenths (n : Int) : Float64 :=
  Float64.ofRatio (decide (n < 0)) n.natAbs 10

/-- `defaultProfiles`: the ACM table. -/
def defaultProfiles : List ModProfile :=
  let rows : List (String × String × Int × Int × UInt32) :=
    [("QPSK", "1/2", 10, -88, 28), ("QPSK", "3/4", 15, -86, 42), ("8PSK", "2/3", 20, -83, 56),
      ("16QAM", "3/4", 30, -79, 84), ("32QAM", "4/5", 40, -76, 112),
      ("64QAM", "4/5", 50, -73, 140), ("128QAM", "5/6", 60, -70, 168),
      ("256QAM", "5/6", 70, -67, 196), ("512QAM", "7/8", 80, -64, 224),
      ("1024QAM", "7/8", 90, -61, 252), ("2048QAM", "8/9", 100, -58, 280),
      ("4096QAM", "9/10", 110, -55, 308)]
  rows.mapIdx fun index (modulation, codingRate, efficiency, threshold, capacity) =>
    { id := UInt8.ofNat (index + 1), name := "acm-" ++ formatNat (index + 1)
      modulation := modulation, codingRate := codingRate
      spectralEfficiency := tenths efficiency, rslThreshold := Float64.ofInt threshold
      capacity := capacity }

def defaultLink : RadioLink where
  name := "radio0"
  txPower := Float64.ofInt 20
  rssi := tenths (-725)
  fadeMargin := tenths 125
  capacity := 112
  linkState := "up"
  linkBudget :=
    { linkLength := tenths 125, frequency := Float64.ofInt 18, txAntennaGain := Float64.ofInt 38
      rxAntennaGain := Float64.ofInt 38, feedLoss := Float64.ofInt 2
      calculatedRSL := tenths (-725) }
  atpc :=
    { enabled := true, targetRSL := Float64.ofInt (-45), minPower := Float64.ofInt (-10)
      maxPower := Float64.ofInt 30, range := Float64.ofInt 20, currentPower := tenths 185 }
  acm :=
    { enabled := true, mode := "adaptive", minProfile := 1, maxProfile := 12
      currentProfile := 5, currentCapacity := 112 }
  profiles := defaultProfiles

def zeroCounters : InterfaceCounters :=
  ⟨0, 0, 0, 0, 0, 0, 0, 0⟩

/-- An Ethernet interface of the template. -/
def defaultEthernet (name macAddress : String) : Interface where
  name := name
  type := "ethernet"
  enabled := true
  mtu := 1500
  macAddress := macAddress
  radioLink := none
  counters := zeroCounters

/-- `defaultVLAN`. -/
def defaultVLAN : VLAN where
  id := 100
  name := "DATA"
  description := "default data vlan"
  ports :=
    [{ port := "eth0", mode := "access", pvid := 100, tagged := false, qinQ := false
       outerVID := 0, cTagHandling := [] }]

/-- `defaultSTPState`. -/
def defaultSTPState : STPState where
  enabled := true
  protocol := "rstp"
  bridgePriority := 32768
  bridgeAddress := "02:00:00:00:00:01"
  rootID := "02:00:00:00:00:01"
  rootCost := 0
  ports :=
    [{ port := "eth0", role := "root", state := "forwarding", priority := 128
       pathCost := 20000, edgePort := false },
     { port := "eth1", role := "alternate", state := "discarding", priority := 128
       pathCost := 20000, edgePort := false }]

/-- `defaultLLDPConfig`. -/
def defaultLLDPConfig : LLDPConfig where
  enabled := true
  txInterval := 30
  txHoldMultiplier := 4
  reinitDelay := 2
  txDelay := 2
  chassisID := "02:00:00:00:00:01"
  systemName := "triadsim-01"
  systemDescription := "TriadSim simulated telecom device"
  neighbors := []

/-- `defaultPTPClock`. -/
def defaultPTPClock : PTPClock where
  mode := "master"
  domain := 24
  priority1 := 128
  priority2 := 128
  clockClass := 6
  clockAccuracy := 0x21
  holdoverTimeout := 300
  state := "locked"
  offset := ⟨0⟩
  jitter := ⟨0⟩

/-- `defaultSyncEState`. -/
def defaultSyncEState : SyncEState where
  enabled := true
  selectedSource := "eth0"
  selectedQL := "QL-PRC"
  selectedExtendedQL := []
  interfaces :=
    [{ name := "eth0", ssmEnabled := true, ql := "QL-PRC", extendedQL := [], priority := 10
       ptpPreference := true },
     { name := "eth1", ssmEnabled := true, ql := "QL-SSU-A", extendedQL := [], priority := 20
       ptpPreference := false }]
  esmc := { enabled := true, txInterval := 1, extendedCodes := false }

/-- `DefaultDevice`. -/
def defaultDevice : Device where
  systemInfo :=
    { deviceID := "sim-001", name := "triadsim-01"
      description := "TriadSim simulated telecom device", contact := "noc@example.net"
      location := "lab", uptime := 0 }
  interfaces :=
    [{ name := "radio0", type := "radio", enabled := true, mtu := 1500, macAddress := []
       radioLink := some defaultLink, counters := zeroCounters },
     defaultEthernet "eth0" "02:00:00:00:00:01", defaultEthernet "eth1" "02:00:00:00:00:02"]
  vlans := [defaultVLAN]
  macTable :=
    { entries :=
        [{ mac := "02:00:00:00:00:02", vlan := 100, port := 3, type := "static", age := 0
           permanent := true }]
      agingTime := 300, maxEntries := 8192, currentCount := 1 }
  stp := defaultSTPState
  lldp := defaultLLDPConfig
  ptp := defaultPTPClock
  syncE := defaultSyncEState

/-- The boot configuration is valid. -/
theorem defaultDevice_validate : defaultDevice.validate = .ok () := by
  decide +kernel

end Model
end TriadSim

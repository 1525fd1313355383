import TriadSim.Errors
import TriadSim.Model.Types

/-!
# Model validation

The `Validate` methods of `internal/model`.  A method runs its checks in order and
reports the first that fails; an object reports the error of a part of it behind
the name of that part.
-/

namespace TriadSim
namespace Model

open Go

/-! ## Checks -/

/-- The result of a `Validate` method. -/
abbrev Check := Except Err Unit

def require (holds : Bool) (err : Err) : Check :=
  if holds then .ok () else .error err

/-- The error of a part, behind the name of the part. -/
def within (lead : Err) (check : Check) : Check :=
  match check with
  | .ok () => .ok ()
  | .error err => .error (lead ++ err)

/-- A loop over the entries of a list: each is validated, then its key must not
have occurred before. -/
def checkEntries {α κ : Type} [DecidableEq κ] (label : Nat → Err) (validate : α → Check)
    (key : α → κ) (duplicate : Nat → α → Err) : Nat → List κ → List α → Check
  | _, _, [] => .ok ()
  | index, seen, entry :: entries => do
      within (label index) (validate entry)
      require (key entry ∉ seen) (duplicate index entry)
      checkEntries label validate key duplicate (index + 1) (key entry :: seen) entries

@[simp] theorem isOk_require (holds : Bool) (err : Err) : (require holds err).isOk = holds := by
  cases holds <;> rfl

@[simp] theorem isOk_within (lead : Err) (check : Check) :
    (within lead check).isOk = check.isOk := by
  cases check <;> rfl

@[simp] theorem isOk_bind (check next : Check) :
    (check >>= fun _ => next).isOk = (check.isOk && next.isOk) := by
  cases check <;> rfl

theorem isOk_checkEntries {α κ : Type} [DecidableEq κ] (label : Nat → Err)
    (validate : α → Check) (key : α → κ) (duplicate : Nat → α → Err) (index : Nat)
    (seen : List κ) (entries : List α) :
    (checkEntries label validate key duplicate index seen entries).isOk =
      (entries.all (fun entry => (validate entry).isOk) &&
        decide ((entries.map key).Nodup ∧ ∀ entry ∈ entries, key entry ∉ seen)) := by
  induction entries generalizing index seen with
  | nil => simp [checkEntries, Except.isOk, Except.toBool]
  | cons entry entries ih =>
    rw [checkEntries, isOk_bind, isOk_bind, isOk_within, isOk_require, ih, List.all_cons]
    cases (validate entry).isOk
    · rfl
    cases entries.all fun entry => (validate entry).isOk
    · simp
    simp only [Bool.true_and, List.map_cons, List.nodup_cons, List.mem_map, List.mem_cons,
      forall_eq_or_imp, not_exists, not_and, not_or, ← Bool.decide_and, decide_eq_decide]
    constructor
    · rintro ⟨hFresh, hNodup, hRest⟩
      exact ⟨⟨fun other hOther => (hRest other hOther).1, hNodup⟩, hFresh,
        fun other hOther => (hRest other hOther).2⟩
    · rintro ⟨⟨hHead, hNodup⟩, hFresh, hRest⟩
      exact ⟨hFresh, hNodup, fun other hOther => ⟨hHead other hOther, hRest other hOther⟩⟩

/-! ## Helpers -/

/-- `inRange`: finite and within the bounds. -/
def inRange (x low high : Float64) : Bool :=
  x.finite && Float64.le low x && Float64.le x high

/-- Positive and finite. -/
def positive (x : Float64) : Bool :=
  x.finite && !Float64.le x ⟨0⟩

/-- The value of a hexadecimal digit pair. -/
def hexPair (high low : UInt8) : Option UInt8 := do
  let highValue ← digitValue? true high
  let lowValue ← digitValue? true low
  return UInt8.ofNat (16 * highValue + lowValue)

/-- Octets as digit pairs with one separator between them. -/
def separatedOctets (separator : UInt8) : GoString → Option (List UInt8)
  | [high, low] => (hexPair high low).map fun octet => [octet]
  | high :: low :: mark :: rest =>
    if mark = separator then do
      let octet ← hexPair high low
      let octets ← separatedOctets separator rest
      return octet :: octets
    else none
  | _ => none

/-- Octets as groups of two digit pairs with dots between the groups. -/
def dottedOctets : GoString → Option (List UInt8)
  | [a, b, c, d] => do
      let first ← hexPair a b
      let second ← hexPair c d
      return [first, second]
  | a :: b :: c :: d :: mark :: rest =>
    if mark = 46 then do
      let first ← hexPair a b
      let second ← hexPair c d
      let octets ← dottedOctets rest
      return first :: second :: octets
    else none
  | _ => none

/-- `net.ParseMAC`: the third byte decides between the colon and the hyphen form,
the fifth between those and the dotted form; 6, 8 or 20 octets are accepted. -/
def parseMAC (s : GoString) : Option (List UInt8) :=
  let octets :=
    match s with
    | _ :: _ :: third :: _ :: fifth :: _ =>
      if third = 58 || third = 45 then separatedOctets third s
      else if fifth = 46 then dottedOctets s
      else none
    | _ => none
  octets.filter fun parsed =>
    parsed.length = 6 || parsed.length = 8 || parsed.length = 20

/-- `validMAC`: a 48-bit address. -/
def validMAC (s : GoString) : Bool :=
  match parseMAC s with
  | some octets => octets.length = 6
  | none => false

example : validMAC "0200.0000.0001" = true := by decide

/-! ## Messages -/

/-- `"<name> %d out of range <low>..<high>"`. -/
def outOfRange (lead : GoString) (value low high : Nat) : Err :=
  .text lead ++ .piece (.decimal value) ++ .text " out of range " ++ .piece (.decimal low) ++
    .text ".." ++ .piece (.decimal high)

/-- `"<name> %.1f out of range <bounds>"`. -/
def floatOutOfRange (lead : GoString) (value : Float64) (bounds : GoString) : Err :=
  .text lead ++ .piece (.tenths value) ++ .text (" out of range " ++ bounds)

/-- `"<name> %.1f must be greater than 0"`. -/
def notPositive (lead : GoString) (value : Float64) : Err :=
  .text lead ++ .piece (.tenths value) ++ .text " must be greater than 0"

/-- `"<lead>%q<tail>"`. -/
def unknownText (lead value tail : GoString) : Err :=
  .text lead ++ .piece (.quoted value) ++ .text tail

/-- `"<list>[%d]: "`. -/
def indexLabel (list : GoString) (index : Nat) : Err :=
  .text (list ++ "[") ++ .piece (.decimal index) ++ .text "]: "

/-- Membership in a list of literals. -/
def oneOf (s : GoString) (literals : List String) : Bool :=
  s ∈ literals.map text

/-! ## Radio links -/

def txPowerMin : Float64 := Float64.ofInt (-10)
def txPowerMax : Float64 := Float64.ofInt 30
def rssiMin : Float64 := Float64.ofInt (-99)
def rssiMax : Float64 := Float64.ofInt (-20)
def frequencyMin : Float64 := Float64.ofInt 6
def frequencyMax : Float64 := Float64.ofInt 86
def antennaGainMin : Float64 := Float64.ofInt 30
def antennaGainMax : Float64 := Float64.ofInt 45
def feedLossMin : Float64 := Float64.ofInt 1
def feedLossMax : Float64 := Float64.ofInt 5

def LinkBudget.validate (l : LinkBudget) : Check := do
  require (positive l.linkLength) (notPositive "link-length " l.linkLength)
  require (inRange l.frequency frequencyMin frequencyMax)
    (floatOutOfRange "frequency " l.frequency "6..86 GHz")
  require (inRange l.txAntennaGain antennaGainMin antennaGainMax)
    (floatOutOfRange "tx-antenna-gain " l.txAntennaGain "30..45 dBi")
  require (inRange l.rxAntennaGain antennaGainMin antennaGainMax)
    (floatOutOfRange "rx-antenna-gain " l.rxAntennaGain "30..45 dBi")
  require (inRange l.feedLoss feedLossMin feedLossMax)
    (floatOutOfRange "feed-loss " l.feedLoss "1..5 dB")
  require (inRange l.calculatedRSL rssiMin rssiMax)
    (floatOutOfRange "calculated-rsl " l.calculatedRSL "-99..-20 dBm")

def ATPC.validate (a : ATPC) : Check := do
  require (inRange a.targetRSL rssiMin rssiMax)
    (floatOutOfRange "target-rsl " a.targetRSL "-99..-20 dBm")
  require (inRange a.minPower txPowerMin txPowerMax)
    (floatOutOfRange "min-power " a.minPower "-10..30 dBm")
  require (inRange a.maxPower txPowerMin txPowerMax)
    (floatOutOfRange "max-power " a.maxPower "-10..30 dBm")
  require (positive a.range) (notPositive "range " a.range)
  -- The window and the current power matter only while ATPC is enabled.
  require (!a.enabled || !Float64.le a.maxPower a.minPower)
    (.text "min-power " ++ .piece (.tenths a.minPower) ++ .text " must be less than max-power " ++
      .piece (.tenths a.maxPower))
  require (!a.enabled ||
      !(Float64.lt a.currentPower a.minPower || Float64.lt a.maxPower a.currentPower))
    (.text "current-power " ++ .piece (.tenths a.currentPower) ++ .text " outside min-power " ++
      .piece (.tenths a.minPower) ++ .text "..max-power " ++ .piece (.tenths a.maxPower))

def minACMProfile : UInt8 := 1
def maxACMProfile : UInt8 := 12

def ACM.validate (a : ACM) : Check := do
  require (oneOf a.mode ["adaptive", "fixed"])
    (unknownText "unknown mode " a.mode " (want adaptive or fixed)")
  require (minACMProfile ≤ a.minProfile && a.minProfile ≤ maxACMProfile)
    (outOfRange "min-profile " a.minProfile.toNat 1 12)
  require (minACMProfile ≤ a.maxProfile && a.maxProfile ≤ maxACMProfile)
    (outOfRange "max-profile " a.maxProfile.toNat 1 12)
  require (a.minProfile ≤ a.maxProfile)
    (.text "min-profile " ++ .piece (.decimal a.minProfile.toNat) ++
      .text " must not exceed max-profile " ++ .piece (.decimal a.maxProfile.toNat))

def ModProfile.validate (p : ModProfile) : Check := do
  let lead : Err := .text "id " ++ .piece (.decimal p.id.toNat)
  require (minACMProfile ≤ p.id && p.id ≤ maxACMProfile) (outOfRange "id " p.id.toNat 1 12)
  require (p.name ≠ []) (lead ++ .text ": name must not be empty")
  require (p.modulation ≠ []) (lead ++ .text ": modulation must not be empty")
  require (p.codingRate ≠ []) (lead ++ .text ": coding-rate must not be empty")
  require (positive p.spectralEfficiency)
    (lead ++ notPositive ": spectral-efficiency " p.spectralEfficiency)
  require (inRange p.rslThreshold rssiMin rssiMax)
    (lead ++ floatOutOfRange ": rsl-threshold " p.rslThreshold "-99..-20 dBm")
  require (p.capacity ≠ 0) (lead ++ .text ": capacity must be greater than 0")

def RadioLink.validate (r : RadioLink) : Check := do
  let lead : Err := .text ("radio-link " ++ r.name ++ ": ")
  require (r.name ≠ []) (.text "radio-link: name must not be empty")
  require (inRange r.txPower txPowerMin txPowerMax)
    (lead ++ floatOutOfRange "tx-power " r.txPower "-10..30 dBm")
  require (inRange r.rssi rssiMin rssiMax)
    (lead ++ floatOutOfRange "rssi " r.rssi "-99..-20 dBm")
  require r.fadeMargin.finite (lead ++ .text "fade-margin must be a finite number")
  require (r.capacity ≠ 0) (lead ++ .text "capacity must be greater than 0")
  require (oneOf r.linkState ["up", "degraded", "down"])
    (lead ++ unknownText "unknown link-state " r.linkState " (want up, degraded or down)")
  within (lead ++ .text "link-budget: ") r.linkBudget.validate
  within (lead ++ .text "atpc: ") r.atpc.validate
  within (lead ++ .text "acm: ") r.acm.validate
  checkEntries (fun index => lead ++ indexLabel "modulation-profile" index) ModProfile.validate
    ModProfile.id
    (fun _ profile => lead ++ .text "duplicate modulation-profile id " ++
      .piece (.decimal profile.id.toNat))
    0 [] r.profiles

/-! ## Interfaces -/

def Interface.validate (i : Interface) : Check := do
  let lead : Err := .text ("interface " ++ i.name ++ ": ")
  require (i.name ≠ []) (.text "interface: name must not be empty")
  require (oneOf i.type ["radio", "ethernet"])
    (lead ++ unknownText "unknown type " i.type " (want radio or ethernet)")
  require (576 ≤ i.mtu && i.mtu ≤ 9216) (lead ++ outOfRange "mtu " i.mtu.toNat 576 9216)
  require (i.macAddress = [] || validMAC i.macAddress)
    (lead ++ unknownText "malformed mac-address " i.macAddress "")
  match i.radioLink with
  | some link => within (lead ++ .text "radio-link: ") link.validate
  | none => .ok ()
  -- Every counter value is valid.

/-! ## Switching -/

def vlanIDMin : UInt16 := 1
def vlanIDMax : UInt16 := 4094

/-- A VLAN identifier of IEEE 802.1Q. -/
def validVLANID (id : UInt16) : Bool :=
  vlanIDMin ≤ id && id ≤ vlanIDMax

/-- `validateQinQ`. -/
def VLANPort.validateQinQ (p : VLANPort) : Check := do
  let lead : Err := .text ("port " ++ p.port ++ ": ")
  if !p.qinQ then
    require (p.outerVID = 0)
      (lead ++ .text "s-tag-vid " ++ .piece (.decimal p.outerVID.toNat) ++ .text " requires qinq")
    require (p.cTagHandling = [])
      (lead ++ unknownText "c-tag-handling " p.cTagHandling " requires qinq")
  else
    require (validVLANID p.outerVID) (lead ++ outOfRange "s-tag-vid " p.outerVID.toNat 1 4094)
    require (p.outerVID ≠ p.pvid)
      (lead ++ .text "s-tag-vid " ++ .piece (.decimal p.outerVID.toNat) ++
        .text " must differ from the inner pvid")
    require (oneOf p.cTagHandling ["push", "pop", "transparent"])
      (lead ++ unknownText "unknown c-tag-handling " p.cTagHandling
        " (want push, pop or transparent)")

def VLANPort.validate (p : VLANPort) : Check := do
  let lead : Err := .text ("port " ++ p.port ++ ": ")
  require (p.port ≠ []) (.text "port must not be empty")
  require (oneOf p.mode ["access", "trunk", "hybrid"])
    (lead ++ unknownText "unknown mode " p.mode "")
  require (validVLANID p.pvid) (lead ++ outOfRange "pvid " p.pvid.toNat 1 4094)
  require (!(p.mode = text "access" && p.tagged))
    (lead ++ .text "access mode must not be tagged")
  p.validateQinQ

/-- The loop over the member ports of a VLAN, which does not look for duplicates. -/
def VLAN.validatePorts (lead : Err) : Nat → List VLANPort → Check
  | _, [] => .ok ()
  | index, port :: ports => do
      within (lead ++ indexLabel "ports" index) port.validate
      VLAN.validatePorts lead (index + 1) ports

def VLAN.validate (v : VLAN) : Check := do
  let lead : Err := .text "vlan " ++ .piece (.decimal v.id.toNat) ++ .text ": "
  require (validVLANID v.id) (outOfRange "vlan: id " v.id.toNat 1 4094)
  require (v.name ≠ []) (lead ++ .text "name must not be empty")
  VLAN.validatePorts lead 0 v.ports

def MACEntry.validate (m : MACEntry) : Check := do
  require (validMAC m.mac) (unknownText "mac-address " m.mac " is not a 48-bit MAC address")
  require (m.vlan ≤ vlanIDMax) (outOfRange "vlan-id " m.vlan.toNat 0 4094)
  require (oneOf m.type ["dynamic", "static"])
    (unknownText "unknown type " m.type " (want dynamic or static)")
  require (m.port ≠ 0) (.text "port must be greater than 0")
  require (!(m.permanent && m.type ≠ text "static"))
    (.text "permanent entry must have type static")

def MACTable.validate (m : MACTable) : Check := do
  require (10 ≤ m.agingTime && m.agingTime ≤ 1000000)
    (outOfRange "aging-time " m.agingTime.toNat 10 1000000)
  require (1 ≤ m.maxEntries && m.maxEntries ≤ 1000000)
    (outOfRange "max-entries " m.maxEntries.toNat 1 1000000)
  require (m.currentCount ≤ m.maxEntries)
    (.text "current-count " ++ .piece (.decimal m.currentCount.toNat) ++
      .text " exceeds max-entries " ++ .piece (.decimal m.maxEntries.toNat))
  -- The table is addressed by MAC address alone.
  checkEntries (indexLabel "entry") MACEntry.validate MACEntry.mac
    (fun index entry => indexLabel "entry" index ++ .text ("duplicate mac-address " ++ entry.mac))
    0 [] m.entries

def LLDPNeighbor.validate (n : LLDPNeighbor) : Check := do
  require (n.port ≠ []) (.text "port must not be empty")
  require (n.chassisID ≠ []) (.text "chassis-id must not be empty")
  require (n.portID ≠ []) (.text "port-id must not be empty")
  require (n.ttl ≠ 0 && n.ttl ≤ 65535) (outOfRange "ttl " n.ttl.toNat 1 65535)

def LLDPConfig.validate (c : LLDPConfig) : Check := do
  require (1 ≤ c.txInterval && c.txInterval ≤ 3600)
    (outOfRange "tx-interval " c.txInterval.toNat 1 3600)
  require (2 ≤ c.txHoldMultiplier && c.txHoldMultiplier ≤ 10)
    (outOfRange "tx-hold-multiplier " c.txHoldMultiplier.toNat 2 10)
  require (1 ≤ c.reinitDelay && c.reinitDelay ≤ 10)
    (outOfRange "reinit-delay " c.reinitDelay.toNat 1 10)
  require (1 ≤ c.txDelay && c.txDelay ≤ 10) (outOfRange "tx-delay " c.txDelay.toNat 1 10)
  require (c.chassisID ≠ []) (.text "chassis-id must not be empty")
  checkEntries (indexLabel "neighbors") LLDPNeighbor.validate LLDPNeighbor.port
    (fun index neighbor => indexLabel "neighbors" index ++
      .text ("duplicate neighbour on port " ++ neighbor.port))
    0 [] c.neighbors

/-- `STPPortStates`: the port states of a protocol. -/
def stpPortStates (protocol : GoString) : List String :=
  if protocol = text "rstp" then ["discarding", "learning", "forwarding"]
  else ["disabled", "blocking", "listening", "learning", "forwarding"]

def STPPort.validate (p : STPPort) : Check := do
  let lead : Err := .text ("port " ++ p.port ++ ": ")
  require (p.port ≠ []) (.text "port must not be empty")
  require (oneOf p.role ["root", "designated", "alternate", "backup"])
    (lead ++ unknownText "unknown role " p.role "")
  require (oneOf p.state
      ["disabled", "blocking", "listening", "discarding", "learning", "forwarding"])
    (lead ++ unknownText "unknown state " p.state "")
  require (p.priority ≤ 240 && p.priority % 16 = 0)
    (lead ++ outOfRange "priority " p.priority.toNat 0 240 ++ .text " in steps of 16")

/-- The loop over the bridge ports of an enabled spanning tree. -/
def STPState.validatePorts (protocol : GoString) : Nat → List STPPort → Check
  | _, [] => .ok ()
  | index, port :: ports => do
      within (indexLabel "ports" index) port.validate
      require (oneOf port.state (stpPortStates protocol))
        (indexLabel "ports" index ++ unknownText "state " port.state (" is not a " ++ protocol ++
          " state (want one of " ++
            [44, 32].intercalate ((stpPortStates protocol).map text) ++ ")"))
      STPState.validatePorts protocol (index + 1) ports

def STPState.validate (s : STPState) : Check := do
  require (oneOf s.protocol ["stp", "rstp"])
    (unknownText "unknown protocol " s.protocol " (want stp or rstp)")
  require (s.bridgePriority ≤ 61440 && s.bridgePriority % 4096 = 0)
    (outOfRange "bridge-priority " s.bridgePriority.toNat 0 61440 ++ .text " in steps of 4096")
  require (s.bridgeAddress = [] || validMAC s.bridgeAddress)
    (unknownText "malformed bridge-address " s.bridgeAddress "")
  require (s.rootID = [] || validMAC s.rootID) (unknownText "malformed root-id " s.rootID "")
  if s.enabled then STPState.validatePorts s.protocol 0 s.ports else .ok ()

/-! ## Synchronization -/

def PTPClock.validate (c : PTPClock) : Check := do
  require (oneOf c.mode ["master", "slave", "boundary"])
    (unknownText "unknown mode " c.mode " (want master, slave or boundary)")
  require (c.domain ≤ 127) (outOfRange "domain " c.domain.toNat 0 127)
  require (c.holdoverTimeout ≠ 0) (.text "holdover-timeout must be greater than 0")
  require c.offset.finite (.text "offset must be a finite number")
  require c.jitter.finite (.text "jitter must be a finite number")
  require (c.state = [] || oneOf c.state
      ["freerun", "acquiring", "locked", "holdover-in-spec", "holdover-out-of-spec"])
    (unknownText "unknown state " c.state "")

/-- `QL.Validate`. -/
def validateQL (ql : GoString) : Check :=
  require (oneOf ql ["QL-PRC", "QL-SSU-A", "QL-SSU-B", "QL-SEC", "QL-DNU"])
    (unknownText "unknown quality level " ql "")

/-- An extended quality level, or none. -/
def validExtendedQL (ql : GoString) : Bool :=
  oneOf ql ["", "QL-PRTC", "QL-ePRTC", "QL-eEEC"]

def SyncEInterface.validate (i : SyncEInterface) : Check := do
  require (i.name ≠ []) (.text "name must not be empty")
  within (.text ("interface " ++ i.name ++ ": ")) (validateQL i.ql)
  require (validExtendedQL i.extendedQL)
    (.text ("interface " ++ i.name ++ ": ") ++ unknownText "unknown extended-ql " i.extendedQL "")

def ESMC.validate (e : ESMC) : Check :=
  require (e.txInterval ≠ 0) (.text "tx-interval must be greater than 0")

def SyncEState.validate (s : SyncEState) : Check := do
  checkEntries (indexLabel "interfaces") SyncEInterface.validate SyncEInterface.name
    (fun _ iface => unknownText "duplicate interface " iface.name "") 0 [] s.interfaces
  require (s.selectedSource = [] || s.selectedSource ∈ s.interfaces.map SyncEInterface.name)
    (unknownText "selected-source " s.selectedSource " does not name an interface")
  if s.selectedQL ≠ [] then within (.text "selected-ql: ") (validateQL s.selectedQL) else .ok ()
  require (validExtendedQL s.selectedExtendedQL)
    (unknownText "unknown selected extended-ql " s.selectedExtendedQL "")
  within (.text "esmc: ") s.esmc.validate

/-! ## The device -/

def SystemInfo.validate (s : SystemInfo) : Check :=
  require (s.deviceID ≠ []) (.text "device-id must not be empty")

def Device.validate (d : Device) : Check := do
  within (.text "system-info: ") d.systemInfo.validate
  checkEntries (indexLabel "interfaces") Interface.validate Interface.name
    (fun index iface => indexLabel "interfaces" index ++
      unknownText "duplicate interface " iface.name "")
    0 [] d.interfaces
  checkEntries (indexLabel "vlans") VLAN.validate VLAN.id
    (fun index vlan => indexLabel "vlans" index ++ .text "duplicate vlan id " ++
      .piece (.decimal vlan.id.toNat))
    0 [] d.vlans
  within (.text "mac-table: ") d.macTable.validate
  within (.text "stp: ") d.stp.validate
  within (.text "lldp: ") d.lldp.validate
  within (.text "ptp: ") d.ptp.validate
  within (.text "synce: ") d.syncE.validate

end Model
end TriadSim

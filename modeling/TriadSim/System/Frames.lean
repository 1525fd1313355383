import TriadSim.L2.Forwarding
import TriadSim.System.Switching

/-!
# Where frames go

A flooded frame stays in its VLAN.  A frame whose destination is in the forwarding database goes
to the port of that entry, and the database is keyed by the address alone: the entry may have been
learned or configured in another VLAN, on a port that does not carry the VLAN of the frame.  The
main result is `egress_within_vlan_iff`.
-/

namespace TriadSim
namespace L2

open Go Library Model Router Store Datatree

/-- The port carries the VLAN of the frame, and the frame did not arrive on it. -/
def Frame.Within (device : Device) (frame : Frame) (port : GoString) : Prop :=
  portAccepts device port frame.vlan = true ∧ port ≠ frame.ingress

/-- The ingress port carries the VLAN of the frame, and the frame fits its MTU. -/
def Frame.Taken (device : Device) (frame : Frame) : Prop :=
  portAccepts device frame.ingress frame.vlan = true ∧
    ∃ interface, findInterface device frame.ingress = some interface ∧
      frame.octets ≤ interface.mtu.toUInt64

/-- The destination of a frame that is not broadcast is known on another port than the one it
arrived on. -/
structure Frame.KnownOn (device : Device) (frame : Frame) (port : GoString) : Prop where
  unicast : frame.broadcast = false
  entry : ∃ destination entry ingressIndex, normalizeMAC frame.dst = .ok destination ∧
    findMAC device.macTable.entries destination = some entry ∧
    bridgePortOf device frame.ingress = .ok ingressIndex ∧ entry.port ≠ ingressIndex ∧
    portNameOf device entry.port = .ok port

theorem within_of_mem_floodPorts {device : Device} {frame : Frame} {port : GoString}
    (hPort : port ∈ floodPorts device frame.vlan frame.ingress) : frame.Within device port := by
  unfold floodPorts at hPort
  cases hVLAN : findVLAN device.vlans frame.vlan with
  | none =>
    rw [hVLAN] at hPort
    cases hPort
  | some vlan =>
    rw [hVLAN] at hPort
    dsimp only at hPort
    rw [(List.perm_insertionSort _ _).mem_iff, List.mem_filter] at hPort
    obtain ⟨member, hMember, rfl⟩ := List.mem_map.mp hPort.1
    refine ⟨?_, of_decide_eq_true hPort.2⟩
    rw [portAccepts, hVLAN]
    exact List.find?_isSome.mpr ⟨member, hMember, by simp⟩

/-- A frame is flooded, filtered, or sent to the port that its destination is known on. -/
theorem egressPorts_cases {device : Device} {frame : Frame} {destination : GoString}
    {ingressIndex : UInt32} (hDst : normalizeMAC frame.dst = .ok destination)
    (hIndex : bridgePortOf device frame.ingress = .ok ingressIndex) :
    (∃ port, (∀ other, frame.KnownOn device other ↔ other = port) ∧
      egressPorts device frame destination ingressIndex = [port]) ∨
    (∀ port, ¬ frame.KnownOn device port) ∧
      ∀ port ∈ egressPorts device frame destination ingressIndex, frame.Within device port := by
  have hEntryOf : ∀ {port : GoString}, frame.KnownOn device port → ∃ entry,
      findMAC device.macTable.entries destination = some entry ∧ entry.port ≠ ingressIndex ∧
        portNameOf device entry.port = .ok port := by
    rintro port ⟨_, _, entry, _, hSameDst, hEntry, hSameIndex, hOther, hName⟩
    cases hDst.symm.trans hSameDst
    cases hIndex.symm.trans hSameIndex
    exact ⟨entry, hEntry, hOther, hName⟩
  unfold egressPorts
  split
  · next hBroadcast =>
    refine Or.inr ⟨fun port hKnown => ?_, fun port => within_of_mem_floodPorts⟩
    cases hBroadcast.symm.trans hKnown.unicast
  next hUnicast =>
  split
  · next hNone =>
    refine Or.inr ⟨fun port hKnown => ?_, fun port => within_of_mem_floodPorts⟩
    obtain ⟨entry, hEntry, _⟩ := hEntryOf hKnown
    cases hNone.symm.trans hEntry
  next entry hEntry =>
  split
  · next hFiltered =>
    refine Or.inr ⟨fun port hKnown => ?_, fun port hPort => by cases hPort⟩
    obtain ⟨_, hSame, hOther, _⟩ := hEntryOf hKnown
    cases hEntry.symm.trans hSame
    exact hOther hFiltered
  next hOther =>
  split
  · next port hName =>
    refine Or.inl ⟨port, fun other => ⟨fun hKnown => ?_, ?_⟩, rfl⟩
    · obtain ⟨_, hSame, _, hFound⟩ := hEntryOf hKnown
      cases hEntry.symm.trans hSame
      exact Except.ok.inj (hFound.symm.trans hName)
    · rintro rfl
      exact ⟨by simpa using hUnicast, destination, entry, ingressIndex, hDst, hEntry, hIndex,
        hOther, hName⟩
  · next err hName =>
    refine Or.inr ⟨fun port hKnown => ?_, fun port => within_of_mem_floodPorts⟩
    obtain ⟨_, hSame, _, hFound⟩ := hEntryOf hKnown
    cases hEntry.symm.trans hSame
    cases hName.symm.trans hFound

section Transmit

variable {json : Json} {opts : Options} {r : Router} {frame : Frame}

/-- Where a frame that is transmitted without an error has gone. -/
structure Sent (device : Device) (frame : Frame) (result : FrameResult) : Prop where
  known : ∃ destination ingressIndex, normalizeMAC frame.dst = .ok destination ∧
    bridgePortOf device frame.ingress = .ok ingressIndex ∧
    (frame.Taken device → result.egress = egressPorts device frame destination ingressIndex)
  dropped : ¬ frame.Taken device → result.egress = []

/-- Whatever the calls answer, the result of a program is one of these. -/
theorem ensures_returns {α : Type} {program : Prog α} {returns : α → Prop}
    {machine : Machine json}
    (hReturns : program.Only (fun _ => True) (fun _ => True) returns) :
    program.Ensures opts (fun value _ => returns value) machine :=
  (Program.Ensures.of_only hReturns (I := fun _ => True) (fun _ _ _ _ _ => trivial)
    trivial).mono fun _ _ hValue => hValue.1

/-- The egress ports are those of the snapshot that the call begins with. -/
theorem only_forward (device : Device) (source destination : GoString) (ingressIndex : UInt32) :
    (forward r device frame source destination ingressIndex).Only (fun _ => True) (fun _ => True)
      fun sent => sent.2 = .ok () →
        sent.1.egress = egressPorts device frame destination ingressIndex := by
  refine (Program.only_true _).bind ?_
  rintro (err | entry) _
  · dsimp only
    split
    · exact (Program.only_true _).bind fun _ _ _ => rfl
    · exact fun hOk => by cases hOk
  · exact (Program.only_true _).bind fun _ _ _ => rfl

theorem ensures_transmit (opts : Options) (r : Router) (frame : Frame) (machine : Machine json) :
    (transmit r frame).Ensures opts (fun sent _ => sent.2 = .ok () →
      ∃ device, deviceFromValues r.root machine.memory.running = .ok device ∧
        Sent device frame sent.1) machine := by
  unfold transmit
  split
  · exact fun hOk => by cases hOk
  · exact fun hOk => by cases hOk
  next source destination hSrc hDst =>
  refine Program.Ensures.locked (Program.Ensures.bind ensures_snapshot_during ?_)
  rintro (err | device) after ⟨rfl, hDevice⟩
  · exact fun hOk => by cases hOk
  have hDevice := hDevice device rfl
  dsimp only
  split
  · exact fun hOk => by cases hOk
  · exact fun hOk => by cases hOk
  next interface ingressIndex hInterface hIndex =>
  -- A frame that is dropped goes nowhere.
  have hDropped : ∀ {delta : InterfaceCounters} {reason : GoString}, ¬ frame.Taken device →
      ((incrementLocked r frame.ingress delta).bind fun done => Program.ret
        ((⟨frame.ingress, [], false, reason⟩ : FrameResult), done)).Ensures
          (Machine.handle opts) (fun sent _ => sent.2 = .ok () →
            ∃ device, deviceFromValues r.root after.memory.running = .ok device ∧
              Sent device frame sent.1) after := by
    intro delta reason hTaken
    refine ensures_returns ((Program.only_true _).bind fun _ _ _ => ?_)
    exact ⟨device, hDevice, ⟨destination, ingressIndex, hDst, hIndex,
      fun hTakes => absurd hTakes hTaken⟩, fun _ => rfl⟩
  split
  · next hOutside =>
    refine hDropped fun hTaken => ?_
    rw [hTaken.1] at hOutside
    cases hOutside
  next hInside =>
  split
  · next hLong =>
    refine hDropped fun hTaken => ?_
    obtain ⟨found, hFound, hFits⟩ := hTaken.2
    cases hInterface.symm.trans hFound
    exact absurd hLong (UInt64.not_lt.mpr hFits)
  next hFits =>
  refine Program.Ensures.bind (ensures_returns (Program.only_true _)) ?_
  rintro (err | done) moved _
  · exact fun hOk => by cases hOk
  · have hTaken : frame.Taken device :=
      ⟨by simpa using hInside, interface, hInterface, UInt64.not_lt.mp hFits⟩
    refine (ensures_returns (only_forward device source destination ingressIndex)).mono ?_
    exact fun sent _ hSent hOk => ⟨device, hDevice, ⟨destination, ingressIndex, hDst, hIndex,
      fun _ => hSent hOk⟩, fun hNot => absurd hTaken hNot⟩

end Transmit

/-- A frame that is transmitted without an error stays in its VLAN exactly if its destination is
not known on a port outside. -/
theorem egress_within_vlan_iff {json : Json} (opts : Options) (r : Router) (env : Nat → CallEnv)
    (machine : Machine json) (frame : Frame) (device : Device) (result : FrameResult)
    (hDevice : deviceFromValues r.root machine.memory.running = .ok device)
    (hSent : ((transmit r frame).run opts env machine).1 = (result, .ok ())) :
    (∀ port ∈ result.egress, frame.Within device port) ↔
      (frame.Taken device → ∀ port, frame.KnownOn device port → frame.Within device port) := by
  have hRun := Prog.Ensures.run (ensures_transmit opts r frame machine) env
  rw [hSent] at hRun
  obtain ⟨found, hFound, ⟨destination, ingressIndex, hDst, hIndex, hTaken⟩, hDropped⟩ := hRun rfl
  cases hDevice.symm.trans hFound
  by_cases hTakes : frame.Taken device
  · rw [show result.egress = _ from hTaken hTakes]
    rcases egressPorts_cases hDst hIndex with ⟨port, hKnown, hEgress⟩ | ⟨hUnknown, hWithin⟩
    · rw [hEgress]
      refine ⟨fun hAll _ other hOther => hAll other ?_, fun hAll other hOther => ?_⟩
      · exact List.mem_singleton.mpr ((hKnown other).mp hOther)
      · exact hAll hTakes other ((hKnown other).mpr (List.mem_singleton.mp hOther))
    · exact ⟨fun _ _ port hKnown => absurd hKnown (hUnknown port), fun _ => hWithin⟩
  · rw [show result.egress = [] from hDropped hTakes]
    exact ⟨fun _ hYes => absurd hYes hTakes, fun _ port hPort => by cases hPort⟩

/-- Two ports in a VLAN, a third one in another VLAN, and an address that is known there. -/
def apartContent : Values :=
  bareContent.insertMany
    [(text "interfaces/interface[name=eth0]/name", Leaf.string "eth0"),
      ("interfaces/interface[name=eth1]/name", .string "eth1"),
      ("interfaces/interface[name=radio0]/name", .string "radio0"),
      ("vlans/vlan[id=10]/name", .string "ten"),
      ("vlans/vlan[id=10]/ports/port[port=eth0]/mode", .string "access"),
      ("vlans/vlan[id=10]/ports/port[port=eth0]/pvid", .uint16 10),
      ("vlans/vlan[id=10]/ports/port[port=radio0]/mode", .string "access"),
      ("vlans/vlan[id=10]/ports/port[port=radio0]/pvid", .uint16 10),
      ("vlans/vlan[id=20]/name", .string "twenty"),
      ("vlans/vlan[id=20]/ports/port[port=eth1]/mode", .string "access"),
      ("vlans/vlan[id=20]/ports/port[port=eth1]/pvid", .uint16 20),
      ("mac-table/entry[mac-address=02:00:00:00:0a:02]/vlan-id", .uint16 20),
      ("mac-table/entry[mac-address=02:00:00:00:0a:02]/port", .uint32 3),
      ("mac-table/entry[mac-address=02:00:00:00:0a:02]/type", .string "dynamic")]

/-- A frame in the first of the two VLANs. -/
def frameTo (destination : GoString) : Frame :=
  ⟨"02:00:00:00:0a:01", destination, 10, "eth0", 100, false⟩

/-- The transmission of such a frame. -/
def sentTo (destination : GoString) : (FrameResult × Except Err Unit) × Machine Json.plain :=
  (transmit defaultRouter (frameTo destination)).run (defaultRouter.options [])
    (fun _ => CallEnv.quiet) (machineWith apartContent)

/-- A frame to an address that nobody has is flooded to the other port of its VLAN. -/
theorem unknown_destination_stays_in_vlan :
    ∃ device, deviceFromValues defaultRouter.root apartContent = .ok device ∧
      (sentTo "02:00:00:00:0a:03").1.2 = .ok () ∧
      (sentTo "02:00:00:00:0a:03").1.1.egress = [text "radio0"] ∧
      ∀ port ∈ (sentTo "02:00:00:00:0a:03").1.1.egress,
        (frameTo "02:00:00:00:0a:03").Within device port := by
  have hIff : ∀ destination device, deviceFromValues defaultRouter.root apartContent = .ok device →
      (sentTo destination).1.2 = .ok () → _ :=
    fun destination device hDevice hOk => egress_within_vlan_iff (defaultRouter.options [])
      defaultRouter (fun _ => CallEnv.quiet) (machineWith apartContent) (frameTo destination) device
      (sentTo destination).1.1 hDevice (Prod.ext rfl hOk)
  have hSent : (sentTo "02:00:00:00:0a:03").1.2 = .ok () ∧
      (sentTo "02:00:00:00:0a:03").1.1.egress = [text "radio0"] := by
    decide +kernel
  have hNone : ((deviceFromValues defaultRouter.root apartContent).toOption.any fun device =>
      (findMAC device.macTable.entries "02:00:00:00:0a:03").isNone) = true := by
    decide +kernel
  cases hDevice : deviceFromValues defaultRouter.root apartContent with
  | error err =>
    rw [hDevice] at hNone
    cases hNone
  | ok device =>
    rw [hDevice] at hNone
    refine ⟨device, rfl, hSent.1, hSent.2, (hIff _ device hDevice hSent.1).mpr ?_⟩
    rintro _ port ⟨_, destination, entry, _, hDst, hEntry, _⟩
    have hSame : normalizeMAC (frameTo "02:00:00:00:0a:03").dst = .ok "02:00:00:00:0a:03" := by
      decide +kernel
    cases hSame.symm.trans hDst
    cases (Option.isNone_iff_eq_none.mp hNone).symm.trans hEntry

/-- A frame in the first VLAN leaves through a port that is in the second one only. -/
theorem known_destination_leaves_vlan :
    ∃ device, deviceFromValues defaultRouter.root apartContent = .ok device ∧
      device.validate = .ok () ∧ (sentTo "02:00:00:00:0a:02").1.2 = .ok () ∧
      text "eth1" ∈ (sentTo "02:00:00:00:0a:02").1.1.egress ∧
      ¬ (frameTo "02:00:00:00:0a:02").Within device "eth1" := by
  have hSent : (sentTo "02:00:00:00:0a:02").1.2 = .ok () ∧
      text "eth1" ∈ (sentTo "02:00:00:00:0a:02").1.1.egress := by
    decide +kernel
  have hAll : ((deviceFromValues defaultRouter.root apartContent).toOption.any fun device =>
      device.validate.isOk && !portAccepts device "eth1" 10) = true := by
    decide +kernel
  cases hDevice : deviceFromValues defaultRouter.root apartContent with
  | error err =>
    rw [hDevice] at hAll
    cases hAll
  | ok device =>
    rw [hDevice] at hAll
    obtain ⟨hValid, hOutside⟩ := (Bool.and_eq_true _ _).mp hAll
    obtain ⟨_, hValid⟩ := exists_eq_ok_of_isOk hValid
    refine ⟨device, rfl, hValid, hSent.1, hSent.2, fun hWithin => ?_⟩
    rw [show portAccepts device "eth1" 10 = true from hWithin.1] at hOutside
    cases hOutside

end L2
end TriadSim

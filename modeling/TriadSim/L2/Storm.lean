import TriadSim.Events.Publishers
import TriadSim.L2.Forwarding

/-!
# Broadcast storms

`internal/l2/storm.go`: an injection on a port is measured together with the earlier ones that
are still inside a sliding window.  What exceeds the threshold is discarded, and an alarm tells
when the measured rate goes above the threshold and when it comes back.  The rate is a 32-bit sum
that wraps around.

As long as the packets that are offered within one window fit into 32 bits, the packets that are
accepted in a window never exceed the threshold: what an injection adds to the accepted packets is
at most what it adds to the smaller of the offered packets and the threshold, for every window
that ends at or after it.  This is `storm_controlled_of_windowsFit`; `storm_alarms_alternate` is
about the alarms of all ports.
-/

namespace TriadSim
namespace L2

open Go Library Model Router Store

/-- `MaxStormPackets`. -/
def maxStormPackets : UInt32 := 1000000

def errStormTooLarge : Sentinel := .external "storm injection is too large"

/-- `stormSample`: packets that were offered at a time. -/
structure StormSample where
  time : Time
  packets : UInt32
  deriving DecidableEq, Repr

/-- The limits of the injector; `New` replaces a window that is not positive. -/
structure StormLimits where
  threshold : UInt32
  window : Time
  window_pos : 0 < window

/-- What the manager remembers of one port: the samples of its window and its alarm. -/
structure StormAccount where
  samples : List StormSample
  alarm : Bool
  deriving DecidableEq

/-- A port that nothing has been injected on. -/
def StormAccount.start : StormAccount :=
  ⟨[], false⟩

/-- The samples that have not fallen out of the window at a time. -/
def inWindow (window now : Time) (samples : List StormSample) : List StormSample :=
  samples.filter fun sample => now - window ≤ sample.time

/-- The packets of a list of samples, as `recordStorm` adds them up. -/
def stormRate (samples : List StormSample) : UInt32 :=
  samples.foldl (fun rate sample => rate + sample.packets) 0

/-- `recordStorm`: the samples after an injection. -/
def recordStorm (limits : StormLimits) (samples : List StormSample) (offer : StormSample) :
    List StormSample :=
  inWindow limits.window offer.time samples ++ [offer]

/-- The packets that storm control accepts and discards at a measured rate. -/
def stormSplit (threshold rate packets : UInt32) : UInt32 × UInt32 :=
  if threshold < rate then
    if rate - packets < threshold then
      (threshold - (rate - packets), packets - (threshold - (rate - packets)))
    else (0, packets)
  else (packets, 0)

/-- What one injection comes to. -/
structure Injection where
  offer : StormSample
  accepted : UInt32
  discarded : UInt32
  events : List Events.Event
  after : StormAccount

/-- The accounting of `Storm` for an injection that goes through. -/
def StormAccount.inject (limits : StormLimits) (port : GoString) (account : StormAccount)
    (offer : StormSample) : Injection :=
  let samples := recordStorm limits account.samples offer
  let rate := stormRate samples
  let storming : Bool := limits.threshold < rate
  { offer
    accepted := (stormSplit limits.threshold rate offer.packets).1
    discarded := (stormSplit limits.threshold rate offer.packets).2
    events := reportStorm port account.alarm storming
    after := ⟨samples, storming⟩ }

@[simp] theorem StormAccount.inject_offer (limits : StormLimits) (port : GoString)
    (account : StormAccount) (offer : StormSample) :
    (account.inject limits port offer).offer = offer := rfl

/-- `stormVLAN`: the member VLAN of a port with the lowest number. -/
def stormVLAN (device : Device) (port : GoString) : Option VLAN :=
  ((device.vlans.filter fun vlan => (findMember vlan.ports port).isSome).insertionSort
    fun first second => first.id ≤ second.id).head?

/-- What an injection adds to the counters of its port. -/
def Injection.arrival (injection : Injection) : InterfaceCounters :=
  { zeroCounters with
    inOctets := injection.accepted.toUInt64 * minFrameBytes
    inUcastPkts := injection.accepted.toUInt64
    inDiscards := injection.discarded }

/-- What an injection adds to the counters of the other members of the VLAN. -/
def Injection.departure (injection : Injection) : InterfaceCounters :=
  { zeroCounters with
    outOctets := injection.accepted.toUInt64 * minFrameBytes
    outUcastPkts := injection.accepted.toUInt64 }

/-- `Storm`: the events that it publishes, and what the manager remembers of the ports.  The
sample is recorded before anything is counted, and the alarm follows when all is counted. -/
def storm (r : Router) (limits : StormLimits) (port : GoString) (offer : StormSample)
    (accounts : GoString → StormAccount) :
    Prog (Except Err (List Events.Event) × (GoString → StormAccount)) :=
  if offer.packets = 0 then .ret (.ok [], accounts)
  else if maxStormPackets < offer.packets then
    .ret (.error (.sentinel errStormTooLarge ++ .text ": " ++
      .piece (.decimal offer.packets.toNat) ++ .text " packets, limit " ++
      .piece (.decimal maxStormPackets.toNat)), accounts)
  else .locked .l2Manager <| (during "l2: storm: " (r.snapshot .running)).bind fun
    | .error err => .ret (.error err, accounts)
    | .ok device =>
      if (findInterface device port).isNone then
        .ret (.error (failure errPortUnknown port), accounts)
      else
        let injection := (accounts port).inject limits port offer
        let others := ((stormVLAN device port).elim [] fun vlan =>
          vlan.ports.map VLANPort.port).filter fun member => member ≠ port
        (andThen (incrementLocked r port injection.arrival) fun () =>
          sendOut r injection.departure others).bind fun
            | .error err => .ret (.error err, Function.update accounts port
                { injection.after with alarm := (accounts port).alarm })
            | .ok () => .ret (.ok injection.events, Function.update accounts port injection.after)

/-- `Storm` publishes what the alarm of its port has turned to, and keeps what is remembered of the
other ports; an injection that goes through is booked. -/
theorem only_storm (r : Router) (limits : StormLimits) (port : GoString) (offer : StormSample)
    (accounts : GoString → StormAccount) :
    (storm r limits port offer accounts).Only (fun _ => True) (fun _ => True) fun done =>
      done.1.toOption.getD [] = reportStorm port (accounts port).alarm (done.2 port).alarm ∧
      (∀ other, other ≠ port → done.2 other = accounts other) ∧
      (offer.packets ≠ 0 → done.1.isOk →
        done.2 port = ((accounts port).inject limits port offer).after) := by
  have hSame : ∀ alarm, [] = reportStorm port alarm alarm := fun _ => (if_pos rfl).symm
  unfold storm
  split
  · next hNone => exact ⟨hSame _, fun _ _ => rfl, fun hSome => absurd hNone hSome⟩
  split
  · exact ⟨hSame _, fun _ _ => rfl, nofun⟩
  refine Program.Only.locked trivial ((Program.only_true _).bind ?_)
  rintro (err | device) _
  · exact ⟨hSame _, fun _ _ => rfl, nofun⟩
  dsimp only
  split
  · exact ⟨hSame _, fun _ _ => rfl, nofun⟩
  refine (Program.only_true _).bind ?_
  rintro (err | done) _
  · refine ⟨?_, fun _ hOther => Function.update_of_ne hOther _ _, nofun⟩
    dsimp only
    rw [Function.update_self]
    exact hSame _
  · refine ⟨?_, fun _ hOther => Function.update_of_ne hOther _ _,
      fun _ _ => Function.update_self ..⟩
    dsimp only
    rw [Function.update_self]
    rfl

/-! ## Sequences of injections -/

/-- The injections on a port, one after the other. -/
def injections (limits : StormLimits) (port : GoString) :
    StormAccount → List StormSample → List Injection
  | _, [] => []
  | account, offer :: rest =>
    account.inject limits port offer ::
      injections limits port (account.inject limits port offer).after rest

/-- Alarms that are raised and cleared in turn, from an alarm that is active or not. -/
def Alternate : Bool → List Events.EventType → Prop
  | _, [] => True
  | active, type :: rest =>
    type = (if active then .alarmCleared else .alarmRaised) ∧ Alternate (!active) rest

/-- The sum of the amounts of the items that count. -/
def tally {α : Type} (counts : α → Bool) (amount : α → Nat) (items : List α) : Nat :=
  ((items.filter counts).map amount).sum

/-- The packets that are offered within the window that ends at a time. -/
def offeredAt (limits : StormLimits) (now : Time) (offers : List StormSample) : Nat :=
  tally (fun offer => now - limits.window ≤ offer.time) (fun offer => offer.packets.toNat) offers

/-- The packets that are accepted within the closed window that ends at a time. -/
def acceptedAt (limits : StormLimits) (now : Time) (log : List Injection) : Nat :=
  tally (fun injection => now - limits.window ≤ injection.offer.time ∧ injection.offer.time ≤ now)
    (fun injection => injection.accepted.toNat) log

/-- Storm control does its work on the injections of one port. -/
structure StormControlled (limits : StormLimits) (log : List Injection) : Prop where
  split : ∀ injection ∈ log,
    injection.accepted.toNat + injection.discarded.toNat = injection.offer.packets.toNat
  bounded : ∀ injection ∈ log,
    acceptedAt limits injection.offer.time log ≤ limits.threshold.toNat
  alternate : Alternate false ((log.flatMap Injection.events).map Events.Event.type)
  active : ∀ earlier injection later, log = earlier ++ injection :: later →
    (injection.after.alarm = true ↔ limits.threshold.toNat <
      offeredAt limits injection.offer.time ((earlier ++ [injection]).map Injection.offer))

/-- The packets offered within each window, up to the injection that it ends at, fit into 32
bits. -/
def WindowsFit (limits : StormLimits) (offers : List StormSample) : Prop :=
  ∀ earlier offer later, offers = earlier ++ offer :: later →
    offeredAt limits offer.time (earlier ++ [offer]) < 2 ^ 32

section Tally

variable {α : Type} {counts more : α → Bool} {amount : α → Nat}

theorem tally_cons (item : α) (rest : List α) : tally counts amount (item :: rest) =
    (if counts item then amount item else 0) + tally counts amount rest := by
  unfold tally
  split <;> simp [*]

theorem tally_concat (items : List α) (item : α) : tally counts amount (items ++ [item]) =
    tally counts amount items + if counts item then amount item else 0 := by
  unfold tally
  rw [List.filter_append, List.map_append, List.sum_append]
  split <;> simp [*]

theorem tally_mono (hMore : ∀ item, counts item = true → more item = true) (items : List α) :
    tally counts amount items ≤ tally more amount items :=
  List.Sublist.sum_le_sum ((List.monotone_filter_right items hMore).map amount)
    fun _ _ => Nat.zero_le _

end Tally

/-! ## One injection -/

theorem toNat_stormRate (samples : List StormSample) :
    (stormRate samples).toNat = (samples.map fun sample => sample.packets.toNat).sum % 2 ^ 32 := by
  have hFold : ∀ start : UInt32, (samples.foldl (fun rate sample => rate + sample.packets)
      start).toNat = (start.toNat + (samples.map fun sample => sample.packets.toNat).sum) %
        2 ^ 32 := by
    induction samples with
    | nil => exact fun start => (Nat.mod_eq_of_lt start.toNat_lt).symm
    | cons sample rest ih =>
      intro start
      rw [List.foldl_cons, ih, UInt32.toNat_add, List.map_cons, List.sum_cons, Nat.mod_add_mod,
        Nat.add_assoc]
  simpa [stormRate] using hFold 0

/-- A rate that holds the packets of the injection splits them exactly. -/
theorem stormSplit_spec {threshold rate packets : UInt32} (hPackets : packets ≤ rate) :
    (stormSplit threshold rate packets).1.toNat =
        min rate.toNat threshold.toNat - min (rate.toNat - packets.toNat) threshold.toNat ∧
      (stormSplit threshold rate packets).1.toNat + (stormSplit threshold rate packets).2.toNat =
        packets.toNat := by
  have hEarlier : (rate - packets).toNat = rate.toNat - packets.toNat :=
    UInt32.toNat_sub_of_le _ _ hPackets
  have hLe := UInt32.le_iff_toNat_le.mp hPackets
  unfold stormSplit
  split
  · next hStorm =>
    have hStorm := UInt32.lt_iff_toNat_lt.mp hStorm
    split
    · next hCrossed =>
      have hCrossed := UInt32.lt_iff_toNat_lt.mp hCrossed
      rw [hEarlier] at hCrossed
      have hRoom : (threshold - (rate - packets)).toNat =
          threshold.toNat - (rate.toNat - packets.toNat) := by
        rw [UInt32.toNat_sub_of_le _ _ (UInt32.le_iff_toNat_le.mpr (by omega)), hEarlier]
      have hRest : (packets - (threshold - (rate - packets))).toNat =
          packets.toNat - (threshold.toNat - (rate.toNat - packets.toNat)) := by
        rw [UInt32.toNat_sub_of_le _ _ (UInt32.le_iff_toNat_le.mpr (by omega)), hRoom]
      rw [hRoom, hRest]
      omega
    · next hOver =>
      have hOver := UInt32.not_lt.mp hOver
      rw [UInt32.le_iff_toNat_le, hEarlier] at hOver
      refine ⟨?_, ?_⟩
      · rw [UInt32.toNat_zero]
        omega
      · rw [UInt32.toNat_zero, Nat.zero_add]
  · next hCalm =>
    have hCalm := UInt32.le_iff_toNat_le.mp (UInt32.not_lt.mp hCalm)
    refine ⟨?_, ?_⟩
    · dsimp only
      omega
    · rw [UInt32.toNat_zero, Nat.add_zero]

section Accounts

variable {limits : StormLimits} {port : GoString}

/-- The account of a port holds what later windows can still see of the past. -/
def Remembers (limits : StormLimits) (past : List StormSample) (account : StormAccount) : Prop :=
  ∀ now, (∀ offer ∈ past, offer.time ≤ now) →
    inWindow limits.window now account.samples = inWindow limits.window now past

/-- What an injection comes to, from the offers before it. -/
structure Booked (limits : StormLimits) (past : List StormSample) (injection : Injection) :
    Prop where
  split : injection.accepted.toNat + injection.discarded.toNat = injection.offer.packets.toNat
  accepted : injection.accepted.toNat =
    min (offeredAt limits injection.offer.time past + injection.offer.packets.toNat)
        limits.threshold.toNat -
      min (offeredAt limits injection.offer.time past) limits.threshold.toNat
  alarm : injection.after.alarm = true ↔ limits.threshold.toNat <
    offeredAt limits injection.offer.time (past ++ [injection.offer])

theorem offeredAt_concat_self (past : List StormSample) (offer : StormSample) :
    offeredAt limits offer.time (past ++ [offer]) =
      offeredAt limits offer.time past + offer.packets.toNat := by
  have hSelf : offer.time - limits.window ≤ offer.time :=
    Int.sub_le_self _ (le_of_lt limits.window_pos)
  rw [offeredAt, tally_concat, if_pos (decide_eq_true hSelf)]
  rfl

variable {past : List StormSample} {log : List Injection}

/-- One injection is booked, and the account remembers it. -/
theorem Remembers.inject (port : GoString) {account : StormAccount} {offer : StormSample}
    (hAccount : Remembers limits past account) (hPast : ∀ earlier ∈ past, earlier.time ≤ offer.time)
    (hFits : offeredAt limits offer.time (past ++ [offer]) < 2 ^ 32) :
    Booked limits past (account.inject limits port offer) ∧
      Remembers limits (past ++ [offer]) (account.inject limits port offer).after := by
  have hSamples : recordStorm limits account.samples offer =
      inWindow limits.window offer.time past ++ [offer] := by
    rw [recordStorm, hAccount offer.time hPast]
  have hTotal := @offeredAt_concat_self limits past offer
  have hRate : (stormRate (recordStorm limits account.samples offer)).toNat =
      offeredAt limits offer.time past + offer.packets.toNat := by
    rw [hSamples, toNat_stormRate, List.map_append, List.sum_append, List.map_singleton,
      List.sum_singleton]
    exact Nat.mod_eq_of_lt (hTotal ▸ hFits)
  constructor
  · obtain ⟨hAccepted, hSplit⟩ := @stormSplit_spec limits.threshold
      (stormRate (recordStorm limits account.samples offer)) offer.packets
      (UInt32.le_iff_toNat_le.mpr (by omega))
    rw [hRate, Nat.add_sub_cancel] at hAccepted
    refine ⟨hSplit, hAccepted, ?_⟩
    show decide (limits.threshold < stormRate (recordStorm limits account.samples offer)) = true ↔ _
    rw [decide_eq_true_iff, UInt32.lt_iff_toNat_lt, hRate]
    exact hTotal ▸ Iff.rfl
  · intro now hNow
    have hLater : offer.time ≤ now := hNow offer (List.mem_append_right _ List.mem_cons_self)
    show inWindow limits.window now (recordStorm limits account.samples offer) = _
    -- A later window begins later, so what has fallen out stays out.
    rw [hSamples]
    simp only [inWindow, List.filter_append, List.filter_filter]
    congr 1
    refine List.filter_congr fun sample _ => ?_
    simp only [Bool.and_eq_left_iff_imp, decide_eq_true_eq]
    exact le_trans (Int.sub_le_sub_right hLater _)

/-! ## All injections -/

/-- Every injection is booked on top of those before it. -/
def Accounted (limits : StormLimits) : List StormSample → List Injection → Prop
  | _, [] => True
  | past, injection :: rest =>
    Booked limits past injection ∧ Accounted limits (past ++ [injection.offer]) rest

theorem accounted_injections (offers : List StormSample) :
    ∀ {past : List StormSample} {account : StormAccount}, Remembers limits past account →
      (past ++ offers).Pairwise (fun first second => first.time ≤ second.time) →
      (∀ earlier offer later, offers = earlier ++ offer :: later →
        offeredAt limits offer.time (past ++ (earlier ++ [offer])) < 2 ^ 32) →
      Accounted limits past (injections limits port account offers) := by
  induction offers with
  | nil => exact fun _ _ _ => trivial
  | cons offer rest ih =>
    intro past account hAccount hSorted hFits
    obtain ⟨hBooked, hNext⟩ := hAccount.inject port
      (fun earlier hEarlier => (List.pairwise_append.mp hSorted).2.2 earlier hEarlier offer
        List.mem_cons_self) (hFits [] offer rest rfl)
    refine ⟨hBooked, ih hNext (by simpa using hSorted) ?_⟩
    intro earlier later others hRest
    have hFit := hFits (offer :: earlier) later others (by rw [hRest]; rfl)
    simpa using hFit

/-- The alarms of a sequence alternate, whatever the rates are. -/
theorem alternate_injections (offers : List StormSample) (account : StormAccount) :
    Alternate account.alarm
      (((injections limits port account offers).flatMap Injection.events).map
        Events.Event.type) := by
  induction offers generalizing account with
  | nil => trivial
  | cons offer rest ih =>
    have hRest := ih (account.inject limits port offer).after
    show Alternate _ ((reportStorm port account.alarm
      (account.inject limits port offer).after.alarm ++ _).map Events.Event.type)
    rw [List.map_append]
    revert hRest
    generalize (account.inject limits port offer).after.alarm = storming
    intro hRest
    cases hAlarm : account.alarm <;> cases storming
    · exact hRest
    · exact ⟨rfl, hRest⟩
    · exact ⟨rfl, hRest⟩
    · exact hRest

/-- The packets accepted between two times that are a window apart, on top of those offered
before. -/
theorem tally_accepted_le (start : Time) (within : Time → Bool)
    (hWithin : ∀ time, within time = true ↔ start ≤ time ∧ time ≤ start + limits.window)
    (log : List Injection) : ∀ {past : List StormSample}, Accounted limits past log →
      tally (fun injection => within injection.offer.time)
          (fun injection => injection.accepted.toNat) log +
        min (tally (fun offer => within offer.time) (fun offer => offer.packets.toNat) past)
          limits.threshold.toNat ≤ limits.threshold.toNat := by
  induction log with
  | nil => exact fun _ => (Nat.zero_add _).le.trans (min_le_right _ _)
  | cons injection rest ih =>
    intro past hLog
    have hRest := ih hLog.2
    rw [tally_concat] at hRest
    rw [tally_cons]
    split
    · next hCounts =>
      -- The window that ends at this injection holds all earlier ones that count here.
      have hEarlier : tally (fun offer => within offer.time) (fun offer => offer.packets.toNat)
          past ≤ offeredAt limits injection.offer.time past := by
        refine tally_mono (fun offer hOffer => decide_eq_true ?_) past
        have hEnd := ((hWithin _).mp hCounts).2
        exact le_trans (sub_le_iff_le_add.mpr hEnd) ((hWithin _).mp hOffer).1
      rw [if_pos hCounts] at hRest
      rw [hLog.1.accepted]
      omega
    · next hCounts =>
      rw [if_neg hCounts] at hRest
      omega

theorem Accounted.split (hLog : Accounted limits past log) : ∀ injection ∈ log,
      injection.accepted.toNat + injection.discarded.toNat = injection.offer.packets.toNat := by
  induction log generalizing past with
  | nil => exact fun _ hMem => by cases hMem
  | cons first rest ih => exact List.forall_mem_cons.mpr ⟨hLog.1.split, ih hLog.2⟩

theorem Accounted.alarm (hLog : Accounted limits past log) :
    ∀ {before : List Injection} {injection : Injection}
      {later : List Injection}, log = before ++ injection :: later →
      (injection.after.alarm = true ↔ limits.threshold.toNat < offeredAt limits
        injection.offer.time (past ++ (before ++ [injection]).map Injection.offer)) := by
  induction log generalizing past with
  | nil => exact fun hSplit => absurd hSplit (by simp)
  | cons first rest ih =>
    intro before injection later hSplit
    cases before with
    | nil =>
      cases hSplit
      exact hLog.1.alarm
    | cons head before =>
      cases hSplit
      have hRest := ih hLog.2 rfl
      simpa using hRest

end Accounts

/-- If the packets offered within each window fit into 32 bits, storm control does its work on
every sequence of injections that go through. -/
theorem storm_controlled_of_windowsFit (limits : StormLimits) (port : GoString)
    (offers : List StormSample)
    (hSorted : offers.Pairwise fun first second => first.time ≤ second.time)
    (hFits : WindowsFit limits offers) :
    StormControlled limits (injections limits port .start offers) := by
  have hLog : Accounted limits [] (injections limits port .start offers) :=
    accounted_injections offers (fun _ _ => rfl) hSorted hFits
  refine ⟨hLog.split, fun injection _ => ?_, alternate_injections offers .start,
    fun earlier injection later hSplit => hLog.alarm hSplit⟩
  refine Nat.le_of_add_right_le (tally_accepted_le (injection.offer.time - limits.window)
    (fun time => injection.offer.time - limits.window ≤ time ∧ time ≤ injection.offer.time)
    ?_ _ hLog)
  intro time
  rw [decide_eq_true_iff, Int.sub_add_cancel]

variable {limits : StormLimits}

theorem windowsFit_of_sum_lt {offers : List StormSample}
    (hSum : (offers.map fun offer => offer.packets.toNat).sum < 2 ^ 32) :
    WindowsFit limits offers := by
  rintro earlier offer later rfl
  have hAll : offeredAt limits offer.time (earlier ++ [offer]) ≤
      ((earlier ++ [offer]).map fun offer => offer.packets.toNat).sum :=
    List.Sublist.sum_le_sum (List.filter_sublist.map _) fun _ _ => Nat.zero_le _
  rw [List.append_cons, List.map_append, List.sum_append] at hSum
  omega

/-- A thousand packets in a second. -/
def defaultLimits : StormLimits :=
  ⟨1000, 1000000000, by decide⟩

/-- Two injections in one window, of which the second crosses the threshold. -/
theorem storm_controlled_across_threshold :
    StormControlled defaultLimits
      (injections defaultLimits "eth0" .start [⟨0, 800⟩, ⟨500000000, 300⟩]) :=
  storm_controlled_of_windowsFit defaultLimits "eth0" _ (by decide)
    (windowsFit_of_sum_lt (by decide))

/-! ## Injections that wrap around -/

/-- The account after a sequence of injections. -/
def accountAfter (limits : StormLimits) (port : GoString) (account : StormAccount)
    (offers : List StormSample) : StormAccount :=
  offers.foldl (fun account offer => (account.inject limits port offer).after) account

theorem injections_concat (limits : StormLimits) (port : GoString) (account : StormAccount)
    (offers : List StormSample) (last : StormSample) :
    injections limits port account (offers ++ [last]) = injections limits port account offers ++
      [(accountAfter limits port account offers).inject limits port last] := by
  induction offers generalizing account with
  | nil => rfl
  | cons offer rest ih => exact congrArg (_ :: ·) (ih _)

/-- Injections at one time all stay in the window. -/
theorem samples_accountAfter_replicate (limits : StormLimits) (port : GoString)
    (offer : StormSample) (count : Nat) :
    (accountAfter limits port .start (List.replicate count offer)).samples =
      List.replicate count offer := by
  have hSelf : offer.time - limits.window ≤ offer.time :=
    Int.sub_le_self _ (le_of_lt limits.window_pos)
  induction count with
  | zero => rfl
  | succ count ih =>
    rw [List.replicate_succ', accountAfter, List.foldl_append]
    show recordStorm limits (accountAfter limits port .start _).samples offer = _
    rw [ih, recordStorm, inWindow, List.filter_eq_self.mpr]
    intro sample hSample
    rw [List.eq_of_mem_replicate hSample]
    exact decide_eq_true hSelf

/-- What the last injection accepts is within the bound of its own window. -/
theorem StormControlled.last_le {log : List Injection} {last : Injection}
    (hControlled : StormControlled limits (log ++ [last])) :
    last.accepted.toNat ≤ limits.threshold.toNat := by
  have hBounded := hControlled.bounded last (List.mem_append_right _ List.mem_cons_self)
  have hSelf : last.offer.time - limits.window ≤ last.offer.time :=
    Int.sub_le_self _ (le_of_lt limits.window_pos)
  rw [acceptedAt, tally_concat, if_pos (decide_eq_true ⟨hSelf, le_refl _⟩)] at hBounded
  exact Nat.le_of_add_left_le hBounded

/-- Injections of a million packets each, and one more after which the sum is 2 to the 32nd. -/
def wrappingOffers : List StormSample :=
  List.replicate 4294 ⟨0, 1000000⟩ ++ [⟨0, 967296⟩]

/-- The last injection is measured as a rate of zero and accepted whole. -/
theorem wrapped_rate_accepts_everything :
    (∀ offer ∈ wrappingOffers, 1 ≤ offer.packets ∧ offer.packets ≤ maxStormPackets) ∧
      wrappingOffers.Pairwise (fun first second => first.time ≤ second.time) ∧
      ¬ StormControlled defaultLimits (injections defaultLimits "eth0" .start wrappingOffers) := by
  have hOffers : ∀ offer ∈ wrappingOffers, offer = ⟨0, 1000000⟩ ∨ offer = ⟨0, 967296⟩ := by
    intro offer hOffer
    rcases List.mem_append.mp hOffer with hMillion | hLast
    · exact Or.inl (List.eq_of_mem_replicate hMillion)
    · exact Or.inr (List.mem_singleton.mp hLast)
  refine ⟨fun offer hOffer => ?_, List.pairwise_of_forall_mem_list ?_, fun hControlled => ?_⟩
  · rcases hOffers offer hOffer with rfl | rfl <;> decide
  · intro first hFirst second hSecond
    rcases hOffers first hFirst with rfl | rfl <;> rcases hOffers second hSecond with rfl | rfl <;>
      exact le_refl (0 : Int)
  · have hRate : stormRate (recordStorm defaultLimits (List.replicate 4294 ⟨0, 1000000⟩)
        ⟨0, 967296⟩) = 0 := by
      rw [recordStorm, inWindow, List.filter_eq_self.mpr]
      · rw [← UInt32.toNat_inj, toNat_stormRate, List.map_append, List.map_replicate,
          List.sum_append, List.sum_replicate, smul_eq_mul]
        rfl
      · intro sample hSample
        rw [List.eq_of_mem_replicate hSample]
        decide
    have hLast : ((accountAfter defaultLimits "eth0" .start
        (List.replicate 4294 ⟨0, 1000000⟩)).inject defaultLimits "eth0" ⟨0, 967296⟩).accepted =
          967296 := by
      rw [StormAccount.inject, samples_accountAfter_replicate, hRate]
      decide
    unfold wrappingOffers at hControlled
    rw [injections_concat] at hControlled
    have hBounded := hControlled.last_le
    rw [hLast] at hBounded
    exact absurd hBounded (by decide)

/-! ## Calls for several ports -/

section Calls

variable {port : GoString}

/-- The types of the alarms that are published for a port. -/
def alarmsOf (port : GoString) (published : List Events.Event) : List Events.EventType :=
  (published.filter fun event => event.resource = text "l2/storm/" ++ port).map Events.Event.type

theorem alarmsOf_append (first second : List Events.Event) :
    alarmsOf port (first ++ second) = alarmsOf port first ++ alarmsOf port second := by
  simp [alarmsOf]

theorem alarmsOf_reportStorm (previous storming : Bool) :
    alarmsOf port (reportStorm port previous storming) =
      if previous = storming then [] else [if storming then .alarmRaised else .alarmCleared] := by
  cases previous <;> cases storming <;> simp [alarmsOf, reportStorm]

theorem alarmsOf_reportStorm_of_ne {other : GoString} (hOther : port ≠ other)
    (previous storming : Bool) : alarmsOf port (reportStorm other previous storming) = [] := by
  cases previous <;> cases storming <;> simp [alarmsOf, reportStorm, Ne.symm hOther]

/-- Calls of `Storm`, one after the other: what they publish, and what the manager then remembers
of the ports. -/
def storms (r : Router) (limits : StormLimits) :
    List (GoString × StormSample) → (GoString → StormAccount) →
      Prog (List Events.Event × (GoString → StormAccount))
  | [], accounts => .ret ([], accounts)
  | (port, offer) :: rest, accounts =>
    (storm r limits port offer accounts).bind fun done =>
      (storms r limits rest done.2).bind fun later =>
        .ret (done.1.toOption.getD [] ++ later.1, later.2)

/-- Whatever the store answers, and however the rates wrap around: over any calls of `Storm` the
alarms of a port are raised and cleared in turn, and `Storming` tells which of them came last. -/
theorem storm_alarms_alternate (r : Router) (limits : StormLimits)
    (calls : List (GoString × StormSample)) (accounts : GoString → StormAccount)
    (port : GoString) :
    (storms r limits calls accounts).Only (fun _ => True) (fun _ => True) fun done =>
      Alternate (accounts port).alarm (alarmsOf port done.1) ∧
        (done.2 port).alarm = (alarmsOf port done.1).foldl (fun _ type => type = .alarmRaised)
          (accounts port).alarm := by
  induction calls generalizing accounts with
  | nil => exact ⟨trivial, rfl⟩
  | cons call rest ih =>
    refine (only_storm r limits call.1 call.2 accounts).bind ?_
    rintro done ⟨hPublished, hOthers, _⟩
    refine (ih done.2).bind fun later hLater => ?_
    show Alternate _ (alarmsOf port (_ ++ _)) ∧ _ = (alarmsOf port (_ ++ _)).foldl _ _
    rw [alarmsOf_append, hPublished]
    by_cases hPort : port = call.1
    · subst hPort
      rw [alarmsOf_reportStorm]
      revert hLater
      generalize (done.2 call.1).alarm = storming
      cases (accounts call.1).alarm <;> cases storming <;> simp [Alternate]
    · rw [alarmsOf_reportStorm_of_ne hPort, ← hOthers port hPort]
      exact hLater

end Calls

end L2
end TriadSim

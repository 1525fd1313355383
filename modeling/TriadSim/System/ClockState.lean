import TriadSim.Router.Rebuild
import TriadSim.System.StateLeaves

/-!
# The stored clock state

The sync manager writes its state to `ptp/clock/state` before it changes its own, under its lock.
As long as no rollback moves the leaf, it agrees with the manager whenever nobody holds the lock.
The main result is `state_leaves_hold_last_domain_write`.
-/

namespace TriadSim

open Go Library Router Store

/-! ## The leaf -/

/-- The path of the stored clock state, parsed. -/
def clockSegments : List Segment :=
  [⟨"ptp", [], []⟩, ⟨"clock", [], []⟩, ⟨"state", [], []⟩]

theorem parse_statePath : parse Sync.statePath = .ok clockSegments := by
  decide +kernel

/-- A path that leads to the clock state; predicates on it would play no part. -/
def NamesClock (path : GoString) : Prop :=
  ∃ segments, parse path = .ok segments ∧
    segments.map Segment.name = clockSegments.map Segment.name

theorem namesClock_statePath : NamesClock Sync.statePath :=
  ⟨clockSegments, parse_statePath, rfl⟩

/-- The clock state is a state leaf in every model. -/
theorem isState_of_namesClock {r : Router} {path : GoString} (hNames : NamesClock path) :
    r.isState path = true := by
  obtain ⟨segments, hParse, hNames⟩ := hNames
  obtain ⟨⟨_, _, _⟩, _, rfl, rfl, hSecond⟩ := List.map_eq_cons_iff.mp hNames
  obtain ⟨⟨_, _, _⟩, _, rfl, rfl, hThird⟩ := List.map_eq_cons_iff.mp hSecond
  obtain ⟨⟨_, _, _⟩, _, rfl, rfl, hEnd⟩ := List.map_eq_cons_iff.mp hThird
  cases List.map_eq_nil_iff.mp hEnd
  rw [Router.isState, hParse]
  rfl

/-- The stored clock state is a state of the model, and stands at one path only. -/
structure ClockStored (running : Values) : Prop where
  valid : ∀ leaf, running[Sync.statePath]? = some leaf →
    ∃ state, leaf = .string state ∧ Sync.validState state = true
  alone : ∀ path : GoString, path ∈ running → NamesClock path → path = Sync.statePath

/-- A device has the clock state that is stored. -/
def FitsClock {json : Json} (device : Model.Device) (machine : Machine json) : Prop :=
  ∀ leaf, machine.memory.running[Sync.statePath]? = some leaf →
    leaf = .string device.ptp.state ∧ Sync.validState device.ptp.state = true

/-- The stored clock state is that of the manager, once it has one. -/
def ClockAgrees {json : Json} (machine : Machine json) : Prop :=
  machine.clockManager.known = true → ∀ leaf,
    machine.memory.running[Sync.statePath]? = some leaf →
    leaf = .string machine.clockManager.state

/-- Nothing about the clock has changed. -/
def SameClock {json : Json} (before after : Machine json) : Prop :=
  after.clockManager = before.clockManager ∧
    after.memory.running[Sync.statePath]? = before.memory.running[Sync.statePath]?

/-- Only paths that lead to the clock state are assigned to it. -/
theorem namesClock_of_into {entries : List Entry} {item : Segment × Entry}
    (hParsed : ∀ entry ∈ entries, parse entry.path = .ok entry.segments)
    (hItem : item ∈ (((entries.filterMap (Entry.into Model.Device.fields 6)).map Prod.snd).filterMap
      (Entry.into Model.PTPClock.fields 7))) (hEnd : item.2.segments = []) :
    ∃ entry ∈ entries, NamesClock entry.path ∧ entry.path = item.2.path ∧
      entry.leaf = item.2.leaf := by
  obtain ⟨inner, hInner, below, hBelow, hState, rfl⟩ := mem_into.mp hItem
  obtain ⟨outer, hOuter, rfl⟩ := List.mem_map.mp hInner
  obtain ⟨entry, hEntry, found, hFound, hClock, rfl⟩ := mem_into.mp hOuter
  refine ⟨entry, hEntry, ⟨entry.segments, hParsed entry hEntry, ?_⟩, rfl, rfl⟩
  obtain ⟨hSegments, tag, hTag, hNames⟩ := turn_eq_some hFound
  obtain ⟨hRest, last, hLast, hLastNames⟩ := turn_eq_some hBelow
  rw [hClock] at hTag
  rw [hState] at hLast
  cases hTag
  cases hLast
  dsimp only at hRest hEnd
  rw [hSegments, hRest, hEnd, List.append_cons, List.map_append, hNames, hLastNames]
  rfl

theorem fitsClock_of_deviceFromValues_eq_ok {json : Json} {template device : Model.Device}
    {machine : Machine json} (hStored : ClockStored machine.memory.running)
    (hDevice : deviceFromValues template machine.memory.running = .ok device) :
    FitsClock device machine := by
  intro leaf hLeaf
  obtain ⟨state, rfl, hValid⟩ := hStored.valid leaf hLeaf
  obtain ⟨vals, hHydrate, rfl⟩ := map_eq_ok_iff.mp hDevice
  obtain ⟨entries, hEntries, hAssign⟩ := bind_eq_ok_iff.mp hHydrate
  obtain ⟨_, hParsed, hComplete⟩ := parseEntries_eq_ok hEntries
  obtain ⟨entry, hEntry, hPath, hEntryLeaf⟩ := hComplete _ _ hLeaf
  obtain ⟨clock, hClock⟩ := exists_fieldAt_eq_some
    (show typeAt Model.Device.fields 6 = some (.struct Model.PTPClock.fields) from rfl)
    (prunedTemplate Model.Device.fields template.toVals entries)
  obtain ⟨newClock, hNewClock, hItems⟩ := fieldAt_of_assignAll_eq_ok entries hClock hAssign
  rw [assignAllType_struct] at hItems
  obtain ⟨old, hOld⟩ := exists_fieldAt_eq_some
    (show typeAt Model.PTPClock.fields 7 = some (.scalar .string) from rfl) clock
  obtain ⟨new, hNew, hScalars⟩ := fieldAt_of_assignAll_eq_ok _ hOld hItems
  cases hNewClock
  cases hNew
  obtain ⟨hEnds, ⟨hNone, _⟩ | ⟨item, hItem, hCoerce⟩⟩ := assignAllType_scalar_eq_ok _ hScalars
  · -- The entry of the stored leaf is assigned.
    have hSegments : entry.segments = clockSegments := by
      have hParse := (hParsed entry hEntry).1
      rw [hPath, parse_statePath] at hParse
      exact (Except.ok.inj hParse).symm
    have hTurn : turn Model.Device.fields clockSegments =
        some ⟨6, [⟨"ptp", [], []⟩], ⟨"clock", [], []⟩, [⟨"state", [], []⟩]⟩ := by decide +kernel
    have hBelow : turn Model.PTPClock.fields [⟨"state", [], []⟩] =
        some ⟨7, [], ⟨"state", [], []⟩, []⟩ := by decide +kernel
    rw [← hSegments] at hTurn
    have hOuter := mem_into.mpr ⟨entry, hEntry, _, hTurn, rfl, rfl⟩
    have hInner := mem_into.mpr ⟨_, List.mem_map_of_mem (f := Prod.snd) hOuter, _, hBelow, rfl, rfl⟩
    rw [hNone] at hInner
    cases hInner
  · obtain ⟨other, hOther, hNames, _, hOtherLeaf⟩ := namesClock_of_into
      (fun entry hEntry => (hParsed entry hEntry).1) hItem (hEnds item hItem)
    obtain ⟨_, hOtherStored⟩ := hParsed other hOther
    have hSame := hStored.alone other.path (FinMap.mem_iff_isSome _ _ |>.mpr (by
      rw [hOtherStored]; rfl)) hNames
    rw [hSame, hLeaf, Option.some.injEq] at hOtherStored
    rw [← hOtherLeaf, ← hOtherStored] at hCoerce
    cases hCoerce
    exact ⟨rfl, hValid⟩

/-! ## The contract of the clock -/

section Contract

variable {ι : Type} {json : Json} {r : Router} {opts : Options}

theorem ClockAgrees.of_sameClock {before after : Machine json} (hAgrees : ClockAgrees before)
    (hSame : SameClock before after) : ClockAgrees after := by
  intro hKnown leaf hLeaf
  rw [hSame.1] at hKnown ⊢
  rw [hSame.2] at hLeaf
  exact hAgrees hKnown leaf hLeaf

theorem FitsClock.of_sameClock {device : Model.Device} {before after : Machine json}
    (hFits : FitsClock device before) (hSame : SameClock before after) :
    FitsClock device after := by
  intro leaf hLeaf
  rw [hSame.2] at hLeaf
  exact hFits leaf hLeaf

/-- The state leaves mirror, and the stored clock state is proper. -/
def StateSound (r : Router) (machine : Machine json) : Prop :=
  Mirrored r machine.contents ∧ ClockStored machine.memory.running

/-- Only the thread in the lock of the manager moves the clock, and it does not give the
lock back before the leaf and the manager agree. -/
def clockContract (r : Router) : MachineContract ι json Outcome where
  inv world := StateSound r world.state ∧
    (world.holder .syncManager = none → ClockAgrees world.state)
  rely thread world now := world.holder .syncManager = some thread →
    now.holder .syncManager = some thread ∧ SameClock world.state now.state
  allowed _ event := RestoresState r event
  guarantee world event := StateSound r event.after ∧
    (SameClock event.before event.after ∨ world.holder .syncManager = some event.thread)
  yields _ lock world := lock = .syncManager → ClockAgrees world.state
  post _ _ _ := True

theorem fits_clockContract [DecidableEq ι] :
    Contract.Fits (Machine.handler json opts)
      (clockContract r : MachineContract ι json Outcome) := by
  refine ⟨?_, ?_, ?_, ?_, ?_, ?_⟩
  · exact fun thread world hHolds => ⟨hHolds, rfl, rfl⟩
  · intro thread first second third hFirst hSecond hHolds
    obtain ⟨hMiddle, hManager, hLeaf⟩ := hFirst hHolds
    obtain ⟨hLast, hManager', hLeaf'⟩ := hSecond hMiddle
    exact ⟨hLast, hManager'.trans hManager, hLeaf'.trans hLeaf⟩
  · exact fun _ _ _ _ _ _ => trivial
  · rintro thread env request world ⟨_, hAgrees⟩ _ ⟨hSound, hMoved⟩
    refine ⟨⟨hSound, ?_⟩, ?_⟩
    · intro hFree
      rcases hMoved with hSame | hHolds
      · exact (hAgrees hFree).of_sameClock hSame
      · rw [World.holder_record] at hFree
        rw [hFree] at hHolds
        cases hHolds
    · intro other hOther hHolds
      refine ⟨hHolds, ?_⟩
      rcases hMoved with hSame | hMover
      · exact hSame
      · rw [hHolds, Option.some.injEq] at hMover
        exact absurd hMover hOther
  · rintro thread lock world ⟨hSound, hAgrees⟩ hFree
    refine ⟨⟨hSound, ?_⟩, ?_⟩
    · intro hNone
      by_cases hLock : lock = .syncManager
      · subst hLock
        rw [World.holder_hand_self] at hNone
        cases hNone
      · rw [World.holder_hand_of_ne _ _ (Ne.symm hLock)] at hNone
        exact hAgrees hNone
    · intro other _ hHolds
      refine ⟨World.holder_hand_of_held hHolds (by rw [hFree]; simp), rfl, rfl⟩
  · rintro thread lock world ⟨hSound, hAgrees⟩ hHeld hYields
    refine ⟨⟨hSound, ?_⟩, ?_⟩
    · intro hNone
      by_cases hLock : lock = .syncManager
      · exact hYields hLock
      · rw [World.holder_hand_of_ne _ _ (Ne.symm hLock)] at hNone
        exact hAgrees hNone
    · intro other hOther hHolds
      refine ⟨World.holder_hand_of_held hHolds ?_, rfl, rfl⟩
      rw [hHeld, ne_eq, Option.some.injEq]
      exact Ne.symm hOther

/-! ### The other activities -/

/-- A call that keeps the state leaves and writes the clock state at most as the clock
does. -/
theorem clockStored_of_keepsState {event : MachineEvent ι json} (hKeeps : KeepsState r event)
    (hStored : ClockStored event.before.memory.running)
    (hWrite : ∀ path value, domainWrite event = some (path, value) → NamesClock path →
      path = Sync.statePath ∧ ∃ state, value = some (.string state) ∧
        Sync.validState state = true) : ClockStored event.after.memory.running := by
  have hLeaf : ∀ {path : GoString}, NamesClock path →
      event.after.memory.running[path]? = event.before.memory.running[path]? ∨
        path = Sync.statePath ∧ ∃ state, event.after.memory.running[path]? = some (.string state) ∧
          Sync.validState state = true := by
    intro path hNames
    rw [hKeeps.2 path (isState_of_namesClock hNames), afterWrite]
    cases hDomain : domainWrite event with
    | none => exact Or.inl rfl
    | some write =>
      obtain ⟨written, value⟩ := write
      dsimp only
      split
      · next hSame =>
        subst hSame
        exact Or.inr (hWrite written value hDomain hNames)
      · exact Or.inl rfl
  refine ⟨?_, ?_⟩
  · intro leaf hStoredLeaf
    rcases hLeaf namesClock_statePath with hSame | ⟨_, state, hNew, hValid⟩
    · rw [hSame] at hStoredLeaf
      exact hStored.valid leaf hStoredLeaf
    · rw [hNew, Option.some.injEq] at hStoredLeaf
      exact ⟨state, hStoredLeaf.symm, hValid⟩
  · intro path hPath hNames
    rcases hLeaf hNames with hSame | ⟨hState, _⟩
    · rw [FinMap.mem_iff_isSome, hSame, ← FinMap.mem_iff_isSome] at hPath
      exact hStored.alone path hPath hNames
    · exact hState

variable {env : CallEnv} {request : Request} {machine : Machine json} {α : Type}
    {state : Sync.State}

/-- A domain write is one of a path that the thread may write. -/
theorem written_of_domainWrite {thread : ι} {written : GoString → Prop} {clock : Prop}
    {path : GoString} {value : Option Leaf} (hSpares : request.Spares r written clock)
    (hWrite : domainWrite (callEvent (Machine.handle opts) thread env request machine) =
      some (path, value)) : written path := by
  unfold domainWrite at hWrite
  split at hWrite
  · next hEvent =>
    cases hWrite
    rw [callEvent, Library.Event.mk.injEq] at hEvent
    obtain ⟨_, rfl, _⟩ := hEvent
    exact hSpares.2
  · next hEvent =>
    cases hWrite
    rw [callEvent, Library.Event.mk.injEq] at hEvent
    obtain ⟨_, rfl, _⟩ := hEvent
    exact hSpares.2
  · cases hWrite

/-- The manager changes in one way only. -/
theorem clockManager_of_spares {written : GoString → Prop}
    (hSpares : request.Spares r written False) :
    (Machine.handle opts env request machine).2.clockManager = machine.clockManager := by
  have hTake : ∀ meant, (machine.take meant).2.clockManager = machine.clockManager := by
    intro meant
    unfold Machine.take
    repeat' split
    all_goals rfl
  cases request with
  | setClockManager manager => exact hSpares.elim
  | takeDue seq | takeOwned sessionID => exact hTake _
  | _ => rfl

theorem guarantee_of_spares {thread : ι} {world : MachineWorld ι json}
    (hSpares : request.Spares r (fun path => ¬ NamesClock path) False)
    (hInv : (clockContract r : MachineContract ι json Outcome).inv world)
    (hAllowed : RestoresState r (callEvent (Machine.handle opts) thread env request world.state)) :
    (clockContract r : MachineContract ι json Outcome).guarantee world
      (callEvent (Machine.handle opts) thread env request world.state) := by
  obtain ⟨⟨hMirrored, hStored⟩, _⟩ := hInv
  have hKeeps := keepsState_of_call hSpares hMirrored hAllowed
  have hNone : ∀ path value, domainWrite
      (callEvent (Machine.handle opts) thread env request world.state) = some (path, value) →
      ¬ NamesClock path := fun path value => written_of_domainWrite hSpares
  refine ⟨⟨hKeeps.1, clockStored_of_keepsState hKeeps hStored fun path value hWrite hNames =>
    absurd hNames (hNone path value hWrite)⟩, Or.inl ⟨clockManager_of_spares hSpares, ?_⟩⟩
  rw [hKeeps.2 _ (isState_of_namesClock namesClock_statePath), afterWrite]
  cases hDomain : domainWrite (callEvent (Machine.handle opts) thread env request world.state) with
  | none => rfl
  | some write =>
    obtain ⟨written, value⟩ := write
    dsimp only
    split
    · next hSame =>
      rw [hSame] at hDomain
      exact absurd namesClock_statePath (hNone _ _ hDomain)
    · rfl

/-! ### Inside the lock -/

/-- The thread is in the lock of the manager and knows something of the clock. -/
def InLock (thread : ι) (P : Machine json → Prop) (world : MachineWorld ι json) : Prop :=
  world.holder .syncManager = some thread ∧ P world.state

variable {thread : ι} {P Q : Machine json → Prop}

/-- What is known of the clock only. -/
def OfClock (P : Machine json → Prop) : Prop :=
  ∀ before after, SameClock before after → P before → P after

theorem InLock.of_rely (hP : OfClock P) {world now : MachineWorld ι json}
    (hInLock : InLock thread P world)
    (hRely : (clockContract r : MachineContract ι json Outcome).rely thread world now) :
    InLock thread P now := by
  obtain ⟨hHolds, hSame⟩ := hRely hInLock.1
  exact ⟨hHolds, hP _ _ hSame hInLock.2⟩

theorem ofClock_clockAgrees : OfClock (ClockAgrees : Machine json → Prop) :=
  fun _ _ hSame hAgrees => hAgrees.of_sameClock hSame

theorem ofClock_fitsClock (device : Model.Device) :
    OfClock fun machine : Machine json => ClockAgrees machine ∧ FitsClock device machine :=
  fun _ _ hSame hBoth => ⟨hBoth.1.of_sameClock hSame, hBoth.2.of_sameClock hSame⟩

theorem steady_inLock (hP : OfClock P) :
    Steady opts (clockContract r : MachineContract ι json Outcome) thread (InLock thread P) := by
  refine ⟨fun world now hInLock hRely => hInLock.of_rely hP hRely, ?_⟩
  intro world env request hReads hInv hInLock
  obtain ⟨bindCache, hAfter⟩ := handle_of_reads hReads opts env world.state
  have hSame : SameClock world.state (Machine.handle opts env request world.state).2 := by
    rw [hAfter]
    exact ⟨rfl, rfl⟩
  refine ⟨⟨?_, Or.inl hSame⟩, hInLock.1, hP _ _ hSame hInLock.2⟩
  show StateSound r (Machine.handle opts env request world.state).2
  rw [hAfter]
  exact hInv.1

/-- What a program ensures under the contract of the clock. -/
abbrev ClockTriple (json : Json) (opts : Options) (r : Router) (thread : ι)
    (pre : MachineWorld ι json → Prop) (program : Prog α)
    (post : α → MachineWorld ι json → Prop) : Prop :=
  Contract.Triple (Machine.handler json opts) (clockContract r) thread pre program post

/-- In the lock, the program ends in agreement if it begins so. -/
abbrev KeepsAgreement (json : Json) (opts : Options) (r : Router) (thread : ι)
    (program : Prog α) : Prop :=
  ClockTriple json opts r thread (InLock thread ClockAgrees) program fun _ =>
    InLock thread ClockAgrees

theorem triple_clockManager {next : ClockManager → Prog α} {post : α → MachineWorld ι json → Prop}
    (hP : OfClock P)
    (hNext : ∀ manager, ClockTriple json opts r thread
      (InLock thread fun machine => P machine ∧ machine.clockManager = manager) (next manager)
      post) :
    ClockTriple json opts r thread (InLock thread P) (.call .clockManager next) post := by
  intro world hInLock now hInv hRely env _
  have hNow := hInLock.of_rely hP hRely
  exact ⟨⟨hInv.1, Or.inl ⟨rfl, rfl⟩⟩, hNext now.state.clockManager _ ⟨hNow.1, hNow.2, rfl⟩⟩

theorem triple_setClockManager {manager : ClockManager} {next : Unit → Prog α}
    {post : α → MachineWorld ι json → Prop} (hP : OfClock P)
    (hSet : ∀ machine : Machine json, P machine → Q { machine with clockManager := manager })
    (hNext : ClockTriple json opts r thread (InLock thread Q) (next ()) post) :
    ClockTriple json opts r thread (InLock thread P)
      (.call (.setClockManager manager) next) post := by
  intro world hInLock now hInv hRely env _
  have hNow := hInLock.of_rely hP hRely
  exact ⟨⟨hInv.1, Or.inr hNow.1⟩, hNext _ ⟨hNow.1, hSet now.state hNow.2⟩⟩

theorem triple_orState {step : Prog (Except Err α)} {context : GoString}
    {next : α → Prog (Sync.State × Option Err)} {middle : Except Err α → MachineWorld ι json → Prop}
    {pre post : MachineWorld ι json → Prop}
    (hStep : ClockTriple json opts r thread pre step middle)
    (hNext : ∀ value,
      ClockTriple json opts r thread (middle (.ok value)) (next value) fun _ => post)
    (hError : ∀ err world, middle (.error err) world → post world) :
    ClockTriple json opts r thread pre (Sync.orState step state context next) fun _ => post := by
  refine hStep.bind ?_
  intro result
  cases result with
  | error err => exact fun world hMiddle => hError err world hMiddle
  | ok value => exact hNext value

/-- The snapshot of running has the stored clock state. -/
theorem triple_snapshot :
    ClockTriple json opts r thread (InLock thread ClockAgrees) (r.snapshot .running)
      fun result => InLock thread fun machine => ClockAgrees machine ∧
        ∀ device, result = .ok device → FitsClock device machine := by
  have hRead : ClockTriple json opts r thread (InLock thread ClockAgrees)
      (flatValues .running) fun result => InLock thread fun machine => ClockAgrees machine ∧
        ∀ values, result = .ok values →
          values = machine.memory.running ∧ ClockStored machine.memory.running := by
    refine triple_checkCtx (steady_inLock ofClock_clockAgrees) ?_ ?_
    · intro world hInLock now hInv hRely env _
      have hNow := hInLock.of_rely ofClock_clockAgrees hRely
      refine ⟨⟨hInv.1, Or.inl ⟨rfl, rfl⟩⟩, hNow.1, hNow.2, ?_⟩
      intro values hValues
      have hContent := Memory.datastore_of_values_eq_ok hValues
      exact ⟨(Except.ok.inj hContent).symm, hInv.1.2⟩
    · rintro err world ⟨hHolds, hAgrees⟩
      exact ⟨hHolds, hAgrees, fun values hValues => (by cases hValues)⟩
  refine triple_andThen hRead ?_ ?_
  · rintro values world ⟨hHolds, hAgrees, hContent⟩
    obtain ⟨rfl, hStored⟩ := hContent values rfl
    exact ⟨hHolds, hAgrees, fun device hDevice =>
      fitsClock_of_deviceFromValues_eq_ok hStored hDevice⟩
  · rintro err world ⟨hHolds, hAgrees, _⟩
    exact ⟨hHolds, hAgrees, fun device hDevice => (by cases hDevice)⟩

/-- The step of a program that needs the snapshot. -/
theorem triple_orState_snapshot {context : GoString}
    {next : Model.Device → Prog (Sync.State × Option Err)}
    (hNext : ∀ device, ClockTriple json opts r thread
      (InLock thread fun machine => ClockAgrees machine ∧ FitsClock device machine) (next device)
      fun _ => InLock thread ClockAgrees) :
    KeepsAgreement json opts r thread (Sync.orState (r.snapshot .running) state context next) := by
  refine triple_orState triple_snapshot ?_ fun err world hMiddle => ⟨hMiddle.1, hMiddle.2.1⟩
  rintro device world ⟨hHolds, hAgrees, hFits⟩
  exact hNext device world ⟨hHolds, hAgrees, hFits device rfl⟩

/-- What is adopted agrees with the leaf. -/
theorem triple_adopt {device : Model.Device} :
    ClockTriple json opts r thread
      (InLock thread fun machine => ClockAgrees machine ∧ FitsClock device machine)
      (Sync.adopt device) fun _ => InLock thread ClockAgrees := by
  refine triple_clockManager (ofClock_fitsClock device) ?_
  intro manager
  refine triple_setClockManager (Q := ClockAgrees) ?_ ?_ fun world hInLock => hInLock
  · rintro before after hSame ⟨hBoth, hManager⟩
    exact ⟨ofClock_fitsClock device before after hSame hBoth, hSame.1.trans hManager⟩
  · rintro machine ⟨⟨hAgrees, hFits⟩, rfl⟩ hKnown leaf hLeaf
    obtain ⟨hState, hValid⟩ := hFits leaf hLeaf
    show leaf = .string (Sync.adopted machine.clockManager device).state
    unfold Sync.adopted
    split
    · next hOld => exact hAgrees hOld leaf hLeaf
    · exact hState

/-- What the write of a state leaves behind. -/
theorem clockStored_of_write (outcome : Memory.Outcome json) (hValid : Sync.validState state = true)
    (hStored : ClockStored machine.memory.running)
    (hKeeps : KeepsState r (⟨thread, .mutate (.set .running Sync.statePath (.leaf (.string state))),
      outcome.1, machine, { machine with memory := outcome.2 }⟩ : MachineEvent ι json)) :
    ClockStored outcome.2.running ∧ outcome.2.running[Sync.statePath]? =
      if outcome.1.isOk then some (.string state)
      else machine.memory.running[Sync.statePath]? := by
  have hLeaf := hKeeps.2 _ (isState_of_namesClock namesClock_statePath)
  obtain ⟨result, after⟩ := outcome
  cases result with
  | error err =>
    refine ⟨clockStored_of_keepsState hKeeps hStored ?_, hLeaf⟩
    intro path value hWrite
    rw [domainWrite_of_error] at hWrite
    cases hWrite
  | ok done =>
    refine ⟨clockStored_of_keepsState hKeeps hStored ?_, hLeaf⟩
    rintro path value ⟨⟩ _
    exact ⟨rfl, state, rfl, hValid⟩

/-- The write of a state: it is stored, or nothing has changed. -/
theorem triple_writeLeaf (hValid : Sync.validState state = true) :
    ClockTriple json opts r thread (InLock thread ClockAgrees)
      (ask (.mutate (.set .running Sync.statePath (.leaf (.string state))))) fun result =>
        InLock thread fun machine => if result.isOk then
          machine.memory.running[Sync.statePath]? = some (.string state) else
          ClockAgrees machine := by
  intro world hInLock now hInv hRely env hAllowed
  have hNow := hInLock.of_rely ofClock_clockAgrees hRely
  have hSpares : Request.Spares r (fun path => path = Sync.statePath) False
      (.mutate (.set .running Sync.statePath (.leaf (.string state)))) := ⟨rfl, rfl⟩
  have hKeeps := keepsState_of_call hSpares hInv.1.1 hAllowed
  obtain ⟨hStored, hLeaf⟩ := clockStored_of_write (now.state.memory.mutate opts env
    (.set .running Sync.statePath (.leaf (.string state)))) hValid hInv.1.2 hKeeps
  refine ⟨⟨⟨hKeeps.1, hStored⟩, Or.inr hNow.1⟩, hNow.1, ?_⟩
  dsimp only
  split
  · next hOk => exact hLeaf.trans (if_pos hOk)
  · next hFailed => exact hNow.2.of_sameClock ⟨rfl, hLeaf.trans (if_neg hFailed)⟩

theorem triple_writeState {manager : ClockManager} (hValid : Sync.validState state = true) :
    KeepsAgreement json opts r thread (Sync.writeState r manager state) := by
  have hSet : ClockTriple json opts r thread (InLock thread ClockAgrees)
      (r.setState Sync.statePath (.leaf (.string state)))
      fun result => InLock thread fun machine => if result.isOk then
        machine.memory.running[Sync.statePath]? = some (.string state) else
        ClockAgrees machine := by
    refine triple_checkCtx (steady_inLock ofClock_clockAgrees) ?_ fun err world hInLock => hInLock
    cases hConvert : r.convertTo true Sync.statePath (.leaf (.string state)) with
    | error err => exact fun world hInLock => hInLock
    | ok converted =>
      have hPath := path_of_convertTo_eq_ok hConvert
      have hValue := value_of_convertTo_string_eq_ok hConvert
      show Contract.Triple _ _ _ _ (andThen (ask (.mutate (.set .running converted.path
        (.leaf converted.value)))) fun _ => .ret (.ok converted)) _
      rw [hPath, hValue]
      exact triple_andThen (triple_writeLeaf hValid) (fun done world hStored => hStored)
        fun err world hInLock => hInLock
  refine triple_orState hSet ?_ fun err world hInLock => hInLock
  intro converted
  refine triple_setClockManager (Q := ClockAgrees) ?_ ?_ fun world hInLock => hInLock
  · intro before after hSame hLeaf
    exact hSame.2.trans hLeaf
  · intro machine hLeaf _ leaf hStored
    have hSame : some (Leaf.string state) = some leaf := hLeaf.symm.trans hStored
    exact (Option.some.inj hSame).symm

theorem triple_handleLocked {type : Sync.EventType} :
    KeepsAgreement json opts r thread (Sync.handleLocked r type) := by
  have hTransition : ∀ manager state, Sync.validState state = true →
      KeepsAgreement json opts r thread (Sync.transition r manager state) := by
    intro manager state hValid
    unfold Sync.transition
    split
    · refine triple_orState_snapshot ?_
      rintro device world ⟨hHolds, hAgrees, _⟩
      exact triple_writeState hValid world ⟨hHolds, hAgrees⟩
    · exact triple_writeState hValid
  have hTurn : ∀ manager : ClockManager,
      KeepsAgreement json opts r thread (Sync.takeEvent r type manager) := by
    intro manager
    unfold Sync.takeEvent
    split
    · exact fun world hInLock => hInLock
    · next next hNext =>
      split
      · exact fun world hInLock => hInLock
      · exact hTransition manager next (Sync.validState_of_nextState_eq_some hNext)
  have hKnown : KeepsAgreement json opts r thread
      (Sync.ensureState r (Sync.takeEvent r type)) := by
    refine triple_clockManager ofClock_clockAgrees ?_
    rintro manager world ⟨hHolds, hAgrees, _⟩
    split
    · exact hTurn manager world ⟨hHolds, hAgrees⟩
    · exact triple_orState_snapshot (fun device => triple_adopt.bind hTurn) world
        ⟨hHolds, hAgrees⟩
  cases type with
  | unknown name =>
    exact triple_clockManager ofClock_clockAgrees fun manager world hInLock =>
      ⟨hInLock.1, hInLock.2.1⟩
  | _ => exact hKnown

/-- A critical section of the manager. -/
theorem triple_syncManager {body : Prog α} (hBody : KeepsAgreement json opts r thread body) :
    ClockTriple json opts r thread (fun _ => True) (.locked .syncManager body)
      fun _ _ => True := by
  have hStable : ∀ (_ : α) (world now : MachineWorld ι json), InLock thread ClockAgrees world →
      (clockContract r : MachineContract ι json Outcome).rely thread world now →
      InLock thread ClockAgrees now :=
    fun value world now hInLock hRely => hInLock.of_rely ofClock_clockAgrees hRely
  refine Contract.Triple.locked ?_ hStable (fun value world hInLock _ => hInLock.2)
    fun _ _ _ => trivial
  intro world now _ hInv _ hFree
  exact hBody _ ⟨World.holder_hand_self now .syncManager (some thread), hInv.2 hFree⟩

/-! ### All activities -/

theorem not_namesClock_counterPath (port name : GoString) :
    ¬ NamesClock (L2.counterPath port name) := by
  rintro ⟨segments, hParse, hNames⟩
  have hPath : L2.counterPath port name =
      text "interfaces" ++ 47 ::
        (text "interface[name=" ++ port ++ text "]/counters/" ++ name) := by
    simp only [L2.counterPath, List.append_assoc]
    rfl
  rw [hPath] at hParse
  obtain ⟨left, right, hLeft, _, rfl⟩ := parse_append_slash.mp hParse
  have hFirst : parse (text "interfaces") = .ok [⟨text "interfaces", [], []⟩] := by decide +kernel
  rw [hFirst, Except.ok.injEq] at hLeft
  subst hLeft
  rw [List.map_append, List.map_singleton, List.singleton_append] at hNames
  have hName : text "interfaces" = text "ptp" := (List.cons.inj hNames).1
  exact absurd hName (by decide)

end Contract

/-- The domains other than the clock leave its state alone. -/
def Activity.SparesClock : Activity → Prop
  | .setState path _ | .deleteState path => ¬ NamesClock path
  | _ => True

theorem not_namesClock_of_writes {activity : Activity} (hSpares : activity.SparesClock)
    (hClock : ¬ activity.IsClock) (path : GoString) (hWrites : activity.Writes path) :
    ¬ NamesClock path := by
  cases activity with
  | setState target value | deleteState target =>
    cases hWrites
    exact hSpares
  | increment port delta =>
    obtain ⟨name, rfl⟩ := hWrites
    exact not_namesClock_counterPath port name
  | clockEvent type | syncLoss source | expireHoldover | reconcilePTP => exact absurd trivial hClock
  | _ => exact hWrites.elim

section Runs

variable {ι : Type} {json : Json} {opts : Options} {r : Router}

theorem triple_clock_activity {thread : ι} (activity : Activity) (hSpares : activity.SparesClock) :
    ClockTriple json opts r thread (fun _ => True) (activity.program r) fun _ _ => True := by
  have hOther : ¬ activity.IsClock → ClockTriple json opts r thread (fun _ => True)
      (activity.program r) fun _ _ => True := by
    intro hClock
    refine Contract.Triple.of_only (fun env request world hRequest hInv hAllowed =>
      guarantee_of_spares hRequest hInv hAllowed) ?_
      (only_activity activity (not_namesClock_of_writes hSpares hClock) hClock)
    intro lock world hLock _ _ hSync
    exact (hLock hSync).elim
  cases activity with
  | clockEvent type => exact Contract.Triple.map _ (triple_syncManager triple_handleLocked)
  | syncLoss source =>
    refine Contract.Triple.map _ (triple_syncManager ?_)
    split
    · exact triple_handleLocked
    · refine triple_clockManager ofClock_clockAgrees ?_
      rintro manager world ⟨hHolds, hAgrees, _⟩
      refine triple_orState_snapshot ?_ world ⟨hHolds, hAgrees⟩
      intro device
      split
      · exact triple_adopt.bind fun _ => triple_handleLocked
      · exact fun world hInLock => ⟨hInLock.1, hInLock.2.1⟩
  | expireHoldover =>
    refine Contract.Triple.map _ (triple_syncManager (triple_clockManager ofClock_clockAgrees ?_))
    rintro manager world ⟨hHolds, hAgrees, _⟩
    split
    · exact triple_handleLocked world ⟨hHolds, hAgrees⟩
    · exact ⟨hHolds, hAgrees⟩
  | reconcilePTP =>
    refine Contract.Triple.map _ (triple_syncManager (triple_clockManager ofClock_clockAgrees ?_))
    rintro manager world ⟨hHolds, hAgrees, _⟩
    refine triple_orState_snapshot ?_ world ⟨hHolds, hAgrees⟩
    intro device
    refine triple_adopt.bind ?_
    intro manager
    split
    · refine triple_handleLocked.bind ?_
      rintro ⟨state, err⟩
      cases err with
      | some err => exact fun world hInLock => hInLock
      | none => exact triple_handleLocked
    · exact fun world hInLock => hInLock
  | _ => exact hOther fun hClock => hClock

/-- Configuration operations do not move state, in a run whose rollbacks find the state
leaves as they are in their snapshots: a call changes a state leaf of running only as a
domain write of it, each state leaf holds the value of the last domain write, and the
stored clock state is that of the manager whenever nobody is in the manager's lock. -/
theorem state_leaves_hold_last_domain_write [DecidableEq ι] (opts : Options) (r : Router)
    (activities : ι → Activity) (envs : ι → Nat → CallEnv) (machine : Machine json)
    (hMirrored : Mirrored r machine.contents) (hStored : ClockStored machine.memory.running)
    (hAgrees : ClockAgrees machine) (hSpares : ∀ thread, (activities thread).SparesClock)
    {system : System ι Mutex Request Request.Response CallEnv (Machine json) Outcome}
    (hReaches : System.Reaches (Machine.handle opts) (fun _ event => RestoresState r event)
      (activitySystem r activities envs machine) system) :
    (∀ event ∈ system.world.history, domainWrite event = none → ∀ path : GoString,
      r.isState path = true →
      event.after.memory.running[path]? = event.before.memory.running[path]?) ∧
    (∀ path : GoString, r.isState path = true → system.world.state.memory.running[path]? =
      lastWrite machine.memory.running system.world.history path) ∧
    (system.world.holder .syncManager = none → ClockAgrees system.world.state) := by
  obtain ⟨hKeeps, _, hLast⟩ := keepsState_of_reaches hMirrored hReaches
  refine ⟨?_, hLast, ?_⟩
  · intro event hEvent hNone path hState
    obtain ⟨_, hKept⟩ := hKeeps.of_mem hEvent
    rw [hKept.2 path hState, afterWrite_of_domainWrite_eq_none hNone]
  · have hFirst : Contract.Kept (Machine.handler json opts) (clockContract r)
        (activitySystem r activities envs machine) :=
      ⟨⟨⟨hMirrored, hStored⟩, fun _ => hAgrees⟩, fun thread =>
        triple_clock_activity (activities thread) (hSpares thread) _ trivial⟩
    exact (hFirst.of_reaches fits_clockContract hReaches).inv.2

end Runs

/-! ## Rollbacks next to the clock -/

/-- `RestoresState` as a check. -/
def isRestoresState {ι : Type} {json : Json} (_ : MachineWorld ι json)
    (event : MachineEvent ι json) : Bool :=
  match event.request with
  | .restore rollback => stateOf rollback.snapshot = stateOf event.before.memory.running
  | _ => true
where
  /-- The state leaves of a content. -/
  stateOf (content : Values) : List (GoString × Leaf) :=
    (content.filter fun path _ => defaultRouter.isState path).toList

theorem getElem?_eq_of_stateOf_eq {left right : Values}
    (hState : isRestoresState.stateOf left = isRestoresState.stateOf right) (path : GoString)
    (hPath : defaultRouter.isState path = true) : left[path]? = right[path]? := by
  have hFilter : left.filter (fun path _ => defaultRouter.isState path) =
      right.filter fun path _ => defaultRouter.isState path :=
    Std.ExtTreeMap.ext_toList (by rw [isRestoresState.stateOf] at hState; rw [hState]; rfl)
  have hAt := congrArg (fun content : Values => content[path]?) hFilter
  rw [Std.ExtTreeMap.getElem?_filter', Std.ExtTreeMap.getElem?_filter', hPath] at hAt
  generalize left[path]? = leaf at hAt ⊢
  generalize right[path]? = other at hAt ⊢
  cases leaf <;> cases other <;> exact hAt

theorem restoresState_of_isRestoresState {ι : Type} {json : Json} (world : MachineWorld ι json)
    (event : MachineEvent ι json) (hCheck : isRestoresState world event = true) :
    RestoresState defaultRouter event := by
  intro rollback hRequest path hPath
  rw [isRestoresState, hRequest, decide_eq_true_eq] at hCheck
  exact getElem?_eq_of_stateOf_eq hCheck path hPath

/-- A content with the state of a clock that has no source. -/
def clockContent (content : Values) : Values :=
  content.insert Sync.statePath (.string "freerun")

/-- Running and candidate hold a clock, and candidate the new VLAN. -/
def clockMachine : Machine Json.plain :=
  Machine.start { newMemory none with
    running := clockContent Datatree.bareContent, candidate := clockContent labContent }

theorem mirrored_clockMachine : Mirrored defaultRouter clockMachine.contents := by
  intro path hPath
  exact getElem?_eq_of_stateOf_eq (by decide +kernel) path hPath

theorem clockStored_clockMachine : ClockStored clockMachine.memory.running := by
  constructor
  · intro leaf hLeaf
    have hStored : clockMachine.memory.running[Sync.statePath]? = some (.string "freerun") :=
      Std.ExtTreeMap.getElem?_insert_self
    rw [hStored, Option.some.injEq] at hLeaf
    exact ⟨"freerun", hLeaf.symm, by decide⟩
  · intro path hPath hNames
    obtain ⟨leaf, hLeaf⟩ := Option.isSome_iff_exists.mp (FinMap.mem_iff_isSome _ _ |>.mp hPath)
    have hAll : ∀ entry ∈ clockMachine.memory.running.toList,
        entry.1 = Sync.statePath ∨ defaultRouter.isState entry.1 = false := by
      decide +kernel
    rcases hAll _ (Std.ExtTreeMap.mem_toList_iff_getElem?_eq_some.mpr hLeaf) with hSelf | hConfig
    · exact hSelf
    · rw [isState_of_namesClock hNames] at hConfig
      cases hConfig

/-- A confirmed commit times out, and then the clock finds a source. -/
def timeoutBeforeSource : Option (System (Fin 3) Mutex Request Request.Response CallEnv
    (Machine Json.plain) Outcome) :=
  (activitySystem defaultRouter ![.confirmedCommit 1, .clockEvent .sourceDetected, .timer 1]
    (fun _ _ => CallEnv.quiet) clockMachine).checkedRun labHandle isRestoresState
      (List.replicate 9 0 ++ List.replicate 4 2 ++ List.replicate 10 1)

theorem clock_state_survives_timeout_before_source :
    ∃ system, timeoutBeforeSource = some system ∧
      system.world.state.memory.running[Sync.statePath]? = some (.string "acquiring") ∧
      system.world.state.memory.running[Sync.statePath]? =
        lastWrite clockMachine.memory.running system.world.history Sync.statePath ∧
      ClockAgrees system.world.state := by
  have hEnd : timeoutBeforeSource.map (fun system =>
      (system.world.state.memory.running[Sync.statePath]?,
        system.world.holder .syncManager)) = some (some (.string "acquiring"), none) := by
    decide +kernel
  obtain ⟨system, hRun, hEnd⟩ := Option.map_eq_some_iff.mp hEnd
  rw [Prod.mk.injEq] at hEnd
  have hHolds := state_leaves_hold_last_domain_write (defaultRouter.options []) defaultRouter
    ![.confirmedCommit 1, .clockEvent .sourceDetected, .timer 1] (fun _ _ => CallEnv.quiet)
    clockMachine mirrored_clockMachine clockStored_clockMachine (fun hKnown => by cases hKnown)
    (fun thread => by fin_cases thread <;> trivial)
    (System.reaches_of_checkedRun _ restoresState_of_isRestoresState .start hRun)
  exact ⟨system, hRun, hEnd.1,
    hHolds.2.1 Sync.statePath (isState_of_namesClock namesClock_statePath), hHolds.2.2 hEnd.2⟩

/-- The clock finds its source between the confirmed commit and its timeout. -/
def timeoutAfterSource : Option (System (Fin 3) Mutex Request Request.Response CallEnv
    (Machine Json.plain) Outcome) :=
  (activitySystem defaultRouter ![.confirmedCommit 1, .clockEvent .sourceDetected, .timer 1]
    (fun _ _ => CallEnv.quiet) clockMachine).run labHandle
      (List.replicate 9 0 ++ List.replicate 10 1 ++ List.replicate 4 2)

theorem timeout_sets_clock_state_back :
    Mirrored defaultRouter clockMachine.contents ∧ ClockStored clockMachine.memory.running ∧
    ∃ system, timeoutAfterSource = some system ∧
      lastWrite clockMachine.memory.running system.world.history Sync.statePath =
        some (.string "acquiring") ∧
      system.world.state.memory.running[Sync.statePath]? = some (.string "freerun") ∧
      system.world.holder .syncManager = none ∧
      system.world.state.clockManager.known = true ∧
      system.world.state.clockManager.state = text "acquiring" := by
  have hEnd : timeoutAfterSource.map (fun system =>
      decide (lastWrite clockMachine.memory.running system.world.history Sync.statePath =
          some (.string "acquiring") ∧
        system.world.state.memory.running[Sync.statePath]? = some (.string "freerun") ∧
        system.world.holder .syncManager = none ∧
        system.world.state.clockManager.known = true ∧
        system.world.state.clockManager.state = text "acquiring")) = some true := by
    decide +kernel
  obtain ⟨system, hRun, hEnd⟩ := Option.map_eq_some_iff.mp hEnd
  exact ⟨mirrored_clockMachine, clockStored_clockMachine, system, hRun, of_decide_eq_true hEnd⟩

end TriadSim

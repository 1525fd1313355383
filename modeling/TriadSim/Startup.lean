import TriadSim.Boot
import TriadSim.Sync.Ptp

/-!
# A first boot and a restart

`internal/cli/start.go` loads the startup file and seeds the boot template when running is empty
then.  A first boot stores every leaf of the template, state included.  The startup file holds
configuration only, so a restart stores the configuration and no state at all, and nothing puts
the state leaves back before a domain writes one.  `restart_shows_every_leaf_iff` says which
contents a restart shows in full.
-/

namespace TriadSim

open Datatree Go Library Router Store

namespace Router

/-! ## The leaves of a value -/

/-- The segments of a list element: the last one takes the key of the element. -/
def elementSegments (fields : Fields) (element : fields.Vals) (segments : List Segment) :
    List Segment :=
  match fields.keyName, fields.keyText element, segments.getLast? with
  | some key, some value, some last => segments.dropLast ++ [⟨last.name, key, value⟩]
  | _, _, _ => segments

mutual

/-- `walkLeaves` from the value of a field. -/
def walkType : (type : GoType) → type.Val → List Segment → List (List Segment × Leaf)
  | .scalar kind, value, segments => [(segments, Leaf.ofVal kind value)]
  | .struct fields, value, segments => walkFields fields value segments
  | .pointer _, none, _ => []
  | .pointer fields, some value, segments => walkFields fields value segments
  | .slice fields, elements, segments =>
    elements.flatMap fun element =>
      walkFields fields element (elementSegments fields element segments)

/-- `walkLeaves` over the fields of a struct, in declaration order. -/
def walkFields : (fields : Fields) → fields.Vals → List Segment → List (List Segment × Leaf)
  | .nil, _, _ => []
  | .cons tag type rest, (value, values), segments =>
    walkType type value (segments ++ tag.path.map fun name => ⟨name, [], []⟩) ++
      walkFields rest values segments

end

/-- The leaves of a device, in the order `walkLeaves` visits them. -/
def walkLeaves (device : Model.Device) : List (List Segment × Leaf) :=
  walkFields Model.Device.fields device.toVals []

/-- The paths of the leaves of a device. -/
def leafPaths (device : Model.Device) : List GoString :=
  (walkLeaves device).map fun leaf => pathText leaf.1

/-! ## Seeding -/

/-- The loop of `Seed` over what is left of the leaves. -/
def seedLeaves (ds : Datastore) : List (List Segment × Leaf) → Prog (Except Err Unit)
  | [] => .ret (.ok ())
  | (segments, leaf) :: rest =>
    checkCtx <| andThen (ask (.mutate (.set ds (pathText segments) (.leaf leaf)))) fun () =>
      seedLeaves ds rest

/-- `Seed`: every leaf of the template. -/
def seed (r : Router) (ds : Datastore) : Prog (Except Err Unit) :=
  checkCtx (seedLeaves ds (walkLeaves r.root))

end Router

/-- `seedIfEmpty`. -/
def seedIfEmpty (r : Router) : Prog (Except Err Unit) :=
  andThen (ask (.values .running)) fun content =>
    if content.isEmpty then
      andThen (r.seed .candidate) fun () => ask (.mutate .commit)
    else .ret (.ok ())

/-- What `run` does to the store before the domains are set up. -/
def startUp (r : Router) : Prog (Except Err Unit) :=
  andThen (mapError (Err.text "load startup: " ++ ·) (ask (.mutate .loadStartup))) fun () =>
    mapError (Err.text "seed device: " ++ ·) (seedIfEmpty r)

/-- The process after a boot over a disk. -/
def started {json : Json} (r : Router) (file : GoString) (env : Nat → CallEnv)
    (disk : Option json.Data) : Except Err Unit × Machine json :=
  (startUp r).run (r.options file) env (Machine.start (newMemory disk))

/-! ## What a boot stores -/

/-- A content with more leaves. -/
def withLeaves (content : Values) (leaves : List (List Segment × Leaf)) : Values :=
  leaves.foldl (fun values leaf => values.insert (pathText leaf.1) leaf.2) content

/-- What a first boot stores. -/
def seeded (r : Router) : Values :=
  withLeaves ∅ (walkLeaves r.root)

section Stored

variable {json : Json} {opts : Options} {r : Router}

/-- A seeding of candidate that succeeds has stored the leaves there, and only there. -/
theorem ensures_seedLeaves (leaves : List (List Segment × Leaf)) (machine : Machine json) :
    (seedLeaves .candidate leaves).Ensures opts (fun result after => result = .ok () →
      after.memory.candidate = withLeaves machine.memory.candidate leaves) machine := by
  induction leaves generalizing machine with
  | nil => exact fun _ => rfl
  | cons leaf leaves ih =>
    refine ensures_checkCtx (by simp) (ensures_andThen (ensures_mutate ?_ ?_))
    · rintro env after ⟨stored, hValue, _, _, hAfter⟩
      refine ⟨fun _ _ => ?_, by simp⟩
      cases hValue
      have hCandidate : after.memory.candidate =
          machine.memory.candidate.insert (pathText leaf.1) leaf.2 :=
        congrArg Contents.candidate hAfter
      have hRest := ih after
      rw [hCandidate] at hRest
      exact hRest
    · exact fun err after _ => ⟨by simp, by simp⟩

/-- The startup file that a content was saved to is read back as its configuration. -/
theorem configOnly_of_load_eq_ok {content loaded : Values} {env : CallEnv}
    {disk : Option json.Data} (hJson : json.RoundTrips) (hSaved : Saved json opts content disk)
    (hLoad : Memory.load opts env disk = .ok loaded) :
    opts.configOnly loaded = opts.configOnly content := by
  obtain ⟨data, hEncode, rfl⟩ := hSaved
  have hDecode := decodeFile_of_encodeFile_eq_ok hJson hEncode opts.startupFile
  unfold Memory.load at hLoad
  split at hLoad
  · cases hLoad
  split at hLoad
  · cases hLoad
  · cases hDecode.symm.trans hLoad
    exact configOnly_configOnly content

/-- Seeding stores the template in an empty store, and does nothing to another one. -/
theorem ensures_seedIfEmpty {content : Values} {machine : Machine json}
    (hContents : machine.contents = .uniform content) :
    (seedIfEmpty r).Ensures opts (fun result after => result = .ok () →
      after.memory.running = if content.isEmpty then seeded r else content) machine := by
  have hRunning : machine.memory.running = content := congrArg Contents.running hContents
  have hCandidate : machine.memory.candidate = content := congrArg Contents.candidate hContents
  refine ensures_andThen fun env => ⟨?_, by simp⟩
  intro found hRead
  have hFound : machine.memory.datastore .running = .ok found :=
    Memory.datastore_of_values_eq_ok hRead
  cases hRunning.symm.trans (Except.ok.inj hFound)
  cases hEmpty : content.isEmpty with
  | false =>
    rw [if_neg Bool.false_ne_true]
    exact fun _ => hRunning
  | true =>
    rw [if_pos rfl]
    have hNone : content = ∅ := Std.ExtTreeMap.isEmpty_iff.mp hEmpty
    refine ensures_andThen (ensures_checkCtx (by simp) ?_)
    refine (ensures_seedLeaves (walkLeaves r.root) machine).mono ?_
    refine fun result seededMachine hSeeded => ⟨fun _ hOk => ?_, by simp⟩
    -- The commit makes what was seeded running.
    refine ensures_mutate ?_ (by simp)
    rintro env after ⟨_, hAfter⟩ -
    have hCommitted : after.memory.running = seededMachine.memory.candidate :=
      congrArg Contents.running hAfter
    rw [hCommitted, hSeeded hOk, hCandidate, hNone]
    rfl

/-- A boot keeps the configuration that the startup file holds, and stores the template if there
is none. -/
theorem running_of_started_eq_ok {file : GoString} {content : Values} {env : Nat → CallEnv}
    {disk : Option json.Data} (hJson : json.RoundTrips) (hFile : file ≠ [])
    (hSaved : Saved json (r.options file) content disk)
    (hBoot : (started r file env disk).1 = .ok ()) :
    (started r file env disk).2.memory.running =
      if ((r.options file).configOnly content).isEmpty then seeded r
      else (r.options file).configOnly content := by
  have hStarts : (startUp r).Ensures (r.options file) (fun result after => result = .ok () →
      after.memory.running = if ((r.options file).configOnly content).isEmpty then seeded r
        else (r.options file).configOnly content) (Machine.start (newMemory disk)) := by
    refine ensures_andThen (ensures_mapError (ensures_mutate ?_ ?_))
    · rintro env after (⟨hNoFile, _⟩ | ⟨_, loaded, hLoad, _, hAfter⟩)
      · exact absurd hNoFile hFile
      · refine ⟨fun _ _ => ensures_mapError ?_, by simp [Except.mapError]⟩
        rw [configOnly_of_load_eq_ok hJson hSaved hLoad] at hAfter
        refine (ensures_seedIfEmpty hAfter).mono ?_
        intro result last hLast hOk
        cases result with
        | error err => cases hOk
        | ok done => exact hLast rfl
    · exact fun err after _ => ⟨by simp [Except.mapError], by simp⟩
  exact hStarts.run env hBoot

end Stored

/-! ## The state leaves -/

theorem mem_walkFields_of_mem_walkType {tag : Tag} {type : GoType} {rest : Fields}
    {value : type.Val} {values : rest.Vals} {segments : List Segment}
    {leaf : List Segment × Leaf}
    (hLeaf : leaf ∈ walkType type value (segments ++ tag.path.map fun name => ⟨name, [], []⟩)) :
    leaf ∈ walkFields (.cons tag type rest) (value, values) segments :=
  List.mem_append_left _ hLeaf

theorem mem_walkFields_of_mem_rest {tag : Tag} {type : GoType} {rest : Fields}
    {value : type.Val} {values : rest.Vals} {segments : List Segment}
    {leaf : List Segment × Leaf} (hLeaf : leaf ∈ walkFields rest values segments) :
    leaf ∈ walkFields (.cons tag type rest) (value, values) segments :=
  List.mem_append_right _ hLeaf

/-- Every device has a clock state. -/
theorem statePath_mem_leafPaths (device : Model.Device) : Sync.statePath ∈ leafPaths device := by
  have hPath : pathText [⟨"ptp", [], []⟩, ⟨"clock", [], []⟩, ⟨"state", [], []⟩] =
      Sync.statePath := by decide
  refine List.mem_map.mpr ⟨(_, .string device.ptp.state), ?_, hPath⟩
  -- The clock is the seventh field of the device, and its state the eighth field of the clock.
  iterate 6 apply mem_walkFields_of_mem_rest
  apply mem_walkFields_of_mem_walkType
  show _ ∈ walkFields Model.PTPClock.fields device.ptp.toVals _
  iterate 7 apply mem_walkFields_of_mem_rest
  apply mem_walkFields_of_mem_walkType
  exact List.mem_singleton_self _

theorem mem_withLeaves {path : GoString} (leaves : List (List Segment × Leaf))
    (content : Values) :
    path ∈ withLeaves content leaves ↔
      path ∈ content ∨ path ∈ leaves.map fun leaf => pathText leaf.1 := by
  induction leaves generalizing content with
  | nil => simp [withLeaves]
  | cons leaf leaves ih =>
    rw [withLeaves, List.foldl_cons, ← withLeaves, ih, FinMap.mem_iff_isSome,
      FinMap.getElem?_insert_ite, FinMap.mem_iff_isSome, List.map_cons, List.mem_cons]
    by_cases hPath : pathText leaf.1 = path
    · simp [hPath]
    · simp [hPath, Ne.symm hPath]

/-- The device that a first boot rebuilds has the leaves of the template. -/
theorem rebuilt_seeded :
    ((deviceFromValues defaultRouter.root (seeded defaultRouter)).map fun device =>
      (withLeaves ∅ (walkLeaves device)).keys).toOption = some (seeded defaultRouter).keys := by
  decide +kernel

/-- The leaves that are stored are the leaves of the device they describe. -/
def ShowsEveryLeaf (r : Router) (content : Values) : Prop :=
  ∃ device, deviceFromValues r.root content = .ok device ∧
    ∀ path : GoString, path ∈ content ↔ path ∈ leafPaths device

theorem showsEveryLeaf_seeded : ShowsEveryLeaf defaultRouter (seeded defaultRouter) := by
  have hRebuilt := rebuilt_seeded
  cases hDevice : deviceFromValues defaultRouter.root (seeded defaultRouter) with
  | error err =>
    rw [hDevice] at hRebuilt
    cases hRebuilt
  | ok device =>
    rw [hDevice] at hRebuilt
    have hKeys : (withLeaves ∅ (walkLeaves device)).keys = (seeded defaultRouter).keys :=
      Option.some.inj hRebuilt
    refine ⟨device, hDevice, ?_⟩
    intro path
    rw [← Std.ExtTreeMap.mem_keys, ← hKeys, Std.ExtTreeMap.mem_keys, mem_withLeaves]
    simp [leafPaths]

/-- A content has no configuration exactly if all its leaves are state. -/
theorem isEmpty_configOnly_iff {r : Router} {file : GoString} (content : Values) :
    ((r.options file).configOnly content).isEmpty = true ↔
      ∀ path ∈ content, r.isState path = true := by
  rw [Std.ExtTreeMap.isEmpty_iff, Std.ExtTreeMap.eq_empty_iff_forall_not_mem]
  refine forall_congr' fun path => ?_
  rw [FinMap.mem_iff_isSome, getElem?_configOnly, FinMap.mem_iff_isSome]
  show ¬ (if r.isState path = true then none else content[path]?).isSome = true ↔ _
  cases r.isState path <;> simp

/-- After a restart the stored leaves are those of the device they describe exactly if the
earlier run has committed no configuration at all, so that the template is seeded again. -/
theorem restart_shows_every_leaf_iff {json : Json} (hJson : json.RoundTrips) (file : GoString)
    (hFile : file ≠ []) (m : Memory json) (op : Mutation) (env : CallEnv)
    (hOp : op = .commit ∨ ∃ values, op = .restore values)
    (hDone : (m.mutate (defaultRouter.options file) env op).1 = .ok ()) (later : Nat → CallEnv)
    (hBoot : (started defaultRouter file later
      (m.mutate (defaultRouter.options file) env op).2.disk).1 = .ok ()) :
    ShowsEveryLeaf defaultRouter (started defaultRouter file later
        (m.mutate (defaultRouter.options file) env op).2.disk).2.memory.running ↔
      ∀ path ∈ (m.mutate (defaultRouter.options file) env op).2.running,
        defaultRouter.isState path = true := by
  have hSaved : Saved json (defaultRouter.options file)
      (m.mutate (defaultRouter.options file) env op).2.running
      (m.mutate (defaultRouter.options file) env op).2.disk := by
    rcases hOp with rfl | ⟨values, rfl⟩
    · exact saved_of_commit_eq_ok hFile hDone
    · exact saved_of_restore_eq_ok hFile hDone
  rw [running_of_started_eq_ok hJson hFile hSaved hBoot]
  generalize (m.mutate (defaultRouter.options file) env op).2.running = content
  have hEmpty : ((defaultRouter.options file).configOnly content).isEmpty = true ↔
      ∀ path ∈ content, defaultRouter.isState path = true :=
    isEmpty_configOnly_iff content
  constructor
  · rintro ⟨device, _, hLeaves⟩
    refine hEmpty.mp (by_contra fun hSome => ?_)
    -- A restart with a configuration has no clock state, and the device has one.
    rw [if_neg hSome] at hLeaves
    have hStored := (hLeaves Sync.statePath).mpr (statePath_mem_leafPaths device)
    have hState : (defaultRouter.options file).isState Sync.statePath = true :=
      show defaultRouter.isState Sync.statePath = true by decide +kernel
    rw [FinMap.mem_iff_isSome, getElem?_configOnly, if_pos hState] at hStored
    cases hStored
  · intro hState
    rw [if_pos (hEmpty.mpr hState)]
    exact showsEveryLeaf_seeded

/-- What the restart after the commit of a content stores. -/
def restarted (content : Values) : Except Err Unit × Machine Json.plain :=
  started defaultRouter "startup.json" (fun _ => CallEnv.quiet)
    ((machineWith content).memory.mutate fileOptions CallEnv.quiet .commit).2.disk

theorem radio_restart_misses_leaves :
    ¬ ShowsEveryLeaf defaultRouter (restarted radioContent).2.memory.running := by
  intro hShows
  have hState := (restart_shows_every_leaf_iff Json.plain_roundTrips "startup.json" (by decide)
    (machineWith radioContent).memory .commit CallEnv.quiet (Or.inl rfl) (by decide +kernel)
    (fun _ => CallEnv.quiet) (by decide +kernel)).mp hShows
  have hName := hState (text "interfaces/interface[name=radio0]/name") (by decide +kernel)
  revert hName
  decide +kernel

/-- The bare content with a locked clock. -/
def lockedContent : Values :=
  bareContent.insert Sync.statePath (.string "locked")

/-- The clock state can be read when it is committed, and not after the restart. -/
theorem clock_state_is_lost_by_restart :
    ((machineWith lockedContent).memory.mutate fileOptions CallEnv.quiet .commit).1 = .ok () ∧
      Sync.statePath ∈
        ((machineWith lockedContent).memory.mutate fileOptions CallEnv.quiet .commit).2.running ∧
      (restarted lockedContent).1 = .ok () ∧
      ¬ ShowsEveryLeaf defaultRouter (restarted lockedContent).2.memory.running := by
  refine ⟨by decide +kernel, by decide +kernel, by decide +kernel, ?_⟩
  rintro ⟨device, _, hLeaves⟩
  have hAbsent : Sync.statePath ∉ (restarted lockedContent).2.memory.running := by decide +kernel
  exact hAbsent ((hLeaves _).mpr (statePath_mem_leafPaths device))

end TriadSim

import TriadSim.Store.PendingEdits

/-!
# Change tracking

Next to each datastore the store keeps a generation and the time of the last
configuration change.  `Memory.mutate_tracks` says what a call does to them: a
datastore that the call does not record keeps its content and both, and one that it
records gets the next generation, and the time of the call when a configuration leaf
is among the recorded paths.  The paths of an edit are those it names; the paths of a
wholesale call are the differences of running, whichever datastore is recorded.
`config_changed_at_follows_iff` says for which calls this is a fair account.
-/

namespace TriadSim
namespace Store

open Go Library

variable {json : Json}

/-- The value of a datastore, if there is one of that name. -/
def PerDatastore.get? {α : Type} (values : PerDatastore α) : Datastore → Option α
  | .running => some values.running
  | .candidate => some values.candidate
  | .startup => some values.startup
  | .unknown _ => none

variable {α : Type} {ds : Datastore} {path : GoString}

theorem PerDatastore.get?_modify_self (values : PerDatastore α) (f : α → α) (ds : Datastore) :
    (values.modify f ds).get? ds = (values.get? ds).map f := by
  cases ds <;> rfl

theorem PerDatastore.get?_modify_of_ne (values : PerDatastore α) (f : α → α) {other : Datastore}
    (hOther : other ≠ ds) :
    (values.modify f ds).get? other = values.get? other := by
  cases ds <;> cases other <;> first | rfl | exact absurd rfl hOther

/-- The content of a datastore, if there is one of that name. -/
def Contents.get? (contents : Contents) : Datastore → Option Values
  | .running => some contents.running
  | .candidate => some contents.candidate
  | .startup => some contents.startup
  | .unknown _ => none

theorem Memory.datastore_eq_ok_iff {m : Memory json} {values : Values} :
    m.datastore ds = .ok values ↔ m.contents.get? ds = some values := by
  cases ds with
  | unknown name =>
    constructor
    · intro hOk
      cases hOk
    · intro hSome
      cases hSome
  | _ => exact ⟨fun hOk => congrArg some (Except.ok.inj hOk),
      fun hSome => congrArg Except.ok (Option.some.inj hSome)⟩

/-- A configuration leaf is among the paths. -/
def Options.NamesConfig (opts : Options) (paths : List GoString) : Prop :=
  ∃ path ∈ paths, opts.isState path = false

/-- The datastores a write of `ds` is recorded for. -/
def Datastore.mirrored : Datastore → List Datastore
  | .running => [.running, .candidate]
  | ds => [ds]

/-- The datastores a call is recorded for when it succeeds. -/
def Mutation.targets : Mutation → List Datastore
  | .set ds _ _ | .delete ds _ | .apply ds _ _ => ds.mirrored
  | .commit | .loadStartup => [.running, .candidate, .startup]
  | .rollback => [.candidate]
  | .restore _ => [.running, .startup]

/-- The paths that are recorded for them. -/
def Mutation.paths (before after : Contents) : Mutation → List GoString
  | .set _ path _ | .delete _ path => [path]
  | .apply _ values deletions => values.keys ++ deletions
  | .rollback => (diffValues before.candidate after.candidate).map Change.path
  | .commit | .restore _ | .loadStartup =>
    (diffValues before.running after.running).map Change.path

/-! ## What is recorded -/

/-- The tracking of a datastore is as it was. -/
structure Memory.SameTracking (ds : Datastore) (m after : Memory json) : Prop where
  generation : after.generation.get? ds = m.generation.get? ds
  configChanged : after.configChanged.get? ds = m.configChanged.get? ds

/-- A change of some paths has been recorded for a datastore. -/
structure Memory.Recorded (opts : Options) (env : CallEnv) (ds : Datastore)
    (paths : List GoString) (m after : Memory json) : Prop where
  generation : after.generation.get? ds = (m.generation.get? ds).map (· + 1)
  stamped : opts.NamesConfig paths →
    after.configChanged.get? ds = (m.configChanged.get? ds).map fun _ => some (env.now ds)
  kept : ¬ opts.NamesConfig paths → after.configChanged.get? ds = m.configChanged.get? ds

namespace Memory

variable (opts : Options) (env : CallEnv)

/-- `bumpLocked` for several datastores. -/
def bumpAll (targets : List Datastore) (paths : List GoString) (m : Memory json) : Memory json :=
  targets.foldl (fun current ds => current.bump opts env ds paths) m

theorem recordWrite_eq_bumpAll (ds : Datastore) (paths : List GoString) (m : Memory json) :
    m.recordWrite opts env ds paths = m.bumpAll opts env ds.mirrored paths := by
  cases ds <;> rfl

theorem contents_bumpAll (targets : List Datastore) (paths : List GoString) (m : Memory json) :
    (m.bumpAll opts env targets paths).contents = m.contents := by
  induction targets generalizing m with
  | nil => rfl
  | cons ds targets ih => exact ih _

variable {opts env}

variable {paths : List GoString} {ds : Datastore} {m middle after : Memory json} {op : Mutation}

theorem any_not_isState_iff :
    (paths.any fun path => !opts.isState path) = true ↔ opts.NamesConfig paths := by
  rw [List.any_eq_true]
  simp only [Bool.not_eq_true', Options.NamesConfig]

theorem recorded_bump (ds : Datastore) (paths : List GoString) (m : Memory json) :
    Recorded opts env ds paths m (m.bump opts env ds paths) where
  generation := PerDatastore.get?_modify_self _ _ ds
  stamped := by
    intro hNames
    have hAny := any_not_isState_iff.mpr hNames
    simp only [bump, if_pos hAny]
    exact PerDatastore.get?_modify_self _ _ ds
  kept := by
    intro hNone
    have hAny := fun hAny => hNone (any_not_isState_iff.mp hAny)
    simp only [bump, if_neg hAny]

theorem sameTracking_bump {other : Datastore} (hOther : other ≠ ds) (paths : List GoString)
    (m : Memory json) : SameTracking other m (m.bump opts env ds paths) where
  generation := PerDatastore.get?_modify_of_ne _ _ hOther
  configChanged := by
    unfold bump
    dsimp only
    split
    · exact PerDatastore.get?_modify_of_ne _ _ hOther
    · rfl

theorem SameTracking.trans (hFirst : SameTracking ds m middle)
    (hSecond : SameTracking ds middle after) :
    SameTracking ds m after :=
  ⟨hSecond.generation.trans hFirst.generation, hSecond.configChanged.trans hFirst.configChanged⟩

theorem SameTracking.recorded (hSame : SameTracking ds m middle)
    (hRecorded : Recorded opts env ds paths middle after) :
    Recorded opts env ds paths m after where
  generation := by rw [hRecorded.generation, hSame.generation]
  stamped hNames := by rw [hRecorded.stamped hNames, hSame.configChanged]
  kept hNone := by rw [hRecorded.kept hNone, hSame.configChanged]

theorem Recorded.sameTracking (hRecorded : Recorded opts env ds paths m middle)
    (hSame : SameTracking ds middle after) : Recorded opts env ds paths m after where
  generation := hSame.generation.trans hRecorded.generation
  stamped hNames := hSame.configChanged.trans (hRecorded.stamped hNames)
  kept hNone := hSame.configChanged.trans (hRecorded.kept hNone)

theorem sameTracking_bumpAll {targets : List Datastore} (hOther : ds ∉ targets)
    (paths : List GoString) (m : Memory json) :
    SameTracking ds m (m.bumpAll opts env targets paths) := by
  induction targets generalizing m with
  | nil => exact ⟨rfl, rfl⟩
  | cons target targets ih =>
    rw [List.mem_cons, not_or] at hOther
    exact (sameTracking_bump hOther.1 paths m).trans (ih hOther.2 _)

theorem recorded_bumpAll {targets : List Datastore} (hNodup : targets.Nodup)
    (hTarget : ds ∈ targets) (paths : List GoString) (m : Memory json) :
    Recorded opts env ds paths m (m.bumpAll opts env targets paths) := by
  induction targets generalizing m with
  | nil => cases hTarget
  | cons target targets ih =>
    rw [List.nodup_cons] at hNodup
    rcases List.mem_cons.mp hTarget with rfl | hTarget
    · exact (recorded_bump ds paths m).sameTracking (sameTracking_bumpAll hNodup.1 paths _)
    · have hOther : ds ≠ target := fun hSame => hNodup.1 (hSame ▸ hTarget)
      exact (sameTracking_bump hOther paths m).recorded (ih hNodup.2 hTarget _)

theorem Recorded.of_namesConfig_iff {recorded : List GoString}
    (hRecorded : Recorded opts env ds paths m after)
    (hPaths : opts.NamesConfig recorded ↔ opts.NamesConfig paths) :
    Recorded opts env ds recorded m after where
  generation := hRecorded.generation
  stamped hNames := hRecorded.stamped (hPaths.mp hNames)
  kept hNone := hRecorded.kept fun hNames => hNone (hPaths.mpr hNames)

theorem nodup_mirrored (ds : Datastore) : ds.mirrored.Nodup := by
  cases ds <;> simp [Datastore.mirrored]

/-- What a call does to one datastore and its tracking. -/
def Tracks (opts : Options) (env : CallEnv) (op : Mutation) (ds : Datastore)
    (m after : Memory json) : Prop :=
  (after.contents.get? ds = m.contents.get? ds ∧ SameTracking ds m after) ∨
    (ds ∈ op.targets ∧ Recorded opts env ds (op.paths m.contents after.contents) m after)

theorem Tracks.unchanged (hContents : after.contents = m.contents)
    (hGeneration : after.generation = m.generation)
    (hConfig : after.configChanged = m.configChanged) : Tracks opts env op ds m after := by
  refine Or.inl ⟨by rw [hContents], ?_⟩
  exact ⟨by rw [hGeneration], by rw [hConfig]⟩

/-- A success: the content is replaced, and then the change is recorded. -/
theorem Tracks.of_bumpAll {base : Memory json} (hNodup : op.targets.Nodup)
    (hGeneration : base.generation = m.generation) (hConfig : base.configChanged = m.configChanged)
    (hOther : ds ∉ op.targets → base.contents.get? ds = m.contents.get? ds)
    (hPaths : opts.NamesConfig (op.paths m.contents base.contents) ↔ opts.NamesConfig paths) :
    Tracks opts env op ds m (base.bumpAll opts env op.targets paths) := by
  have hBase : SameTracking ds m base := ⟨by rw [hGeneration], by rw [hConfig]⟩
  rw [Tracks, contents_bumpAll]
  by_cases hTarget : ds ∈ op.targets
  · exact Or.inr ⟨hTarget,
      (hBase.recorded (recorded_bumpAll hNodup hTarget paths base)).of_namesConfig_iff hPaths⟩
  · exact Or.inl ⟨hOther hTarget, hBase.trans (sameTracking_bumpAll hTarget paths base)⟩

variable {target : Datastore} {f : Values → Values}

theorem get?_edit_of_not_mem {contents : Contents} (hOther : ds ∉ target.mirrored) :
    (contents.edit target f).get? ds = contents.get? ds := by
  cases target <;> cases ds <;> first | rfl | simp [Datastore.mirrored] at hOther

theorem tracking_edit (m : Memory json) (ds : Datastore) (f : Values → Values) :
    (m.edit ds f).generation = m.generation ∧ (m.edit ds f).configChanged = m.configChanged := by
  cases ds <;> exact ⟨rfl, rfl⟩

/-- The edits of one datastore. -/
theorem Tracks.of_edit (hTargets : op.targets = target.mirrored)
    (hPaths : opts.NamesConfig (op.paths m.contents (m.edit target f).contents) ↔
      opts.NamesConfig paths) :
    Tracks opts env op ds m ((m.edit target f).recordWrite opts env target paths) := by
  obtain ⟨hGeneration, hConfig⟩ := tracking_edit m target f
  rw [recordWrite_eq_bumpAll, ← hTargets]
  refine Tracks.of_bumpAll (hTargets ▸ nodup_mirrored target) hGeneration hConfig ?_ hPaths
  intro hOther
  rw [hTargets] at hOther
  rw [contents_edit, get?_edit_of_not_mem hOther]

theorem namesConfig_checkValues {values : Std.ExtTreeMap GoString GoValue} {leaves : Values}
    (hCheck : checkValues values = .ok leaves) (deletions : List GoString) :
    opts.NamesConfig (values.keys ++ deletions) ↔ opts.NamesConfig (leaves.keys ++ deletions) := by
  simp only [Options.NamesConfig, List.mem_append, Std.ExtTreeMap.mem_keys,
    mem_checkValues hCheck]

variable (opts env)

/-- Each call records what it does. -/
theorem mutate_tracks (m : Memory json) (op : Mutation) (ds : Datastore) :
    Tracks opts env op ds m (m.mutate opts env op).2 := by
  cases op with
  | set target path value =>
    rw [mutate, set]
    split
    · exact .unchanged rfl rfl rfl
    · split
      · exact .unchanged rfl rfl rfl
      · split
        · exact .unchanged rfl rfl rfl
        · split
          · exact .unchanged rfl rfl rfl
          · exact .of_edit rfl Iff.rfl
  | delete target path =>
    rw [mutate, delete]
    split
    · exact .unchanged rfl rfl rfl
    · split
      · exact .unchanged rfl rfl rfl
      · split
        · exact .of_edit rfl Iff.rfl
        · exact .unchanged rfl rfl rfl
  | apply target values deletions =>
    rw [mutate, apply]
    split
    · exact .unchanged rfl rfl rfl
    · split
      · exact .unchanged rfl rfl rfl
      · next leaves hCheck =>
        split
        · exact .unchanged rfl rfl rfl
        · split
          · exact .unchanged rfl rfl rfl
          · exact .of_edit rfl (namesConfig_checkValues hCheck deletions)
  | commit =>
    rw [mutate, commit]
    split
    · exact .unchanged rfl rfl rfl
    · split
      · exact .unchanged rfl rfl rfl
      · dsimp only
        split
        · exact .unchanged rfl rfl rfl
        · refine Tracks.of_bumpAll (by decide) rfl rfl ?_ Iff.rfl
          cases ds <;> simp [Mutation.targets, contents, Contents.get?]
  | rollback =>
    rw [mutate, rollback]
    split
    · exact .unchanged rfl rfl rfl
    · refine Tracks.of_bumpAll (by decide) rfl rfl ?_ Iff.rfl
      cases ds <;> simp [Mutation.targets, contents, Contents.get?]
  | restore values =>
    rw [mutate, restore]
    split
    · exact .unchanged rfl rfl rfl
    · dsimp only
      split
      · exact .unchanged rfl rfl rfl
      · refine Tracks.of_bumpAll (by simp [Mutation.targets]) rfl rfl ?_ Iff.rfl
        cases ds <;> simp [Mutation.targets, contents, Contents.get?]
  | loadStartup =>
    rw [mutate, loadStartup]
    split
    · exact .unchanged rfl rfl rfl
    · split
      · exact .unchanged rfl rfl rfl
      · split
        · exact .unchanged rfl rfl rfl
        · dsimp only
          split
          · exact .unchanged rfl rfl rfl
          · refine Tracks.of_bumpAll (by decide) rfl rfl ?_ Iff.rfl
            cases ds <;> simp [Mutation.targets, contents, Contents.get?]

end Memory

/-! ## The time of the last configuration change -/

/-- A leaf of a datastore is not the same in two contents. -/
def Contents.Differ (before after : Contents) (ds : Datastore) (path : GoString) : Prop :=
  ∃ old new, before.get? ds = some old ∧ after.get? ds = some new ∧ new[path]? ≠ old[path]?

/-- Some configuration leaf is not the same in two contents of a datastore. -/
def Options.ConfigDiffers (opts : Options) (old new : Values) : Prop :=
  ∃ path : GoString, opts.isState path = false ∧ new[path]? ≠ old[path]?

/-- What is recorded for a datastore whose content gives way to another one is a fair account:
the recorded paths name a configuration leaf exactly if one of the datastore changes, if any leaf
does. -/
def Options.Accounts (opts : Options) (paths : List GoString) (old new : Values) : Prop :=
  new ≠ old → (opts.NamesConfig paths ↔ opts.ConfigDiffers old new)

/-- A call is recorded fairly for a datastore, by the store before it.  A batch that names
configuration leaves changes one of the datastore, if it changes any leaf.  A wholesale call
records the differences between running and what it installs, so the content of the datastore must
differ from that in a configuration leaf where running's does. -/
def Mutation.Fair (opts : Options) (env : CallEnv) (m : Memory json) (ds : Datastore) :
    Mutation → Prop
  | .set _ _ _ | .delete _ _ => True
  | .apply target values deletions => ∀ leaves old, Memory.checkValues values = .ok leaves →
      ds ∈ target.mirrored → m.contents.get? ds = some old →
      opts.Accounts (values.keys ++ deletions) old (FinMap.eraseAll (old ∪ leaves) deletions)
  | .commit => ∀ old, m.contents.get? ds = some old →
      opts.Accounts ((diffValues m.running m.candidate).map Change.path) old m.candidate
  | .rollback => ds = .candidate →
      opts.Accounts ((diffValues m.candidate m.running).map Change.path) m.candidate m.running
  | .restore values => ∀ old, ds ≠ .candidate → m.contents.get? ds = some old →
      opts.Accounts ((diffValues m.running values).map Change.path) old values
  | .loadStartup => ∀ loaded old, opts.startupFile ≠ [] → Memory.load opts env m.disk = .ok loaded →
      m.contents.get? ds = some old →
      opts.Accounts ((diffValues m.running (opts.configOnly loaded)).map Change.path) old
        (opts.configOnly loaded)

section ConfigChanged

variable {opts : Options} {env : CallEnv} {m : Memory json}

variable {ds : Datastore} {path : GoString} {before after : Contents} {changed : GoString}

variable {target : Datastore} {f : Values → Values} {contents : Contents} {op : Mutation}
    {reader : CallEnv} {old new : Values} {paths : List GoString}

theorem Contents.differ_iff (hOld : before.get? ds = some old) (hNew : after.get? ds = some new) :
    before.Differ after ds path ↔ new[path]? ≠ old[path]? := by
  simp [Contents.Differ, hOld, hNew]

theorem Contents.Differ.ne (hDiffer : before.Differ after ds path) :
    after.get? ds ≠ before.get? ds := by
  obtain ⟨old, new, hOld, hNew, hNe⟩ := hDiffer
  intro hSame
  rw [hOld, hNew, Option.some.injEq] at hSame
  exact hNe (by rw [hSame])

/-- Paths are a fair account of what happens to a datastore between two contents. -/
def Contents.Accounted (opts : Options) (before after : Contents) (ds : Datastore)
    (paths : List GoString) : Prop :=
  (∃ path, before.Differ after ds path) →
    (opts.NamesConfig paths ↔ ∃ path, opts.isState path = false ∧ before.Differ after ds path)

theorem accounted_iff (hOld : before.get? ds = some old) (hNew : after.get? ds = some new) :
    before.Accounted opts after ds paths ↔ opts.Accounts paths old new := by
  have hAny : (∃ path : GoString, new[path]? ≠ old[path]?) ↔ new ≠ old := by
    rw [Ne, Std.ExtTreeMap.ext_getElem?_iff, not_forall]
  simp only [Contents.Accounted, Contents.differ_iff hOld hNew, hAny, Options.Accounts,
    Options.ConfigDiffers]

/-- The same for a call that replaces the content of a datastore, if there is one. -/
theorem forall_accounts_iff (hNew : after.get? ds = (before.get? ds).map f) :
    (∀ old, before.get? ds = some old → opts.Accounts paths old (f old)) ↔
      before.Accounted opts after ds paths := by
  cases hOld : before.get? ds with
  | none =>
    rw [hOld] at hNew
    exact iff_of_true (fun old hSome => by cases hSome)
      (fun ⟨_, hDiffer⟩ => absurd (hNew.trans hOld.symm) hDiffer.ne)
  | some old =>
    rw [hOld] at hNew
    rw [accounted_iff hOld hNew]
    exact ⟨fun hAll => hAll old rfl, fun hHere other hOther => by cases hOther; exact hHere⟩

theorem accounted_of_get?_eq (hSame : after.get? ds = before.get? ds) :
    before.Accounted opts after ds paths :=
  fun ⟨_, hDiffer⟩ => absurd hSame hDiffer.ne

theorem get?_edit_of_mem (hTarget : ds ∈ target.mirrored) :
    (contents.edit target f).get? ds = (contents.get? ds).map f := by
  cases target <;> cases ds <;> first | rfl | simp [Datastore.mirrored] at hTarget

/-- An edit changes the paths it names only. -/
theorem mem_of_differ_edit {paths : List GoString}
    (hFrame : ∀ (values : Values) (path : GoString), path ∉ paths →
      (f values)[path]? = values[path]?)
    (hDiffer : contents.Differ (contents.edit target f) ds path) :
    path ∈ paths := by
  by_contra hOther
  by_cases hTarget : ds ∈ target.mirrored
  · obtain ⟨old, new, hOld, hNew, hNe⟩ := hDiffer
    rw [get?_edit_of_mem hTarget, hOld, Option.map_some, Option.some.injEq] at hNew
    subst hNew
    exact hNe (hFrame old path hOther)
  · exact hDiffer.ne (Memory.get?_edit_of_not_mem hTarget)

theorem mem_paths_of_edits (hEdits : op.Edits target f) {paths : List GoString}
    (hPaths : ∀ path, op.Addresses target path → path ∈ paths)
    (hDiffer : contents.Differ (contents.edit target f) ds path) : path ∈ paths :=
  mem_of_differ_edit (fun values path hOther =>
    hEdits.frame values path fun hAddresses => hOther (hPaths path hAddresses)) hDiffer

/-- An edit of one path is always recorded fairly. -/
theorem accounted_singleton {named : GoString}
    (hNamed : ∀ path, before.Differ after ds path → path ∈ [named]) :
    before.Accounted opts after ds [named] := by
  rintro ⟨changed, hChanged⟩
  obtain rfl : changed = named := List.mem_singleton.mp (hNamed changed hChanged)
  constructor
  · rintro ⟨path, hPath, hConfig⟩
    cases List.mem_singleton.mp hPath
    exact ⟨changed, hConfig, hChanged⟩
  · rintro ⟨path, hConfig, hDiffer⟩
    exact ⟨path, hNamed path hDiffer, hConfig⟩

/-- For a call that has had its effect, the condition on the store before it says that its recorded
paths are a fair account. -/
theorem fair_iff_accounted (hEffect : op.Effect opts env m after) :
    op.Fair opts env m ds ↔ m.contents.Accounted opts after ds (op.paths m.contents after) := by
  cases op with
  | set target path value =>
    obtain ⟨leaf, _, _, _, rfl⟩ := hEffect
    exact iff_of_true trivial (accounted_singleton fun other => mem_paths_of_edits
      (Mutation.set_edits target path value leaf) fun _ hAddresses => by
        rw [List.mem_singleton, hAddresses.2])
  | delete target path =>
    obtain ⟨_, rfl⟩ := hEffect
    exact iff_of_true trivial (accounted_singleton fun other => mem_paths_of_edits
      (Mutation.delete_edits target path) fun _ hAddresses => by
        rw [List.mem_singleton, hAddresses.2])
  | apply target values deletions =>
    obtain ⟨leaves, hCheck, _, _, rfl⟩ := hEffect
    by_cases hTarget : ds ∈ target.mirrored
    · rw [← forall_accounts_iff (get?_edit_of_mem hTarget)]
      refine ⟨fun hFair old => hFair leaves old hCheck hTarget, ?_⟩
      intro hAll other old hOther _
      cases hOther.symm.trans hCheck
      exact hAll old
    · exact iff_of_true (fun _ _ _ hMem => absurd hMem hTarget)
        (accounted_of_get?_eq (Memory.get?_edit_of_not_mem hTarget))
  | commit =>
    obtain ⟨_, rfl⟩ := hEffect
    exact forall_accounts_iff (by cases ds <;> rfl)
  | rollback =>
    cases hEffect
    cases ds with
    | candidate => exact (forall_prop_of_true rfl).trans (accounted_iff rfl rfl).symm
    | _ => exact iff_of_true (fun hSame => by cases hSame) (accounted_of_get?_eq rfl)
  | restore values =>
    cases hEffect
    by_cases hCandidate : ds = .candidate
    · subst hCandidate
      exact iff_of_true (fun _ hOther => absurd rfl hOther) (accounted_of_get?_eq rfl)
    · rw [← forall_accounts_iff (f := fun _ => values)
        (by cases ds <;> first | rfl | exact absurd rfl hCandidate)]
      exact forall_congr' fun old => forall_prop_of_true hCandidate
  | loadStartup =>
    rcases hEffect with ⟨hNone, rfl⟩ | ⟨hFile, loaded, hLoad, _, rfl⟩
    · exact iff_of_true (fun _ _ hFile => absurd hNone hFile) (accounted_of_get?_eq rfl)
    · rw [← forall_accounts_iff (f := fun _ => opts.configOnly loaded) (by cases ds <;> rfl)]
      refine ⟨fun hFair old => hFair loaded old hFile hLoad, ?_⟩
      intro hAll other old _ hOther
      cases hOther.symm.trans hLoad
      exact hAll old

theorem configChangedAt_eq_ok {time : Option Nat} (hReader : reader.ctx = none)
    (hTime : m.configChanged.get? ds = some time) :
    m.configChangedAt reader ds = .ok time := by
  unfold Memory.configChangedAt
  rw [hReader]
  cases ds with
  | unknown name => cases hTime
  | _ => exact congrArg Except.ok (Option.some.inj hTime)

/-- The time of the last configuration change follows what a call does to a datastore: it is the
time of the call if a configuration leaf has changed, and what it was if only state leaves have. -/
def Memory.TimeFollows (opts : Options) (env reader : CallEnv) (m after : Memory json)
    (ds : Datastore) : Prop :=
  ((∃ path, opts.isState path = false ∧ m.contents.Differ after.contents ds path) →
    after.configChangedAt reader ds = .ok (some (env.now ds))) ∧
  ((∃ path, m.contents.Differ after.contents ds path) →
    (∀ path, m.contents.Differ after.contents ds path → opts.isState path = true) →
    after.configChangedAt reader ds = m.configChangedAt reader ds)

theorem timeFollows_of_get?_eq {after : Memory json}
    (hSame : after.contents.get? ds = m.contents.get? ds) :
    m.TimeFollows opts env reader after ds :=
  ⟨fun ⟨_, _, hDiffer⟩ => absurd hSame hDiffer.ne, fun ⟨_, hDiffer⟩ => absurd hSame hDiffer.ne⟩

theorem timeFollows_iff_accounted {after : Memory json} (hReader : reader.ctx = none)
    (hRecorded : m.Recorded opts env ds paths after) :
    m.TimeFollows opts env reader after ds ↔
      m.contents.Accounted opts after.contents ds paths ∨
        m.configChangedAt reader ds = .ok (some (env.now ds)) := by
  by_cases hAny : ∃ path, m.contents.Differ after.contents ds path
  · obtain ⟨time, hTime⟩ : ∃ time, m.configChanged.get? ds = some time := by
      obtain ⟨_, old, _, hOld, _⟩ := hAny
      cases ds with
      | unknown name => cases hOld
      | _ => exact ⟨_, rfl⟩
    have hState : (∀ path, m.contents.Differ after.contents ds path → opts.isState path = true) ↔
        ¬ ∃ path, opts.isState path = false ∧ m.contents.Differ after.contents ds path := by
      simp only [not_exists, not_and]
      exact forall_congr' fun path => by cases opts.isState path <;> simp
    have hBefore := configChangedAt_eq_ok hReader hTime
    rw [Memory.TimeFollows, Contents.Accounted, hState, hBefore]
    simp only [hAny, forall_true_left]
    by_cases hNames : opts.NamesConfig paths
    · have hStamped := hRecorded.stamped hNames
      rw [hTime] at hStamped
      rw [configChangedAt_eq_ok hReader hStamped]
      by_cases hConfig : ∃ path, opts.isState path = false ∧
        m.contents.Differ after.contents ds path
      · simp only [hConfig, hNames, not_true_eq_false, false_imp_iff, implies_true, and_self,
          true_or]
      · simp only [hConfig, hNames, not_false_eq_true, false_imp_iff, true_imp_iff, true_and,
          iff_false, not_true_eq_false, false_or]
        exact eq_comm
    · rw [configChangedAt_eq_ok hReader ((hRecorded.kept hNames).trans hTime)]
      by_cases hConfig : ∃ path, opts.isState path = false ∧
        m.contents.Differ after.contents ds path
      · simp only [hConfig, hNames, true_imp_iff, implies_true, and_true, false_iff,
          not_true_eq_false, false_or]
      · simp only [hConfig, hNames, false_imp_iff, implies_true, and_self, true_or]
  · refine iff_of_true ⟨?_, fun hSome => absurd hSome hAny⟩ (.inl fun hSome => absurd hSome hAny)
    rintro ⟨path, _, hDiffer⟩
    exact absurd ⟨path, hDiffer⟩ hAny

/-- The time of the last configuration change follows the configuration leaves of a datastore over
a call that succeeds exactly if the call is recorded fairly, or its time is the time of the last
change anyway.  A call that fails changes nothing. -/
theorem config_changed_at_follows_iff (opts : Options) (m : Memory json) (call : Call)
    (ds : Datastore) (reader : CallEnv) (hReader : reader.ctx = none) :
    ((m.mutate opts call.env call.op).1 = .ok () →
      (m.TimeFollows opts call.env reader (m.mutate opts call.env call.op).2 ds ↔
        call.op.Fair opts call.env m ds ∨
          m.configChangedAt reader ds = .ok (some (call.env.now ds)))) ∧
    ((m.mutate opts call.env call.op).1 ≠ .ok () →
      m.TimeFollows opts call.env reader (m.mutate opts call.env call.op).2 ds) := by
  have hTracks := Memory.mutate_tracks opts call.env m call.op ds
  rcases Memory.mutate_meets opts call.env m call.op with ⟨hOk, hEffect⟩ | ⟨err, hErr, hSame⟩
  · refine ⟨fun _ => ?_, fun hFailed => absurd hOk hFailed⟩
    rw [fair_iff_accounted hEffect]
    rcases hTracks with ⟨hSame, _⟩ | ⟨_, hRecorded⟩
    · exact iff_of_true (timeFollows_of_get?_eq hSame) (.inl (accounted_of_get?_eq hSame))
    · exact timeFollows_iff_accounted hReader hRecorded
  · refine ⟨fun hOk => ?_, fun _ => timeFollows_of_get?_eq (by rw [hSame])⟩
    rw [hErr] at hOk
    cases hOk

/-- A quiet call at a time. -/
def CallEnv.quietAt (time : Nat) : CallEnv :=
  { CallEnv.quiet with now := fun _ => time }

/-- No persistence and no validator, and one state leaf. -/
def uptimeOptions : Options :=
  ⟨[], none, some fun path => path = text "system-info/uptime"⟩

/-- A store in which a management plane has named the system at time 1. -/
def namedMemory : Memory Json.plain :=
  (newMemory none).run uptimeOptions
    [⟨.quietAt 1, .set .running "system-info/name" (.leaf (.string "edge"))⟩]

/-- The store after one more call. -/
def namedMemoryAfter (op : Mutation) : Memory Json.plain :=
  (namedMemory.mutate uptimeOptions (.quietAt 2) op).2

/-- A check of the leaves that are in one of two contents, for all that differ. -/
theorem isState_of_differ {old new : Values} (hOld : before.get? ds = some old)
    (hNew : after.get? ds = some new)
    (hCheck : ∀ path ∈ old.keys ++ new.keys, new[path]? ≠ old[path]? → opts.isState path = true)
    (path : GoString) (hDiffer : before.Differ after ds path) : opts.isState path = true := by
  obtain ⟨old', new', hOld', hNew', hNe⟩ := hDiffer
  rw [hOld, Option.some.injEq] at hOld'
  rw [hNew, Option.some.injEq] at hNew'
  subst hOld' hNew'
  refine hCheck path ?_ hNe
  rw [List.mem_append, Std.ExtTreeMap.mem_keys, Std.ExtTreeMap.mem_keys, FinMap.mem_iff_isSome,
    FinMap.mem_iff_isSome]
  cases hLeft : old[path]? with
  | some leaf => exact Or.inl rfl
  | none =>
    cases hRight : new[path]? with
    | some leaf => exact Or.inr rfl
    | none => exact absurd (hRight.trans hLeft.symm) hNe

/-- A store with a name in candidate only. -/
def proposedMemory : Memory Json.plain :=
  (newMemory none).run uptimeOptions
    [⟨.quietAt 1, .set .candidate "system-info/name" (.leaf (.string "edge"))⟩]

theorem commit_moves_startup_time_and_uptime_keeps_running_time :
    (proposedMemory.mutate uptimeOptions (.quietAt 2) .commit).2.configChangedAt .quiet .startup =
      .ok (some 2) ∧
    (namedMemoryAfter (.set .running "system-info/uptime" (.leaf (.uint64 5)))).configChangedAt
      .quiet .running = namedMemory.configChangedAt .quiet .running := by
  constructor
  · refine (((config_changed_at_follows_iff uptimeOptions proposedMemory ⟨.quietAt 2, .commit⟩
      .startup .quiet rfl).1 rfl).mpr (.inl ?_)).1
      ⟨"system-info/name", by decide, _, _, rfl, rfl, by decide +kernel⟩
    intro old hOld _
    cases hOld
    exact iff_of_true ⟨"system-info/name", by decide +kernel, by decide⟩
      ⟨"system-info/name", by decide, by decide +kernel⟩
  · refine (((config_changed_at_follows_iff uptimeOptions namedMemory
      ⟨.quietAt 2, .set .running "system-info/uptime" (.leaf (.uint64 5))⟩ .running .quiet
      rfl).1 rfl).mpr (.inl trivial)).2 ⟨"system-info/uptime", _, _, rfl, rfl, by decide +kernel⟩ ?_
    exact isState_of_differ rfl rfl (by decide +kernel)

/-- A batch with the name that the system has, and its uptime. -/
def renameWithUptime : Mutation :=
  .apply .running (Std.ExtTreeMap.ofList
    [(text "system-info/name", GoValue.leaf (.string "edge")),
      (text "system-info/uptime", GoValue.leaf (.uint64 5))]) []

/-- A running edit reaches startup with the next commit, which finds no difference
between running and candidate and does not move startup's time.  A batch that writes
the old name next to a state leaf moves the time of running. -/
theorem commit_keeps_startup_time_and_batch_moves_running_time :
    (namedMemory.contents.Differ (namedMemoryAfter .commit).contents .startup
        "system-info/name" ∧
      uptimeOptions.isState "system-info/name" = false ∧
      (namedMemoryAfter .commit).configChangedAt .quiet .startup = .ok none) ∧
    (∃ path, namedMemory.contents.Differ (namedMemoryAfter renameWithUptime).contents
      .running path) ∧
    (∀ path, namedMemory.contents.Differ (namedMemoryAfter renameWithUptime).contents
      .running path → uptimeOptions.isState path = true) ∧
    namedMemory.configChangedAt .quiet .running = .ok (some 1) ∧
    (namedMemoryAfter renameWithUptime).configChangedAt .quiet .running = .ok (some 2) :=
  ⟨⟨⟨_, _, rfl, rfl, by decide +kernel⟩, by decide, by decide +kernel⟩,
    ⟨"system-info/uptime", _, _, rfl, rfl, by decide +kernel⟩,
    isState_of_differ rfl rfl (by decide +kernel), by decide +kernel, by decide +kernel⟩

end ConfigChanged

end Store
end TriadSim

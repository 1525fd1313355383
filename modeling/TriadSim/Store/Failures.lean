import TriadSim.Store.PendingEdits

/-!
# Failed calls

Every mutating call of the store checks all that can go wrong before its first write, or prepares
the new contents aside and installs them last.  A call that reports an error therefore leaves the
store as it was, its bookkeeping included; only the startup file, which is not part of the
datastores, may have been touched by then.  The main results are `failed_mutation_keeps_store`
and, for a missing startup file, `loads_file_iff_missing_file_harmless`.
-/

namespace TriadSim
namespace Store

open Go

variable {json : Json}

/-- The store is the same, whatever has become of the startup file. -/
structure Memory.SameStore (m after : Memory json) : Prop where
  contents : after.contents = m.contents
  generation : after.generation = m.generation
  configChanged : after.configChanged = m.configChanged

theorem Memory.SameStore.refl (m : Memory json) : m.SameStore m :=
  ⟨rfl, rfl, rfl⟩

/-- A call succeeds, or leaves the store the same. -/
def Memory.Outcome.Atomic (outcome : Memory.Outcome json) (m : Memory json) : Prop :=
  outcome.1 = .ok () ∨ m.SameStore outcome.2

namespace Memory

theorem Outcome.atomic_ok (m after : Memory json) : Outcome.Atomic (.ok (), after) m :=
  Or.inl rfl

theorem Outcome.atomic_error (m : Memory json) (err : Err) : Outcome.Atomic (.error err, m) m :=
  Or.inr (SameStore.refl m)

variable (opts : Options) (env : CallEnv) (m : Memory json)

theorem set_atomic (ds : Datastore) (path : GoString) (value : GoValue) :
    (m.set opts env ds path value).Atomic m := by
  unfold set
  split
  · exact Outcome.atomic_error m _
  · split
    · exact Outcome.atomic_error m _
    · split
      · exact Outcome.atomic_error m _
      · split
        · exact Outcome.atomic_error m _
        · exact Outcome.atomic_ok m _

theorem delete_atomic (ds : Datastore) (path : GoString) :
    (m.delete opts env ds path).Atomic m := by
  unfold delete
  split
  · exact Outcome.atomic_error m _
  · split
    · exact Outcome.atomic_error m _
    · split
      · exact Outcome.atomic_ok m _
      · exact Outcome.atomic_error m _

theorem apply_atomic (ds : Datastore) (values : Std.ExtTreeMap GoString GoValue)
    (deletions : List GoString) : (m.apply opts env ds values deletions).Atomic m := by
  unfold apply
  split
  · exact Outcome.atomic_error m _
  · split
    · exact Outcome.atomic_error m _
    · split
      · exact Outcome.atomic_error m _
      · split
        · exact Outcome.atomic_error m _
        · exact Outcome.atomic_ok m _

theorem commit_atomic : (m.commit opts env).Atomic m := by
  unfold commit
  split
  · exact Outcome.atomic_error m _
  · split
    · exact Outcome.atomic_error m _
    · dsimp only
      split
      -- The file may be another one by now.
      · exact Or.inr ⟨rfl, rfl, rfl⟩
      · exact Outcome.atomic_ok m _

theorem rollback_atomic : (m.rollback opts env).Atomic m := by
  unfold rollback
  split
  · exact Outcome.atomic_error m _
  · exact Outcome.atomic_ok m _

theorem restore_atomic (values : Values) : (m.restore opts env values).Atomic m := by
  unfold restore
  split
  · exact Outcome.atomic_error m _
  · dsimp only
    split
    · exact Or.inr ⟨rfl, rfl, rfl⟩
    · exact Outcome.atomic_ok m _

theorem loadStartup_atomic : (m.loadStartup opts env).Atomic m := by
  unfold loadStartup
  split
  · exact Outcome.atomic_error m _
  · split
    · exact Outcome.atomic_ok m _
    · split
      · exact Outcome.atomic_error m _
      · dsimp only
        split
        · exact Outcome.atomic_error m _
        · exact Outcome.atomic_ok m _

theorem mutate_atomic (op : Mutation) : (m.mutate opts env op).Atomic m := by
  cases op with
  | set ds path value => exact set_atomic opts env m ds path value
  | delete ds path => exact delete_atomic opts env m ds path
  | apply ds values deletions => exact apply_atomic opts env m ds values deletions
  | commit => exact commit_atomic opts env m
  | rollback => exact rollback_atomic opts env m
  | restore values => exact restore_atomic opts env m values
  | loadStartup => exact loadStartup_atomic opts env m

end Memory

/-- A mutating call that reports an error has changed neither a datastore nor what is tracked
of it, whatever has made it fail. -/
theorem failed_mutation_keeps_store (opts : Options) (env : CallEnv) (m : Memory json)
    (op : Mutation) {err : Err} (hFailed : (m.mutate opts env op).1 = .error err) :
    (m.mutate opts env op).2.contents = m.contents ∧
      (m.mutate opts env op).2.generation = m.generation ∧
      (m.mutate opts env op).2.configChanged = m.configChanged := by
  rcases Memory.mutate_atomic opts env m op with hOk | hSame
  · rw [hFailed] at hOk
    cases hOk
  · exact ⟨hSame.contents, hSame.generation, hSame.configChanged⟩

/-- A call during which the flush of the directory fails, after the rename. -/
def CallEnv.unflushed : CallEnv :=
  { CallEnv.quiet with
    writeFault := some ⟨.text "sync directory: input/output error", true⟩ }

/-- A startup file and no hooks. -/
def savedOptions : Options :=
  ⟨"startup.json", none, none⟩

/-- A store with a name in candidate only. -/
def unsavedMemory : Memory Json.plain :=
  (newMemory none).run savedOptions
    [⟨.quiet, .set .candidate "system-info/name" (.leaf (.string "edge"))⟩]

/-- A commit whose save fails leaves the pending name in candidate only. -/
theorem failed_commit_keeps_pending_name :
    (unsavedMemory.mutate savedOptions .unflushed .commit).2.contents = unsavedMemory.contents ∧
      (unsavedMemory.mutate savedOptions .unflushed .commit).2.generation =
        unsavedMemory.generation ∧
      (unsavedMemory.mutate savedOptions .unflushed .commit).2.configChanged =
        unsavedMemory.configChanged := by
  have hFailed : (unsavedMemory.mutate savedOptions .unflushed .commit).1 =
      .error (.text "store: commit: " ++ (.text "store: save startup.json: " ++
        .text "sync directory: input/output error")) := by
    decide +kernel
  exact failed_mutation_keeps_store savedOptions .unflushed unsavedMemory .commit hFailed

/-! ## Loading the startup file -/

/-- What `LoadStartup` is for: it installs the configuration that the startup file holds, or
leaves the datastores alone, and it leaves them alone when there is nothing to load. -/
structure LoadsFile (opts : Options) (env : CallEnv) (m : Memory json) : Prop where
  installs : (m.loadStartup opts env).2.contents = m.contents ∨
    ∃ data loaded, m.disk = some data ∧ decodeFile json opts.startupFile data = .ok loaded ∧
      opts.validate env.hookCtx (opts.configOnly loaded) = .ok () ∧
      (m.loadStartup opts env).2.contents = .uniform (opts.configOnly loaded)
  disabled : opts.startupFile = [] → (m.loadStartup opts env).2.contents = m.contents
  missing : m.disk = none → (m.loadStartup opts env).2.contents = m.contents

/-- Nothing is lost when the startup file is missing: persistence is disabled, the load fails for
another reason, the validator refuses the empty configuration, or the store is empty. -/
def MissingFileHarmless (opts : Options) (env : CallEnv) (m : Memory json) : Prop :=
  m.disk = none → opts.startupFile ≠ [] → env.ctx = none → env.fileCtx = none →
    env.readFault = none → opts.validate env.hookCtx ∅ = .ok () → m.contents = .uniform ∅

theorem configOnly_empty (opts : Options) : opts.configOnly ∅ = ∅ := by
  ext path
  simp [Options.configOnly]

/-- A missing file is loaded as the empty configuration. -/
theorem contents_loadStartup_of_missing {opts : Options} {env : CallEnv} {m : Memory json}
    (hMissing : m.disk = none) (hFile : opts.startupFile ≠ []) (hCtx : env.ctx = none)
    (hFileCtx : env.fileCtx = none) (hFault : env.readFault = none)
    (hValid : opts.validate env.hookCtx ∅ = .ok ()) :
    (m.loadStartup opts env).2.contents = .uniform ∅ := by
  have hLoad : Memory.load opts env m.disk = .ok ∅ := by
    simp only [Memory.load, hFileCtx, hFault, hMissing]
  simp only [Memory.loadStartup, hCtx, if_neg hFile, hLoad, configOnly_empty, hValid]
  exact Memory.contents_recordDiff ..

/-- What `load` has read. -/
theorem load_eq_ok {opts : Options} {env : CallEnv} {disk : Option json.Data} {loaded : Values}
    (hLoad : Memory.load opts env disk = .ok loaded) :
    env.fileCtx = none ∧ env.readFault = none ∧
      (disk = none ∧ loaded = ∅ ∨
        ∃ data, disk = some data ∧ decodeFile json opts.startupFile data = .ok loaded) := by
  unfold Memory.load at hLoad
  split at hLoad
  · cases hLoad
  next hFileCtx =>
    split at hLoad
    · cases hLoad
    next hFault =>
      refine ⟨hFileCtx, hFault, ?_⟩
      split at hLoad
      · exact Or.inl ⟨rfl, (Except.ok.inj hLoad).symm⟩
      · next data => exact Or.inr ⟨data, rfl, hLoad⟩

/-- `LoadStartup` does what it is for exactly if a missing file is harmless. -/
theorem loads_file_iff_missing_file_harmless (opts : Options) (env : CallEnv) (m : Memory json) :
    LoadsFile opts env m ↔ MissingFileHarmless opts env m := by
  constructor
  · intro hLoads hMissing hFile hCtx hFileCtx hFault hValid
    rw [← hLoads.missing hMissing]
    exact contents_loadStartup_of_missing hMissing hFile hCtx hFileCtx hFault hValid
  intro hHarmless
  have hKept : (m.loadStartup opts env).2.contents = m.contents → LoadsFile opts env m :=
    fun hSame => ⟨Or.inl hSame, fun _ => hSame, fun _ => hSame⟩
  cases hCtx : env.ctx with
  | some err =>
    refine hKept ?_
    simp only [Memory.loadStartup, hCtx]
  | none =>
    rcases Memory.loadStartup_meets opts env m with
      ⟨_, ⟨_, hSame⟩ | ⟨hFile, loaded, hLoad, hValid, hAfter⟩⟩ | ⟨_, _, hSame⟩
    · exact hKept hSame
    · obtain ⟨hFileCtx, hFault, ⟨hMissing, rfl⟩ | ⟨data, hData, hDecode⟩⟩ := load_eq_ok hLoad
      · -- The empty configuration is installed, over a store that is empty.
        rw [configOnly_empty] at hValid hAfter
        exact hKept (hAfter.trans
          (hHarmless hMissing hFile hCtx hFileCtx hFault hValid).symm)
      · refine ⟨Or.inr ⟨data, loaded, hData, hDecode, hValid, hAfter⟩,
          fun hDisabled => absurd hDisabled hFile, fun hMissing => ?_⟩
        cases hMissing.symm.trans hData
    · exact hKept hSame

/-- A store with a name in running and no startup file yet. -/
def unsavedRunning : Memory Json.plain :=
  (newMemory none).run savedOptions
    [⟨.quiet, .set .running "system-info/name" (.leaf (.string "edge"))⟩]

/-- With the startup file missing, `LoadStartup` succeeds and removes the name. -/
theorem load_of_missing_file_clears_store :
    unsavedRunning.disk = none ∧
      unsavedRunning.running[text "system-info/name"]? = some (.string "edge") ∧
      (unsavedRunning.loadStartup savedOptions .quiet).1 = .ok () ∧
      (unsavedRunning.loadStartup savedOptions .quiet).2.running[text "system-info/name"]? =
        none := by
  refine ⟨rfl, ?_, ?_, ?_⟩ <;> decide +kernel

end Store
end TriadSim

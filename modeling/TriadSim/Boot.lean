import TriadSim.Datatree.Run

/-!
# What is in the startup file

`Commit` and `Restore` write the configuration leaves of what they install
(`saved_of_commit_eq_ok`, `saved_of_restore_eq_ok`), and a new process finds them there.
-/

namespace TriadSim

open Datatree Go Router Store

/-! ## What is on the disk -/

section Disk

variable {json : Json} {opts : Options} {env : CallEnv} {m : Memory json}

/-- The startup file holds the configuration leaves of a content. -/
def Saved (json : Json) (opts : Options) (content : Values) (disk : Option json.Data) : Prop :=
  ∃ data, encodeFile json opts.startupFile (opts.configOnly content) = .ok data ∧ disk = some data

theorem saved_of_persist_eq_ok {next : Values} {disk after : Option json.Data}
    (hFile : opts.startupFile ≠ [])
    (hPersist : Memory.persist opts env next disk = (.ok (), after)) :
    Saved json opts next after := by
  unfold Memory.persist Memory.save at hPersist
  rw [if_neg hFile] at hPersist
  cases hCtx : env.fileCtx with
  | some err =>
    rw [hCtx] at hPersist
    cases hPersist
  | none =>
    simp only [hCtx] at hPersist
    cases hEncode : encodeFile json opts.startupFile (opts.configOnly next) with
    | error err =>
      rw [hEncode] at hPersist
      cases hPersist
    | ok data =>
      simp only [hEncode] at hPersist
      cases hFault : env.writeFault with
      | some fault =>
        rw [hFault] at hPersist
        cases hPersist
      | none =>
        rw [hFault] at hPersist
        cases hPersist
        exact ⟨data, hEncode, rfl⟩

theorem running_recordDiff (targets : List Datastore) (diff : List Change) (m : Memory json) :
    (m.recordDiff opts env targets diff).running = m.running :=
  congrArg Contents.running (Memory.contents_recordDiff opts env targets diff m)

/-- A commit that succeeds has saved what it made running. -/
theorem saved_of_commit_eq_ok (hFile : opts.startupFile ≠ [])
    (hCommit : (m.commit opts env).1 = .ok ()) :
    Saved json opts (m.commit opts env).2.running (m.commit opts env).2.disk := by
  unfold Memory.commit at hCommit ⊢
  split at hCommit
  · cases hCommit
  split at hCommit
  · cases hCommit
  dsimp only at hCommit ⊢
  split at hCommit
  · cases hCommit
  · next disk hPersist =>
    rw [Memory.disk_recordDiff, running_recordDiff]
    exact saved_of_persist_eq_ok hFile hPersist

/-- So has a restore. -/
theorem saved_of_restore_eq_ok {values : Values} (hFile : opts.startupFile ≠ [])
    (hRestore : (m.restore opts env values).1 = .ok ()) :
    Saved json opts (m.restore opts env values).2.running (m.restore opts env values).2.disk := by
  unfold Memory.restore at hRestore ⊢
  split at hRestore
  · cases hRestore
  dsimp only at hRestore ⊢
  split at hRestore
  · cases hRestore
  · next disk hPersist =>
    rw [Memory.disk_recordDiff, running_recordDiff]
    exact saved_of_persist_eq_ok hFile hPersist

/-- The configuration leaves of a content are what `configOnly` keeps. -/
theorem getElem?_configOnly (values : Values) (path : GoString) :
    (opts.configOnly values)[path]? = if opts.isState path then none else values[path]? := by
  unfold Options.configOnly
  rw [Std.ExtTreeMap.getElem?_filter']
  cases opts.isState path with
  | true => simp
  | false => cases values[path]? <;> rfl

theorem configOnly_configOnly (values : Values) :
    opts.configOnly (opts.configOnly values) = opts.configOnly values := by
  refine Std.ExtTreeMap.ext_getElem? ?_
  intro path
  simp only [getElem?_configOnly]
  split <;> rfl

end Disk

/-- The device of the witnesses: the default template over a startup file. -/
def fileOptions : Options :=
  defaultRouter.options "startup.json"

/-- The radio interface next to the smallest valid content. -/
def radioContent : Values :=
  bareContent.insert "interfaces/interface[name=radio0]/name" (.string "radio0")

end TriadSim

import TriadSim.Store.Failures

/-!
# The replacement of the startup file

`writeFileAtomic` of `internal/store/persist.go`, one file-system call at a time.  Every call may
fail, and a failed call on the temporary file may leave anything behind in it.  The states of the
directory between the calls are the points at which a crash can find it; the state right after a
failed call stands also for a crash in the middle of that call.  The rename is atomic.

`save_eq` connects the calls with `Memory.save`, which only knows whether a failure came before or
after the rename.  The main result is `save_keeps_startup_file_whole`.
-/

namespace TriadSim
namespace Store

open Go Library

/-- The files of the directory of the startup file, with their bytes. -/
abbrev Files := Std.ExtTreeMap GoString GoString

/-- The name of the temporary file. -/
def tmpFile (path : GoString) : GoString :=
  path ++ ".tmp"

theorem ne_tmpFile (path : GoString) : tmpFile path ≠ path := by
  intro hSame
  have hLength := congrArg List.length hSame
  rw [tmpFile, List.length_append] at hLength
  exact absurd hLength (by simp [text])

/-- A failed call on the temporary file, with the bytes that it leaves, if it leaves the file. -/
structure TempFault where
  err : Err
  left : Option GoString

/-- How each file-system call of one save ends. -/
structure FileCalls where
  /-- `os.Stat` finds a directory. -/
  targetIsDir : Bool
  create : Option TempFault
  write : Option TempFault
  sync : Option TempFault
  close : Option TempFault
  rename : Option Err
  openDir : Option Err
  syncDir : Option Err
  /-- `os.Remove` on a failure path removes the file; its error is ignored. -/
  removes : Bool

/-- Calls that all succeed. -/
def FileCalls.quiet : FileCalls :=
  ⟨false, none, none, none, none, none, none, none, true⟩

/-- The flush of the directory succeeds. -/
def FileCalls.FlushesDir (calls : FileCalls) : Prop :=
  calls.openDir = none ∧ calls.syncDir = none

/-- Every call up to the rename succeeds. -/
def FileCalls.Renames (calls : FileCalls) : Prop :=
  calls.targetIsDir = false ∧ calls.create = none ∧ calls.write = none ∧ calls.sync = none ∧
    calls.close = none ∧ calls.rename = none

namespace Files

/-- The temporary file of `path` with these bytes, or without the file. -/
def withTmp (files : Files) (path : GoString) : Option GoString → Files
  | some bytes => files.insert (tmpFile path) bytes
  | none => files.erase (tmpFile path)

/-- `os.Rename` of the temporary file over `path`. -/
def renamed (files : Files) (path data : GoString) : Files :=
  (files.insert path data).erase (tmpFile path)

@[simp] theorem getElem?_withTmp (files : Files) (path : GoString) (left : Option GoString) :
    (files.withTmp path left)[path]? = files[path]? := by
  cases left with
  | some bytes => rw [withTmp, FinMap.getElem?_insert_ite, if_neg (ne_tmpFile path)]
  | none => rw [withTmp, FinMap.getElem?_erase_ite, if_neg (ne_tmpFile path)]

@[simp] theorem getElem?_renamed (files : Files) (path data : GoString) :
    (files.renamed path data)[path]? = some data := by
  rw [renamed, FinMap.getElem?_erase_ite, if_neg (ne_tmpFile path), FinMap.getElem?_insert_ite,
    if_pos rfl]

end Files

/-- A save as it went: its error, and the directory before it and after each call that changed
something. -/
structure Write where
  result : Except Err Unit
  points : List Files
  final : Files

/-- The failure of a call on the temporary file, which is then removed. -/
def Write.discarded (calls : FileCalls) (files : Files) (path : GoString) (points : List Files)
    (what : GoString) (fault : TempFault) : Write :=
  let failed := files.withTmp path fault.left
  let final := if calls.removes then files.withTmp path none else failed
  ⟨.error (.text (what ++ ": ") ++ fault.err), points ++ [failed, final], final⟩

/-- `writeFileAtomic`. -/
def writeFileAtomic (path data : GoString) (calls : FileCalls) (files : Files) : Write :=
  if calls.targetIsDir then ⟨.error (.text "target is a directory"), [files], files⟩
  else
    match calls.create with
    | some fault =>
      let failed := files.withTmp path fault.left
      ⟨.error (.text "create temporary file: " ++ fault.err), [files, failed], failed⟩
    | none =>
      let created := files.withTmp path (some [])
      match calls.write with
      | some fault => .discarded calls files path [files, created] "write temporary file" fault
      | none =>
        let written := files.withTmp path (some data)
        let points := [files, created, written]
        match calls.sync with
        | some fault => .discarded calls files path points "sync temporary file" fault
        | none =>
          match calls.close with
          | some fault => .discarded calls files path points "close temporary file" fault
          | none =>
            match calls.rename with
            | some err =>
              .discarded calls files path points "rename temporary file" ⟨err, some data⟩
            | none =>
              let final := files.renamed path data
              match calls.openDir.or calls.syncDir with
              | some err =>
                ⟨.error (.text "sync directory: " ++ err), points ++ [final], final⟩
              | none => ⟨.ok (), points ++ [final], final⟩

/-- How a save can have gone. -/
inductive Write.Replaces (path data : GoString) (calls : FileCalls) (files : Files) :
    Write → Prop where
  /-- The startup file is as it was at all points. -/
  | kept {write : Write} (err : Err) (hError : write.result = .error err)
      (hPoints : ∀ point ∈ write.points, point[path]? = files[path]?)
      (hFinal : write.final[path]? = files[path]?) (hRenames : ¬ calls.Renames) :
      Replaces path data calls files write
  /-- The startup file is new after the last call, and as it was before. -/
  | replaced {write : Write}
      (hPoints : ∀ point ∈ write.points, point[path]? = files[path]? ∨ point[path]? = some data)
      (hFinal : write.final[path]? = some data) (hRenames : calls.Renames)
      (hResult : write.result = .ok () ↔ calls.FlushesDir) : Replaces path data calls files write

theorem replaces_discarded {path data : GoString} {calls : FileCalls} {files : Files}
    {points : List Files} (hPoints : ∀ point ∈ points, point[path]? = files[path]?)
    (hRenames : ¬ calls.Renames) (what : GoString) (fault : TempFault) :
    (Write.discarded calls files path points what fault).Replaces path data calls files := by
  have hFinal : (if calls.removes then files.withTmp path none
      else files.withTmp path fault.left)[path]? = files[path]? := by
    split <;> simp
  refine .kept _ rfl ?_ hFinal hRenames
  intro point hPoint
  rcases List.mem_append.mp hPoint with hOld | hNew
  · exact hPoints point hOld
  · rcases List.mem_cons.mp hNew with rfl | hLast
    · simp
    · rw [List.mem_singleton.mp hLast]
      exact hFinal

/-- Before the rename the startup file is untouched, and after it nothing is left to do but to
flush the directory. -/
theorem replaces_writeFileAtomic (path data : GoString) (calls : FileCalls) (files : Files) :
    (writeFileAtomic path data calls files).Replaces path data calls files := by
  have hCreated : ∀ point ∈ [files, files.withTmp path (some [])],
      point[path]? = files[path]? := by
    simp
  have hWritten : ∀ point ∈ [files, files.withTmp path (some []), files.withTmp path (some data)],
      point[path]? = files[path]? := by
    simp
  have hRenamed : ∀ point ∈ [files, files.withTmp path (some []),
      files.withTmp path (some data)] ++ [files.renamed path data],
      point[path]? = files[path]? ∨ point[path]? = some data := by
    intro point hPoint
    rcases List.mem_append.mp hPoint with hOld | hLast
    · exact Or.inl (hWritten point hOld)
    · rw [List.mem_singleton.mp hLast]
      exact Or.inr (Files.getElem?_renamed files path data)
  unfold writeFileAtomic
  split
  · next hDir => exact .kept _ rfl (by simp) rfl fun hAll => (by simp [hAll.1] at hDir)
  next hDir =>
  split
  · next hCreate =>
    exact .kept _ rfl (by simp) (by simp) fun hAll => (by simp [hAll.2.1] at hCreate)
  next hCreate =>
  dsimp only
  split
  · next hWrite =>
    exact replaces_discarded hCreated (fun hAll => by simp [hAll.2.2.1] at hWrite) _ _
  next hWrite =>
  split
  · next hSync =>
    exact replaces_discarded hWritten (fun hAll => by simp [hAll.2.2.2.1] at hSync) _ _
  next hSync =>
  split
  · next hClose =>
    exact replaces_discarded hWritten (fun hAll => by simp [hAll.2.2.2.2.1] at hClose) _ _
  next hClose =>
  split
  · next hRename =>
    exact replaces_discarded hWritten (fun hAll => by simp [hAll.2.2.2.2.2] at hRename) _ _
  next hRename =>
  have hAll : calls.Renames := ⟨by simpa using hDir, hCreate, hWrite, hSync, hClose, hRename⟩
  split
  · next err hErr =>
    refine .replaced hRenamed (by simp) hAll ⟨fun hOk => (by cases hOk), ?_⟩
    rintro ⟨hOpen, hFlush⟩
    rw [hOpen, hFlush] at hErr
    cases hErr
  · next hNone => exact .replaced hRenamed (by simp) hAll ⟨fun _ => Option.or_eq_none_iff.mp hNone,
        fun _ => rfl⟩

/-! ## Saves of the store -/

section Saves

variable {json : Json} (render : json.Data → GoString) (opts : Options) (env : CallEnv)
  (calls : FileCalls)

/-- A call that does not get to the file. -/
def Write.idle (files : Files) : Write :=
  ⟨.ok (), [files], files⟩

/-- `Save` on the startup file.  `render` gives the bytes of a document. -/
def saveFiles (values : Values) (files : Files) : Write :=
  match env.fileCtx with
  | some err => { Write.idle files with result := .error err }
  | none =>
    match encodeFile json opts.startupFile values with
    | .error err => { Write.idle files with result := .error err }
    | .ok data =>
      let write := writeFileAtomic opts.startupFile (render data) calls files
      { write with
        result := write.result.mapError fun err =>
          .text ("store: save " ++ opts.startupFile ++ ": ") ++ err }

/-- The persistence step of `Commit` and `Restore`. -/
def persistFiles (next : Values) (files : Files) : Write :=
  if opts.startupFile = [] then Write.idle files
  else saveFiles render opts env calls (opts.configOnly next) files

/-- What a call does to the directory. -/
def Mutation.write (m : Memory json) (files : Files) : Mutation → Write
  | .commit =>
    if env.ctx.isSome || !(opts.validate env.hookCtx m.candidate).isOk then Write.idle files
    else persistFiles render opts env calls m.candidate files
  | .restore values =>
    if env.ctx.isSome then Write.idle files
    else persistFiles render opts env calls values files
  | _ => Write.idle files

/-- What the store sees of the calls of a save of `next`. -/
def writeFaultOf (next : Values) (files : Files) : Option WriteFault :=
  match encodeFile json opts.startupFile (opts.configOnly next) with
  | .error _ => none
  | .ok data =>
    let write := writeFileAtomic opts.startupFile (render data) calls files
    match write.result with
    | .ok () => none
    | .error err => some ⟨err, write.final[opts.startupFile]? = some (render data)⟩

/-- The values that a call saves. -/
def Mutation.saved (m : Memory json) : Mutation → Option Values
  | .commit => some m.candidate
  | .restore values => some values
  | _ => none

/-- The surroundings of a call with the file-system calls of its save. -/
def CallEnv.onFiles (m : Memory json) (op : Mutation) (files : Files) : CallEnv :=
  { env with
    writeFault := (op.saved m).bind fun next => writeFaultOf render opts calls next files }

variable {render opts env calls} {files : Files} {disk : Option json.Data}

/-- `Memory.save` is the save over the file-system calls, seen from the store. -/
theorem save_eq (hHeld : files[opts.startupFile]? = disk.map render) (next : Values) :
    (Memory.save opts { env with writeFault := writeFaultOf render opts calls next files }
        (opts.configOnly next) disk).1 =
        (saveFiles render opts env calls (opts.configOnly next) files).result ∧
      (Memory.save opts { env with writeFault := writeFaultOf render opts calls next files }
        (opts.configOnly next) disk).2.map render =
        (saveFiles render opts env calls
          (opts.configOnly next) files).final[opts.startupFile]? := by
  unfold Memory.save saveFiles writeFaultOf
  dsimp only
  cases hCtx : env.fileCtx with
  | some err => exact ⟨rfl, hHeld.symm⟩
  | none =>
    cases hData : encodeFile json opts.startupFile (opts.configOnly next) with
    | error err => exact ⟨rfl, hHeld.symm⟩
    | ok data =>
      dsimp only
      have hReplaces := replaces_writeFileAtomic opts.startupFile (render data) calls files
      generalize writeFileAtomic opts.startupFile (render data) calls files = write
        at hReplaces ⊢
      cases hResult : write.result with
      | ok _ =>
        refine ⟨rfl, ?_⟩
        cases hReplaces with
        | kept err hError hPoints hFinal =>
          rw [hResult] at hError
          cases hError
        | replaced hPoints hFinal hResult => exact hFinal.symm
      | error err =>
        refine ⟨rfl, ?_⟩
        dsimp only
        by_cases hNew : write.final[opts.startupFile]? = some (render data)
        · rw [hNew]
          simp
        · rw [if_neg (by simpa using hNew)]
          cases hReplaces with
          | kept err hError hPoints hFinal => rw [hFinal, hHeld]
          | replaced hPoints hFinal hResult => exact absurd hFinal hNew

/-- `Memory.persist` is the persistence step over the file-system calls. -/
theorem persist_eq (hHeld : files[opts.startupFile]? = disk.map render) (next : Values) :
    (Memory.persist opts { env with writeFault := writeFaultOf render opts calls next files }
        next disk).1 = (persistFiles render opts env calls next files).result ∧
      (Memory.persist opts { env with writeFault := writeFaultOf render opts calls next files }
        next disk).2.map render =
        (persistFiles render opts env calls next files).final[opts.startupFile]? := by
  unfold Memory.persist persistFiles
  split
  · exact ⟨rfl, hHeld.symm⟩
  · exact save_eq hHeld next

/-- The startup file holds what it has held, or the document of the values that are saved. -/
def HoldsOldOrNew (render : json.Data → GoString) (opts : Options) (files : Files) (next : Values)
    (point : Files) : Prop :=
  point[opts.startupFile]? = files[opts.startupFile]? ∨
    ∃ data, encodeFile json opts.startupFile (opts.configOnly next) = .ok data ∧
      point[opts.startupFile]? = some (render data)

/-- The document that the persistence step gets to write. -/
def persistedData (json : Json) (opts : Options) (env : CallEnv) (next : Values) :
    Option json.Data :=
  if opts.startupFile = [] || env.fileCtx.isSome then none
  else (encodeFile json opts.startupFile (opts.configOnly next)).toOption

/-- The document that a call gets to write. -/
def Mutation.document (opts : Options) (env : CallEnv) (m : Memory json) :
    Mutation → Option json.Data
  | .commit =>
    if env.ctx.isSome || !(opts.validate env.hookCtx m.candidate).isOk then none
    else persistedData json opts env m.candidate
  | .restore values => if env.ctx.isSome then none else persistedData json opts env values
  | _ => none

/-- A call on the directory that writes a document, or none. -/
inductive Write.Writes (render : json.Data → GoString) (opts : Options) (calls : FileCalls)
    (files : Files) (next : Values) : Option json.Data → Write → Prop where
  | idle {write : Write} (hPoints : write.points = [files]) (hFinal : write.final = files) :
      Writes render opts calls files next none write
  | saved {data : json.Data} {write : Write}
      (hData : encodeFile json opts.startupFile (opts.configOnly next) = .ok data)
      (hPoints : write.points = (writeFileAtomic opts.startupFile (render data) calls files).points)
      (hFinal : write.final = (writeFileAtomic opts.startupFile (render data) calls files).final)
      (hResult : write.result = .ok () ↔
        (writeFileAtomic opts.startupFile (render data) calls files).result = .ok ()) :
      Writes render opts calls files next (some data) write

theorem writes_persistFiles (next : Values) :
    (persistFiles render opts env calls next files).Writes render opts calls files next
      (persistedData json opts env next) := by
  unfold persistFiles saveFiles persistedData
  by_cases hFile : opts.startupFile = []
  · simp only [hFile, if_true, decide_true, Bool.true_or]
    exact .idle rfl rfl
  · cases hCtx : env.fileCtx with
    | some err =>
      simp only [if_neg hFile, Option.isSome_some, Bool.or_true, if_true]
      exact .idle rfl rfl
    | none =>
      simp only [if_neg hFile, Option.isSome_none, Bool.or_false, decide_eq_true_eq]
      cases hData : encodeFile json opts.startupFile (opts.configOnly next) with
      | error err => exact .idle rfl rfl
      | ok data =>
        refine .saved hData rfl rfl ?_
        dsimp only
        cases (writeFileAtomic opts.startupFile (render data) calls files).result with
        | error err => exact ⟨fun hOk => (by cases hOk), fun hOk => (by cases hOk)⟩
        | ok _ => exact ⟨fun _ => rfl, fun _ => rfl⟩

variable {m : Memory json}

theorem writes_write {op : Mutation} {next : Values} (hSaves : op.saved m = some next) :
    (op.write render opts env calls m files).Writes render opts calls files next
      (op.document opts env m) := by
  cases op with
  | commit =>
    cases hSaves
    simp only [Mutation.write, Mutation.document]
    split
    · exact .idle rfl rfl
    · exact writes_persistFiles m.candidate
  | restore values =>
    cases hSaves
    simp only [Mutation.write, Mutation.document]
    split
    · exact .idle rfl rfl
    · exact writes_persistFiles next
  | _ => cases hSaves

/-- All points have the old document or the new one. -/
theorem Write.Writes.holdsOldOrNew {next : Values} {document : Option json.Data} {write : Write}
    (hWrites : write.Writes render opts calls files next document) :
    ∀ point ∈ write.points, HoldsOldOrNew render opts files next point := by
  intro point hPoint
  cases hWrites with
  | idle hPoints hFinal =>
    rw [hPoints] at hPoint
    rw [List.mem_singleton.mp hPoint]
    exact Or.inl rfl
  | @saved data write hData hPoints hFinal hResult =>
    rw [hPoints] at hPoint
    have hReplaces := replaces_writeFileAtomic opts.startupFile (render data) calls files
    cases hReplaces with
    | kept err hError hPoints hFinal hRenames => exact Or.inl (hPoints point hPoint)
    | replaced hPoints hFinal hRenames hResult =>
      exact (hPoints point hPoint).imp_right fun hNew => ⟨data, hData, hNew⟩

/-! ## Commits and restores -/

/-- A commit or a restore next to what it has done to the directory: the file is the one that
the store knows, and the call succeeds or fails as its save does. -/
structure Memory.Outcome.Follows (render : json.Data → GoString) (opts : Options)
    (document : Option json.Data) (write : Write) (outcome : Memory.Outcome json) : Prop where
  disk : outcome.2.disk.map render = write.final[opts.startupFile]?
  result : document.isSome = true → (outcome.1 = .ok () ↔ write.result = .ok ())

theorem commit_follows (hHeld : files[opts.startupFile]? = m.disk.map render) :
    (m.commit opts (env.onFiles render opts calls m .commit files)).Follows render opts
      (Mutation.commit.document opts env m)
      (Mutation.commit.write render opts env calls m files) := by
  obtain ⟨hResult, hDisk⟩ : _ ∧ _ := persist_eq hHeld m.candidate
  change (Memory.persist opts (env.onFiles render opts calls m .commit files) m.candidate
    m.disk).1 = _ at hResult
  change (Memory.persist opts (env.onFiles render opts calls m .commit files) m.candidate
    m.disk).2.map render = _ at hDisk
  simp only [Memory.commit, Mutation.write, Mutation.document]
  cases hCtx : env.ctx with
  | some err =>
    have hEnvCtx : (env.onFiles render opts calls m .commit files).ctx = some err := hCtx
    rw [hEnvCtx]
    exact ⟨hHeld.symm, fun hSome => (by cases hSome)⟩
  | none =>
    have hEnvCtx : (env.onFiles render opts calls m .commit files).ctx = none := hCtx
    rw [hEnvCtx]
    have hHookCtx : (env.onFiles render opts calls m .commit files).hookCtx = env.hookCtx := rfl
    rw [hHookCtx]
    cases hValid : opts.validate env.hookCtx m.candidate with
    | error err => exact ⟨hHeld.symm, fun hSome => (by cases hSome)⟩
    | ok _ =>
      dsimp only
      rw [if_neg (by simp [Except.isOk, Except.toBool]),
        if_neg (by simp [Except.isOk, Except.toBool])]
      generalize Memory.persist opts (env.onFiles render opts calls m .commit files)
        m.candidate m.disk = persisted at hResult hDisk ⊢
      obtain ⟨result, disk⟩ := persisted
      cases result with
      | error err => exact ⟨hDisk, fun _ => by simp [← hResult]⟩
      | ok _ => exact ⟨by rw [Memory.disk_recordDiff]; exact hDisk, fun _ => by simp [← hResult]⟩

theorem restore_follows (hHeld : files[opts.startupFile]? = m.disk.map render) (values : Values) :
    (m.restore opts (env.onFiles render opts calls m (.restore values) files) values).Follows
      render opts ((Mutation.restore values).document opts env m)
      ((Mutation.restore values).write render opts env calls m files) := by
  obtain ⟨hResult, hDisk⟩ : _ ∧ _ := persist_eq hHeld values
  change (Memory.persist opts (env.onFiles render opts calls m (.restore values) files) values
    m.disk).1 = _ at hResult
  change (Memory.persist opts (env.onFiles render opts calls m (.restore values) files) values
    m.disk).2.map render = _ at hDisk
  simp only [Memory.restore, Mutation.write, Mutation.document]
  cases hCtx : env.ctx with
  | some err =>
    have hEnvCtx : (env.onFiles render opts calls m (.restore values) files).ctx = some err :=
      hCtx
    rw [hEnvCtx]
    exact ⟨hHeld.symm, fun hSome => (by cases hSome)⟩
  | none =>
    have hEnvCtx : (env.onFiles render opts calls m (.restore values) files).ctx = none := hCtx
    rw [hEnvCtx]
    dsimp only
    rw [if_neg (by simp), if_neg (by simp)]
    generalize Memory.persist opts (env.onFiles render opts calls m (.restore values) files)
      values m.disk = persisted at hResult hDisk ⊢
    obtain ⟨result, disk⟩ := persisted
    cases result with
    | error err => exact ⟨hDisk, fun _ => by simp [← hResult]⟩
    | ok _ => exact ⟨by rw [Memory.disk_recordDiff]; exact hDisk, fun _ => by simp [← hResult]⟩

theorem mutate_follows (hHeld : files[opts.startupFile]? = m.disk.map render) {op : Mutation}
    {next : Values} (hSaves : op.saved m = some next) :
    (m.mutate opts (env.onFiles render opts calls m op files) op).Follows render opts
      (op.document opts env m) (op.write render opts env calls m files) := by
  cases op with
  | commit => exact commit_follows hHeld
  | restore values => exact restore_follows hHeld values
  | _ => cases hSaves

/-- When a call that fails has left the file as it was. -/
theorem Write.Writes.final_eq_iff {next : Values} {document : Option json.Data} {write : Write}
    (hWrites : write.Writes render opts calls files next document)
    {outcome : Memory.Outcome json} (hFollows : outcome.Follows render opts document write) :
    (outcome.1 ≠ .ok () → write.final[opts.startupFile]? = files[opts.startupFile]?) ↔
      ∀ data, document = some data → calls.Renames → ¬ calls.FlushesDir →
        files[opts.startupFile]? = some (render data) := by
  cases hWrites with
  | idle hPoints hFinal =>
    rw [hFinal]
    simp
  | @saved data write hData hPoints hFinal hResult =>
    have hOk : outcome.1 = .ok () ↔ _ := (hFollows.result rfl).trans hResult
    have hReplaces := replaces_writeFileAtomic opts.startupFile (render data) calls files
    rw [hFinal, ne_eq, hOk]
    cases hReplaces with
    | kept err hError hPoints hFinal hRenames =>
      constructor
      · intro _ other hOther hAll
        exact absurd hAll hRenames
      · intro _ _
        exact hFinal
    | replaced hPoints hFinal hRenames hResult =>
      rw [hResult, hFinal]
      constructor
      · intro hSame other hOther _ hFlushes
        cases hOther
        exact (hSame hFlushes).symm
      · intro hSame hFlushes
        exact (hSame data rfl hRenames hFlushes).symm

end Saves

/-- At every point of a commit or a restore the startup file holds its old document or the new
one, and the store knows which it is in the end.  A call that reports an error has left the file
and the startup datastore as they were, if and only if the flush of the directory has not failed
after the rename of a new document. -/
theorem save_keeps_startup_file_whole {json : Json} (render : json.Data → GoString)
    (opts : Options) (env : CallEnv) (calls : FileCalls) (m : Memory json) (files : Files)
    (hHeld : files[opts.startupFile]? = m.disk.map render) (op : Mutation) {next : Values}
    (hSaves : op.saved m = some next) :
    (∀ point ∈ (op.write render opts env calls m files).points,
      HoldsOldOrNew render opts files next point) ∧
    (m.mutate opts (env.onFiles render opts calls m op files) op).2.disk.map render =
      (op.write render opts env calls m files).final[opts.startupFile]? ∧
    (((m.mutate opts (env.onFiles render opts calls m op files) op).1 ≠ .ok () →
        (op.write render opts env calls m files).final[opts.startupFile]? =
            files[opts.startupFile]? ∧
          (m.mutate opts (env.onFiles render opts calls m op files) op).2.startup = m.startup) ↔
      ∀ data, op.document opts env m = some data → calls.Renames → ¬ calls.FlushesDir →
        files[opts.startupFile]? = some (render data)) := by
  have hWrites : (op.write render opts env calls m files).Writes render opts calls files next
      (op.document opts env m) := writes_write hSaves
  have hFollows : (m.mutate opts (env.onFiles render opts calls m op files) op).Follows render opts
      (op.document opts env m) (op.write render opts env calls m files) :=
    mutate_follows hHeld hSaves
  have hFinal := hWrites.final_eq_iff hFollows
  have hStartup : (m.mutate opts (env.onFiles render opts calls m op files) op).1 ≠ .ok () →
      (m.mutate opts (env.onFiles render opts calls m op files) op).2.startup = m.startup := by
    intro hFailed
    rcases Memory.mutate_atomic opts (env.onFiles render opts calls m op files) m op with
      hOk | hSame
    · exact absurd hOk hFailed
    · exact congrArg Contents.startup hSame.contents
  refine ⟨hWrites.holdsOldOrNew, hFollows.disk, ?_⟩
  rw [← hFinal]
  constructor
  · intro hBoth hFailed
    exact (hBoth hFailed).1
  · intro hKept hFailed
    exact ⟨hKept hFailed, hStartup hFailed⟩

/-- The bytes of a document: its paths, one a line. -/
def plainBytes (document : DiskFile Leaf) : GoString :=
  join document.values.keys 10

/-- What a commit of `unsavedMemory` does, before there is a startup file. -/
def commitOn (calls : FileCalls) : Write :=
  Mutation.commit.write plainBytes savedOptions .quiet calls unsavedMemory ∅

/-- How it ends. -/
def commitOutcome (calls : FileCalls) : Memory.Outcome Json.plain :=
  unsavedMemory.mutate savedOptions
    (CallEnv.quiet.onFiles plainBytes savedOptions calls unsavedMemory .commit
      ∅) .commit

/-- A write that fails on a full disk leaves half a temporary file and no startup file. -/
def fullDisk : FileCalls :=
  { FileCalls.quiet with
    write := some ⟨.text "no space left on device", some "system-info"⟩, removes := false }

theorem commit_on_full_disk_keeps_startup_file :
    (commitOn fullDisk).final[savedOptions.startupFile]? = none ∧
      (commitOutcome fullDisk).2.startup = unsavedMemory.startup := by
  have hFailed : (commitOutcome fullDisk).1 ≠ .ok () := by
    decide +kernel
  refine (save_keeps_startup_file_whole plainBytes savedOptions .quiet fullDisk unsavedMemory ∅ rfl
    .commit rfl).2.2.mpr ?_ hFailed
  rintro _ _ ⟨_, _, hWrite, _⟩
  cases hWrite

/-- The flush of the directory fails after the rename. -/
def failedFlush : FileCalls :=
  { FileCalls.quiet with syncDir := some (.text "input/output error") }

/-- The commit reports an error and keeps startup empty, and the file holds the new document. -/
theorem failed_commit_leaves_new_startup_file :
    (commitOutcome failedFlush).1.isOk = false ∧
      (commitOutcome failedFlush).2.startup = ∅ ∧
      (∅ : Files)[savedOptions.startupFile]? = none ∧
      (commitOn failedFlush).final[savedOptions.startupFile]? = some "system-info/name" := by
  decide +kernel

end Store
end TriadSim

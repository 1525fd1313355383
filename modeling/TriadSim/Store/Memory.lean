import TriadSim.Store.Persist

/-!
# The in-memory store

`internal/store/memory.go`: three datastores, each a flat map from router path to
leaf value, with their change tracking and the startup file.  A method holds the
store's lock from its first access to the datastores to its last, so a call is one
step of the model; `LoadStartup`, which runs at boot, reads and validates the file
before it takes the lock.  What a call observes of its surroundings (the state of
its context, the clock, failures of the file system) is its `CallEnv`.
-/

namespace TriadSim
namespace Store

open Go Library

/-- The name a caller addresses a datastore by. -/
inductive Datastore where
  | running
  | candidate
  | startup
  | unknown (name : GoString)
  deriving DecidableEq, Repr

/-- The text of a datastore name. -/
def Datastore.name : Datastore → GoString
  | running => "running"
  | candidate => "candidate"
  | startup => "startup"
  | unknown name => name

/-- One value for each of the three datastores. -/
structure PerDatastore (α : Type) where
  running : α
  candidate : α
  startup : α

/-- Change the value of one datastore. -/
def PerDatastore.modify {α : Type} (values : PerDatastore α) (f : α → α) :
    Datastore → PerDatastore α
  | .running => { values with running := f values.running }
  | .candidate => { values with candidate := f values.candidate }
  | .startup => { values with startup := f values.startup }
  | .unknown _ => values

/-- `Options`: the startup file (an empty name disables persistence) and the two
hooks.  The validator also sees the state of the caller's context. -/
structure Options where
  startupFile : GoString
  validator : Option (Option Err → Values → Except Err Unit)
  stateFilter : Option (GoString → Bool)

/-- A failed replacement of the startup file.  The failure of the final directory
flush comes after the rename, so the new document is already in place. -/
structure WriteFault where
  err : Err
  replaced : Bool

/-- What one call observes of its surroundings. -/
structure CallEnv where
  /-- `ctx.Err()` at the start of the call. -/
  ctx : Option Err
  /-- `ctx.Err()` when the validator runs. -/
  hookCtx : Option Err
  /-- `ctx.Err()` at the start of `Save` or `Load`. -/
  fileCtx : Option Err
  writeFault : Option WriteFault
  readFault : Option Err
  /-- The clock when the change of a datastore is recorded. -/
  now : Datastore → Nat

/-- A call with a live context and no failure around it. -/
def CallEnv.quiet : CallEnv :=
  { ctx := none, hookCtx := none, fileCtx := none, writeFault := none, readFault := none,
    now := fun _ => 0 }

/-- The store.  `disk` is the startup file, `none` while it does not exist. -/
structure Memory (json : Json) where
  running : Values
  candidate : Values
  startup : Values
  generation : PerDatastore UInt64
  /-- `ConfigChangedAt`; `none` is the zero time. -/
  configChanged : PerDatastore (Option Nat)
  disk : Option json.Data

variable {json : Json}

/-- `NewMemory`, next to whatever startup file an earlier process has left. -/
def newMemory (disk : Option json.Data) : Memory json :=
  { running := ∅, candidate := ∅, startup := ∅, generation := ⟨0, 0, 0⟩,
    configChanged := ⟨none, none, none⟩, disk }

/-- `isState`. -/
def Options.isState (opts : Options) (path : GoString) : Bool :=
  opts.stateFilter.any fun filter => filter path

/-- `configOnly`: the values without the state leaves. -/
def Options.configOnly (opts : Options) (values : Values) : Values :=
  values.filter fun path _ => !opts.isState path

/-- The validator hook; a nil validator accepts every snapshot. -/
def Options.validate (opts : Options) (ctx : Option Err) (values : Values) : Except Err Unit :=
  match opts.validator with
  | some validator => validator ctx values
  | none => .ok ()

/-- `validPath`: non-empty, no surrounding white space, no leading, trailing or
doubled slash. -/
def validPath (path : GoString) : Bool :=
  path ≠ [] && trimSpace path = path &&
    !(hasPrefix path [47] || hasSuffix path [47]) && !contains path [47, 47]

/-! ## Changes between two contents -/

/-- `Op` of a change. -/
inductive ChangeOp where
  | create
  | update
  | delete
  deriving DecidableEq, Repr

/-- `Change`. -/
structure Change where
  op : ChangeOp
  path : GoString
  old : Option Leaf
  new : Option Leaf
  deriving DecidableEq, Repr

/-- The change of one path, if there is one. -/
def changeAt (running candidate : Values) (path : GoString) : Option Change :=
  match running[path]?, candidate[path]? with
  | some old, some updated =>
    if Leaf.goEq old updated then none
    else some ⟨.update, path, some old, some updated⟩
  | none, some updated => some ⟨.create, path, none, some updated⟩
  | old, none => some ⟨.delete, path, old, none⟩

/-- `diffValues`: the changes of all paths of either side, in path order. -/
def diffValues (running candidate : Values) : List Change :=
  (running ∪ candidate).keys.filterMap (changeAt running candidate)

/-! ## Change tracking -/

namespace Memory

/-- `bumpLocked`. -/
def bump (opts : Options) (env : CallEnv) (ds : Datastore) (paths : List GoString)
    (m : Memory json) : Memory json :=
  { m with
    generation := m.generation.modify (· + 1) ds
    configChanged :=
      if paths.any fun path => !opts.isState path then
        m.configChanged.modify (fun _ => some (env.now ds)) ds
      else m.configChanged }

/-- `recordWriteLocked`: a mutation of running is mirrored, so both datastores
change. -/
def recordWrite (opts : Options) (env : CallEnv) (ds : Datastore) (paths : List GoString)
    (m : Memory json) : Memory json :=
  let bumped := m.bump opts env ds paths
  if ds = .running then bumped.bump opts env .candidate paths else bumped

/-- `recordDiffLocked` for several datastores. -/
def recordDiff (opts : Options) (env : CallEnv) (targets : List Datastore)
    (diff : List Change) (m : Memory json) : Memory json :=
  targets.foldl (fun current ds => current.bump opts env ds (diff.map Change.path)) m

/-- `datastore`: the map behind a name. -/
def datastore (m : Memory json) : Datastore → Except Err Values
  | .running => .ok m.running
  | .candidate => .ok m.candidate
  | .startup => .ok m.startup
  | .unknown name =>
    .error (.sentinel .storeUnknownDatastore ++ .text ": " ++ .piece (.quoted name))

/-- Edit the map behind `ds` and, through `mirror`, candidate when it is running. -/
def edit (m : Memory json) (ds : Datastore) (f : Values → Values) : Memory json :=
  match ds with
  | .running => { m with running := f m.running, candidate := f m.candidate }
  | .candidate => { m with candidate := f m.candidate }
  | .startup => { m with startup := f m.startup }
  | .unknown _ => m

/-! ## Writes -/

/-- The result of a mutating call: its error value and the store after it. -/
abbrev Outcome (json : Json) := Except Err Unit × Memory json

/-- The error of `Set` and `Apply` for a path that is not canonical. -/
def invalidPath (path : GoString) : Err :=
  .sentinel .storeInvalidPath ++ .text ": " ++ .piece (.quoted path)

/-- The error of `Set` and `Apply` for an unsupported value. -/
def invalidValue (value : GoValue) : Err :=
  .sentinel .storeInvalidValue ++ .text ": " ++ .piece (.typeName value)

/-- The error of `Get` and `Delete` for an absent path. -/
def notFound (path : GoString) : Err :=
  .sentinel .storeNotFound ++ .text (": " ++ path)

/-- `Set`. -/
def set (opts : Options) (env : CallEnv) (ds : Datastore) (path : GoString) (value : GoValue)
    (m : Memory json) : Outcome json :=
  match env.ctx with
  | some err => (.error err, m)
  | none =>
    if !validPath path then (.error (invalidPath path), m)
    else
      match value.toLeaf? with
      | none => (.error (invalidValue value), m)
      | some leaf =>
        match m.datastore ds with
        | .error err => (.error err, m)
        | .ok _ =>
          (.ok (), (m.edit ds fun values => values.insert path leaf).recordWrite
            opts env ds [path])

/-- `Delete`. -/
def delete (opts : Options) (env : CallEnv) (ds : Datastore) (path : GoString)
    (m : Memory json) : Outcome json :=
  match env.ctx with
  | some err => (.error err, m)
  | none =>
    match m.datastore ds with
    | .error err => (.error err, m)
    | .ok values =>
      if path ∈ values then
        (.ok (), (m.edit ds fun target => target.erase path).recordWrite opts env ds [path])
      else (.error (notFound path), m)

/-- The checks of `Apply` on its values: the path, then the type. -/
def checkValues (values : Std.ExtTreeMap GoString GoValue) : Except Err Values :=
  FinMap.traverse (fun path value =>
    if !validPath path then .error (invalidPath path)
    else
      match value.toLeaf? with
      | none => .error (invalidValue value)
      | some leaf => .ok leaf) values

/-- `Apply`. -/
def apply (opts : Options) (env : CallEnv) (ds : Datastore)
    (values : Std.ExtTreeMap GoString GoValue) (deletions : List GoString)
    (m : Memory json) : Outcome json :=
  match env.ctx with
  | some err => (.error err, m)
  | none =>
    match checkValues values with
    | .error err => (.error err, m)
    | .ok leaves =>
      match deletions.find? fun path => !validPath path with
      | some path => (.error (invalidPath path), m)
      | none =>
        match m.datastore ds with
        | .error err => (.error err, m)
        | .ok _ =>
          (.ok (), (m.edit ds fun target =>
            FinMap.eraseAll (target ∪ leaves) deletions).recordWrite
              opts env ds (leaves.keys ++ deletions))

/-! ## Whole-datastore operations -/

/-- `Save` on the startup file, with the file it leaves behind. -/
def save (opts : Options) (env : CallEnv) (values : Values) (disk : Option json.Data) :
    Except Err Unit × Option json.Data :=
  match env.fileCtx with
  | some err => (.error err, disk)
  | none =>
    match encodeFile json opts.startupFile values with
    | .error err => (.error err, disk)
    | .ok data =>
      match env.writeFault with
      | none => (.ok (), some data)
      | some fault =>
        (.error (.text ("store: save " ++ opts.startupFile ++ ": ") ++ fault.err),
          if fault.replaced then some data else disk)

/-- The persistence step of `Commit` and `Restore`: only configuration leaves are
written, and nothing when persistence is disabled. -/
def persist (opts : Options) (env : CallEnv) (next : Values) (disk : Option json.Data) :
    Except Err Unit × Option json.Data :=
  if opts.startupFile = [] then (.ok (), disk) else save opts env (opts.configOnly next) disk

/-- `Commit`. -/
def commit (opts : Options) (env : CallEnv) (m : Memory json) : Outcome json :=
  match env.ctx with
  | some err => (.error err, m)
  | none =>
    match opts.validate env.hookCtx m.candidate with
    | .error err =>
      (.error (.text "store: commit: " ++ .sentinel .storeValidation ++ .text ": " ++ err), m)
    | .ok () =>
      let next := m.candidate
      let diff := diffValues m.running next
      match persist opts env next m.disk with
      | (.error err, disk) => (.error (.text "store: commit: " ++ err), { m with disk })
      | (.ok (), disk) =>
        (.ok (), recordDiff opts env [.running, .candidate, .startup] diff
          { m with running := next, startup := next, candidate := next, disk })

/-- `Rollback`. -/
def rollback (opts : Options) (env : CallEnv) (m : Memory json) : Outcome json :=
  match env.ctx with
  | some err => (.error err, m)
  | none =>
    (.ok (), recordDiff opts env [.candidate] (diffValues m.candidate m.running)
      { m with candidate := m.running })

/-- `Restore`. -/
def restore (opts : Options) (env : CallEnv) (values : Values) (m : Memory json) :
    Outcome json :=
  match env.ctx with
  | some err => (.error err, m)
  | none =>
    let diff := diffValues m.running values
    match persist opts env values m.disk with
    | (.error err, disk) => (.error (.text "store: restore: " ++ err), { m with disk })
    | (.ok (), disk) =>
      (.ok (), recordDiff opts env [.running, .startup] diff
        { m with running := values, startup := values, disk })

/-- `Load` of the startup file; a missing file is an empty map. -/
def load (opts : Options) (env : CallEnv) (disk : Option json.Data) : Except Err Values :=
  match env.fileCtx with
  | some err => .error err
  | none =>
    match env.readFault with
    | some err => .error (.text ("store: load " ++ opts.startupFile ++ ": ") ++ err)
    | none =>
      match disk with
      | none => .ok ∅
      | some data => decodeFile json opts.startupFile data

/-- `LoadStartup`. -/
def loadStartup (opts : Options) (env : CallEnv) (m : Memory json) : Outcome json :=
  match env.ctx with
  | some err => (.error err, m)
  | none =>
    if opts.startupFile = [] then (.ok (), m)
    else
      match load opts env m.disk with
      | .error err => (.error (.text "store: load startup: " ++ err), m)
      | .ok loaded =>
        let values := opts.configOnly loaded
        match opts.validate env.hookCtx values with
        | .error err =>
          (.error (.text "store: load startup: invalid startup file: " ++ err), m)
        | .ok () =>
          (.ok (), recordDiff opts env [.running, .candidate, .startup]
            (diffValues m.running values)
            { m with running := values, startup := values, candidate := values })

/-! ## Reads -/

/-- `Get`. -/
def get (env : CallEnv) (ds : Datastore) (path : GoString) (m : Memory json) :
    Except Err Leaf :=
  match env.ctx with
  | some err => .error err
  | none =>
    match m.datastore ds with
    | .error err => .error err
    | .ok values =>
      match values[path]? with
      | some leaf => .ok leaf
      | none => .error (notFound path)

/-- `Values`. -/
def values (env : CallEnv) (ds : Datastore) (m : Memory json) : Except Err Values :=
  match env.ctx with
  | some err => .error err
  | none => m.datastore ds

/-- A read that succeeds answers what the datastore holds. -/
theorem datastore_of_values_eq_ok {env : CallEnv} {ds : Datastore} {m : Memory json}
    {content : Values} (hValues : m.values env ds = .ok content) :
    m.datastore ds = .ok content := by
  unfold values at hValues
  split at hValues
  · cases hValues
  · exact hValues

/-- `Snapshot`. -/
def snapshot (env : CallEnv) (m : Memory json) : Except Err Values :=
  match env.ctx with
  | some err => .error err
  | none => .ok m.running

/-- `Generation`. -/
def generationOf (env : CallEnv) (ds : Datastore) (m : Memory json) : Except Err UInt64 :=
  match env.ctx with
  | some err => .error err
  | none =>
    match ds with
    | .running => .ok m.generation.running
    | .candidate => .ok m.generation.candidate
    | .startup => .ok m.generation.startup
    | .unknown name =>
      .error (.sentinel .storeUnknownDatastore ++ .text ": " ++ .piece (.quoted name))

/-- `ConfigChangedAt`; `none` is the zero time. -/
def configChangedAt (env : CallEnv) (ds : Datastore) (m : Memory json) :
    Except Err (Option Nat) :=
  match env.ctx with
  | some err => .error err
  | none =>
    match ds with
    | .running => .ok m.configChanged.running
    | .candidate => .ok m.configChanged.candidate
    | .startup => .ok m.configChanged.startup
    | .unknown name =>
      .error (.sentinel .storeUnknownDatastore ++ .text ": " ++ .piece (.quoted name))

end Memory

end Store
end TriadSim

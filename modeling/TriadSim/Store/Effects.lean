import TriadSim.Store.Memory

/-!
# What a mutation does to the datastores

The change tracking and the startup file do not matter to most properties of the
store.  `Contents` keeps the three maps only, and `Mutation.Effect` says what each
successful call does to them.  `mutate_cases` connects the two levels: a call
either fails and leaves the contents as they are, or has its effect.
-/

namespace TriadSim
namespace Store

open Go Library

/-- The three datastores without their bookkeeping. -/
@[ext]
structure Contents where
  running : Values
  candidate : Values
  startup : Values

/-- The contents with all three datastores equal. -/
def Contents.uniform (values : Values) : Contents :=
  ⟨values, values, values⟩

/-- Edit one datastore, with the mirror into candidate for running. -/
def Contents.edit (contents : Contents) (ds : Datastore) (f : Values → Values) : Contents :=
  match ds with
  | .running => { contents with running := f contents.running, candidate := f contents.candidate }
  | .candidate => { contents with candidate := f contents.candidate }
  | .startup => { contents with startup := f contents.startup }
  | .unknown _ => contents

theorem Contents.running_edit_of_ne {contents : Contents} {ds : Datastore} {f : Values → Values}
    (hOther : ds ≠ .running) : (contents.edit ds f).running = contents.running := by
  cases ds with
  | running => exact absurd rfl hOther
  | _ => rfl

variable {json : Json}

namespace Memory

/-- The contents of a store. -/
def contents (m : Memory json) : Contents :=
  ⟨m.running, m.candidate, m.startup⟩

@[simp] theorem contents_bump (opts : Options) (env : CallEnv) (ds : Datastore)
    (paths : List GoString) (m : Memory json) :
    (m.bump opts env ds paths).contents = m.contents := rfl

@[simp] theorem contents_recordWrite (opts : Options) (env : CallEnv) (ds : Datastore)
    (paths : List GoString) (m : Memory json) :
    (m.recordWrite opts env ds paths).contents = m.contents := by
  unfold recordWrite
  split <;> rfl

@[simp] theorem contents_recordDiff (opts : Options) (env : CallEnv)
    (targets : List Datastore) (diff : List Change) (m : Memory json) :
    (m.recordDiff opts env targets diff).contents = m.contents := by
  unfold recordDiff
  induction targets generalizing m with
  | nil => rfl
  | cons ds targets ih =>
    rw [List.foldl_cons, ih, contents_bump]

theorem disk_recordDiff (opts : Options) (env : CallEnv) (targets : List Datastore)
    (diff : List Change) (m : Memory json) :
    (m.recordDiff opts env targets diff).disk = m.disk := by
  unfold recordDiff
  induction targets generalizing m with
  | nil => rfl
  | cons ds targets ih => exact ih _

@[simp] theorem contents_edit (m : Memory json) (ds : Datastore) (f : Values → Values) :
    (m.edit ds f).contents = m.contents.edit ds f := by
  cases ds <;> rfl

/-- The contents are all that a datastore lookup sees. -/
theorem datastore_of_contents_eq {m after : Memory json} (hSame : after.contents = m.contents)
    (ds : Datastore) : after.datastore ds = m.datastore ds := by
  rw [contents, contents, Contents.mk.injEq] at hSame
  obtain ⟨hRunning, hCandidate, hStartup⟩ := hSame
  cases ds with
  | running => exact congrArg Except.ok hRunning
  | candidate => exact congrArg Except.ok hCandidate
  | startup => exact congrArg Except.ok hStartup
  | unknown name => rfl

/-- A name that has a map behind it is one of the three. -/
theorem datastore_eq_ok {m : Memory json} {ds : Datastore} {values : Values}
    (hValues : m.datastore ds = .ok values) : ∀ name, ds ≠ .unknown name := by
  rintro name rfl
  cases hValues

end Memory

/-- The mutating calls of the store. -/
inductive Mutation where
  | set (ds : Datastore) (path : GoString) (value : GoValue)
  | delete (ds : Datastore) (path : GoString)
  | apply (ds : Datastore) (values : Std.ExtTreeMap GoString GoValue) (deletions : List GoString)
  | commit
  | rollback
  | restore (values : Values)
  | loadStartup

/-- Run one mutating call. -/
def Memory.mutate (opts : Options) (env : CallEnv) (m : Memory json) :
    Mutation → Memory.Outcome json
  | .set ds path value => m.set opts env ds path value
  | .delete ds path => m.delete opts env ds path
  | .apply ds values deletions => m.apply opts env ds values deletions
  | .commit => m.commit opts env
  | .rollback => m.rollback opts env
  | .restore values => m.restore opts env values
  | .loadStartup => m.loadStartup opts env

/-- What a successful call does to the contents, with the checks it has passed. -/
def Mutation.Effect (opts : Options) (env : CallEnv) (m : Memory json) :
    Mutation → Contents → Prop
  | .set ds path value, after =>
    ∃ leaf, value = .leaf leaf ∧ validPath path = true ∧ (∀ name, ds ≠ .unknown name) ∧
      after = m.contents.edit ds fun values => values.insert path leaf
  | .delete ds path, after =>
    (∀ name, ds ≠ .unknown name) ∧
      after = m.contents.edit ds fun values => values.erase path
  | .apply ds values deletions, after =>
    ∃ leaves, Memory.checkValues values = .ok leaves ∧
      (∀ path ∈ deletions, validPath path = true) ∧ (∀ name, ds ≠ .unknown name) ∧
      after = m.contents.edit ds fun target => FinMap.eraseAll (target ∪ leaves) deletions
  | .commit, after =>
    opts.validate env.hookCtx m.candidate = .ok () ∧ after = .uniform m.candidate
  | .rollback, after => after = ⟨m.running, m.running, m.startup⟩
  | .restore values, after => after = ⟨values, m.candidate, values⟩
  | .loadStartup, after =>
    (opts.startupFile = [] ∧ after = m.contents) ∨
    (opts.startupFile ≠ [] ∧ ∃ loaded, Memory.load opts env m.disk = .ok loaded ∧
      opts.validate env.hookCtx (opts.configOnly loaded) = .ok () ∧
      after = .uniform (opts.configOnly loaded))

/-! ## The store refines its effects -/

/-- An outcome is right for an effect: a success has the effect on the contents,
and a failure leaves the contents as they were. -/
def Memory.Outcome.Meets (outcome : Memory.Outcome json) (m : Memory json)
    (effect : Contents → Prop) : Prop :=
  (outcome.1 = .ok () ∧ effect outcome.2.contents) ∨
    ∃ err, outcome.1 = .error err ∧ outcome.2.contents = m.contents

namespace Memory

variable (opts : Options) (env : CallEnv) (m : Memory json)

theorem Outcome.meets_error (effect : Contents → Prop) (err : Err) {after : Memory json}
    (hContents : after.contents = m.contents) :
    Outcome.Meets (.error err, after) m effect :=
  Or.inr ⟨err, rfl, hContents⟩

theorem Outcome.meets_ok {effect : Contents → Prop} {after : Memory json}
    (hEffect : effect after.contents) : Outcome.Meets (.ok (), after) m effect :=
  Or.inl ⟨rfl, hEffect⟩

theorem set_meets (ds : Datastore) (path : GoString) (value : GoValue) :
    (m.set opts env ds path value).Meets m ((Mutation.set ds path value).Effect opts env m) := by
  unfold set
  split
  · exact Outcome.meets_error m _ _ rfl
  · split
    · exact Outcome.meets_error m _ _ rfl
    · next hPath =>
      split
      · exact Outcome.meets_error m _ _ rfl
      · next leaf hLeaf =>
        split
        · exact Outcome.meets_error m _ _ rfl
        · next hDatastore =>
          refine Outcome.meets_ok m ⟨leaf, ?_, by simpa using hPath,
            datastore_eq_ok hDatastore, by simp⟩
          cases value <;> simp_all [GoValue.toLeaf?]

theorem delete_meets (ds : Datastore) (path : GoString) :
    (m.delete opts env ds path).Meets m ((Mutation.delete ds path).Effect opts env m) := by
  unfold delete
  split
  · exact Outcome.meets_error m _ _ rfl
  · split
    · exact Outcome.meets_error m _ _ rfl
    · next hDatastore =>
      split
      · exact Outcome.meets_ok m ⟨datastore_eq_ok hDatastore, by simp⟩
      · exact Outcome.meets_error m _ _ rfl

theorem apply_meets (ds : Datastore) (values : Std.ExtTreeMap GoString GoValue)
    (deletions : List GoString) :
    (m.apply opts env ds values deletions).Meets m
      ((Mutation.apply ds values deletions).Effect opts env m) := by
  unfold apply
  split
  · exact Outcome.meets_error m _ _ rfl
  · split
    · exact Outcome.meets_error m _ _ rfl
    · next leaves hLeaves =>
      split
      · exact Outcome.meets_error m _ _ rfl
      · next hDeletions =>
        split
        · exact Outcome.meets_error m _ _ rfl
        · next hDatastore =>
          refine Outcome.meets_ok m ⟨leaves, hLeaves, ?_, datastore_eq_ok hDatastore,
            by simp⟩
          simpa [List.find?_eq_none] using hDeletions

theorem commit_meets : (m.commit opts env).Meets m (Mutation.commit.Effect opts env m) := by
  unfold commit
  split
  · exact Outcome.meets_error m _ _ rfl
  · split
    · exact Outcome.meets_error m _ _ rfl
    · next hValid =>
      dsimp only
      split
      · exact Outcome.meets_error m _ _ rfl
      · refine Outcome.meets_ok m ⟨hValid, ?_⟩
        rw [contents_recordDiff]
        rfl

theorem rollback_meets :
    (m.rollback opts env).Meets m (Mutation.rollback.Effect opts env m) := by
  unfold rollback
  split
  · exact Outcome.meets_error m _ _ rfl
  · refine Outcome.meets_ok m ?_
    rw [contents_recordDiff]
    rfl

theorem restore_meets (values : Values) :
    (m.restore opts env values).Meets m ((Mutation.restore values).Effect opts env m) := by
  unfold restore
  split
  · exact Outcome.meets_error m _ _ rfl
  · dsimp only
    split
    · exact Outcome.meets_error m _ _ rfl
    · refine Outcome.meets_ok m ?_
      rw [contents_recordDiff]
      rfl

theorem loadStartup_meets :
    (m.loadStartup opts env).Meets m (Mutation.loadStartup.Effect opts env m) := by
  unfold loadStartup
  split
  · exact Outcome.meets_error m _ _ rfl
  · split
    · next hFile => exact Outcome.meets_ok m (Or.inl ⟨hFile, rfl⟩)
    · next hFile =>
      split
      · exact Outcome.meets_error m _ _ rfl
      · next loaded hLoaded =>
        dsimp only
        split
        · exact Outcome.meets_error m _ _ rfl
        · next hValid =>
          refine Outcome.meets_ok m (Or.inr ⟨hFile, loaded, hLoaded, hValid, ?_⟩)
          rw [contents_recordDiff]
          rfl

/-- A mutating call has its effect or leaves the contents alone. -/
theorem mutate_meets (op : Mutation) : (m.mutate opts env op).Meets m (op.Effect opts env m) := by
  cases op with
  | set ds path value => exact set_meets opts env m ds path value
  | delete ds path => exact delete_meets opts env m ds path
  | apply ds values deletions => exact apply_meets opts env m ds values deletions
  | commit => exact commit_meets opts env m
  | rollback => exact rollback_meets opts env m
  | restore values => exact restore_meets opts env m values
  | loadStartup => exact loadStartup_meets opts env m

end Memory

end Store
end TriadSim

import TriadSim.Store.Effects

/-!
# Candidate is running plus the pending edits

The store keeps candidate a superset of running: every write of running is mirrored, so the two
can differ at a path only because candidate itself was edited there.  `Commit` relies on it when
it makes running a copy of candidate.  The invariant is proved over whole runs of the mutating
calls; `Restore`, which puts a snapshot back into running alone, is the one call that breaks it.
The main result is `candidate_is_running_plus_pending_edits`.
-/

namespace TriadSim
namespace Store

open Go Library

variable {json : Json}

/-- One call of a run. -/
structure Call where
  env : CallEnv
  op : Mutation

/-- A call of the past: what it was, and whether it returned no error. -/
structure Event where
  op : Mutation
  succeeded : Bool

namespace Memory

/-- The store after a run of calls. -/
def run (opts : Options) (m : Memory json) : List Call → Memory json
  | [] => m
  | call :: calls => run opts (m.mutate opts call.env call.op).2 calls

/-- The calls of a run with their success. -/
def history (opts : Options) (m : Memory json) : List Call → List Event
  | [] => []
  | call :: calls =>
    let outcome := m.mutate opts call.env call.op
    ⟨call.op, succeeded outcome.1⟩ :: history opts outcome.2 calls

theorem run_concat (opts : Options) (m : Memory json) (calls : List Call) (call : Call) :
    m.run opts (calls ++ [call]) = ((m.run opts calls).mutate opts call.env call.op).2 := by
  induction calls generalizing m with
  | nil => rfl
  | cons first calls ih => exact ih _

theorem history_concat (opts : Options) (m : Memory json) (calls : List Call) (call : Call) :
    m.history opts (calls ++ [call]) = m.history opts calls ++
      [⟨call.op, succeeded ((m.run opts calls).mutate opts call.env call.op).1⟩] := by
  induction calls generalizing m with
  | nil => rfl
  | cons first calls ih => exact congrArg _ (ih _)

end Memory

/-- The call edits this path of this datastore. -/
def Mutation.Addresses (ds : Datastore) (path : GoString) : Mutation → Prop
  | .set target edited _ => target = ds ∧ edited = path
  | .delete target edited => target = ds ∧ edited = path
  | .apply target values deletions => target = ds ∧ (path ∈ values ∨ path ∈ deletions)
  | _ => False

/-- The call makes candidate equal to running when it succeeds.  `LoadStartup`
does so only when there is a startup file to load: without one it returns no
error and does nothing. -/
def Mutation.Resynchronises (opts : Options) : Mutation → Prop
  | .commit => True
  | .rollback => True
  | .loadStartup => opts.startupFile ≠ []
  | _ => False

/-- Running and candidate hold the same at a path: the same value, or both none. -/
def Contents.AgreeAt (contents : Contents) (path : GoString) : Prop :=
  contents.running[path]? = contents.candidate[path]?

/-! ## One call -/

/-- The call edits datastore `ds` with `f`: only the paths it addresses change,
and what it leaves there does not depend on what was there. -/
structure Mutation.Edits (op : Mutation) (ds : Datastore) (f : Values → Values) : Prop where
  only : ∀ other path, op.Addresses other path → other = ds
  frame : ∀ values path, ¬ op.Addresses ds path → (f values)[path]? = values[path]?
  decided : ∀ first second path, op.Addresses ds path → (f first)[path]? = (f second)[path]?

theorem Mutation.set_edits (ds : Datastore) (path : GoString) (value : GoValue) (leaf : Leaf) :
    (Mutation.set ds path value).Edits ds fun values => values.insert path leaf where
  only := fun _ _ hAddresses => hAddresses.1.symm
  frame := by
    intro values other hOther
    have hNe : path ≠ other := fun hEq => hOther ⟨rfl, hEq⟩
    simp [FinMap.getElem?_insert_ite, hNe]
  decided := by
    rintro first second other ⟨_, rfl⟩
    simp

theorem Mutation.delete_edits (ds : Datastore) (path : GoString) :
    (Mutation.delete ds path).Edits ds fun values => values.erase path where
  only := fun _ _ hAddresses => hAddresses.1.symm
  frame := by
    intro values other hOther
    have hNe : path ≠ other := fun hEq => hOther ⟨rfl, hEq⟩
    simp [FinMap.getElem?_erase_ite, hNe]
  decided := by
    rintro first second other ⟨_, rfl⟩
    simp

variable {values : Std.ExtTreeMap GoString GoValue} {leaves : Values} {opts : Options}
    {path : GoString}

/-- The paths of a checked batch are the paths it was given. -/
theorem Memory.mem_checkValues (hCheck : Memory.checkValues values = .ok leaves) (path : GoString) :
    path ∈ leaves ↔ path ∈ values := by
  obtain ⟨hSome, hNone⟩ := FinMap.traverse_eq_ok_image hCheck path
  rw [FinMap.mem_iff_isSome, FinMap.mem_iff_isSome]
  cases hValue : values[path]? with
  | none => simp [hNone hValue]
  | some value =>
    obtain ⟨leaf, _, hLeaf⟩ := hSome value hValue
    simp [hLeaf]

theorem Mutation.apply_edits (ds : Datastore) (hCheck : Memory.checkValues values = .ok leaves)
    (deletions : List GoString) :
    (Mutation.apply ds values deletions).Edits ds fun target =>
      FinMap.eraseAll (target ∪ leaves) deletions where
  only := fun _ _ hAddresses => hAddresses.1.symm
  frame := by
    intro target path hOther
    have hDeleted : path ∉ deletions := fun hMem => hOther ⟨rfl, Or.inr hMem⟩
    have hLeaf : path ∉ leaves := fun hMem =>
      hOther ⟨rfl, Or.inl ((Memory.mem_checkValues hCheck path).mp hMem)⟩
    rw [FinMap.getElem?_eraseAll, if_neg hDeleted,
      Std.ExtTreeMap.getElem?_union_of_not_mem_right hLeaf]
  decided := by
    rintro first second path ⟨_, hValue | hDeleted⟩
    · have hLeaf := (Memory.mem_checkValues hCheck path).mpr hValue
      obtain ⟨leaf, hLeaf⟩ := Option.isSome_iff_exists.mp
        ((FinMap.mem_iff_isSome leaves path).mp hLeaf)
      simp [FinMap.getElem?_eraseAll, Std.ExtTreeMap.getElem?_union, hLeaf]
    · simp [FinMap.getElem?_eraseAll, hDeleted]

section OneCall

variable {opts : Options} {env : CallEnv} {m : Memory json} {op : Mutation} {after : Contents}
  {path : GoString}

/-- Everything a successful call can be: an edit of one datastore, a call that
makes candidate equal to running, a load without a file, or `Restore`. -/
theorem Mutation.effect_cases (hEffect : op.Effect opts env m after) :
    (∃ ds f, op.Edits ds f ∧ ¬ op.Resynchronises opts ∧ after = m.contents.edit ds f) ∨
      ((∀ ds path, ¬ op.Addresses ds path) ∧ op.Resynchronises opts ∧
        after.running = after.candidate) ∨
      ((∀ ds path, ¬ op.Addresses ds path) ∧ ¬ op.Resynchronises opts ∧ after = m.contents) ∨
      ∃ values, op = .restore values := by
  cases op with
  | set ds path value =>
    obtain ⟨leaf, _, _, _, hAfter⟩ := hEffect
    exact Or.inl ⟨ds, _, set_edits ds path value leaf, id, hAfter⟩
  | delete ds path =>
    exact Or.inl ⟨ds, _, delete_edits ds path, id, hEffect.2⟩
  | apply ds values deletions =>
    obtain ⟨leaves, hCheck, _, _, hAfter⟩ := hEffect
    exact Or.inl ⟨ds, _, apply_edits ds hCheck deletions, id, hAfter⟩
  | commit =>
    obtain ⟨_, rfl⟩ := hEffect
    exact Or.inr (Or.inl ⟨fun _ _ => id, trivial, rfl⟩)
  | rollback =>
    cases hEffect
    exact Or.inr (Or.inl ⟨fun _ _ => id, trivial, rfl⟩)
  | restore values => exact Or.inr (Or.inr (Or.inr ⟨values, rfl⟩))
  | loadStartup =>
    rcases hEffect with ⟨hFile, hAfter⟩ | ⟨hFile, loaded, _, _, rfl⟩
    · exact Or.inr (Or.inr (Or.inl ⟨fun _ _ => id, fun hResync => hResync hFile, hAfter⟩))
    · exact Or.inr (Or.inl ⟨fun _ _ => id, hFile, rfl⟩)

/-- When the two datastores differ at a path after a successful call, the call
edited candidate there, or it touched neither side and they differed before. -/
theorem Mutation.effect_of_not_agreeAt (hEffect : op.Effect opts env m after)
    (hNoRestore : ∀ values, op ≠ .restore values) (hDiffer : ¬ after.AgreeAt path) :
    ¬ op.Resynchronises opts ∧ ¬ op.Addresses .running path ∧
      (op.Addresses .candidate path ∨ ¬ m.contents.AgreeAt path) := by
  rcases effect_cases hEffect with ⟨ds, f, hEdits, hResync, rfl⟩ | ⟨_, _, hSame⟩ |
    ⟨hNone, hResync, rfl⟩ | ⟨values, rfl⟩
  · refine ⟨hResync, ?_, ?_⟩
    · intro hRunning
      cases hEdits.only _ _ hRunning
      exact hDiffer (hEdits.decided _ _ path hRunning)
    · by_cases hCandidate : op.Addresses .candidate path
      · exact Or.inl hCandidate
      · refine Or.inr fun hAgree => hDiffer ?_
        have hAgree' : m.contents.running[path]? = m.contents.candidate[path]? := hAgree
        cases ds with
        | running =>
          show (f m.contents.running)[path]? = (f m.contents.candidate)[path]?
          by_cases hRunning : op.Addresses .running path
          · exact hEdits.decided _ _ path hRunning
          · rw [hEdits.frame _ path hRunning, hEdits.frame _ path hRunning, hAgree']
        | candidate =>
          show m.contents.running[path]? = (f m.contents.candidate)[path]?
          rw [hEdits.frame _ path hCandidate, hAgree']
        | startup | unknown name => exact hAgree
  · exact absurd (congrArg (·[path]?) hSame) hDiffer
  · exact ⟨hResync, hNone _ _, Or.inr hDiffer⟩
  · exact absurd rfl (hNoRestore values)

end OneCall

/-! ## Whole runs -/

/-- The last word on a path in a history is a candidate edit: one that no later
successful call has resynchronised or overwritten on running. -/
def PendingAt (opts : Options) (path : GoString) (events : List Event) : Prop :=
  ∃ before edit after, events = before ++ edit :: after ∧ edit.succeeded = true ∧
    edit.op.Addresses .candidate path ∧
    ∀ later ∈ after, later.succeeded = true →
      ¬ later.op.Resynchronises opts ∧ ¬ later.op.Addresses .running path

theorem PendingAt.concat {events : List Event} {event : Event}
    (hPending : PendingAt opts path events)
    (hEvent : event.succeeded = true →
      ¬ event.op.Resynchronises opts ∧ ¬ event.op.Addresses .running path) :
    PendingAt opts path (events ++ [event]) := by
  obtain ⟨before, edit, after, rfl, hSucceeded, hCandidate, hLater⟩ := hPending
  refine ⟨before, edit, after ++ [event], by simp, hSucceeded, hCandidate, ?_⟩
  intro later hMem
  rcases List.mem_append.mp hMem with hAfter | hLast
  · exact hLater later hAfter
  · rw [List.mem_singleton.mp hLast]
    exact hEvent

/-- A successful edit of running that no candidate edit of the path follows is not
pending over. -/
theorem not_pendingAt_of_running_edit {before after : List Event} {edit : Event}
    (hSucceeded : edit.succeeded = true) (hRunning : edit.op.Addresses .running path)
    (hLater : ∀ later ∈ after, later.succeeded = true → ¬ later.op.Addresses .candidate path) :
    ¬ PendingAt opts path (before ++ edit :: after) := by
  rintro ⟨before', edit', after', hSplit, hSucceeded', hCandidate, hLater'⟩
  have hDistinct : edit' ≠ edit := by
    rintro rfl
    -- No call addresses two datastores at once.
    cases hOp : edit'.op <;> simp [hOp, Mutation.Addresses] at hRunning hCandidate
    all_goals simp [hRunning.1] at hCandidate
  rcases List.append_eq_append_iff.mp hSplit with ⟨gap, _, hGap⟩ | ⟨gap, _, hGap⟩
  · cases gap with
    | nil => exact hDistinct (List.cons.inj hGap).1.symm
    | cons first gap =>
      refine hLater edit' ?_ hSucceeded' hCandidate
      rw [(List.cons.inj hGap).2]
      simp
  · cases gap with
    | nil => exact hDistinct (List.cons.inj hGap).1
    | cons first gap =>
      refine (hLater' edit ?_ hSucceeded).2 hRunning
      rw [(List.cons.inj hGap).2]
      simp

/-- In every run from an empty store, a disagreement is a pending candidate edit. -/
theorem pendingAt_of_not_agreeAt (opts : Options) (disk : Option json.Data)
    (path : GoString) (calls : List Call)
    (hNoRestore : ∀ call ∈ calls, ∀ values, call.op ≠ .restore values)
    (hDiffer : ¬ ((newMemory disk).run opts calls).contents.AgreeAt path) :
    PendingAt opts path ((newMemory disk).history opts calls) := by
  induction calls using List.reverseRecOn with
  | nil => exact absurd rfl hDiffer
  | append_singleton calls call ih =>
    rw [Memory.run_concat] at hDiffer
    rw [Memory.history_concat]
    set m := (newMemory disk).run opts calls
    have ih' := ih fun earlier hMem => hNoRestore earlier (List.mem_append_left _ hMem)
    rcases Memory.mutate_meets opts call.env m call.op with ⟨hOk, hEffect⟩ |
      ⟨err, hError, hContents⟩
    · obtain ⟨hResync, hRunning, hCandidate | hBefore⟩ :=
        Mutation.effect_of_not_agreeAt hEffect (hNoRestore call (by simp)) hDiffer
      · exact ⟨_, _, [], rfl, by simp [hOk, succeeded, Except.isOk, Except.toBool], hCandidate,
          by simp⟩
      · exact (ih' hBefore).concat fun _ => ⟨hResync, hRunning⟩
    · rw [hContents] at hDiffer
      refine (ih' hDiffer).concat fun hSucceeded => ?_
      simp [hError, succeeded, Except.isOk, Except.toBool] at hSucceeded

/-- Candidate is running plus the pending edits.  In every run of the mutating
calls without `Restore`, wherever running and candidate disagree some successful
call has edited candidate at that path, and since then no call has resynchronised
the two or edited running there.  So a `Commit` leaves running alone at every path
whose last successful edit was made on running. -/
theorem candidate_is_running_plus_pending_edits (opts : Options) (disk : Option json.Data)
    (calls : List Call)
    (hNoRestore : ∀ call ∈ calls, ∀ values, call.op ≠ .restore values) (path : GoString) :
    (((newMemory disk).run opts calls).running[path]? ≠
        ((newMemory disk).run opts calls).candidate[path]? →
      PendingAt opts path ((newMemory disk).history opts calls)) ∧
    ∀ before edit after, (newMemory disk).history opts calls = before ++ edit :: after →
      edit.succeeded = true → edit.op.Addresses .running path →
      (∀ later ∈ after, later.succeeded = true → ¬ later.op.Addresses .candidate path) →
      ∀ env, (((newMemory disk).run opts calls).commit opts env).1 = .ok () →
        (((newMemory disk).run opts calls).commit opts env).2.running[path]? =
          ((newMemory disk).run opts calls).running[path]? := by
  have hPending := pendingAt_of_not_agreeAt opts disk path calls hNoRestore
  refine ⟨hPending, ?_⟩
  intro before edit after hHistory hSucceeded hRunning hLater env hCommit
  set m := (newMemory disk).run opts calls
  have hAgree : m.contents.AgreeAt path := by
    by_contra hDiffer
    have hSplit := hPending hDiffer
    rw [hHistory] at hSplit
    exact not_pendingAt_of_running_edit hSucceeded hRunning hLater hSplit
  rcases Memory.commit_meets opts env m with ⟨_, _, hAfter⟩ | ⟨err, hError, _⟩
  · have hNext : (m.commit opts env).2.running = m.candidate := congrArg Contents.running hAfter
    rw [hNext]
    exact hAgree.symm
  · rw [hError] at hCommit
    cases hCommit

/-- A run with a candidate edit, a running edit of another path and a refused
call meets the hypothesis, and its disagreement is the candidate edit. -/
theorem candidate_edit_is_pending_after_running_edit :
    PendingAt ⟨[], none, none⟩ (text "system-info/name")
      ((newMemory none : Memory Json.plain).history ⟨[], none, none⟩
        [⟨.quiet, .set .candidate "system-info/name" (.leaf (.string "edge"))⟩,
          ⟨.quiet, .set .running "system-info/contact" (.leaf (.string "noc"))⟩,
          ⟨.quiet, .set .running "/system-info" (.leaf (.bool true))⟩]) :=
  (candidate_is_running_plus_pending_edits _ none _ (by simp) _).1 (by decide +kernel)

/-- Without a startup file `LoadStartup` returns no error and does nothing, so a
pending candidate edit survives it: the last call of this run is a successful
`LoadStartup`, and the two datastores still differ. -/
theorem loadStartup_without_file_keeps_pending_edit :
    ∃ calls, (newMemory none : Memory Json.plain).history ⟨[], none, none⟩ calls =
        [⟨.set .candidate "system-info/name" (.leaf (.string "edge")), true⟩,
          ⟨.loadStartup, true⟩] ∧
      ((newMemory none : Memory Json.plain).run ⟨[], none, none⟩ calls).running[
          text "system-info/name"]? ≠
        ((newMemory none : Memory Json.plain).run ⟨[], none, none⟩ calls).candidate[
          text "system-info/name"]? := by
  refine ⟨[⟨.quiet, .set .candidate "system-info/name" (.leaf (.string "edge"))⟩,
    ⟨.quiet, .loadStartup⟩], ?_, by decide +kernel⟩
  rfl

end Store
end TriadSim

import TriadSim.Store.ChangeTracking

/-!
# The reported differences as a patch

`Diff` reports one change for each path at which running and candidate differ.  Carried out on
running, the changes give candidate, as far as Go's `==` can tell: a zero that has only changed
its sign is not reported.  The main result is `diff_is_patch`.
-/

namespace TriadSim
namespace Store

open Go Library

variable {json : Json}

/-- `Diff`. -/
def Memory.diff (env : CallEnv) (m : Memory json) : Except Err (List Change) :=
  match env.ctx with
  | some err => .error err
  | none => .ok (diffValues m.running m.candidate)

/-- Carry out a change: a create or an update stores the new value, a delete removes the leaf. -/
def Change.applyTo (content : Values) (change : Change) : Values :=
  match change.new with
  | some leaf => content.insert change.path leaf
  | none => content.erase change.path

/-- Carry out changes one after another. -/
def patch (content : Values) (changes : List Change) : Values :=
  changes.foldl Change.applyTo content

/-- Two leaves that Go's `==` takes for the same, or no leaf on either side. -/
def sameLeaf : Option Leaf → Option Leaf → Bool
  | none, none => true
  | some x, some y => Leaf.goEq x y
  | _, _ => false

/-- Every leaf of a content equals itself: none of them is a NaN. -/
def SelfEqual (content : Values) : Prop :=
  ∀ path : GoString, sameLeaf content[path]? content[path]? = true

/-- Two contents that Go's `==` cannot tell apart. -/
def SameLeaves (first second : Values) : Prop :=
  ∀ path : GoString, sameLeaf first[path]? second[path]? = true

theorem getElem?_applyTo (content : Values) (change : Change) (path : GoString) :
    (change.applyTo content)[path]? =
      if change.path = path then change.new else content[path]? := by
  unfold Change.applyTo
  cases change.new with
  | none => exact FinMap.getElem?_erase_ite ..
  | some leaf => exact FinMap.getElem?_insert_ite ..

/-- What changes that agree on a path make of it, by induction on the changes. -/
theorem getElem?_patch {path : GoString} {target : Option Leaf} (changes : List Change)
    (hTarget : ∀ change ∈ changes, change.path = path → change.new = target) (content : Values) :
    (patch content changes)[path]? =
      if path ∈ changes.map Change.path then target else content[path]? := by
  induction changes generalizing content with
  | nil => simp [patch]
  | cons change rest ih =>
    rw [List.forall_mem_cons] at hTarget
    show (patch (change.applyTo content) rest)[path]? = _
    rw [ih hTarget.2, getElem?_applyTo]
    by_cases hPath : change.path = path
    · simp [hPath, hTarget.1 hPath]
    · have hOther : path ≠ change.path := fun hSame => hPath hSame.symm
      simp [hPath, hOther]

section Differences

variable {running candidate : Values}

theorem path_of_changeAt_eq_some {path : GoString} {change : Change}
    (hChange : changeAt running candidate path = some change) : change.path = path := by
  unfold changeAt at hChange
  split at hChange
  · split at hChange
    · cases hChange
    · cases hChange
      rfl
  · cases hChange
    rfl
  · cases hChange
    rfl

theorem mem_paths_diffValues {path : GoString} :
    path ∈ (diffValues running candidate).map Change.path ↔
      (path ∈ running ∨ path ∈ candidate) ∧ (changeAt running candidate path).isSome = true := by
  rw [List.mem_map]
  constructor
  · rintro ⟨change, hChange, rfl⟩
    rw [diffValues, List.mem_filterMap] at hChange
    obtain ⟨path, hPath, hChange⟩ := hChange
    rw [path_of_changeAt_eq_some hChange, hChange]
    exact ⟨Std.ExtTreeMap.mem_union_iff.mp (Std.ExtTreeMap.mem_keys.mp hPath), rfl⟩
  · rintro ⟨hMem, hSome⟩
    obtain ⟨change, hChange⟩ := Option.isSome_iff_exists.mp hSome
    refine ⟨change, ?_, path_of_changeAt_eq_some hChange⟩
    rw [diffValues, List.mem_filterMap]
    exact ⟨path, Std.ExtTreeMap.mem_keys.mpr (Std.ExtTreeMap.mem_union_iff.mpr hMem), hChange⟩

theorem changeAt_eq_none_iff {path : GoString} (hMem : path ∈ running ∨ path ∈ candidate) :
    changeAt running candidate path = none ↔
      sameLeaf running[path]? candidate[path]? = true := by
  rw [FinMap.mem_iff_isSome, FinMap.mem_iff_isSome] at hMem
  unfold changeAt
  cases hOld : running[path]? <;> cases hNew : candidate[path]? <;> simp_all [sameLeaf]

theorem not_mem_paths_diffValues_iff {path : GoString} :
    path ∉ (diffValues running candidate).map Change.path ↔
      sameLeaf running[path]? candidate[path]? = true := by
  rw [mem_paths_diffValues, not_and, Bool.not_eq_true, Option.isSome_eq_false_iff,
    Option.isNone_iff_eq_none]
  by_cases hMem : path ∈ running ∨ path ∈ candidate
  · rw [changeAt_eq_none_iff hMem]
    exact ⟨fun hSame => hSame hMem, fun hSame _ => hSame⟩
  · have hNone : running[path]? = none ∧ candidate[path]? = none := by
      rw [not_or, FinMap.mem_iff_isSome, FinMap.mem_iff_isSome] at hMem
      simpa using hMem
    rw [hNone.1, hNone.2]
    exact ⟨fun _ => rfl, fun _ hIn => absurd hIn hMem⟩

/-- A change reports what is stored on the two sides of its path, and they differ. -/
theorem reports_of_mem_diffValues {change : Change}
    (hChange : change ∈ diffValues running candidate) :
    change.old = running[change.path]? ∧ change.new = candidate[change.path]? ∧
      sameLeaf change.old change.new = false ∧
      change.op = (if change.old = none then .create else if change.new = none then .delete
        else .update) := by
  rw [diffValues, List.mem_filterMap] at hChange
  obtain ⟨path, hPath, hChange⟩ := hChange
  have hMem := Std.ExtTreeMap.mem_union_iff.mp (Std.ExtTreeMap.mem_keys.mp hPath)
  rw [FinMap.mem_iff_isSome, FinMap.mem_iff_isSome] at hMem
  rw [path_of_changeAt_eq_some hChange]
  unfold changeAt at hChange
  cases hOld : running[path]? <;> cases hNew : candidate[path]? <;> simp_all [sameLeaf] <;>
    simp [← hChange]

/-- The paths are those of a sorted map. -/
theorem diffValues_sorted :
    ((diffValues running candidate).map Change.path).Pairwise fun first second =>
      compare first second = .lt := by
  have hKeys := Std.ExtTreeMap.ordered_keys (t := running ∪ candidate)
  rw [List.pairwise_map, diffValues]
  refine List.Pairwise.filterMap _ ?_ hKeys
  intro first second hLess change hChange other hOther
  rw [path_of_changeAt_eq_some hChange, path_of_changeAt_eq_some hOther]
  exact hLess

theorem diffValues_eq_nil_iff :
    diffValues running candidate = [] ↔ SameLeaves running candidate := by
  rw [← List.map_eq_nil_iff (f := Change.path), List.eq_nil_iff_forall_not_mem]
  exact forall_congr' fun path => not_mem_paths_diffValues_iff

/-- Carried out on running, the differences give candidate. -/
theorem sameLeaves_patch (hSelf : SelfEqual candidate) :
    SameLeaves (patch running (diffValues running candidate)) candidate := by
  intro path
  rw [getElem?_patch _ fun change hChange hPath => (by
    rw [(reports_of_mem_diffValues hChange).2.1, hPath] : change.new = candidate[path]?)]
  split
  · exact hSelf path
  · next hAbsent => exact not_mem_paths_diffValues_iff.mp hAbsent

end Differences

/-! ## The calls after which nothing is pending -/

/-- The wholesale calls that leave candidate with the content of running.  `LoadStartup` does not
touch the store when persistence is disabled. -/
def Mutation.Settles (opts : Options) : Mutation → Prop
  | .commit | .rollback => True
  | .loadStartup => opts.startupFile ≠ []
  | _ => False

theorem candidate_eq_running_of_settles {opts : Options} {env : CallEnv} {m : Memory json}
    {op : Mutation} (hSettles : op.Settles opts) (hOk : (m.mutate opts env op).1 = .ok ()) :
    (m.mutate opts env op).2.candidate = (m.mutate opts env op).2.running := by
  rcases m.mutate_meets opts env op with ⟨_, hEffect⟩ | ⟨err, hError, _⟩
  · have hSame : (m.mutate opts env op).2.contents.candidate =
        (m.mutate opts env op).2.contents.running := by
      cases op with
      | commit => rw [hEffect.2]; rfl
      | rollback => rw [show _ = _ from hEffect]
      | loadStartup =>
        rcases hEffect with ⟨hDisabled, _⟩ | ⟨_, loaded, _, _, hAfter⟩
        · exact absurd hDisabled hSettles
        · rw [hAfter]; rfl
      | _ => exact hSettles.elim
    exact hSame
  · cases hOk.symm.trans hError

/-- `Diff` is the patch from running to candidate, up to the signs of zeros, and nothing is left to
report after a call that settles. -/
theorem diff_is_patch (running candidate : Values) (hRunning : SelfEqual running)
    (hCandidate : SelfEqual candidate) :
    SameLeaves (patch running (diffValues running candidate)) candidate ∧
      ((diffValues running candidate).map Change.path).Pairwise (fun first second =>
        compare first second = .lt) ∧
      (∀ change ∈ diffValues running candidate,
        change.old = running[change.path]? ∧ change.new = candidate[change.path]? ∧
          sameLeaf change.old change.new = false ∧
          change.op = (if change.old = none then .create else if change.new = none then .delete
            else .update)) ∧
      (diffValues running candidate = [] ↔ SameLeaves running candidate) ∧
      ∀ {json : Json} (opts : Options) (env later : CallEnv) (m : Memory json) (op : Mutation),
        op.Settles opts → (m.mutate opts env op).1 = .ok () →
        (m.mutate opts env op).2.running = running → later.ctx = none →
        (m.mutate opts env op).2.diff later = .ok [] := by
  refine ⟨sameLeaves_patch hCandidate, diffValues_sorted, fun _ => reports_of_mem_diffValues,
    diffValues_eq_nil_iff, ?_⟩
  intro json opts env later m op hSettles hOk hAfter hLive
  rw [Memory.diff, hLive, candidate_eq_running_of_settles hSettles hOk, hAfter]
  exact congrArg Except.ok (diffValues_eq_nil_iff.mpr hRunning)

theorem selfEqual_of_all {content : Values}
    (hAll : content.toList.all (fun entry => Leaf.goEq entry.2 entry.2) = true) :
    SelfEqual content := by
  intro path
  cases hLeaf : content[path]? with
  | none => rfl
  | some leaf =>
    exact List.all_eq_true.mp hAll _ (Std.ExtTreeMap.mem_toList_iff_getElem?_eq_some.mpr hLeaf)

/-- A store with one leaf in running and another in candidate. -/
def renamed (old new : Leaf) : Memory Json.plain :=
  (newMemory none).run ⟨[], none, none⟩
    [⟨.quiet, .set .running "a" (.leaf old)⟩, ⟨.quiet, .set .candidate "a" (.leaf new)⟩]

/-- A pending change of a text. -/
def pendingText : Memory Json.plain :=
  renamed (.string "x") (.string "y")

/-- A pending change of the sign of a zero. -/
def pendingSign : Memory Json.plain :=
  renamed (.float64 (.ofParts false 0)) (.float64 (.ofParts true 0))

theorem diff_of_text_is_patch :
    SameLeaves (patch pendingText.running (diffValues pendingText.running pendingText.candidate))
      pendingText.candidate :=
  (diff_is_patch _ _ (selfEqual_of_all (by decide +kernel))
    (selfEqual_of_all (by decide +kernel))).1

/-- A zero that changes its sign is not reported, and `LoadStartup` without a startup file succeeds
with a change pending. -/
theorem diff_misses_sign_of_zero :
    diffValues pendingSign.running pendingSign.candidate = [] ∧
      pendingSign.running ≠ pendingSign.candidate ∧
      (pendingText.mutate ⟨[], none, none⟩ .quiet .loadStartup).1 = .ok () ∧
      (pendingText.mutate ⟨[], none, none⟩ .quiet .loadStartup).2.diff .quiet ≠ .ok [] := by
  refine ⟨by decide +kernel, fun hSame => ?_, by decide +kernel, by decide +kernel⟩
  have hLeaf := congrArg (fun content : Values => content[text "a"]?) hSame
  revert hLeaf
  decide +kernel

end Store
end TriadSim

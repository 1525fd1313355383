import Mathlib.Tactic
import Std.Data.ExtTreeMap

/-!
# Finite maps

Lookup rules for extensional tree maps over a key type whose comparison decides
equality, in the `if key = other` form that case analysis on keys wants, and
deletion of a list of keys.
-/

namespace TriadSim
namespace Library

open Std

namespace FinMap

variable {α : Type} {β : Type} {cmp : α → α → Ordering} [TransCmp cmp] [LawfulEqCmp cmp]
  [DecidableEq α]

theorem getElem?_insert_ite (map : ExtTreeMap α β cmp) (key other : α) (value : β) :
    (map.insert key value)[other]? = if key = other then some value else map[other]? := by
  rw [ExtTreeMap.getElem?_insert]
  simp only [LawfulEqCmp.compare_eq_iff_eq]

theorem insert_insert_self (map : ExtTreeMap α β cmp) (key : α) (value : β) :
    (map.insert key value).insert key value = map.insert key value := by
  refine ExtTreeMap.ext_getElem? ?_
  intro found
  rw [getElem?_insert_ite, getElem?_insert_ite]
  split <;> rfl

theorem getElem?_erase_ite (map : ExtTreeMap α β cmp) (key other : α) :
    (map.erase key)[other]? = if key = other then none else map[other]? := by
  rw [ExtTreeMap.getElem?_erase]
  simp only [LawfulEqCmp.compare_eq_iff_eq]

omit [LawfulEqCmp cmp] [DecidableEq α] in
theorem mem_iff_isSome (map : ExtTreeMap α β cmp) (key : α) :
    key ∈ map ↔ map[key]?.isSome = true := by
  rw [← ExtTreeMap.contains_iff_mem, ExtTreeMap.contains_eq_isSome_getElem?]

theorem union_insert (map other : ExtTreeMap α β cmp) (key : α) (value : β) :
    map ∪ other.insert key value = (map ∪ other).insert key value := by
  refine ExtTreeMap.ext_getElem? ?_
  intro found
  rw [ExtTreeMap.getElem?_union, getElem?_insert_ite, getElem?_insert_ite,
    ExtTreeMap.getElem?_union]
  split <;> rfl

omit [DecidableEq α] in
theorem union_empty (map : ExtTreeMap α β cmp) : map ∪ ∅ = map := by
  refine ExtTreeMap.ext_getElem? ?_
  intro found
  rw [ExtTreeMap.getElem?_union]
  simp

/-- Delete every listed key. -/
def eraseAll (map : ExtTreeMap α β cmp) (keys : List α) : ExtTreeMap α β cmp :=
  keys.foldl (fun current key => current.erase key) map

theorem getElem?_eraseAll (map : ExtTreeMap α β cmp) (keys : List α) (other : α) :
    (eraseAll map keys)[other]? = if other ∈ keys then none else map[other]? := by
  induction keys generalizing map with
  | nil => simp [eraseAll]
  | cons key keys ih =>
    have hStep : eraseAll map (key :: keys) = eraseAll (map.erase key) keys := rfl
    rw [hStep, ih, getElem?_erase_ite]
    by_cases hMem : other ∈ keys
    · simp [hMem]
    · by_cases hKey : key = other
      · simp [hKey]
      · have hOther : other ≠ key := fun hEq => hKey hEq.symm
        simp [hMem, hKey, hOther]

/-! ## Traversal

Apply a fallible function to every entry, in key order, and collect the results
under the same keys. -/

section Traversal

variable {γ ε : Type}

def traverse (f : α → β → Except ε γ) (map : ExtTreeMap α β cmp) :
    Except ε (ExtTreeMap α γ cmp) :=
  map.toList.foldlM (fun collected entry =>
    (f entry.1 entry.2).map (collected.insert entry.1)) ∅

/-- What the fold has collected after the entries of `entries`. -/
theorem foldlM_insert_spec (f : α → β → Except ε γ) (entries : List (α × β))
    (hDistinct : entries.Pairwise fun first second => first.1 ≠ second.1)
    (start result : ExtTreeMap α γ cmp)
    (hFold : entries.foldlM (fun collected entry =>
      (f entry.1 entry.2).map (collected.insert entry.1)) start = .ok result) :
    (∀ key value, (key, value) ∈ entries →
        ∃ image, f key value = .ok image ∧ result[key]? = some image) ∧
      ∀ key, (∀ value, (key, value) ∉ entries) → result[key]? = start[key]? := by
  induction entries generalizing start with
  | nil =>
    cases hFold
    simp
  | cons entry entries ih =>
    obtain ⟨key, value⟩ := entry
    rw [List.pairwise_cons] at hDistinct
    obtain ⟨hFresh, hRest⟩ := hDistinct
    rw [List.foldlM_cons] at hFold
    cases hImage : f key value with
    | error err => simp [hImage, Except.map, bind, Except.bind] at hFold
    | ok image =>
      simp only [hImage, Except.map, bind, Except.bind] at hFold
      obtain ⟨hIn, hOut⟩ := ih hRest (start.insert key image) hFold
      have hKeyOut : ∀ other, (key, other) ∉ entries :=
        fun other hMem => hFresh (key, other) hMem rfl
      refine ⟨?_, ?_⟩
      · intro other otherValue hMem
        rcases List.mem_cons.mp hMem with hHead | hTail
        · cases hHead
          refine ⟨image, hImage, ?_⟩
          rw [hOut key hKeyOut, getElem?_insert_ite, if_pos rfl]
        · exact hIn other otherValue hTail
      · intro other hAbsent
        have hNe : key ≠ other := by
          rintro rfl
          exact hAbsent value (List.mem_cons_self ..)
        rw [hOut other fun otherValue hMem =>
          hAbsent otherValue (List.mem_cons_of_mem _ hMem), getElem?_insert_ite, if_neg hNe]

omit [DecidableEq α] in
theorem toList_pairwise_ne (map : ExtTreeMap α β cmp) :
    map.toList.Pairwise fun first second => first.1 ≠ second.1 := by
  refine (ExtTreeMap.distinct_keys_toList (t := map)).imp ?_
  intro first second hNe hEq
  exact hNe (LawfulEqCmp.compare_eq_iff_eq.mpr hEq)

/-- A successful traversal maps every entry and adds none. -/
theorem traverse_eq_ok_image {f : α → β → Except ε γ} {map : ExtTreeMap α β cmp}
    {result : ExtTreeMap α γ cmp} (hTraverse : traverse f map = .ok result) (key : α) :
    (∀ value, map[key]? = some value →
        ∃ image, f key value = .ok image ∧ result[key]? = some image) ∧
      (map[key]? = none → result[key]? = none) := by
  obtain ⟨hIn, hOut⟩ :=
    foldlM_insert_spec f map.toList (toList_pairwise_ne map) ∅ result hTraverse
  refine ⟨?_, ?_⟩
  · intro value hValue
    exact hIn key value (ExtTreeMap.mem_toList_iff_getElem?_eq_some.mpr hValue)
  · intro hNone
    rw [hOut key, ExtTreeMap.getElem?_empty]
    intro value hMem
    rw [ExtTreeMap.mem_toList_iff_getElem?_eq_some, hNone] at hMem
    cases hMem

omit [DecidableEq α] in
/-- A traversal succeeds when the function does on every entry. -/
theorem exists_traverse_eq_ok (f : α → β → Except ε γ) (map : ExtTreeMap α β cmp)
    (hAll : ∀ key value, map[key]? = some value → ∃ image, f key value = .ok image) :
    ∃ result, traverse f map = .ok result := by
  have hList : ∀ entry ∈ map.toList, ∃ image, f entry.1 entry.2 = .ok image := by
    intro entry hMem
    exact hAll entry.1 entry.2 (ExtTreeMap.mem_toList_iff_getElem?_eq_some.mp hMem)
  unfold traverse
  generalize (∅ : ExtTreeMap α γ cmp) = start
  generalize map.toList = entries at hList
  induction entries generalizing start with
  | nil => exact ⟨start, rfl⟩
  | cons entry entries ih =>
    obtain ⟨image, hImage⟩ := hList entry (List.mem_cons_self ..)
    rw [List.foldlM_cons, hImage]
    exact ih (start.insert entry.1 image) fun other hMem =>
      hList other (List.mem_cons_of_mem _ hMem)

end Traversal

end FinMap

end Library
end TriadSim

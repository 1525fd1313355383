import Mathlib.Data.List.Sort
import Mathlib.Tactic

/-!
# Binary search and successors

`search` halves an interval until it has the first index at which a monotone test holds. Over a
list sorted by a key this finds the first item beyond a start, and repeating it with the key of
each answer visits all items beyond the first start in order.  The main results are `search_spec`
and `filter_lt_of_filter_lt_eq_cons`.
-/

namespace TriadSim
namespace Library

/-- The loop of a binary search on the indices from `low` up to `high`. -/
def searchLoop (test : Nat → Bool) : Nat → Nat → Nat → Nat
  | 0, low, _ => low
  | fuel + 1, low, high =>
    if low < high then
      let middle := (low + high) / 2
      if test middle then searchLoop test fuel low middle
      else searchLoop test fuel (middle + 1) high
    else low

/-- The first index below `size` at which the test holds, or `size`. -/
def search (size : Nat) (test : Nat → Bool) : Nat :=
  searchLoop test size 0 size

/-- The loop keeps the test false below the interval and true from its end on. -/
theorem searchLoop_spec {test : Nat → Bool} {size : Nat}
    (hMono : ∀ first second, first ≤ second → second < size → test first = true →
      test second = true) (fuel low high : Nat) (hFuel : high - low ≤ fuel) (hOrder : low ≤ high)
    (hSize : high ≤ size) (hLow : ∀ index, index < low → test index = false)
    (hHigh : ∀ index, high ≤ index → index < size → test index = true) :
    searchLoop test fuel low high ≤ size ∧
      (∀ index, index < searchLoop test fuel low high → test index = false) ∧
      ∀ index, searchLoop test fuel low high ≤ index → index < size → test index = true := by
  induction fuel generalizing low high with
  | zero =>
    have hSame : low = high := by omega
    subst hSame
    exact ⟨hSize, hLow, hHigh⟩
  | succ fuel ih =>
    rw [searchLoop]
    split
    · dsimp only
      split
      · next hMiddle =>
        refine ih low _ (by omega) (by omega) (by omega) hLow ?_
        intro index hIndex hBound
        exact hMono _ index hIndex hBound hMiddle
      · next hMiddle =>
        refine ih _ high (by omega) (by omega) hSize ?_ hHigh
        intro index hIndex
        by_contra hTrue
        exact hMiddle (hMono index _ (by omega) (by omega) (by simpa using hTrue))
    · have hSame : low = high := by omega
      subst hSame
      exact ⟨hSize, hLow, hHigh⟩

theorem search_spec {test : Nat → Bool} {size : Nat}
    (hMono : ∀ first second, first ≤ second → second < size → test first = true →
      test second = true) :
    search size test ≤ size ∧ (∀ index, index < search size test → test index = false) ∧
      ∀ index, search size test ≤ index → index < size → test index = true :=
  searchLoop_spec hMono size 0 size (by omega) (by omega) le_rfl (fun _ hIndex => by omega)
    fun _ hIndex hBound => by omega

section Lists

variable {α : Type}

/-- A binary search over a list in which the test stays true finds its first item. -/
theorem getElem?_search {items : List α} {test : α → Bool}
    (hMono : items.Pairwise fun first second => test first = true → test second = true) :
    items[search items.length fun index => items[index]?.any test]? = items.find? test := by
  obtain ⟨hSize, hBelow, hAbove⟩ := @search_spec (fun index => items[index]?.any test) items.length
    (by
      intro first second hOrder hBound hFirst
      rcases Nat.eq_or_lt_of_le hOrder with rfl | hLess
      · exact hFirst
      · have hTest := List.pairwise_iff_getElem.mp hMono first second (by omega) hBound hLess
        rw [List.getElem?_eq_getElem hBound]
        rw [List.getElem?_eq_getElem (by omega)] at hFirst
        exact hTest hFirst)
  generalize search items.length (fun index => items[index]?.any test) = found at *
  rcases Nat.lt_or_ge found items.length with hFound | hEnd
  · rw [List.getElem?_eq_getElem hFound, eq_comm, List.find?_eq_some_iff_getElem]
    have hTrue := hAbove found le_rfl hFound
    rw [List.getElem?_eq_getElem hFound] at hTrue
    refine ⟨hTrue, found, hFound, rfl, ?_⟩
    intro index hIndex
    have hFalse := hBelow index hIndex
    rw [List.getElem?_eq_getElem (by omega), Option.any_some] at hFalse
    rw [hFalse]
    rfl
  · rw [List.getElem?_eq_none hEnd, eq_comm, List.find?_eq_none]
    intro item hItem
    obtain ⟨index, hIndex, rfl⟩ := List.mem_iff_getElem.mp hItem
    have hFalse := hBelow index (by omega)
    rw [List.getElem?_eq_getElem hIndex, Option.any_some] at hFalse
    rw [hFalse]
    exact Bool.false_ne_true

variable {κ : Type} [Preorder κ] [DecidableLT κ] {key : α → κ}

/-- The items beyond the first item beyond a start are the others beyond the start. -/
theorem filter_lt_of_filter_lt_eq_cons {items : List α}
    (hSorted : items.Pairwise fun first second => key first < key second) {start : κ} {item : α}
    {rest : List α} (hBeyond : items.filter (fun other => start < key other) = item :: rest) :
    items.filter (fun other => key item < key other) = rest := by
  induction items with
  | nil => cases hBeyond
  | cons head items ih =>
    obtain ⟨hHead, hItems⟩ := List.pairwise_cons.mp hSorted
    by_cases hStart : start < key head
    · rw [List.filter_cons_of_pos (by simpa using hStart), List.cons.injEq] at hBeyond
      obtain ⟨rfl, rfl⟩ := hBeyond
      rw [List.filter_cons_of_neg (by simp)]
      refine List.filter_congr ?_
      intro other hOther
      rw [decide_eq_decide]
      exact ⟨fun _ => hStart.trans (hHead other hOther), fun _ => hHead other hOther⟩
    · rw [List.filter_cons_of_neg (by simpa using hStart)] at hBeyond
      have hItem : item ∈ items := List.mem_of_mem_filter (by rw [hBeyond]; simp)
      rw [List.filter_cons_of_neg (by simpa using (hHead item hItem).not_gt)]
      exact ih hItems hBeyond

end Lists

end Library
end TriadSim

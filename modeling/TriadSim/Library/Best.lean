import Mathlib.Data.List.MinMax
import Mathlib.Tactic

/-!
# The best item of a list

A loop that keeps the best item it has seen: it takes over an eligible item if it has none yet or
if the item is better than the one that is kept.  If a key tells the items apart, this is the
eligible item with the least key, in whatever order the list has them.
-/

namespace TriadSim
namespace Library

variable {α κ : Type} [LinearOrder κ] {key : α → κ} {items : List α} {item : α}

/-- One round of the loop. -/
def keepBest (eligible : α → Bool) (better : α → α → Bool) (kept : Option α) (item : α) :
    Option α :=
  if eligible item && kept.all (better item) then some item else kept

theorem foldl_keepBest {eligible : α → Bool} {better : α → α → Bool}
    (hBetter : ∀ first second, better first second = true ↔ key first < key second)
    (items : List α) :
    items.foldl (keepBest eligible better) none = (items.filter eligible).argmin key := by
  rw [List.argmin, List.foldl_filter]
  congr 1
  funext kept item
  cases kept with
  | none => simp [keepBest, List.argAux]
  | some best => cases hItem : eligible item <;> simp [keepBest, List.argAux, hItem, hBetter]

/-- The item with the least key is told by its key alone. -/
theorem argmin_eq_some_iff_of_injOn (hKeys : Set.InjOn key {item | item ∈ items}) :
    items.argmin key = some item ↔ item ∈ items ∧ ∀ other ∈ items, key item ≤ key other := by
  constructor
  · intro hLeast
    exact ⟨List.argmin_mem hLeast, fun other hOther => List.le_of_mem_argmin hOther hLeast⟩
  · rintro ⟨hItem, hLeast⟩
    cases hFound : items.argmin key with
    | none =>
      rw [List.argmin_eq_none.mp hFound] at hItem
      cases hItem
    | some found =>
      have hMem := List.argmin_mem hFound
      have hSame := le_antisymm (List.le_of_mem_argmin hItem hFound) (hLeast found hMem)
      rw [hKeys hMem hItem hSame]

end Library
end TriadSim

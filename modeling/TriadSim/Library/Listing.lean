import Mathlib.Data.List.Forall2
import Mathlib.Data.List.Nodup
import Mathlib.Data.List.Perm.Basic
import Mathlib.Tactic

/-!
# Listings of a partial function

A list of entries lists a partial function on a region when it has exactly the entries of
the function in the region, each of them once.  Listings of disjoint regions can be put one
behind another.
-/

namespace TriadSim
namespace Library

open scoped List

variable {κ α β ι : Type}

/-- The entries are those of `source` at the keys of a region. -/
structure Lists (source : κ → Option β) (region : κ → Prop) (entries : List (κ × β)) : Prop where
  mem_iff : ∀ key value, (key, value) ∈ entries ↔ region key ∧ source key = some value
  nodup : (entries.map Prod.fst).Nodup

namespace Lists

variable {source : κ → Option β} {region other : κ → Prop} {entries more : List (κ × β)}

theorem region_of_mem (hLists : Lists source region entries) {key : κ}
    (hKey : key ∈ entries.map Prod.fst) : region key := by
  obtain ⟨⟨found, value⟩, hMem, rfl⟩ := List.mem_map.mp hKey
  exact ((hLists.mem_iff found value).mp hMem).1

/-- What is listed is determined by what the region holds of the function. -/
theorem congr (hLists : Lists source region entries)
    (hSame : ∀ key, (source key).isSome = true → (region key ↔ other key)) :
    Lists source other entries := by
  refine ⟨fun key value => ?_, hLists.nodup⟩
  rw [hLists.mem_iff]
  constructor
  · rintro ⟨hRegion, hValue⟩
    exact ⟨(hSame key (by simp [hValue])).mp hRegion, hValue⟩
  · rintro ⟨hOther, hValue⟩
    exact ⟨(hSame key (by simp [hValue])).mpr hOther, hValue⟩

theorem perm (hLists : Lists source region entries) (hPerm : entries ~ more) :
    Lists source region more := by
  refine ⟨fun key value => ?_, ?_⟩
  · rw [← hPerm.mem_iff, hLists.mem_iff]
  · exact (hPerm.map Prod.fst).nodup_iff.mp hLists.nodup

theorem empty (hNone : ∀ key, region key → source key = none) : Lists source region [] := by
  refine ⟨fun key value => ?_, List.nodup_nil⟩
  constructor
  · intro hMem
    cases hMem
  · rintro ⟨hRegion, hValue⟩
    rw [hNone key hRegion] at hValue
    cases hValue

/-- One key, whether the function is defined there or not. -/
theorem single (source : κ → Option β) (key : κ) :
    Lists source (· = key) ((source key).map fun value => (key, value)).toList := by
  cases hValue : source key with
  | none => exact empty fun found hFound => hFound ▸ hValue
  | some value =>
    refine ⟨fun found other => ?_, by simp⟩
    simp only [Option.map_some, Option.toList_some, List.mem_singleton, Prod.mk.injEq]
    constructor
    · rintro ⟨rfl, rfl⟩
      exact ⟨rfl, hValue⟩
    · rintro ⟨rfl, hOther⟩
      exact ⟨rfl, Option.some.inj (hOther.symm.trans hValue)⟩

theorem append (hFirst : Lists source region entries) (hSecond : Lists source other more)
    (hDisjoint : ∀ key, region key → ¬ other key) :
    Lists source (fun key => region key ∨ other key) (entries ++ more) := by
  refine ⟨fun key value => ?_, ?_⟩
  · rw [List.mem_append, hFirst.mem_iff, hSecond.mem_iff, or_and_right]
  · rw [List.map_append, List.nodup_append']
    exact ⟨hFirst.nodup, hSecond.nodup, fun key hKey hMore =>
      hDisjoint key (hFirst.region_of_mem hKey) (hSecond.region_of_mem hMore)⟩

/-- The listings of pairwise disjoint regions, one behind another. -/
theorem flatMap {parts : List ι} {outputs : List α} {regions : ι → κ → Prop}
    {listing : α → List (κ × β)}
    (hParts : List.Forall₂ (fun part output => Lists source (regions part) (listing output))
      parts outputs)
    (hDisjoint : parts.Pairwise fun first second =>
      ∀ key, regions first key → ¬ regions second key) :
    Lists source (fun key => ∃ part ∈ parts, regions part key) (outputs.flatMap listing) := by
  induction hParts with
  | nil =>
    refine empty fun key hKey => ?_
    obtain ⟨part, hPart, _⟩ := hKey
    cases hPart
  | cons hFirst _ ih =>
    rw [List.pairwise_cons] at hDisjoint
    rw [List.flatMap_cons]
    refine (hFirst.append (ih hDisjoint.2) ?_).congr ?_
    · rintro key hHere ⟨next, hNext, hThere⟩
      exact hDisjoint.1 next hNext key hHere hThere
    · intro key _
      simp

end Lists

end Library
end TriadSim

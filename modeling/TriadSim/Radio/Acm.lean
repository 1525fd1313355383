import TriadSim.Library.Best
import TriadSim.Model.Seed

/-!
# Adaptive coding and modulation

`internal/radio/acm.go`: the modulation profile that a received level selects.  Levels are only
compared, so they are of any type with an order, and `threshold` is the receiver threshold of a
profile.  The main result is `adaptive_selection_is_highest_and_monotone`.
-/

namespace TriadSim
namespace Radio

open Go Library Model

def acmModeFixed : GoString := "fixed"

/-- `profileByID`. -/
def profileByID (profiles : List ModProfile) (id : UInt8) : Option ModProfile :=
  profiles.find? fun profile => decide (profile.id = id)

section Select

variable {α : Type} [LT α] [DecidableLT α] (threshold : ModProfile → α) (acm : ACM) (rssi : α)

/-- The body of the loop of `selectProfile`. -/
def takeProfile (best : Option ModProfile) (profile : ModProfile) : Option ModProfile :=
  if profile.id < acm.minProfile || profile.id > acm.maxProfile then best
  else if threshold profile > rssi then best
  else if best.all fun kept => decide (profile.id > kept.id) then some profile
  else best

/-- `selectProfile`: the profile, if one applies. -/
def selectProfile (profiles : List ModProfile) : Option ModProfile :=
  if profiles.isEmpty then none
  else if !acm.enabled || acm.mode = acmModeFixed then
    (profileByID profiles acm.currentProfile).or (profileByID profiles acm.minProfile)
  else
    (profiles.foldl (takeProfile threshold acm rssi) none).or
      (profileByID profiles acm.minProfile)

end Select

/-! ## Adaptive selection -/

variable {α : Type} [LinearOrder α] {threshold : ModProfile → α} {acm : ACM} {rssi : α}
  {profiles others : List ModProfile} {profile : ModProfile}

/-- The profile is in the window of the link. -/
def InWindow (acm : ACM) (profile : ModProfile) : Prop :=
  acm.minProfile ≤ profile.id ∧ profile.id ≤ acm.maxProfile

/-- The profile is in the window, and the level meets its threshold. -/
def fits (threshold : ModProfile → α) (acm : ACM) (rssi : α) (profile : ModProfile) : Bool :=
  decide (acm.minProfile ≤ profile.id ∧ profile.id ≤ acm.maxProfile ∧ threshold profile ≤ rssi)

theorem fits_iff : fits threshold acm rssi profile = true ↔
      InWindow acm profile ∧ threshold profile ≤ rssi := by
  simp [fits, InWindow, and_assoc]

theorem takeProfile_eq_keepBest : takeProfile threshold acm rssi =
      keepBest (fits threshold acm rssi) fun first second => decide (second.id < first.id) := by
  funext best profile
  unfold takeProfile keepBest
  by_cases hFits : fits threshold acm rssi profile = true
  · obtain ⟨⟨hMin, hMax⟩, hLevel⟩ := fits_iff.mp hFits
    simp [hFits, UInt8.not_lt.mpr hMin, UInt8.not_lt.mpr hMax, hLevel.not_gt]
  · have hOut : (profile.id < acm.minProfile ∨ acm.maxProfile < profile.id) ∨
        rssi < threshold profile := by
      rw [fits_iff, InWindow] at hFits
      simpa only [not_and_or, UInt8.not_le, not_le] using hFits
    rw [Bool.not_eq_true] at hFits
    rcases hOut with hWindow | hLevel
    · simp [hFits, hWindow]
    · simp [hFits, hLevel]

/-- The order in which the loop looks for a profile: the highest number comes first. -/
def rank (profile : ModProfile) : Int :=
  -profile.id.toNat

theorem rank_le_iff {other : ModProfile} : rank profile ≤ rank other ↔ other.id ≤ profile.id := by
  rw [rank, rank, UInt8.le_iff_toNat_le]
  omega

/-- The loop yields the highest profile that fits. -/
theorem foldl_takeProfile (profiles : List ModProfile) :
    profiles.foldl (takeProfile threshold acm rssi) none =
      (profiles.filter (fits threshold acm rssi)).argmin rank := by
  rw [takeProfile_eq_keepBest]
  refine foldl_keepBest ?_ profiles
  intro first second
  rw [decide_eq_true_iff, ← UInt8.not_le, ← not_le, rank_le_iff]

/-- What an adaptive link selects: the highest profile that fits or, if none does, the one at the
lower end of the window. -/
def Selected (threshold : ModProfile → α) (acm : ACM) (rssi : α) (profiles : List ModProfile)
    (profile : ModProfile) : Prop :=
  profile ∈ profiles ∧
    ((InWindow acm profile ∧ threshold profile ≤ rssi ∧
        ∀ other ∈ profiles, InWindow acm other → threshold other ≤ rssi → other.id ≤ profile.id) ∨
      (profile.id = acm.minProfile ∧
        ∀ other ∈ profiles, InWindow acm other → ¬ threshold other ≤ rssi))

theorem profileByID_eq_some_iff (hDistinct : (profiles.map ModProfile.id).Nodup) {id : UInt8} :
    profileByID profiles id = some profile ↔ profile ∈ profiles ∧ profile.id = id := by
  have hSound : ∀ found, profileByID profiles id = some found →
      found ∈ profiles ∧ found.id = id := by
    intro found hFind
    have hId := List.find?_some hFind
    exact ⟨List.mem_of_find?_eq_some hFind, of_decide_eq_true hId⟩
  refine ⟨hSound profile, ?_⟩
  rintro ⟨hMem, hId⟩
  cases hFind : profileByID profiles id with
  | none => exact absurd (decide_eq_true hId) (List.find?_eq_none.mp hFind profile hMem)
  | some found =>
    obtain ⟨hFound, hSame⟩ := hSound found hFind
    rw [List.inj_on_of_nodup_map hDistinct hFound hMem (hSame.trans hId.symm)]

section Adaptive

variable (hEnabled : acm.enabled = true) (hMode : acm.mode ≠ acmModeFixed)

include hEnabled hMode

theorem selectProfile_adaptive : selectProfile threshold acm rssi profiles =
      ((profiles.filter (fits threshold acm rssi)).argmin rank).or
        (profileByID profiles acm.minProfile) := by
  rw [← foldl_takeProfile]
  cases profiles with
  | nil => rfl
  | cons first rest => simp [selectProfile, hEnabled, hMode]

theorem selectProfile_eq_none_iff : selectProfile threshold acm rssi profiles = none ↔
      ∀ profile ∈ profiles, ¬ (InWindow acm profile ∧ threshold profile ≤ rssi) ∧
        profile.id ≠ acm.minProfile := by
  rw [selectProfile_adaptive hEnabled hMode, Option.or_eq_none_iff, List.argmin_eq_none,
    List.filter_eq_nil_iff, profileByID, List.find?_eq_none]
  simp only [fits_iff, decide_eq_true_eq, ← forall_and]

variable (hDistinct : (profiles.map ModProfile.id).Nodup)

include hDistinct

theorem selectProfile_eq_some_iff : selectProfile threshold acm rssi profiles = some profile ↔
      Selected threshold acm rssi profiles profile := by
  have hRanks : Set.InjOn rank {profile | profile ∈ profiles.filter (fits threshold acm rssi)} := by
    intro first hFirst second hSecond hSame
    refine List.inj_on_of_nodup_map hDistinct (List.mem_of_mem_filter hFirst)
      (List.mem_of_mem_filter hSecond) ?_
    exact UInt8.le_antisymm (rank_le_iff.mp hSame.ge) (rank_le_iff.mp hSame.le)
  rw [selectProfile_adaptive hEnabled hMode, Option.or_eq_some_iff, List.argmin_eq_none,
    List.filter_eq_nil_iff, argmin_eq_some_iff_of_injOn hRanks,
    profileByID_eq_some_iff hDistinct]
  simp only [Selected, List.mem_filter, fits_iff, rank_le_iff, not_and, and_imp]
  tauto

/-- A higher level selects no lower profile. -/
theorem selectProfile_mono {level : α} (hLevel : rssi ≤ level)
    (hSelected : Selected threshold acm rssi profiles profile) :
    ∃ higher, selectProfile threshold acm level profiles = some higher ∧
      profile.id ≤ higher.id := by
  obtain ⟨hMem, hProfile⟩ := hSelected
  cases hHigher : selectProfile threshold acm level profiles with
  | none =>
    obtain ⟨hUnfit, hOther⟩ := (selectProfile_eq_none_iff hEnabled hMode).mp hHigher profile hMem
    rcases hProfile with ⟨hWindow, hMet, _⟩ | ⟨hId, _⟩
    · exact absurd ⟨hWindow, hMet.trans hLevel⟩ hUnfit
    · exact absurd hId hOther
  | some higher =>
    refine ⟨higher, rfl, ?_⟩
    obtain ⟨_, ⟨hIn, _, hHighest⟩ | ⟨hLowest, hNone⟩⟩ :=
      (selectProfile_eq_some_iff hEnabled hMode hDistinct).mp hHigher
    · rcases hProfile with ⟨hWindow, hMet, _⟩ | ⟨hId, _⟩
      · exact hHighest profile hMem hWindow (hMet.trans hLevel)
      · exact hId ▸ hIn.1
    · rcases hProfile with ⟨hWindow, hMet, _⟩ | ⟨hId, _⟩
      · exact absurd (hMet.trans hLevel) (hNone profile hMem hWindow)
      · exact UInt8.le_of_eq (hId.trans hLowest.symm)

end Adaptive

/-- On a table with distinct numbers an adaptive selection does not depend on the order of the
table, what it yields is in the window and is the highest profile whose threshold is met or, if
none is, the lowest of the window, and a higher level neither lowers nor loses it. -/
theorem adaptive_selection_is_highest_and_monotone (threshold : ModProfile → α) (acm : ACM)
    (profiles : List ModProfile) (low high : α) (hEnabled : acm.enabled = true)
    (hMode : acm.mode ≠ acmModeFixed) (hDistinct : (profiles.map ModProfile.id).Nodup)
    (hWindow : acm.minProfile ≤ acm.maxProfile) (hLevels : low ≤ high) :
    (∀ others, others.Perm profiles →
        selectProfile threshold acm low others = selectProfile threshold acm low profiles) ∧
      (∀ profile, selectProfile threshold acm low profiles = some profile →
        InWindow acm profile ∧ Selected threshold acm low profiles profile) ∧
      ∀ profile, selectProfile threshold acm low profiles = some profile →
        ∃ higher, selectProfile threshold acm high profiles = some higher ∧
          profile.id ≤ higher.id := by
  refine ⟨?_, ?_, ?_⟩
  · intro others hPerm
    refine Option.ext fun profile => ?_
    rw [selectProfile_eq_some_iff hEnabled hMode hDistinct,
      selectProfile_eq_some_iff hEnabled hMode ((hPerm.map _).nodup_iff.mpr hDistinct)]
    simp only [Selected, hPerm.mem_iff]
  · intro profile hProfile
    have hSelected := (selectProfile_eq_some_iff hEnabled hMode hDistinct).mp hProfile
    refine ⟨?_, hSelected⟩
    rcases hSelected.2 with ⟨hIn, _⟩ | ⟨hLowest, _⟩
    · exact hIn
    · exact ⟨UInt8.le_of_eq hLowest.symm, hLowest ▸ hWindow⟩
  · intro profile hProfile
    exact selectProfile_mono hEnabled hMode hDistinct hLevels
      ((selectProfile_eq_some_iff hEnabled hMode hDistinct).mp hProfile)

/-- The link of the template, with the number of a profile as its threshold. -/
theorem adaptive_selection_of_defaultLink :
    ∃ profile, selectProfile (fun profile => profile.id.toNat) defaultLink.acm 3
        defaultLink.profiles = some profile ∧
      ∃ higher, selectProfile (fun profile => profile.id.toNat) defaultLink.acm 7
        defaultLink.profiles = some higher ∧ profile.id ≤ higher.id := by
  obtain ⟨profile, hProfile⟩ : ∃ profile, selectProfile (fun profile => profile.id.toNat)
      defaultLink.acm 3 defaultLink.profiles = some profile :=
    Option.isSome_iff_exists.mp (by decide +kernel)
  exact ⟨profile, hProfile, (adaptive_selection_is_highest_and_monotone
    (fun profile => profile.id.toNat) defaultLink.acm defaultLink.profiles 3 7 rfl
    (by decide +kernel) (by decide +kernel) (by decide +kernel) (by decide)).2.2 profile hProfile⟩

end Radio
end TriadSim

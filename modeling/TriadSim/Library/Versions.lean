import Mathlib.Tactic
import TriadSim.Library.Histories

/-!
# Version counters

A counter next to a content moves on with every change of the content.  It is a machine word, so
it comes round after `2 ^ 64` moves; before that, a reader that finds the counter where it was
finds the content where it was as well.  The main result is `content_eq_of_version_eq`.
-/

namespace TriadSim
namespace Library

variable {ι Req : Type} {Resp : Req → Type} {State χ : Type}

/-- A call keeps the content and its counter, or is one of those that move the counter. -/
structure Counted (version : State → UInt64) (content : State → χ)
    (moves : Event ι Req Resp State → Bool) (event : Event ι Req Resp State) : Prop where
  step : (version event.after = version event.before ∧
      content event.after = content event.before) ∨
    version event.after = version event.before + 1
  still : moves event = false → version event.after = version event.before ∧
    content event.after = content event.before

/-- The calls of a history follow each other, and each is counted. -/
def CountedFrom (initial : State) (version : State → UInt64) (content : State → χ)
    (moves : Event ι Req Resp State → Bool) (history : List (Event ι Req Resp State)) : Prop :=
  Each (fun earlier event => event.before = lastState initial earlier ∧
    Counted version content moves event) history

variable {initial : State} {version : State → UInt64} {content : State → χ}
  {moves : Event ι Req Resp State → Bool}

/-- The counter moves on by as many of the calls as have changed something. -/
theorem exists_version_eq_add {earlier middle : List (Event ι Req Resp State)}
    (hCounted : CountedFrom initial version content moves (earlier ++ middle)) :
    ∃ n ≤ middle.countP moves,
      version (lastState initial (earlier ++ middle)) =
        version (lastState initial earlier) + UInt64.ofNat n ∧
      (n = 0 → content (lastState initial (earlier ++ middle)) =
        content (lastState initial earlier)) := by
  induction middle using List.reverseRecOn with
  | nil =>
    rw [List.append_nil]
    exact ⟨0, Nat.zero_le _, (UInt64.add_zero _).symm, fun _ => rfl⟩
  | append_singleton middle event ih =>
    rw [CountedFrom, ← List.append_assoc, each_append_singleton] at hCounted
    obtain ⟨hEarlier, hBefore, hEvent⟩ := hCounted
    obtain ⟨n, hLe, hVersion, hContent⟩ := ih hEarlier
    rw [← hBefore] at hVersion hContent
    rw [← List.append_assoc, lastState_append, List.countP_append]
    have hKept : version event.after = version event.before ∧
        content event.after = content event.before →
        ∃ k ≤ middle.countP moves + [event].countP moves,
          version event.after = version (lastState initial earlier) + UInt64.ofNat k ∧
          (k = 0 → content event.after = content (lastState initial earlier)) := by
      rintro ⟨hSame, hSameContent⟩
      refine ⟨n, by omega, by rw [hSame, hVersion], ?_⟩
      intro hZero
      rw [hSameContent, hContent hZero]
    cases hMoves : moves event with
    | false => exact hKept (hEvent.still hMoves)
    | true =>
      rcases hEvent.step with hSame | hNext
      · exact hKept hSame
      · refine ⟨n + 1, ?_, ?_, fun hZero => absurd hZero (Nat.succ_ne_zero n)⟩
        · rw [List.countP_singleton, if_pos hMoves]
          omega
        · rw [hNext, hVersion, UInt64.ofNat_add, UInt64.add_assoc]
          rfl

/-- The counter does not come back to just after where it is, in so few calls. -/
theorem version_ne_add_one {start now : List (Event ι Req Resp State)}
    (hCounted : CountedFrom initial version content moves now) (hStart : start <+: now)
    (hFew : now.countP moves + 1 < 2 ^ 64) :
    version (lastState initial start) ≠ version (lastState initial now) + 1 := by
  obtain ⟨middle, rfl⟩ := hStart
  obtain ⟨n, hLe, hMiddle, _⟩ := exists_version_eq_add hCounted
  intro hNext
  rw [hMiddle, UInt64.add_assoc, ← UInt64.ofNat_one, ← UInt64.ofNat_add] at hNext
  have hMod : (n + 1) % 2 ^ 64 = 0 := by
    have hNat := congrArg UInt64.toNat (UInt64.left_eq_add.mp hNext)
    rwa [UInt64.toNat_ofNat'] at hNat
  rw [List.countP_append] at hFew
  rw [Nat.mod_eq_of_lt (by omega)] at hMod
  omega

/-- A reader that finds the counter where it was at the start, after fewer than `2 ^ 64`
calls that move it, finds every content read in between. -/
theorem content_eq_of_version_eq {start read now : List (Event ι Req Resp State)}
    (hCounted : CountedFrom initial version content moves now) (hStart : start <+: read)
    (hRead : read <+: now) (hFew : now.countP moves < 2 ^ 64)
    (hVersion : version (lastState initial now) = version (lastState initial start)) :
    content (lastState initial now) = content (lastState initial read) := by
  obtain ⟨middle, rfl⟩ := hStart
  obtain ⟨later, rfl⟩ := hRead
  obtain ⟨n, hLe, hMiddle, _⟩ := exists_version_eq_add hCounted.of_append
  obtain ⟨k, hLe', hLater, hContent⟩ := exists_version_eq_add hCounted
  refine hContent ?_
  rw [hLater, hMiddle, UInt64.add_assoc, ← UInt64.ofNat_add] at hVersion
  have hZero : UInt64.ofNat (n + k) = 0 := by
    have hCancel : version (lastState initial start) + UInt64.ofNat (n + k) =
        version (lastState initial start) + 0 := by rw [hVersion, UInt64.add_zero]
    exact (UInt64.add_right_inj _).mp hCancel
  have hMod : (n + k) % 2 ^ 64 = 0 := by
    have hNat := congrArg UInt64.toNat hZero
    rwa [UInt64.toNat_ofNat'] at hNat
  rw [List.countP_append, List.countP_append] at hFew
  rw [Nat.mod_eq_of_lt (by omega)] at hMod
  omega

end Library
end TriadSim

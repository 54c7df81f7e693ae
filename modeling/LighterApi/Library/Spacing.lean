import Mathlib.Data.Nat.Basic
import Mathlib.Tactic.Ring

/-!
# Times kept apart

Times, latest first, each at least a gap after all earlier ones. A window of any length
then holds at most one more of them than whole gaps fit into it (`Spaced.count_window`).
-/

namespace LighterApi.Library.Spacing

/-- Each time lies at least the gap after every earlier one. -/
def Spaced (gap : Nat) (times : List Nat) : Prop :=
  times.Pairwise fun later earlier => earlier + gap ≤ later

/-- How many of the times lie in the window of that length from `opens` on. -/
def within (opens length : Nat) (times : List Nat) : Nat :=
  times.countP fun t => decide (opens ≤ t ∧ t < opens + length)

theorem within_cons (opens length t : Nat) (times : List Nat) :
    within opens length (t :: times) =
      within opens length times + if opens ≤ t ∧ t < opens + length then 1 else 0 := by
  simp [within, List.countP_cons]

/-- No time is in a window that has not opened. -/
theorem within_eq_zero {opens length : Nat} {times : List Nat} (early : ∀ t ∈ times, t < opens) :
    within opens length times = 0 := by
  rw [within, List.countP_eq_zero]
  intro t member inside
  have before := early t member
  have opened := (of_decide_eq_true inside).1
  omega

theorem Spaced.cons {gap : Nat} {times : List Nat} (spaced : Spaced gap times) {t : Nat}
    (apart : ∀ earlier ∈ times, earlier + gap ≤ t) : Spaced gap (t :: times) :=
  List.pairwise_cons.mpr ⟨apart, spaced⟩

/-- The latest of the times is the others' gaps away from the opening. -/
theorem Spaced.spread {gap opens t : Nat} {times : List Nat} (spaced : Spaced gap (t :: times))
    (opened : ∀ u ∈ t :: times, opens ≤ u) : opens + times.length * gap ≤ t := by
  induction times generalizing t with
  | nil => simpa using opened t List.mem_cons_self
  | cons u rest ih =>
    obtain ⟨apart, spaced⟩ := List.pairwise_cons.mp spaced
    have before := ih spaced fun v member => opened v (List.mem_cons_of_mem t member)
    have last := apart u List.mem_cons_self
    calc opens + (rest.length + 1) * gap = (opens + rest.length * gap) + gap := by ring
      _ ≤ u + gap := Nat.add_le_add_right before gap
      _ ≤ t := last

/-- The gaps between the times in a window fit into it. -/
theorem Spaced.count_window {gap : Nat} {times : List Nat} (spaced : Spaced gap times)
    (pos : 0 < gap) (opens length : Nat) :
    within opens length times * gap < length + gap := by
  have kept := List.Pairwise.filter (fun t => decide (opens ≤ t ∧ t < opens + length)) spaced
  have inside : ∀ t ∈ times.filter fun t => decide (opens ≤ t ∧ t < opens + length),
      opens ≤ t ∧ t < opens + length := fun t member => of_decide_eq_true (List.mem_filter.mp member).2
  rw [within, List.countP_eq_length_filter]
  generalize times.filter _ = chosen at kept inside
  cases chosen with
  | nil =>
    rw [List.length_nil, Nat.zero_mul]
    exact Nat.add_pos_right length pos
  | cons t rest =>
    have spread := Spaced.spread kept fun u member => (inside u member).1
    have closing := (inside t List.mem_cons_self).2
    rw [List.length_cons, Nat.succ_mul]
    omega

end LighterApi.Library.Spacing

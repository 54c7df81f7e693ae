import Mathlib.Algebra.Order.Group.Defs
import Mathlib.Algebra.Order.Group.Unbundled.Basic
import Mathlib.Order.MinMax
import Mathlib.Algebra.BigOperators.Group.List.Basic
import Mathlib.Tactic.Abel

/-!
# Increments of a running maximum

Levels reported one after another, in any order and with repetitions, listed latest
first. Each level above all earlier ones is paid as the rise over their maximum
(`increments`). What is paid telescopes to the highest level (`sum_increments`), whatever
the order of the reports, and a level that was reached before pays nothing
(`increments_cons_of_le`).
-/

namespace LighterApi.Library.RunningMax

variable {α : Type*} [LinearOrder α]

/-- The highest of the levels and the base. -/
def peak (base : α) (levels : List α) : α := levels.foldr max base

@[simp] theorem peak_nil (base : α) : peak base [] = base := rfl

@[simp] theorem peak_cons (base level : α) (earlier : List α) :
    peak base (level :: earlier) = max level (peak base earlier) := rfl

theorem peak_le_iff {base bound : α} {levels : List α} :
    peak base levels ≤ bound ↔ base ≤ bound ∧ ∀ level ∈ levels, level ≤ bound := by
  induction levels with
  | nil => simp
  | cons level earlier ih =>
    rw [peak_cons, max_le_iff, ih, List.forall_mem_cons]
    exact and_left_comm

theorem le_peak {base level : α} {levels : List α} (member : level ∈ levels) :
    level ≤ peak base levels :=
  (peak_le_iff.mp le_rfl).2 level member

variable [AddCommGroup α]

/-- The rises over the maximum so far, latest first. -/
def increments (base : α) : List α → List α
  | [] => []
  | level :: earlier =>
    if peak base earlier < level then (level - peak base earlier) :: increments base earlier
    else increments base earlier

@[simp] theorem increments_nil (base : α) : increments base [] = [] := rfl

theorem increments_cons_of_lt {base level : α} {earlier : List α}
    (above : peak base earlier < level) :
    increments base (level :: earlier) =
      (level - peak base earlier) :: increments base earlier :=
  if_pos above

theorem increments_cons_of_le {base level : α} {earlier : List α}
    (reached : level ≤ peak base earlier) :
    increments base (level :: earlier) = increments base earlier :=
  if_neg reached.not_gt

/-- The increments telescope. -/
theorem sum_increments (base : α) (levels : List α) :
    (increments base levels).sum = peak base levels - base := by
  induction levels with
  | nil => simp
  | cons level earlier ih =>
    rcases lt_or_ge (peak base earlier) level with above | reached
    · rw [increments_cons_of_lt above, List.sum_cons, ih, peak_cons, max_eq_left above.le]
      abel
    · rw [increments_cons_of_le reached, ih, peak_cons, max_eq_right reached]

theorem increments_pos [IsOrderedAddMonoid α] {base q : α} {levels : List α}
    (member : q ∈ increments base levels) : 0 < q := by
  induction levels with
  | nil => exact absurd member List.not_mem_nil
  | cons level earlier ih =>
    rcases lt_or_ge (peak base earlier) level with above | reached
    · rw [increments_cons_of_lt above] at member
      rcases List.mem_cons.mp member with first | later
      · rw [first]
        exact sub_pos.mpr above
      · exact ih later
    · rw [increments_cons_of_le reached] at member
      exact ih member

end LighterApi.Library.RunningMax

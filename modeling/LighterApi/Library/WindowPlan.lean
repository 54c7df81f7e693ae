import Mathlib.Algebra.Order.Floor.Ring
import Mathlib.Data.Finset.Sort
import Mathlib.Data.Int.ConditionallyCompleteOrder
import Mathlib.Data.Int.Interval
import Mathlib.Data.Rat.Floor
import LighterApi.Library.WindowWalk

/-!
# The plan of a walk

`windows` lists the windows a walk visits when no visit fails. They abut from the cursor
to `stop`, none is longer than `window`, and there are as many as `window` fits into the
distance, rounded up (`windows_length`). A walk whose visits log what they ask for logs
exactly one request for each window of the plan when none fails, whatever the answers are
(`walk_asks`).
-/

namespace LighterApi.Library.WindowWalk

variable {σ ε ρ : Type*}

/-! ## The windows -/

/-- The windows from `cursor` to `stop`, each one starting where the last one ended. -/
def windows (window stop : Int) (pos : 0 < window) (cursor : Int) : List (Int × Int) :=
  if cursor < stop then
    (cursor, min (cursor + window) stop) :: windows window stop pos (min (cursor + window) stop)
  else []
termination_by (stop - cursor).toNat
decreasing_by omega

variable {window stop : Int} {pos : 0 < window}

theorem windows_of_lt {cursor : Int} (more : cursor < stop) :
    windows window stop pos cursor =
      (cursor, min (cursor + window) stop) ::
        windows window stop pos (min (cursor + window) stop) := by
  rw [windows, if_pos more]

theorem windows_of_le {cursor : Int} (done : stop ≤ cursor) :
    windows window stop pos cursor = [] := by
  rw [windows, if_neg (not_lt.mpr done)]

/-- One rule for everything that is shown along the plan. -/
theorem windows_induction {P : Int → List (Int × Int) → Prop}
    (done : ∀ c, stop ≤ c → P c [])
    (more : ∀ c rest, c < stop → P (min (c + window) stop) rest →
      rest = windows window stop pos (min (c + window) stop) →
      P c ((c, min (c + window) stop) :: rest))
    (cursor : Int) : P cursor (windows window stop pos cursor) := by
  by_cases ahead : cursor < stop
  · rw [windows_of_lt ahead]
    exact more cursor _ ahead (windows_induction done more (min (cursor + window) stop)) rfl
  · rw [windows_of_le (not_lt.mp ahead)]
    exact done cursor (not_lt.mp ahead)
termination_by (stop - cursor).toNat
decreasing_by omega

theorem windows_head (cursor : Int) :
    ∀ w ∈ (windows window stop pos cursor).head?, w.1 = cursor := by
  intro w first
  by_cases more : cursor < stop
  · rw [windows_of_lt more] at first
    simp only [List.head?_cons, Option.mem_def, Option.some.injEq] at first
    rw [← first]
  · rw [windows_of_le (not_lt.mp more)] at first
    exact absurd first (by simp)

/-- A window starts before it ends, is no longer than `window`, and stays in the range. -/
theorem windows_bounds (cursor : Int) : ∀ w ∈ windows window stop pos cursor,
    cursor ≤ w.1 ∧ w.1 < w.2 ∧ w.2 ≤ w.1 + window ∧ w.2 ≤ stop := by
  refine windows_induction (P := fun c l => ∀ w ∈ l, c ≤ w.1 ∧ w.1 < w.2 ∧ w.2 ≤ w.1 + window ∧
    w.2 ≤ stop) ?_ ?_ cursor
  · intro c done w none_in
    exact absurd none_in List.not_mem_nil
  · intro c rest more ih _ w member
    rcases List.mem_cons.mp member with rfl | later
    · dsimp only
      omega
    · have bounds := ih w later
      omega

theorem windows_abut (cursor : Int) :
    (windows window stop pos cursor).IsChain fun a b => a.2 = b.1 := by
  refine windows_induction (P := fun _ l => l.IsChain fun a b => a.2 = b.1) ?_ ?_ cursor
  · intro c done
    exact List.IsChain.nil
  · intro c rest more ih rest_eq
    rw [List.isChain_cons]
    refine ⟨fun b first => ?_, ih⟩
    rw [rest_eq] at first
    exact (windows_head _ b first).symm

theorem windows_last (cursor : Int) :
    ∀ w ∈ (windows window stop pos cursor).getLast?, w.2 = stop := by
  refine windows_induction (P := fun _ l => ∀ w ∈ l.getLast?, w.2 = stop) ?_ ?_ cursor
  · intro c done w none_in
    exact absurd none_in (by simp)
  · intro c rest more ih rest_eq w last
    cases rest with
    | nil =>
      -- The plan ends here, so the cursor has arrived.
      have arrived : ¬ min (c + window) stop < stop := by
        intro again
        rw [windows_of_lt again] at rest_eq
        exact absurd rest_eq (by simp)
      simp only [List.getLast?_singleton, Option.mem_def, Option.some.injEq] at last
      rw [← last]
      dsimp only
      omega
    | cons next later =>
      rw [List.getLast?_cons_cons] at last
      exact ih w last

/-- As many windows as `window` fits into the distance, rounded up; none when there is
no distance. -/
theorem windows_length (cursor : Int) :
    (windows window stop pos cursor).length = ⌈((stop - cursor : Int) : ℚ) / (window : ℚ)⌉₊ := by
  have positive : (0 : ℚ) < window := by exact_mod_cast pos
  refine windows_induction
    (P := fun c l => l.length = ⌈((stop - c : Int) : ℚ) / (window : ℚ)⌉₊) ?_ ?_ cursor
  · intro c done
    have behind : ((stop - c : Int) : ℚ) ≤ 0 := by exact_mod_cast (show stop - c ≤ 0 by omega)
    exact (Nat.ceil_eq_zero.mpr (div_nonpos_of_nonpos_of_nonneg behind positive.le)).symm
  · intro c rest more ih _
    rw [List.length_cons, ih]
    rcases le_or_gt (c + window) stop with whole | short
    · -- A whole window takes one off the quotient.
      have split : ((stop - c : Int) : ℚ) / window =
          ((stop - (c + window) : Int) : ℚ) / window + 1 := by
        push_cast
        field_simp
        ring
      have nonneg : 0 ≤ ((stop - (c + window) : Int) : ℚ) / window :=
        div_nonneg (by exact_mod_cast (show 0 ≤ stop - (c + window) by omega)) positive.le
      rw [min_eq_left whole, split, Nat.ceil_add_one nonneg]
    · -- The last window is a proper part of a whole one.
      have ahead : (0 : ℚ) < ((stop - c : Int) : ℚ) := by
        exact_mod_cast (show 0 < stop - c by omega)
      have below : ((stop - c : Int) : ℚ) ≤ window := by
        exact_mod_cast (show stop - c ≤ window by omega)
      have one : ⌈((stop - c : Int) : ℚ) / (window : ℚ)⌉₊ = 1 := by
        rw [Nat.ceil_eq_iff one_ne_zero]
        constructor
        · simpa using div_pos ahead positive
        · simpa using (div_le_one positive).mpr below
      rw [min_eq_right short.le, one, sub_self]
      simp

/-- The multiples of the step in a window are no more than its quotient and one. -/
theorem grid_card_le {step lo hi : Int} (grid : 0 < step) (le : lo ≤ hi) :
    (((Finset.Icc lo hi).filter (step ∣ ·)).card : Int) ≤ (hi - lo) / step + 1 := by
  let points := ((Finset.Icc lo hi).filter (step ∣ ·)).sort
  have member : ∀ x ∈ points, (lo ≤ x ∧ x ≤ hi) ∧ step ∣ x := by
    intro x hx
    simpa [points] using hx
  have count := grid_length_le id points step lo hi grid le (Finset.sortedLT_sort _).pairwise
    (fun x hx => (member x hx).2) (fun x hx => (member x hx).1)
  rw [Finset.length_sort] at count
  exact count

/-! ## What the visits ask -/

variable {request : Int → Int → ρ} {visit : Int → Int → σ → σ × Option ε}

/-- When no visit fails and each one logs its request, each window of the plan is asked for
once, in order. -/
theorem walk_asks (log : σ → List ρ) (succeeds : ∀ lo hi s, (visit lo hi s).2 = none)
    (logs : ∀ lo hi s, log (visit lo hi s).1 = log s ++ [request lo hi]) (cursor : Int) (s : σ) :
    log (walk window stop pos visit cursor s).1 =
      log s ++ (windows window stop pos cursor).map fun w => request w.1 w.2 := by
  by_cases more : cursor < stop
  · have visited : visit cursor (min (cursor + window) stop) s =
        ((visit cursor (min (cursor + window) stop) s).1, none) := by
      rw [← succeeds cursor (min (cursor + window) stop) s]
    rw [walk_next more visited, windows_of_lt more, List.map_cons, walk_asks log succeeds logs, logs,
      List.append_assoc, List.singleton_append]
  · rw [walk_of_le cursor s (not_lt.mp more), windows_of_le (not_lt.mp more), List.map_nil,
      List.append_nil]
termination_by (stop - cursor).toNat
decreasing_by omega

end LighterApi.Library.WindowWalk

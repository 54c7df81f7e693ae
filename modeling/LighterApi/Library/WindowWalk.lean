import Mathlib.Data.List.Sort
import Mathlib.Data.List.DropRight
import Mathlib.Tactic.Linarith

/-!
# Walking a range in abutting windows

A forward walk visits the closed windows `[c, min (c + window) stop]`, each one
starting where the last one ended, until the cursor reaches `stop`. The visit
may fail, which ends the walk with the state reached so far.

A collecting visit keeps the wanted elements of the batch fetched for a window
that are later than the last element kept. Whatever the batches hold, what is kept
is ascending and wanted (`Kept.append`). The other results say when the walk
collects exactly the wanted elements of a source list: every batch is an
ascending part of the source, holds nothing after its window, and holds the
whole source inside its window (`Answers`, `Collected.advance`). A batch that answers
"the last `n` elements up to the window's end" has this property as soon as `n`
is at least the number of grid points in the window (`rtake_covers`,
`grid_length_le`).
-/

namespace LighterApi.Library.WindowWalk

variable {α σ ε : Type*}

/-- The list is strictly ascending in its key. -/
def Ascending (key : α → Int) (l : List α) : Prop :=
  l.Pairwise (fun a b => key a < key b)

theorem Ascending.sublist {key : α → Int} {l l' : List α} (h : Ascending key l)
    (sub : l'.Sublist l) : Ascending key l' :=
  List.Pairwise.sublist sub h

theorem Ascending.filter {key : α → Int} {l : List α} (h : Ascending key l) (p : α → Bool) :
    Ascending key (l.filter p) :=
  h.sublist List.filter_sublist

/-- Two ascending lists with the same elements are the same list. -/
theorem Ascending.eq_of_mem_iff {key : α → Int} {l l' : List α} (h : Ascending key l)
    (h' : Ascending key l') (same : ∀ x, x ∈ l ↔ x ∈ l') : l = l' := by
  have irrefl : Std.Irrefl (fun a b : α => key a < key b) := ⟨fun a => lt_irrefl (key a)⟩
  have antisymm : Std.Antisymm (fun a b : α => key a < key b) :=
    ⟨fun a b hab hba => absurd hab (not_lt.mpr hba.le)⟩
  exact List.Pairwise.eq_of_mem_iff h h' same

/-! ## Grid points in a window -/

/-- A strictly ascending list of integers in `[lo, hi]` has at most `hi - lo + 1` elements. -/
theorem ascending_length_le (l : List Int) (lo hi : Int) (asc : l.Pairwise (· < ·))
    (inside : ∀ x ∈ l, lo ≤ x ∧ x ≤ hi) (ne : l ≠ []) : (l.length : Int) ≤ hi - lo + 1 := by
  induction l generalizing lo with
  | nil => exact absurd rfl ne
  | cons x rest ih =>
    have hx := inside x (by simp)
    obtain ⟨above, asc'⟩ := List.pairwise_cons.mp asc
    cases rest with
    | nil => simp only [List.length_singleton, Nat.cast_one]; omega
    | cons y tail =>
      have bound := ih (x + 1) asc'
        (fun z hz => ⟨above z hz, (inside z (List.mem_cons_of_mem _ hz)).2⟩) (by simp)
      simp only [List.length_cons, Nat.cast_add, Nat.cast_one] at bound ⊢
      omega

/-- At most `(hi - lo) / step + 1` multiples of `step` lie in `[lo, hi]`. -/
theorem grid_length_le (key : α → Int) (l : List α) (step lo hi : Int) (pos : 0 < step)
    (le : lo ≤ hi) (asc : Ascending key l) (aligned : ∀ x ∈ l, step ∣ key x)
    (inside : ∀ x ∈ l, lo ≤ key x ∧ key x ≤ hi) : (l.length : Int) ≤ (hi - lo) / step + 1 := by
  have nonneg : 0 ≤ (hi - lo) / step := Int.ediv_nonneg (by omega) pos.le
  cases l with
  | nil => simp only [List.length_nil, Nat.cast_zero]; omega
  | cons x rest =>
    -- The multiples, counted in steps from the first one.
    have quotients : ((x :: rest).map fun y => (key y - key x) / step).Pairwise (· < ·) := by
      rw [List.pairwise_map]
      refine List.Pairwise.imp_of_mem ?_ asc
      intro a b ha hb hab
      obtain ⟨p, hp⟩ := aligned a ha
      obtain ⟨q, hq⟩ := aligned b hb
      obtain ⟨r, hr⟩ := aligned x (by simp)
      rw [hp, hq, hr, ← Int.mul_sub, ← Int.mul_sub, Int.mul_ediv_cancel_left _ pos.ne',
        Int.mul_ediv_cancel_left _ pos.ne']
      rw [hp, hq] at hab
      have : p < q := lt_of_mul_lt_mul_left hab pos.le
      omega
    have bounds : ∀ z ∈ (x :: rest).map (fun y => (key y - key x) / step),
        0 ≤ z ∧ z ≤ (hi - lo) / step := by
      intro z hz
      obtain ⟨y, hy, rfl⟩ := List.mem_map.mp hz
      have later : key x ≤ key y := by
        rcases List.mem_cons.mp hy with rfl | hy
        · exact le_refl _
        · exact ((List.pairwise_cons.mp asc).1 y hy).le
      have hx := inside x (by simp)
      have hy' := inside y hy
      exact ⟨Int.ediv_nonneg (by omega) pos.le, Int.ediv_le_ediv pos (by omega)⟩
    have := ascending_length_le _ 0 _ quotients bounds (by simp)
    simpa using this

/-- In an ascending list the elements from `lo` on form a suffix, so the last `n`
elements hold all of them when there are at most `n`. -/
theorem rtake_covers (key : α → Int) (l : List α) (n : Nat) (lo : Int) (asc : Ascending key l)
    (few : (l.filter fun x => lo ≤ key x).length ≤ n) {x : α} (hx : x ∈ l) (late : lo ≤ key x) :
    x ∈ l.rtake n := by
  induction l with
  | nil => exact absurd hx List.not_mem_nil
  | cons a rest ih =>
    obtain ⟨above, asc'⟩ := List.pairwise_cons.mp asc
    by_cases ha : lo ≤ key a
    · -- From `a` on everything is late, so the whole list fits.
      have all : ((a :: rest).filter fun x => lo ≤ key x) = a :: rest := by
        rw [List.filter_eq_self]
        intro y hy
        rcases List.mem_cons.mp hy with rfl | hy
        · simpa using ha
        · simpa using ha.trans (above y hy).le
      rw [all] at few
      have whole : (a :: rest).rtake n = a :: rest := by
        rw [List.rtake, Nat.sub_eq_zero_of_le few, List.drop_zero]
      rw [whole]
      exact hx
    · have tail : x ∈ rest := by
        rcases List.mem_cons.mp hx with rfl | hx
        · exact absurd late ha
        · exact hx
      have few' : (rest.filter fun x => lo ≤ key x).length ≤ n := by simpa [ha] using few
      have found := ih asc' few' tail
      rw [List.rtake_eq_reverse_take_reverse, List.mem_reverse] at found ⊢
      rw [List.reverse_cons, List.take_append]
      exact List.mem_append_left _ found

/-! ## The collecting pass over one batch -/

/-- Keep the wanted elements later than the last one kept, remembering the last key kept. -/
def collect (key : α → Int) (wanted : α → Bool) : Int → List α → List α × Int
  | last, [] => ([], last)
  | last, x :: rest =>
    if wanted x && decide (last < key x) then
      let later := collect key wanted (key x) rest
      (x :: later.1, later.2)
    else collect key wanted last rest

variable (key : α → Int) (wanted : α → Bool)

theorem collect_last (last : Int) (batch : List α) :
    (collect key wanted last batch).2 =
      ((collect key wanted last batch).1.getLast?.map key).getD last := by
  induction batch generalizing last with
  | nil => rfl
  | cons x rest ih =>
    unfold collect
    split
    · simp only [ih (key x), List.getLast?_cons, Option.map_some, Option.getD_some]
      cases (collect key wanted (key x) rest).1.getLast? <;> rfl
    · exact ih last

theorem collect_wanted (last : Int) (batch : List α) :
    ∀ x ∈ (collect key wanted last batch).1, x ∈ batch ∧ wanted x = true ∧ last < key x := by
  induction batch generalizing last with
  | nil => intro x hx; exact absurd hx List.not_mem_nil
  | cons a rest ih =>
    intro x hx
    unfold collect at hx
    split at hx
    · rename_i take
      simp only [Bool.and_eq_true, decide_eq_true_eq] at take
      rcases List.mem_cons.mp hx with rfl | hx
      · exact ⟨by simp, take.1, take.2⟩
      · obtain ⟨member, want, later⟩ := ih (key a) x hx
        exact ⟨List.mem_cons_of_mem _ member, want, take.2.trans later⟩
    · obtain ⟨member, want, later⟩ := ih last x hx
      exact ⟨List.mem_cons_of_mem _ member, want, later⟩

/-- What is kept from any batch, sorted or not, is strictly ascending. -/
theorem collect_ascending (last : Int) (batch : List α) :
    Ascending key (collect key wanted last batch).1 := by
  induction batch generalizing last with
  | nil => exact List.Pairwise.nil
  | cons a rest ih =>
    unfold collect
    split
    · exact List.pairwise_cons.mpr
        ⟨fun y hy => (collect_wanted key wanted (key a) rest y hy).2.2, ih (key a)⟩
    · exact ih last

/-- The last key kept never goes back, and nothing kept is later. -/
theorem collect_upto (last : Int) (batch : List α) :
    last ≤ (collect key wanted last batch).2 ∧
      ∀ x ∈ (collect key wanted last batch).1, key x ≤ (collect key wanted last batch).2 := by
  induction batch generalizing last with
  | nil => exact ⟨le_refl last, fun x hx => absurd hx List.not_mem_nil⟩
  | cons a rest ih =>
    unfold collect
    split
    · rename_i take
      simp only [Bool.and_eq_true, decide_eq_true_eq] at take
      obtain ⟨reached, below⟩ := ih (key a)
      refine ⟨take.2.le.trans reached, fun x hx => ?_⟩
      rcases List.mem_cons.mp hx with rfl | hx
      · exact reached
      · exact below x hx
    · exact ih last

/-- On an ascending batch the running last key drops nothing but what was kept before. -/
theorem collect_of_ascending (last : Int) (batch : List α) (asc : Ascending key batch) :
    (collect key wanted last batch).1 =
      batch.filter (fun x => wanted x && decide (last < key x)) := by
  induction batch generalizing last with
  | nil => rfl
  | cons a rest ih =>
    obtain ⟨above, asc'⟩ := List.pairwise_cons.mp asc
    unfold collect
    rw [List.filter_cons]
    split
    · rename_i take
      simp only [Bool.and_eq_true, decide_eq_true_eq] at take
      have tail : rest.filter (fun x => wanted x && decide (key a < key x)) =
          rest.filter (fun x => wanted x && decide (last < key x)) := by
        refine List.filter_congr ?_
        intro y hy
        have later := above y hy
        simp only [later, decide_true, take.2.trans later]
      change a :: (collect key wanted (key a) rest).1 = _
      rw [ih (key a) asc', tail]
    · exact ih last asc'

/-- What is wanted of the batch decides. -/
theorem collect_congr {wanted' : α → Bool} (last : Int) (batch : List α)
    (agree : ∀ x ∈ batch, wanted x = wanted' x) :
    collect key wanted last batch = collect key wanted' last batch := by
  induction batch generalizing last with
  | nil => rfl
  | cons x rest ih =>
    have ih' := fun last => ih last fun y hy => agree y (List.mem_cons_of_mem _ hy)
    rw [collect, collect, agree x List.mem_cons_self, ih' (key x), ih' last]

/-- Collecting from a rewritten batch: where the rewriting keeps what is wanted and the
key of what is wanted, the same elements are taken. -/
theorem collect_map {β : Type*} {key' : β → Int} {wanted' : β → Bool} (f g : α → β) (last : Int)
    (batch : List α)
    (agree : ∀ x ∈ batch, wanted' (f x) = wanted x ∧
      (wanted x = true → f x = g x ∧ key' (g x) = key x)) :
    collect key' wanted' last (batch.map f) =
      ((collect key wanted last batch).1.map g, (collect key wanted last batch).2) := by
  induction batch generalizing last with
  | nil => rfl
  | cons x rest ih =>
    have ih' := fun last => ih last fun y hy => agree y (List.mem_cons_of_mem _ hy)
    obtain ⟨same, image⟩ := agree x (by simp)
    rw [List.map_cons, collect, collect, same]
    cases want : wanted x with
    | false => simpa using ih' last
    | true =>
      obtain ⟨taken, same_key⟩ := image want
      rw [taken, same_key]
      split
      · rw [ih' (key x)]
        rfl
      · exact ih' last

/-! ## The walk -/

/-- Visit abutting windows from `cursor` until `stop`; a failing visit ends the walk. -/
def walk (window stop : Int) (pos : 0 < window) (visit : Int → Int → σ → σ × Option ε)
    (cursor : Int) (s : σ) : σ × Option ε :=
  if cursor < stop then
    match visit cursor (min (cursor + window) stop) s with
    | (s', some e) => (s', some e)
    | (s', none) => walk window stop pos visit (min (cursor + window) stop) s'
  else (s, none)
termination_by (stop - cursor).toNat
decreasing_by omega

variable {window stop : Int} {pos : 0 < window} {visit : Int → Int → σ → σ × Option ε}

theorem walk_of_le (cursor : Int) (s : σ) (done : stop ≤ cursor) :
    walk window stop pos visit cursor s = (s, none) := by
  rw [walk, if_neg (not_lt.mpr done)]

theorem walk_fail {cursor : Int} {s s' : σ} {e : ε} (more : cursor < stop)
    (failed : visit cursor (min (cursor + window) stop) s = (s', some e)) :
    walk window stop pos visit cursor s = (s', some e) := by
  rw [walk, if_pos more, failed]

theorem walk_next {cursor : Int} {s s' : σ} (more : cursor < stop)
    (visited : visit cursor (min (cursor + window) stop) s = (s', none)) :
    walk window stop pos visit cursor s =
      walk window stop pos visit (min (cursor + window) stop) s' := by
  rw [walk, if_pos more, visited]

/-- What every visit keeps, failing or not, the walk keeps. -/
theorem walk_always {P : σ → Prop} (keeps : ∀ c e s, P s → P (visit c e s).1)
    (cursor : Int) (s : σ) (start : P s) : P (walk window stop pos visit cursor s).1 := by
  by_cases more : cursor < stop
  · have next := keeps cursor (min (cursor + window) stop) s start
    rcases visited : visit cursor (min (cursor + window) stop) s with ⟨s', outcome⟩
    rw [visited] at next
    cases outcome with
    | some e => rw [walk_fail more visited]; exact next
    | none =>
      rw [walk_next more visited]
      exact walk_always keeps (min (cursor + window) stop) s' next
  · rw [walk_of_le cursor s (not_lt.mp more)]
    exact start
termination_by (stop - cursor).toNat
decreasing_by omega

/-- A walk whose visits cannot fail carries an invariant of cursor and state from
the first window to `stop`. -/
theorem walk_invariant {I : Int → σ → Prop}
    (visits : ∀ c s, c < stop → I c s →
      ∃ s', visit c (min (c + window) stop) s = (s', none) ∧ I (min (c + window) stop) s')
    (cursor : Int) (s : σ) (start : I cursor s) (more : cursor < stop) :
    ∃ s', walk window stop pos visit cursor s = (s', none) ∧ I stop s' := by
  obtain ⟨s', visited, kept⟩ := visits cursor s more start
  rw [walk_next more visited]
  by_cases again : min (cursor + window) stop < stop
  · exact walk_invariant visits (min (cursor + window) stop) s' kept again
  · have last : min (cursor + window) stop = stop := by omega
    rw [walk_of_le _ s' (not_lt.mp again)]
    exact ⟨s', rfl, last ▸ kept⟩
termination_by (stop - cursor).toNat
decreasing_by omega

/-! ## Collecting over the walk -/

/-- What has been kept of whatever came: ascending, wanted, and nothing later than the
last key. -/
structure Kept (last : Int) (kept : List α) : Prop where
  ascending : Ascending key kept
  wanted : ∀ x ∈ kept, wanted x = true
  upto : ∀ x ∈ kept, key x ≤ last

theorem Kept.nil (last : Int) : Kept key wanted last [] :=
  ⟨List.Pairwise.nil, fun _ none_in => absurd none_in List.not_mem_nil,
    fun _ none_in => absurd none_in List.not_mem_nil⟩

variable {key wanted} in
/-- One more batch, whatever is in it. -/
theorem Kept.append {last : Int} {kept : List α} (before : Kept key wanted last kept)
    (batch : List α) :
    Kept key wanted (collect key wanted last batch).2 (kept ++ (collect key wanted last batch).1) := by
  obtain ⟨reached, below⟩ := collect_upto key wanted last batch
  have new := collect_wanted key wanted last batch
  refine ⟨List.pairwise_append.mpr ⟨before.ascending, collect_ascending key wanted last batch, ?_⟩,
    ?_, ?_⟩
  · intro x old y fresh
    have early := before.upto x old
    have late := (new y fresh).2.2
    omega
  · intro x member
    rcases List.mem_append.mp member with old | fresh
    · exact before.wanted x old
    · exact (new x fresh).2.1
  · intro x member
    rcases List.mem_append.mp member with old | fresh
    · exact (before.upto x old).trans reached
    · exact below x fresh

/-- A batch answers the window `[lo, hi]` of the source: it is an ascending part of
the source, nothing in it is later than the window, and nothing of the source inside
the window is missing. -/
structure Answers (source : List α) (lo hi : Int) (batch : List α) : Prop where
  part : ∀ x ∈ batch, x ∈ source
  ascending : Ascending key batch
  bounded : ∀ x ∈ batch, key x ≤ hi
  covers : ∀ x ∈ source, lo ≤ key x → key x ≤ hi → x ∈ batch

/-- On a grid, a batch that holds the last `n` elements up to the window's end answers
the window once `n` is at least the number of grid points in it. -/
theorem Answers.of_last {source batch : List α} {lo hi : Int} (step : Int) (n : Nat)
    (grid : 0 < step) (le : lo ≤ hi) (asc : Ascending key source) (aligned : ∀ x ∈ source, step ∣ key x)
    (enough : (hi - lo) / step + 1 ≤ n) (part : ∀ x ∈ batch, x ∈ source)
    (ascending : Ascending key batch) (bounded : ∀ x ∈ batch, key x ≤ hi)
    (last : ∀ x ∈ (source.filter fun x => key x ≤ hi).rtake n, x ∈ batch) :
    Answers key source lo hi batch := by
  refine ⟨part, ascending, bounded, fun x member after upto => last x ?_⟩
  have upto_end : x ∈ source.filter fun x => key x ≤ hi := by
    simpa using ⟨member, upto⟩
  refine rtake_covers key _ n lo (asc.filter _) ?_ upto_end after
  have count := grid_length_le key ((source.filter fun x => key x ≤ hi).filter fun x => lo ≤ key x)
    step lo hi grid le ((asc.filter _).filter _) ?_ ?_
  · omega
  · intro y hy
    simp only [List.mem_filter] at hy
    exact aligned y hy.1.1
  · intro y hy
    simp only [List.mem_filter, decide_eq_true_eq] at hy
    exact ⟨hy.2, hy.1.2⟩

/-- What has been collected with the frontier at `lo`: the wanted elements up to the
last key kept, and every other wanted element is still ahead. -/
structure Collected (source : List α) (lo last : Int) (kept : List α) : Prop where
  kept_eq : kept = source.filter (fun x => wanted x && decide (key x ≤ last))
  ahead : ∀ x ∈ source, wanted x = true → key x ≤ last ∨ lo ≤ key x

variable {key wanted} {source : List α}

/-- Before the first window nothing is kept. -/
theorem Collected.start {lo last : Int}
    (later : ∀ x ∈ source, wanted x = true → last < key x ∧ lo ≤ key x) :
    Collected key wanted source lo last [] := by
  refine ⟨(List.filter_eq_nil_iff.mpr ?_).symm, fun x hx want => Or.inr (later x hx want).2⟩
  intro x hx
  simp only [Bool.and_eq_true, decide_eq_true_eq, not_and, not_le]
  exact fun want => (later x hx want).1

/-- One window: the frontier moves past the window's end. -/
theorem Collected.advance {lo hi last : Int} {kept batch : List α}
    (asc : Ascending key source) (before : Collected key wanted source lo last kept)
    (answer : Answers key source lo hi batch) :
    Collected key wanted source (hi + 1) (collect key wanted last batch).2
      (kept ++ (collect key wanted last batch).1) := by
  have taken := collect_of_ascending key wanted last batch answer.ascending
  have new : ∀ x, x ∈ (collect key wanted last batch).1 ↔
      x ∈ source ∧ wanted x = true ∧ last < key x ∧ key x ≤ hi := by
    intro x
    rw [taken, List.mem_filter]
    simp only [Bool.and_eq_true, decide_eq_true_eq]
    constructor
    · rintro ⟨member, want, later⟩
      exact ⟨answer.part x member, want, later, answer.bounded x member⟩
    · rintro ⟨member, want, later, inside⟩
      rcases before.ahead x member want with old | ahead
      · omega
      · exact ⟨answer.covers x member ahead inside, want, later⟩
  -- The last key kept separates the wanted elements of this window from those ahead.
  have reach : ∀ x ∈ source, wanted x = true →
      (key x ≤ (collect key wanted last batch).2 ↔ key x ≤ last ∨ x ∈ (collect key wanted last batch).1) := by
    intro x member want
    rw [collect_last]
    cases final : (collect key wanted last batch).1.getLast? with
    | none =>
      have none_kept := List.getLast?_eq_none_iff.mp final
      simp [none_kept]
    | some y =>
      obtain ⟨front, split⟩ := List.getLast?_eq_some_iff.mp final
      have asc_new := collect_ascending key wanted last batch
      have y_new := (new y).mp (by rw [split]; simp)
      simp only [Option.map_some, Option.getD_some]
      constructor
      · intro upto
        by_cases old : key x ≤ last
        · exact Or.inl old
        · exact Or.inr ((new x).mpr ⟨member, want, by omega, by omega⟩)
      · rintro (old | fresh)
        · omega
        · rw [split] at fresh asc_new
          rcases List.mem_append.mp fresh with earlier | same
          · exact ((List.pairwise_append.mp asc_new).2.2 x earlier y (by simp)).le
          · rw [List.mem_singleton.mp same]
  constructor
  · refine Ascending.eq_of_mem_iff ?_ (asc.filter _) ?_
    · refine List.pairwise_append.mpr ⟨?_, collect_ascending key wanted last batch, ?_⟩
      · rw [before.kept_eq]
        exact asc.filter _
      · intro a ha b hb
        rw [before.kept_eq, List.mem_filter] at ha
        simp only [Bool.and_eq_true, decide_eq_true_eq] at ha
        exact lt_of_le_of_lt ha.2.2 ((new b).mp hb).2.2.1
    · intro x
      rw [List.mem_append, before.kept_eq, List.mem_filter, List.mem_filter]
      simp only [Bool.and_eq_true, decide_eq_true_eq]
      constructor
      · rintro (⟨member, want, old⟩ | fresh)
        · exact ⟨member, want, (reach x member want).mpr (Or.inl old)⟩
        · obtain ⟨member, want, _⟩ := (new x).mp fresh
          exact ⟨member, want, (reach x member want).mpr (Or.inr fresh)⟩
      · rintro ⟨member, want, upto⟩
        rcases (reach x member want).mp upto with old | fresh
        · exact Or.inl ⟨member, want, old⟩
        · exact Or.inr fresh
  · intro x member want
    by_cases inside : key x ≤ hi
    · refine Or.inl ((reach x member want).mpr ?_)
      by_cases old : key x ≤ last
      · exact Or.inl old
      · exact Or.inr ((new x).mpr ⟨member, want, by omega, inside⟩)
    · exact Or.inr (by omega)

/-- What is wanted of the source decides. -/
theorem Collected.congr {wanted' : α → Bool} {lo last : Int} {kept : List α}
    (h : Collected key wanted source lo last kept) (agree : ∀ x ∈ source, wanted x = wanted' x) :
    Collected key wanted' source lo last kept := by
  refine ⟨?_, fun x hx want => h.ahead x hx ((agree x hx).trans want)⟩
  rw [h.kept_eq]
  exact List.filter_congr fun x hx => by rw [agree x hx]

/-- A frontier that moves back forgets nothing. -/
theorem Collected.mono {lo lo' last : Int} {kept : List α}
    (h : Collected key wanted source lo last kept) (le : lo' ≤ lo) :
    Collected key wanted source lo' last kept :=
  ⟨h.kept_eq, fun x hx want => (h.ahead x hx want).imp_right (le_trans le)⟩

/-- Once no wanted element lies ahead, what was collected is every wanted element. -/
theorem Collected.complete {lo last : Int} {kept : List α}
    (h : Collected key wanted source lo last kept)
    (none_ahead : ∀ x ∈ source, wanted x = true → key x < lo) :
    kept = source.filter wanted := by
  rw [h.kept_eq]
  refine List.filter_congr ?_
  intro x hx
  cases want : wanted x with
  | false => rfl
  | true =>
    have := none_ahead x hx want
    rcases h.ahead x hx want with upto | ahead
    · simp [upto]
    · omega

end LighterApi.Library.WindowWalk

import LighterApi.Library.WindowWalk

/-!
# Going on behind the last element

A collecting walk that a failing visit may end anywhere has still collected the wanted
elements of its source up to some key (`walk_reaches`). Whoever keeps what it collected and
walks again behind the last element kept has after every attempt such a part of the whole
(`Segment.resume`), and the whole after the first one that is not cut short
(`Segment.finish`).
-/
namespace LighterApi.Library.WindowWalk

variable {α σ ε : Type*}

/-- A walk whose visits carry an invariant of cursor and state, at the same cursor when they
fail, ends with the invariant, at the stop unless a visit failed. -/
theorem walk_reaches {window stop : Int} {pos : 0 < window} {visit : Int → Int → σ → σ × Option ε}
    {I : Int → σ → Prop}
    (visits : ∀ c s, c < stop → I c s →
      (∃ s' e, visit c (min (c + window) stop) s = (s', some e) ∧ I c s') ∨
        ∃ s', visit c (min (c + window) stop) s = (s', none) ∧ I (min (c + window) stop) s')
    (cursor : Int) (s : σ) (start : I cursor s) :
    ∃ c s', I c s' ∧ ((∃ e, walk window stop pos visit cursor s = (s', some e)) ∨
      walk window stop pos visit cursor s = (s', none) ∧ stop ≤ c) := by
  by_cases more : cursor < stop
  · rcases visits cursor s more start with ⟨s', e, failed, kept⟩ | ⟨s', visited, kept⟩
    · exact ⟨cursor, s', kept, Or.inl ⟨e, walk_fail more failed⟩⟩
    · rw [walk_next more visited]
      exact walk_reaches visits (min (cursor + window) stop) s' kept
  · exact ⟨cursor, s, start, Or.inr ⟨walk_of_le cursor s (not_lt.mp more), not_lt.mp more⟩⟩
termination_by (stop - cursor).toNat
decreasing_by omega

/-- What lies up to a key in an ascending list comes first in it. -/
theorem filter_upto_first {key : α → Int} {l : List α} (asc : Ascending key l) (upto : Int) :
    l.filter (fun x => key x ≤ upto) <+: l := by
  induction l with
  | nil => exact List.nil_prefix
  | cons x rest ih =>
    obtain ⟨above, asc'⟩ := List.pairwise_cons.mp asc
    by_cases within : key x ≤ upto
    · rw [List.filter_cons_of_pos (by simpa using within)]
      exact (List.prefix_cons_inj x).mpr (ih asc')
    · have none_within : rest.filter (fun y => key y ≤ upto) = [] := by
        refine List.filter_eq_nil_iff.mpr fun y member => ?_
        have later := above y member
        simp only [decide_eq_true_eq]
        omega
      rw [List.filter_cons_of_neg (by simpa using within), none_within]
      exact List.nil_prefix

section Resuming

variable (key : α → Int) (wanted : α → Bool)

/-- Where to go on: behind the last element kept, or at the first key. -/
def resumeAt (first : Int) (kept : List α) : Int := (kept.getLast?.map fun x => key x + 1).getD first

/-- The wanted elements from this key on. -/
def wantedFrom (first : Int) (x : α) : Bool := wanted x && decide (first ≤ key x)

/-- The wanted elements of the source up to some key. -/
def Segment (source kept : List α) : Prop :=
  ∃ upto, kept = source.filter fun x => wanted x && decide (key x ≤ upto)

variable {key wanted} {source kept new : List α} {first lo last : Int}

theorem Segment.nil (source : List α) : Segment key wanted source [] := by
  induction source with
  | nil => exact ⟨0, rfl⟩
  | cons x rest ih =>
    obtain ⟨upto, empty⟩ := ih
    have none_kept := List.filter_eq_nil_iff.mp empty.symm
    refine ⟨min upto (key x - 1), (List.filter_eq_nil_iff.mpr fun y member => ?_).symm⟩
    rcases List.mem_cons.mp member with rfl | later
    · simp
    · have absent := none_kept y later
      simp only [Bool.and_eq_true, decide_eq_true_eq, not_and, le_min_iff] at absent ⊢
      intro want within
      exact absurd within (absent want)

theorem Segment.ascending (h : Segment key wanted source kept) (asc : Ascending key source) :
    Ascending key kept := by
  obtain ⟨upto, rfl⟩ := h
  exact asc.filter _

/-- A wanted element is kept exactly if it lies before the place to go on at. -/
theorem Segment.mem_iff (h : Segment key wanted source kept) (asc : Ascending key source)
    (starts : ∀ x ∈ source, wanted x = true → first ≤ key x) {x : α} :
    x ∈ kept ↔ x ∈ source ∧ wanted x = true ∧ key x < resumeAt key first kept := by
  have ascending := h.ascending asc
  obtain ⟨upto, kept_eq⟩ := h
  have member : ∀ y, y ∈ kept ↔ y ∈ source ∧ wanted y = true ∧ key y ≤ upto := by
    intro y
    rw [kept_eq, List.mem_filter]
    simp only [Bool.and_eq_true, decide_eq_true_eq]
  unfold resumeAt
  cases final : kept.getLast? with
  | none =>
    rw [List.getLast?_eq_none_iff.mp final]
    simp only [List.not_mem_nil, Option.map_none, Option.getD_none, false_iff, not_and, not_lt]
    exact starts x
  | some y =>
    obtain ⟨front, split⟩ := List.getLast?_eq_some_iff.mp final
    have y_kept := (member y).mp (by rw [split]; simp)
    simp only [Option.map_some, Option.getD_some]
    constructor
    · intro x_kept
      have x_spec := (member x).mp x_kept
      refine ⟨x_spec.1, x_spec.2.1, ?_⟩
      rw [split] at x_kept ascending
      rcases List.mem_append.mp x_kept with earlier | same
      · have before := (List.pairwise_append.mp ascending).2.2 x earlier y (by simp)
        omega
      · rw [List.mem_singleton.mp same]
        omega
    · rintro ⟨in_source, want, before⟩
      exact (member x).mpr ⟨in_source, want, by omega⟩

/-- What an attempt behind the last element adds follows on what was kept. -/
theorem Segment.append_ascending (h : Segment key wanted source kept) (asc : Ascending key source)
    (starts : ∀ x ∈ source, wanted x = true → first ≤ key x) (ascending : Ascending key new)
    (later : ∀ x ∈ new, resumeAt key first kept ≤ key x) : Ascending key (kept ++ new) := by
  refine List.pairwise_append.mpr ⟨h.ascending asc, ascending, fun a old b fresh => ?_⟩
  have before := ((h.mem_iff asc starts).mp old).2.2
  have after := later b fresh
  omega

/-- An attempt that was cut short leaves another segment. -/
theorem Segment.resume (h : Segment key wanted source kept) (asc : Ascending key source)
    (starts : ∀ x ∈ source, wanted x = true → first ≤ key x)
    (collected : Collected key (wantedFrom key wanted (resumeAt key first kept)) source lo last new) :
    Segment key wanted source (kept ++ new) := by
  have new_mem : ∀ x, x ∈ new ↔ x ∈ source ∧ wanted x = true ∧ resumeAt key first kept ≤ key x ∧
      key x ≤ last := by
    intro x
    rw [collected.kept_eq, List.mem_filter]
    simp only [wantedFrom, Bool.and_eq_true, decide_eq_true_eq, and_assoc]
  by_cases nothing : new = []
  · rwa [nothing, List.append_nil]
  · obtain ⟨y, y_new⟩ := List.exists_mem_of_ne_nil new nothing
    have y_spec := (new_mem y).mp y_new
    refine ⟨last, Ascending.eq_of_mem_iff ?_ (asc.filter _) fun x => ?_⟩
    · refine h.append_ascending asc starts ?_ fun x member => ((new_mem x).mp member).2.2.1
      rw [collected.kept_eq]
      exact asc.filter _
    · rw [List.mem_append, h.mem_iff asc starts, new_mem, List.mem_filter]
      simp only [Bool.and_eq_true, decide_eq_true_eq]
      constructor
      · rintro (⟨member, want, before⟩ | ⟨member, want, after, within⟩)
        · exact ⟨member, want, by omega⟩
        · exact ⟨member, want, within⟩
      · rintro ⟨member, want, within⟩
        by_cases before : key x < resumeAt key first kept
        · exact Or.inl ⟨member, want, before⟩
        · exact Or.inr ⟨member, want, not_lt.mp before, within⟩

/-- An attempt that was not cut short completes the whole. -/
theorem Segment.finish (h : Segment key wanted source kept) (asc : Ascending key source)
    (starts : ∀ x ∈ source, wanted x = true → first ≤ key x)
    (complete : new = source.filter (wantedFrom key wanted (resumeAt key first kept))) :
    kept ++ new = source.filter wanted := by
  have new_mem : ∀ x, x ∈ new ↔ x ∈ source ∧ wanted x = true ∧ resumeAt key first kept ≤ key x := by
    intro x
    rw [complete, List.mem_filter]
    simp only [wantedFrom, Bool.and_eq_true, decide_eq_true_eq]
  refine Ascending.eq_of_mem_iff ?_ (asc.filter _) fun x => ?_
  · refine h.append_ascending asc starts ?_ fun x member => ((new_mem x).mp member).2.2
    rw [complete]
    exact asc.filter _
  · rw [List.mem_append, h.mem_iff asc starts, new_mem, List.mem_filter]
    constructor
    · rintro (⟨member, want, -⟩ | ⟨member, want, -⟩)
      · exact ⟨member, want⟩
      · exact ⟨member, want⟩
    · rintro ⟨member, want⟩
      by_cases before : key x < resumeAt key first kept
      · exact Or.inl ⟨member, want, before⟩
      · exact Or.inr ⟨member, want, not_lt.mp before⟩

/-- A segment is a first part of the whole. -/
theorem Segment.first_part (h : Segment key wanted source kept) (asc : Ascending key source) :
    kept <+: source.filter wanted := by
  obtain ⟨upto, rfl⟩ := h
  have nested : source.filter (fun x => wanted x && decide (key x ≤ upto)) =
      (source.filter wanted).filter fun x => key x ≤ upto := by
    rw [List.filter_filter]
    exact List.filter_congr fun x _ => Bool.and_comm _ _
  rw [nested]
  exact filter_upto_first (asc.filter _) upto

end Resuming

end LighterApi.Library.WindowWalk

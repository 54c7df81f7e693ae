import Mathlib.Data.List.Infix

/-!
# Occurrences of a pattern across a join

A text assembled from two parts can hold a pattern that neither part holds. Two
conditions rule that out: the pattern starts with a symbol the first part does
not have (`infix_append_iff_of_head`), or the parts are joined by a separator
the pattern does not have (`infix_append_sep_iff`). A pattern that does have the
separator can lie across it, and then it is cut where the text is
(`infix_across_sep_iff`). Two joins that are the same text have the same parts when
neither first part has the separator (`append_sep_inj`).
-/

namespace LighterApi.Library.Infix

variable {α : Type*}

theorem infix_append_of_left {pat a : List α} (b : List α) (h : pat <:+: a) : pat <:+: a ++ b :=
  h.trans (List.prefix_append a b).isInfix

theorem infix_append_of_right {pat b : List α} (a : List α) (h : pat <:+: b) : pat <:+: a ++ b :=
  h.trans (List.suffix_append a b).isInfix

/-- A pattern whose first symbol is not in the first part occurs in the second part. -/
theorem infix_append_iff_of_head {x : α} {pat a b : List α} (absent : x ∉ a) :
    (x :: pat) <:+: a ++ b ↔ (x :: pat) <:+: b := by
  refine ⟨?_, infix_append_of_right a⟩
  rintro ⟨s, t, eq⟩
  rw [List.append_assoc, List.append_eq_append_iff] at eq
  rcases eq with ⟨c, a_eq, rest⟩ | ⟨c, s_eq, b_eq⟩
  · cases c with
    | nil => exact ⟨[], t, by simpa using rest⟩
    | cons y c =>
      have same : x = y := (List.cons.inj (by simpa using rest)).1
      exact absurd (by rw [a_eq, same]; simp) absent
  · exact ⟨c, t, by rw [b_eq, List.append_assoc]⟩

/-- A pattern without the separator occurs on one side of it. -/
theorem infix_append_sep_iff {sep : α} {pat a b : List α} (absent : sep ∉ pat) :
    pat <:+: a ++ sep :: b ↔ pat <:+: a ∨ pat <:+: b := by
  constructor
  · rintro ⟨s, t, eq⟩
    rw [List.append_assoc, List.append_eq_append_iff] at eq
    rcases eq with ⟨c, a_eq, rest⟩ | ⟨c, s_eq, b_eq⟩
    · rw [List.append_eq_append_iff] at rest
      rcases rest with ⟨d, c_eq, _⟩ | ⟨d, pat_eq, sep_eq⟩
      · exact Or.inl ⟨s, d, by rw [a_eq, c_eq, List.append_assoc]⟩
      · cases d with
        | nil => exact Or.inl ⟨s, [], by rw [a_eq, pat_eq]; simp⟩
        | cons y d =>
          have same : sep = y := (List.cons.inj sep_eq).1
          exact absurd (by rw [pat_eq, same]; simp) absent
    · cases c with
      | nil =>
        cases pat with
        | nil => exact Or.inr (List.nil_infix)
        | cons y pat =>
          have same : sep = y := (List.cons.inj (by simpa using b_eq)).1
          exact absurd (by rw [same]; simp) absent
      | cons y c =>
        have b_eq' : b = c ++ (pat ++ t) := (List.cons.inj b_eq).2
        exact Or.inr ⟨c, t, by rw [b_eq', List.append_assoc]⟩
  · rintro (left | right)
    · exact infix_append_of_left (sep :: b) left
    · exact infix_append_of_right a (right.trans (List.suffix_cons sep b).isInfix)

/-- A text is cut at its first separator in one way only. -/
theorem append_sep_inj {sep : α} {a a' b b' : List α} (absent : sep ∉ a) (absent' : sep ∉ a')
    (same : a ++ sep :: b = a' ++ sep :: b') : a = a' ∧ b = b' := by
  induction a generalizing a' with
  | nil =>
    cases a' with
    | nil => exact ⟨rfl, (List.cons.inj same).2⟩
    | cons y a' =>
      have here : sep = y := (List.cons.inj same).1
      exact absurd (here ▸ List.mem_cons_self) absent'
  | cons x a ih =>
    cases a' with
    | nil =>
      have here : x = sep := (List.cons.inj same).1
      exact absurd (here ▸ List.mem_cons_self) absent
    | cons y a' =>
      obtain ⟨head, tail⟩ := List.cons.inj same
      obtain ⟨front, back⟩ := ih (fun h => absent (List.mem_cons_of_mem x h))
        (fun h => absent' (List.mem_cons_of_mem y h)) tail
      exact ⟨by rw [head, front], back⟩

/-- A pattern with the separator lies across the first one of the text, or behind it. -/
theorem infix_across_sep_iff {sep : α} {p q a b : List α} (fresh : sep ∉ p) (first : sep ∉ a) :
    p ++ sep :: q <:+: a ++ sep :: b ↔ (p <:+ a ∧ q <+: b) ∨ p ++ sep :: q <:+: b := by
  constructor
  · rintro ⟨s, t, eq⟩
    by_cases early : sep ∈ s
    · -- The pattern starts behind the first separator of the text.
      obtain ⟨s₁, s₂, s_eq, absent⟩ := List.eq_append_cons_of_mem early
      have regrouped : s₁ ++ sep :: (s₂ ++ (p ++ sep :: q) ++ t) = a ++ sep :: b := by
        rw [← eq, s_eq]
        simp
      exact Or.inr ⟨s₂, t, (append_sep_inj absent first regrouped).2⟩
    · have absent : sep ∉ s ++ p := by simp [early, fresh]
      have regrouped : (s ++ p) ++ sep :: (q ++ t) = a ++ sep :: b := by
        rw [← eq]
        simp
      obtain ⟨front, rest⟩ := append_sep_inj absent first regrouped
      exact Or.inl ⟨⟨s, front⟩, ⟨t, rest⟩⟩
  · rintro (⟨⟨s, rfl⟩, ⟨t, rfl⟩⟩ | behind)
    · exact ⟨s, t, by simp⟩
    · exact infix_append_of_right a (behind.trans (List.suffix_cons sep b).isInfix)

end LighterApi.Library.Infix

import Mathlib.Data.List.Basic
import LighterApi.Library.Transition

/-!
# The latest mark of a history

An event may mark a value, depending on what came before it. The latest mark of a history
is the value of the last event that marks one (`Latest`). A cell that every marking step
writes and no other step touches holds the latest mark after every run (`run_latest`).
-/

namespace LighterApi.Library.LastMark
open LighterApi.Library.Transition

variable {σ α β : Type*} (Marks : List α → α → β → Prop)

/-- The last event that marks anything marks `b`. -/
def Latest (events : List α) (b : β) : Prop :=
  ∃ past a later, events = past ++ a :: later ∧ Marks past a b ∧
    ∀ between a' rest, later = between ++ a' :: rest → ∀ b', ¬ Marks (past ++ a :: between) a' b'

variable {Marks}

theorem not_latest_nil (b : β) : ¬ Latest Marks [] b := by
  rintro ⟨past, a, later, cut, _⟩
  exact List.append_ne_nil_of_right_ne_nil past (List.cons_ne_nil a later) cut.symm

/-- The next event decides, when it marks a value. -/
theorem latest_concat_iff {events : List α} {a : α} {b : β} :
    Latest Marks (events ++ [a]) b ↔
      Marks events a b ∨ (∀ b', ¬ Marks events a b') ∧ Latest Marks events b := by
  constructor
  · rintro ⟨past, first, later, cut, marks, quiet⟩
    rcases List.eq_nil_or_concat' later with rfl | ⟨init, last, rfl⟩
    · obtain ⟨rfl, same⟩ := List.append_inj' cut rfl
      rw [(List.cons.inj same).1]
      exact Or.inl marks
    · rw [← List.cons_append, ← List.append_assoc] at cut
      obtain ⟨rfl, same⟩ := List.append_inj' cut rfl
      have silent := quiet init last [] rfl
      rw [← (List.cons.inj same).1] at silent
      refine Or.inr ⟨silent, past, first, init, rfl, marks, ?_⟩
      rintro between a' rest rfl
      exact quiet between a' (rest ++ [last]) (by rw [List.append_assoc, List.cons_append])
  · rintro (marks | ⟨silent, past, first, later, rfl, marks, quiet⟩)
    · refine ⟨events, a, [], rfl, marks, ?_⟩
      intro between a' rest cut
      exact absurd cut.symm (List.append_ne_nil_of_right_ne_nil between (List.cons_ne_nil a' rest))
    · refine ⟨past, first, later ++ [a], by rw [List.append_assoc, List.cons_append], marks, ?_⟩
      intro between a' rest cut
      rcases List.eq_nil_or_concat' rest with rfl | ⟨init, last, rfl⟩
      · obtain ⟨rfl, same⟩ := List.append_inj' cut rfl
        rw [← (List.cons.inj same).1]
        exact silent
      · rw [← List.cons_append, ← List.append_assoc] at cut
        exact quiet between a' init (List.append_inj' cut rfl).1

/-- A cell written by the marking steps only, with what they mark, holds the latest mark. -/
theorem run_latest {step : σ → α → Option σ} {cell : σ → Option β} {s s' : σ} {events : List α}
    (written : ∀ past m a m', past ++ [a] <+: events → run step s past = some m →
      step m a = some m' →
      (∃ b, Marks past a b ∧ cell m' = some b) ∨ (∀ b, ¬ Marks past a b) ∧ cell m' = cell m)
    (functional : ∀ past a b b', Marks past a b → Marks past a b' → b = b')
    (start : cell s = none) (reached : run step s events = some s') (b : β) :
    cell s' = some b ↔ Latest Marks events b := by
  have so_far : events <+: events → (cell s' = some b ↔ Latest Marks events b) := by
    refine run_history
      (H := fun past m => past <+: events → (cell m = some b ↔ Latest Marks past b)) ?_ ?_ reached
    · intro past m a m' before same taken cut
      have same := same ((List.prefix_append past [a]).trans cut)
      rw [latest_concat_iff]
      rcases written past m a m' cut before taken with ⟨b', marks, now⟩ | ⟨silent, kept⟩
      · rw [now]
        constructor
        · intro eq
          exact Or.inl (Option.some.inj eq ▸ marks)
        · rintro (marks' | ⟨silent, _⟩)
          · rw [functional past a b' b marks marks']
          · exact absurd marks (silent b')
      · rw [kept, same]
        constructor
        · intro latest
          exact Or.inr ⟨silent, latest⟩
        · rintro (marks | ⟨_, latest⟩)
          · exact absurd marks (silent b)
          · exact latest
    · intro _
      rw [start]
      exact ⟨fun absent => absurd absent (by simp), fun latest => absurd latest (not_latest_nil b)⟩
  exact so_far (List.prefix_refl events)

end LighterApi.Library.LastMark

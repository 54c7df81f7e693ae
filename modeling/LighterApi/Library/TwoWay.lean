import Mathlib.Logic.Function.Basic
import Mathlib.Tactic.TypeStar

/-!
# Records indexed both ways

A store of named records and an index from names back to keys. `Inverse` says that the
two agree in both directions. Inserting a new record keeps that exactly when its name is
unused (`Inverse.insert_iff`), and erasing a key together with its record's name keeps it
exactly when the name does not lead to another key (`Inverse.erase_iff`).
-/

namespace LighterApi.Library.TwoWay

variable {κ ν ρ : Type*} (name : ρ → ν)

structure Inverse (records : κ → Option ρ) (index : ν → Option κ) : Prop where
  recorded : ∀ n k, index n = some k → ∃ r, records k = some r ∧ name r = n
  mapped : ∀ k r, records k = some r → index (name r) = some k

variable {name}

theorem inverse_empty : Inverse name (fun _ : κ => none) (fun _ => none) :=
  ⟨fun _ _ none_mapped => by simp at none_mapped, fun _ _ none_recorded => by simp at none_recorded⟩

variable [DecidableEq κ] {records : κ → Option ρ} {index : ν → Option κ}

/-- A record may change in place as long as it keeps its name. -/
theorem Inverse.set (h : Inverse name records index) {k : κ} {r r' : ρ}
    (stored : records k = some r) (same : name r' = name r) :
    Inverse name (Function.update records k (some r')) index := by
  constructor
  · intro n j mapped
    obtain ⟨r₀, stored₀, named⟩ := h.recorded n j mapped
    by_cases here : j = k
    · subst here
      have same₀ := Option.some.inj (stored.symm.trans stored₀)
      exact ⟨r', Function.update_self .., same.trans (same₀ ▸ named)⟩
    · exact ⟨r₀, (Function.update_of_ne here ..).trans stored₀, named⟩
  · intro j r₀ stored₀
    by_cases here : j = k
    · subst here
      rw [Function.update_self] at stored₀
      rw [← Option.some.inj stored₀, same]
      exact h.mapped j r stored
    · rw [Function.update_of_ne here] at stored₀
      exact h.mapped j r₀ stored₀

variable [DecidableEq ν]

theorem Inverse.insert_iff (h : Inverse name records index) {k : κ} (fresh : records k = none)
    (r : ρ) :
    Inverse name (Function.update records k (some r)) (Function.update index (name r) (some k)) ↔
      index (name r) = none := by
  constructor
  · intro h'
    rw [Option.eq_none_iff_forall_ne_some]
    intro j mapped
    obtain ⟨r₀, stored, named⟩ := h.recorded _ _ mapped
    have other : j ≠ k := by
      intro here
      rw [here, fresh] at stored
      exact absurd stored (by simp)
    have mapped' := h'.mapped j r₀ ((Function.update_of_ne other ..).trans stored)
    rw [named, Function.update_self] at mapped'
    exact other (Option.some.inj mapped').symm
  · intro unused
    constructor
    · intro n j mapped
      by_cases here : n = name r
      · rw [here, Function.update_self] at mapped
        rw [← Option.some.inj mapped, here]
        exact ⟨r, Function.update_self .., rfl⟩
      · rw [Function.update_of_ne here] at mapped
        obtain ⟨r₀, stored, named⟩ := h.recorded n j mapped
        have other : j ≠ k := by
          intro same
          rw [same, fresh] at stored
          exact absurd stored (by simp)
        exact ⟨r₀, (Function.update_of_ne other ..).trans stored, named⟩
    · intro j r₀ stored
      by_cases here : j = k
      · subst here
        rw [Function.update_self] at stored
        rw [← Option.some.inj stored]
        exact Function.update_self ..
      · rw [Function.update_of_ne here] at stored
        have mapped := h.mapped j r₀ stored
        have other : name r₀ ≠ name r := by
          intro same
          rw [same, unused] at mapped
          exact absurd mapped (by simp)
        exact (Function.update_of_ne other ..).trans mapped

theorem Inverse.erase_iff (h : Inverse name records index) {k : κ} {n : ν}
    (named : ∀ r, records k = some r → name r = n) :
    Inverse name (Function.update records k none) (Function.update index n none) ↔
      ∀ j, index n = some j → j = k := by
  constructor
  · intro h' j mapped
    by_contra other
    obtain ⟨r, stored, is_named⟩ := h.recorded n j mapped
    have mapped' := h'.mapped j r ((Function.update_of_ne other ..).trans stored)
    rw [is_named, Function.update_self] at mapped'
    exact absurd mapped' (by simp)
  · intro own
    constructor
    · intro m j mapped
      by_cases here : m = n
      · rw [here, Function.update_self] at mapped
        exact absurd mapped (by simp)
      · rw [Function.update_of_ne here] at mapped
        obtain ⟨r, stored, is_named⟩ := h.recorded m j mapped
        have other : j ≠ k := by
          intro same
          exact here (is_named.symm.trans (named r (same ▸ stored)))
        exact ⟨r, (Function.update_of_ne other ..).trans stored, is_named⟩
    · intro j r stored
      by_cases here : j = k
      · rw [here, Function.update_self] at stored
        exact absurd stored (by simp)
      · rw [Function.update_of_ne here] at stored
        have mapped := h.mapped j r stored
        have other : name r ≠ n := by
          intro same
          exact here (own j (same ▸ mapped))
        exact (Function.update_of_ne other ..).trans mapped

end LighterApi.Library.TwoWay

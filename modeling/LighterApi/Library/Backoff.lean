import Mathlib.Algebra.Group.Nat.Defs
import Mathlib.Data.List.Basic
import Mathlib.Tactic.TypeStar

/-!
# Exponential backoff with a reset

A log, newest entry first, in which some entries arm a wait and some reset the backoff.
After a reset the waits are 1, 2, 4 and so on up to a cap (`Lawful`). A program follows
the law when it keeps the next wait at hand: twice the last one, cut at the cap, and 1
after a reset.
-/

namespace LighterApi.Library.Backoff

variable {ε : Type*} (wait : ε → Option Nat) (resets : ε → Bool)

/-- The waits armed since the last reset. -/
def armed : List ε → Nat
  | [] => 0
  | e :: rest => if resets e then 0 else if (wait e).isSome then armed rest + 1 else armed rest

/-- The wait to arm next. -/
def next (cap : Nat) (log : List ε) : Nat := min (2 ^ armed wait resets log) cap

/-- Each wait is the one that was next when it was armed. -/
def Lawful (cap : Nat) (log : List ε) : Prop :=
  ∀ later e earlier seconds, log = later ++ e :: earlier → wait e = some seconds →
    seconds = next wait resets cap earlier

variable {wait resets} {cap : Nat} {log : List ε} {e : ε}

theorem armed_of_reset (reset : resets e = true) : armed wait resets (e :: log) = 0 := if_pos reset

theorem armed_of_wait (other : resets e = false) (waits : (wait e).isSome = true) :
    armed wait resets (e :: log) = armed wait resets log + 1 := by
  simp [armed, other, waits]

theorem armed_of_other (other : resets e = false) (silent : wait e = none) :
    armed wait resets (e :: log) = armed wait resets log := by
  simp [armed, other, silent]

/-- Doubling the wait that was next and cutting it at the cap gives the one that is next. -/
theorem next_of_wait (other : resets e = false) (waits : (wait e).isSome = true) :
    next wait resets cap (e :: log) = min (next wait resets cap log * 2) cap := by
  unfold next
  rw [armed_of_wait other waits, Nat.pow_succ]
  omega

theorem next_of_reset (reset : resets e = true) (positive : 0 < cap) :
    next wait resets cap (e :: log) = 1 := by
  unfold next
  rw [armed_of_reset reset]
  omega

/-- Entries that neither arm nor reset do not count. -/
theorem armed_append {events : List ε} (quiet : ∀ e ∈ events, resets e = false ∧ wait e = none) :
    armed wait resets (events ++ log) = armed wait resets log := by
  induction events with
  | nil => rfl
  | cons e rest ih =>
    obtain ⟨other, silent⟩ := quiet e List.mem_cons_self
    rw [List.cons_append, armed_of_other other silent]
    exact ih fun e' member => quiet e' (List.mem_cons_of_mem _ member)

theorem next_append {events : List ε} (quiet : ∀ e ∈ events, resets e = false ∧ wait e = none) :
    next wait resets cap (events ++ log) = next wait resets cap log := by
  unfold next
  rw [armed_append quiet]

theorem lawful_nil : Lawful wait resets cap [] := by
  intro later e earlier seconds split
  exact absurd split (by simp)

/-- An entry that arms the next wait, or none, keeps the law. -/
theorem Lawful.cons (h : Lawful wait resets cap log)
    (fits : ∀ seconds, wait e = some seconds → seconds = next wait resets cap log) :
    Lawful wait resets cap (e :: log) := by
  intro later e' earlier seconds split waits
  cases later with
  | nil =>
    obtain ⟨rfl, rfl⟩ := List.cons.inj split
    exact fits seconds waits
  | cons first later =>
    obtain ⟨_, split⟩ := List.cons.inj split
    exact h later e' earlier seconds split waits

theorem Lawful.other (h : Lawful wait resets cap log) (silent : wait e = none) :
    Lawful wait resets cap (e :: log) :=
  h.cons fun seconds waits => absurd (silent.symm.trans waits) (by simp)

theorem Lawful.append (h : Lawful wait resets cap log) {events : List ε}
    (silent : ∀ e ∈ events, wait e = none) : Lawful wait resets cap (events ++ log) := by
  induction events with
  | nil => exact h
  | cons e rest ih =>
    rw [List.cons_append]
    exact (ih fun e' member => silent e' (List.mem_cons_of_mem _ member)).other
      (silent e List.mem_cons_self)

end LighterApi.Library.Backoff

import Std.Data.ExtTreeMap
import Mathlib.Order.Bounds.Basic
import Mathlib.Order.Compare
import Mathlib.Data.Option.Basic

/-!
# Last write wins

A log of writes `(key, value)` determines a partial map: a key maps to the last value
written under it, provided the key is valid and the value live (a dead value deletes
the key). An ordered map updated write by write shows exactly that map (`Shows.write`),
and its first key is the extremal live key (`head?_keys_eq_some_iff`).
-/

namespace LighterApi.Library.LastWrite

open Std

variable {κ ν : Type*} [DecidableEq κ]

/-- The last value written under a key. -/
def lastWrite (k : κ) : List (κ × ν) → Option ν
  | [] => none
  | (k', v) :: rest => (lastWrite k rest).or (if k' = k then some v else none)

theorem lastWrite_append (k : κ) (log later : List (κ × ν)) :
    lastWrite k (log ++ later) = (lastWrite k later).or (lastWrite k log) := by
  induction log with
  | nil => simp [lastWrite]
  | cons w rest ih =>
    obtain ⟨k', v⟩ := w
    rw [List.cons_append, lastWrite, lastWrite, ih, Option.or_assoc]

theorem lastWrite_concat (k : κ) (log : List (κ × ν)) (w : κ × ν) :
    lastWrite k (log ++ [w]) = if w.1 = k then some w.2 else lastWrite k log := by
  rw [lastWrite_append]
  obtain ⟨k', v⟩ := w
  simp only [lastWrite, Option.none_or]
  split <;> rfl

theorem lastWrite_eq_none_iff (k : κ) (log : List (κ × ν)) :
    lastWrite k log = none ↔ k ∉ log.map Prod.fst := by
  induction log with
  | nil => simp [lastWrite]
  | cons w rest ih =>
    obtain ⟨k', v⟩ := w
    rw [lastWrite, Option.or_eq_none_iff, ih, List.map_cons, List.mem_cons, not_or]
    constructor
    · rintro ⟨later, here⟩
      exact ⟨fun same => absurd here (by simp [same]), later⟩
    · rintro ⟨other, later⟩
      exact ⟨later, if_neg (Ne.symm other)⟩

variable (valid : κ → Bool) (live : ν → Bool) {cmp : κ → κ → Ordering} [TransCmp cmp]

/-- One write applied to an ordered map. -/
def write (side : ExtTreeMap κ ν cmp) (w : κ × ν) : ExtTreeMap κ ν cmp :=
  if valid w.1 then
    if live w.2 then side.insert w.1 w.2 else side.erase w.1
  else side

/-- The map shows the log: each valid key has its last value, when that is live. -/
def Shows (side : ExtTreeMap κ ν cmp) (log : List (κ × ν)) : Prop :=
  ∀ k, side[k]? = if valid k then (lastWrite k log).filter live else none

theorem shows_empty : Shows valid live (∅ : ExtTreeMap κ ν cmp) [] := by
  intro k
  rw [ExtTreeMap.getElem?_empty]
  simp [lastWrite]

variable {valid live} [LawfulEqCmp cmp]

/-- What a write leaves under a key. -/
theorem getElem?_write (side : ExtTreeMap κ ν cmp) (w : κ × ν) (k : κ) :
    (write valid live side w)[k]? =
      if w.1 = k ∧ valid k = true then (some w.2).filter live else side[k]? := by
  unfold LastWrite.write
  by_cases same : w.1 = k
  · subst same
    by_cases ok : valid w.1 = true
    · by_cases alive : live w.2 = true
      · simp [ok, alive, Option.filter]
      · simp [ok, alive, Option.filter]
    · simp [ok]
  · have other : cmp w.1 k ≠ .eq := fun e => same (LawfulEqCmp.eq_of_compare e)
    have elsewhere : ¬ (w.1 = k ∧ valid k = true) := fun both => same both.1
    rw [if_neg elsewhere]
    split
    · split
      · rw [ExtTreeMap.getElem?_insert, if_neg other]
      · rw [ExtTreeMap.getElem?_erase, if_neg other]
    · rfl

/-- A batch leaves the last value it writes under a key, or what was there. -/
theorem getElem?_writes (side : ExtTreeMap κ ν cmp) (batch : List (κ × ν)) (k : κ) :
    (batch.foldl (write valid live) side)[k]? =
      if valid k = true ∧ lastWrite k batch ≠ none then (lastWrite k batch).filter live
      else side[k]? := by
  induction batch generalizing side with
  | nil => simp [lastWrite]
  | cons w rest ih =>
    rw [List.foldl_cons, ih, lastWrite, getElem?_write]
    cases later : lastWrite k rest with
    | some v => by_cases ok : valid k = true <;> simp [ok]
    | none =>
      by_cases same : w.1 = k
      · by_cases ok : valid k = true
        · simp [same, ok]
        · simp [ok]
      · simp [same]

/-- A batch changes nothing when it writes only what is there already. -/
theorem writes_eq_self_iff (side : ExtTreeMap κ ν cmp) (batch : List (κ × ν)) :
    batch.foldl (write valid live) side = side ↔
      ∀ k, valid k = true → lastWrite k batch ≠ none →
        side[k]? = (lastWrite k batch).filter live := by
  constructor
  · intro unchanged k ok written
    rw [← unchanged, getElem?_writes, if_pos ⟨ok, written⟩]
  · intro held
    refine ExtTreeMap.ext_getElem? fun k => ?_
    rw [getElem?_writes]
    split
    · rename_i both
      exact (held k both.1 both.2).symm
    · rfl

theorem Shows.write {side : ExtTreeMap κ ν cmp} {log : List (κ × ν)}
    (h : Shows valid live side log) (w : κ × ν) :
    Shows valid live (write valid live side w) (log ++ [w]) := by
  intro k
  rw [lastWrite_concat, getElem?_write, h k]
  by_cases same : w.1 = k
  · by_cases ok : valid k = true
    · simp [same, ok]
    · simp [ok]
  · simp [same]

/-- A batch of writes, applied in order. -/
theorem Shows.writes {side : ExtTreeMap κ ν cmp} {log : List (κ × ν)}
    (h : Shows valid live side log) (batch : List (κ × ν)) :
    Shows valid live (batch.foldl (LastWrite.write valid live) side) (log ++ batch) := by
  induction batch generalizing side log with
  | nil => simpa using h
  | cons w rest ih =>
    have next := ih (h.write w)
    rwa [List.append_assoc] at next

omit [DecidableEq κ] in
/-- The first key of an ordered map is its least key. -/
theorem head?_keys_eq_some_iff (side : ExtTreeMap κ ν cmp) (k : κ) :
    side.keys.head? = some k ↔ k ∈ side ∧ ∀ k' ∈ side, (cmp k k').isLE = true := by
  rw [← ExtTreeMap.minKey?_eq_head?_keys]
  exact ExtTreeMap.minKey?_eq_some_iff_mem_and_forall

omit [DecidableEq κ] [LawfulEqCmp cmp] in
theorem head?_keys_eq_none_iff (side : ExtTreeMap κ ν cmp) :
    side.keys.head? = none ↔ ∀ k, k ∉ side := by
  rw [← ExtTreeMap.minKey?_eq_head?_keys, ExtTreeMap.minKey?_eq_none_iff]
  exact ExtTreeMap.eq_empty_iff_forall_not_mem

end LighterApi.Library.LastWrite

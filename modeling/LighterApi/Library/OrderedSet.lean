import Mathlib.Data.List.Induction
import LighterApi.Library.LastWrite

/-!
# Sets in order of insertion

A list of distinct keys: adding a key appends it unless it is there, removing it deletes
it. After any sequence of additions and removals the keys are distinct (`nodup_after`),
and a key is in the list exactly when the last operation on it was an addition
(`mem_after_iff`).
-/

namespace LighterApi.Library.OrderedSet

open LighterApi.Library.LastWrite

variable {κ : Type*} [DecidableEq κ]

def add (keys : List κ) (k : κ) : List κ := if k ∈ keys then keys else keys ++ [k]

def remove (keys : List κ) (k : κ) : List κ := keys.erase k

/-- One operation: the key is added, or removed. -/
def operate (keys : List κ) (op : κ × Bool) : List κ :=
  if op.2 then add keys op.1 else remove keys op.1

/-- The list after the operations, in order. -/
def after (ops : List (κ × Bool)) : List κ := ops.foldl operate []

theorem after_concat (ops : List (κ × Bool)) (op : κ × Bool) :
    after (ops ++ [op]) = operate (after ops) op := by
  unfold after
  rw [List.foldl_append]
  rfl

theorem nodup_add {keys : List κ} (nodup : keys.Nodup) (k : κ) : (add keys k).Nodup := by
  unfold add
  split
  · exact nodup
  · rename_i absent
    refine List.nodup_append.mpr ⟨nodup, by simp, ?_⟩
    intro k' old k'' new same
    rw [List.mem_singleton.mp new] at same
    exact absent (same ▸ old)

theorem nodup_operate {keys : List κ} (nodup : keys.Nodup) (op : κ × Bool) :
    (operate keys op).Nodup := by
  unfold operate
  split
  · exact nodup_add nodup op.1
  · exact nodup.sublist List.erase_sublist

theorem nodup_after (ops : List (κ × Bool)) : (after ops).Nodup := by
  induction ops using List.reverseRecOn with
  | nil => exact List.nodup_nil
  | append_singleton ops op ih =>
    rw [after_concat]
    exact nodup_operate ih op

theorem mem_operate_iff {keys : List κ} (nodup : keys.Nodup) (op : κ × Bool) (k : κ) :
    k ∈ operate keys op ↔ if op.1 = k then op.2 = true else k ∈ keys := by
  obtain ⟨k', adds⟩ := op
  unfold operate add remove
  cases adds with
  | true =>
    by_cases same : k' = k
    · subst same
      by_cases old : k' ∈ keys
      · simp [old]
      · simp [old]
    · by_cases old : k' ∈ keys
      · simp [old, same]
      · simp [old, same, Ne.symm same]
  | false =>
    by_cases same : k' = k
    · subst same
      simp [nodup.mem_erase_iff]
    · simp [nodup.mem_erase_iff, same, Ne.symm same]

/-- The last operation on a key decides. -/
theorem mem_after_iff (ops : List (κ × Bool)) (k : κ) :
    k ∈ after ops ↔ lastWrite k ops = some true := by
  induction ops using List.reverseRecOn with
  | nil => simp [after, lastWrite]
  | append_singleton ops op ih =>
    rw [after_concat, mem_operate_iff (nodup_after ops), lastWrite_concat]
    split
    · simp
    · exact ih

end LighterApi.Library.OrderedSet

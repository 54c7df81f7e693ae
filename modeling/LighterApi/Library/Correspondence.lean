import Mathlib.Data.List.Nodup
import Mathlib.Logic.Function.Basic
import LighterApi.Library.LastWrite

/-!
# One-to-one correspondence of two partial maps

Two partial maps, from names to keys and back, correspond when each says of a pair what
the other does. Writing a one-to-one list of pairs into both keeps the correspondence
exactly when the list names, of every pair they had, both ends or neither
(`Mutual.put_iff`): a pair of which one end is written and the other is left is the only
way the two can come apart.
-/

namespace LighterApi.Library.Correspondence

open LighterApi.Library.LastWrite

variable {α β : Type*}

def Mutual (f : α → Option β) (g : β → Option α) : Prop := ∀ a b, f a = some b ↔ g b = some a

theorem mutual_none : Mutual (fun _ : α => (none : Option β)) fun _ => none := by
  intro a b
  simp

/-- The new map, and the old one where the new one is not defined. -/
def overlay (new old : α → Option β) (a : α) : Option β := (new a).or (old a)

/-- Two correspondences laid on each other correspond when the new one has both ends of
every old pair or neither. -/
theorem Mutual.overlay_iff {f f' : α → Option β} {g g' : β → Option α} (h : Mutual f g)
    (h' : Mutual f' g') : Mutual (overlay f' f) (overlay g' g) ↔
      ∀ a b, f a = some b → ((∃ b', f' a = some b') ↔ ∃ a', g' b = some a') := by
  constructor
  · intro both a b pair
    constructor
    · rintro ⟨b', new⟩
      -- Were the key not written it would keep the name, whose key is the new one.
      by_contra unwritten
      have kept : overlay g' g b = some a := by
        rw [overlay, Option.eq_none_iff_forall_ne_some.mpr fun a' new => unwritten ⟨a', new⟩,
          Option.none_or]
        exact (h a b).mp pair
      have written := (both a b).mpr kept
      rw [overlay, new, Option.some_or] at written
      exact unwritten ⟨a, (h' a b).mp (new.trans written)⟩
    · rintro ⟨a', new⟩
      by_contra unwritten
      have kept : overlay f' f a = some b := by
        rw [overlay, Option.eq_none_iff_forall_ne_some.mpr fun b' new => unwritten ⟨b', new⟩,
          Option.none_or]
        exact pair
      have written := (both a b).mp kept
      rw [overlay, new, Option.some_or] at written
      exact unwritten ⟨b, (h' a b).mpr (new.trans written)⟩
  · intro whole a b
    unfold overlay
    constructor
    · intro mapped
      rcases Option.or_eq_some_iff.mp mapped with new | ⟨unwritten, old⟩
      · rw [(h' a b).mp new, Option.some_or]
      · have key_unwritten : g' b = none := by
          rw [Option.eq_none_iff_forall_ne_some]
          intro a' new
          obtain ⟨b', new'⟩ := (whole a b old).mpr ⟨a', new⟩
          exact absurd (unwritten.symm.trans new') (by simp)
        rw [key_unwritten, Option.none_or]
        exact (h a b).mp old
    · intro mapped
      rcases Option.or_eq_some_iff.mp mapped with new | ⟨unwritten, old⟩
      · rw [(h' a b).mpr new, Option.some_or]
      · have pair := (h a b).mpr old
        have name_unwritten : f' a = none := by
          rw [Option.eq_none_iff_forall_ne_some]
          intro b' new
          obtain ⟨a', new'⟩ := (whole a b pair).mp ⟨b', new⟩
          exact absurd (unwritten.symm.trans new') (by simp)
        rw [name_unwritten, Option.none_or]
        exact pair

/-! ## Writing pairs -/

variable [DecidableEq α] [DecidableEq β]

/-- Write the pairs into a map, in order. -/
def put (f : α → Option β) (pairs : List (α × β)) : α → Option β :=
  pairs.foldl (fun f pair => Function.update f pair.1 (some pair.2)) f

omit [DecidableEq β] in
theorem put_eq_overlay (f : α → Option β) (pairs : List (α × β)) :
    put f pairs = overlay (fun a => lastWrite a pairs) f := by
  induction pairs generalizing f with
  | nil => rfl
  | cons pair rest ih =>
    funext a
    rw [put, List.foldl_cons]
    change put (Function.update f pair.1 (some pair.2)) rest a = _
    rw [ih, overlay, overlay, lastWrite, Option.or_assoc, Function.update_apply]
    by_cases here : pair.1 = a
    · rw [if_pos here.symm, if_pos here, Option.some_or]
    · rw [if_neg (Ne.symm here), if_neg here, Option.none_or]

omit [DecidableEq β] in
theorem lastWrite_eq_some_iff {pairs : List (α × β)} (names : (pairs.map Prod.fst).Nodup) {a : α}
    {b : β} : lastWrite a pairs = some b ↔ (a, b) ∈ pairs := by
  induction pairs generalizing b with
  | nil => simp [lastWrite]
  | cons pair rest ih =>
    rw [List.map_cons, List.nodup_cons] at names
    rw [lastWrite, Option.or_eq_some_iff, ih names.2, List.mem_cons]
    constructor
    · rintro (late | ⟨_, first⟩)
      · exact Or.inr late
      · split at first
        · rename_i here
          rw [← here, ← Option.some.inj first]
          exact Or.inl rfl
        · exact absurd first (by simp)
    · rintro (rfl | late)
      · refine Or.inr ⟨?_, if_pos rfl⟩
        rw [Option.eq_none_iff_forall_ne_some]
        intro b' late
        have member : (a, b') ∈ rest := (ih names.2).mp late
        exact names.1 (List.mem_map.mpr ⟨(a, b'), member, rfl⟩)
      · exact Or.inl late

/-- A list that repeats neither names nor keys is a correspondence. -/
theorem mutual_lastWrite {pairs : List (α × β)} (names : (pairs.map Prod.fst).Nodup)
    (keys : (pairs.map Prod.snd).Nodup) :
    Mutual (fun a => lastWrite a pairs) fun b => lastWrite b (pairs.map Prod.swap) := by
  intro a b
  have swapped : ((pairs.map Prod.swap).map Prod.fst).Nodup := by
    rw [List.map_map]
    exact keys
  rw [lastWrite_eq_some_iff names, lastWrite_eq_some_iff swapped, List.mem_map]
  constructor
  · intro member
    exact ⟨(a, b), member, rfl⟩
  · rintro ⟨pair, member, same⟩
    obtain ⟨rfl, rfl⟩ := Prod.mk.inj same
    exact member

/-- Writing a one-to-one list keeps a correspondence exactly when it names both ends of
every old pair or neither. -/
theorem Mutual.put_iff {f : α → Option β} {g : β → Option α} (h : Mutual f g)
    {pairs : List (α × β)} (names : (pairs.map Prod.fst).Nodup)
    (keys : (pairs.map Prod.snd).Nodup) :
    Mutual (put f pairs) (put g (pairs.map Prod.swap)) ↔
      ∀ a b, f a = some b → (a ∈ pairs.map Prod.fst ↔ b ∈ pairs.map Prod.snd) := by
  have listed := mutual_lastWrite names keys
  rw [put_eq_overlay, put_eq_overlay, h.overlay_iff listed]
  have named : ∀ a, (∃ b, lastWrite a pairs = some b) ↔ a ∈ pairs.map Prod.fst := by
    intro a
    simp only [lastWrite_eq_some_iff names, List.mem_map, Prod.exists, exists_eq_right,
      exists_and_right]
  have keyed : ∀ b, (∃ a, lastWrite b (pairs.map Prod.swap) = some a) ↔ b ∈ pairs.map Prod.snd := by
    intro b
    have back : ∀ a, lastWrite b (pairs.map Prod.swap) = some a ↔ (a, b) ∈ pairs :=
      fun a => (listed a b).symm.trans (lastWrite_eq_some_iff names)
    simp only [back, List.mem_map, Prod.exists, exists_eq_right]
  constructor
  · intro whole a b pair
    rw [← named, ← keyed]
    exact whole a b pair
  · intro whole a b pair
    rw [named, keyed]
    exact whole a b pair

end LighterApi.Library.Correspondence

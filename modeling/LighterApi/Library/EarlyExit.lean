import Mathlib.Data.List.Basic

/-!
# Loops that are left early

A loop visits the items of a list one after the other and hands the state on, until a
visit leaves it: an exception, a `break`. `loop` lists the visits it makes. Beside the
step of the loop stands a calm step that never leaves and agrees with it where it does
not leave. The items that are no reason to leave are treated alike by both loops exactly
when what stands behind the first leaving visit has nothing to do (`treatsAlike_iff`).
-/

namespace LighterApi.Library.EarlyExit

variable {σ ε ω : Type*}

/-- One visit: the state it finds and leaves, what it puts out, and whether it leaves. -/
structure Visit (σ ω : Type*) where
  before : σ
  output : ω
  after : σ
  leaves : Bool

/-- The visits that are made. -/
def loop (step : σ → ε → Visit σ ω) : List ε → σ → List (Visit σ ω)
  | [], _ => []
  | e :: rest, s =>
    if (step s e).leaves then [step s e] else step s e :: loop step rest (step s e).after

/-- The state after the loop. -/
def finish (step : σ → ε → Visit σ ω) : List ε → σ → σ
  | [], s => s
  | e :: rest, s => if (step s e).leaves then (step s e).after else finish step rest (step s e).after

variable (step calm : σ → ε → Visit σ ω)

/-- The items behind have nothing to do: none is treated as if it had not been visited,
unless it would leave itself. -/
def NothingLeft (same : Option (Visit σ ω) → Visit σ ω → Prop) : List ε → σ → Prop
  | [], _ => True
  | e :: rest, s =>
    ((step s e).leaves = false → same none (calm s e)) ∧ NothingLeft same rest (calm s e).after

/-- Behind the first visit that leaves nothing is left to do. -/
def LosesNothing (same : Option (Visit σ ω) → Visit σ ω → Prop) : List ε → σ → Prop
  | [], _ => True
  | e :: rest, s =>
    if (step s e).leaves then NothingLeft step calm same rest (calm s e).after
    else LosesNothing same rest (step s e).after

/-- Every item that does not leave is treated as by the calm loop. -/
def TreatsAlike (same : Option (Visit σ ω) → Visit σ ω → Prop) (items : List ε) (s : σ) : Prop :=
  ∀ (k : Nat) (e : ε) (wanted : Visit σ ω), items[k]? = some e →
    (loop calm items s)[k]? = some wanted → (step wanted.before e).leaves = false →
    same (loop step items s)[k]? wanted

variable {step calm} {same : Option (Visit σ ω) → Visit σ ω → Prop}

theorem finish_of_leaves {s : σ} {e : ε} (rest : List ε) (leaves : (step s e).leaves = true) :
    finish step (e :: rest) s = (step s e).after := if_pos leaves

theorem finish_of_stays {s : σ} {e : ε} (rest : List ε) (stays : (step s e).leaves = false) :
    finish step (e :: rest) s = finish step rest (step s e).after := by
  rw [finish, if_neg (by simp [stays])]

theorem loop_of_leaves {s : σ} {e : ε} (rest : List ε) (leaves : (step s e).leaves = true) :
    loop step (e :: rest) s = [step s e] := if_pos leaves

theorem loop_of_stays {s : σ} {e : ε} (rest : List ε) (stays : (step s e).leaves = false) :
    loop step (e :: rest) s = step s e :: loop step rest (step s e).after := by
  rw [loop, if_neg (by simp [stays])]

/-- Items made by a function are visited as the function makes them. -/
theorem loop_map {ι : Type*} (f : ι → ε) (items : List ι) (s : σ) :
    loop step (items.map f) s = loop (fun s i => step s (f i)) items s := by
  induction items generalizing s with
  | nil => rfl
  | cons i rest ih => rw [List.map_cons, loop, loop, ih]

/-- A property that every visit keeps holds after the loop. -/
theorem finish_invariant {I : σ → Prop} (keeps : ∀ s e, I s → I (step s e).after) {s : σ}
    (items : List ε) (start : I s) : I (finish step items s) := by
  induction items generalizing s with
  | nil => exact start
  | cons e rest ih =>
    cases leaves : (step s e).leaves with
    | true => exact finish_of_leaves rest leaves ▸ keeps s e start
    | false => exact finish_of_stays rest leaves ▸ ih (keeps s e start)

section Calm

variable (never : ∀ s e, (calm s e).leaves = false) (starts : ∀ s e, (calm s e).before = s)
include never starts

/-- Without any visit, alike means that nothing was to be done. -/
theorem nothingLeft_iff (items : List ε) (s : σ) :
    NothingLeft step calm same items s ↔
      ∀ (k : Nat) (e : ε) (wanted : Visit σ ω), items[k]? = some e →
        (loop calm items s)[k]? = some wanted → (step wanted.before e).leaves = false →
        same none wanted := by
  induction items generalizing s with
  | nil => simp [NothingLeft]
  | cons e rest ih =>
    rw [NothingLeft, ih, loop_of_stays rest (never s e)]
    constructor
    · rintro ⟨head, tail⟩ k e' wanted item visit stays
      cases k with
      | zero =>
        obtain rfl := Option.some.inj item
        obtain rfl := Option.some.inj visit
        rw [starts] at stays
        exact head stays
      | succ k => exact tail k e' wanted item visit stays
    · intro all
      constructor
      · intro stays
        refine all 0 e (calm s e) rfl rfl ?_
        rw [starts]
        exact stays
      · intro k e' wanted item visit stays
        exact all (k + 1) e' wanted item visit stays

/-- The loop treats the items that do not leave like the calm loop just when it loses
nothing behind the visit that leaves it. -/
theorem treatsAlike_iff (agrees : ∀ s e, (step s e).leaves = false → step s e = calm s e)
    (refl : ∀ v, same (some v) v) (items : List ε) (s : σ) :
    TreatsAlike step calm same items s ↔ LosesNothing step calm same items s := by
  induction items generalizing s with
  | nil => simp [TreatsAlike, LosesNothing]
  | cons e rest ih =>
    unfold TreatsAlike
    rw [LosesNothing, loop_of_stays rest (never s e)]
    cases leaves : (step s e).leaves with
    | true =>
      rw [if_pos rfl, nothingLeft_iff never starts, loop_of_leaves rest leaves]
      constructor
      · intro alike k e' wanted item visit stays
        exact alike (k + 1) e' wanted item visit stays
      · intro nothing k e' wanted item visit stays
        cases k with
        | zero =>
          obtain rfl := Option.some.inj item
          obtain rfl := Option.some.inj visit
          rw [starts, leaves] at stays
          exact absurd stays (by decide)
        | succ k => exact nothing k e' wanted item visit stays
    | false =>
      rw [if_neg (by decide), ← ih, loop_of_stays rest leaves, agrees s e leaves]
      constructor
      · intro alike k e' wanted item visit stays
        exact alike (k + 1) e' wanted item visit stays
      · intro alike k e' wanted item visit stays
        cases k with
        | zero =>
          obtain rfl := Option.some.inj visit
          exact refl (calm s e)
        | succ k => exact alike k e' wanted item visit stays

end Calm

end LighterApi.Library.EarlyExit

import Mathlib.Data.List.Induction
import Mathlib.Tactic.TypeStar

/-!
# Runs of a labelled transition function

A partial step function on states, labelled by actions; a run performs a list of
actions and fails as soon as one is not enabled. An invariant kept by every step holds
after every run (`run_invariant`). An invariant kept only by the steps that meet a
condition on the action and the state before it holds after the runs all of whose steps
meet it (`run_invariant_of_meets`), and one kept exactly by those steps holds throughout
exactly these runs (`throughout_iff`). An invariant may also speak of the actions performed
so far (`run_history`). A run refines an abstract fold over its actions when every step
does (`run_refines`).
-/

namespace LighterApi.Library.Transition

variable {σ α : Type*} (step : σ → α → Option σ)

/-- Perform the actions in order. -/
def run : σ → List α → Option σ
  | s, [] => some s
  | s, a :: rest => (step s a).bind fun s' => run s' rest

/-- Every action of the run meets the condition in the state before it. -/
def Meets (condition : σ → α → Prop) : σ → List α → Prop
  | _, [] => True
  | s, a :: rest => condition s a ∧ ∀ s', step s a = some s' → Meets condition s' rest

variable {step}

@[simp] theorem run_nil (s : σ) : run step s [] = some s := rfl

theorem run_cons_eq_some {s s' : σ} {a : α} {rest : List α} :
    run step s (a :: rest) = some s' ↔ ∃ m, step s a = some m ∧ run step m rest = some s' := by
  rw [run, Option.bind_eq_some_iff]

/-- A run falls into two runs wherever it is cut. -/
theorem run_append (s : σ) (first second : List α) :
    run step s (first ++ second) = (run step s first).bind fun m => run step m second := by
  induction first generalizing s with
  | nil => rfl
  | cons a rest ih =>
    rw [List.cons_append, run, run, Option.bind_assoc]
    congr 1
    funext m
    exact ih m

theorem run_invariant_of_meets {condition : σ → α → Prop} {I : σ → Prop}
    (keeps : ∀ s a s', I s → condition s a → step s a = some s' → I s') {s s' : σ}
    {actions : List α} (start : I s) (meets : Meets step condition s actions)
    (reached : run step s actions = some s') : I s' := by
  induction actions generalizing s with
  | nil =>
    rw [run_nil] at reached
    exact Option.some.inj reached ▸ start
  | cons a rest ih =>
    obtain ⟨m, taken, reached⟩ := run_cons_eq_some.mp reached
    exact ih (keeps s a m start meets.1 taken) (meets.2 m taken) reached

theorem meets_of_forall {condition : σ → α → Prop} {actions : List α}
    (all : ∀ s, ∀ a ∈ actions, condition s a) (s : σ) : Meets step condition s actions := by
  induction actions generalizing s with
  | nil => exact trivial
  | cons a rest ih =>
    exact ⟨all s a List.mem_cons_self,
      fun m _ => ih (fun s b member => all s b (List.mem_cons_of_mem a member)) m⟩

theorem run_invariant {I : σ → Prop} (keeps : ∀ s a s', I s → step s a = some s' → I s')
    {s s' : σ} {actions : List α} (start : I s) (reached : run step s actions = some s') : I s' :=
  run_invariant_of_meets (fun s a m kept _ => keeps s a m kept) start
    (meets_of_forall (fun _ _ _ => trivial) s) reached

theorem run_append_eq_some {s s' : σ} {first second : List α} :
    run step s (first ++ second) = some s' ↔
      ∃ m, run step s first = some m ∧ run step m second = some s' := by
  rw [run_append, Option.bind_eq_some_iff]

/-- A relation between the actions performed and the state they lead to, kept by every
step that follows a run. -/
theorem run_history {H : List α → σ → Prop} {s s' : σ} {actions : List α}
    (keeps : ∀ past m a m', run step s past = some m → H past m → step m a = some m' →
      H (past ++ [a]) m')
    (start : H [] s) (reached : run step s actions = some s') : H actions s' := by
  induction actions using List.reverseRecOn generalizing s' with
  | nil =>
    rw [run_nil] at reached
    exact Option.some.inj reached ▸ start
  | append_singleton past a ih =>
    obtain ⟨m, before, reached⟩ := run_append_eq_some.mp reached
    obtain ⟨m', taken, ended⟩ := run_cons_eq_some.mp reached
    rw [run_nil] at ended
    exact keeps past m a s' before (ih before) (Option.some.inj ended ▸ taken)

/-- A run refines the fold of its actions' effects on an abstract value, when every step
under the invariant does. -/
theorem run_refines {β : Type*} {I : σ → Prop} {abs : σ → β} {effect : β → α → β}
    (keeps : ∀ s a s', I s → step s a = some s' → I s')
    (simulates : ∀ s a s', I s → step s a = some s' → abs s' = effect (abs s) a) {s s' : σ}
    {actions : List α} (start : I s) (reached : run step s actions = some s') :
    abs s' = actions.foldl effect (abs s) := by
  induction actions generalizing s with
  | nil =>
    rw [run_nil] at reached
    rw [Option.some.inj reached]
    rfl
  | cons a rest ih =>
    obtain ⟨m, taken, reached⟩ := run_cons_eq_some.mp reached
    rw [List.foldl_cons, ← simulates s a m start taken]
    exact ih (keeps s a m start taken) reached

theorem Meets.append {condition : σ → α → Prop} {s : σ} {first second : List α}
    (meets : Meets step condition s first)
    (onward : ∀ m, run step s first = some m → Meets step condition m second) :
    Meets step condition s (first ++ second) := by
  induction first generalizing s with
  | nil => exact onward s (run_nil s)
  | cons a rest ih =>
    refine ⟨meets.1, fun s' taken => ih (meets.2 s' taken) fun m reached => ?_⟩
    exact onward m (run_cons_eq_some.mpr ⟨s', taken, reached⟩)

/-- A condition that holds wherever an invariant and a stronger condition do. -/
theorem Meets.of_invariant {first condition : σ → α → Prop} {I : σ → Prop}
    (keeps : ∀ s a s', I s → first s a → step s a = some s' → I s')
    (implies : ∀ s a, I s → first s a → condition s a) {s : σ} {actions : List α} (start : I s)
    (meets : Meets step first s actions) : Meets step condition s actions := by
  induction actions generalizing s with
  | nil => exact trivial
  | cons a rest ih =>
    refine ⟨implies s a start meets.1, fun s' taken => ?_⟩
    exact ih (keeps s a s' start meets.1 taken) (meets.2 s' taken)

/-- An invariant that a step keeps exactly when it meets a condition holds throughout a run
exactly when every step of the run meets the condition. -/
theorem throughout_iff {condition : σ → α → Prop} {I : σ → Prop} {s : σ} {actions : List α}
    (exact_step : ∀ s, ∀ a ∈ actions, I s → ∃ s', step s a = some s' ∧ (I s' ↔ condition s a))
    (start : I s) :
    (∀ past rest s', actions = past ++ rest → run step s past = some s' → I s') ↔
      Meets step condition s actions := by
  induction actions generalizing s with
  | nil =>
    refine ⟨fun _ => trivial, fun _ past rest s' cut reached => ?_⟩
    rw [(List.append_eq_nil_iff.mp cut.symm).1, run_nil] at reached
    exact Option.some.inj reached ▸ start
  | cons a later ih =>
    obtain ⟨m, taken, kept⟩ := exact_step s a List.mem_cons_self start
    have later_exact : ∀ s, ∀ b ∈ later, I s → ∃ s', step s b = some s' ∧ (I s' ↔ condition s b) :=
      fun s b member => exact_step s b (List.mem_cons_of_mem a member)
    constructor
    · intro throughout
      have after := throughout [a] later m rfl (run_cons_eq_some.mpr ⟨m, taken, run_nil m⟩)
      refine ⟨kept.mp after, fun s' taken' => ?_⟩
      obtain rfl := Option.some.inj (taken.symm.trans taken')
      refine (ih later_exact after).mp fun past rest s' cut reached => ?_
      exact throughout (a :: past) rest s' (by rw [cut, List.cons_append])
        (run_cons_eq_some.mpr ⟨m, taken, reached⟩)
    · rintro ⟨holds, onward⟩ past rest s' cut reached
      have after := kept.mpr holds
      cases past with
      | nil =>
        rw [run_nil] at reached
        exact Option.some.inj reached ▸ start
      | cons b past =>
        obtain ⟨rfl, later_eq⟩ := List.cons.inj cut
        obtain ⟨m', taken', reached⟩ := run_cons_eq_some.mp reached
        obtain rfl := Option.some.inj (taken.symm.trans taken')
        exact (ih later_exact after).mpr (onward m taken) past rest s' later_eq reached

/-- A decidable condition can be checked along a run on given inputs. -/
instance decidableMeets {condition : σ → α → Prop} [∀ s a, Decidable (condition s a)] :
    (s : σ) → (actions : List α) → Decidable (Meets step condition s actions)
  | _, [] => .isTrue trivial
  | s, a :: rest =>
    match taken : step s a with
    | none => decidable_of_iff (condition s a) (by simp [Meets, taken])
    | some s' =>
      have : Decidable (Meets step condition s' rest) := decidableMeets s' rest
      decidable_of_iff (condition s a ∧ Meets step condition s' rest) (by simp [Meets, taken])

/-- A run on given inputs ends in a state that passes a test: evaluate both. -/
theorem exists_run {P : σ → Prop} [DecidablePred P] {s : σ} {actions : List α}
    (computed : (run step s actions).any (fun s' => decide (P s')) = true) :
    ∃ s', run step s actions = some s' ∧ P s' := by
  obtain ⟨s', reached, passes⟩ := (Option.any_eq_true _ _).mp computed
  exact ⟨s', reached, of_decide_eq_true passes⟩

end LighterApi.Library.Transition

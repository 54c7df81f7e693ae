import Mathlib.Logic.Relation
import LighterApi.Library.Transition

/-!
# Scoped locks taken in a fixed order

Threads that run structured code with scoped locks: a lock is released when its scope is
left, by falling out of it or by an exception. The code calls back into client code, which
may call the program again. A policy says which lock may be taken while which are held,
innermost first, and is checked on the code alone (`Code.follows`). Code that follows it
holds locks along the policy only and none while client code runs (`Disciplined`). When the
policy takes locks in the order of a rank, a thread with work left can go on, or waits
through a chain of lock owners for one that can (`ready_or_waits`).
-/

namespace LighterApi.Library.LockRanks
open LighterApi.Library.Transition

variable {L : Type*}

inductive Code (L : Type*) where
  | skip
  | fail
  | callback
  | seq (first second : Code L)
  | branch (one other : Code L)
  | loop (body : Code L)
  | attempt (body handler : Code L)
  | locked (l : L) (body : Code L)

/-- The parts in order. -/
def Code.block : List (Code L) → Code L
  | [] => .skip
  | part :: rest => .seq part (block rest)

/-- What a thread has still to do, innermost first. -/
inductive Frame (L : Type*) where
  | run (code : Code L)
  | handler (code : Code L)
  | release (l : L)
  | raise

/-- Code that does nothing to locks may throw; a branch may be left aside and a loop ended. -/
inductive Choice where
  | onward | aside | throws
  deriving DecidableEq, Repr

/-- A step of a thread that neither takes nor releases a lock. -/
def next (choice : Choice) : List (Frame L) → Option (List (Frame L))
  | .run .skip :: k | .run .callback :: k => some (if choice = .throws then .raise :: k else k)
  | .run .fail :: k => some (.raise :: k)
  | .run (.seq first second) :: k => some (.run first :: .run second :: k)
  | .run (.branch one other) :: k => some (.run (if choice = .aside then other else one) :: k)
  | .run (.loop body) :: k =>
    some (if choice = .aside then k else .run body :: .run (.loop body) :: k)
  | .run (.attempt body handler) :: k => some (.run body :: .handler handler :: k)
  | .handler _ :: k => some k
  | .raise :: .run _ :: k | .raise :: .raise :: k => some (.raise :: k)
  | .raise :: .handler code :: k => some (.run code :: k)
  | [.raise] => some []
  | _ => none

/-- What each thread calls by itself, and what client code called back may call. -/
structure Program (L : Type*) where
  calls : Nat → List (Code L)
  client : List (Code L)

structure State (L : Type*) where
  threads : Nat → List (Frame L)
  owner : L → Option Nat

namespace State

def start : State L := ⟨fun _ => [], fun _ => none⟩

/-- Thread `t` goes on with these frames. -/
def goto (s : State L) (t : Nat) (frames : List (Frame L)) : State L :=
  { s with threads := Function.update s.threads t frames }

end State

inductive Action where
  | enter (t call : Nat)
  | go (t : Nat) (choice : Choice)
  deriving DecidableEq, Repr

/-- The code that a thread may enter where it stands. -/
def enterable (program : Program L) (t : Nat) : List (Frame L) → List (Code L)
  | [] => program.calls t
  | .run .callback :: _ => program.client
  | _ => []

def step [DecidableEq L] (program : Program L) (s : State L) : Action → Option (State L)
  | .enter t call => (enterable program t (s.threads t))[call]?.map fun code =>
      s.goto t (.run code :: s.threads t)
  | .go t choice =>
    match s.threads t with
    | .run (.locked l body) :: k =>
      if s.owner l = none then
        some { s.goto t (.run body :: .release l :: k) with
          owner := Function.update s.owner l (some t) }
      else none
    | .release l :: k =>
      some { s.goto t k with owner := Function.update s.owner l none }
    | .raise :: .release l :: k =>
      some { s.goto t (.raise :: k) with owner := Function.update s.owner l none }
    | frames => (next choice frames).map (s.goto t)

/-! ## What a thread holds and what it waits for -/

/-- The locks a thread holds, innermost first. -/
def held : List (Frame L) → List L
  | [] => []
  | .release l :: k => l :: held k
  | _ :: k => held k

/-- Thread `t` cannot go on because `u` holds the lock it takes next. -/
def WaitsFor (s : State L) (t u : Nat) : Prop :=
  ∃ l body k, s.threads t = .run (.locked l body) :: k ∧ s.owner l = some u

def Ready [DecidableEq L] (program : Program L) (s : State L) (t : Nat) : Prop :=
  ∃ choice s', step program s (.go t choice) = some s'

/-! ## Following a policy -/

/-- Every lock is taken as the policy allows, and nothing is held over client code. -/
def Code.follows (may : List L → L → Bool) (holding : List L) : Code L → Bool
  | skip | fail => true
  | callback => holding.isEmpty
  | seq first second => first.follows may holding && second.follows may holding
  | branch one other => one.follows may holding && other.follows may holding
  | loop body => body.follows may holding
  | attempt body handler => body.follows may holding && handler.follows may holding
  | locked l body => may holding l && body.follows may (l :: holding)

variable (may : List L → L → Bool)

def Follows : List (Frame L) → Prop
  | [] => True
  | .run code :: k | .handler code :: k => code.follows may (held k) = true ∧ Follows k
  | .release l :: k => may (held k) l = true ∧ Follows k
  | .raise :: k => Follows k

/-- A program whose code follows the policy wherever it can be entered. -/
def Program.Follows (program : Program L) : Prop :=
  (∀ t, ∀ code ∈ program.calls t, code.follows may [] = true) ∧
    ∀ code ∈ program.client, code.follows may [] = true

/-- Locks held along the policy, each by the thread recorded as its owner. -/
structure Disciplined (s : State L) : Prop where
  follows : ∀ t, LockRanks.Follows may (s.threads t)
  owners : ∀ l t, s.owner l = some t ↔ l ∈ held (s.threads t)

/-- What a step does to the locks. -/
inductive Moves [DecidableEq L] (program : Program L) (s : State L) : State L → Prop
  | enters (t : Nat) (code : Code L) (member : code ∈ enterable program t (s.threads t)) :
      Moves program s (s.goto t (.run code :: s.threads t))
  | runs (t : Nat) (choice : Choice) (frames : List (Frame L))
      (taken : next choice (s.threads t) = some frames) : Moves program s (s.goto t frames)
  | takes (t : Nat) (l : L) (body : Code L) (k : List (Frame L))
      (top : s.threads t = .run (.locked l body) :: k) (free : s.owner l = none) :
      Moves program s { s.goto t (.run body :: .release l :: k) with
        owner := Function.update s.owner l (some t) }
  | leaves (t : Nat) (l : L) (k : List (Frame L)) (top : s.threads t = .release l :: k) :
      Moves program s { s.goto t k with owner := Function.update s.owner l none }
  | unwinds (t : Nat) (l : L) (k : List (Frame L)) (top : s.threads t = .raise :: .release l :: k) :
      Moves program s { s.goto t (.raise :: k) with owner := Function.update s.owner l none }

variable {may : List L → L → Bool} {program : Program L} {s s' : State L}

theorem step_moves [DecidableEq L] {a : Action} (taken : step program s a = some s') : Moves program s s' := by
  cases a with
  | enter t call =>
    obtain ⟨code, found, rfl⟩ := Option.map_eq_some_iff.mp taken
    exact .enters t code (List.mem_of_getElem? found)
  | go t choice =>
    simp only [step] at taken
    split at taken
    · rename_i l body k top
      split at taken
      · rename_i free
        obtain rfl := Option.some.inj taken
        exact .takes t l body k top free
      · exact absurd taken (by simp)
    · rename_i l k top
      obtain rfl := Option.some.inj taken
      exact .leaves t l k top
    · rename_i l k top
      obtain rfl := Option.some.inj taken
      exact .unwinds t l k top
    · obtain ⟨frames, gone, rfl⟩ := Option.map_eq_some_iff.mp taken
      exact .runs t choice frames gone

/-- Such a step holds on to the locks, and to the policy. -/
theorem next_keeps {choice : Choice} {frames later : List (Frame L)} (follows : Follows may frames)
    (taken : next choice frames = some later) : held later = held frames ∧ Follows may later := by
  unfold next at taken
  split at taken <;> first | (obtain rfl := Option.some.inj taken) | exact absurd taken (by simp)
  all_goals
    simp only [Follows, Code.follows, Bool.and_eq_true] at follows
  · split
    · exact ⟨rfl, follows.2⟩
    · exact ⟨rfl, follows.2⟩
  · split
    · exact ⟨rfl, follows.2⟩
    · exact ⟨rfl, follows.2⟩
  · exact ⟨rfl, follows.2⟩
  · exact ⟨rfl, follows.1.1, follows.1.2, follows.2⟩
  · split
    · exact ⟨rfl, follows.1.2, follows.2⟩
    · exact ⟨rfl, follows.1.1, follows.2⟩
  · split
    · exact ⟨rfl, follows.2⟩
    · exact ⟨rfl, follows.1, follows.1, follows.2⟩
  · exact ⟨rfl, follows.1.1, follows.1.2, follows.2⟩
  · exact ⟨rfl, follows.2⟩
  · exact ⟨rfl, follows.2⟩
  · exact ⟨rfl, follows⟩
  · exact ⟨rfl, follows.1, follows.2⟩
  · exact ⟨rfl, trivial⟩

/-- Client code is entered with nothing held. -/
theorem enterable_spec (coded : program.Follows may) {t : Nat} {frames : List (Frame L)}
    (follows : Follows may frames) {code : Code L} (member : code ∈ enterable program t frames) :
    held frames = [] ∧ code.follows may [] = true := by
  unfold enterable at member
  split at member
  · exact ⟨rfl, coded.1 t code member⟩
  · rename_i k
    exact ⟨List.isEmpty_iff.mp follows.1, coded.2 code member⟩
  · exact absurd member (by simp)

/-- The policy takes locks in the order of the rank. -/
def RankOrder (may : List L → L → Bool) (rank : L → Nat) : Prop :=
  ∀ holding l, may holding l = true → ∀ h ∈ holding, rank h < rank l

theorem RankOrder.fresh {rank : L → Nat} (order : RankOrder may rank) {holding : List L} {l : L}
    (allowed : may holding l = true) : l ∉ holding :=
  fun member => Nat.lt_irrefl (rank l) (order holding l allowed l member)

theorem disciplined_start : Disciplined may (State.start : State L) where
  follows _ := trivial
  owners l t := by simp [State.start, held]

theorem Disciplined.goto (d : Disciplined may s) {t : Nat} {frames : List (Frame L)}
    (same : held frames = held (s.threads t)) (follows : Follows may frames) :
    Disciplined may (s.goto t frames) where
  follows u := by
    by_cases here : u = t
    · subst here
      simpa [State.goto] using follows
    · simpa [State.goto, here] using d.follows u
  owners l u := by
    by_cases here : u = t
    · subst here
      simpa [State.goto, same] using d.owners l u
    · simpa [State.goto, here] using d.owners l u

theorem Disciplined.take [DecidableEq L] (d : Disciplined may s) {t : Nat} {l : L}
    {frames : List (Frame L)} (free : s.owner l = none)
    (more : held frames = l :: held (s.threads t)) (follows : Follows may frames) :
    Disciplined may { s.goto t frames with owner := Function.update s.owner l (some t) } where
  follows u := by
    by_cases here : u = t
    · subst here
      simpa [State.goto] using follows
    · simpa [State.goto, here] using d.follows u
  owners m u := by
    have others := d.owners m u
    by_cases same : m = l
    · subst same
      rw [free] at others
      by_cases here : u = t
      · subst here
        simp [State.goto, more]
      · have unheld : m ∉ held (s.threads u) := fun member => by simpa using others.mpr member
        simp [State.goto, here, Ne.symm here, unheld]
    · by_cases here : u = t
      · subst here
        simpa [State.goto, more, same] using others
      · simpa [State.goto, here, same] using others

theorem Disciplined.drop [DecidableEq L] (d : Disciplined may s) {t : Nat} {l : L}
    {frames : List (Frame L)} (less : held (s.threads t) = l :: held frames)
    (once : l ∉ held frames) (follows : Follows may frames) :
    Disciplined may { s.goto t frames with owner := Function.update s.owner l none } where
  follows u := by
    by_cases here : u = t
    · subst here
      simpa [State.goto] using follows
    · simpa [State.goto, here] using d.follows u
  owners m u := by
    have others := d.owners m u
    by_cases same : m = l
    · subst same
      by_cases here : u = t
      · subst here
        simp [State.goto, once]
      · -- The lock was `t`'s, so no other thread has it in its frames.
        have mine : s.owner m = some t := (d.owners m t).mpr (by rw [less]; exact List.mem_cons_self)
        have unheld : m ∉ held (s.threads u) := by
          intro member
          have theirs := others.mpr member
          rw [mine] at theirs
          exact here (Option.some.inj theirs).symm
        simp [State.goto, here, unheld]
    · by_cases here : u = t
      · subst here
        rw [less] at others
        simpa [State.goto, same] using others
      · simpa [State.goto, here, same] using others

theorem step_disciplined [DecidableEq L] {rank : L → Nat} (order : RankOrder may rank)
    (coded : program.Follows may) {a : Action} (d : Disciplined may s)
    (taken : step program s a = some s') : Disciplined may s' := by
  cases step_moves taken with
  | enters t code member =>
    have entered := enterable_spec coded (d.follows t) member
    refine d.goto rfl ⟨?_, d.follows t⟩
    rw [entered.1]
    exact entered.2
  | runs t choice frames gone =>
    have kept := next_keeps (d.follows t) gone
    exact d.goto kept.1 kept.2
  | takes t l body k top free =>
    have follows := d.follows t
    rw [top] at follows
    have allowed := Bool.and_eq_true_iff.mp follows.1
    exact d.take free (by rw [top]; rfl) ⟨allowed.2, allowed.1, follows.2⟩
  | leaves t l k top =>
    have follows := d.follows t
    rw [top] at follows
    exact d.drop (by rw [top]; rfl) (order.fresh follows.1) follows.2
  | unwinds t l k top =>
    have follows := d.follows t
    rw [top] at follows
    exact d.drop (by rw [top]; rfl) (order.fresh follows.1) follows.2

theorem run_disciplined [DecidableEq L] {rank : L → Nat} (order : RankOrder may rank)
    (coded : program.Follows may) {actions : List Action}
    (reached : run (step program) State.start actions = some s) : Disciplined may s :=
  run_invariant (fun _ _ _ d taken => step_disciplined order coded d taken) disciplined_start reached

/-! ## Some thread can always go on -/

/-- A thread with work left can go on unless a lock it takes next is held. -/
theorem ready_or_blocked [DecidableEq L] {t : Nat} (busy : s.threads t ≠ []) :
    Ready program s t ∨ ∃ u, WaitsFor s t u := by
  cases top : s.threads t with
  | nil => exact absurd top busy
  | cons frame k =>
    cases frame with
    | run code =>
      cases code with
      | locked l body =>
        cases owned : s.owner l with
        | none => exact .inl ⟨.onward, by simp [step, top, owned]⟩
        | some u => exact .inr ⟨u, l, body, k, top, owned⟩
      | _ => exact .inl ⟨.onward, by simp [step, top, next]⟩
    | handler code => exact .inl ⟨.onward, by simp [step, top, next]⟩
    | release l => exact .inl ⟨.onward, by simp [step, top]⟩
    | raise =>
      cases k with
      | nil => exact .inl ⟨.onward, by simp [step, top, next]⟩
      | cons below rest => cases below <;> exact .inl ⟨.onward, by simp [step, top, next]⟩

/-- A lock that a waiting thread takes next ranks above every lock it holds. -/
theorem Disciplined.ranks (d : Disciplined may s) {rank : L → Nat} (order : RankOrder may rank)
    {t : Nat} {l : L} {body : Code L} {k : List (Frame L)}
    (top : s.threads t = .run (.locked l body) :: k) : ∀ h ∈ held (s.threads t), rank h < rank l := by
  have follows := d.follows t
  rw [top] at follows ⊢
  exact order (held k) l (Bool.and_eq_true_iff.mp follows.1).1

/-- Along a chain of waits the ranks rise, so it ends at a thread that can go on. -/
theorem ready_or_waits [DecidableEq L] (d : Disciplined may s) {rank : L → Nat} {bound : Nat}
    (order : RankOrder may rank) (bounded : ∀ l, rank l < bound) {t : Nat}
    (busy : s.threads t ≠ []) :
    ∃ u, Relation.ReflTransGen (WaitsFor s) t u ∧ Ready program s u := by
  -- The induction is on how far the locks held by the last thread of the chain can still rise.
  suffices chain : ∀ room t, s.threads t ≠ [] →
      (∀ l body k, s.threads t = .run (.locked l body) :: k → bound ≤ rank l + room) →
      ∃ u, Relation.ReflTransGen (WaitsFor s) t u ∧ Ready program s u from
    chain bound t busy fun l _ _ _ => Nat.le_add_left bound (rank l)
  intro room
  induction room with
  | zero =>
    intro t busy high
    have onward : Ready program s t ∨ ∃ u, WaitsFor s t u := ready_or_blocked busy
    rcases onward with ready | ⟨u, l, body, k, top, owned⟩
    · exact ⟨t, .refl, ready⟩
    · exact absurd (high l body k top) (Nat.not_le.mpr (bounded l))
  | succ room ih =>
    intro t busy high
    have onward : Ready program s t ∨ ∃ u, WaitsFor s t u := ready_or_blocked busy
    rcases onward with ready | ⟨u, l, body, k, top, owned⟩
    · exact ⟨t, .refl, ready⟩
    · have member := (d.owners l u).mp owned
      have busy' : s.threads u ≠ [] := fun none => by simp [none, held] at member
      obtain ⟨last, chained, ready⟩ := ih u busy' fun m body' k' top' => by
        have above := d.ranks order top' l member
        have room_left := high l body k top
        omega
      exact ⟨last, .head ⟨l, body, k, top, owned⟩ chained, ready⟩

/-- Client code runs with nothing held. -/
theorem Disciplined.callback_free (d : Disciplined may s) {t : Nat} {k : List (Frame L)}
    (top : s.threads t = .run .callback :: k) (l : L) : s.owner l ≠ some t := by
  intro owned
  have follows := d.follows t
  have member := (d.owners l t).mp owned
  rw [top] at follows member
  have nothing : held k = [] := List.isEmpty_iff.mp follows.1
  exact List.not_mem_nil (nothing ▸ member)

/-- A thread holds locks as the policy lets them be taken one upon the other. -/
theorem held_induction {P : List L → Prop} {frames : List (Frame L)} (follows : Follows may frames)
    (none : P []) (more : ∀ holding l, P holding → may holding l = true → P (l :: holding)) :
    P (held frames) := by
  induction frames with
  | nil => exact none
  | cons frame k ih =>
    cases frame with
    | run code => exact ih follows.2
    | handler code => exact ih follows.2
    | release l => exact more (held k) l (ih follows.2) follows.1
    | raise => exact ih follows

end LighterApi.Library.LockRanks

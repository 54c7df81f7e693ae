import LighterApi.Source.LockUse

/-!
# The locks are taken in one order

The transaction lock comes first, the token lock second, and every other lock is taken
last: nothing is taken under it. Every operation follows this order with each of the
functions it calls, so the threads never wait for one another in a circle, whatever calls
they interleave, which of them throw, and what the callbacks call in turn. The token lock
is no innermost lock: a mint takes the signer's mutex under it.
-/
namespace LighterApi.Guarantees.LockOrder
open LighterApi.Library.Transition LighterApi.Library.LockRanks LighterApi.Source.LockUse

/-- Which lock may be taken while which are held, innermost first. -/
def mayTake : List Lock → Lock → Bool
  | [], _ => true
  | [.txM], .authM | [.txM], .signMutex | [.txM], .throttleMtx 0 | [.txM], .orderM => true
  | [.authM], .signMutex | [.authM, .txM], .signMutex => true
  | _, _ => false

def rank : Lock → Nat
  | .txM => 0
  | .authM => 1
  | _ => 2

theorem rank_lt (l : Lock) : rank l < 3 := by
  cases l <;> simp [rank]

theorem mayTake_order : RankOrder mayTake rank := by
  intro holding l allowed h member
  unfold mayTake at allowed
  split at allowed
  · exact absurd member List.not_mem_nil
  all_goals simp_all [rank]
  rcases member with rfl | rfl
  · decide
  · decide

theorem ioCalls_follow : ∀ code ∈ ioCalls, code.follows mayTake [] = true := by
  decide

theorem gatewayCalls_follow : ∀ code ∈ gatewayCalls, code.follows mayTake [] = true := by
  decide

theorem restCalls_follow (client : Nat) :
    ∀ code ∈ restCalls client, code.follows mayTake [] = true := by
  intro code member
  simp only [restCalls, List.mem_cons, List.not_mem_nil, or_false] at member
  rcases member with rfl | rfl | rfl | rfl | rfl | rfl | rfl
  all_goals rfl

theorem program_follows (clients : Nat) : (program clients).Follows mayTake := by
  have client : ∀ code ∈ clientCalls clients, code.follows mayTake [] = true := by
    intro code member
    rcases List.mem_append.mp member with gateway | rest
    · exact gatewayCalls_follow code gateway
    · obtain ⟨n, -, member⟩ := List.mem_flatMap.mp rest
      exact restCalls_follow (n + 1) code member
  refine ⟨fun t code member => ?_, client⟩
  simp only [program] at member
  split at member
  · exact ioCalls_follow code member
  · exact client code member

variable {clients : Nat} {actions : List Action} {s : State Lock}

theorem disciplined (reached : run (step (program clients)) .start actions = some s) :
    Disciplined mayTake s :=
  run_disciplined mayTake_order (program_follows clients) reached

/-- Whatever any number of threads do, a thread in the middle of a call can go on, or waits
for a lock through a chain of owners that ends at a thread that can go on. -/
theorem gateway_never_deadlocks (clients : Nat) (actions : List Action) (s : State Lock)
    (reached : run (step (program clients)) .start actions = some s) (t : Nat)
    (busy : s.threads t ≠ []) :
    ∃ u, Relation.ReflTransGen (WaitsFor s) t u ∧ Ready (program clients) s u :=
  ready_or_waits (disciplined reached) mayTake_order rank_lt busy

/-- Thread 1 submits and holds the transaction lock; thread 2, which cancels, is stuck at it. -/
def contended : List Action :=
  .enter 1 6 :: List.replicate 17 (.go 1 .aside) ++
    .enter 2 8 :: List.replicate 6 (.go 2 .onward) ++ [.go 2 .aside]

theorem contended_reached : ∃ s, run (step (program 1)) .start contended = some s ∧
    (step (program 1) s (.go 2 .onward)).isNone = true ∧ (s.threads 2).isEmpty = false :=
  exists_run (P := fun s => (step (program 1) s (.go 2 .onward)).isNone = true ∧
    (s.threads 2).isEmpty = false) (by decide +kernel)

theorem gateway_never_deadlocks_contended : ∃ s, run (step (program 1)) .start contended = some s ∧
    (step (program 1) s (.go 2 .onward)).isNone = true ∧
      ∃ u, Relation.ReflTransGen (WaitsFor s) 2 u ∧ Ready (program 1) s u := by
  obtain ⟨s, reached, stuck, busy⟩ := contended_reached
  refine ⟨s, reached, stuck, gateway_never_deadlocks 1 contended s reached 2 fun none => ?_⟩
  rw [none] at busy
  exact absurd busy (by decide)

/-- The locks a thread can hold at one moment, innermost first. -/
def Hierarchy : List Lock → Prop
  | [] | [_] => True
  | [l, .txM] => l = .authM ∨ l = .signMutex ∨ l = .throttleMtx 0 ∨ l = .orderM
  | [.signMutex, .authM] | [.signMutex, .authM, .txM] => True
  | _ => False

theorem hierarchy_cons {holding : List Lock} {l : Lock} (before : Hierarchy holding)
    (allowed : mayTake holding l = true) : Hierarchy (l :: holding) := by
  unfold mayTake at allowed
  split at allowed
  all_goals simp_all [Hierarchy]

/-- In every reachable state a thread holds locks along the hierarchy, each lock has one
holder, and a thread that runs client code or has returned holds none. -/
theorem locks_nest (clients : Nat) (actions : List Action) (s : State Lock)
    (reached : run (step (program clients)) .start actions = some s) (t : Nat) :
    Hierarchy (held (s.threads t)) ∧
      (∀ l ∈ held (s.threads t), ∀ u, l ∈ held (s.threads u) → u = t) ∧
      ((∃ k, s.threads t = .run .callback :: k) ∨ s.threads t = [] → held (s.threads t) = []) := by
  have d := disciplined reached
  refine ⟨held_induction (d.follows t) trivial fun _ _ => hierarchy_cons, ?_, ?_⟩
  · intro l member u member'
    have mine := (d.owners l t).mpr member
    have theirs := (d.owners l u).mpr member'
    rw [mine] at theirs
    exact (Option.some.inj theirs).symm
  · rintro (⟨k, top⟩ | returned)
    · rw [List.eq_nil_iff_forall_not_mem]
      intro l member
      exact d.callback_free top l ((d.owners l t).mpr member)
    · rw [returned]
      rfl

theorem locks_nest_contended : ∃ s, run (step (program 1)) .start contended = some s ∧
    Hierarchy (held (s.threads 1)) := by
  obtain ⟨s, reached, -⟩ := contended_reached
  exact ⟨s, reached, (locks_nest 1 contended s reached 1).1⟩

end LighterApi.Guarantees.LockOrder

import Mathlib.Data.List.Basic
import Mathlib.Tactic.TypeStar

/-!
# A replica behind a feed

A replica applies the messages of a feed oldest first. What it will be once everything on
its way has been applied (`settled`) does not change when a message arrives, and a message
sent acts on it as if it had been applied at once. So a replica that follows its original
when the feed is counted in needs to be looked at only when something is sent. A property
of the replica holds through the whole feed (`Throughout`) when each message restores it
at the moment it is sent.
-/
namespace LighterApi.Library.Replica

variable {ρ μ : Type*} (apply : ρ → μ → ρ)

/-- The replica when everything on its way has been applied. -/
def settled (feed : List μ) (replica : ρ) : ρ := feed.foldl apply replica

/-- The property holds now and after each message on the way. -/
def Throughout (P : ρ → Prop) (feed : List μ) (replica : ρ) : Prop :=
  ∀ first rest, feed = first ++ rest → P (settled apply first replica)

variable {apply}

@[simp] theorem settled_nil (replica : ρ) : settled apply [] replica = replica := rfl

/-- A message that arrives was counted in already. -/
theorem settled_cons (msg : μ) (rest : List μ) (replica : ρ) :
    settled apply (msg :: rest) replica = settled apply rest (apply replica msg) := rfl

theorem settled_concat (feed : List μ) (msg : μ) (replica : ρ) :
    settled apply (feed ++ [msg]) replica = apply (settled apply feed replica) msg := by
  unfold settled
  rw [List.foldl_append]
  rfl

variable {P : ρ → Prop} {feed : List μ} {replica : ρ}

theorem Throughout.now (h : Throughout apply P feed replica) : P replica := h [] feed rfl

theorem Throughout.settled (h : Throughout apply P feed replica) :
    P (Replica.settled apply feed replica) :=
  h feed [] (List.append_nil feed).symm

theorem throughout_nil (now : P replica) : Throughout apply P [] replica := by
  intro first rest cut
  rw [(List.append_eq_nil_iff.mp cut.symm).1]
  exact now

theorem Throughout.receive {msg : μ} {rest : List μ}
    (h : Throughout apply P (msg :: rest) replica) :
    Throughout apply P rest (apply replica msg) := by
  intro first later cut
  exact h (msg :: first) later (by rw [cut, List.cons_append])

theorem Throughout.send {msg : μ} (h : Throughout apply P feed replica)
    (restored : P (apply (Replica.settled apply feed replica) msg)) :
    Throughout apply P (feed ++ [msg]) replica := by
  intro first rest cut
  rcases List.eq_nil_or_concat rest with rfl | ⟨early, last, rfl⟩
  · rw [← (List.append_nil first), ← cut, settled_concat]
    exact restored
  · rw [List.concat_eq_append, ← List.append_assoc] at cut
    obtain ⟨cut, _⟩ := List.append_inj' cut rfl
    exact h first early cut

end LighterApi.Library.Replica

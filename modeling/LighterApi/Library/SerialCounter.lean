import Mathlib.Data.List.Chain
import Mathlib.Algebra.Order.Group.Int

/-!
# A counter kept in step with a remote one

Clients under one lock use the numbers of a remote counter, which takes a use only when
it names the next number. The local counter is counted up by a use that succeeds and
read back after one that fails, so the two agree whenever no failed use is unsettled
(`Sound`), as long as the counter read back is the remote one and no failed use arrives
after it was settled (`trusted`).
-/

namespace LighterApi.Library.SerialCounter

/-- Where the holder of the lock stands: nothing used, a number fixed for the next use,
or a use that failed. -/
inductive Phase where
  | settled
  | armed (n : Int)
  | broken
  deriving DecidableEq

structure System where
  held : Option Phase
  counter : Int
  used : List Int
  remote : Int
  floating : Option Int
  trusted : Bool

/-- One step of a client or of the remote side. `used` lists the numbers used since the
counter was last read back, latest first; `floating` is a failed use that may still
arrive. -/
inductive Move (sys : System) : System → Prop where
  | take (free : sys.held = none) : Move sys { sys with held := some .settled }
  | arm (settled : sys.held = some .settled) :
      Move sys { sys with held := some (.armed sys.counter) }
  | succeed {n : Int} (armed : sys.held = some (.armed n)) (next : n = sys.remote) :
      Move sys { sys with
        held := some .settled, counter := sys.counter + 1, used := n :: sys.used,
        remote := sys.remote + 1 }
  | fail {n : Int} (armed : sys.held = some (.armed n)) (remote : Int) (floating : Option Int) :
      Move sys { sys with held := some .broken, used := n :: sys.used, remote, floating }
  | arrive {n : Int} (floating : sys.floating = some n) (remote : Int) :
      Move sys { sys with remote, floating := none }
  | readBack (broken : sys.held = some .broken) (reply : Int) :
      Move sys { sys with
        held := some .settled, counter := reply, used := [], floating := none,
        trusted := sys.trusted && reply == sys.remote }
  | readFails (broken : sys.held = some .broken) :
      Move sys { sys with held := some .settled, used := [], floating := none, trusted := false }
  | stray (remote : Int) : Move sys { sys with remote, trusted := false }
  | release (settled : sys.held = some .settled) : Move sys { sys with held := none }

/-- Every number is one above the number before it. -/
def Consecutive (used : List Int) : Prop := used.IsChain fun later earlier => later = earlier + 1

structure Sound (sys : System) : Prop where
  agree : sys.trusted = true → sys.held ≠ some .broken → sys.counter = sys.remote
  floats : sys.floating ≠ none → sys.held = some .broken
  armed : ∀ n, sys.held = some (.armed n) → n = sys.counter
  consecutive : Consecutive sys.used
  spent : ∀ n, sys.used.head? = some n → sys.held ≠ some .broken → sys.counter = n + 1

theorem Consecutive.cons {used : List Int} {n : Int} (h : Consecutive used)
    (next : ∀ m, used.head? = some m → n = m + 1) : Consecutive (n :: used) :=
  List.isChain_cons.mpr ⟨fun m head => next m head, h⟩

theorem Sound.move {sys sys' : System} (h : Sound sys) (moved : Move sys sys') : Sound sys' := by
  cases moved with
  | take free =>
    have calm : sys.held ≠ some .broken := by simp [free]
    refine ⟨fun trusted _ => h.agree trusted calm, fun floating => ?_, by simp, h.consecutive,
      fun n last _ => h.spent n last calm⟩
    exact absurd (h.floats floating) calm
  | arm settled =>
    have calm : sys.held ≠ some .broken := by simp [settled]
    refine ⟨fun trusted _ => h.agree trusted calm, fun floating => ?_, ?_, h.consecutive,
      fun n last _ => h.spent n last calm⟩
    · exact absurd (h.floats floating) calm
    · intro n armed
      exact (Phase.armed.inj (Option.some.inj armed)).symm
  | succeed armed next =>
    rename_i n
    have calm : sys.held ≠ some .broken := by simp [armed]
    have fixed := h.armed n armed
    refine ⟨fun trusted _ => ?_, fun floating => ?_, by simp, ?_, ?_⟩
    · exact congrArg (· + 1) (h.agree trusted calm)
    · exact absurd (h.floats floating) calm
    · exact h.consecutive.cons fun m last => fixed.trans (h.spent m last calm)
    · intro m last _
      rw [← Option.some.inj last, fixed]
  | fail armed remote floating =>
    rename_i n
    have calm : sys.held ≠ some .broken := by simp [armed]
    have fixed := h.armed n armed
    refine ⟨fun _ settled => absurd rfl settled, fun _ => rfl, by simp, ?_,
      fun _ _ settled => absurd rfl settled⟩
    exact h.consecutive.cons fun m last => fixed.trans (h.spent m last calm)
  | arrive floating remote =>
    have broken : sys.held = some .broken := h.floats (by simp [floating])
    exact ⟨fun _ settled => absurd broken settled, by simp, h.armed, h.consecutive,
      fun _ _ settled => absurd broken settled⟩
  | readBack broken reply =>
    refine ⟨fun trusted _ => ?_, by simp, by simp, List.isChain_nil, by simp⟩
    exact eq_of_beq (Bool.and_eq_true_iff.mp trusted).2
  | readFails broken =>
    exact ⟨fun trusted => absurd trusted (by simp), by simp, by simp, List.isChain_nil, by simp⟩
  | stray remote =>
    exact ⟨fun trusted => absurd trusted (by simp), h.floats, h.armed, h.consecutive, h.spent⟩
  | release settled =>
    have calm : sys.held ≠ some .broken := by simp [settled]
    refine ⟨fun trusted _ => h.agree trusted calm, fun floating => ?_, by simp, h.consecutive,
      fun n last _ => h.spent n last calm⟩
    exact absurd (h.floats floating) calm

/-- The lock is free, nothing was used, and the counters agree. -/
theorem sound_start (counter : Int) : Sound ⟨none, counter, [], counter, none, true⟩ :=
  ⟨fun _ _ => rfl, fun floating => absurd rfl floating, by simp, List.isChain_nil, by simp⟩

end LighterApi.Library.SerialCounter

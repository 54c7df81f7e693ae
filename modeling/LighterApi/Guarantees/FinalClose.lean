import LighterApi.Guarantees.WireAgreement
import LighterApi.Guarantees.SessionMoves

/-!
# A close is final

Once the user has closed the session, only reads and writes may still start, and the
generation stands still. The handshake handler, the timers and the reconnect look at the
closed flag; the handlers of the resolution, of the TCP connect and of the TLS handshake
do not, and go on with the connect chain when they complete with success.
-/
namespace LighterApi.Guarantees.FinalClose
open LighterApi.Source LighterApi.Source.WsSession
open LighterApi.Library.Transition SessionLink SessionMoves WireAgreement

/-- What a closed session does not start any more. -/
def reaches : Op → Bool
  | .read _ | .write _ _ => false
  | _ => true

/-- The operations towards a connection, and the waits, started so far. -/
def onward (s : State) : List Op := (launched s).filter reaches

/-- In every run from here on, none of them starts, and the generation stays. -/
def Final (s : State) : Prop :=
  ∀ later s', run step s later = some s' →
    s'.generation = s.generation ∧ onward s' = onward s

/-- No step of the connect chain before its last is outstanding. -/
def Halted (s : State) : Prop :=
  ∀ op ∈ s.ops, op.gen = s.generation → successor op = none

/-- A closed session whose connect chain does not go on. -/
structure Shut (start s : State) : Prop where
  closed : s.userClosed = true
  halted : Halted s
  generation : s.generation = start.generation
  onward : onward s = onward start

variable {s s' start : State} {ok : Rule}

theorem successor_eq_none {op : Op} (outside : op.isChain = false) : successor op = none := by
  cases op with
  | resolve gen | connect gen | tlsHandshake gen => exact absurd outside (by simp [Op.isChain])
  | _ => rfl

/-- A read or a write starts. -/
theorem Shut.launch (h : Shut start s) {op : Op} (outside : op.isChain = false)
    (harmless : reaches op = false) : Shut start (s.launch op) := by
  refine ⟨h.closed, fun op' member current => ?_, h.generation, ?_⟩
  · rcases List.mem_cons.mp member with rfl | old
    · exact successor_eq_none outside
    · exact h.halted op' old current
  · have same : FinalClose.onward (s.launch op) = FinalClose.onward s :=
      List.filter_cons_of_neg (by simp [harmless])
    exact same.trans h.onward

/-- Nothing starts and nothing current is added. -/
theorem Shut.note (h : Shut start s) (closed : s'.userClosed = true)
    (ops : ∀ op ∈ s'.ops, op ∈ s.ops) (generation : s'.generation = s.generation)
    (launched : launched s' = launched s) : Shut start s' := by
  refine ⟨closed, fun op member current => ?_, generation.trans h.generation, ?_⟩
  · exact h.halted op (ops op member) (current.trans generation)
  · unfold FinalClose.onward
    rw [launched]
    exact h.onward

theorem Shut.move (h : Shut start s) (move : Move ok s s') : Shut start s' := by
  have never : s.userClosed = false → Shut start s' := by
    intro opened
    exact absurd (h.closed.symm.trans opened) (by simp)
  cases move with
  | keep fewer => exact h.note h.closed (fun op member => fewer.subset member) rfl rfl
  | read => exact h.launch rfl rfl
  | advance member current follows =>
    rw [h.halted _ member current] at follows
    exact absurd follows (by simp)
  | @send _ rest =>
    have kept : Shut start { s with outboundQueue := rest, writeInFlight := true } :=
      h.note h.closed (fun _ => id) rfl rfl
    exact kept.launch rfl rfl
  | wait opened => exact never opened
  | lose opened => exact never opened
  | connect opened _ => exact never opened
  | up opened _ _ => exact never opened
  | write | enqueue | answer | fail | greet => exact h.note h.closed (fun _ => id) rfl rfl
  | shake => exact h.note h.closed (fun _ => List.mem_of_mem_erase) rfl rfl
  | close => exact h.note rfl (fun _ => id) rfl rfl

/-- Every run keeps a closed session shut. -/
theorem Shut.final (link : Link s) (h : Shut s s) : Final s := by
  intro later s' run_on
  have kept : Link s' ∧ Shut s s' := by
    apply run_invariant (I := fun m => Link m ∧ Shut s m) _ ⟨link, h⟩ run_on
    intro m a after kept taken
    have permits : Permits (fun _ _ _ _ => True) m a := by
      unfold Permits
      split
      · exact fun _ _ => trivial
      · exact fun _ _ _ => ⟨fun _ => trivial, fun _ => trivial⟩
      · exact trivial
    have moves := moves_of_step kept.1 permits taken
    exact ⟨kept.1.step taken, moves.invariant (fun _ _ => Shut.move) kept.2⟩
  exact ⟨kept.2.generation, kept.2.onward⟩

/-! ## The connect chain goes on -/

theorem step_success {op next : Op} (member : op ∈ s.ops) (current : op.gen = s.generation)
    (follows : successor op = some next) :
    ∃ a, step s a = some ({ s with ops := s.ops.erase op }.launch next) := by
  have completes : ∀ handler : State → State,
      s.complete op handler = some (handler { s with ops := s.ops.erase op }) := by
    intro handler
    unfold State.complete
    rw [if_pos member]
    dsimp only
    rw [if_pos current]
  cases op with
  | resolve gen =>
    obtain rfl := Option.some.inj follows
    refine ⟨.resolved gen true, ?_⟩
    simp only [step, if_true]
    rw [completes]
  | connect gen =>
    obtain rfl := Option.some.inj follows
    refine ⟨.tcpConnected gen true true, ?_⟩
    simp only [step, Bool.and_self, if_true]
    rw [completes]
  | tlsHandshake gen =>
    obtain rfl := Option.some.inj follows
    refine ⟨.tlsDone gen true, ?_⟩
    simp only [step, if_true]
    rw [completes]
  | _ => exact absurd follows (by simp [successor])

/-- A step of the connect chain that is outstanding goes on to the next one. -/
theorem not_final (op : Op) {next : Op} (member : op ∈ s.ops) (current : op.gen = s.generation)
    (follows : successor op = some next) : ¬Final s := by
  intro final
  obtain ⟨a, taken⟩ := step_success member current follows
  have goes_on := (final [a] _ (run_cons_eq_some.mpr ⟨_, taken, rfl⟩)).2
  have one_more : onward ({ s with ops := s.ops.erase op }.launch next) = next :: onward s := by
    apply List.filter_cons_of_pos
    cases op with
    | resolve gen | connect gen | tlsHandshake gen =>
      obtain rfl := Option.some.inj follows
      rfl
    | _ => exact absurd follows (by simp [successor])
  rw [one_more] at goes_on
  have length := congrArg List.length goes_on
  rw [List.length_cons] at length
  omega

/-! ## Every close -/

/-- The strand runs the close when it was posted first. -/
theorem execute_close {provider : String → Token} {rest : List Posted}
    (posted : s.posted = .closeByUser :: rest) :
    step s (.execute provider) = some { s with posted := rest }.closeByUser := by
  simp only [step, runPosted]
  rw [posted]

theorem closeByUser_spec (s : State) :
    s.closeByUser.userClosed = true ∧ s.closeByUser.ops = s.ops ∧
      s.closeByUser.generation = s.generation := by
  unfold State.closeByUser
  split
  · rename_i closed
    exact ⟨closed, rfl, rfl⟩
  · split
    · exact ⟨rfl, rfl, rfl⟩
    · exact ⟨rfl, rfl, rfl⟩

/-- In every reachable state, the close is final exactly when no resolution, TCP connect or
TLS handshake of the current generation is outstanding when it runs. -/
theorem close_final_iff {actions : List Action} {provider : String → Token}
    (reached : run step State.start actions = some s)
    (closing : s.posted.head? = some .closeByUser)
    (taken : step s (.execute provider) = some s') : Final s' ↔ Halted s := by
  have link : Link s := run_invariant (fun _ _ _ => Link.step) link_start reached
  obtain ⟨rest, posted⟩ := List.head?_eq_some_iff.mp closing
  rw [execute_close posted] at taken
  have closed := closeByUser_spec { s with posted := rest }
  rw [Option.some.inj taken] at closed
  obtain ⟨closed, ops, generation⟩ := closed
  have link' : Link s' := Link.step link (a := .execute provider) (by
    rw [execute_close posted]
    exact taken)
  refine ⟨fun final op member current => ?_, fun halted => ?_⟩
  · cases follows : successor op with
    | none => rfl
    | some next =>
      refine absurd final (not_final op ?_ ?_ follows)
      · rw [ops]
        exact member
      · rw [generation]
        exact current
  · refine Shut.final link' ⟨closed, fun op member current => ?_, rfl, rfl⟩
    rw [ops] at member
    rw [generation] at current
    exact halted op member current

/-- A greeted connection is closed. -/
theorem close_final_iff_sample :
    ∃ s s', run step State.start (connecting ++ [.close]) = some s ∧
      step s (.execute plainTokens) = some s' ∧ Final s' := by
  obtain ⟨s, reached, closing, halted, enabled⟩ : ∃ s,
      run step State.start (connecting ++ [.close]) = some s ∧
        (s.posted.head? = some .closeByUser ∧
          (∀ op ∈ s.ops, op.gen = s.generation → successor op = none) ∧
          (step s (.execute plainTokens)).isSome = true) :=
    exists_run (by decide +kernel)
  obtain ⟨s', taken⟩ := Option.isSome_iff_exists.mp enabled
  exact ⟨s, s', reached, taken, (close_final_iff reached closing taken).mpr halted⟩

/-- Closed while the name is being resolved, the session still connects. -/
theorem resolving_close_not_final : ¬∀ (actions : List Action) (provider : String → Token)
    (s s' : State), run step State.start actions = some s →
      s.posted.head? = some .closeByUser → step s (.execute provider) = some s' → Final s' := by
  intro always
  obtain ⟨s, reached, closing, enabled⟩ : ∃ s,
      run step State.start [.execute plainTokens, .close] = some s ∧
        (s.posted.head? = some .closeByUser ∧
          ((step s (.execute plainTokens)).any fun s' =>
            decide (s'.ops = [.resolve 1] ∧ s'.generation = 1)) = true) :=
    exists_run (by decide +kernel)
  obtain ⟨s', taken, shown⟩ := (Option.any_eq_true _ _).mp enabled
  obtain ⟨ops, generation⟩ := of_decide_eq_true shown
  have final := always _ plainTokens s s' reached closing taken
  exact not_final (.resolve 1) (by simp [ops]) generation.symm rfl final

end LighterApi.Guarantees.FinalClose

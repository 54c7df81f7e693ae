import LighterApi.Library.Outbox
import LighterApi.Guarantees.WireAgreement
import LighterApi.Guarantees.SessionMoves

/-!
# The connected flag

`isConnected` is to tell that the connection is up, greeted, and neither failed nor closed.
The greeting sets its flag without looking whether the connection is still there, and a
close leaves it set. In the runs in which neither happens the flag is truthful.
-/
namespace LighterApi.Guarantees.TruthfulFlag
open LighterApi.Source LighterApi.Source.WsSession LighterApi.Library
open LighterApi.Library.Transition SessionLink SessionMoves WireAgreement

/-- What was noted since the handshake of the current generation, oldest first. -/
def sinceHandshake (s : State) : List Event :=
  Outbox.after (· == .handshake s.generation) s.trace.reverse

/-- The handshake of the current generation has completed, the greeting was received on it,
and since the handshake no error was handled for it, nor a close executed. -/
structure Established (s : State) : Prop where
  handshake : .handshake s.generation ∈ s.trace
  greeted : .greeted s.generation ∈ sinceHandshake s
  unfailed : .failed s.generation ∉ sinceHandshake s
  unclosed : .closed ∉ sinceHandshake s

/-- A greeting is dispatched only while the connection is up and the session is not closed;
a close is executed only while the flag is not set. -/
def Punctual (s : State) : Action → Prop
  | .execute _ =>
    s.posted.head? = some .closeByUser → s.userClosed = false → s.isConnected = false
  | .readDone gen (.message json) _ =>
    .read gen ∈ s.ops → gen = s.generation → json.isObject = true →
      textOf json "type" = "connected" → s.connected = true ∧ s.userClosed = false
  | _ => True

instance decidablePunctual (s : State) : (a : Action) → Decidable (Punctual s a)
  | .execute _ => inferInstanceAs (Decidable (_ → _ → _ = _))
  | .readDone _ (.message _) _ => inferInstanceAs (Decidable (_ → _ → _ → _ → _ ∧ _))
  | .readDone _ .error _ | .readDone _ .unparsable _ | .subscribe _ | .unsubscribe _ | .post _
  | .close | .streamFails | .resolved _ _ | .tcpConnected _ _ _ | .tlsDone _ _
  | .wsDone _ _ | .writeDone _ _ _ | .pingFired _ _ _ | .reconnectFired _ _ _ =>
    inferInstanceAs (Decidable True)

/-- The same on the events. -/
def punctual : Rule := fun e connected userClosed connectedFlag =>
  (∀ gen, e = .greeted gen → connected = true ∧ userClosed = false) ∧
    (e = .closed → connectedFlag = false)

theorem permits_of_punctual {s : State} {a : Action} (meets : Punctual s a) :
    Permits punctual s a := by
  unfold Permits
  split
  · exact fun posted opened =>
      ⟨fun _ here => absurd here (by simp), fun _ => meets posted opened⟩
  · refine fun member current object => ⟨fun greeting => ⟨fun _ _ => ?_, ?_⟩, fun _ => ?_⟩
    · exact meets member current object greeting
    · exact fun here => absurd here (by simp)
    · exact ⟨fun _ here => absurd here (by simp), fun here => absurd here (by simp)⟩
  · exact trivial

/-! ## The invariant -/

/-- An open connection has completed its handshake and not failed since; the flag is set
only on one that was greeted. -/
structure Standing (s : State) : Prop where
  fresh : Fresh s
  shaken : s.connected = true → s.userClosed = false → .handshake s.generation ∈ s.trace
  unfailed : s.connected = true → s.userClosed = false → .failed s.generation ∉ sinceHandshake s
  unclosed : s.connected = true → s.userClosed = false → .closed ∉ sinceHandshake s
  flag : s.connectedFlag = true →
    s.connected = true ∧ s.userClosed = false ∧ .greeted s.generation ∈ sinceHandshake s

theorem standing_start : Standing State.start := by
  refine ⟨fresh_start, ?_, ?_, ?_, ?_⟩ <;> simp [State.start]

theorem Standing.established {s : State} (h : Standing s) (flag : s.isConnected = true) :
    Established s := by
  obtain ⟨up, opened, greeted⟩ := h.flag flag
  exact ⟨h.shaken up opened, greeted, h.unfailed up opened, h.unclosed up opened⟩

variable {s s' : State}

/-- What is noted after the handshake comes last. -/
theorem sinceHandshake_note {e : Event} (shaken : .handshake s.generation ∈ s.trace)
    (generation : s'.generation = s.generation) (noted : s'.trace = e :: s.trace) :
    sinceHandshake s' = sinceHandshake s ++ [e] := by
  have marked : s.trace.reverse.any (· == .handshake s.generation) = true :=
    List.any_eq_true.mpr ⟨_, List.mem_reverse.mpr shaken, beq_self_eq_true _⟩
  unfold sinceHandshake
  rw [noted, generation, List.reverse_cons]
  exact Outbox.after_append_of_marked marked _

/-- The connection is down or closed, and the flag not set. -/
theorem standing_down (fresh : Fresh s) (off : s.connectedFlag = false)
    (down : s.connected = true → s.userClosed = true) : Standing s := by
  have never : ∀ {P : Prop}, s.connected = true → s.userClosed = false → P := by
    intro P up opened
    exact absurd ((down up).symm.trans opened) (by simp)
  exact ⟨fresh, never, never, never, fun on => absurd (on.symm.trans off) (by simp)⟩

/-- Something else is noted. -/
theorem Standing.note (h : Standing s) (fresh : Fresh s') {e : Event}
    (noted : s'.trace = e :: s.trace) (generation : s'.generation = s.generation)
    (connected : s'.connected = s.connected) (userClosed : s'.userClosed = s.userClosed)
    (flag : s'.connectedFlag = s.connectedFlag) (unfailed : e ≠ .failed s.generation)
    (unclosed : e ≠ .closed) : Standing s' := by
  have grown : s.connected = true → s.userClosed = false →
      sinceHandshake s' = sinceHandshake s ++ [e] :=
    fun up opened => sinceHandshake_note (h.shaken up opened) generation noted
  refine ⟨fresh, fun up opened => ?_, fun up opened => ?_, fun up opened => ?_, fun on => ?_⟩
  · rw [generation, noted]
    exact List.mem_cons_of_mem _ (h.shaken (connected ▸ up) (userClosed ▸ opened))
  · rw [connected] at up
    rw [userClosed] at opened
    rw [grown up opened, generation, List.mem_append, List.mem_singleton, not_or]
    exact ⟨h.unfailed up opened, unfailed.symm⟩
  · rw [connected] at up
    rw [userClosed] at opened
    rw [grown up opened, List.mem_append, List.mem_singleton, not_or]
    exact ⟨h.unclosed up opened, unclosed.symm⟩
  · obtain ⟨up, opened, greeted⟩ := h.flag (flag ▸ on)
    rw [connected, userClosed, generation, grown up opened]
    exact ⟨up, opened, List.mem_append_left _ greeted⟩

/-- The connection comes up: nothing was noted since its handshake. -/
theorem Standing.up (h : Standing s) (fresh : Fresh s')
    (noted : s'.trace = .handshake s.generation :: s.trace)
    (member : .wsHandshake s.generation ∈ s.ops) (generation : s'.generation = s.generation)
    (down : s.connected = false) (flag : s'.connectedFlag = s.connectedFlag) : Standing s' := by
  have unmarked : s.trace.reverse.any (· == .handshake s.generation) = false := by
    rw [List.any_eq_false]
    intro e among marked
    have nothing := h.fresh.chain _ member rfl rfl e (List.mem_reverse.mp among)
    rw [eq_of_beq marked] at nothing
    exact nothing rfl
  have nothing_since : sinceHandshake s' = [] := by
    unfold sinceHandshake
    rw [noted, generation, List.reverse_cons]
    exact Outbox.after_concat_of_unmarked unmarked _
  refine ⟨fresh, fun _ _ => ?_, fun _ _ => ?_, fun _ _ => ?_, fun on => ?_⟩
  · rw [noted, generation]
    exact List.mem_cons_self
  · simp [nothing_since]
  · simp [nothing_since]
  · have up := (h.flag (flag ▸ on)).1
    exact absurd (up.symm.trans down) (by simp)

/-- The greeting sets the flag, on an open connection. -/
theorem Standing.greet (h : Standing s) (fresh : Fresh s')
    (noted : s'.trace = .greeted s.generation :: s.trace)
    (generation : s'.generation = s.generation) (connected : s'.connected = s.connected)
    (userClosed : s'.userClosed = s.userClosed) (up : s.connected = true)
    (opened : s.userClosed = false) : Standing s' := by
  have grown := sinceHandshake_note (h.shaken up opened) generation noted
  refine ⟨fresh, fun _ _ => ?_, fun _ _ => ?_, fun _ _ => ?_, fun _ => ?_⟩
  · rw [generation, noted]
    exact List.mem_cons_of_mem _ (h.shaken up opened)
  · rw [grown, generation, List.mem_append, List.mem_singleton, not_or]
    exact ⟨h.unfailed up opened, by simp⟩
  · rw [grown, List.mem_append, List.mem_singleton, not_or]
    exact ⟨h.unclosed up opened, by simp⟩
  · rw [grown, connected, userClosed, generation]
    exact ⟨up, opened, by simp⟩

theorem Standing.move (h : Standing s) (move : Move punctual s s') : Standing s' := by
  have fresh := h.fresh.move move
  cases move with
  | keep => exact ⟨fresh, h.shaken, h.unfailed, h.unclosed, h.flag⟩
  | write | read | wait | advance | enqueue | answer | send =>
    exact h.note fresh rfl rfl rfl rfl rfl (by simp) (by simp)
  | lose => exact standing_down fresh rfl fun up => absurd up (by simp [State.launch, State.log])
  | fail closed =>
    apply standing_down fresh _ fun _ => closed
    by_contra on
    obtain ⟨_, opened, _⟩ := h.flag (Bool.not_eq_false _ ▸ on)
    exact absurd (closed.symm.trans opened) (by simp)
  | connect opened =>
    unfold State.startConnect at fresh ⊢
    rw [if_neg (by simp [opened])] at fresh ⊢
    exact standing_down fresh rfl fun up => absurd up (by simp [State.launch, State.log])
  | up opened member vacant => exact h.up fresh rfl member rfl vacant.connected rfl
  | shake closed vacant => exact h.note fresh rfl rfl rfl rfl rfl (by simp) (by simp)
  | greet allowed =>
    obtain ⟨up, opened⟩ := allowed.1 _ rfl
    exact h.greet fresh rfl rfl rfl rfl up opened
  | close allowed => exact standing_down fresh (allowed.2 rfl) fun _ => rfl

/-! ## Every run -/

/-- In every punctual run, a session that says it is connected is. -/
theorem isConnected_truthful {actions : List Action}
    (punctual_run : Meets step Punctual State.start actions)
    (reached : run step State.start actions = some s) (says_so : s.isConnected = true) :
    Established s :=
  (run_of_moves (fun _ _ kept => kept.move) (fun _ _ => permits_of_punctual) standing_start
    punctual_run reached).2.established says_so

theorem isConnected_truthful_sample :
    ∃ s, run step State.start connecting = some s ∧ s.isConnected = true ∧ Established s := by
  have punctual_run : Meets step Punctual State.start connecting := by
    decide +kernel
  obtain ⟨s, reached, says_so⟩ : ∃ s,
      run step State.start connecting = some s ∧ s.isConnected = true :=
    exists_run (by decide +kernel)
  exact ⟨s, reached, says_so, isConnected_truthful punctual_run reached says_so⟩

/-- The connection goes silent while its greeting waits to be dispatched. -/
def lateGreeting : List Action :=
  connecting.dropLast ++
    [.pingFired 1 true true, .readDone 1 (.message greeting) plainTokens]

/-- After a close, and when the greeting is dispatched late, the session says that it is
connected and is not. -/
theorem isConnected_lies :
    (∃ s, run step State.start (connecting ++ [.close, .execute plainTokens]) = some s ∧
      s.isConnected = true ∧ ¬Established s) ∧
    ∃ s, run step State.start lateGreeting = some s ∧ s.isConnected = true ∧ ¬Established s := by
  constructor
  · obtain ⟨s, reached, says_so, closed⟩ : ∃ s,
        run step State.start (connecting ++ [.close, .execute plainTokens]) = some s ∧
          (s.isConnected = true ∧ .closed ∈ sinceHandshake s) :=
      exists_run (by decide +kernel)
    exact ⟨s, reached, says_so, fun established => established.unclosed closed⟩
  · obtain ⟨s, reached, says_so, failed⟩ : ∃ s, run step State.start lateGreeting = some s ∧
          (s.isConnected = true ∧ .failed s.generation ∈ sinceHandshake s) :=
      exists_run (by decide +kernel)
    exact ⟨s, reached, says_so, fun established => established.unfailed failed⟩

end LighterApi.Guarantees.TruthfulFlag

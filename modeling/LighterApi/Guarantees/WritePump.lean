import LighterApi.Library.Outbox
import LighterApi.Guarantees.WireAgreement
import LighterApi.Guarantees.SessionMoves

/-!
# The write pump

The frames handed to the writer of a connection are, in order, the first of those
enqueued on it. For the subscribe frames the connection counts from its greeting, in
every run. For all frames it counts from its handshake, as long as no ping of the venue is
dispatched after the connection went down: the answer to it waits in the queue for the
next connection.
-/
namespace LighterApi.Guarantees.WritePump
open LighterApi.Source LighterApi.Source.WsSession LighterApi.Library
open LighterApi.Library.Transition SessionLink SessionMoves WireAgreement

/-- What was noted, oldest first. -/
def history (s : State) : List Event := s.trace.reverse

def handedFrame (gen : Nat) : Event → Option Frame
  | .started (.write gen' frame) => if gen' = gen then some frame else none
  | _ => none

def enqueuedFrame : Event → Option Frame
  | .enqueued frame => some frame
  | _ => none

/-- The frames handed to the writer of a connection. -/
def handed (gen : Nat) (events : List Event) : List Frame := events.filterMap (handedFrame gen)

/-- The frames enqueued after an event. -/
def enqueuedAfter (mark : Event) (events : List Event) : List Frame :=
  (Outbox.after (· == mark) events).filterMap enqueuedFrame

/-- The writes outstanding on the stream of a connection. -/
def writesOn (gen : Nat) (s : State) : Nat :=
  s.ops.countP fun
    | .write gen' _ => gen' == gen
    | _ => false

/-- A ping of the venue is dispatched only while the connection is up. -/
def Answered (s : State) : Action → Prop
  | .readDone gen (.message json) _ =>
    .read gen ∈ s.ops → gen = s.generation → json.isObject = true →
      textOf json "type" = "ping" → s.connected = true
  | _ => True

instance decidableAnswered (s : State) : (a : Action) → Decidable (Answered s a)
  | .readDone _ (.message _) _ => inferInstanceAs (Decidable (_ → _ → _ → _ → _ = _))
  | .readDone _ .error _ | .readDone _ .unparsable _ | .subscribe _ | .unsubscribe _ | .post _
  | .close | .execute _ | .streamFails | .resolved _ _ | .tcpConnected _ _ _ | .tlsDone _ _
  | .wsDone _ _ | .writeDone _ _ _ | .pingFired _ _ _ | .reconnectFired _ _ _ =>
    inferInstanceAs (Decidable True)

/-! ## The frames of a lane -/

/-- All frames, from the handshake on, or the subscribe frames, from the greeting on. -/
inductive Lane where
  | frames
  | subscribes
  deriving DecidableEq

namespace Lane

def mark : Lane → Nat → Event
  | frames, gen => .handshake gen
  | subscribes, gen => .greeted gen

def carries : Lane → Frame → Bool
  | frames, _ => true
  | subscribes, frame => isSubscribe frame

variable (lane : Lane)

def isOpen (s : State) : Bool := s.connected && (lane == frames || s.ready)

def opens (gen : Nat) (e : Event) : Bool := e == lane.mark gen

def put (e : Event) : Option Frame := (enqueuedFrame e).filter lane.carries

def take (gen : Nat) (e : Event) : Option Frame := (handedFrame gen e).filter lane.carries

/-- Only the lane of all frames asks for answers on the connection. -/
def rule : Rule := fun e connected _ _ => lane = frames → e = .enqueued .pong → connected = true

end Lane

variable {lane : Lane} {s s' : State}

theorem history_note {e : Event} (noted : s'.trace = e :: s.trace) :
    history s' = history s ++ [e] := by
  unfold history
  rw [noted, List.reverse_cons]

/-- The outbox of the current connection is open while the lane is, and else its queue is
empty; before the opening nothing is sent. -/
structure Pumped (lane : Lane) (s : State) : Prop where
  fresh : Fresh s
  inOrder : ∀ gen, Outbox.InOrder (lane.opens gen) lane.put (lane.take gen) (history s)
  opened : lane.isOpen s = true → Outbox.Open (lane.opens s.generation) lane.put
    (lane.take s.generation) (history s) (s.outboundQueue.filter lane.carries)
  shut : lane.isOpen s = false → s.outboundQueue.filter lane.carries = []
  unopened : s.connected = true → lane.isOpen s = false →
    (history s).any (lane.opens s.generation) = false ∧
      Outbox.sent (lane.take s.generation) (history s) = []

theorem pumped_start : Pumped lane State.start := by
  refine ⟨fresh_start, fun gen => Outbox.inOrder_nil, fun up => ?_, fun _ => rfl, fun up => ?_⟩
  · exact absurd up (by simp [Lane.isOpen, State.start])
  · exact absurd up (by simp [State.start])

theorem isOpen_connected (is_open : lane.isOpen s = true) : s.connected = true :=
  (Bool.and_eq_true_iff.mp is_open).1

/-- What else is noted on the current connection. -/
theorem Pumped.aside (h : Pumped lane s) (fresh : Fresh s') {e : Event}
    (noted : s'.trace = e :: s.trace) (untaken : ∀ gen, lane.take gen e = none)
    (unput : lane.put e = none)
    (unmarked : s.connected = true → lane.opens s.generation e = false)
    (generation : s'.generation = s.generation) (connected : s'.connected = s.connected)
    (is_open : lane.isOpen s' = lane.isOpen s)
    (queue : s'.outboundQueue.filter lane.carries = s.outboundQueue.filter lane.carries) :
    Pumped lane s' := by
  have more := history_note noted
  refine ⟨fresh, fun gen => ?_, fun opened => ?_, fun shut => ?_, fun up shut => ?_⟩
  · rw [more]
    exact (h.inOrder gen).other (untaken gen)
  · rw [more, queue, generation]
    exact (h.opened (is_open ▸ opened)).other (untaken _) unput
  · rw [queue]
    exact h.shut (is_open ▸ shut)
  · rw [connected] at up
    obtain ⟨none_before, nothing⟩ := h.unopened up (is_open ▸ shut)
    rw [more, generation, List.any_append, Outbox.sent_concat, none_before, nothing, untaken]
    exact ⟨by simp [unmarked up], rfl⟩

/-- What happens on no stream, or on another one, neither opens the lane nor sends. -/
theorem off_stream (lane : Lane) {gen : Nat} {e : Event} (off : stream e ≠ some gen) :
    lane.opens gen e = false ∧ lane.take gen e = none := by
  constructor
  · apply beq_eq_false_iff_ne.mpr
    intro here
    cases lane with
    | frames | subscribes =>
      rw [here] at off
      exact off rfl
  · have unhanded : handedFrame gen e = none := by
      unfold handedFrame
      split
      · exact if_neg fun same => off (congrArg some same)
      · rfl
    unfold Lane.take
    rw [unhanded]
    rfl

theorem Pumped.note (h : Pumped lane s) (fresh : Fresh s') {e : Event}
    (noted : s'.trace = e :: s.trace) (off : stream e = none) (unput : lane.put e = none)
    (generation : s'.generation = s.generation) (connected : s'.connected = s.connected)
    (is_open : lane.isOpen s' = lane.isOpen s) (queue : s'.outboundQueue = s.outboundQueue) :
    Pumped lane s' := by
  have other : ∀ gen, stream e ≠ some gen := by
    simp [off]
  refine h.aside fresh noted (fun gen => (off_stream lane (other gen)).2) unput
    (fun _ => (off_stream lane (other _)).1) generation connected is_open ?_
  rw [queue]

/-! ## Frames -/

/-- A frame the lane carries is queued only while it is open. -/
theorem Pumped.enqueue (h : Pumped lane s) {frame : Frame}
    (fits : lane.carries frame = true → lane.isOpen s = true) :
    Pumped lane (s.enqueueOp frame) := by
  have noted : (s.enqueueOp frame).trace = .enqueued frame :: s.trace := rfl
  have unmarked : ∀ gen, lane.opens gen (.enqueued frame) = false := by
    intro gen
    cases lane with
    | frames | subscribes => rfl
  cases carried : lane.carries frame with
  | false =>
    have unput : lane.put (.enqueued frame) = none := by
      simp [Lane.put, enqueuedFrame, carried]
    have queue : (s.outboundQueue ++ [frame]).filter lane.carries =
        s.outboundQueue.filter lane.carries := by
      simp [carried]
    exact h.aside (h.fresh.enqueue frame) noted (fun _ => rfl) unput (fun _ => unmarked _) rfl rfl rfl
      queue
  | true =>
    have is_open := fits carried
    have put : lane.put (.enqueued frame) = some frame := by
      simp [Lane.put, enqueuedFrame, carried]
    have queue : (s.outboundQueue ++ [frame]).filter lane.carries =
        s.outboundQueue.filter lane.carries ++ [frame] := by
      simp [carried]
    refine ⟨h.fresh.enqueue frame, fun gen => ?_, fun _ => ?_, fun shut => ?_, fun _ shut => ?_⟩
    · rw [history_note noted]
      exact (h.inOrder gen).other rfl
    · rw [history_note noted]
      exact queue ▸ (h.opened is_open).enters put rfl
    · exact absurd (is_open.symm.trans shut) (by simp)
    · exact absurd (is_open.symm.trans shut) (by simp)

theorem take_other {gen gen' : Nat} (other : gen' ≠ gen) (frame : Frame) :
    lane.take gen (.started (.write gen' frame)) = none := by
  simp [Lane.take, handedFrame, other]

/-- The first frame of the queue is handed to the writer. -/
theorem Pumped.send (h : Pumped lane s) {frame : Frame} {rest : List Frame}
    (queue : s.outboundQueue = frame :: rest) (fresh : Fresh s')
    (noted : s'.trace = .started (.write s.generation frame) :: s.trace)
    (generation : s'.generation = s.generation) (connected : s'.connected = s.connected)
    (is_open : lane.isOpen s' = lane.isOpen s) (left : s'.outboundQueue = rest) :
    Pumped lane s' := by
  cases carried : lane.carries frame with
  | false =>
    have unmarked : lane.opens s.generation (.started (.write s.generation frame)) = false := by
      cases lane with
      | frames | subscribes => rfl
    have untaken : ∀ gen, lane.take gen (.started (.write s.generation frame)) = none := by
      intro gen
      by_cases current : s.generation = gen
      · simp [Lane.take, handedFrame, current, carried]
      · exact take_other current frame
    have same : s'.outboundQueue.filter lane.carries = s.outboundQueue.filter lane.carries := by
      rw [left, queue, List.filter_cons_of_neg (by simp [carried])]
    exact h.aside fresh noted untaken rfl (fun _ => unmarked) generation connected is_open same
  | true =>
    have front : s.outboundQueue.filter lane.carries = frame :: rest.filter lane.carries := by
      rw [queue, List.filter_cons_of_pos carried]
    have was_open : lane.isOpen s = true := by
      by_contra shut
      have nothing := h.shut (Bool.not_eq_true _ ▸ shut)
      rw [front] at nothing
      exact absurd nothing (by simp)
    have gone : lane.take s.generation (.started (.write s.generation frame)) = some frame := by
      simp [Lane.take, handedFrame, carried]
    have before := h.opened was_open
    rw [front] at before
    have now := before.leaves gone rfl
    rw [← history_note noted] at now
    refine ⟨fresh, fun gen => ?_, fun _ => ?_, fun shut => ?_, fun _ shut => ?_⟩
    · by_cases current : s.generation = gen
      · subst current
        have first := now.first_part
        rw [history_note noted] at first ⊢
        exact (h.inOrder _).concat first
      · rw [history_note noted]
        exact (h.inOrder gen).other (take_other current frame)
    · rw [left, generation]
      exact now
    · exact absurd ((is_open.trans was_open).symm.trans shut) (by simp)
    · exact absurd ((is_open.trans was_open).symm.trans shut) (by simp)

/-! ## The connection -/

/-- The connection is down, and nothing the lane carries is queued. -/
theorem Pumped.down (h : Pumped lane s) (fresh : Fresh s') (events : List Event)
    (noted : s'.trace = events ++ s.trace) (untaken : ∀ e ∈ events, ∀ gen, lane.take gen e = none)
    (down : s'.connected = false) (queue : s'.outboundQueue.filter lane.carries = []) :
    Pumped lane s' := by
  have ordered : ∀ gen, Outbox.InOrder (lane.opens gen) lane.put (lane.take gen) (history s') := by
    intro gen
    unfold history
    rw [noted]
    clear noted
    induction events with
    | nil => exact h.inOrder gen
    | cons e rest ih =>
      rw [List.cons_append, List.reverse_cons]
      apply Outbox.InOrder.other _ (untaken e List.mem_cons_self gen)
      exact ih fun e' member => untaken e' (List.mem_cons_of_mem _ member)
  refine ⟨fresh, ordered, fun is_open => ?_, fun _ => queue, fun up => ?_⟩
  · exact absurd ((isOpen_connected is_open).symm.trans down) (by simp)
  · exact absurd (up.symm.trans down) (by simp)

theorem shut_of_down (down : s.connected = false) : lane.isOpen s = false := by
  by_contra is_open
  have up := isOpen_connected (Bool.not_eq_false _ ▸ is_open)
  exact absurd (up.symm.trans down) (by simp)

/-- On the stream of a connection that comes up nothing has happened. -/
theorem unmarked_of_chain (lane : Lane) (fresh : Fresh s) {op : Op} (member : op ∈ s.ops)
    (is_chain : op.isChain = true) (current : op.gen = s.generation) :
    (history s).any (lane.opens s.generation) = false ∧
      Outbox.sent (lane.take s.generation) (history s) = [] := by
  have nothing := fresh.chain op member is_chain current
  constructor
  · rw [List.any_eq_false]
    intro e among marked
    have off := (off_stream lane (nothing e (List.mem_reverse.mp among))).1
    exact absurd (marked.symm.trans off) (by simp)
  · unfold Outbox.sent
    rw [List.filterMap_eq_nil_iff]
    intro e among
    exact (off_stream lane (nothing e (List.mem_reverse.mp among))).2

/-- The connection comes up: the lane of all frames opens. -/
theorem Pumped.up (h : Pumped lane s) (fresh : Fresh s')
    (noted : s'.trace = .handshake s.generation :: s.trace)
    (member : .wsHandshake s.generation ∈ s.ops) (down : s.connected = false)
    (up : s'.connected = true) (unready : s'.ready = false)
    (generation : s'.generation = s.generation) (queue : s'.outboundQueue = s.outboundQueue) :
    Pumped lane s' := by
  obtain ⟨unmarked, unsent⟩ := unmarked_of_chain lane h.fresh member rfl rfl
  have nothing := h.shut (shut_of_down down)
  refine ⟨fresh, fun gen => ?_, fun is_open => ?_, fun _ => ?_, fun _ shut => ?_⟩
  · rw [history_note noted]
    exact (h.inOrder gen).other rfl
  · have here : lane = .frames := by
      by_contra other
      simp [Lane.isOpen, unready, other] at is_open
    subst here
    rw [history_note noted, generation, queue, nothing]
    exact Outbox.open_mark (beq_self_eq_true _) unmarked unsent rfl
  · rw [queue]
    exact nothing
  · have here : lane = .subscribes := by
      cases lane with
      | frames => exact absurd shut (by simp [Lane.isOpen, up])
      | subscribes => rfl
    subst here
    rw [history_note noted, generation, List.any_append, Outbox.sent_concat, unmarked, unsent]
    exact ⟨rfl, rfl⟩

/-- The greeting opens the lane of the subscribe frames, when it is the first. -/
theorem Pumped.greet (h : Pumped lane s) (fresh : Fresh s')
    (noted : s'.trace = .greeted s.generation :: s.trace) (ready : s'.ready = true)
    (connected : s'.connected = s.connected) (generation : s'.generation = s.generation)
    (queue : s'.outboundQueue = s.outboundQueue) : Pumped lane s' := by
  have now_open : lane.isOpen s' = s.connected := by
    simp [Lane.isOpen, ready, connected]
  refine ⟨fresh, fun gen => ?_, fun is_open => ?_, fun shut => ?_, fun up shut => ?_⟩
  · rw [history_note noted]
    exact (h.inOrder gen).other rfl
  · have up : s.connected = true := now_open.symm.trans is_open
    rw [history_note noted, generation, queue]
    cases was_open : lane.isOpen s with
    | true => exact (h.opened was_open).other rfl rfl
    | false =>
      obtain ⟨unmarked, unsent⟩ := h.unopened up was_open
      rw [h.shut was_open]
      apply Outbox.open_mark _ unmarked unsent rfl
      cases lane with
      | frames => exact absurd was_open (by simp [Lane.isOpen, up])
      | subscribes => exact beq_self_eq_true _
  · rw [queue]
    exact h.shut (shut_of_down (now_open.symm.trans shut))
  · exact absurd ((connected.symm.trans up).symm.trans (now_open.symm.trans shut)) (by simp)

/-! ## Every move -/

theorem Pumped.move (h : Pumped lane s) (move : Move lane.rule s s') : Pumped lane s' := by
  have fresh := h.fresh.move move
  cases move with
  | keep => exact ⟨fresh, h.inOrder, h.opened, h.shut, h.unopened⟩
  | write | read | wait | fail | close => exact h.note fresh rfl rfl rfl rfl rfl rfl rfl
  | advance member current follows =>
    exact h.note fresh rfl (successor_chain follows).2.2.2 rfl rfl rfl rfl rfl
  | enqueue up greeted =>
    apply h.enqueue
    intro carried
    cases lane with
    | frames => exact Bool.and_eq_true_iff.mpr ⟨up, rfl⟩
    | subscribes => exact Bool.and_eq_true_iff.mpr ⟨up, greeted carried⟩
  | answer allowed =>
    apply h.enqueue
    intro carried
    cases lane with
    | frames => exact Bool.and_eq_true_iff.mpr ⟨allowed rfl rfl, rfl⟩
    | subscribes => exact absurd carried (by simp [Lane.carries, isSubscribe])
  | send settled up idle queue => exact h.send queue fresh rfl rfl rfl rfl rfl
  | lose =>
    refine h.down fresh [.started (.reconnectWait _ _), .failed _] rfl (fun e member gen => ?_) rfl rfl
    rcases List.mem_pair.mp member with rfl | rfl
    · rfl
    · rfl
  | connect opened down =>
    have nothing := h.shut (shut_of_down down)
    unfold State.startConnect at fresh ⊢
    rw [if_neg (by simp [opened])] at fresh ⊢
    refine h.down fresh [.started (.resolve _)] rfl (fun e member gen => ?_) rfl nothing
    rw [List.mem_singleton.mp member]
    rfl
  | up opened member vacant =>
    exact h.up fresh rfl member vacant.connected rfl vacant.ready rfl rfl
  | shake closed vacant =>
    have down : s.connected = false := vacant.connected
    refine h.down fresh [.handshake _] rfl (fun e member gen => ?_) down (h.shut (shut_of_down down))
    rw [List.mem_singleton.mp member]
    rfl
  | greet => exact h.greet fresh rfl rfl rfl rfl rfl

/-! ## One write at a time -/

/-- On no stream more than one write is outstanding. -/
def OneWrite (s : State) : Prop := ∀ gen, writesOn gen s ≤ 1

theorem writesOn_eq_zero (idle : inflight s = []) : writesOn s.generation s = 0 := by
  unfold writesOn
  rw [List.countP_eq_zero]
  intro op member counted
  unfold inflight at idle
  rw [List.filterMap_eq_nil_iff] at idle
  have nothing := idle op member
  cases op with
  | write gen frame =>
    have current : gen = s.generation := eq_of_beq counted
    simp [current] at nothing
  | _ => exact absurd counted (by simp)

theorem OneWrite.launch (h : OneWrite s) {op : Op} (no_write : ∀ gen frame, op ≠ .write gen frame) :
    OneWrite (s.launch op) := by
  intro gen
  have same : writesOn gen (s.launch op) = writesOn gen s := by
    apply List.countP_cons_of_neg
    cases op with
    | write gen' frame => exact absurd rfl (no_write gen' frame)
    | _ => simp
  rw [same]
  exact h gen

theorem OneWrite.fewer (h : OneWrite s) (fewer : s'.ops.Sublist s.ops) : OneWrite s' :=
  fun gen => (fewer.countP_le).trans (h gen)

theorem OneWrite.move {ok : Rule} (h : OneWrite s) (move : Move ok s s') : OneWrite s' := by
  cases move with
  | keep fewer => exact h.fewer fewer
  | write | enqueue | answer | fail | greet | close => exact h
  | read | wait => exact h.launch (by simp)
  | @advance op next member current follows =>
    have dropped : OneWrite { s with ops := s.ops.erase op } := h.fewer List.erase_sublist
    apply dropped.launch
    cases op with
    | resolve gen | connect gen | tlsHandshake gen =>
      obtain rfl := Option.some.inj follows
      simp
    | _ => exact absurd follows (by simp [successor])
  | @send frame rest settled up idle queue =>
    intro gen
    by_cases current : s.generation = gen
    · subst current
      have none_before := writesOn_eq_zero idle
      have one : writesOn s.generation ({ s with
          outboundQueue := rest, writeInFlight := true }.launch (.write s.generation frame)) =
          writesOn s.generation s + 1 := List.countP_cons_of_pos (beq_self_eq_true _)
      omega
    · have same : writesOn gen ({ s with
          outboundQueue := rest, writeInFlight := true }.launch (.write s.generation frame)) =
          writesOn gen s := List.countP_cons_of_neg (by simp [current])
      rw [same]
      exact h gen
  | lose => exact OneWrite.launch (s := s) h (by simp)
  | connect =>
    unfold State.startConnect
    split
    · exact h
    · exact OneWrite.launch (s := s) h (by simp)
  | up | shake => exact h.fewer List.erase_sublist

/-! ## Every run -/

theorem handed_filter (gen : Nat) (events : List Event) :
    Outbox.sent (lane.take gen) events = (handed gen events).filter lane.carries := by
  unfold Outbox.sent handed
  rw [List.filter_filterMap]
  rfl

theorem enqueued_filter (gen : Nat) (events : List Event) :
    Outbox.putSince (lane.opens gen) lane.put events =
      (enqueuedAfter (lane.mark gen) events).filter lane.carries := by
  unfold Outbox.putSince enqueuedAfter
  rw [List.filter_filterMap]
  rfl

theorem permits_of_answered {a : Action} (answered : Answered s a) :
    Permits Lane.frames.rule s a := by
  unfold Permits
  split
  · exact fun _ _ _ there => absurd there (by simp)
  · exact fun member current object =>
      ⟨fun _ _ there => absurd there (by simp), fun ping _ _ => answered member current object ping⟩
  · exact trivial

theorem permits_subscribes (s : State) (a : Action) : Permits Lane.subscribes.rule s a := by
  unfold Permits
  split
  · exact fun _ _ here => absurd here (by simp)
  · exact fun _ _ _ => ⟨fun _ here => absurd here (by simp), fun _ here => absurd here (by simp)⟩
  · exact trivial

/-- At every moment, what was handed of the lane is the first part of what was enqueued of
it since it opened. -/
theorem Pumped.handed (h : Pumped lane s) {earlier : List Event} (moment : earlier <+: history s)
    (gen : Nat) : (handed gen earlier).filter lane.carries <+:
      (enqueuedAfter (lane.mark gen) earlier).filter lane.carries := by
  have first := h.inOrder gen earlier moment
  rw [handed_filter, enqueued_filter] at first
  exact first

/-- In every run that answers pings on the connection only, nothing crosses a reconnect:
one write at a time, and at every moment what was handed to the writer of a connection is
the first part of what was enqueued after its handshake. -/
theorem nothing_crosses {actions : List Action} {earlier : List Event}
    (answered : Meets step Answered State.start actions)
    (reached : run step State.start actions = some s) (moment : earlier <+: history s)
    (gen : Nat) :
    writesOn gen s ≤ 1 ∧ handed gen earlier <+: enqueuedAfter (.handshake gen) earlier := by
  have start : Pumped .frames State.start ∧ OneWrite State.start :=
    ⟨pumped_start, fun _ => Nat.zero_le 1⟩
  have keeps : ∀ s s', Pumped .frames s ∧ OneWrite s → Move Lane.frames.rule s s' →
      Pumped .frames s' ∧ OneWrite s' :=
    fun _ _ kept move => ⟨kept.1.move move, kept.2.move move⟩
  obtain ⟨_, pumped, one⟩ :=
    run_of_moves keeps (fun _ _ => permits_of_answered) start answered reached
  have first := pumped.handed moment gen
  have all : ∀ frames : List Frame, frames.filter Lane.frames.carries = frames :=
    fun frames => List.filter_eq_self.mpr fun _ _ => rfl
  rw [all, all] at first
  exact ⟨one gen, first⟩

/-- The connection goes silent while a ping of the venue waits to be dispatched. -/
def silencing : List Action :=
  [.pingFired 1 true true, .readDone 1 (.message (.obj [("type", .str "ping")])) plainTokens]

/-- The session connects again, and is greeted. -/
def returning : List Action :=
  [.reconnectFired 1 1 true, .resolved 2 true, .tcpConnected 2 true true, .tlsDone 2 true,
    .wsDone 2 true, .readDone 2 (.message greeting) plainTokens]

/-- A ping of the venue is answered on the connection. -/
theorem nothing_crosses_sample : ∃ s,
    run step State.start
      (connecting ++ [.readDone 1 (.message (.obj [("type", .str "ping")])) plainTokens]) = some s ∧
    handed 1 (history s) = [.pong] ∧
    writesOn 1 s ≤ 1 ∧ handed 1 (history s) <+: enqueuedAfter (.handshake 1) (history s) := by
  have answered : Meets step Answered State.start
      (connecting ++ [.readDone 1 (.message (.obj [("type", .str "ping")])) plainTokens]) := by
    decide +kernel
  obtain ⟨s, reached, pong⟩ : ∃ s,
      run step State.start
        (connecting ++ [.readDone 1 (.message (.obj [("type", .str "ping")])) plainTokens]) = some s ∧
      handed 1 (history s) = [.pong] :=
    exists_run (by decide +kernel)
  exact ⟨s, reached, pong, nothing_crosses answered reached List.prefix_rfl 1⟩

/-- The answer to a ping that was dispatched on a lost connection is written on the next. -/
theorem late_pong_crosses : ¬∀ (actions : List Action) (s : State),
    run step State.start actions = some s → ∀ gen,
      writesOn gen s ≤ 1 ∧
        handed gen (history s) <+: enqueuedAfter (.handshake gen) (history s) := by
  intro always
  obtain ⟨s, reached, written, enqueued⟩ : ∃ s,
      run step State.start (connecting ++ silencing ++ returning) = some s ∧
        (handed 2 (history s) = [.pong] ∧ enqueuedAfter (.handshake 2) (history s) = []) :=
    exists_run (by decide +kernel)
  have first := (always _ s reached 2).2
  rw [written, enqueued] at first
  exact absurd first (by simp)

/-- In every run, at every moment, a subscribe frame was handed to the writer of a
connection only after its greeting, and those handed are the first part of those enqueued
after it. -/
theorem subscribes_follow_greeting {actions : List Action} {earlier : List Event}
    (reached : run step State.start actions = some s) (moment : earlier <+: history s)
    (gen : Nat) :
    (∀ frame ∈ handed gen earlier, isSubscribe frame = true → .greeted gen ∈ earlier) ∧
      (handed gen earlier).filter isSubscribe <+:
        (enqueuedAfter (.greeted gen) earlier).filter isSubscribe := by
  have meets : Meets step (fun _ _ => True) State.start actions :=
    meets_of_forall (fun _ _ _ => trivial) State.start
  obtain ⟨_, pumped⟩ := run_of_moves (I := Pumped .subscribes) (fun _ _ kept => kept.move)
    (fun s a _ => permits_subscribes s a) pumped_start meets reached
  have first := pumped.handed moment gen
  refine ⟨fun frame member subscribes => ?_, first⟩
  have among : frame ∈ (enqueuedAfter (.greeted gen) earlier).filter isSubscribe :=
    first.subset (List.mem_filter.mpr ⟨member, subscribes⟩)
  by_contra ungreeted
  have unmarked : earlier.any (· == .greeted gen) = false := by
    rw [List.any_eq_false]
    intro e listed marked
    exact ungreeted (eq_of_beq marked ▸ listed)
  have nothing : enqueuedAfter (.greeted gen) earlier = [] := by
    unfold enqueuedAfter
    rw [Outbox.after_eq_nil unmarked]
    rfl
  rw [nothing] at among
  exact absurd among (by simp)

theorem subscribes_follow_greeting_sample : ∃ s,
    run step State.start (connecting ++ subscribing "order_book/0") = some s ∧
    handed 1 (history s) = [.subscribe "order_book/0" none] ∧
    ((∀ frame ∈ handed 1 (history s), isSubscribe frame = true → .greeted 1 ∈ history s) ∧
      (handed 1 (history s)).filter isSubscribe <+:
        (enqueuedAfter (.greeted 1) (history s)).filter isSubscribe) := by
  obtain ⟨s, reached, subscribed⟩ : ∃ s,
      run step State.start (connecting ++ subscribing "order_book/0") = some s ∧
        handed 1 (history s) = [.subscribe "order_book/0" none] :=
    exists_run (by decide +kernel)
  exact ⟨s, reached, subscribed, subscribes_follow_greeting reached List.prefix_rfl 1⟩

end LighterApi.Guarantees.WritePump

import LighterApi.Library.Transition
import LighterApi.Source.WsSession

/-!
# One connection at a time

The bookkeeping of connections, in every run: operations of the current generation are
either one step of the connect chain, before the connection is up, or belong to the
connection; while it is down nothing is subscribed and no topic frame is queued; at most
one write is in flight.
-/
namespace LighterApi.Guarantees.SessionLink
open LighterApi.Source LighterApi.Source.WsSession

/-- The write of the current generation that is in flight. -/
def inflight (s : State) : List Frame :=
  s.ops.filterMap fun
    | .write gen frame => if gen = s.generation then some frame else none
    | _ => none

/-- The operations started so far, latest first. -/
def launched (s : State) : List Op :=
  s.trace.filterMap fun
    | .started op => some op
    | _ => none

/-- The channel a frame is about, and whether it subscribes. -/
def topic : Frame → Option (String × Bool)
  | .subscribe channel _ => some (channel, true)
  | .unsubscribe channel => some (channel, false)
  | _ => none

/-- No operation of the current generation is outstanding, and nothing was done on it. -/
structure Vacant (s : State) : Prop where
  ops : ∀ op ∈ s.ops, op.gen ≠ s.generation
  written : ∀ w ∈ s.written, w.1 ≠ s.generation
  connected : s.connected = false
  ready : s.ready = false
  scheduled : s.reconnectScheduled = false

structure Link (s : State) : Prop where
  gens : ∀ op ∈ s.ops, op.gen ≤ s.generation
  writtenGens : ∀ w ∈ s.written, w.1 ≤ s.generation
  starting : .startConnect ∈ s.posted →
    (∃ rest, s.posted = .startConnect :: rest ∧ .startConnect ∉ rest) ∧
      s.ops = [] ∧ s.connected = false ∧ s.reconnectScheduled = false
  callers : .startConnect ∉ s.calls
  chain : ∀ op ∈ s.ops, op.isChain = true → op.gen = s.generation →
    Vacant { s with ops := s.ops.erase op }
  down : s.connected = false →
    s.subscriptions = [] ∧ ∀ frame ∈ s.outboundQueue, topic frame = none
  waits : ∀ seconds, .reconnectWait s.generation seconds ∈ s.ops → s.connected = false
  scheduled : s.reconnectScheduled = true → s.connected = false
  writes : s.connected = true → (inflight s).length ≤ 1 ∧ (s.writeInFlight = false → inflight s = [])

theorem link_start : Link State.start := by
  constructor <;> simp [State.start, State.written]

variable {s : State}

theorem inflight_eq_nil (vacant : ∀ op ∈ s.ops, op.gen ≠ s.generation) : inflight s = [] := by
  unfold inflight
  rw [List.filterMap_eq_nil_iff]
  intro op member
  cases op with
  | write gen frame => exact if_neg (vacant _ member)
  | _ => rfl

theorem inflight_erase (op : Op) :
    (inflight { s with ops := s.ops.erase op }).Sublist (inflight s) :=
  List.erase_sublist.filterMap _

/-- What is noted besides writes leaves the frames written. -/
theorem written_log {event : Event} (other : ∀ gen frame, event ≠ .written gen frame) :
    (s.log event).written = s.written := by
  cases event with
  | written gen frame => exact absurd rfl (other gen frame)
  | _ => rfl

/-- The write that completes was in flight. -/
theorem inflight_perm {gen : Nat} {frame : Frame} (member : Op.write gen frame ∈ s.ops)
    (current : gen = s.generation) :
    (inflight s).Perm (frame :: inflight { s with ops := s.ops.erase (.write gen frame) }) := by
  have permuted := (List.perm_cons_erase member).filterMap fun
    | .write gen frame => if gen = s.generation then some frame else none
    | _ => none
  rw [List.filterMap_cons] at permuted
  dsimp only at permuted
  rw [if_pos current] at permuted
  exact permuted

/-! ## What the helpers keep -/

/-- An operation completes. -/
theorem Link.drop (h : Link s) (op : Op) : Link { s with ops := s.ops.erase op } where
  gens other member := h.gens other (List.mem_of_mem_erase member)
  writtenGens := h.writtenGens
  starting posted := by
    obtain ⟨first, ops, down⟩ := h.starting posted
    exact ⟨first, by simp [ops], down⟩
  callers := h.callers
  chain other member is_chain current := by
    have vacant := h.chain other (List.mem_of_mem_erase member) is_chain current
    refine ⟨?_, vacant.written, vacant.connected, vacant.ready, vacant.scheduled⟩
    intro third among
    change third ∈ (s.ops.erase op).erase other at among
    rw [List.erase_comm] at among
    exact vacant.ops third (List.mem_of_mem_erase among)
  down := h.down
  waits seconds member := h.waits seconds (List.mem_of_mem_erase member)
  scheduled := h.scheduled
  writes up := by
    obtain ⟨length, idle⟩ := h.writes up
    refine ⟨(inflight_erase op).length_le.trans length, fun still => ?_⟩
    have nothing := inflight_erase (s := s) op
    rw [idle still] at nothing
    exact List.sublist_nil.mp nothing

theorem Link.note (h : Link s) {event : Event} (other : ∀ gen frame, event ≠ .written gen frame) :
    Link (s.log event) := by
  have same := written_log (s := s) other
  refine ⟨h.gens, ?_, h.starting, h.callers, ?_, h.down, h.waits, h.scheduled, h.writes⟩
  · rw [same]
    exact h.writtenGens
  · intro op member is_chain current
    have vacant := h.chain op member is_chain current
    refine ⟨vacant.ops, ?_, vacant.connected, vacant.ready, vacant.scheduled⟩
    intro w among
    exact vacant.written w (same ▸ among)

/-- The connect chain is not running: its operation has completed, or the connection is up. -/
structure Settled (s : State) : Prop where
  started : .startConnect ∉ s.posted
  chain : ∀ op ∈ s.ops, op.isChain = true → op.gen ≠ s.generation

theorem Link.settled_of_up (h : Link s) (up : s.connected = true) : Settled s where
  started posted := by
    rw [(h.starting posted).2.2.1] at up
    exact absurd up (by simp)
  chain op member is_chain current := by
    have down := (h.chain op member is_chain current).connected
    exact absurd (up.symm.trans down) (by simp)

/-- An operation of the connection completes. -/
theorem Link.settled_of_member (h : Link s) {op : Op} (member : op ∈ s.ops)
    (outside : op.isChain = false) (current : op.gen = s.generation) :
    Settled { s with ops := s.ops.erase op } where
  started posted := by
    rw [(h.starting posted).2.1] at member
    exact absurd member List.not_mem_nil
  chain other among is_chain same := by
    have differs : op ≠ other := by
      intro here
      rw [here, is_chain] at outside
      exact absurd outside (by simp)
    have vacant := h.chain other (List.mem_of_mem_erase among) is_chain same
    exact vacant.ops op ((List.mem_erase_of_ne differs).mpr member) current

/-- A step of the connect chain completes. -/
theorem Link.vacant_of_member (h : Link s) {op : Op} (member : op ∈ s.ops)
    (is_chain : op.isChain = true) (current : op.gen = s.generation) :
    Vacant { s with ops := s.ops.erase op } ∧ Settled { s with ops := s.ops.erase op } := by
  have vacant := h.chain op member is_chain current
  refine ⟨vacant, ?_, fun other among _ => vacant.ops other among⟩
  intro posted
  rw [(h.starting posted).2.1] at member
  exact absurd member List.not_mem_nil

theorem Link.enqueue (h : Link s) {frame : Frame} (fits : topic frame = none ∨ s.connected = true) :
    Link (s.enqueueOp frame) where
  gens := h.gens
  writtenGens := h.writtenGens
  starting := h.starting
  callers := h.callers
  chain op member is_chain current := by
    have vacant := h.chain op member is_chain current
    exact ⟨vacant.ops, vacant.written, vacant.connected, vacant.ready, vacant.scheduled⟩
  down is_down := by
    have down : s.connected = false := is_down
    refine ⟨(h.down down).1, ?_⟩
    intro other member
    rcases List.mem_append.mp member with old | new
    · exact (h.down down).2 other old
    · rw [List.mem_singleton.mp new]
      rcases fits with plain | up
      · exact plain
      · exact absurd (up.symm.trans down) (by simp)
  waits := h.waits
  scheduled := h.scheduled
  writes := h.writes

theorem inflight_launch (s : State) {op : Op} (no_write : ∀ gen frame, op ≠ .write gen frame) :
    inflight (s.launch op) = inflight s := by
  unfold inflight State.launch
  rw [List.filterMap_cons]
  cases op with
  | write gen frame => exact absurd rfl (no_write gen frame)
  | _ => rfl

/-- An operation of the connection, neither a write nor a reconnect wait, starts. -/
theorem Link.launch (h : Link s) (settled : Settled s) {op : Op} (current : op.gen = s.generation)
    (outside : op.isChain = false) (no_write : ∀ gen frame, op ≠ .write gen frame)
    (no_wait : ∀ gen seconds, op ≠ .reconnectWait gen seconds) : Link (s.launch op) where
  gens other member := by
    rcases List.mem_cons.mp member with rfl | old
    · exact current.le
    · exact h.gens other old
  writtenGens := h.writtenGens
  starting posted := absurd posted settled.started
  callers := h.callers
  chain other member is_chain same := by
    rcases List.mem_cons.mp member with rfl | old
    · exact absurd is_chain (by simp [outside])
    · exact absurd same (settled.chain other old is_chain)
  down := h.down
  waits seconds member := by
    rcases List.mem_cons.mp member with here | old
    · exact absurd here.symm (no_wait _ _)
    · exact h.waits seconds old
  scheduled := h.scheduled
  writes up := by
    rw [inflight_launch s no_write]
    exact h.writes up

/-- `pump` starts the write of the first queued frame, or does nothing. -/
theorem pump_cases (s : State) : s.pump = s ∨ ∃ frame rest,
    s.writeInFlight = false ∧ s.connected = true ∧ s.outboundQueue = frame :: rest ∧
      s.pump = { s with
        outboundQueue := rest, writeInFlight := true, ops := .write s.generation frame :: s.ops,
        trace := .started (.write s.generation frame) :: s.trace } := by
  by_cases blocked : (s.writeInFlight || !s.connected || !s.wsOpen) = true
  · exact Or.inl (if_pos blocked)
  · have free := blocked
    simp only [Bool.or_eq_true, not_or, Bool.not_eq_true, Bool.not_eq_false'] at free
    cases queue : s.outboundQueue with
    | nil =>
      refine Or.inl ?_
      rw [State.pump, if_neg blocked, queue]
    | cons frame rest =>
      refine Or.inr ⟨frame, rest, free.1.1, free.1.2, rfl, ?_⟩
      rw [State.pump, if_neg blocked, queue]
      rfl

theorem Link.pump (h : Link s) : Link s.pump := by
  rcases pump_cases s with same | ⟨frame, rest, still, up, queue, pumped⟩
  · rw [same]
    exact h
  · rw [pumped]
    have settled := h.settled_of_up up
    refine ⟨?_, h.writtenGens, fun posted => absurd posted settled.started, h.callers, ?_, ?_, ?_,
      h.scheduled, ?_⟩
    · intro op member
      rcases List.mem_cons.mp member with rfl | old
      · exact le_rfl
      · exact h.gens op old
    · intro op member is_chain current
      rcases List.mem_cons.mp member with rfl | old
      · exact absurd is_chain (by simp [Op.isChain])
      · exact absurd current (settled.chain op old is_chain)
    · intro is_down
      exact absurd (up.symm.trans is_down) (by simp)
    · intro seconds member
      rcases List.mem_cons.mp member with here | old
      · exact absurd here (by simp)
      · exact h.waits seconds old
    · intro _
      refine ⟨?_, fun off => absurd off (by simp)⟩
      have one : inflight { s with
          outboundQueue := rest, writeInFlight := true, ops := .write s.generation frame :: s.ops,
          trace := .started (.write s.generation frame) :: s.trace } = frame :: inflight s := by
        unfold inflight
        rw [List.filterMap_cons]
        dsimp only
        rw [if_pos rfl]
      rw [one, (h.writes up).2 still]
      exact le_rfl

/-! ## What the handlers keep -/

/-- `handleError` does nothing, is only noted once the user has closed, or takes the
connection down. -/
theorem handleError_cases (s : State) (gen : Nat) :
    s.handleError gen = s ∧ (gen ≠ s.generation ∨ s.reconnectScheduled = true) ∨
    gen = s.generation ∧ s.reconnectScheduled = false ∧
      (s.handleError gen = s.log (.failed gen) ∧ s.userClosed = true ∨
      s.userClosed = false ∧ s.handleError gen = { s with
        reconnectScheduled := true, connected := false, ready := false, connectedFlag := false,
        writeInFlight := false, outboundQueue := [],
        pendingTopics := s.subscriptions ++ s.pendingTopics, subscriptions := [],
        reconnectDelayS := min (s.reconnectDelayS * 2) reconnectDelayMaxInS,
        ops := .reconnectWait gen s.reconnectDelayS :: s.ops,
        trace := .started (.reconnectWait gen s.reconnectDelayS) :: .failed gen :: s.trace }) := by
  by_cases late : (gen ≠ s.generation || s.reconnectScheduled) = true
  · refine Or.inl ⟨if_pos late, ?_⟩
    rcases Bool.or_eq_true_iff.mp late with other | scheduled
    · exact Or.inl (of_decide_eq_true other)
    · exact Or.inr scheduled
  · have taken := late
    simp only [ne_eq, Bool.or_eq_true, decide_eq_true_eq, not_or, not_not, Bool.not_eq_true] at taken
    refine Or.inr ⟨taken.1, taken.2, ?_⟩
    unfold State.handleError
    rw [if_neg late]
    by_cases closed : s.userClosed = true
    · exact Or.inl ⟨if_pos closed, closed⟩
    · exact Or.inr ⟨Bool.not_eq_true _ ▸ closed, if_neg closed⟩

theorem Link.handleError (h : Link s) (settled : Settled s) (gen : Nat) :
    Link (s.handleError gen) := by
  rcases handleError_cases s gen with ⟨same, _⟩ | ⟨rfl, _, ⟨noted, _⟩ | ⟨_, failed⟩⟩
  · rw [same]
    exact h
  · rw [noted]
    exact h.note (by simp)
  · rw [failed]
    refine ⟨?_, h.writtenGens, fun posted => absurd posted settled.started, h.callers, ?_,
      fun _ => ⟨rfl, fun _ none_in => absurd none_in List.not_mem_nil⟩, fun _ _ => rfl,
      fun _ => rfl, fun up => absurd up (by simp)⟩
    · intro op member
      rcases List.mem_cons.mp member with rfl | old
      · exact le_rfl
      · exact h.gens op old
    · intro op member is_chain current
      rcases List.mem_cons.mp member with rfl | old
      · exact absurd is_chain (by simp [Op.isChain])
      · exact absurd current (settled.chain op old is_chain)

/-- A new generation starts while the connection is down. -/
theorem Link.startConnect (h : Link s) (started : .startConnect ∉ s.posted)
    (down : s.connected = false) (scheduled : s.reconnectScheduled = false) :
    Link s.startConnect := by
  unfold State.startConnect
  split
  · exact h
  · refine ⟨?_, ?_, fun posted => absurd posted started, h.callers, ?_, fun _ => h.down down,
      fun _ _ => rfl, fun _ => rfl, fun up => absurd up (by simp [State.launch, State.log])⟩
    · intro op member
      rcases List.mem_cons.mp member with rfl | old
      · exact le_rfl
      · exact (h.gens op old).trans (Nat.le_succ _)
    · exact fun w member => (h.writtenGens w member).trans (Nat.le_succ _)
    · intro op member is_chain current
      rcases List.mem_cons.mp member with rfl | old
      · refine ⟨?_, ?_, rfl, rfl, scheduled⟩
        · intro other among
          have old : other ∈ s.ops := by
            simpa [State.launch] using among
          exact (Nat.lt_succ_of_le (h.gens other old)).ne
        · exact fun w member => (Nat.lt_succ_of_le (h.writtenGens w member)).ne
      · exact absurd current (Nat.lt_succ_of_le (h.gens op old)).ne

/-- The next step of the connect chain starts. -/
theorem Link.advance (h : Link s) (vacant : Vacant s) (settled : Settled s) {op : Op}
    (current : op.gen = s.generation) (is_chain : op.isChain = true) : Link (s.launch op) where
  gens other member := by
    rcases List.mem_cons.mp member with rfl | old
    · exact current.le
    · exact h.gens other old
  writtenGens := h.writtenGens
  starting posted := absurd posted settled.started
  callers := h.callers
  chain other member _ same := by
    rcases List.mem_cons.mp member with rfl | old
    · refine ⟨?_, vacant.written, vacant.connected, vacant.ready, vacant.scheduled⟩
      intro third among
      have old : third ∈ s.ops := by
        simpa [State.launch] using among
      exact vacant.ops third old
    · exact absurd same (vacant.ops other old)
  down := h.down
  waits _ _ := vacant.connected
  scheduled := h.scheduled
  writes up := absurd (up.symm.trans vacant.connected) (by simp)

/-- The connection comes up: its read and its ping wait start. -/
theorem Link.onHandshake (h : Link s) (vacant : Vacant s) (settled : Settled s) :
    Link (s.onHandshake s.generation) := by
  unfold State.onHandshake
  dsimp only
  split
  · exact ⟨h.gens, h.writtenGens, h.starting, h.callers,
      fun op member _ same => absurd same (vacant.ops op member), h.down, h.waits, h.scheduled,
      h.writes⟩
  · have up : Link { s.log (.handshake s.generation) with wsOpen := true, connected := true } := by
      refine ⟨h.gens, h.writtenGens, fun posted => absurd posted settled.started, h.callers,
        fun op member _ same => absurd same (vacant.ops op member), fun is_down => ?_, ?_, ?_, ?_⟩
      · exact absurd is_down (by simp)
      · exact fun seconds member => absurd rfl (vacant.ops _ member)
      · intro scheduled
        exact absurd (scheduled.symm.trans vacant.scheduled) (by simp)
      · intro _
        have nothing : inflight { s.log (.handshake s.generation) with
            wsOpen := true, connected := true } = [] := inflight_eq_nil vacant.ops
        rw [nothing]
        exact ⟨Nat.zero_le 1, fun _ => rfl⟩
    have pinging : Link ({ s.log (.handshake s.generation) with
        wsOpen := true, connected := true }.launch (.pingWait s.generation)) :=
      up.launch (up.settled_of_up rfl) rfl rfl (by simp) (by simp)
    exact pinging.launch (pinging.settled_of_up rfl) rfl rfl (by simp) (by simp)

/-- The frames of a flush are queued while the connection is up. -/
theorem Link.enqueueTopics (provider : String → Token) (channels : List String) {s : State}
    (h : Link s) (up : s.connected = true) :
    Link (State.enqueueTopics provider channels s).1 := by
  induction channels generalizing s with
  | nil => exact h.pump
  | cons channel rest ih =>
    unfold State.enqueueTopics
    split
    · exact h
    · exact ih (h.enqueue (Or.inr up)) up

theorem Link.flushTopics (h : Link s) (provider : String → Token) :
    Link (s.flushTopics provider).1 := by
  unfold State.flushTopics
  split
  · exact h
  · rename_i effective
    have up : s.connected = true := by
      by_contra down
      exact effective (by simp [down])
    apply Link.enqueueTopics
    · refine ⟨h.gens, h.writtenGens, h.starting, h.callers, ?_, fun is_down => ?_, h.waits,
        h.scheduled, h.writes⟩
      · intro op member is_chain current
        exact absurd current ((h.settled_of_up up).chain op member is_chain)
      · exact absurd (up.symm.trans is_down) (by simp)
    · exact up

/-- A flush queues frames and pumps, in whatever order the rule composes them. -/
theorem enqueueTopics_relates {R : State → State → Prop} (refl : ∀ s, R s s)
    (trans : ∀ {s s' s''}, R s s' → R s' s'' → R s s'')
    (enqueues : ∀ s frame, R s (s.enqueueOp frame)) (pumps : ∀ s, R s s.pump)
    (provider : String → Token) (channels : List String) (s : State) :
    R s (State.enqueueTopics provider channels s).1 := by
  induction channels generalizing s with
  | nil => exact pumps s
  | cons channel rest ih =>
    unfold State.enqueueTopics
    split
    · exact refl s
    · exact trans (enqueues s _) (ih _)

theorem flushTopics_relates {R : State → State → Prop} (refl : ∀ s, R s s)
    (trans : ∀ {s s' s''}, R s s' → R s' s'' → R s s'')
    (moves : ∀ s : State, R s { s with
      subscriptions := s.subscriptions ++ s.pendingTopics, pendingTopics := [] })
    (enqueues : ∀ s frame, R s (s.enqueueOp frame)) (pumps : ∀ s, R s s.pump) (s : State)
    (provider : String → Token) : R s (s.flushTopics provider).1 := by
  unfold State.flushTopics
  split
  · exact refl s
  · exact trans (moves s) (enqueueTopics_relates refl trans enqueues pumps provider _ _)

/-- A read dispatches its message and then reads on, fails or ends. -/
theorem onRead_of {J I : State → Prop} {gen : Nat} {result : State.ReadResult}
    {provider : String → Token} (start : J s)
    (handles : ∀ json, result = .message json → json.isObject = true → J (s.dispatch json provider).1)
    (reads : ∀ s', J s' → I (s'.readOn gen)) (errors : ∀ s', J s' → I (s'.handleError gen))
    (ends : ∀ s', J s' → I s') : I (s.onRead gen result provider) := by
  cases result with
  | error => exact errors s start
  | unparsable => exact errors s start
  | message json =>
    have handled : J (if json.isObject then s.dispatch json provider else (s, none)).1 := by
      split
      · rename_i object
        exact handles json rfl object
      · exact start
    unfold State.onRead
    dsimp only
    split
    · rename_i after eq
      rw [eq] at handled
      exact reads after handled
    · rename_i after eq
      rw [eq] at handled
      exact errors after handled
    · rename_i after eq
      rw [eq] at handled
      exact ends after handled

/-- A handler that posts nothing, stays on the connection and starts no step of the
connect chain. -/
structure Stays (s s' : State) : Prop where
  posted : s'.posted = s.posted
  generation : s'.generation = s.generation
  connected : s'.connected = s.connected
  ops : ∀ op ∈ s'.ops, op ∈ s.ops ∨ op.isChain = false

theorem Stays.refl (s : State) : Stays s s := ⟨rfl, rfl, rfl, fun _ member => Or.inl member⟩

theorem Stays.trans {s s' s'' : State} (first : Stays s s') (second : Stays s' s'') : Stays s s'' := by
  refine ⟨second.posted.trans first.posted, second.generation.trans first.generation,
    second.connected.trans first.connected, ?_⟩
  intro op member
  rcases second.ops op member with old | outside
  · exact first.ops op old
  · exact Or.inr outside

theorem Stays.settled {s s' : State} (stays : Stays s s') (settled : Settled s) : Settled s' := by
  refine ⟨stays.posted ▸ settled.started, ?_⟩
  intro op member is_chain
  rw [stays.generation]
  rcases stays.ops op member with old | outside
  · exact settled.chain op old is_chain
  · exact absurd is_chain (by simp [outside])

theorem stays_enqueue (s : State) (frame : Frame) : Stays s (s.enqueueOp frame) :=
  ⟨rfl, rfl, rfl, fun _ member => Or.inl member⟩

theorem stays_pump (s : State) : Stays s s.pump := by
  rcases pump_cases s with same | ⟨frame, _, _, _, _, pumped⟩
  · rw [same]
    exact .refl s
  · rw [pumped]
    refine ⟨rfl, rfl, rfl, ?_⟩
    intro op member
    rcases List.mem_cons.mp member with rfl | old
    · exact Or.inr rfl
    · exact Or.inl old

theorem stays_flushTopics (s : State) (provider : String → Token) :
    Stays s (s.flushTopics provider).1 :=
  flushTopics_relates Stays.refl Stays.trans (fun _ => ⟨rfl, rfl, rfl, fun _ member => Or.inl member⟩)
    stays_enqueue stays_pump s provider

/-- The greeting of a connection that is settled. -/
theorem Link.greet (h : Link s) (settled : Settled s) :
    Link { s.log (.greeted s.generation) with
      ready := true, connectedFlag := true, reconnectDelayS := 1 } := by
  refine ⟨h.gens, h.writtenGens, h.starting, h.callers, ?_, h.down, h.waits, h.scheduled, h.writes⟩
  intro op member is_chain current
  exact absurd current (settled.chain op member is_chain)

theorem Link.dispatch (h : Link s) (settled : Settled s) (json : Json) (provider : String → Token) :
    Link (s.dispatch json provider).1 ∧ Stays s (s.dispatch json provider).1 := by
  unfold State.dispatch
  dsimp only
  split
  · have stays : Stays s { s.log (.greeted s.generation) with
        ready := true, connectedFlag := true, reconnectDelayS := 1 } :=
      ⟨rfl, rfl, rfl, fun _ member => Or.inl member⟩
    exact ⟨(h.greet settled).flushTopics provider, stays.trans (stays_flushTopics _ provider)⟩
  · split
    · exact ⟨(h.enqueue (Or.inl rfl)).pump, (stays_enqueue s .pong).trans (stays_pump _)⟩
    · exact ⟨h, .refl s⟩

/-- The rest of the state is free, as long as nothing is subscribed while the connection is
down and no caller owes a connect. -/
theorem Link.frame (h : Link s) {subscriptions pendingTopics : List String} {reconnectDelayS : Nat}
    {userClosed wsOpen : Bool} {calls : List Posted} (down : s.connected = false → subscriptions = [])
    (callers : .startConnect ∉ calls) :
    Link { s with subscriptions, pendingTopics, reconnectDelayS, userClosed, wsOpen, calls } := by
  refine ⟨h.gens, h.writtenGens, h.starting, callers, ?_, fun is_down => ?_, h.waits, h.scheduled,
    h.writes⟩
  · intro op member is_chain current
    have vacant := h.chain op member is_chain current
    exact ⟨vacant.ops, vacant.written, vacant.connected, vacant.ready, vacant.scheduled⟩
  · exact ⟨down is_down, (h.down is_down).2⟩

/-- In particular when the lists of topics stay. -/
theorem Link.flags (h : Link s) (reconnectDelayS : Nat) (userClosed wsOpen : Bool) :
    Link { s with reconnectDelayS, userClosed, wsOpen } :=
  h.frame (fun down => (h.down down).1) h.callers

theorem Link.closeByUser (h : Link s) : Link s.closeByUser := by
  unfold State.closeByUser
  split
  · exact h
  · split
    · exact (h.note (by simp)).flags s.reconnectDelayS true false
    · exact (h.note (by simp)).flags s.reconnectDelayS true s.wsOpen

theorem Link.readOn (h : Link s) (settled : Settled s) (gen : Nat) : Link (s.readOn gen) := by
  unfold State.readOn
  split
  · exact h
  · rename_i reads
    have same : gen = s.generation := by
      by_contra other
      exact reads (by simp [other])
    have idle := h.flags (if s.ready then 1 else s.reconnectDelayS) s.userClosed s.wsOpen
    have quiet : Settled { s with reconnectDelayS := if s.ready then 1 else s.reconnectDelayS } :=
      ⟨settled.started, settled.chain⟩
    exact Link.launch idle quiet (show (Op.read gen).gen = _ from same) rfl (by simp) (by simp)

theorem Link.onRead (h : Link s) (settled : Settled s) (gen : Nat) (result : State.ReadResult)
    (provider : String → Token) : Link (s.onRead gen result provider) := by
  apply onRead_of (J := fun s' => Link s' ∧ Settled s')
  · exact ⟨h, settled⟩
  · intro json _ _
    obtain ⟨link, stays⟩ := h.dispatch settled json provider
    exact ⟨link, stays.settled settled⟩
  · exact fun s' handled => handled.1.readOn handled.2 gen
  · exact fun s' handled => handled.1.handleError handled.2 gen
  · exact fun s' handled => handled.1

theorem Link.onPingTimer (h : Link s) (settled : Settled s) (ok silent : Bool) :
    Link (s.onPingTimer s.generation ok silent) := by
  unfold State.onPingTimer
  split
  · exact h
  · split
    · exact h.handleError settled _
    · split
      · have stays := (stays_enqueue s .ping).trans (stays_pump _)
        exact (h.enqueue (Or.inl rfl)).pump.launch (stays.settled settled) stays.generation.symm rfl
          (by simp) (by simp)
      · exact h.launch settled rfl rfl (by simp) (by simp)

theorem Link.onReconnectTimer (h : Link s) (settled : Settled s) (down : s.connected = false)
    (ok : Bool) : Link (s.onReconnectTimer ok) := by
  have idle : Link { s with reconnectScheduled := false } :=
    ⟨h.gens, h.writtenGens, fun posted => absurd posted settled.started, h.callers,
      fun op member is_chain current => absurd current (settled.chain op member is_chain), h.down,
      h.waits, fun on => absurd on (by simp), h.writes⟩
  unfold State.onReconnectTimer
  dsimp only
  split
  · exact idle
  · exact idle.startConnect settled.started down rfl

/-! ## Every step -/

/-- A completion runs its handler only in its own generation. -/
theorem complete_spec {op : Op} {handler : State → State} {s' : State}
    (taken : s.complete op handler = some s') : op ∈ s.ops ∧
      ((op.gen = s.generation ∧ s' = handler { s with ops := s.ops.erase op }) ∨
        (op.gen ≠ s.generation ∧ s' = { s with ops := s.ops.erase op })) := by
  unfold State.complete at taken
  split at taken
  · rename_i member
    refine ⟨member, ?_⟩
    dsimp only at taken
    split at taken
    · rename_i current
      exact Or.inl ⟨current, (Option.some.inj taken).symm⟩
    · rename_i past
      exact Or.inr ⟨past, (Option.some.inj taken).symm⟩
  · exact absurd taken (by simp)

/-- A call of `subscribe` puts the channel behind the pending ones, unless it is known. -/
theorem subscribe_spec {channel : String} {s' : State}
    (taken : step s (.subscribe channel) = some s') :
    s' = { s with
      pendingTopics := if channel ∈ s.subscriptions ∨ channel ∈ s.pendingTopics then s.pendingTopics
        else s.pendingTopics ++ [channel]
      calls := .flushTopics :: s.calls } := by
  obtain rfl := Option.some.inj taken
  unfold State.addTopic
  split
  · rfl
  · rfl

/-- A call of `unsubscribe` takes the channel off the lists; only a subscribed one is posted. -/
theorem unsubscribe_spec {channel : String} {s' : State}
    (taken : step s (.unsubscribe channel) = some s') :
    (channel ∈ s.subscriptions ∧ s' = { s with
      pendingTopics := s.pendingTopics.filter (· ≠ channel)
      subscriptions := s.subscriptions.erase channel
      calls := .unsubscribe channel :: s.calls }) ∨
    (channel ∉ s.subscriptions ∧
      s' = { s with pendingTopics := s.pendingTopics.filter (· ≠ channel) }) := by
  simp only [step, State.removeTopic] at taken
  by_cases subscribed : channel ∈ s.subscriptions
  · rw [if_pos subscribed] at taken
    exact Or.inl ⟨subscribed, (Option.some.inj taken).symm⟩
  · rw [if_neg subscribed] at taken
    exact Or.inr ⟨subscribed, (Option.some.inj taken).symm⟩

theorem post_spec {handler : Posted} {s' : State} (taken : step s (.post handler) = some s') :
    handler ∈ s.calls ∧
      s' = { s with posted := s.posted ++ [handler], calls := s.calls.erase handler } := by
  obtain ⟨owed, taken⟩ := Option.ite_none_right_eq_some.mp taken
  exact ⟨owed, (Option.some.inj taken).symm⟩

theorem Link.post (h : Link s) {handler : Posted} (member : handler ∈ s.calls) :
    Link { s with posted := s.posted ++ [handler], calls := s.calls.erase handler } := by
  have other : handler ≠ .startConnect := by
    intro here
    exact h.callers (here ▸ member)
  refine ⟨h.gens, h.writtenGens, ?_, ?_, ?_, h.down, h.waits, h.scheduled, h.writes⟩
  · intro posted
    rcases List.mem_append.mp posted with old | new
    · obtain ⟨⟨rest, first, once⟩, idle⟩ := h.starting old
      refine ⟨⟨rest ++ [handler], by simp [first], ?_⟩, idle⟩
      intro again
      rcases List.mem_append.mp again with before | new
      · exact once before
      · exact other (List.mem_singleton.mp new).symm
    · exact absurd (List.mem_singleton.mp new).symm other
  · exact fun owed => h.callers (List.mem_of_mem_erase owed)
  · intro op among is_chain current
    have vacant := h.chain op among is_chain current
    exact ⟨vacant.ops, vacant.written, vacant.connected, vacant.ready, vacant.scheduled⟩

/-- A handler that is not the first connect is taken from the posted ones. -/
theorem Link.take (h : Link s) {handler : Posted} {rest : List Posted}
    (posted : s.posted = handler :: rest) :
    Link { s with posted := rest } ∧ .startConnect ∉ rest := by
  have once : .startConnect ∉ rest := by
    intro member
    obtain ⟨⟨rest', first, absent⟩, _⟩ := h.starting (posted ▸ List.mem_cons_of_mem _ member)
    rw [posted] at first
    exact absent ((List.cons.inj first).2 ▸ member)
  refine ⟨⟨h.gens, h.writtenGens, fun member => absurd member once, h.callers, ?_, h.down, h.waits,
    h.scheduled, h.writes⟩, once⟩
  intro op member is_chain current
  have vacant := h.chain op member is_chain current
  exact ⟨vacant.ops, vacant.written, vacant.connected, vacant.ready, vacant.scheduled⟩

theorem Link.runPosted {s' : State} {provider : String → Token} (h : Link s)
    (taken : runPosted s provider = some s') : Link s' := by
  unfold WsSession.runPosted at taken
  split at taken
  · exact absurd taken (by simp)
  · rename_i handler rest posted
    obtain ⟨taken_off, once⟩ := h.take posted
    dsimp only at taken
    split at taken
    · have idle := (h.starting (posted ▸ List.mem_cons_self)).2
      rw [← Option.some.inj taken]
      exact taken_off.startConnect once idle.2.1 idle.2.2
    · rw [← Option.some.inj taken]
      exact taken_off.flushTopics provider
    · rw [← Option.some.inj taken]
      split
      · rename_i up
        exact (taken_off.enqueue (Or.inr up)).pump
      · exact taken_off
    · rw [← Option.some.inj taken]
      exact taken_off.closeByUser

/-- A step of the connect chain completes: the next one starts, or the connection fails. -/
theorem Link.chainDone (h : Link s) (op next : Op) (ok : Bool) {s' : State}
    (is_chain : op.isChain = true) (then_chain : next.isChain = true) (same : next.gen = op.gen)
    (taken : s.complete op (fun s => if ok then s.launch next else s.handleError op.gen) = some s') :
    Link s' := by
  obtain ⟨member, ⟨current, rfl⟩ | ⟨_, rfl⟩⟩ := complete_spec taken
  · obtain ⟨vacant, settled⟩ := h.vacant_of_member member is_chain current
    split
    · exact (h.drop op).advance vacant settled (same.trans current) then_chain
    · exact (h.drop op).handleError settled _
  · exact h.drop op

/-- At most one write is in flight, so none is when it completes. -/
theorem inflight_of_write (h : Link s) {gen : Nat} {frame : Frame}
    (member : Op.write gen frame ∈ s.ops) (current : gen = s.generation) (up : s.connected = true) :
    inflight s = [frame] ∧ inflight { s with ops := s.ops.erase (.write gen frame) } = [] := by
  have permuted := inflight_perm member current
  have length := permuted.length_eq
  have one := (h.writes up).1
  rw [List.length_cons] at length
  have nothing : inflight { s with ops := s.ops.erase (.write gen frame) } = [] := by
    apply List.eq_nil_of_length_eq_zero
    omega
  rw [nothing] at permuted
  exact ⟨List.perm_singleton.mp permuted, nothing⟩

/-- The flag of the write in flight is cleared when there is none. -/
theorem Link.idle (h : Link s) (nothing : s.connected = true → inflight s = []) :
    Link { s with writeInFlight := false } := by
  refine ⟨h.gens, h.writtenGens, h.starting, h.callers, ?_, h.down, h.waits, h.scheduled, fun up => ?_⟩
  · intro op member is_chain current
    have vacant := h.chain op member is_chain current
    exact ⟨vacant.ops, vacant.written, vacant.connected, vacant.ready, vacant.scheduled⟩
  · have none_left : inflight { s with writeInFlight := false } = [] := nothing up
    rw [none_left]
    exact ⟨Nat.zero_le 1, fun _ => rfl⟩

/-- A frame in flight is written. -/
theorem Link.log (h : Link s) {gen : Nat} {frame : Frame} (member : Op.write gen frame ∈ s.ops) :
    Link (s.log (.written gen frame)) := by
  refine ⟨h.gens, ?_, h.starting, h.callers, ?_, h.down, h.waits, h.scheduled, h.writes⟩
  · intro w among
    rcases List.mem_cons.mp among with rfl | old
    · exact h.gens _ member
    · exact h.writtenGens w old
  · intro op among is_chain current
    have vacant := h.chain op among is_chain current
    refine ⟨vacant.ops, ?_, vacant.connected, vacant.ready, vacant.scheduled⟩
    intro w listed
    rcases List.mem_cons.mp listed with rfl | old
    · have differs : Op.write gen frame ≠ op := by
        intro here
        rw [← here] at is_chain
        exact absurd is_chain (by simp [Op.isChain])
      exact vacant.ops _ ((List.mem_erase_of_ne differs).mpr member)
    · exact vacant.written w old

theorem Link.writeDone (h : Link s) {gen : Nat} {frame : Frame} {ok : Bool} {s' : State}
    (taken : step s (.writeDone gen frame ok) = some s') : Link s' := by
  cases ok with
  | true =>
    simp only [step, if_true] at taken
    obtain ⟨member, ⟨current, rfl⟩ | ⟨_, rfl⟩⟩ := complete_spec taken
    · have link := h.log member
      have idle := (link.drop (.write gen frame)).idle fun up =>
        (inflight_of_write link member current up).2
      exact idle.pump
    · exact (h.log member).drop _
  | false =>
    simp only [step, Bool.false_eq_true, if_false] at taken
    obtain ⟨member, ⟨current, rfl⟩ | ⟨_, rfl⟩⟩ := complete_spec taken
    · have settled := h.settled_of_member member rfl current
      have idle := (h.drop (.write gen frame)).idle fun up =>
        (inflight_of_write h member current up).2
      exact idle.handleError ⟨settled.started, settled.chain⟩ gen
    · exact h.drop _

theorem Link.wsDone (h : Link s) {gen : Nat} {ok : Bool} {s' : State}
    (taken : WsSession.step s (.wsDone gen ok) = some s') : Link s' := by
  simp only [WsSession.step] at taken
  obtain ⟨member, ⟨current, rfl⟩ | ⟨_, rfl⟩⟩ := complete_spec taken
  · obtain ⟨vacant, settled⟩ := h.vacant_of_member member rfl current
    have same : gen = s.generation := current
    split
    · rw [same] at vacant settled ⊢
      exact (h.drop _).onHandshake vacant settled
    · exact (h.drop _).handleError settled gen
  · exact h.drop _

theorem Link.pingFired (h : Link s) {gen : Nat} {ok silent : Bool} {s' : State}
    (taken : WsSession.step s (.pingFired gen ok silent) = some s') : Link s' := by
  simp only [WsSession.step] at taken
  obtain ⟨member, ⟨current, rfl⟩ | ⟨_, rfl⟩⟩ := complete_spec taken
  · have settled := h.settled_of_member member rfl current
    have same : gen = s.generation := current
    rw [same] at settled ⊢
    exact (h.drop _).onPingTimer settled ok silent
  · exact h.drop _

theorem Link.reconnectFired (h : Link s) {gen seconds : Nat} {ok : Bool} {s' : State}
    (taken : WsSession.step s (.reconnectFired gen seconds ok) = some s') : Link s' := by
  simp only [WsSession.step] at taken
  obtain ⟨member, ⟨current, rfl⟩ | ⟨_, rfl⟩⟩ := complete_spec taken
  · have settled := h.settled_of_member member rfl current
    have same : gen = s.generation := current
    rw [same] at member
    exact (h.drop _).onReconnectTimer settled (h.waits seconds member) ok
  · exact h.drop _

theorem Link.subscribe (h : Link s) {channel : String} {s' : State}
    (taken : WsSession.step s (.subscribe channel) = some s') : Link s' := by
  obtain rfl := subscribe_spec taken
  apply Link.frame h
  · exact fun down => (h.down down).1
  · simp [h.callers]

theorem Link.unsubscribe (h : Link s) {channel : String} {s' : State}
    (taken : WsSession.step s (.unsubscribe channel) = some s') : Link s' := by
  rcases unsubscribe_spec taken with ⟨_, rfl⟩ | ⟨_, rfl⟩
  · apply Link.frame h
    · intro down
      rw [(h.down down).1]
      rfl
    · simp [h.callers]
  · exact h.frame (fun down => (h.down down).1) h.callers

theorem Link.close (h : Link s) : Link { s with posted := s.posted ++ [.closeByUser] } := by
  have owed : Link { s with calls := .closeByUser :: s.calls } :=
    h.frame (fun down => (h.down down).1) (by simp [h.callers])
  have posted := owed.post List.mem_cons_self
  rw [List.erase_cons_head] at posted
  exact posted

theorem Link.step {a : Action} {s' : State} (h : Link s) (taken : step s a = some s') : Link s' := by
  cases a with
  | subscribe channel => exact h.subscribe taken
  | unsubscribe channel => exact h.unsubscribe taken
  | post handler =>
    obtain ⟨owed, rfl⟩ := post_spec taken
    exact h.post owed
  | close => exact Option.some.inj taken ▸ h.close
  | execute provider => exact h.runPosted taken
  | streamFails => exact Option.some.inj taken ▸ h.flags s.reconnectDelayS s.userClosed false
  | resolved gen ok => exact h.chainDone (.resolve gen) (.connect gen) ok rfl rfl rfl taken
  | tcpConnected gen ok sni =>
    exact h.chainDone (.connect gen) (.tlsHandshake gen) (ok && sni) rfl rfl rfl taken
  | tlsDone gen ok => exact h.chainDone (.tlsHandshake gen) (.wsHandshake gen) ok rfl rfl rfl taken
  | wsDone gen ok => exact h.wsDone taken
  | readDone gen result provider =>
    simp only [WsSession.step] at taken
    obtain ⟨member, ⟨current, rfl⟩ | ⟨_, rfl⟩⟩ := complete_spec taken
    · exact (h.drop _).onRead (h.settled_of_member member rfl current) gen result provider
    · exact h.drop _
  | writeDone gen frame ok => exact h.writeDone taken
  | pingFired gen ok silent => exact h.pingFired taken
  | reconnectFired gen seconds ok => exact h.reconnectFired taken

end LighterApi.Guarantees.SessionLink
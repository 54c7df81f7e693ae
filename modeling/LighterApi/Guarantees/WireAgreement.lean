import LighterApi.Library.LastWrite
import LighterApi.Guarantees.SessionLink

/-!
# The subscriptions on the wire

The local lists change on the caller's thread, the frames follow from handlers posted
later. What the frames given so far say of a channel agrees with the lists, up to the
unsubscribe handlers still owed, as long as no flush subscribes a channel that is owed an
unsubscribe (`Orderly`); a flush queued by another caller does exactly that to a channel
that is subscribed again, and the late unsubscribe frame then ends it on the wire
(`late_unsubscribe_disagrees`).
-/
namespace LighterApi.Guarantees.WireAgreement
open LighterApi.Source LighterApi.Source.WsSession
open LighterApi.Library.Transition LighterApi.Library.LastWrite SessionLink

/-! ## What the frames say -/

/-- The frames written on this connection, in order. -/
def writtenOn (s : State) : List Frame :=
  (s.written.filterMap fun w => if w.1 = s.generation then some w.2 else none).reverse

/-- The frames given on this connection, written or not. -/
def given (s : State) : List Frame := writtenOn s ++ inflight s ++ s.outboundQueue

/-- Whether the last frame about a channel subscribes it. -/
def lastTopic (channel : String) (frames : List Frame) : Option Bool :=
  lastWrite channel (frames.filterMap topic)

/-- A handler is posted, or a caller is about to post it. -/
def Owed (s : State) (handler : Posted) : Prop := handler ∈ s.posted ∨ handler ∈ s.calls

instance (s : State) (handler : Posted) : Decidable (Owed s handler) :=
  inferInstanceAs (Decidable (_ ∨ _))

/-- Connected and ready, with no handler owed and nothing left to write. -/
structure Quiet (s : State) : Prop where
  connected : s.connected = true
  ready : s.ready = true
  posted : s.posted = []
  calls : s.calls = []
  queue : s.outboundQueue = []
  idle : s.writeInFlight = false

/-- The lists agree with the frames written. -/
structure Agrees (s : State) : Prop where
  pending : s.pendingTopics = []
  channels : ∀ c, c ∈ s.subscriptions ↔ lastTopic c (writtenOn s) = some true

/-! ## The condition -/

/-- The exception of the token provider that ends a flush of these channels. -/
def refusal (provider : String → Token) (channels : List String) : Option Bool :=
  channels.findSome? fun channel =>
    match subscribeMsg provider channel with
    | .error jsonException => some jsonException
    | .ok _ => none

/-- A flush now subscribes no channel that is owed an unsubscribe. -/
def Timely (s : State) : Prop := ∀ c ∈ s.pendingTopics, ¬Owed s (.unsubscribe c)

instance (s : State) : Decidable (Timely s) :=
  inferInstanceAs (Decidable (∀ c ∈ s.pendingTopics, ¬Owed s (.unsubscribe c)))

/-- The session stays open, and a flush that takes effect is timely and builds all its
frames; one that the greeting starts may also take the connection down. -/
def Orderly (s : State) : Action → Prop
  | .close => False
  | .execute provider =>
    s.posted.head? = some .flushTopics → s.connected = true → s.ready = true →
      Timely s ∧ refusal provider s.pendingTopics = none
  | .readDone gen (.message json) provider =>
    gen = s.generation → json.isObject = true → textOf json "type" = "connected" →
      s.connected = true →
        refusal provider s.pendingTopics = some true ∨
          Timely s ∧ refusal provider s.pendingTopics = none
  | _ => True

instance decidableOrderly (s : State) : (a : Action) → Decidable (Orderly s a)
  | .close => inferInstanceAs (Decidable False)
  | .execute _ => inferInstanceAs (Decidable (_ → _ → _ → Timely s ∧ _))
  | .readDone _ (.message _) _ =>
    inferInstanceAs (Decidable (_ → _ → _ → _ → _ ∨ Timely s ∧ _))
  | .readDone _ .error _ | .readDone _ .unparsable _ | .subscribe _ | .unsubscribe _ | .post _
  | .streamFails | .resolved _ _ | .tcpConnected _ _ _ | .tlsDone _ _ | .wsDone _ _
  | .writeDone _ _ _ | .pingFired _ _ _ | .reconnectFired _ _ _ => inferInstanceAs (Decidable True)

/-! ## The invariant -/

/-- The lists and the close, whatever the connection does. -/
structure Lists (s : State) : Prop where
  nodup : (s.subscriptions ++ s.pendingTopics).Nodup
  opened : s.userClosed = false
  unclosed : ¬Owed s .closeByUser

/-- On a connection that is up: what was given of a channel agrees with the lists up to an
unsubscribe that is owed, and a flush is owed while something is pending. -/
structure Topics (s : State) : Prop extends Lists s where
  subscribed : s.connected = true → ∀ c ∈ s.subscriptions,
    lastTopic c (given s) = some true ∧ ¬Owed s (.unsubscribe c)
  dropped : s.connected = true → ∀ c ∉ s.subscriptions,
    lastTopic c (given s) = some true → Owed s (.unsubscribe c)
  due : s.connected = true → s.ready = true → s.pendingTopics ≠ [] → Owed s .flushTopics

theorem topics_start : Topics State.start := by
  constructor
  · constructor <;> simp [State.start, Owed]
  all_goals simp [State.start]

variable {s s' : State}

theorem Lists.of_down (h : Lists s) (down : s.connected = false) : Topics s where
  toLists := h
  subscribed up := absurd (up.symm.trans down) (by simp)
  dropped up := absurd (up.symm.trans down) (by simp)
  due up := absurd (up.symm.trans down) (by simp)

/-- A step that neither touches the lists nor gives a topic frame. -/
structure Still (s s' : State) : Prop where
  subscriptions : s'.subscriptions = s.subscriptions
  pendingTopics : s'.pendingTopics = s.pendingTopics
  posted : s'.posted = s.posted
  calls : s'.calls = s.calls
  userClosed : s'.userClosed = s.userClosed
  connected : s'.connected = s.connected
  ready : s'.ready = s.ready
  told : s.connected = true → ∀ c, lastTopic c (given s') = lastTopic c (given s)

theorem Still.trans {s'' : State} (first : Still s s') (second : Still s' s'') : Still s s'' where
  subscriptions := second.subscriptions.trans first.subscriptions
  pendingTopics := second.pendingTopics.trans first.pendingTopics
  posted := second.posted.trans first.posted
  calls := second.calls.trans first.calls
  userClosed := second.userClosed.trans first.userClosed
  connected := second.connected.trans first.connected
  ready := second.ready.trans first.ready
  told up c := (second.told (first.connected.trans up) c).trans (first.told up c)

theorem Still.owed (still : Still s s') (handler : Posted) : Owed s' handler ↔ Owed s handler := by
  unfold Owed
  rw [still.posted, still.calls]

theorem Still.lists (still : Still s s') (h : Lists s) : Lists s' := by
  refine ⟨?_, still.userClosed.trans h.opened, ?_⟩
  · rw [still.subscriptions, still.pendingTopics]
    exact h.nodup
  · rw [still.owed]
    exact h.unclosed

theorem Still.topics (still : Still s s') (h : Topics s) : Topics s' where
  toLists := still.lists h.toLists
  subscribed up c := by
    rw [still.connected] at up
    rw [still.subscriptions, still.told up, still.owed]
    exact h.subscribed up c
  dropped up c := by
    rw [still.connected] at up
    rw [still.subscriptions, still.told up, still.owed]
    exact h.dropped up c
  due up := by
    rw [still.connected] at up
    rw [still.ready, still.pendingTopics, still.owed]
    exact h.due up

/-! ## Steps that give no topic frame -/

theorem lastTopic_append (c : String) (first second : List Frame) :
    lastTopic c (first ++ second) = (lastTopic c second).or (lastTopic c first) := by
  unfold lastTopic
  rw [List.filterMap_append, lastWrite_append]

theorem lastTopic_frame {c : String} {frame : Frame} (plain : topic frame = none) :
    lastTopic c [frame] = none := by
  unfold lastTopic
  rw [List.filterMap_cons_none plain]
  rfl

theorem given_enqueueOp (s : State) (frame : Frame) : given (s.enqueueOp frame) = given s ++ [frame] := by
  unfold given State.enqueueOp
  rw [List.append_assoc _ s.outboundQueue]
  rfl

/-- The lists, the callers and the connection stay, and the frames handed to it. -/
theorem still_frame {outboundQueue : List Frame}
    {writeInFlight connectedFlag reconnectScheduled wsOpen : Bool}
    {reconnectDelayS generation : Nat} {ops : List Op} {trace : List Event}
    (told : given { s with
      outboundQueue, writeInFlight, connectedFlag, reconnectScheduled, wsOpen, reconnectDelayS,
      generation, ops, trace } = given s) :
    Still s { s with
      outboundQueue, writeInFlight, connectedFlag, reconnectScheduled, wsOpen, reconnectDelayS,
      generation, ops, trace } :=
  ⟨rfl, rfl, rfl, rfl, rfl, rfl, rfl, fun _ c => congrArg (lastTopic c) told⟩

theorem still_enqueueOp {frame : Frame} (plain : topic frame = none) : Still s (s.enqueueOp frame) := by
  refine ⟨rfl, rfl, rfl, rfl, rfl, rfl, rfl, fun _ c => ?_⟩
  rw [given_enqueueOp, lastTopic_append, lastTopic_frame plain, Option.none_or]

/-- The frame `pump` takes from the queue is in flight. -/
theorem given_pump (h : Link s) : given s.pump = given s := by
  rcases pump_cases s with same | ⟨frame, rest, still, up, queue, pumped⟩
  · rw [same]
  · have nothing := (h.writes up).2 still
    have one : inflight s.pump = frame :: inflight s := by
      rw [pumped]
      unfold inflight
      rw [List.filterMap_cons]
      dsimp only
      rw [if_pos rfl]
    have unwritten : writtenOn s.pump = writtenOn s := by
      rw [pumped]
      rfl
    unfold given
    rw [one, nothing, queue, unwritten, pumped]
    simp

theorem still_pump (h : Link s) : Still s s.pump := by
  have told := given_pump h
  rcases pump_cases s with same | ⟨frame, rest, still, up, queue, pumped⟩
  · rw [same]
    exact still_frame rfl
  · rw [pumped] at told ⊢
    exact still_frame told

theorem given_launch (s : State) {op : Op} (no_write : ∀ gen frame, op ≠ .write gen frame) :
    given (s.launch op) = given s := by
  unfold given
  rw [inflight_launch s no_write]
  rfl

/-- An operation that is no write starts. -/
theorem still_launch (s : State) {op : Op} (no_write : ∀ gen frame, op ≠ .write gen frame) :
    Still s (s.launch op) :=
  still_frame (given_launch s no_write)

theorem filterMap_erase_of_none {α β : Type} [DecidableEq α] {f : α → Option β} {a : α}
    (nothing : f a = none) (xs : List α) : (xs.erase a).filterMap f = xs.filterMap f := by
  induction xs with
  | nil => rfl
  | cons x rest ih =>
    by_cases same : x = a
    · rw [same, List.erase_cons_head, List.filterMap_cons_none nothing]
    · rw [List.erase_cons_tail (by simpa using same), List.filterMap_cons, List.filterMap_cons, ih]

theorem given_drop (s : State) {op : Op} (outside : ∀ frame, op ≠ .write s.generation frame) :
    given { s with ops := s.ops.erase op } = given s := by
  have same : inflight { s with ops := s.ops.erase op } = inflight s := by
    apply filterMap_erase_of_none
    cases op with
    | write gen frame =>
      apply if_neg
      intro current
      exact outside frame (current ▸ rfl)
    | _ => rfl
  unfold given
  rw [same]
  rfl

/-- An operation that is no write of this connection completes. -/
theorem still_drop (s : State) {op : Op} (outside : ∀ frame, op ≠ .write s.generation frame) :
    Still s { s with ops := s.ops.erase op } :=
  still_frame (given_drop s outside)

/-! ## Errors -/

theorem Lists.handleError (h : Lists s) (gen : Nat) : Lists (s.handleError gen) := by
  rcases handleError_cases s gen with ⟨same, _⟩ | ⟨_, _, ⟨noted, _⟩ | ⟨_, failed⟩⟩
  · rw [same]
    exact h
  · rw [noted]
    exact ⟨h.nodup, h.opened, h.unclosed⟩
  · rw [failed]
    refine ⟨?_, h.opened, h.unclosed⟩
    rw [List.nil_append]
    exact h.nodup

/-- After an error of this connection it is down. -/
theorem handleError_down (opened : s.userClosed = false)
    (scheduled : s.reconnectScheduled = true → s.connected = false) :
    (s.handleError s.generation).connected = false := by
  rcases handleError_cases s s.generation with ⟨same, why⟩ | ⟨_, _, ⟨_, closed⟩ | ⟨_, failed⟩⟩
  · rw [same]
    rcases why with other | waiting
    · exact absurd rfl other
    · exact scheduled waiting
  · exact absurd (opened.symm.trans closed) (by simp)
  · rw [failed]

/-- An error keeps the agreement: it only takes the connection down. -/
theorem Topics.handleError (h : Topics s) (gen : Nat) : Topics (s.handleError gen) := by
  rcases handleError_cases s gen with ⟨same, _⟩ | ⟨_, _, ⟨_, closed⟩ | ⟨_, failed⟩⟩
  · rw [same]
    exact h
  · exact absurd (h.opened.symm.trans closed) (by simp)
  · apply Lists.of_down (h.toLists.handleError gen)
    rw [failed]

/-! ## Flushes -/

theorem lastTopic_unsubscribe (channel c : String) :
    lastTopic c [.unsubscribe channel] = if channel = c then some false else none := by
  unfold lastTopic topic lastWrite lastWrite
  simp

/-- Queueing the frames of a flush changes the queue and what is in flight only. -/
theorem enqueueTopics_eq (provider : String → Token) (channels : List String) (s : State) :
    ∃ outboundQueue writeInFlight ops trace, (State.enqueueTopics provider channels s).1 =
      { s with outboundQueue, writeInFlight, ops, trace } := by
  induction channels generalizing s with
  | nil =>
    unfold State.enqueueTopics
    rcases pump_cases s with same | ⟨frame, rest, _, _, _, pumped⟩
    · exact ⟨s.outboundQueue, s.writeInFlight, s.ops, s.trace, same⟩
    · exact ⟨rest, true, .write s.generation frame :: s.ops, _, pumped⟩
  | cons channel rest ih =>
    unfold State.enqueueTopics
    split
    · exact ⟨s.outboundQueue, s.writeInFlight, s.ops, s.trace, rfl⟩
    · rename_i frame _
      obtain ⟨outboundQueue, writeInFlight, ops, trace, eq⟩ := ih (s.enqueueOp frame)
      exact ⟨outboundQueue, writeInFlight, ops, trace, eq⟩

theorem enqueueTopics_refusal (provider : String → Token) (channels : List String) (s : State) :
    (State.enqueueTopics provider channels s).2 = refusal provider channels := by
  induction channels generalizing s with
  | nil => rfl
  | cons channel rest ih =>
    unfold State.enqueueTopics refusal
    rw [List.findSome?_cons]
    cases built : subscribeMsg provider channel with
    | error jsonException => rfl
    | ok frame => exact ih (s.enqueueOp frame)

/-- With every frame built, a flush gives one subscribe frame for each of its channels. -/
theorem given_enqueueTopics (provider : String → Token) {channels : List String}
    (built : refusal provider channels = none) {s : State} (h : Link s) (up : s.connected = true) :
    ∃ frames, given (State.enqueueTopics provider channels s).1 = given s ++ frames ∧
      frames.map topic = channels.map fun c => some (c, true) := by
  induction channels generalizing s with
  | nil =>
    refine ⟨[], ?_, rfl⟩
    unfold State.enqueueTopics
    rw [given_pump h, List.append_nil]
  | cons channel rest ih =>
    unfold refusal at built
    rw [List.findSome?_cons] at built
    cases framed : subscribeMsg provider channel with
    | error jsonException =>
      rw [framed] at built
      exact absurd built (by simp)
    | ok frame =>
      rw [framed] at built
      have queued : Link (s.enqueueOp frame) := h.enqueue (Or.inr up)
      obtain ⟨frames, told, subscribes⟩ := ih built queued up
      refine ⟨frame :: frames, ?_, ?_⟩
      · unfold State.enqueueTopics
        rw [framed]
        dsimp only
        rw [told, given_enqueueOp, List.append_assoc]
        rfl
      · have about : topic frame = some (channel, true) := by
          unfold subscribeMsg at framed
          split at framed
          · rw [← Except.ok.inj framed]
            rfl
          · exact absurd framed (by simp)
        rw [List.map_cons, List.map_cons, about, subscribes]

/-- Frames that subscribe channels. -/
theorem lastTopic_subscribes {frames : List Frame} {channels : List String}
    (subscribes : frames.map topic = channels.map fun c => some (c, true)) (c : String) :
    lastTopic c frames = if c ∈ channels then some true else none := by
  induction channels generalizing frames with
  | nil =>
    rw [List.map_eq_nil_iff.mp subscribes]
    rfl
  | cons channel rest ih =>
    cases frames with
    | nil => exact absurd subscribes (by simp)
    | cons frame frames =>
      obtain ⟨first, others⟩ := List.cons.inj subscribes
      have alone : lastTopic c [frame] = if channel = c then some true else none := by
        unfold lastTopic
        rw [List.filterMap_cons_some first]
        rfl
      rw [← List.singleton_append, lastTopic_append, ih others, alone]
      by_cases later : c ∈ rest
      · simp [later]
      · by_cases here : channel = c
        · subst here
          simp [later]
        · simp [later, here, Ne.symm here]

/-- A flush that takes effect on a connection, in time and with every frame built, moves
the pending channels. -/
theorem Lists.flushTopics (h : Lists s) (provider : String → Token) :
    Lists (s.flushTopics provider).1 ∧
      (s.flushTopics provider).1.connected = s.connected := by
  unfold State.flushTopics
  split
  · exact ⟨h, rfl⟩
  · obtain ⟨outboundQueue, writeInFlight, ops, trace, eq⟩ := enqueueTopics_eq provider s.pendingTopics
      { s with subscriptions := s.subscriptions ++ s.pendingTopics, pendingTopics := [] }
    rw [eq]
    refine ⟨⟨?_, h.opened, h.unclosed⟩, rfl⟩
    rw [List.append_nil]
    exact h.nodup

/-- A timely flush that builds all its frames keeps the agreement, and nothing is pending. -/
theorem Topics.flushTopics {provider : String → Token} (lists : Lists s)
    (subscribed : ∀ c ∈ s.subscriptions, lastTopic c (given s) = some true ∧ ¬Owed s (.unsubscribe c))
    (dropped : ∀ c ∉ s.subscriptions, lastTopic c (given s) = some true → Owed s (.unsubscribe c))
    (link : Link s) (up : s.connected = true) (ready : s.ready = true) (timely : Timely s)
    (built : refusal provider s.pendingTopics = none) : Topics (s.flushTopics provider).1 := by
  have kept := (lists.flushTopics provider).1
  have effective : ¬((!s.connected || !s.ready) = true) := by
    simp [up, ready]
  have moved : Link { s with
      subscriptions := s.subscriptions ++ s.pendingTopics, pendingTopics := [] } :=
    link.frame (fun down => absurd (up.symm.trans down) (by simp)) link.callers
  obtain ⟨frames, given_eq, subscribes⟩ := given_enqueueTopics provider built moved up
  have told : ∀ c, lastTopic c (given (State.enqueueTopics provider s.pendingTopics { s with
      subscriptions := s.subscriptions ++ s.pendingTopics, pendingTopics := [] }).1) =
        if c ∈ s.pendingTopics then some true else lastTopic c (given s) := by
    intro c
    have before : given { s with
        subscriptions := s.subscriptions ++ s.pendingTopics, pendingTopics := [] } = given s := rfl
    rw [given_eq, lastTopic_append, lastTopic_subscribes subscribes, before]
    split <;> rfl
  obtain ⟨outboundQueue, writeInFlight, ops, trace, eq⟩ := enqueueTopics_eq provider s.pendingTopics
    { s with subscriptions := s.subscriptions ++ s.pendingTopics, pendingTopics := [] }
  unfold State.flushTopics at kept ⊢
  rw [if_neg effective] at kept ⊢
  rw [eq] at kept told ⊢
  refine ⟨kept, fun _ c member => ?_, fun _ c outside subscribes => ?_,
    fun _ _ left => absurd rfl left⟩
  · rw [told c]
    rcases List.mem_append.mp member with old | new
    · split
      · exact ⟨rfl, (subscribed c old).2⟩
      · exact subscribed c old
    · rw [if_pos new]
      exact ⟨rfl, timely c new⟩
  · rw [told c] at subscribes
    have neither := outside
    rw [List.mem_append, not_or] at neither
    rw [if_neg neither.2] at subscribes
    exact dropped c neither.1 subscribes

/-! ## Posted handlers -/

theorem owed_take {handler other : Posted} {rest : List Posted} (posted : s.posted = handler :: rest)
    (differs : other ≠ handler) : Owed { s with posted := rest } other ↔ Owed s other := by
  unfold Owed
  rw [posted, List.mem_cons, or_iff_right differs]

theorem Lists.take (h : Lists s) {handler : Posted} {rest : List Posted}
    (posted : s.posted = handler :: rest) : Lists { s with posted := rest } := by
  refine ⟨h.nodup, h.opened, ?_⟩
  rintro (among | owed)
  · exact h.unclosed (Or.inl (posted ▸ List.mem_cons_of_mem _ among))
  · exact h.unclosed (Or.inr owed)

/-- The frame of an unsubscribe handler: the channel is not subscribed, or it was owed no
unsubscribe. -/
theorem Topics.sendUnsubscribe (h : Topics s) {channel : String} {rest : List Posted}
    (posted : s.posted = .unsubscribe channel :: rest)
    (up : s.connected = true) :
    Topics ({ s with posted := rest }.enqueueOp (.unsubscribe channel)) := by
  have absent : channel ∉ s.subscriptions := by
    intro member
    exact (h.subscribed up channel member).2 (Or.inl (posted ▸ List.mem_cons_self))
  have told : ∀ c, lastTopic c (given ({ s with posted := rest }.enqueueOp (.unsubscribe channel))) =
      if channel = c then some false else lastTopic c (given s) := by
    intro c
    have frames : given { s with posted := rest } = given s := rfl
    rw [given_enqueueOp, lastTopic_append, lastTopic_unsubscribe, frames]
    split <;> rfl
  have kept := h.toLists.take posted
  refine ⟨⟨kept.nodup, kept.opened, kept.unclosed⟩, fun _ c member => ?_,
    fun _ c outside subscribes => ?_, fun _ ready left => ?_⟩
  · have differs : channel ≠ c := by
      intro here
      exact absent (here ▸ member)
    have before := h.subscribed up c member
    rw [told c, if_neg differs]
    refine ⟨before.1, fun owed => before.2 ?_⟩
    rcases owed with among | owed
    · exact Or.inl (posted ▸ List.mem_cons_of_mem _ among)
    · exact Or.inr owed
  · rw [told c] at subscribes
    split at subscribes
    · exact absurd subscribes (by simp)
    · rename_i differs
      have other : Posted.unsubscribe c ≠ .unsubscribe channel := by
        intro same
        exact differs (Posted.unsubscribe.inj same).symm
      exact (owed_take posted other).mpr (h.dropped up c outside subscribes)
  · exact (owed_take posted (by simp)).mpr (h.due up ready left)

theorem Lists.startConnect (h : Lists s) : Lists s.startConnect := by
  unfold State.startConnect
  split
  · exact h
  · exact ⟨h.nodup, h.opened, h.unclosed⟩

theorem startConnect_down (down : s.connected = false) : s.startConnect.connected = false := by
  unfold State.startConnect
  split
  · exact down
  · rfl

theorem Topics.runPosted (h : Topics s) (link : Link s) {provider : String → Token}
    (orderly : Orderly s (.execute provider)) (taken : runPosted s provider = some s') :
    Topics s' := by
  unfold WsSession.runPosted at taken
  split at taken
  · exact absurd taken (by simp)
  · rename_i handler rest posted
    have taken_off := h.toLists.take posted
    have linked := (link.take posted).1
    dsimp only at taken
    split at taken
    · have idle := (link.starting (posted ▸ List.mem_cons_self)).2
      rw [← Option.some.inj taken]
      exact taken_off.startConnect.of_down (startConnect_down idle.2.1)
    · rw [← Option.some.inj taken]
      by_cases effective : s.connected = true ∧ s.ready = true
      · obtain ⟨up, ready⟩ := effective
        obtain ⟨timely, built⟩ := orderly (by simp [posted]) up ready
        have owed : ∀ c, Owed { s with posted := rest } (.unsubscribe c) ↔ Owed s (.unsubscribe c) :=
          fun c => owed_take posted (by simp)
        apply Topics.flushTopics taken_off _ _ linked up ready _ built
        · intro c member
          rw [owed]
          exact h.subscribed up c member
        · intro c outside subscribes
          rw [owed]
          exact h.dropped up c outside subscribes
        · intro c member
          rw [owed]
          exact timely c member
      · have idle : ({ s with posted := rest }.flushTopics provider).1 = { s with posted := rest } := by
          unfold State.flushTopics
          rw [if_pos]
          · simpa [imp_iff_not_or] using effective
        rw [idle]
        refine ⟨taken_off, fun up c member => ?_, fun up c outside subscribes => ?_, fun up ready => ?_⟩
        · rw [owed_take posted (by simp)]
          exact h.subscribed up c member
        · rw [owed_take posted (by simp)]
          exact h.dropped up c outside subscribes
        · exact absurd ⟨up, ready⟩ effective
    · rename_i channel
      rw [← Option.some.inj taken]
      split
      · rename_i up
        have sent := h.sendUnsubscribe posted up
        exact (still_pump (linked.enqueue (Or.inr up))).topics sent
      · rename_i down
        exact taken_off.of_down (Bool.not_eq_true _ ▸ down)
    · exact absurd (Or.inl (posted ▸ List.mem_cons_self)) h.unclosed

/-! ## Messages -/

theorem flushTopics_refusal (provider : String → Token) (up : s.connected = true)
    (ready : s.ready = true) : (s.flushTopics provider).2 = refusal provider s.pendingTopics := by
  unfold State.flushTopics
  rw [if_neg (by simp [up, ready])]
  exact enqueueTopics_refusal provider _ _

/-- A message keeps the agreement, or ends in an exception that the read catches. -/
theorem Topics.dispatch (h : Topics s) (link : Link s) (settled : Settled s) {json : Json}
    {provider : String → Token}
    (orderly : textOf json "type" = "connected" → s.connected = true →
      refusal provider s.pendingTopics = some true ∨
        Timely s ∧ refusal provider s.pendingTopics = none) :
    Topics (s.dispatch json provider).1 ∨
      (s.dispatch json provider).2 = some true ∧ Lists (s.dispatch json provider).1 := by
  unfold State.dispatch
  dsimp only
  split
  · rename_i greeting
    have lists : Lists { s.log (.greeted s.generation) with
        ready := true, connectedFlag := true, reconnectDelayS := 1 } :=
      ⟨h.nodup, h.opened, h.unclosed⟩
    have greeted := link.greet settled
    obtain ⟨kept, same⟩ := lists.flushTopics provider
    by_cases up : s.connected = true
    · rcases orderly greeting up with thrown | ⟨timely, built⟩
      · refine Or.inr ⟨?_, kept⟩
        rw [← thrown]
        exact flushTopics_refusal provider up rfl
      · exact Or.inl
          (Topics.flushTopics lists (h.subscribed up) (h.dropped up) greeted up rfl timely built)
    · exact Or.inl (kept.of_down (same.trans (Bool.not_eq_true _ ▸ up)))
  · split
    · have pong : Link (s.enqueueOp .pong) := link.enqueue (Or.inl rfl)
      exact Or.inl ((still_enqueueOp rfl).trans (still_pump pong) |>.topics h)
    · exact Or.inl h

theorem given_readOn (s : State) (gen : Nat) : given (s.readOn gen) = given s := by
  unfold State.readOn
  split
  · rfl
  · exact given_launch _ (by simp)

theorem still_readOn (s : State) (gen : Nat) : Still s (s.readOn gen) := by
  have same := given_readOn s gen
  unfold State.readOn at same ⊢
  split
  · exact still_frame rfl
  · rename_i reads
    rw [if_neg reads] at same
    exact still_frame same

theorem Topics.onRead (h : Topics s) (link : Link s) (settled : Settled s)
    {result : State.ReadResult} {provider : String → Token}
    (orderly : ∀ json, result = .message json → json.isObject = true →
      textOf json "type" = "connected" → s.connected = true →
        refusal provider s.pendingTopics = some true ∨
          Timely s ∧ refusal provider s.pendingTopics = none) :
    Topics (s.onRead s.generation result provider) := by
  cases result with
  | error => exact h.handleError _
  | unparsable => exact h.handleError _
  | message json =>
    have handled : Topics (if json.isObject then s.dispatch json provider else (s, none)).1 ∨
        (if json.isObject then s.dispatch json provider else (s, none)).2 = some true ∧
          Lists (if json.isObject then s.dispatch json provider else (s, none)).1 := by
      split
      · rename_i is_object
        exact h.dispatch link settled (orderly json rfl is_object)
      · exact Or.inl h
    have linked : Link (if json.isObject then s.dispatch json provider else (s, none)).1 ∧
        Stays s (if json.isObject then s.dispatch json provider else (s, none)).1 := by
      split
      · exact link.dispatch settled json provider
      · exact ⟨link, .refl s⟩
    unfold State.onRead
    dsimp only
    split
    · rename_i after eq
      rw [eq] at handled
      rcases handled with topics | ⟨thrown, _⟩
      · exact (still_readOn after _).topics topics
      · exact absurd thrown (by simp)
    · rename_i after eq
      rw [eq] at handled linked
      rcases handled with topics | ⟨_, lists⟩
      · exact topics.handleError _
      · apply (lists.handleError _).of_down
        have current : after.generation = s.generation := linked.2.generation
        rw [← current]
        exact handleError_down lists.opened linked.1.scheduled
    · rename_i after eq
      rw [eq] at handled
      rcases handled with topics | ⟨thrown, _⟩
      · exact topics
      · exact absurd thrown (by simp)

/-! ## The connection -/

/-- A connection comes up with nothing subscribed and nothing given. -/
theorem Topics.onHandshake (h : Topics s) (link : Link s) (vacant : Vacant s) :
    Topics (s.onHandshake s.generation) := by
  have opened : ¬s.userClosed = true := by
    simp [h.opened]
  unfold State.onHandshake
  dsimp only
  split
  · rename_i closed
    exact absurd closed opened
  · have up : Topics { s.log (.handshake s.generation) with wsOpen := true, connected := true } := by
      have nothing : ∀ c, lastTopic c (given { s.log (.handshake s.generation) with
          wsOpen := true, connected := true }) = none := by
        intro c
        have unwritten : writtenOn { s.log (.handshake s.generation) with
            wsOpen := true, connected := true } = [] := by
          unfold writtenOn
          rw [List.reverse_eq_nil_iff, List.filterMap_eq_nil_iff]
          exact fun w member => if_neg (vacant.written w member)
        have idle : inflight { s.log (.handshake s.generation) with
            wsOpen := true, connected := true } = [] := inflight_eq_nil vacant.ops
        have plain : s.outboundQueue.filterMap topic = [] :=
          List.filterMap_eq_nil_iff.mpr (link.down vacant.connected).2
        have queue : (s.log (.handshake s.generation)).outboundQueue = s.outboundQueue := rfl
        unfold given lastTopic
        rw [unwritten, idle, List.nil_append, List.nil_append, queue, plain]
        rfl
      refine ⟨⟨h.nodup, h.opened, h.unclosed⟩, fun _ c member => ?_, fun _ c _ subscribes => ?_,
        fun _ ready => ?_⟩
      · have nothing_subscribed := (link.down vacant.connected).1
        exact absurd (nothing_subscribed ▸ member) List.not_mem_nil
      · rw [nothing c] at subscribes
        exact absurd subscribes (by simp)
      · exact absurd (ready.symm.trans vacant.ready) (by simp)
    apply Still.topics _ up
    exact (still_launch _ (by simp)).trans (still_launch _ (by simp))

theorem Topics.onPingTimer (h : Topics s) (link : Link s) (ok silent : Bool) :
    Topics (s.onPingTimer s.generation ok silent) := by
  unfold State.onPingTimer
  split
  · exact h
  · split
    · exact h.handleError _
    · split
      · have ping : Link (s.enqueueOp .ping) := link.enqueue (Or.inl rfl)
        have pinged := (still_enqueueOp rfl).trans (still_pump ping)
        exact (pinged.trans (still_launch _ (by simp))).topics h
      · exact (still_launch _ (by simp)).topics h

theorem Lists.onReconnectTimer (h : Lists s) (down : s.connected = false) (ok : Bool) :
    Topics (s.onReconnectTimer ok) := by
  have idle : Lists { s with reconnectScheduled := false } := ⟨h.nodup, h.opened, h.unclosed⟩
  unfold State.onReconnectTimer
  dsimp only
  split
  · exact idle.of_down down
  · exact idle.startConnect.of_down (startConnect_down down)

/-- The frame in flight is written. -/
theorem still_written (link : Link s) {frame : Frame}
    (member : Op.write s.generation frame ∈ s.ops) :
    Still s { s.log (.written s.generation frame) with
      writeInFlight := false, ops := s.ops.erase (.write s.generation frame) } := by
  refine ⟨rfl, rfl, rfl, rfl, rfl, rfl, rfl, fun up c => ?_⟩
  obtain ⟨before, after⟩ := inflight_of_write link member rfl up
  have idle : inflight { s.log (.written s.generation frame) with
      writeInFlight := false, ops := s.ops.erase (.write s.generation frame) } = [] := after
  have logged : writtenOn { s.log (.written s.generation frame) with
      writeInFlight := false, ops := s.ops.erase (.write s.generation frame) } =
        writtenOn s ++ [frame] := by
    unfold writtenOn
    rw [← List.reverse_cons]
    congr 1
    exact List.filterMap_cons_some (if_pos rfl)
  unfold given
  rw [idle, before, logged, List.append_nil]
  rfl

/-- A frame of an older connection is written. -/
theorem still_written_late {gen : Nat} {frame : Frame} (other : gen ≠ s.generation) :
    Still s { s.log (.written gen frame) with ops := s.ops.erase (.write gen frame) } := by
  have same : given (s.log (.written gen frame)) = given s := by
    have earlier : writtenOn (s.log (.written gen frame)) = writtenOn s := by
      unfold writtenOn
      congr 1
      exact List.filterMap_cons_none (if_neg other)
    unfold given
    rw [earlier]
    rfl
  have past : Still s (s.log (.written gen frame)) := still_frame same
  exact past.trans (still_drop (s.log (.written gen frame))
    fun other_frame here => other (Op.write.inj here).1)

theorem Topics.writeDone (h : Topics s) (link : Link s) {gen : Nat} {frame : Frame} {ok : Bool}
    (taken : step s (.writeDone gen frame ok) = some s') : Topics s' := by
  cases ok with
  | true =>
    simp only [step, if_true] at taken
    obtain ⟨member, ⟨current, rfl⟩ | ⟨past, rfl⟩⟩ := complete_spec taken
    · have same : gen = s.generation := current
      subst same
      have idle := ((link.log member).drop (.write s.generation frame)).idle fun up =>
        (inflight_of_write link member rfl up).2
      exact ((still_written link member).trans (still_pump idle)).topics h
    · have late : Still s { s.log (.written gen frame) with
          ops := s.ops.erase (.write gen frame) } := still_written_late past
      exact late.topics h
  | false =>
    simp only [step, Bool.false_eq_true, if_false] at taken
    obtain ⟨member, ⟨current, rfl⟩ | ⟨past, rfl⟩⟩ := complete_spec taken
    · have same : gen = s.generation := current
      subst same
      have idle : Lists { s with
          writeInFlight := false, ops := s.ops.erase (.write s.generation frame) } :=
        ⟨h.nodup, h.opened, h.unclosed⟩
      exact (idle.handleError _).of_down (handleError_down h.opened link.scheduled)
    · have other : gen ≠ s.generation := past
      exact (still_drop s fun other_frame here => other (Op.write.inj here).1).topics h

/-! ## Callers -/

theorem Topics.subscribe (h : Topics s) {channel : String}
    (taken : step s (.subscribe channel) = some s') : Topics s' := by
  obtain rfl := subscribe_spec taken
  have owed : ∀ c, Owed { s with calls := .flushTopics :: s.calls } (.unsubscribe c) ↔
      Owed s (.unsubscribe c) := by
    simp [Owed]
  have called : Topics { s with calls := .flushTopics :: s.calls } := by
    refine ⟨⟨h.nodup, h.opened, ?_⟩, fun up c member => ?_, fun up c outside subscribes => ?_, ?_⟩
    · have unclosed := h.unclosed
      simp only [Owed, List.mem_cons] at unclosed ⊢
      simpa using unclosed
    · rw [owed]
      exact h.subscribed up c member
    · rw [owed]
      exact h.dropped up c outside subscribes
    · exact fun _ _ _ => Or.inr List.mem_cons_self
  split
  · exact called
  · rename_i fresh
    refine ⟨⟨?_, called.opened, called.unclosed⟩, called.subscribed, called.dropped, ?_⟩
    · dsimp only
      rw [← List.append_assoc]
      refine List.nodup_append.mpr ⟨h.nodup, by simp, ?_⟩
      intro c old c' new same
      rw [List.mem_singleton.mp new] at same
      subst same
      exact fresh (List.mem_append.mp old)
    · exact fun _ _ _ => Or.inr List.mem_cons_self

/-- A channel leaves the lists; a subscribed one is owed an unsubscribe. -/
theorem Topics.unsubscribe (h : Topics s) {channel : String}
    (taken : step s (.unsubscribe channel) = some s') : Topics s' := by
  have fewer : (s.pendingTopics.filter (· ≠ channel)).Sublist s.pendingTopics := List.filter_sublist
  have left : s.pendingTopics.filter (· ≠ channel) ≠ [] → s.pendingTopics ≠ [] := by
    intro some_left none_before
    exact some_left (by simp [none_before])
  rcases unsubscribe_spec taken with ⟨member, rfl⟩ | ⟨_, rfl⟩
  · have once : s.subscriptions.Nodup := (List.nodup_append.mp h.nodup).1
    refine ⟨⟨?_, h.opened, ?_⟩, fun up c subscribed => ?_, fun up c outside subscribes => ?_,
      fun up ready some_left => ?_⟩
    · exact h.nodup.sublist ((List.erase_sublist).append fewer)
    · have unclosed := h.unclosed
      simp only [Owed, List.mem_cons] at unclosed ⊢
      simpa using unclosed
    · have differs : c ≠ channel := ((once.mem_erase_iff).mp subscribed).1
      have before := h.subscribed up c (List.mem_of_mem_erase subscribed)
      refine ⟨before.1, fun owed => before.2 ?_⟩
      rcases owed with posted | called
      · exact Or.inl posted
      · rcases List.mem_cons.mp called with here | old
        · exact absurd (Posted.unsubscribe.inj here) differs
        · exact Or.inr old
    · by_cases same : c = channel
      · exact Or.inr (same ▸ List.mem_cons_self)
      · have absent : c ∉ s.subscriptions := by
          intro old
          exact outside ((List.mem_erase_of_ne same).mpr old)
        rcases h.dropped up c absent subscribes with posted | called
        · exact Or.inl posted
        · exact Or.inr (List.mem_cons_of_mem _ called)
    · rcases h.due up ready (left some_left) with posted | called
      · exact Or.inl posted
      · exact Or.inr (List.mem_cons_of_mem _ called)
  · exact ⟨⟨h.nodup.sublist ((List.Sublist.refl _).append fewer), h.opened, h.unclosed⟩,
      h.subscribed, h.dropped, fun up ready some_left => h.due up ready (left some_left)⟩

theorem owed_post {handler other : Posted} (member : handler ∈ s.calls) :
    Owed { s with posted := s.posted ++ [handler], calls := s.calls.erase handler } other ↔
      Owed s other := by
  unfold Owed
  dsimp only
  rw [List.mem_append, List.mem_singleton, or_assoc]
  apply or_congr_right
  by_cases same : other = handler
  · simp [same, member]
  · simp [same, List.mem_erase_of_ne same]

theorem Topics.post (h : Topics s) {handler : Posted} (member : handler ∈ s.calls) :
    Topics { s with posted := s.posted ++ [handler], calls := s.calls.erase handler } where
  nodup := h.nodup
  opened := h.opened
  unclosed owed := h.unclosed ((owed_post member).mp owed)
  subscribed up c subscribed := by
    rw [owed_post member]
    exact h.subscribed up c subscribed
  dropped up c outside subscribes := (owed_post member).mpr (h.dropped up c outside subscribes)
  due up ready left := (owed_post member).mpr (h.due up ready left)

/-! ## Every step -/

theorem Topics.chainDone (h : Topics s) (op next : Op) (ok : Bool) (is_chain : op.isChain = true)
    (then_chain : next.isChain = true)
    (taken : s.complete op (fun s => if ok then s.launch next else s.handleError op.gen) = some s') :
    Topics s' := by
  have dropped : Topics { s with ops := s.ops.erase op } := by
    apply (still_drop s fun frame here => ?_).topics h
    rw [here] at is_chain
    exact absurd is_chain (by simp [Op.isChain])
  obtain ⟨_, ⟨_, rfl⟩ | ⟨_, rfl⟩⟩ := complete_spec taken
  · split
    · apply (still_launch _ fun gen frame here => ?_).topics dropped
      rw [here] at then_chain
      exact absurd then_chain (by simp [Op.isChain])
    · exact dropped.handleError _
  · exact dropped

theorem Topics.step {a : Action} (h : Topics s) (link : Link s) (orderly : Orderly s a)
    (taken : step s a = some s') : Topics s' := by
  cases a with
  | subscribe channel => exact h.subscribe taken
  | unsubscribe channel => exact h.unsubscribe taken
  | post handler =>
    obtain ⟨owed, rfl⟩ := post_spec taken
    exact h.post owed
  | close => exact orderly.elim
  | execute provider => exact h.runPosted link orderly taken
  | streamFails =>
    obtain rfl := Option.some.inj taken
    have still : Still s { s with wsOpen := false } := still_frame rfl
    exact still.topics h
  | resolved gen ok => exact h.chainDone (.resolve gen) (.connect gen) ok rfl rfl taken
  | tcpConnected gen ok sni =>
    exact h.chainDone (.connect gen) (.tlsHandshake gen) (ok && sni) rfl rfl taken
  | tlsDone gen ok => exact h.chainDone (.tlsHandshake gen) (.wsHandshake gen) ok rfl rfl taken
  | wsDone gen ok =>
    simp only [WsSession.step] at taken
    have dropped := (still_drop s fun frame => (by simp : Op.wsHandshake gen ≠ _)).topics h
    obtain ⟨member, ⟨current, rfl⟩ | ⟨_, rfl⟩⟩ := complete_spec taken
    · have same : gen = s.generation := current
      subst same
      split
      · exact dropped.onHandshake (link.drop _) (link.vacant_of_member member rfl rfl).1
      · exact dropped.handleError _
    · exact dropped
  | readDone gen result provider =>
    simp only [WsSession.step] at taken
    have dropped := (still_drop s fun frame => (by simp : Op.read gen ≠ _)).topics h
    obtain ⟨member, ⟨current, rfl⟩ | ⟨_, rfl⟩⟩ := complete_spec taken
    · have same : gen = s.generation := current
      subst same
      apply dropped.onRead (link.drop _) (link.settled_of_member member rfl rfl)
      intro json here
      subst here
      exact orderly rfl
    · exact dropped
  | writeDone gen frame ok => exact h.writeDone link taken
  | pingFired gen ok silent =>
    simp only [WsSession.step] at taken
    have dropped := (still_drop s fun frame => (by simp : Op.pingWait gen ≠ _)).topics h
    obtain ⟨member, ⟨current, rfl⟩ | ⟨_, rfl⟩⟩ := complete_spec taken
    · have same : gen = s.generation := current
      subst same
      exact dropped.onPingTimer (link.drop _) ok silent
    · exact dropped
  | reconnectFired gen seconds ok =>
    simp only [WsSession.step] at taken
    have dropped := (still_drop s fun frame => (by simp : Op.reconnectWait gen seconds ≠ _)).topics h
    obtain ⟨member, ⟨current, rfl⟩ | ⟨_, rfl⟩⟩ := complete_spec taken
    · have same : gen = s.generation := current
      subst same
      exact dropped.toLists.onReconnectTimer (link.waits seconds member) ok
    · exact dropped

/-! ## Every run -/

/-- On a quiet connection everything given is written, and nothing is owed. -/
theorem Topics.agrees (h : Topics s) (link : Link s) (quiet : Quiet s) : Agrees s := by
  have unowed : ∀ handler, ¬Owed s handler := by
    intro handler
    unfold Owed
    rw [quiet.posted, quiet.calls]
    simp
  have all_written : given s = writtenOn s := by
    unfold given
    rw [(link.writes quiet.connected).2 quiet.idle, quiet.queue, List.append_nil, List.append_nil]
  refine ⟨?_, fun c => ⟨fun member => ?_, fun subscribes => ?_⟩⟩
  · by_contra left
    exact unowed _ (h.due quiet.connected quiet.ready left)
  · rw [← all_written]
    exact (h.subscribed quiet.connected c member).1
  · rw [← all_written] at subscribes
    by_contra absent
    exact unowed _ (h.dropped quiet.connected c absent subscribes)

/-- In every orderly run, the lists agree with the wire whenever the connection is quiet. -/
theorem wire_agrees {actions : List Action} (orderly : Meets step Orderly State.start actions)
    (reached : run step State.start actions = some s) (quiet : Quiet s) : Agrees s := by
  have kept : Link s ∧ Topics s := by
    apply run_invariant_of_meets _ ⟨link_start, topics_start⟩ orderly reached
    intro before a after kept meets taken
    exact ⟨kept.1.step taken, kept.2.step kept.1 meets taken⟩
  exact kept.2.agrees kept.1 quiet

/-! ## A late unsubscribe -/

def plainTokens (_ : String) : Token := .text ""

/-- The greeting of the venue. -/
def greeting : Json := .obj [("type", .str "connected")]

/-- The session connects and is greeted. -/
def connecting : List Action :=
  [.execute plainTokens, .resolved 1 true, .tcpConnected 1 true true, .tlsDone 1 true,
    .wsDone 1 true, .readDone 1 (.message greeting) plainTokens]

/-- A channel is subscribed, and the frame written. -/
def subscribing (channel : String) : List Action :=
  [.subscribe channel, .post .flushTopics, .execute plainTokens,
    .writeDone 1 (.subscribe channel none) true]

/-- Another caller's flush is posted first; then a channel is dropped and subscribed
again, and all three handlers run in the order they were posted. -/
def resubscribing : List Action :=
  [.subscribe "order_book/1", .post .flushTopics,
    .unsubscribe "order_book/0", .post (.unsubscribe "order_book/0"),
    .subscribe "order_book/0", .post .flushTopics,
    .execute plainTokens, .execute plainTokens, .execute plainTokens,
    .writeDone 1 (.subscribe "order_book/1" none) true,
    .writeDone 1 (.subscribe "order_book/0" none) true,
    .writeDone 1 (.unsubscribe "order_book/0") true]

instance (s : State) : Decidable (Quiet s) :=
  decidable_of_iff (s.connected = true ∧ s.ready = true ∧ s.posted = [] ∧ s.calls = [] ∧
    s.outboundQueue = [] ∧ s.writeInFlight = false)
    ⟨fun ⟨connected, ready, posted, calls, queue, idle⟩ =>
      ⟨connected, ready, posted, calls, queue, idle⟩,
    fun quiet => ⟨quiet.connected, quiet.ready, quiet.posted, quiet.calls, quiet.queue, quiet.idle⟩⟩

theorem wire_agrees_sample :
    ∃ s, run step State.start (connecting ++ subscribing "order_book/0") = some s ∧
      (Quiet s ∧ s.subscriptions = ["order_book/0"]) ∧ Agrees s := by
  have orderly : Meets step Orderly State.start (connecting ++ subscribing "order_book/0") := by
    decide +kernel
  obtain ⟨s, reached, quiet, subscribed⟩ : ∃ s,
      run step State.start (connecting ++ subscribing "order_book/0") = some s ∧
        (Quiet s ∧ s.subscriptions = ["order_book/0"]) :=
    exists_run (by decide +kernel)
  exact ⟨s, reached, ⟨quiet, subscribed⟩, wire_agrees orderly reached quiet⟩

/-- The flush of another caller subscribes the channel before its unsubscribe is sent:
subscribed in the lists, unsubscribed on the wire, and nothing left to do. -/
theorem late_unsubscribe_disagrees : ¬∀ (actions : List Action) (s : State),
    (∀ a ∈ actions, a ≠ .close) → run step State.start actions = some s → Quiet s → Agrees s := by
  intro agreement
  have lost : ∃ s, run step State.start
      (connecting ++ subscribing "order_book/0" ++ resubscribing) = some s ∧
      (Quiet s ∧ "order_book/0" ∈ s.subscriptions ∧
        lastTopic "order_book/0" (writtenOn s) = some false) :=
    exists_run (by decide +kernel)
  obtain ⟨s, reached, quiet, member, unsubscribed⟩ := lost
  have agrees := agreement _ s (by simp [connecting, subscribing, resubscribing]) reached quiet
  rw [(agrees.channels "order_book/0").mp member] at unsubscribed
  exact absurd unsubscribed (by simp)

end LighterApi.Guarantees.WireAgreement

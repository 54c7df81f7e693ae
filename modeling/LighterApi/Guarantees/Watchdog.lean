import LighterApi.Guarantees.SessionLink
import LighterApi.Source.SessionClock

/-!
# The watchdog in time

Every fifteen seconds the ping timer looks at the last activity and, once the venue has
greeted, queues a keepalive. If its handler runs no later than some delay after it is due,
a connection that the session keeps was active within the last 61 seconds and that delay,
one that the watchdog gives up was silent for 46 seconds, and the venue is handed a frame
within fifteen seconds and the delay, unless a write is stuck (`watchdog_bounds`).
-/
namespace LighterApi.Guarantees.Watchdog
open LighterApi.Library.Transition
open LighterApi.Source LighterApi.Source.WsSession LighterApi.Source.SessionClock SessionLink

/-- A frame waits behind the one that is being written. -/
def Backlog (s : WsSession.State) : Prop := s.writeInFlight = true ∧ s.outboundQueue ≠ []

/-- A handler that leaves the connection and its ping wait as they are, or takes the
connection down. Unless it hands a frame to the socket, or greets, it keeps a backlog. -/
structure Quiet (s s' : WsSession.State) : Prop where
  up : s'.connected = true → s.connected = true ∧ s'.generation = s.generation
  closed : s'.userClosed = false → s.userClosed = false
  waits : s'.connected = true → .pingWait s.generation ∈ s.ops → .pingWait s.generation ∈ s'.ops
  fed : ∃ events, s'.trace = events ++ s.trace ∧ (events.any handsOver = true ∨
    (s'.connected = true → s'.userClosed = false → s'.ready = true → s'.wsOpen = true →
      s.ready = true ∧ s.wsOpen = true ∧ (Backlog s → Backlog s')))

variable {s s' s'' : WsSession.State}

theorem Quiet.refl (s : WsSession.State) : Quiet s s where
  up up := ⟨up, rfl⟩
  closed opened := opened
  waits _ member := member
  fed := ⟨[], rfl, Or.inr fun _ _ ready opened => ⟨ready, opened, id⟩⟩

theorem Quiet.trans (first : Quiet s s') (second : Quiet s' s'') : Quiet s s'' where
  up up := by
    obtain ⟨up', same'⟩ := second.up up
    obtain ⟨up, same⟩ := first.up up'
    exact ⟨up, same'.trans same⟩
  closed opened := first.closed (second.closed opened)
  waits up member := by
    obtain ⟨up', same'⟩ := second.up up
    have kept := first.waits up' member
    rw [← (first.up up').2] at kept ⊢
    exact second.waits up kept
  fed := by
    obtain ⟨events, noted, fed⟩ := first.fed
    obtain ⟨events', noted', fed'⟩ := second.fed
    refine ⟨events' ++ events, by rw [noted', noted, List.append_assoc], ?_⟩
    rw [List.any_append, Bool.or_eq_true]
    rcases fed' with handed | kept'
    · exact Or.inl (Or.inl handed)
    · rcases fed with handed | kept
      · exact Or.inl (Or.inr handed)
      · refine Or.inr fun up unclosed ready opened => ?_
        obtain ⟨ready', opened', later⟩ := kept' up unclosed ready opened
        obtain ⟨ready, opened, sooner⟩ := kept (second.up up).1 (second.closed unclosed) ready' opened'
        exact ⟨ready, opened, fun backlog => later (sooner backlog)⟩

/-- The connection is down afterwards. -/
theorem Quiet.down (down : s'.connected = false)
    (closed : s'.userClosed = false → s.userClosed = false)
    (noted : ∃ events, s'.trace = events ++ s.trace) : Quiet s s' where
  up up := absurd (up.symm.trans down) (by simp)
  closed := closed
  waits up := absurd (up.symm.trans down) (by simp)
  fed := by
    obtain ⟨events, noted⟩ := noted
    exact ⟨events, noted, Or.inr fun up => absurd (up.symm.trans down) (by simp)⟩

/-- The topic lists, the delay and what is posted may change. -/
theorem quiet_frame (s : WsSession.State) {subscriptions pendingTopics : List String}
    {reconnectDelayS : Nat} {posted calls : List Posted} :
    Quiet s { s with subscriptions, pendingTopics, reconnectDelayS, posted, calls } where
  up up := ⟨up, rfl⟩
  closed opened := opened
  waits _ member := member
  fed := ⟨[], rfl, Or.inr fun _ _ ready opened => ⟨ready, opened, id⟩⟩

/-! ## Handlers -/

theorem quiet_enqueue (s : WsSession.State) (frame : Frame) : Quiet s (s.enqueueOp frame) where
  up up := ⟨up, rfl⟩
  closed opened := opened
  waits _ member := member
  fed := by
    refine ⟨[.enqueued frame], rfl, Or.inr fun _ _ ready opened => ⟨ready, opened, fun backlog => ?_⟩⟩
    exact ⟨backlog.1, List.append_ne_nil_of_left_ne_nil backlog.2 _⟩

theorem quiet_pump (s : WsSession.State) : Quiet s s.pump := by
  rcases pump_cases s with same | ⟨frame, rest, _, _, _, written⟩
  · rw [same]
    exact Quiet.refl s
  · rw [written]
    exact ⟨fun up => ⟨up, rfl⟩, id, fun _ member => List.mem_cons_of_mem _ member,
      [.started (.write s.generation frame)], rfl, Or.inl rfl⟩

/-- A pump that is free to write does so. -/
theorem pump_free {frame : Frame} {rest : List Frame} (idle : s.writeInFlight = false)
    (up : s.connected = true) (stream : s.wsOpen = true) (queue : s.outboundQueue = frame :: rest) :
    s.pump.writeInFlight = true := by
  simp [State.pump, idle, up, stream, queue, State.launch, State.log]

theorem quiet_flushTopics (s : WsSession.State) (provider : String → Token) :
    Quiet s (s.flushTopics provider).1 :=
  flushTopics_relates Quiet.refl Quiet.trans (fun s => quiet_frame s) quiet_enqueue quiet_pump s provider

theorem quiet_handleError (s : WsSession.State) (gen : Nat) : Quiet s (s.handleError gen) := by
  rcases handleError_cases s gen with ⟨same, _⟩ | ⟨_, _, ⟨failed, _⟩ | ⟨_, lost⟩⟩
  · rw [same]
    exact Quiet.refl s
  · rw [failed]
    exact ⟨fun up => ⟨up, rfl⟩, id, fun _ member => member, [.failed gen], rfl,
      Or.inr fun _ _ ready opened => ⟨ready, opened, id⟩⟩
  · rw [lost]
    exact Quiet.down rfl id ⟨[.started (.reconnectWait gen s.reconnectDelayS), .failed gen], rfl⟩

theorem quiet_startConnect (s : WsSession.State) : Quiet s s.startConnect := by
  unfold State.startConnect
  split
  · exact Quiet.refl s
  · exact Quiet.down rfl id ⟨[.started (.resolve (s.generation + 1))], rfl⟩

theorem quiet_closeByUser (s : WsSession.State) : Quiet s s.closeByUser := by
  unfold State.closeByUser
  split
  · exact Quiet.refl s
  · split
    · exact ⟨fun up => ⟨up, rfl⟩, fun opened => absurd opened (by simp), fun _ member => member,
        [.closed], rfl, Or.inr fun _ opened => absurd opened (by simp)⟩
    · exact ⟨fun up => ⟨up, rfl⟩, fun opened => absurd opened (by simp), fun _ member => member,
        [.closed], rfl, Or.inr fun _ _ ready opened => ⟨ready, opened, id⟩⟩

theorem quiet_launch (s : WsSession.State) (op : Op) : Quiet s (s.launch op) where
  up up := ⟨up, rfl⟩
  closed opened := opened
  waits _ member := List.mem_cons_of_mem _ member
  fed := ⟨[.started op], rfl, Or.inr fun _ _ ready opened => ⟨ready, opened, id⟩⟩

theorem quiet_dispatch (s : WsSession.State) (json : Json) (provider : String → Token) :
    Quiet s (s.dispatch json provider).1 := by
  unfold State.dispatch
  dsimp only
  split
  · refine Quiet.trans ?_ (quiet_flushTopics _ provider)
    exact ⟨fun up => ⟨up, rfl⟩, id, fun _ member => member, [.greeted s.generation], rfl, Or.inl rfl⟩
  · split
    · exact (quiet_enqueue s .pong).trans (quiet_pump _)
    · exact Quiet.refl s

theorem quiet_readOn (s : WsSession.State) (gen : Nat) : Quiet s (s.readOn gen) := by
  unfold State.readOn
  split
  · exact Quiet.refl s
  · exact (quiet_frame s).trans (quiet_launch _ _)

theorem quiet_onRead (s : WsSession.State) (gen : Nat) (result : State.ReadResult)
    (provider : String → Token) : Quiet s (s.onRead gen result provider) :=
  onRead_of (Quiet.refl s) (fun json _ _ => quiet_dispatch s json provider)
    (fun _ handled => handled.trans (quiet_readOn _ gen))
    (fun _ handled => handled.trans (quiet_handleError _ gen)) (fun _ handled => handled)

/-- Another operation than the ping wait completes. -/
theorem quiet_drop (s : WsSession.State) {op : Op} (other : op ≠ .pingWait s.generation) :
    Quiet s { s with ops := s.ops.erase op } where
  up up := ⟨up, rfl⟩
  closed opened := opened
  waits _ member := (List.mem_erase_of_ne (Ne.symm other)).mpr member
  fed := ⟨[], rfl, Or.inr fun _ _ ready opened => ⟨ready, opened, id⟩⟩

theorem quiet_complete {op : Op} {handler : WsSession.State → WsSession.State}
    (other : op ≠ .pingWait s.generation)
    (handles : op.gen = s.generation → op ∈ s.ops →
      Quiet { s with ops := s.ops.erase op } (handler { s with ops := s.ops.erase op }))
    (taken : s.complete op handler = some s') : Quiet s s' := by
  obtain ⟨member, ⟨current, rfl⟩ | ⟨_, rfl⟩⟩ := complete_spec taken
  · exact (quiet_drop s other).trans (handles current member)
  · exact quiet_drop s other

theorem quiet_runPosted {provider : String → Token} (taken : runPosted s provider = some s') :
    Quiet s s' := by
  unfold runPosted at taken
  split at taken
  · exact absurd taken (by simp)
  · rename_i handler rest posted
    have moved : Quiet s { s with posted := rest } := quiet_frame s
    cases handler with
    | startConnect => exact Option.some.inj taken ▸ moved.trans (quiet_startConnect _)
    | flushTopics => exact Option.some.inj taken ▸ moved.trans (quiet_flushTopics _ provider)
    | unsubscribe channel =>
      rw [← Option.some.inj taken]
      split
      · exact moved.trans ((quiet_enqueue _ _).trans (quiet_pump _))
      · exact moved
    | closeByUser => exact Option.some.inj taken ▸ moved.trans (quiet_closeByUser _)

theorem quiet_chainDone {op next : Op} {ok : Bool} (chain : op.isChain = true)
    (taken : s.complete op (fun s => if ok then s.launch next else s.handleError op.gen) = some s') :
    Quiet s s' := by
  refine quiet_complete (by rintro rfl; exact absurd chain (by simp [Op.isChain])) ?_ taken
  intro _ _
  split
  · exact quiet_launch _ next
  · exact quiet_handleError _ op.gen

/-- A frame written, the next one waiting is handed over. -/
theorem quiet_written (s : WsSession.State) : Quiet s { s with writeInFlight := false }.pump := by
  have freed : { s with writeInFlight := false }.pump = { s with writeInFlight := false } ∨
      _ := pump_cases { s with writeInFlight := false }
  rcases freed with same | ⟨frame, rest, _, _, _, written⟩
  · rw [same]
    refine ⟨fun up => ⟨up, rfl⟩, id, fun _ member => member, [], rfl, Or.inr fun up _ ready opened => ?_⟩
    refine ⟨ready, opened, fun backlog => ?_⟩
    obtain ⟨frame, rest, queue⟩ := List.exists_cons_of_ne_nil backlog.2
    have written := pump_free (s := { s with writeInFlight := false }) rfl up opened queue
    rw [same] at written
    exact absurd written (by simp)
  · rw [written]
    exact ⟨fun up => ⟨up, rfl⟩, id, fun _ member => List.mem_cons_of_mem _ member,
      [.started (.write s.generation frame)], rfl, Or.inl rfl⟩

/-- A failed write takes the connection down, unless it is down or closed already. -/
theorem quiet_writeFailed (link : Link s) (gen : Nat) (current : gen = s.generation) :
    Quiet s ({ s with writeInFlight := false }.handleError gen) := by
  rcases handleError_cases { s with writeInFlight := false } gen with
    ⟨same, late⟩ | ⟨_, _, ⟨failed, closed⟩ | ⟨_, lost⟩⟩
  · rw [same]
    refine Quiet.down (link.scheduled (late.resolve_left (not_not_intro current))) id ⟨[], rfl⟩
  · rw [failed]
    exact ⟨fun up => ⟨up, rfl⟩, id, fun _ member => member, [.failed gen], rfl,
      Or.inr fun _ opened => absurd (closed.symm.trans opened) (by simp)⟩
  · rw [lost]
    exact Quiet.down rfl id ⟨[.started (.reconnectWait gen s.reconnectDelayS), .failed gen], rfl⟩

theorem quiet_writeDone (link : Link s) {gen : Nat} {frame : Frame} {ok : Bool}
    (taken : WsSession.step s (.writeDone gen frame ok) = some s') : Quiet s s' := by
  simp only [WsSession.step] at taken
  cases ok with
  | true =>
    have logged : Quiet s (s.log (.written gen frame)) :=
      ⟨fun up => ⟨up, rfl⟩, id, fun _ member => member, [.written gen frame], rfl,
        Or.inr fun _ _ ready opened => ⟨ready, opened, id⟩⟩
    exact logged.trans (quiet_complete (by simp) (fun _ _ => quiet_written _) taken)
  | false =>
    refine quiet_complete (by simp) (fun current _ => ?_) taken
    have same : gen = s.generation := current
    exact quiet_writeFailed (link.drop (.write gen frame)) gen same

theorem quiet_reconnectFired {gen seconds : Nat} {ok : Bool}
    (taken : WsSession.step s (.reconnectFired gen seconds ok) = some s') : Quiet s s' := by
  simp only [WsSession.step] at taken
  refine quiet_complete (by simp) (fun _ _ => ?_) taken
  have unscheduled (s : WsSession.State) : Quiet s { s with reconnectScheduled := false } :=
    ⟨fun up => ⟨up, rfl⟩, id, fun _ member => member, [], rfl,
      Or.inr fun _ _ ready opened => ⟨ready, opened, id⟩⟩
  unfold State.onReconnectTimer
  dsimp only
  split
  · exact unscheduled _
  · exact (unscheduled _).trans (quiet_startConnect _)

/-- The WS handshake failed, came too late or came after the close. -/
theorem quiet_wsDone (link : Link s) {gen : Nat} {ok : Bool} (plain : arms s (.wsDone gen ok) = false)
    (taken : WsSession.step s (.wsDone gen ok) = some s') : Quiet s s' := by
  simp only [WsSession.step] at taken
  refine quiet_complete (by simp) (fun current member => ?_) taken
  cases ok with
  | false => exact quiet_handleError _ gen
  | true =>
    have closed : s.userClosed = true := by
      have same : gen = s.generation := current
      simpa [arms, same] using plain
    have down := (link.chain _ member rfl current).connected
    rw [if_pos rfl]
    unfold State.onHandshake
    simp only [State.log, closed, if_true]
    exact Quiet.down down id ⟨[.handshake gen], rfl⟩

/-- A step that is neither the handshake of the session's connection nor a firing of its timer. -/
theorem step_quiet (link : Link s) {a : WsSession.Action} (plain : arms s a = false)
    (no_timer : ∀ ok silent, a ≠ .pingFired s.generation ok silent)
    (taken : WsSession.step s a = some s') : Quiet s s' := by
  cases a with
  | subscribe channel =>
    obtain rfl := subscribe_spec taken
    exact quiet_frame s
  | unsubscribe channel =>
    rcases unsubscribe_spec taken with ⟨_, rfl⟩ | ⟨_, rfl⟩ <;> exact quiet_frame s
  | post handler =>
    obtain ⟨_, rfl⟩ := post_spec taken
    exact quiet_frame s
  | close => exact Option.some.inj taken ▸ quiet_frame s
  | execute provider => exact quiet_runPosted taken
  | streamFails =>
    rw [← Option.some.inj taken]
    exact ⟨fun up => ⟨up, rfl⟩, id, fun _ member => member, [], rfl,
      Or.inr fun _ _ _ opened => absurd opened (by simp)⟩
  | resolved gen ok => exact quiet_chainDone rfl taken
  | tcpConnected gen ok sni => exact quiet_chainDone rfl taken
  | tlsDone gen ok => exact quiet_chainDone rfl taken
  | wsDone gen ok => exact quiet_wsDone link plain taken
  | readDone gen result provider =>
    simp only [WsSession.step] at taken
    exact quiet_complete (by simp) (fun _ _ => quiet_onRead _ gen result provider) taken
  | writeDone gen frame ok => exact quiet_writeDone link taken
  | pingFired gen ok silent =>
    simp only [WsSession.step] at taken
    have other : gen ≠ s.generation := fun same => no_timer ok silent (by rw [same])
    refine quiet_complete (by simpa using other) (fun current _ => ?_) taken
    exact absurd (show gen = s.generation from current) other
  | reconnectFired gen seconds ok => exact quiet_reconnectFired taken

/-! ## The condition -/

/-- Time does not pass the expiry of the connection's ping wait by more than `late`, and the
wait of a connection that is up does not fail. -/
def Punctual (late : Nat) (s : SessionClock.State) : SessionClock.Action → Prop
  | .tick elapsed => s.session.connected = true → s.session.userClosed = false →
    .pingWait s.session.generation ∈ s.session.ops → s.now + elapsed ≤ s.pingExpiry + late
  | .handler (.pingFired gen ok _) =>
    ok = true ∨ gen ≠ s.session.generation ∨ s.session.connected = false
  | .handler _ => True

/-! ## The invariant -/

abbrev interval : Nat := pingIntervalInS * second

/-- The longest time between an activity and the expiry of the ping wait that follows. -/
abbrev patience : Nat := (activityTimeoutInS + 1) * second + interval

structure Kept (late : Nat) (s : SessionClock.State) : Prop where
  link : Link s.session
  heard : s.lastActivity ≤ s.now
  soon : s.pingExpiry ≤ s.now + interval
  armed : s.session.connected = true → s.session.userClosed = false →
    .pingWait s.session.generation ∈ s.session.ops
  recent : s.session.connected = true → s.session.userClosed = false →
    s.pingExpiry < s.lastActivity + patience
  punctual : s.session.connected = true → s.session.userClosed = false →
    s.now ≤ s.pingExpiry + late
  fed : s.session.connected = true → s.session.userClosed = false → s.session.ready = true →
    s.session.wsOpen = true → s.pingExpiry ≤ s.handedAt + interval ∨ Backlog s.session

variable {late : Nat}

theorem noted_append {events : List Event} (noted_eq : s'.trace = events ++ s.trace) :
    noted s s' = events := by
  unfold noted
  rw [noted_eq, List.length_append, Nat.add_sub_cancel, List.take_left]

theorem kept_start (now : Nat) : Kept late (.start now) where
  link := link_start
  heard := Nat.zero_le now
  soon := Nat.zero_le _
  armed up := absurd up (by simp [SessionClock.State.start, WsSession.State.start])
  recent up := absurd up (by simp [SessionClock.State.start, WsSession.State.start])
  punctual up := absurd up (by simp [SessionClock.State.start, WsSession.State.start])
  fed up := absurd up (by simp [SessionClock.State.start, WsSession.State.start])

variable {t t' : SessionClock.State}

theorem Kept.tick (h : Kept late t) {elapsed : Nat} (punctual : Punctual late t (.tick elapsed)) :
    Kept late { t with now := t.now + elapsed } where
  link := h.link
  heard := Nat.le_add_right_of_le h.heard
  soon := by
    have soon := h.soon
    show t.pingExpiry ≤ t.now + elapsed + interval
    omega
  armed := h.armed
  recent := h.recent
  punctual up opened := punctual up opened (h.armed up opened)
  fed := h.fed

/-- A quiet handler moves the last activity forward at most, and leaves the timer alone. -/
theorem Kept.quiet (h : Kept late t) {session : WsSession.State} (link : Link session)
    (quiet : Quiet t.session session) {lastActivity : Nat}
    (later : t.lastActivity ≤ lastActivity ∧ lastActivity ≤ t.now) :
    Kept late { t with
      session, lastActivity,
      handedAt := if (noted t.session session).any handsOver then t.now else t.handedAt } where
  link := link
  heard := later.2
  soon := h.soon
  armed up opened := by
    obtain ⟨up', same⟩ := quiet.up up
    have waits := quiet.waits up (h.armed up' (quiet.closed opened))
    rw [← same] at waits
    exact waits
  recent up opened := by
    have recent := h.recent (quiet.up up).1 (quiet.closed opened)
    show t.pingExpiry < lastActivity + patience
    omega
  punctual up opened := h.punctual (quiet.up up).1 (quiet.closed opened)
  fed up opened ready stream := by
    obtain ⟨events, noted_eq, fed⟩ := quiet.fed
    dsimp only
    rw [noted_append noted_eq]
    rcases fed with handed | kept
    · rw [if_pos handed]
      exact Or.inl h.soon
    · obtain ⟨ready', stream', backlog⟩ := kept up opened ready stream
      rcases h.fed (quiet.up up).1 (quiet.closed opened) ready' stream' with near | waiting
      · refine Or.inl ?_
        have soon := h.soon
        split
        · exact soon
        · exact near
      · exact Or.inr (backlog waiting)

/-- A handler that starts the timer, on a connection that was active not long ago. -/
theorem Kept.arm {session : WsSession.State} (link : Link session)
    (waits : session.connected = true → .pingWait session.generation ∈ session.ops)
    {lastActivity handedAt : Nat} (heard : lastActivity ≤ t.now)
    (active : session.connected = true → t.now < lastActivity + (activityTimeoutInS + 1) * second)
    (fed : session.connected = true → session.ready = true → session.wsOpen = true →
      handedAt = t.now ∨ Backlog session) :
    Kept late { t with session, lastActivity, handedAt, pingExpiry := t.now + interval } where
  link := link
  heard := heard
  soon := le_refl _
  armed up _ := waits up
  recent up _ := by
    have active := active up
    show t.now + interval < lastActivity + patience
    unfold patience
    omega
  punctual _ _ := by
    show t.now ≤ t.now + interval + late
    omega
  fed up _ ready stream := by
    rcases fed up ready stream with now | waiting
    · exact Or.inl (by rw [now])
    · exact Or.inr waiting

/-- Nothing is asked of a session that is down or closed. -/
theorem Kept.unwatched (h : Kept late t) {session : WsSession.State} (link : Link session)
    (ended : session.connected = true → session.userClosed ≠ false) {pingExpiry handedAt : Nat}
    (soon : pingExpiry ≤ t.now + interval) :
    Kept late { t with session, pingExpiry, handedAt } where
  link := link
  heard := h.heard
  soon := soon
  armed up opened := absurd opened (ended up)
  recent up opened := absurd opened (ended up)
  punctual up opened := absurd opened (ended up)
  fed up opened := absurd opened (ended up)

/-- The keepalive is handed over, or waits behind the frame that is being written. -/
theorem keepalive (s : WsSession.State) (up : s.connected = true) (stream : s.wsOpen = true) :
    ∃ events, (s.enqueueOp .ping).pump.trace = events ++ s.trace ∧
      (events.any handsOver = true ∨ Backlog (s.enqueueOp .ping).pump) := by
  have queue : (s.enqueueOp .ping).outboundQueue ≠ [] :=
    List.append_ne_nil_of_right_ne_nil _ (List.cons_ne_nil _ _)
  rcases pump_cases (s.enqueueOp .ping) with same | ⟨frame, rest, _, _, _, written⟩
  · rw [same]
    refine ⟨[.enqueued .ping], rfl, Or.inr ⟨?_, queue⟩⟩
    by_contra free
    obtain ⟨frame, rest, head⟩ := List.exists_cons_of_ne_nil queue
    have written := pump_free (s := s.enqueueOp .ping) (Bool.not_eq_true _ ▸ free) up stream head
    rw [same] at written
    exact free written
  · rw [written]
    exact ⟨[.started (.write s.generation frame), .enqueued .ping], rfl, Or.inl rfl⟩

theorem Kept.wsDone (h : Kept late t) {gen : Nat} {ok : Bool} {session : WsSession.State}
    (arms : arms t.session (.wsDone gen ok) = true)
    (taken : WsSession.step t.session (.wsDone gen ok) = some session) (handedAt : Nat) :
    Kept late { t with
      session, lastActivity := t.now, handedAt, pingExpiry := t.now + interval } := by
  have link := h.link.step taken
  simp only [SessionClock.arms, Bool.and_eq_true, beq_iff_eq, Bool.not_eq_true'] at arms
  obtain ⟨⟨rfl, rfl⟩, opened⟩ := arms
  simp only [WsSession.step] at taken
  obtain ⟨member, ⟨_, rfl⟩ | ⟨past, _⟩⟩ := complete_spec taken
  · have ready := (h.link.chain _ member rfl rfl).ready
    refine Kept.arm link ?_ (le_refl _) (fun _ => by simp [second, activityTimeoutInS]) ?_
    · intro _
      simp [State.onHandshake, State.log, State.launch, opened]
    · intro _ ready'
      have same : t.session.ready = true := by
        simpa [State.onHandshake, State.log, State.launch, opened] using ready'
      exact absurd (same.symm.trans ready) (by simp)
  · exact absurd rfl past

theorem pump_flags (s : WsSession.State) : s.pump.generation = s.generation ∧
    s.pump.connected = s.connected ∧ s.pump.wsOpen = s.wsOpen ∧ s.pump.ready = s.ready := by
  rcases pump_cases s with same | ⟨frame, rest, _, _, _, written⟩
  · rw [same]
    exact ⟨rfl, rfl, rfl, rfl⟩
  · rw [written]
    exact ⟨rfl, rfl, rfl, rfl⟩

/-- What a firing of the timer of the connection does. -/
theorem pingFired_cases (link : Link s) {ok silent : Bool}
    (taken : WsSession.step s (.pingFired s.generation ok silent) = some s') :
    (ok = false ∨ s.userClosed = true) ∧ s' = { s with ops := s.ops.erase (.pingWait s.generation) } ∨
    (s.connected = true ∧ silent = true ∧ s'.connected = false) ∨
    ok = true ∧ s.userClosed = false ∧ (s.connected && silent) = false ∧
      .pingWait s'.generation ∈ s'.ops ∧ s'.connected = s.connected ∧ s'.wsOpen = s.wsOpen ∧
      s'.ready = s.ready ∧ (s.connected = true → s.ready = true → s.wsOpen = true →
        (noted s s').any handsOver = true ∨ Backlog s') := by
  simp only [WsSession.step] at taken
  obtain ⟨member, ⟨_, rfl⟩ | ⟨past, _⟩⟩ := complete_spec taken
  · unfold State.onPingTimer
    split
    · rename_i ends
      exact Or.inl ⟨by simpa using ends, rfl⟩
    · rename_i goes_on
      simp only [Bool.or_eq_true, Bool.not_eq_true', not_or, Bool.not_eq_false,
        Bool.not_eq_true] at goes_on
      split
      · rename_i gives_up
        rw [Bool.and_eq_true] at gives_up
        refine Or.inr (Or.inl ⟨gives_up.1, gives_up.2, ?_⟩)
        have free : s.reconnectScheduled = false := by
          by_contra scheduled
          have down := link.scheduled (Bool.not_eq_false _ ▸ scheduled)
          exact absurd (gives_up.1.symm.trans down) (by simp)
        simp [State.handleError, free, goes_on.2, State.launch, State.log]
      · rename_i heard
        have alive : (s.connected && silent) = false := Bool.not_eq_true _ ▸ heard
        refine Or.inr (Or.inr ⟨goes_on.1, goes_on.2, alive, ?_⟩)
        split
        · -- The keepalive goes out before the timer is started again.
          let queued := ({ s with ops := s.ops.erase (.pingWait s.generation) } : WsSession.State).enqueueOp
            .ping
          obtain ⟨same_gen, same_up, same_stream, same_ready⟩ := pump_flags queued
          refine ⟨?_, same_up, same_stream, same_ready, fun up _ stream => ?_⟩
          · show Op.pingWait queued.pump.generation ∈ .pingWait s.generation :: queued.pump.ops
            rw [same_gen]
            exact List.mem_cons_self
          · obtain ⟨events, noted_eq, out⟩ :=
              keepalive { s with ops := s.ops.erase (.pingWait s.generation) } up stream
            have all : (queued.pump.launch (.pingWait s.generation)).trace =
                (.started (.pingWait s.generation) :: events) ++ s.trace :=
              congrArg (fun trace => Event.started (.pingWait s.generation) :: trace) noted_eq
            rw [noted_append all]
            exact out.imp (fun handed => by rw [List.any_cons, handed, Bool.or_true]) id
        · rename_i waits
          refine ⟨List.mem_cons_self, rfl, rfl, rfl, fun up ready _ => ?_⟩
          exact absurd (by simp [up, ready]) waits
  · exact absurd rfl past

theorem Kept.pingFired (h : Kept late t) {ok : Bool} {session : WsSession.State}
    (on_time : ok = true ∨ t.session.connected = false)
    (taken : WsSession.step t.session (.pingFired t.session.generation ok t.silent) = some session) :
    Kept late { t with
      session
      pingExpiry :=
        if arms t.session (.pingFired t.session.generation ok t.silent) then t.now + interval
        else t.pingExpiry
      handedAt := if (noted t.session session).any handsOver then t.now else t.handedAt } := by
  have link := h.link.step taken
  have soon : (if arms t.session (.pingFired t.session.generation ok t.silent) then t.now + interval
      else t.pingExpiry) ≤ t.now + interval := by
    split
    · exact le_refl _
    · exact h.soon
  rcases pingFired_cases h.link taken with ⟨ends, rfl⟩ | ⟨_, _, down⟩ |
    ⟨rfl, opened, heard, waits, same_up, same_stream, same_ready, out⟩
  · refine h.unwatched link (fun up => ?_) soon
    rcases ends with rfl | closed
    · exact absurd ((on_time.resolve_left (by simp)).symm.trans up) (by simp)
    · exact fun opened => absurd (closed.symm.trans opened) (by simp)
  · exact h.unwatched link (fun up => absurd (down.symm.trans up) (by simp)) soon
  · have armed : arms t.session (.pingFired t.session.generation true t.silent) = true := by
      simp [arms, opened, heard]
    simp only [armed, if_true]
    refine Kept.arm link (fun _ => waits) h.heard (fun up => ?_) (fun up ready stream => ?_)
    · have awake : t.silent = false := by
        rw [same_up] at up
        simpa [up] using heard
      have close : ¬ activityTimeoutInS < (t.now - t.lastActivity) / second := by
        simpa [SessionClock.State.silent] using awake
      have whole := Nat.div_add_mod (t.now - t.lastActivity) second
      have part := Nat.mod_lt (t.now - t.lastActivity) (show 0 < second by decide)
      simp only [second, activityTimeoutInS] at *
      omega
    · rcases out (same_up ▸ up) (same_ready ▸ ready) (same_stream ▸ stream) with handed | waiting
      · exact Or.inl (if_pos handed)
      · exact Or.inr waiting

/-- The step lemma. -/
theorem Kept.step {a : SessionClock.Action} (h : Kept late t) (punctual : Punctual late t a)
    (taken : SessionClock.step t a = some t') : Kept late t' := by
  cases a with
  | tick elapsed => exact Option.some.inj taken ▸ h.tick punctual
  | handler a =>
    simp only [SessionClock.step] at taken
    split at taken
    · exact absurd taken (by simp)
    · obtain ⟨session, handled, rfl⟩ := Option.map_eq_some_iff.mp taken
      have link := h.link.step handled
      have moment : t.lastActivity ≤ (if touches t.session (t.judged a) then t.now else t.lastActivity) ∧
          (if touches t.session (t.judged a) then t.now else t.lastActivity) ≤ t.now := by
        have heard := h.heard
        split
        · exact ⟨heard, le_refl _⟩
        · exact ⟨le_refl _, heard⟩
      -- Every other handler than a handshake and a firing of the timer is quiet.
      have plain (unarmed : arms t.session (t.judged a) = false)
          (no_timer : ∀ ok silent, t.judged a ≠ .pingFired t.session.generation ok silent) :
          Kept late ⟨session, t.now,
            if touches t.session (t.judged a) then t.now else t.lastActivity,
            if arms t.session (t.judged a) then t.now + pingIntervalInS * second else t.pingExpiry,
            if (noted t.session session).any handsOver then t.now else t.handedAt⟩ := by
        rw [unarmed]
        exact h.quiet link (step_quiet h.link unarmed no_timer handled) moment
      cases a with
      | wsDone gen ok =>
        cases armed : arms t.session (.wsDone gen ok) with
        | false => exact plain armed (by simp [SessionClock.State.judged])
        | true =>
          have touched : touches t.session (.wsDone gen ok) = true := armed
          simp only [SessionClock.State.judged, touched, armed, if_true]
          exact h.wsDone armed handled _
      | pingFired gen ok silent =>
        by_cases same : gen = t.session.generation
        · subst same
          exact h.pingFired (punctual.imp id fun other => other.resolve_left (not_not_intro rfl)) handled
        · refine plain ?_ ?_
          · simp [SessionClock.State.judged, arms, same]
          · simp [SessionClock.State.judged, same]
      | subscribe _ | unsubscribe _ | post _ | close | execute _ | streamFails | resolved _ _
      | tcpConnected _ _ _ | tlsDone _ _ | readDone _ _ _ | writeDone _ _ _ | reconnectFired _ _ _ =>
        exact plain rfl (by simp [SessionClock.State.judged])

/-- The connection is given up by a firing of its timer. -/
theorem given_up_silent (h : Kept late t) {ok silent : Bool}
    (taken : SessionClock.step t (.handler (.pingFired t.session.generation ok silent)) = some t')
    (up : t.session.connected = true) (down : t'.session.connected = false) :
    t.lastActivity + (activityTimeoutInS + 1) * second ≤ t.now := by
  simp only [SessionClock.step] at taken
  split at taken
  · exact absurd taken (by simp)
  · obtain ⟨session, handled, rfl⟩ := Option.map_eq_some_iff.mp taken
    rcases pingFired_cases h.link handled with ⟨_, rfl⟩ | ⟨_, silent, _⟩ | ⟨_, _, _, _, same_up, _⟩
    · exact absurd (up.symm.trans down) (by simp)
    · have long : activityTimeoutInS < (t.now - t.lastActivity) / second := by
        simpa [SessionClock.State.silent] using silent
      have whole := Nat.div_add_mod (t.now - t.lastActivity) second
      simp only [second, activityTimeoutInS] at long whole ⊢
      omega
    · exact absurd (up.symm.trans (same_up.symm.trans down)) (by simp)

/-- In every run, at any time: a connection that is kept was active less than 61 seconds and the
delay of the timer ago; once it is greeted and open, a frame was handed over (or the greeting
dispatched) within fifteen seconds and the delay, or a write is stuck; and the watchdog gives
no connection up that was active within 46 seconds. -/
theorem watchdog_bounds (late now : Nat) (actions : List SessionClock.Action) (t : SessionClock.State)
    (punctual : Meets SessionClock.step (Punctual late) (.start now) actions)
    (reached : run SessionClock.step (.start now) actions = some t) :
    (t.session.connected = true → t.session.userClosed = false →
      t.now < t.lastActivity + 61 * second + late ∧
      (t.session.ready = true → t.session.wsOpen = true → t.session.writeInFlight = false →
        t.now ≤ t.handedAt + 15 * second + late)) ∧
    ∀ ok silent t', SessionClock.step t (.handler (.pingFired t.session.generation ok silent)) = some t' →
      t.session.connected = true → t'.session.connected = false →
      t.lastActivity + 46 * second ≤ t.now := by
  have kept : Kept late t := run_invariant_of_meets
    (fun _ _ _ kept punctual taken => Kept.step kept punctual taken) (kept_start now) punctual reached
  refine ⟨fun up opened => ⟨?_, fun ready stream idle => ?_⟩, fun ok silent t' taken up down => ?_⟩
  · have recent := kept.recent up opened
    have on_time := kept.punctual up opened
    simp only [patience, interval, activityTimeoutInS, pingIntervalInS] at recent
    omega
  · have on_time := kept.punctual up opened
    rcases kept.fed up opened ready stream with near | waiting
    · simp only [interval, pingIntervalInS] at near
      omega
    · exact absurd (idle.symm.trans waiting.1) (by simp)
  · exact given_up_silent kept taken up down

/-! ## A sample run -/

instance decidablePunctual (late : Nat) (t : SessionClock.State) :
    (a : SessionClock.Action) → Decidable (Punctual late t a)
  | .tick _ => inferInstanceAs (Decidable (_ → _ → _ → _))
  | .handler (.pingFired _ _ _) => inferInstanceAs (Decidable (_ ∨ _ ∨ _))
  | .handler (.subscribe _) | .handler (.unsubscribe _) | .handler (.post _) | .handler .close
  | .handler (.execute _) | .handler .streamFails | .handler (.resolved _ _)
  | .handler (.tcpConnected _ _ _) | .handler (.tlsDone _ _) | .handler (.wsDone _ _)
  | .handler (.readDone _ _ _) | .handler (.writeDone _ _ _) | .handler (.reconnectFired _ _ _) =>
    inferInstanceAs (Decidable True)

/-- A connection that greets, and a first keepalive one second late. -/
def keepaliveRun : List SessionClock.Action :=
  [.handler (.execute fun _ => .text ""), .handler (.resolved 1 true),
    .handler (.tcpConnected 1 true true), .handler (.tlsDone 1 true), .handler (.wsDone 1 true),
    .tick second,
    .handler (.readDone 1 (.message (.obj [("type", .str "connected")])) fun _ => .text ""),
    .tick (15 * second), .handler (.pingFired 1 true false),
    .handler (.writeDone 1 .ping true), .tick (10 * second)]

theorem watchdog_bounds_sample : ∃ t, run SessionClock.step (.start 0) keepaliveRun = some t ∧
    t.now < t.lastActivity + 62 * second ∧ t.now ≤ t.handedAt + 16 * second := by
  have ends : ∃ t, run SessionClock.step (.start 0) keepaliveRun = some t ∧
      (t.session.connected = true ∧ t.session.userClosed = false ∧ t.session.ready = true ∧
        t.session.wsOpen = true ∧ t.session.writeInFlight = false) := exists_run (by decide +kernel)
  obtain ⟨t, reached, up, opened, ready, stream, idle⟩ := ends
  obtain ⟨active, handed⟩ :=
    (watchdog_bounds second 0 keepaliveRun t (by decide +kernel) reached).1 up opened
  exact ⟨t, reached, by omega, by have := handed ready stream idle; omega⟩

end LighterApi.Guarantees.Watchdog

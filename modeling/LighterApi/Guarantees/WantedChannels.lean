import LighterApi.Library.OrderedSet
import LighterApi.Guarantees.WireAgreement

/-!
# One ordered list of wanted channels

The two topic lists, put one after the other, are one list in order of insertion, changed
by the calls of `subscribe` and `unsubscribe` alone: flushing moves the border between
them forward, an error moves it back to the start, and nothing else touches them. The
greeting of a connection finds the border at the start, so it replays the whole list.
-/
namespace LighterApi.Guarantees.WantedChannels
open LighterApi.Source LighterApi.Source.WsSession
open LighterApi.Library.Transition LighterApi.Library.LastWrite LighterApi.Library
open SessionLink WireAgreement

/-- The subscribed channels, then the pending ones. -/
def topics (s : State) : List String := s.subscriptions ++ s.pendingTopics

/-- What a call does to the list. -/
def call : Action → Option (String × Bool)
  | .subscribe channel => some (channel, true)
  | .unsubscribe channel => some (channel, false)
  | _ => none

/-- The list after the calls of a run. -/
def wanted (actions : List Action) : List String := OrderedSet.after (actions.filterMap call)

def callEffect (channels : List String) (a : Action) : List String :=
  match call a with
  | some op => OrderedSet.operate channels op
  | none => channels

theorem foldl_callEffect (actions : List Action) : actions.foldl callEffect [] = wanted actions := by
  unfold wanted OrderedSet.after
  rw [List.foldl_filterMap]
  apply congrArg (fun effect => actions.foldl effect [])
  funext channels a
  unfold callEffect
  cases call a with
  | none => rfl
  | some op => rfl

/-! ## Handlers move the border -/

def subscribes : Event → Bool
  | .enqueued (.subscribe _ _) => true
  | _ => false

/-- A step that leaves the list alone, subscribes nothing before the greeting, and builds
frames only for channels of the list. -/
structure Stutter (s s' : State) : Prop where
  topics : topics s' = topics s
  held : (s.ready = false → s.subscriptions = []) → s'.ready = false → s'.subscriptions = []
  frames : ∀ channel auth, .enqueued (.subscribe channel auth) ∈ s'.trace →
    .enqueued (.subscribe channel auth) ∈ s.trace ∨ channel ∈ WantedChannels.topics s

variable {s s' : State}

theorem Stutter.refl (s : State) : Stutter s s :=
  ⟨rfl, fun held => held, fun _ _ => Or.inl⟩

theorem Stutter.trans {s'' : State} (first : Stutter s s') (second : Stutter s' s'') :
    Stutter s s'' := by
  refine ⟨second.topics.trans first.topics, fun held => second.held (first.held held), ?_⟩
  intro channel auth built
  rcases second.frames channel auth built with before | listed
  · exact first.frames channel auth before
  · exact Or.inr (first.topics ▸ listed)

theorem stutter_of_events (events : List Event) (subscriptions : s'.subscriptions = s.subscriptions)
    (pendingTopics : s'.pendingTopics = s.pendingTopics) (ready : s'.ready = s.ready)
    (trace : s'.trace = events ++ s.trace) (silent : events.any subscribes = false) :
    Stutter s s' := by
  refine ⟨?_, fun held waiting => ?_, fun channel auth built => ?_⟩
  · unfold WantedChannels.topics
    rw [subscriptions, pendingTopics]
  · rw [subscriptions]
    exact held (ready ▸ waiting)
  · rw [trace] at built
    rcases List.mem_append.mp built with new | before
    · exact absurd rfl (List.any_eq_false.mp silent _ new)
    · exact Or.inl before

theorem stutter_of_same (subscriptions : s'.subscriptions = s.subscriptions)
    (pendingTopics : s'.pendingTopics = s.pendingTopics) (ready : s'.ready = s.ready)
    (trace : s'.trace = s.trace) : Stutter s s' :=
  stutter_of_events [] subscriptions pendingTopics ready trace rfl

/-- An event that builds no subscribe frame. -/
theorem stutter_log (s : State) (event : Event) (silent : subscribes event = false) :
    Stutter s (s.log event) :=
  stutter_of_events [event] rfl rfl rfl rfl (by simp [silent])

theorem stutter_launch (s : State) (op : Op) : Stutter s (s.launch op) :=
  stutter_of_events [.started op] rfl rfl rfl rfl rfl

theorem stutter_enqueueOp (s : State) (frame : Frame) (other : subscribes (.enqueued frame) = false) :
    Stutter s (s.enqueueOp frame) :=
  stutter_of_events [.enqueued frame] rfl rfl rfl rfl (by simp [other])

theorem stutter_pump (s : State) : Stutter s s.pump := by
  rcases pump_cases s with same | ⟨frame, rest, _, _, _, pumped⟩
  · rw [same]
    exact .refl s
  · rw [pumped]
    exact (stutter_launch s (.write s.generation frame)).trans (stutter_of_same rfl rfl rfl rfl)

/-- The frame of a channel of the list. -/
theorem stutter_subscribe (s : State) {channel : String} (auth : Option String)
    (listed : channel ∈ topics s) : Stutter s (s.enqueueOp (.subscribe channel auth)) := by
  refine ⟨rfl, fun held => held, fun other auth' built => ?_⟩
  rcases List.mem_cons.mp built with new | before
  · cases new
    exact Or.inr listed
  · exact Or.inl before

theorem stutter_enqueueTopics (provider : String → Token) (channels : List String) (s : State)
    (listed : ∀ c ∈ channels, c ∈ topics s) :
    Stutter s (State.enqueueTopics provider channels s).1 := by
  induction channels generalizing s with
  | nil => exact stutter_pump s
  | cons channel rest ih =>
    unfold State.enqueueTopics subscribeMsg
    cases provider channel with
    | throws jsonException => exact .refl s
    | text token =>
      apply (stutter_subscribe s _ (listed channel List.mem_cons_self)).trans
      exact ih _ fun c member => listed c (List.mem_cons_of_mem _ member)

/-- A flush moves the border to the end. -/
theorem stutter_flushTopics (s : State) (provider : String → Token) :
    Stutter s (s.flushTopics provider).1 := by
  unfold State.flushTopics
  split
  · exact .refl s
  · rename_i effective
    have moved : Stutter s { s with
        subscriptions := s.subscriptions ++ s.pendingTopics, pendingTopics := [] } := by
      refine ⟨List.append_nil _, fun _ waiting => ?_, fun _ _ => Or.inl⟩
      have silent : s.ready = false := waiting
      exact absurd (by simp [silent]) effective
    apply moved.trans
    apply stutter_enqueueTopics
    intro c pending
    exact List.mem_append_left _ (List.mem_append_right _ pending)

/-- An error moves the border to the start. -/
theorem stutter_handleError (s : State) (gen : Nat) : Stutter s (s.handleError gen) := by
  rcases handleError_cases s gen with ⟨same, _⟩ | ⟨_, _, ⟨noted, _⟩ | ⟨_, failed⟩⟩
  · rw [same]
    exact .refl s
  · rw [noted]
    exact stutter_log s _ rfl
  · rw [failed]
    have lost : Stutter s { s with
        ready := false, pendingTopics := s.subscriptions ++ s.pendingTopics,
        subscriptions := [] } := ⟨List.nil_append _, fun _ _ => rfl, fun _ _ => Or.inl⟩
    exact lost.trans (stutter_of_events
      [.started (.reconnectWait gen s.reconnectDelayS), .failed gen] rfl rfl rfl rfl rfl)

theorem stutter_startConnect (down : s.subscriptions = []) : Stutter s s.startConnect := by
  unfold State.startConnect
  split
  · exact .refl s
  · have fresh : Stutter s { s with ready := false } := ⟨rfl, fun _ _ => down, fun _ _ => Or.inl⟩
    exact fresh.trans (stutter_of_events [.started (.resolve (s.generation + 1))] rfl rfl rfl rfl rfl)

theorem stutter_dispatch (s : State) (json : Json) (provider : String → Token) :
    Stutter s (s.dispatch json provider).1 := by
  unfold State.dispatch
  dsimp only
  split
  · have greeted : Stutter s { s.log (.greeted s.generation) with
        ready := true, connectedFlag := true, reconnectDelayS := 1 } := by
      apply (stutter_log s (.greeted s.generation) rfl).trans
      refine ⟨rfl, fun _ waiting => ?_, fun _ _ => Or.inl⟩
      exact absurd waiting (by simp)
    exact greeted.trans (stutter_flushTopics _ provider)
  · split
    · exact (stutter_enqueueOp s .pong rfl).trans (stutter_pump _)
    · exact .refl s

theorem stutter_readOn (s : State) (gen : Nat) : Stutter s (s.readOn gen) := by
  unfold State.readOn
  split
  · exact .refl s
  · have delayed : Stutter s { s with
        reconnectDelayS := if s.ready then 1 else s.reconnectDelayS } := stutter_of_same rfl rfl rfl rfl
    exact delayed.trans (stutter_launch _ _)

theorem stutter_onRead (s : State) (gen : Nat) (result : State.ReadResult)
    (provider : String → Token) : Stutter s (s.onRead gen result provider) := by
  apply onRead_of (J := Stutter s)
  · exact .refl s
  · exact fun json _ _ => stutter_dispatch s json provider
  · exact fun s' handled => handled.trans (stutter_readOn s' gen)
  · exact fun s' handled => handled.trans (stutter_handleError s' gen)
  · exact fun s' handled => handled

theorem stutter_onHandshake (s : State) (gen : Nat) : Stutter s (s.onHandshake gen) := by
  unfold State.onHandshake
  dsimp only
  split
  · exact stutter_of_events [.handshake gen] rfl rfl rfl rfl rfl
  · exact stutter_of_events [.started (.read gen), .started (.pingWait gen), .handshake gen]
      rfl rfl rfl rfl rfl

theorem stutter_onPingTimer (s : State) (gen : Nat) (ok silent : Bool) :
    Stutter s (s.onPingTimer gen ok silent) := by
  unfold State.onPingTimer
  split
  · exact .refl s
  · split
    · exact stutter_handleError s gen
    · have pinged : Stutter s
          (if s.connected && s.ready then (s.enqueueOp .ping).pump else s) := by
        split
        · exact (stutter_enqueueOp s .ping rfl).trans (stutter_pump _)
        · exact .refl s
      exact pinged.trans (stutter_launch _ _)

theorem stutter_onReconnectTimer (down : s.subscriptions = []) (ok : Bool) :
    Stutter s (s.onReconnectTimer ok) := by
  have idle : Stutter s { s with reconnectScheduled := false } := stutter_of_same rfl rfl rfl rfl
  unfold State.onReconnectTimer
  dsimp only
  split
  · exact idle
  · exact idle.trans (stutter_startConnect down)

theorem stutter_closeByUser (s : State) : Stutter s s.closeByUser := by
  unfold State.closeByUser
  split
  · exact .refl s
  · split
    · exact stutter_of_events [.closed] rfl rfl rfl rfl rfl
    · exact stutter_of_events [.closed] rfl rfl rfl rfl rfl

theorem stutter_runPosted {provider : String → Token} (link : Link s)
    (taken : runPosted s provider = some s') : Stutter s s' := by
  unfold WsSession.runPosted at taken
  split at taken
  · exact absurd taken (by simp)
  · rename_i handler rest posted
    have taken_off : Stutter s { s with posted := rest } := stutter_of_same rfl rfl rfl rfl
    dsimp only at taken
    split at taken
    · have idle := (link.starting (posted ▸ List.mem_cons_self)).2
      rw [← Option.some.inj taken]
      exact taken_off.trans (stutter_startConnect (link.down idle.2.1).1)
    · rw [← Option.some.inj taken]
      exact taken_off.trans (stutter_flushTopics _ provider)
    · rw [← Option.some.inj taken]
      split
      · exact (taken_off.trans (stutter_enqueueOp _ _ rfl)).trans (stutter_pump _)
      · exact taken_off
    · rw [← Option.some.inj taken]
      exact taken_off.trans (stutter_closeByUser _)

/-! ## Calls change the list -/

theorem topics_subscribe {channel : String} (taken : step s (.subscribe channel) = some s') :
    topics s' = OrderedSet.add (topics s) channel := by
  obtain rfl := subscribe_spec taken
  unfold OrderedSet.add
  by_cases known : channel ∈ topics s
  · unfold topics
    dsimp only
    rw [if_pos (List.mem_append.mp known)]
    exact (if_pos known).symm
  · unfold topics
    dsimp only
    rw [if_neg fun either => known (List.mem_append.mpr either), ← List.append_assoc]
    exact (if_neg known).symm

theorem topics_unsubscribe (nodup : (topics s).Nodup) {channel : String}
    (taken : step s (.unsubscribe channel) = some s') :
    topics s' = OrderedSet.remove (topics s) channel := by
  obtain ⟨_, pending_once, apart⟩ := List.nodup_append.mp nodup
  unfold OrderedSet.remove
  rcases unsubscribe_spec taken with ⟨subscribed, rfl⟩ | ⟨absent, rfl⟩
  · have others : s.pendingTopics.filter (· ≠ channel) = s.pendingTopics := by
      rw [List.filter_eq_self]
      intro c pending
      have differs := apart channel subscribed c pending
      simpa using fun same => differs same.symm
    unfold topics
    rw [List.erase_append_left _ subscribed, others]
  · unfold topics
    rw [List.erase_append_right _ absent, pending_once.erase_eq_filter]
    apply congrArg (fun kept => s.subscriptions ++ kept)
    apply List.filter_congr
    intro c _
    by_cases same : c = channel <;> simp [same]

/-! ## Every step -/

structure Refined (s : State) : Prop where
  link : Link s
  nodup : (topics s).Nodup
  held : s.ready = false → s.subscriptions = []

theorem refined_start : Refined State.start := ⟨link_start, List.nodup_nil, fun _ => rfl⟩

theorem stutter_complete {op : Op} {handler : State → State}
    (taken : s.complete op handler = some s')
    (handles : Stutter { s with ops := s.ops.erase op } (handler { s with ops := s.ops.erase op })) :
    Stutter s s' := by
  have drop : Stutter s { s with ops := s.ops.erase op } := stutter_of_same rfl rfl rfl rfl
  obtain ⟨_, ⟨_, rfl⟩ | ⟨_, rfl⟩⟩ := complete_spec taken
  · exact drop.trans handles
  · exact drop

/-- A step of the connect chain goes on with the next one, or fails. -/
theorem stutter_chain (s : State) (gen : Nat) (next : Op) (ok : Bool) :
    Stutter s (if ok then s.launch next else s.handleError gen) := by
  split
  · exact stutter_launch s next
  · exact stutter_handleError s gen

theorem stutter_writeDone {gen : Nat} {frame : Frame} {ok : Bool}
    (taken : step s (.writeDone gen frame ok) = some s') : Stutter s s' := by
  have idle : ∀ s : State, Stutter s { s with writeInFlight := false } :=
    fun s => stutter_of_same rfl rfl rfl rfl
  cases ok with
  | true =>
    simp only [step, if_true] at taken
    have logged : Stutter s (s.log (.written gen frame)) := stutter_log s _ rfl
    exact logged.trans (stutter_complete taken ((idle _).trans (stutter_pump _)))
  | false =>
    simp only [step, Bool.false_eq_true, if_false] at taken
    exact stutter_complete taken ((idle _).trans (stutter_handleError _ gen))

theorem stutter_reconnectFired {gen seconds : Nat} {ok : Bool} (link : Link s)
    (taken : step s (.reconnectFired gen seconds ok) = some s') : Stutter s s' := by
  simp only [step] at taken
  have drop : Stutter s { s with ops := s.ops.erase (.reconnectWait gen seconds) } :=
    stutter_of_same rfl rfl rfl rfl
  obtain ⟨member, ⟨current, rfl⟩ | ⟨_, rfl⟩⟩ := complete_spec taken
  · have same : gen = s.generation := current
    rw [same] at member
    apply drop.trans
    apply stutter_onReconnectTimer
    exact (link.down (link.waits seconds member)).1
  · exact drop

/-- Every step but the calls leaves the list alone. -/
theorem step_stutter {a : Action} (link : Link s) (no_call : call a = none)
    (taken : step s a = some s') : Stutter s s' := by
  cases a with
  | subscribe channel => exact absurd no_call (by simp [call])
  | unsubscribe channel => exact absurd no_call (by simp [call])
  | post handler =>
    obtain ⟨_, rfl⟩ := post_spec taken
    exact stutter_of_same rfl rfl rfl rfl
  | close => exact Option.some.inj taken ▸ stutter_of_same rfl rfl rfl rfl
  | execute provider => exact stutter_runPosted link taken
  | streamFails => exact Option.some.inj taken ▸ stutter_of_same rfl rfl rfl rfl
  | resolved gen ok =>
    simp only [step] at taken
    exact stutter_complete taken (stutter_chain _ gen (.connect gen) ok)
  | tcpConnected gen ok sni =>
    simp only [step] at taken
    exact stutter_complete taken (stutter_chain _ gen (.tlsHandshake gen) (ok && sni))
  | tlsDone gen ok =>
    simp only [step] at taken
    exact stutter_complete taken (stutter_chain _ gen (.wsHandshake gen) ok)
  | wsDone gen ok =>
    simp only [step] at taken
    apply stutter_complete taken
    split
    · exact stutter_onHandshake _ gen
    · exact stutter_handleError _ gen
  | readDone gen result provider =>
    simp only [step] at taken
    exact stutter_complete taken (stutter_onRead _ gen result provider)
  | writeDone gen frame ok => exact stutter_writeDone taken
  | pingFired gen ok silent =>
    simp only [step] at taken
    exact stutter_complete taken (stutter_onPingTimer _ gen ok silent)
  | reconnectFired gen seconds ok => exact stutter_reconnectFired link taken

/-- The calls operate on the list. -/
theorem topics_step {a : Action} (h : Refined s) (taken : step s a = some s') :
    topics s' = callEffect (topics s) a := by
  by_cases no_call : call a = none
  · unfold callEffect
    rw [no_call]
    exact (step_stutter h.link no_call taken).topics
  · cases a with
    | subscribe channel => exact topics_subscribe taken
    | unsubscribe channel => exact topics_unsubscribe h.nodup taken
    | _ => exact absurd rfl no_call

/-- A call takes nothing into the subscriptions. -/
theorem held_call {a : Action} (calls : call a ≠ none) (taken : step s a = some s') :
    s'.ready = s.ready ∧ s'.subscriptions.Sublist s.subscriptions := by
  cases a with
  | subscribe channel =>
    obtain rfl := subscribe_spec taken
    exact ⟨rfl, List.Sublist.refl _⟩
  | unsubscribe channel =>
    rcases unsubscribe_spec taken with ⟨_, rfl⟩ | ⟨_, rfl⟩
    · exact ⟨rfl, List.erase_sublist⟩
    · exact ⟨rfl, List.Sublist.refl _⟩
  | _ => exact absurd rfl calls

theorem Refined.step {a : Action} (h : Refined s) (taken : step s a = some s') : Refined s' := by
  refine ⟨h.link.step taken, ?_, ?_⟩
  · rw [topics_step h taken]
    unfold callEffect
    cases call a with
    | none => exact h.nodup
    | some op => exact OrderedSet.nodup_operate h.nodup op
  · by_cases no_call : call a = none
    · exact (step_stutter h.link no_call taken).held h.held
    · obtain ⟨same, fewer⟩ := held_call no_call taken
      intro waiting
      rw [h.held (same ▸ waiting)] at fewer
      exact List.sublist_nil.mp fewer

/-! ## The greeting replays the list -/

/-- The provider gives a text for every channel: no flush ends early. -/
theorem refusal_eq_none {provider : String → Token} (returns : ∀ c, ∃ token, provider c = .text token)
    (channels : List String) : refusal provider channels = none := by
  unfold refusal
  rw [List.findSome?_eq_none_iff]
  intro c _
  obtain ⟨token, text⟩ := returns c
  unfold subscribeMsg
  rw [text]

/-- The first greeting on a connection subscribes every wanted channel, once and in order. -/
theorem Refined.replays (h : Refined s) {json : Json} {provider : String → Token}
    (up : s.connected = true) (first : s.ready = false) (is_object : json.isObject = true)
    (greeting : textOf json "type" = "connected") (returns : ∀ c, ∃ token, provider c = .text token)
    (taken : WsSession.step s (.readDone s.generation (.message json) provider) = some s') :
    (∃ frames, given s' = given s ++ frames ∧
      frames.map topic = (topics s).map fun c => some (c, true)) ∧
    s'.subscriptions = topics s ∧ s'.pendingTopics = [] := by
  have waiting : topics s = s.pendingTopics := by
    unfold topics
    rw [h.held first]
    rfl
  have built := refusal_eq_none returns s.pendingTopics
  simp only [WsSession.step] at taken
  obtain ⟨member, ⟨_, rfl⟩ | ⟨past, _⟩⟩ := complete_spec taken
  · let greeted : State := { s.log (.greeted s.generation) with
      ops := s.ops.erase (.read s.generation), ready := true, connectedFlag := true,
      reconnectDelayS := 1, subscriptions := s.subscriptions ++ s.pendingTopics, pendingTopics := [] }
    have settled := h.link.settled_of_member member rfl rfl
    have link : Link greeted :=
      ((h.link.drop _).greet settled).frame (fun down => absurd (up.symm.trans down) (by simp))
        h.link.callers
    have dispatched : State.dispatch { s with ops := s.ops.erase (.read s.generation) } json
        provider = ((State.enqueueTopics provider s.pendingTopics greeted).1, none) := by
      have live : ¬((!s.connected || !true) = true) := by
        simp [up]
      unfold State.dispatch State.flushTopics
      dsimp only
      rw [if_pos greeting]
      refine (if_neg live).trans (Prod.ext rfl ?_)
      rw [enqueueTopics_refusal]
      exact built
    obtain ⟨frames, told, subscribes⟩ := given_enqueueTopics provider built link up
    have before : given greeted = given s := by
      have dropped : given { s with ops := s.ops.erase (.read s.generation) } = given s :=
        given_drop s (by simp)
      rw [← dropped]
      rfl
    have read : State.onRead { s with ops := s.ops.erase (.read s.generation) } s.generation
        (.message json) provider =
          (State.enqueueTopics provider s.pendingTopics greeted).1.readOn s.generation := by
      unfold State.onRead
      dsimp only
      rw [if_pos is_object, dispatched]
    have kept := still_readOn (State.enqueueTopics provider s.pendingTopics greeted).1 s.generation
    obtain ⟨outboundQueue, writeInFlight, ops, trace, eq⟩ :=
      enqueueTopics_eq provider s.pendingTopics greeted
    rw [read]
    refine ⟨⟨frames, ?_, ?_⟩, ?_, ?_⟩
    · rw [given_readOn, told, before]
    · rw [waiting]
      exact subscribes
    · rw [kept.subscriptions, eq]
      rfl
    · rw [kept.pendingTopics, eq]
  · exact absurd rfl past

/-! ## Every run -/

theorem refined_of_run {actions : List Action} (reached : run step State.start actions = some s) :
    Refined s :=
  run_invariant (fun _ _ _ h taken => h.step taken) refined_start reached

theorem topics_of_run {actions : List Action} (reached : run step State.start actions = some s) :
    topics s = wanted actions := by
  have refines := run_refines (I := Refined) (fun _ _ _ h taken => h.step taken)
    (fun _ _ _ h taken => topics_step h taken) refined_start reached
  rw [refines]
  exact foldl_callEffect actions

/-- The two lists are one list of distinct channels, the one the calls make; a channel is
subscribed exactly when its last call subscribed it; and the first greeting of every
connection replays the list, in order. -/
theorem topics_refine {actions : List Action} (reached : run step State.start actions = some s) :
    (topics s).Nodup ∧ topics s = wanted actions ∧
    (∀ c, s.isSubscribed c = true ↔ lastWrite c (actions.filterMap call) = some true) ∧
    ∀ json provider s', s.connected = true → s.ready = false → json.isObject = true →
      textOf json "type" = "connected" → (∀ c, ∃ token, provider c = .text token) →
      step s (.readDone s.generation (.message json) provider) = some s' →
        (∃ frames, given s' = given s ++ frames ∧
          frames.map topic = (wanted actions).map fun c => some (c, true)) ∧
        s'.subscriptions = wanted actions ∧ s'.pendingTopics = [] := by
  have h := refined_of_run reached
  have same := topics_of_run reached
  refine ⟨h.nodup, same, ?_, ?_⟩
  · intro c
    unfold State.isSubscribed
    rw [decide_eq_true_iff, ← List.mem_append, ← OrderedSet.mem_after_iff]
    have listed : c ∈ topics s ↔ c ∈ wanted actions := by
      rw [same]
    exact listed
  · intro json provider s' up first is_object greeting returns taken
    rw [← same]
    exact h.replays up first is_object greeting returns taken

/-- Two channels are subscribed before the connection is up; the first is dropped and
subscribed again, which moves it to the end. -/
def calling : List Action :=
  [.subscribe "order_book/0", .subscribe "order_book/1", .unsubscribe "order_book/0",
    .subscribe "order_book/0"]

theorem topics_refine_sample : ∃ s s',
    run step State.start (calling ++ connecting.dropLast) = some s ∧
      step s (.readDone s.generation (.message greeting) plainTokens) = some s' ∧
      s'.subscriptions = ["order_book/1", "order_book/0"] ∧
      s.isSubscribed "order_book/0" = true := by
  obtain ⟨s, reached, up, first, enabled⟩ : ∃ s,
      run step State.start (calling ++ connecting.dropLast) = some s ∧
        (s.connected = true ∧ s.ready = false ∧
          (step s (.readDone s.generation (.message greeting) plainTokens)).isSome = true) :=
    exists_run (by decide +kernel)
  obtain ⟨s', taken⟩ := Option.isSome_iff_exists.mp enabled
  obtain ⟨_, _, latest, replays⟩ := topics_refine reached
  have replayed := replays greeting plainTokens s' up first (by decide) (by decide)
    (fun _ => ⟨"", rfl⟩) taken
  exact ⟨s, s', reached, taken, replayed.2.1.trans (by decide),
    (latest "order_book/0").mpr (by decide)⟩

end LighterApi.Guarantees.WantedChannels

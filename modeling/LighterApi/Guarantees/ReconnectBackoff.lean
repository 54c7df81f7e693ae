import LighterApi.Library.Backoff
import LighterApi.Guarantees.WireAgreement

/-!
# The reconnect backoff

The session keeps the delay of the next reconnect at hand. An error arms it and doubles
it, the greeting sets it back, and a read sets it back on a connection that is ready,
where it is 1 already: being ready goes back to a greeting behind which nothing was armed.
So the waits follow the law in every run.
-/
namespace LighterApi.Guarantees.ReconnectBackoff
open LighterApi.Source LighterApi.Source.WsSession
open LighterApi.Library.Transition LighterApi.Library.Backoff SessionLink
open WireAgreement (connecting plainTokens)

/-- The seconds of a reconnect that is armed. -/
def reconnectSeconds : Event → Option Nat
  | .started (.reconnectWait _ seconds) => some seconds
  | _ => none

def isGreeting : Event → Bool
  | .greeted _ => true
  | _ => false

/-- The reconnects armed since a greeting was dispatched, or since the start. -/
def reconnects (events : List Event) : Nat := armed reconnectSeconds isGreeting events

/-- The delay is the one the law asks for, and a ready connection was greeted behind the
last reconnect. -/
structure Paced (s : State) : Prop where
  lawful : Lawful reconnectSeconds isGreeting reconnectDelayMaxInS s.trace
  delay : s.reconnectDelayS = next reconnectSeconds isGreeting reconnectDelayMaxInS s.trace
  ready : s.ready = true → reconnects s.trace = 0 ∧ .greeted s.generation ∈ s.trace

theorem paced_start : Paced State.start :=
  ⟨lawful_nil, rfl, fun ready => absurd ready (by decide)⟩

/-! ## What neither arms nor greets -/

/-- A handler that leaves the delay alone, and is ready only where it was. -/
structure Calm (s s' : State) : Prop where
  delay : s'.reconnectDelayS = s.reconnectDelayS
  ready : s'.ready = true → s.ready = true ∧ s'.generation = s.generation
  trace : ∃ events, s'.trace = events ++ s.trace ∧
    ∀ e ∈ events, isGreeting e = false ∧ reconnectSeconds e = none

variable {s s' : State}

theorem Calm.refl (s : State) : Calm s s := ⟨rfl, fun ready => ⟨ready, rfl⟩, [], rfl, by simp⟩

theorem Calm.trans {s'' : State} (first : Calm s s') (second : Calm s' s'') : Calm s s'' := by
  obtain ⟨events, trace, quiet⟩ := first.trace
  obtain ⟨events', trace', quiet'⟩ := second.trace
  refine ⟨second.delay.trans first.delay, fun ready => ?_, events' ++ events, ?_, ?_⟩
  · obtain ⟨between, generation'⟩ := second.ready ready
    obtain ⟨before, generation⟩ := first.ready between
    exact ⟨before, generation'.trans generation⟩
  · rw [trace', trace, List.append_assoc]
  · intro e member
    rcases List.mem_append.mp member with late | early
    · exact quiet' e late
    · exact quiet e early

theorem Paced.calm (h : Paced s) (calm : Calm s s') : Paced s' := by
  obtain ⟨events, trace, quiet⟩ := calm.trace
  refine ⟨?_, ?_, fun ready => ?_⟩
  · rw [trace]
    exact h.lawful.append fun e member => (quiet e member).2
  · rw [calm.delay, h.delay, trace, next_append quiet]
  · obtain ⟨before, generation⟩ := calm.ready ready
    obtain ⟨none_armed, greeted⟩ := h.ready before
    rw [generation, trace]
    exact ⟨(armed_append quiet).trans none_armed, List.mem_append_right _ greeted⟩

theorem calm_of_events (events : List Event) (delay : s'.reconnectDelayS = s.reconnectDelayS)
    (ready : s'.ready = s.ready) (generation : s'.generation = s.generation)
    (trace : s'.trace = events ++ s.trace)
    (quiet : ∀ e ∈ events, isGreeting e = false ∧ reconnectSeconds e = none) : Calm s s' :=
  ⟨delay, fun is_ready => ⟨ready.symm.trans is_ready, generation⟩, events, trace, quiet⟩

theorem calm_of_same (delay : s'.reconnectDelayS = s.reconnectDelayS) (ready : s'.ready = s.ready)
    (generation : s'.generation = s.generation) (trace : s'.trace = s.trace) : Calm s s' :=
  calm_of_events [] delay ready generation trace (by simp)

theorem calm_log (s : State) {event : Event} (other : isGreeting event = false)
    (silent : reconnectSeconds event = none) : Calm s (s.log event) :=
  calm_of_events [event] rfl rfl rfl rfl (by simp [other, silent])

theorem calm_launch (s : State) {op : Op} (silent : reconnectSeconds (.started op) = none) :
    Calm s (s.launch op) :=
  (calm_log s rfl silent).trans (calm_of_same rfl rfl rfl rfl)

theorem calm_enqueueOp (s : State) (frame : Frame) : Calm s (s.enqueueOp frame) :=
  (calm_log s rfl rfl).trans (calm_of_same rfl rfl rfl rfl)

theorem calm_pump (s : State) : Calm s s.pump := by
  rcases pump_cases s with same | ⟨frame, rest, _, _, _, pumped⟩
  · rw [same]
    exact .refl s
  · rw [pumped]
    exact (calm_launch s rfl).trans (calm_of_same rfl rfl rfl rfl)

theorem calm_send (s : State) (frame : Frame) : Calm s (s.enqueueOp frame).pump :=
  (calm_enqueueOp s frame).trans (calm_pump _)

theorem calm_flushTopics (s : State) (provider : String → Token) :
    Calm s (s.flushTopics provider).1 :=
  flushTopics_relates Calm.refl Calm.trans (fun _ => calm_of_same rfl rfl rfl rfl) calm_enqueueOp
    calm_pump s provider

/-- A new connection is not ready. -/
theorem calm_startConnect (s : State) : Calm s s.startConnect := by
  unfold State.startConnect
  split
  · exact .refl s
  · refine ⟨rfl, fun ready => absurd ready (by simp [State.launch, State.log]), ?_⟩
    exact ⟨[.started (.resolve (s.generation + 1))], rfl, by simp [isGreeting, reconnectSeconds]⟩

theorem calm_onHandshake (s : State) (gen : Nat) : Calm s (s.onHandshake gen) := by
  unfold State.onHandshake
  dsimp only
  have shaken : Calm s { s.log (.handshake gen) with wsOpen := true } :=
    (calm_log s rfl rfl).trans (calm_of_same rfl rfl rfl rfl)
  split
  · exact shaken
  · have up : Calm s { s.log (.handshake gen) with wsOpen := true, connected := true } :=
      shaken.trans (calm_of_same rfl rfl rfl rfl)
    exact (up.trans (calm_launch _ rfl)).trans (calm_launch _ rfl)

theorem calm_closeByUser (s : State) : Calm s s.closeByUser := by
  unfold State.closeByUser
  split
  · exact .refl s
  · split
    · exact (calm_log s rfl rfl).trans (calm_of_same rfl rfl rfl rfl)
    · exact (calm_log s rfl rfl).trans (calm_of_same rfl rfl rfl rfl)

theorem calm_onReconnectTimer (s : State) (ok : Bool) : Calm s (s.onReconnectTimer ok) := by
  have idle : Calm s { s with reconnectScheduled := false } := calm_of_same rfl rfl rfl rfl
  unfold State.onReconnectTimer
  dsimp only
  split
  · exact idle
  · exact idle.trans (calm_startConnect _)

theorem calm_runPosted {provider : String → Token} (taken : runPosted s provider = some s') :
    Calm s s' := by
  unfold WsSession.runPosted at taken
  split at taken
  · exact absurd taken (by simp)
  · rename_i handler rest posted
    have taken_off : Calm s { s with posted := rest } := calm_of_same rfl rfl rfl rfl
    apply taken_off.trans
    dsimp only at taken
    split at taken
    · exact Option.some.inj taken ▸ calm_startConnect _
    · exact Option.some.inj taken ▸ calm_flushTopics _ provider
    · rw [← Option.some.inj taken]
      split
      · exact calm_send _ _
      · exact .refl _
    · exact Option.some.inj taken ▸ calm_closeByUser _

/-! ## What arms or greets -/

/-- An error arms the delay and doubles it. -/
theorem Paced.handleError (h : Paced s) (gen : Nat) : Paced (s.handleError gen) := by
  rcases handleError_cases s gen with ⟨same, _⟩ | ⟨_, _, ⟨noted, _⟩ | ⟨_, failed⟩⟩
  · rw [same]
    exact h
  · rw [noted]
    exact h.calm (calm_log s rfl rfl)
  · rw [failed]
    have noted : Paced (s.log (.failed gen)) := h.calm (calm_log s rfl rfl)
    refine ⟨?_, ?_, fun ready => absurd ready (by simp)⟩
    · apply noted.lawful.cons
      intro seconds waits
      rw [← Option.some.inj waits]
      exact noted.delay
    · rw [next_of_wait rfl rfl]
      exact congrArg (fun seconds => min (seconds * 2) reconnectDelayMaxInS) noted.delay

/-- The greeting sets the delay back. -/
theorem Paced.greet (h : Paced s) : Paced { s.log (.greeted s.generation) with
    ready := true, connectedFlag := true, reconnectDelayS := 1 } := by
  refine ⟨h.lawful.other rfl, ?_, fun _ => ⟨armed_of_reset rfl, List.mem_cons_self⟩⟩
  exact (next_of_reset rfl (by decide)).symm

/-- On a ready connection the delay is 1. -/
theorem Paced.delay_of_ready (h : Paced s) :
    (if s.ready then 1 else s.reconnectDelayS) = s.reconnectDelayS := by
  split
  · rename_i ready
    have none_armed : armed reconnectSeconds isGreeting s.trace = 0 := (h.ready ready).1
    rw [h.delay, next, none_armed]
    decide
  · rfl

theorem Paced.readOn (h : Paced s) (gen : Nat) : Paced (s.readOn gen) := by
  unfold State.readOn
  split
  · exact h
  · rw [h.delay_of_ready]
    exact h.calm (calm_launch s rfl)

theorem Paced.dispatch (h : Paced s) (json : Json) (provider : String → Token) :
    Paced (s.dispatch json provider).1 := by
  unfold State.dispatch
  dsimp only
  split
  · exact h.greet.calm (calm_flushTopics _ provider)
  · split
    · exact h.calm (calm_send s .pong)
    · exact h

theorem Paced.onRead (h : Paced s) (gen : Nat) (result : State.ReadResult)
    (provider : String → Token) : Paced (s.onRead gen result provider) := by
  apply onRead_of (J := Paced)
  · exact h
  · exact fun json _ _ => h.dispatch json provider
  · exact fun s' handled => handled.readOn gen
  · exact fun s' handled => handled.handleError gen
  · exact fun s' handled => handled

theorem Paced.onPingTimer (h : Paced s) (gen : Nat) (ok silent : Bool) :
    Paced (s.onPingTimer gen ok silent) := by
  unfold State.onPingTimer
  split
  · exact h
  · split
    · exact h.handleError gen
    · have pinged : Calm s (if s.connected && s.ready then (s.enqueueOp .ping).pump else s) := by
        split
        · exact calm_send s .ping
        · exact .refl s
      exact h.calm (pinged.trans (calm_launch _ rfl))

/-! ## Every step -/

theorem Paced.complete (h : Paced s) {op : Op} {handler : State → State}
    (handles : ∀ s, Paced s → Paced (handler s)) (taken : s.complete op handler = some s') :
    Paced s' := by
  have dropped : Paced { s with ops := s.ops.erase op } := h.calm (calm_of_same rfl rfl rfl rfl)
  obtain ⟨_, ⟨_, rfl⟩ | ⟨_, rfl⟩⟩ := complete_spec taken
  · exact handles _ dropped
  · exact dropped

/-- A step of the connect chain goes on with the next one, or fails. -/
theorem Paced.chain (h : Paced s) (gen : Nat) {next : Op} (ok : Bool)
    (silent : reconnectSeconds (.started next) = none) :
    Paced (if ok then s.launch next else s.handleError gen) := by
  split
  · exact h.calm (calm_launch s silent)
  · exact h.handleError gen

theorem Paced.writeDone (h : Paced s) {gen : Nat} {frame : Frame} {ok : Bool}
    (taken : step s (.writeDone gen frame ok) = some s') : Paced s' := by
  have idle : ∀ s : State, Calm s { s with writeInFlight := false } :=
    fun s => calm_of_same rfl rfl rfl rfl
  cases ok with
  | true =>
    simp only [step, if_true] at taken
    exact (h.calm (calm_log s rfl rfl)).complete
      (fun s paced => paced.calm ((idle s).trans (calm_pump _))) taken
  | false =>
    simp only [step, Bool.false_eq_true, if_false] at taken
    exact h.complete (fun s paced => (paced.calm (idle s)).handleError gen) taken

theorem Paced.step {a : Action} (h : Paced s) (taken : step s a = some s') : Paced s' := by
  cases a with
  | subscribe channel =>
    obtain rfl := subscribe_spec taken
    exact h.calm (calm_of_same rfl rfl rfl rfl)
  | unsubscribe channel =>
    obtain ⟨_, rfl⟩ | ⟨_, rfl⟩ := unsubscribe_spec taken
    · exact h.calm (calm_of_same rfl rfl rfl rfl)
    · exact h.calm (calm_of_same rfl rfl rfl rfl)
  | post handler =>
    obtain ⟨_, rfl⟩ := post_spec taken
    exact h.calm (calm_of_same rfl rfl rfl rfl)
  | close => exact Option.some.inj taken ▸ h.calm (calm_of_same rfl rfl rfl rfl)
  | execute provider => exact h.calm (calm_runPosted taken)
  | streamFails => exact Option.some.inj taken ▸ h.calm (calm_of_same rfl rfl rfl rfl)
  | resolved gen ok =>
    simp only [WsSession.step] at taken
    exact h.complete (fun _ paced => paced.chain gen ok rfl) taken
  | tcpConnected gen ok sni =>
    simp only [WsSession.step] at taken
    exact h.complete (fun _ paced => paced.chain gen (ok && sni) rfl) taken
  | tlsDone gen ok =>
    simp only [WsSession.step] at taken
    exact h.complete (fun _ paced => paced.chain gen ok rfl) taken
  | wsDone gen ok =>
    simp only [WsSession.step] at taken
    refine h.complete (fun s paced => ?_) taken
    split
    · exact paced.calm (calm_onHandshake s gen)
    · exact paced.handleError gen
  | readDone gen result provider =>
    simp only [WsSession.step] at taken
    exact h.complete (fun _ paced => paced.onRead gen result provider) taken
  | writeDone gen frame ok => exact h.writeDone taken
  | pingFired gen ok silent =>
    simp only [WsSession.step] at taken
    exact h.complete (fun _ paced => paced.onPingTimer gen ok silent) taken
  | reconnectFired gen seconds ok =>
    simp only [WsSession.step] at taken
    exact h.complete (fun s paced => paced.calm (calm_onReconnectTimer s ok)) taken

theorem paced_of_run {actions : List Action} (reached : run step State.start actions = some s) :
    Paced s :=
  run_invariant (fun _ _ _ kept taken => kept.step taken) paced_start reached

/-! ## The law -/

/-- Another message than the greeting leaves the delay of an ungreeted connection alone. -/
theorem Paced.other_message (h : Paced s) {gen : Nat} {json : Json} {provider : String → Token}
    (taken : WsSession.step s (.readDone gen (.message json) provider) = some s')
    (ungreeted : .greeted s.generation ∉ s.trace)
    (other : json.isObject = true → textOf json "type" ≠ "connected") :
    s'.reconnectDelayS = s.reconnectDelayS := by
  have unready : s.ready = false := by
    by_contra ready
    exact ungreeted (h.ready (Bool.not_eq_false _ ▸ ready)).2
  simp only [WsSession.step] at taken
  obtain ⟨_, ⟨_, rfl⟩ | ⟨_, rfl⟩⟩ := complete_spec taken
  · let taken_off : State := { s with ops := s.ops.erase (.read gen) }
    have handled : ∃ after, (if json.isObject then taken_off.dispatch json provider
        else (taken_off, none)) = (after, none) ∧ Calm s after := by
      have dropped : Calm s taken_off := calm_of_same rfl rfl rfl rfl
      by_cases object : json.isObject = true
      · rw [if_pos object, State.dispatch]
        dsimp only
        rw [if_neg (other object)]
        split
        · exact ⟨_, rfl, dropped.trans (calm_send _ _)⟩
        · exact ⟨_, rfl, dropped⟩
      · rw [if_neg object]
        exact ⟨_, rfl, dropped⟩
    obtain ⟨after, dispatched, calm⟩ := handled
    have read_on : taken_off.onRead gen (.message json) provider = after.readOn gen := by
      unfold State.onRead
      dsimp only
      rw [dispatched]
    have still_unready : after.ready = false := by
      by_contra ready
      have before := (calm.ready (Bool.not_eq_false _ ▸ ready)).1
      exact absurd (before.symm.trans unready) (by decide)
    rw [read_on, ← calm.delay]
    unfold State.readOn
    split
    · rfl
    · rw [still_unready]
      rfl
  · rfl

/-- In every run the n-th reconnect armed since the last greeting waits 1, 2, 4 and so on
seconds, up to 30, and no message but the greeting shortens the wait of a connection that
was not greeted. -/
theorem backoff_law {actions : List Action} (reached : run step State.start actions = some s) :
    (∀ later gen seconds earlier,
      s.trace = later ++ .started (.reconnectWait gen seconds) :: earlier →
        seconds = min (2 ^ (reconnects (.started (.reconnectWait gen seconds) :: earlier) - 1))
          reconnectDelayMaxInS) ∧
      ∀ gen json provider s', step s (.readDone gen (.message json) provider) = some s' →
        .greeted s.generation ∉ s.trace →
        (json.isObject = true → textOf json "type" ≠ "connected") →
        s'.reconnectDelayS = s.reconnectDelayS := by
  have paced := paced_of_run reached
  constructor
  · intro later gen seconds earlier split
    have due := paced.lawful later _ earlier seconds split rfl
    have one_more : reconnects (.started (.reconnectWait gen seconds) :: earlier) =
        reconnects earlier + 1 := armed_of_wait rfl rfl
    rw [one_more, Nat.add_sub_cancel]
    exact due
  · intro gen json provider s' taken ungreeted other
    exact paced.other_message taken ungreeted other

/-- A greeted connection is lost, and two more fail before they are greeted, the last one
after a message. -/
def failing : List Action := connecting ++
  [.readDone 1 .error plainTokens, .reconnectFired 1 1 true, .resolved 2 false,
    .reconnectFired 2 2 true, .resolved 3 true, .tcpConnected 3 true true, .tlsDone 3 true,
    .wsDone 3 true, .readDone 3 (.message (.obj [("type", .str "pong")])) plainTokens,
    .readDone 3 .error plainTokens]

theorem backoff_law_sample : ∃ s, run step State.start failing = some s ∧
    s.trace.filterMap reconnectSeconds = [4, 2, 1] ∧
    ∀ later gen seconds earlier,
      s.trace = later ++ .started (.reconnectWait gen seconds) :: earlier →
        seconds = min (2 ^ (reconnects (.started (.reconnectWait gen seconds) :: earlier) - 1))
          reconnectDelayMaxInS := by
  obtain ⟨s, reached, waits⟩ : ∃ s, run step State.start failing = some s ∧
      s.trace.filterMap reconnectSeconds = [4, 2, 1] :=
    exists_run (by decide +kernel)
  exact ⟨s, reached, waits, (backoff_law reached).1⟩

end LighterApi.Guarantees.ReconnectBackoff

import Mathlib.Logic.Relation
import LighterApi.Guarantees.SessionLink

/-!
# The moves of the session

Every step of the session is a sequence of moves, each of which notes at most one event:
an operation starts or completes, a frame is queued or handed to the writer, a handshake,
a greeting, an error or a close is handled. What every move keeps, every run keeps. A
greeting, an answer to a ping and a close are moves only where a rule allows them, so
that what holds of the runs that keep a rule can be said of the moves as well.
-/
namespace LighterApi.Guarantees.SessionMoves
open LighterApi.Source LighterApi.Source.WsSession LighterApi.Library.Transition SessionLink

/-- When an event may happen: by the flags `connected`, `userClosed` and `connectedFlag`. -/
abbrev Rule := Event → Bool → Bool → Bool → Prop

def Rule.allows (ok : Rule) (s : State) (event : Event) : Prop :=
  ok event s.connected s.userClosed s.connectedFlag

def isSubscribe : Frame → Bool
  | .subscribe _ _ => true
  | _ => false

/-- What the completion of a step of the connect chain starts. -/
def successor : Op → Option Op
  | .resolve gen => some (.connect gen)
  | .connect gen => some (.tlsHandshake gen)
  | .tlsHandshake gen => some (.wsHandshake gen)
  | _ => none

inductive Move (ok : Rule) (s : State) : State → Prop
  | keep {writeInFlight : Bool} {subscriptions pendingTopics : List String} {reconnectDelayS : Nat}
      {reconnectScheduled wsOpen : Bool} {ops : List Op} {posted calls : List Posted}
      (fewer : ops.Sublist s.ops) :
      Move ok s { s with
        writeInFlight, subscriptions, pendingTopics, reconnectDelayS, reconnectScheduled, wsOpen,
        ops, posted, calls }
  | write (gen : Nat) (frame : Frame) : Move ok s (s.log (.written gen frame))
  | read : Move ok s (s.launch (.read s.generation))
  | wait (opened : s.userClosed = false) : Move ok s (s.launch (.pingWait s.generation))
  | advance {op next : Op} (member : op ∈ s.ops) (current : op.gen = s.generation)
      (follows : successor op = some next) :
      Move ok s ({ s with ops := s.ops.erase op }.launch next)
  | enqueue {frame : Frame} (up : s.connected = true)
      (greeted : isSubscribe frame = true → s.ready = true) : Move ok s (s.enqueueOp frame)
  | answer (allowed : ok.allows s (.enqueued .pong)) : Move ok s (s.enqueueOp .pong)
  | send {frame : Frame} {rest : List Frame} (settled : Settled s) (up : s.connected = true)
      (idle : inflight s = []) (queue : s.outboundQueue = frame :: rest) :
      Move ok s ({ s with outboundQueue := rest, writeInFlight := true }.launch
        (.write s.generation frame))
  | lose (opened : s.userClosed = false) :
      Move ok s ({ s.log (.failed s.generation) with
        reconnectScheduled := true, connected := false, ready := false, connectedFlag := false,
        writeInFlight := false, outboundQueue := [],
        pendingTopics := s.subscriptions ++ s.pendingTopics, subscriptions := [],
        reconnectDelayS := min (s.reconnectDelayS * 2) reconnectDelayMaxInS }.launch
          (.reconnectWait s.generation s.reconnectDelayS))
  | fail (closed : s.userClosed = true) : Move ok s (s.log (.failed s.generation))
  | connect (opened : s.userClosed = false) (down : s.connected = false) :
      Move ok s s.startConnect
  | up (opened : s.userClosed = false) (member : .wsHandshake s.generation ∈ s.ops)
      (vacant : Vacant { s with ops := s.ops.erase (.wsHandshake s.generation) }) :
      Move ok s { s.log (.handshake s.generation) with
        ops := s.ops.erase (.wsHandshake s.generation), wsOpen := true, connected := true }
  | shake (closed : s.userClosed = true)
      (vacant : Vacant { s with ops := s.ops.erase (.wsHandshake s.generation) }) :
      Move ok s { s.log (.handshake s.generation) with
        ops := s.ops.erase (.wsHandshake s.generation), wsOpen := true }
  | greet (allowed : ok.allows s (.greeted s.generation)) (settled : Settled s) :
      Move ok s { s.log (.greeted s.generation) with
        ready := true, connectedFlag := true, reconnectDelayS := 1 }
  | close {wsOpen : Bool} (allowed : ok.allows s .closed) :
      Move ok s { s.log .closed with userClosed := true, wsOpen }

abbrev Moves (ok : Rule) : State → State → Prop := Relation.ReflTransGen (Move ok)

variable {ok : Rule} {s s' : State}

/-- What every move keeps, a sequence of moves keeps. -/
theorem Moves.invariant {I : State → Prop} (keeps : ∀ s s', I s → Move ok s s' → I s')
    (moves : Moves ok s s') (start : I s) : I s' := by
  induction moves with
  | refl => exact start
  | tail _ move ih => exact keeps _ _ ih move

/-! ## The condition -/

/-- The rule allows the greeting, the answer and the close that the action brings. -/
def Permits (ok : Rule) (s : State) : Action → Prop
  | .execute _ =>
    s.posted.head? = some .closeByUser → s.userClosed = false → ok.allows s .closed
  | .readDone gen (.message json) _ =>
    .read gen ∈ s.ops → gen = s.generation → json.isObject = true →
      (textOf json "type" = "connected" → ok.allows s (.greeted s.generation)) ∧
        (textOf json "type" = "ping" → ok.allows s (.enqueued .pong))
  | _ => True

/-! ## The helpers -/

theorem moves_pump (link : Link s) : Moves ok s s.pump := by
  unfold State.pump
  split
  · exact .refl
  · rename_i free
    simp only [Bool.or_eq_true, not_or, Bool.not_eq_true, Bool.not_eq_false'] at free
    split
    · exact .refl
    · rename_i frame rest queue
      have settled := link.settled_of_up free.1.2
      exact .single (.send settled free.1.2 ((link.writes free.1.2).2 free.1.1) queue)

theorem moves_send {frame : Frame} (link : Link s) (up : s.connected = true)
    (greeted : isSubscribe frame = true → s.ready = true) : Moves ok s (s.enqueueOp frame).pump :=
  .head (.enqueue up greeted) (moves_pump (link.enqueue (Or.inr up)))

theorem moves_enqueueTopics (link : Link s) (up : s.connected = true) (ready : s.ready = true)
    (provider : String → Token) (channels : List String) :
    Moves ok s (State.enqueueTopics provider channels s).1 := by
  induction channels generalizing s with
  | nil => exact moves_pump link
  | cons channel rest ih =>
    unfold State.enqueueTopics
    split
    · exact .refl
    · exact .head (.enqueue up fun _ => ready) (ih (link.enqueue (Or.inr up)) up ready)

theorem moves_flushTopics (link : Link s) (provider : String → Token) :
    Moves ok s (s.flushTopics provider).1 := by
  unfold State.flushTopics
  split
  · exact .refl
  · rename_i flushes
    simp only [Bool.or_eq_true, Bool.not_eq_true', not_or, Bool.not_eq_false] at flushes
    have moved : Link { s with
        subscriptions := s.subscriptions ++ s.pendingTopics, pendingTopics := [] } :=
      link.frame (fun down => absurd (flushes.1.symm.trans down) (by simp)) link.callers
    exact .head (.keep (List.Sublist.refl _))
      (moves_enqueueTopics moved flushes.1 flushes.2 provider _)

theorem moves_handleError (gen : Nat) : Moves ok s (s.handleError gen) := by
  unfold State.handleError
  split
  · exact .refl
  · rename_i current
    have same : gen = s.generation := by
      by_contra other
      exact current (by simp [other])
    subst same
    split
    · rename_i closed
      exact .single (.fail closed)
    · rename_i opened
      exact .single (.lose (Bool.not_eq_true _ ▸ opened))

theorem moves_startConnect (down : s.connected = false) :
    Moves ok s s.startConnect := by
  by_cases closed : s.userClosed = true
  · unfold State.startConnect
    rw [if_pos closed]
  · exact .single (.connect (Bool.not_eq_true _ ▸ closed) down)

/-! ## The handlers -/

theorem moves_onHandshake (member : .wsHandshake s.generation ∈ s.ops)
    (vacant : Vacant { s with ops := s.ops.erase (.wsHandshake s.generation) }) :
    Moves ok s ({ s with ops := s.ops.erase (.wsHandshake s.generation) }.onHandshake
      s.generation) := by
  unfold State.onHandshake
  dsimp only
  split
  · rename_i closed
    exact .single (.shake closed vacant)
  · rename_i opened
    have still_open : s.userClosed = false := Bool.not_eq_true _ ▸ opened
    refine .head (.up still_open member vacant) (.head (.wait still_open) (.single ?_))
    exact .read

theorem moves_dispatch (link : Link s) (settled : Settled s) {json : Json}
    {provider : String → Token}
    (permits : (textOf json "type" = "connected" → ok.allows s (.greeted s.generation)) ∧
      (textOf json "type" = "ping" → ok.allows s (.enqueued .pong))) :
    Moves ok s (s.dispatch json provider).1 := by
  unfold State.dispatch
  dsimp only
  split
  · rename_i greeting
    exact .head (.greet (permits.1 greeting) settled)
      (moves_flushTopics (link.greet settled) provider)
  · split
    · rename_i ping
      exact .head (.answer (permits.2 ping)) (moves_pump (link.enqueue (Or.inl rfl)))
    · exact .refl

theorem moves_readOn (gen : Nat) : Moves ok s (s.readOn gen) := by
  unfold State.readOn
  split
  · exact .refl
  · rename_i reads
    have same : gen = s.generation := by
      by_contra other
      exact reads (by simp [other])
    subst same
    have delayed : Move ok s { s with
        reconnectDelayS := if s.ready then 1 else s.reconnectDelayS } := .keep (List.Sublist.refl _)
    exact .head delayed (.single .read)

theorem moves_onRead (link : Link s) (settled : Settled s) {gen : Nat} {result : State.ReadResult}
    {provider : String → Token}
    (permits : ∀ json, result = .message json → json.isObject = true →
      (textOf json "type" = "connected" → ok.allows s (.greeted s.generation)) ∧
        (textOf json "type" = "ping" → ok.allows s (.enqueued .pong))) :
    Moves ok s (s.onRead gen result provider) := by
  apply onRead_of (J := Moves ok s)
  · exact .refl
  · exact fun json message object => moves_dispatch link settled (permits json message object)
  · exact fun s' handled => handled.trans (moves_readOn gen)
  · exact fun s' handled => handled.trans (moves_handleError gen)
  · exact fun s' handled => handled

theorem moves_onPingTimer (link : Link s) (passed silent : Bool) :
    Moves ok s (s.onPingTimer s.generation passed silent) := by
  unfold State.onPingTimer
  split
  · exact .refl
  · rename_i goes_on
    simp only [Bool.or_eq_true, Bool.not_eq_true', not_or, Bool.not_eq_true] at goes_on
    split
    · exact moves_handleError _
    · split
      · rename_i up
        rw [Bool.and_eq_true] at up
        have sent : Moves ok s (s.enqueueOp .ping).pump :=
          moves_send link up.1 fun _ => up.2
        have same := (stays_enqueue s .ping).trans (stays_pump _)
        have opened : (s.enqueueOp .ping).pump.userClosed = false := by
          rcases pump_cases (s.enqueueOp .ping) with idle | ⟨_, _, _, _, _, pumped⟩
          · rw [idle]
            exact goes_on.2
          · rw [pumped]
            exact goes_on.2
        rw [← same.generation]
        exact sent.tail (.wait opened)
      · exact .single (.wait goes_on.2)

theorem moves_onReconnectTimer (down : s.connected = false) (passed : Bool) :
    Moves ok s (s.onReconnectTimer passed) := by
  have fired : Move ok s { s with reconnectScheduled := false } := .keep (List.Sublist.refl _)
  unfold State.onReconnectTimer
  dsimp only
  split
  · exact .single fired
  · rename_i goes_on
    simp only [Bool.or_eq_true, Bool.not_eq_true', not_or, Bool.not_eq_true] at goes_on
    exact .head fired (.single (.connect goes_on.2 down))

theorem moves_closeByUser (permits : s.userClosed = false → ok.allows s .closed) :
    Moves ok s s.closeByUser := by
  unfold State.closeByUser
  split
  · exact .refl
  · rename_i opened
    have allowed := permits (Bool.not_eq_true _ ▸ opened)
    split
    · exact .single (.close allowed)
    · exact .single (.close allowed)

theorem moves_runPosted (link : Link s) {provider : String → Token}
    (permits : Permits ok s (.execute provider)) (taken : runPosted s provider = some s') :
    Moves ok s s' := by
  unfold WsSession.runPosted at taken
  split at taken
  · exact absurd taken (by simp)
  · rename_i handler rest posted
    obtain ⟨taken_off, _⟩ := link.take posted
    have first : Move ok s { s with posted := rest } := .keep (List.Sublist.refl _)
    dsimp only at taken
    split at taken
    · have idle := (link.starting (posted ▸ List.mem_cons_self)).2
      rw [← Option.some.inj taken]
      exact .head first (moves_startConnect idle.2.1)
    · rw [← Option.some.inj taken]
      exact .head first (moves_flushTopics taken_off provider)
    · rw [← Option.some.inj taken]
      split
      · rename_i up
        exact .head first (moves_send taken_off up (by simp [isSubscribe]))
      · exact .single first
    · rw [← Option.some.inj taken]
      refine .head first (moves_closeByUser fun opened => ?_)
      exact permits (by rw [posted]; rfl) opened

/-! ## Every step -/

theorem moves_drop (s : State) (op : Op) : Move ok s { s with ops := s.ops.erase op } :=
  .keep List.erase_sublist

/-- A step of the connect chain completes. -/
theorem moves_chainDone (op : Op) {next : Op} {passed : Bool} (follows : successor op = some next)
    (taken : s.complete op
      (fun s => if passed then s.launch next else s.handleError op.gen) = some s') :
    Moves ok s s' := by
  obtain ⟨member, ⟨current, rfl⟩ | ⟨_, rfl⟩⟩ := complete_spec taken
  · split
    · exact .single (.advance member current follows)
    · exact .head (moves_drop s op) (moves_handleError _)
  · exact .single (moves_drop s op)

theorem moves_writeDone (link : Link s) {gen : Nat} {frame : Frame} {passed : Bool}
    (taken : step s (.writeDone gen frame passed) = some s') : Moves ok s s' := by
  cases passed with
  | true =>
    simp only [step, if_true] at taken
    have noted : Move ok s (s.log (.written gen frame)) := .write gen frame
    obtain ⟨member, ⟨current, rfl⟩ | ⟨_, rfl⟩⟩ := complete_spec taken
    · have idle := ((link.log member).drop (.write gen frame)).idle fun up =>
        (inflight_of_write (link.log member) member current up).2
      have cleared : Move ok (s.log (.written gen frame)) { s.log (.written gen frame) with
          ops := s.ops.erase (.write gen frame), writeInFlight := false } :=
        .keep List.erase_sublist
      exact .head noted (.head cleared (moves_pump idle))
    · exact .head noted (.single (moves_drop _ _))
  | false =>
    simp only [step, Bool.false_eq_true, if_false] at taken
    obtain ⟨member, ⟨current, rfl⟩ | ⟨_, rfl⟩⟩ := complete_spec taken
    · have cleared : Move ok s { s with
          ops := s.ops.erase (.write gen frame), writeInFlight := false } :=
        .keep List.erase_sublist
      exact .head cleared (moves_handleError gen)
    · exact .single (moves_drop _ _)

theorem moves_of_step {a : Action} (link : Link s) (permits : Permits ok s a)
    (taken : step s a = some s') : Moves ok s s' := by
  cases a with
  | subscribe channel =>
    obtain rfl := subscribe_spec taken
    exact .single (.keep (List.Sublist.refl _))
  | unsubscribe channel =>
    rcases unsubscribe_spec taken with ⟨_, rfl⟩ | ⟨_, rfl⟩
    · exact .single (.keep (List.Sublist.refl _))
    · exact .single (.keep (List.Sublist.refl _))
  | post handler =>
    obtain ⟨_, rfl⟩ := post_spec taken
    exact .single (.keep (List.Sublist.refl _))
  | close =>
    obtain rfl := Option.some.inj taken
    exact .single (.keep (List.Sublist.refl _))
  | execute provider => exact moves_runPosted link permits taken
  | streamFails =>
    obtain rfl := Option.some.inj taken
    exact .single (.keep (List.Sublist.refl _))
  | resolved gen passed => exact moves_chainDone (.resolve gen) rfl taken
  | tcpConnected gen passed sni => exact moves_chainDone (.connect gen) rfl taken
  | tlsDone gen passed => exact moves_chainDone (.tlsHandshake gen) rfl taken
  | wsDone gen passed =>
    simp only [step] at taken
    obtain ⟨member, ⟨current, rfl⟩ | ⟨_, rfl⟩⟩ := complete_spec taken
    · obtain ⟨vacant, _⟩ := link.vacant_of_member member rfl current
      have same : gen = s.generation := current
      subst same
      split
      · exact moves_onHandshake member vacant
      · exact .head (moves_drop s (.wsHandshake s.generation)) (moves_handleError _)
    · exact .single (moves_drop _ _)
  | readDone gen result provider =>
    simp only [step] at taken
    obtain ⟨member, ⟨current, rfl⟩ | ⟨_, rfl⟩⟩ := complete_spec taken
    · refine .head (moves_drop s _)
        (moves_onRead (link.drop _) (link.settled_of_member member rfl current) ?_)
      intro json here object
      subst here
      exact permits member current object
    · exact .single (moves_drop _ _)
  | writeDone gen frame passed => exact moves_writeDone link taken
  | pingFired gen passed silent =>
    simp only [step] at taken
    obtain ⟨member, ⟨current, rfl⟩ | ⟨_, rfl⟩⟩ := complete_spec taken
    · have same : gen = s.generation := current
      subst same
      exact .head (moves_drop s _) (moves_onPingTimer (link.drop _) passed silent)
    · exact .single (moves_drop _ _)
  | reconnectFired gen seconds passed =>
    simp only [step] at taken
    obtain ⟨member, ⟨current, rfl⟩ | ⟨_, rfl⟩⟩ := complete_spec taken
    · have same : gen = s.generation := current
      subst same
      refine .head (moves_drop s (.reconnectWait s.generation seconds)) ?_
      apply moves_onReconnectTimer
      exact link.waits seconds member
    · exact .single (moves_drop _ _)

/-- What every move keeps under the rule holds after the runs whose steps meet it. -/
theorem run_of_moves {condition : State → Action → Prop} {I : State → Prop}
    {actions : List Action} (keeps : ∀ s s', I s → Move ok s s' → I s')
    (permits : ∀ s a, condition s a → Permits ok s a) (start : I State.start)
    (meets : Meets step condition State.start actions)
    (reached : run step State.start actions = some s) : Link s ∧ I s := by
  apply run_invariant_of_meets (I := fun s => Link s ∧ I s) _ ⟨link_start, start⟩ meets reached
  intro before a after kept condition taken
  have moves := moves_of_step kept.1 (permits before a condition) taken
  exact ⟨kept.1.step taken, moves.invariant keeps kept.2⟩

/-! ## What happens on a stream -/

/-- The generation of the stream on which an event happens. -/
def stream : Event → Option Nat
  | .handshake gen | .greeted gen | .started (.write gen _) => some gen
  | _ => none

/-- Nothing has happened on later streams, nor on that of a connect chain still running. -/
structure Fresh (s : State) : Prop where
  past : ∀ e ∈ s.trace, ∀ gen, stream e = some gen → gen ≤ s.generation
  chain : ∀ op ∈ s.ops, op.isChain = true → op.gen = s.generation →
    ∀ e ∈ s.trace, stream e ≠ some s.generation

theorem fresh_start : Fresh State.start := by
  constructor <;> simp [State.start]

/-- Nothing happens on a stream, and no connect chain starts. -/
theorem Fresh.aside (h : Fresh s) (generation : s'.generation = s.generation)
    (known : ∀ e ∈ s'.trace, e ∈ s.trace ∨ stream e = none)
    (ops : ∀ op ∈ s'.ops, op.isChain = true →
      ∃ op' ∈ s.ops, op'.isChain = true ∧ op'.gen = op.gen) : Fresh s' := by
  refine ⟨fun e member gen on => ?_, fun op member is_chain current e among => ?_⟩
  · rw [generation]
    rcases known e member with old | off
    · exact h.past e old gen on
    · exact absurd (off.symm.trans on) (by simp)
  · rw [generation] at current ⊢
    rcases known e among with old | off
    · obtain ⟨op', member', is_chain', same⟩ := ops op member is_chain
      exact h.chain op' member' is_chain' (same.trans current) e old
    · rw [off]
      simp

/-- Something happens on the stream of a connection that is settled. -/
theorem Fresh.here (h : Fresh s) {e : Event} (generation : s'.generation = s.generation)
    (on : stream e = some s.generation) (noted : s'.trace = e :: s.trace)
    (settled : ∀ op ∈ s'.ops, op.isChain = true → op.gen ≠ s.generation) : Fresh s' := by
  refine ⟨fun e' member gen on' => ?_, fun op member is_chain current => ?_⟩
  · rw [noted] at member
    rw [generation]
    rcases List.mem_cons.mp member with rfl | old
    · exact (Option.some.inj (on'.symm.trans on)).le
    · exact h.past e' old gen on'
  · rw [generation] at current
    exact absurd current (settled op member is_chain)

/-- An event that happens on no stream, while no connect chain starts. -/
theorem Fresh.note (h : Fresh s) {e : Event} (generation : s'.generation = s.generation)
    (noted : s'.trace = e :: s.trace) (aside : stream e = none)
    (ops : ∀ op ∈ s'.ops, op.isChain = true →
      ∃ op' ∈ s.ops, op'.isChain = true ∧ op'.gen = op.gen) : Fresh s' := by
  refine h.aside generation (fun e' member => ?_) ops
  rw [noted] at member
  rcases List.mem_cons.mp member with rfl | old
  · exact Or.inr aside
  · exact Or.inl old

theorem Fresh.log (h : Fresh s) {e : Event} (aside : stream e = none) : Fresh (s.log e) :=
  h.note rfl rfl aside fun op member is_chain => ⟨op, member, is_chain, rfl⟩

theorem Fresh.enqueue (h : Fresh s) (frame : Frame) : Fresh (s.enqueueOp frame) :=
  h.note rfl rfl rfl fun op member is_chain => ⟨op, member, is_chain, rfl⟩

theorem Fresh.launch (h : Fresh s) {op : Op} (outside : op.isChain = false)
    (aside : stream (.started op) = none) : Fresh (s.launch op) := by
  refine h.note rfl rfl aside fun op' member is_chain => ?_
  rcases List.mem_cons.mp member with rfl | old
  · exact absurd is_chain (by simp [outside])
  · exact ⟨op', old, is_chain, rfl⟩

theorem successor_chain {op next : Op} (follows : successor op = some next) :
    op.isChain = true ∧ next.isChain = true ∧ next.gen = op.gen ∧
      stream (.started next) = none := by
  cases op with
  | resolve gen | connect gen | tlsHandshake gen =>
    obtain rfl := Option.some.inj follows
    exact ⟨rfl, rfl, rfl, rfl⟩
  | _ => exact absurd follows (by simp [successor])

theorem Fresh.connect (h : Fresh s) : Fresh s.startConnect := by
  unfold State.startConnect
  split
  · exact h
  · have past : ∀ e ∈ Event.started (.resolve (s.generation + 1)) :: s.trace,
        ∀ gen, stream e = some gen → gen ≤ s.generation := by
      intro e member gen on
      rcases List.mem_cons.mp member with rfl | old
      · exact absurd on (by simp [stream])
      · exact h.past e old gen on
    refine ⟨fun e member gen on => (past e member gen on).trans (Nat.le_succ _), ?_⟩
    intro op _ _ _ e among here
    exact absurd (past e among _ here) (Nat.not_succ_le_self _)

theorem Fresh.move (h : Fresh s) (move : Move ok s s') : Fresh s' := by
  cases move with
  | keep fewer =>
    exact h.aside rfl (fun _ => Or.inl) fun op member is_chain =>
      ⟨op, fewer.subset member, is_chain, rfl⟩
  | write gen frame => exact h.log rfl
  | read => exact h.launch rfl rfl
  | wait => exact h.launch rfl rfl
  | @advance op next member current follows =>
    obtain ⟨is_chain, _, same, aside⟩ := successor_chain follows
    refine h.note rfl rfl aside fun op' among is_chain' => ?_
    rcases List.mem_cons.mp among with rfl | old
    · exact ⟨op, member, is_chain, same.symm⟩
    · exact ⟨op', List.mem_of_mem_erase old, is_chain', rfl⟩
  | enqueue => exact h.enqueue _
  | answer => exact h.enqueue .pong
  | send settled =>
    refine h.here rfl (e := .started (.write s.generation _)) rfl rfl fun op member is_chain => ?_
    rcases List.mem_cons.mp member with rfl | old
    · exact absurd is_chain (by simp [Op.isChain])
    · exact settled.chain op old is_chain
  | lose =>
    have failed : Fresh (s.log (.failed s.generation)) := h.log rfl
    have waiting : Fresh ((s.log (.failed s.generation)).launch
        (.reconnectWait s.generation s.reconnectDelayS)) := failed.launch rfl rfl
    exact waiting.aside rfl (fun _ => Or.inl) fun op member is_chain => ⟨op, member, is_chain, rfl⟩
  | fail => exact h.log rfl
  | connect => exact h.connect
  | up _ _ vacant =>
    exact h.here rfl (e := .handshake _) rfl rfl fun op member _ => vacant.ops op member
  | shake _ vacant =>
    exact h.here rfl (e := .handshake _) rfl rfl fun op member _ => vacant.ops op member
  | greet _ settled => exact h.here rfl (e := .greeted _) rfl rfl settled.chain
  | close =>
    exact h.note rfl rfl rfl fun op member is_chain => ⟨op, member, is_chain, rfl⟩

end LighterApi.Guarantees.SessionMoves

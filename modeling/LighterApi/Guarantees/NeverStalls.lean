import LighterApi.Guarantees.WireAgreement

/-!
# The session never stalls

While the user has not closed the session there is always something outstanding that
carries it on: a reconnect wait, one step of the connect chain, or the read and the ping
wait of the connection. Every handler that takes one of them away puts its successor in
its place, or schedules the reconnect. A completion of an older generation changes
nothing. A timer whose wait fails without having been cancelled would end its chain.
-/
namespace LighterApi.Guarantees.NeverStalls
open LighterApi.Source LighterApi.Source.WsSession
open LighterApi.Library.Transition SessionLink WireAgreement

def isWait : Op → Bool
  | .reconnectWait _ _ => true
  | _ => false

/-- The reconnect waits outstanding. -/
def waits (s : State) : Nat := s.ops.countP isWait

/-- The steps of the connect chain outstanding for the current generation. -/
def chains (s : State) : Nat := s.ops.countP fun op => op.isChain && op.gen == s.generation

def reads (s : State) : Nat := s.ops.count (.read s.generation)

def pings (s : State) : Nat := s.ops.count (.pingWait s.generation)

/-- Something of the current generation carries the session on. -/
def Busy (s : State) : Prop :=
  s.connected = false ∧ chains s = 1 ∨ s.connected = true ∧ reads s = 1 ∧ pings s = 1

/-! ## The condition -/

/-- The session is not closed, and the token provider does not throw. -/
def Returning (s : State) : Action → Prop
  | .close => False
  | .execute provider | .readDone _ _ provider => refusal provider s.pendingTopics = none
  | _ => True

/-- A timer's wait fails only when it was cancelled: the ping wait by the error that took
the connection down, the reconnect wait never before a close. -/
def Cancelled (s : State) : Action → Prop
  | .pingFired gen ok _ => ok = true ∨ gen ≠ s.generation ∨ s.connected = false
  | .reconnectFired _ _ ok => ok = true
  | _ => True

instance decidableReturning (s : State) : (a : Action) → Decidable (Returning s a)
  | .close => inferInstanceAs (Decidable False)
  | .execute _ | .readDone _ _ _ => inferInstanceAs (Decidable (_ = _))
  | .subscribe _ | .unsubscribe _ | .post _ | .streamFails | .resolved _ _ | .tcpConnected _ _ _
  | .tlsDone _ _ | .wsDone _ _ | .writeDone _ _ _ | .pingFired _ _ _ | .reconnectFired _ _ _ =>
    inferInstanceAs (Decidable True)

instance decidableCancelled (s : State) : (a : Action) → Decidable (Cancelled s a)
  | .pingFired _ _ _ => inferInstanceAs (Decidable (_ ∨ _ ∨ _))
  | .reconnectFired _ _ _ => inferInstanceAs (Decidable (_ = _))
  | .subscribe _ | .unsubscribe _ | .post _ | .close | .execute _ | .streamFails | .resolved _ _
  | .tcpConnected _ _ _ | .tlsDone _ _ | .wsDone _ _ | .readDone _ _ _ | .writeDone _ _ _ =>
    inferInstanceAs (Decidable True)

/-! ## Steps that do no more than write -/

structure Idle (s s' : State) : Prop where
  generation : s'.generation = s.generation
  connected : s'.connected = s.connected
  scheduled : s'.reconnectScheduled = s.reconnectScheduled
  userClosed : s'.userClosed = s.userClosed
  posted : s'.posted = s.posted
  calls : s'.calls = s.calls
  counts : ∀ p : Op → Bool, (∀ gen frame, p (.write gen frame) = false) →
    s'.ops.countP p = s.ops.countP p

variable {s s' : State}

/-- The queue, the topic lists, the readiness and what is noted may change. -/
theorem idle_frame {outboundQueue : List Frame} {subscriptions pendingTopics : List String}
    {writeInFlight ready connectedFlag wsOpen : Bool} {reconnectDelayS : Nat} {trace : List Event} :
    Idle s { s with
      outboundQueue, subscriptions, pendingTopics, writeInFlight, ready, connectedFlag, wsOpen,
      reconnectDelayS, trace } :=
  ⟨rfl, rfl, rfl, rfl, rfl, rfl, fun _ _ => rfl⟩

theorem Idle.refl (s : State) : Idle s s := idle_frame

theorem Idle.trans {s'' : State} (first : Idle s s') (second : Idle s' s'') : Idle s s'' where
  generation := second.generation.trans first.generation
  connected := second.connected.trans first.connected
  scheduled := second.scheduled.trans first.scheduled
  userClosed := second.userClosed.trans first.userClosed
  posted := second.posted.trans first.posted
  calls := second.calls.trans first.calls
  counts p no_write := (second.counts p no_write).trans (first.counts p no_write)

theorem idle_pump (s : State) : Idle s s.pump := by
  rcases pump_cases s with same | ⟨frame, rest, _, _, _, pumped⟩
  · rw [same]
    exact .refl s
  · rw [pumped]
    refine ⟨rfl, rfl, rfl, rfl, rfl, rfl, fun p no_write => ?_⟩
    exact List.countP_cons_of_neg (by simp [no_write])

theorem idle_flushTopics (s : State) (provider : String → Token) :
    Idle s (s.flushTopics provider).1 :=
  flushTopics_relates Idle.refl Idle.trans (fun _ => idle_frame) (fun _ _ => idle_frame) idle_pump
    s provider

theorem idle_send (s : State) (frame : Frame) : Idle s (s.enqueueOp frame).pump := by
  have queued : Idle s (s.enqueueOp frame) := idle_frame
  exact queued.trans (idle_pump _)

theorem idle_dispatch (s : State) (json : Json) (provider : String → Token) :
    Idle s (s.dispatch json provider).1 := by
  unfold State.dispatch
  dsimp only
  split
  · have greeted : Idle s { s.log (.greeted s.generation) with
        ready := true, connectedFlag := true, reconnectDelayS := 1 } := idle_frame
    exact greeted.trans (idle_flushTopics _ provider)
  · split
    · exact idle_send s .pong
    · exact .refl s

theorem countP_erase {ops : List Op} {op : Op} (member : op ∈ ops) (p : Op → Bool) :
    ops.countP p = (ops.erase op).countP p + if p op then 1 else 0 := by
  rw [(List.perm_cons_erase member).countP_eq, List.countP_cons]

/-- A write completes. -/
theorem idle_drop {gen : Nat} {frame : Frame} (member : .write gen frame ∈ s.ops) :
    Idle s { s with ops := s.ops.erase (.write gen frame) } := by
  refine ⟨rfl, rfl, rfl, rfl, rfl, rfl, fun p no_write => ?_⟩
  have counted := countP_erase member p
  rw [if_neg (by simp [no_write])] at counted
  exact counted.symm

/-! ## The invariant -/

/-- A reconnect wait is outstanding exactly when one is scheduled; the session is open. -/
structure Waits (s : State) : Prop where
  opened : s.userClosed = false
  unclosed : ¬Owed s .closeByUser
  waiting : waits s = if s.reconnectScheduled then 1 else 0
  current : ∀ gen seconds, .reconnectWait gen seconds ∈ s.ops → gen = s.generation

structure Alive (s : State) : Prop extends Waits s where
  busy : .startConnect ∉ s.posted → s.reconnectScheduled = false → Busy s

theorem alive_start : Alive State.start := by
  refine ⟨⟨rfl, ?_, rfl, ?_⟩, ?_⟩
  · simp [Owed, State.start]
  · simp [State.start]
  · simp [State.start]

theorem Waits.alive_of_scheduled (h : Waits s) (scheduled : s.reconnectScheduled = true) :
    Alive s :=
  ⟨h, fun _ free => absurd (scheduled.symm.trans free) (by simp)⟩

theorem Idle.waits (idle : Idle s s') (h : Waits s) : Waits s' where
  opened := idle.userClosed.trans h.opened
  unclosed := by
    unfold Owed
    rw [idle.posted, idle.calls]
    exact h.unclosed
  waiting := by
    have same := idle.counts isWait fun _ _ => rfl
    rw [idle.scheduled]
    exact same.trans h.waiting
  current gen seconds member := by
    have same := idle.counts (· == .reconnectWait gen seconds) fun _ _ => rfl
    have before : 0 < s.ops.countP (· == .reconnectWait gen seconds) := by
      rw [← same]
      exact List.countP_pos_iff.mpr ⟨_, member, beq_self_eq_true _⟩
    obtain ⟨op, among, here⟩ := List.countP_pos_iff.mp before
    rw [idle.generation]
    exact h.current gen seconds (beq_iff_eq.mp here ▸ among)

theorem Idle.chains (idle : Idle s s') : chains s' = chains s := by
  unfold NeverStalls.chains
  rw [idle.generation]
  exact idle.counts _ fun _ _ => rfl

theorem Idle.reads (idle : Idle s s') : reads s' = reads s := by
  unfold NeverStalls.reads
  rw [idle.generation]
  exact idle.counts (· == .read s.generation) fun _ _ => rfl

theorem Idle.pings (idle : Idle s s') : pings s' = pings s := by
  unfold NeverStalls.pings
  rw [idle.generation]
  exact idle.counts (· == .pingWait s.generation) fun _ _ => rfl

theorem Idle.busy (idle : Idle s s') (h : Busy s) : Busy s' := by
  unfold Busy
  rw [idle.connected, idle.chains, idle.reads, idle.pings]
  exact h

theorem Idle.alive (idle : Idle s s') (h : Alive s) : Alive s' := by
  refine ⟨idle.waits h.toWaits, fun started free => ?_⟩
  rw [idle.posted] at started
  rw [idle.scheduled] at free
  exact idle.busy (h.busy started free)

/-! ## Errors and completions -/

/-- An error of the current generation schedules the reconnect. -/
theorem Waits.handleError (h : Waits s) : Alive (s.handleError s.generation) := by
  rcases handleError_cases s s.generation with ⟨same, why⟩ | ⟨_, free, ⟨_, closed⟩ | ⟨_, failed⟩⟩
  · rw [same]
    rcases why with other | scheduled
    · exact absurd rfl other
    · exact h.alive_of_scheduled scheduled
  · exact absurd (h.opened.symm.trans closed) (by simp)
  · rw [failed]
    apply Waits.alive_of_scheduled _ rfl
    refine ⟨h.opened, h.unclosed, ?_, ?_⟩
    · have none_before := h.waiting
      rw [free] at none_before
      have one_more : waits { s with
          reconnectScheduled := true, connected := false, ready := false, connectedFlag := false,
          writeInFlight := false, outboundQueue := [],
          pendingTopics := s.subscriptions ++ s.pendingTopics, subscriptions := [],
          reconnectDelayS := min (s.reconnectDelayS * 2) reconnectDelayMaxInS,
          ops := .reconnectWait s.generation s.reconnectDelayS :: s.ops,
          trace := .started (.reconnectWait s.generation s.reconnectDelayS) ::
            .failed s.generation :: s.trace } = waits s + 1 := List.countP_cons_of_pos rfl
      rw [one_more, none_before]
      rfl
    · intro gen seconds member
      rcases List.mem_cons.mp member with here | old
      · exact (Op.reconnectWait.inj here).1
      · exact h.current gen seconds old

/-- An operation that is no reconnect wait completes. -/
theorem Waits.drop (h : Waits s) {op : Op} (member : op ∈ s.ops) (no_wait : isWait op = false) :
    Waits { s with ops := s.ops.erase op } := by
  refine ⟨h.opened, h.unclosed, ?_, fun gen seconds among => ?_⟩
  · have counted := countP_erase member isWait
    rw [if_neg (by simp [no_wait])] at counted
    exact counted.symm.trans h.waiting
  · exact h.current gen seconds (List.mem_of_mem_erase among)

theorem Waits.launch (h : Waits s) {op : Op} (no_wait : isWait op = false) : Waits (s.launch op) := by
  refine ⟨h.opened, h.unclosed, ?_, fun gen seconds among => ?_⟩
  · have same : waits (s.launch op) = waits s := List.countP_cons_of_neg (by simp [no_wait])
    rw [same]
    exact h.waiting
  · rcases List.mem_cons.mp among with here | old
    · rw [← here] at no_wait
      exact absurd no_wait (by simp [isWait])
    · exact h.current gen seconds old

/-- The completion of an older generation takes nothing away. -/
theorem Alive.late (h : Alive s) {op : Op} (member : op ∈ s.ops) (past : op.gen ≠ s.generation) :
    Alive { s with ops := s.ops.erase op } := by
  have no_wait : isWait op = false := by
    cases op with
    | reconnectWait gen seconds => exact absurd (h.current gen seconds member) past
    | _ => rfl
  have kept : ∀ p : Op → Bool, p op = false →
      (s.ops.erase op).countP p = s.ops.countP p := by
    intro p outside
    have counted := countP_erase member p
    rw [if_neg (by simp [outside])] at counted
    exact counted.symm
  have other : ∀ op', op'.gen = s.generation → (op == op') = false := by
    intro op' current
    apply beq_eq_false_iff_ne.mpr
    intro same
    exact past (same ▸ current)
  refine ⟨h.toWaits.drop member no_wait, fun started free => ?_⟩
  have same_chains : chains { s with ops := s.ops.erase op } = chains s :=
    kept _ (by simp [past])
  have same_reads : reads { s with ops := s.ops.erase op } = reads s :=
    kept (· == .read s.generation) (other _ rfl)
  have same_pings : pings { s with ops := s.ops.erase op } = pings s :=
    kept (· == .pingWait s.generation) (other _ rfl)
  unfold Busy
  rw [same_chains, same_reads, same_pings]
  exact h.busy started free

/-! ## The connect chain -/

theorem started_of_member (link : Link s) {op : Op} (member : op ∈ s.ops) :
    .startConnect ∉ s.posted := by
  intro posted
  rw [(link.starting posted).2.1] at member
  exact absurd member List.not_mem_nil

/-- While a step of the chain is outstanding it is the only one. -/
theorem Alive.chain_alone (h : Alive s) (link : Link s) {op : Op} (member : op ∈ s.ops)
    (is_chain : op.isChain = true) (current : op.gen = s.generation) :
    s.connected = false ∧ s.reconnectScheduled = false ∧ chains s = 1 := by
  have vacant := link.chain op member is_chain current
  have down : s.connected = false := vacant.connected
  refine ⟨down, vacant.scheduled, ?_⟩
  rcases h.busy (started_of_member link member) vacant.scheduled with ⟨_, one⟩ | ⟨up, _⟩
  · exact one
  · exact absurd (up.symm.trans down) (by simp)

/-- On a connection that is up, or whose operations are outstanding, nothing connects. -/
theorem Alive.connection (h : Alive s) (link : Link s) {op : Op} (member : op ∈ s.ops)
    (outside : op.isChain = false) (current : op.gen = s.generation)
    (free : s.reconnectScheduled = false) : s.connected = true ∧ reads s = 1 ∧ pings s = 1 := by
  rcases h.busy (started_of_member link member) free with ⟨_, one⟩ | up
  · have some_chain : 0 < chains s := by omega
    obtain ⟨other, among, both⟩ := List.countP_pos_iff.mp some_chain
    rw [Bool.and_eq_true, beq_iff_eq] at both
    have vacant := link.chain other among both.1 both.2
    have differs : op ≠ other := by
      intro here
      rw [here, both.1] at outside
      exact absurd outside (by simp)
    exact absurd current (vacant.ops op ((List.mem_erase_of_ne differs).mpr member))
  · exact up

theorem Alive.chainDone (h : Alive s) (link : Link s) (op next : Op) (ok : Bool)
    (is_chain : op.isChain = true) (then_chain : next.isChain = true) (same : next.gen = op.gen)
    (taken : s.complete op (fun s => if ok then s.launch next else s.handleError op.gen) = some s') :
    Alive s' := by
  have no_wait : ∀ op : Op, op.isChain = true → isWait op = false := by
    intro op is_chain
    cases op with
    | reconnectWait gen seconds => exact absurd is_chain (by simp [Op.isChain])
    | _ => rfl
  obtain ⟨member, ⟨current, rfl⟩ | ⟨past, rfl⟩⟩ := complete_spec taken
  · obtain ⟨down, _, one⟩ := h.chain_alone link member is_chain current
    have dropped := h.toWaits.drop member (no_wait op is_chain)
    split
    · refine ⟨dropped.launch (no_wait next then_chain), fun _ _ => Or.inl ⟨down, ?_⟩⟩
      have before := countP_erase member fun op => op.isChain && op.gen == s.generation
      rw [if_pos (by simp [is_chain, current])] at before
      have after : chains ({ s with ops := s.ops.erase op }.launch next) =
          (s.ops.erase op).countP (fun op => op.isChain && op.gen == s.generation) + 1 := by
        apply List.countP_cons_of_pos
        simp only [then_chain, same, Bool.true_and, beq_iff_eq]
        exact current
      unfold chains at one
      omega
    · rw [current]
      exact dropped.handleError
  · exact h.late member past

section Counts

variable (s : State)

theorem reads_launch_read : reads (s.launch (.read s.generation)) = reads s + 1 :=
  List.count_cons_self

theorem reads_launch_pingWait (gen : Nat) : reads (s.launch (.pingWait gen)) = reads s :=
  List.count_cons_of_ne (by simp)

theorem pings_launch_pingWait : pings (s.launch (.pingWait s.generation)) = pings s + 1 :=
  List.count_cons_self

theorem pings_launch_read (gen : Nat) : pings (s.launch (.read gen)) = pings s :=
  List.count_cons_of_ne (by simp)

end Counts

/-- The handshake completes: the read and the ping wait of the connection start. -/
theorem Alive.wsDone (h : Alive s) (link : Link s) {gen : Nat} {ok : Bool}
    (taken : step s (.wsDone gen ok) = some s') : Alive s' := by
  simp only [step] at taken
  obtain ⟨member, ⟨current, rfl⟩ | ⟨past, rfl⟩⟩ := complete_spec taken
  · have same : gen = s.generation := current
    subst same
    have dropped := h.toWaits.drop member rfl
    have vacant := (link.vacant_of_member member rfl rfl).1
    split
    · have opened : ¬s.userClosed = true := by
        simp [h.opened]
      unfold State.onHandshake
      dsimp only
      split
      · rename_i closed
        exact absurd closed opened
      · let up : State := { s.log (.handshake s.generation) with
          ops := s.ops.erase (.wsHandshake s.generation), wsOpen := true, connected := true }
        have waiting : Waits up :=
          ⟨dropped.opened, dropped.unclosed, dropped.waiting, dropped.current⟩
        have none_left : ∀ op, op.gen = s.generation → up.ops.count op = 0 := by
          intro op current
          apply List.count_eq_zero.mpr
          intro among
          exact vacant.ops op among current
        have no_reads : reads up = 0 := none_left (.read s.generation) rfl
        have no_pings : pings up = 0 := none_left (.pingWait s.generation) rfl
        have pinging : Waits (up.launch (.pingWait s.generation)) := waiting.launch rfl
        refine ⟨pinging.launch rfl, fun _ _ => Or.inr ⟨rfl, ?_, ?_⟩⟩
        · have one := reads_launch_read (up.launch (.pingWait s.generation))
          rw [reads_launch_pingWait, no_reads] at one
          exact one
        · have one := pings_launch_pingWait up
          rw [no_pings] at one
          exact (pings_launch_read _ _).trans one
    · exact dropped.handleError
  · exact h.late member past

/-! ## The connection -/

/-- After a message the read starts again, unless the reconnect is scheduled. -/
theorem alive_readOn (h : Waits s) (up : s.reconnectScheduled = false →
    s.connected = true ∧ reads s = 0 ∧ pings s = 1) : Alive (s.readOn s.generation) := by
  unfold State.readOn
  split
  · rename_i stops
    refine ⟨h, fun _ free => ?_⟩
    obtain ⟨connected, _, _⟩ := up free
    exact absurd stops (by simp [free, connected])
  · have delayed : Waits { s with reconnectDelayS := if s.ready then 1 else s.reconnectDelayS } :=
      ⟨h.opened, h.unclosed, h.waiting, h.current⟩
    refine ⟨delayed.launch rfl, fun _ free => ?_⟩
    obtain ⟨connected, no_reads, one_ping⟩ := up free
    have one := reads_launch_read
      { s with reconnectDelayS := if s.ready then 1 else s.reconnectDelayS }
    have kept := pings_launch_read
      { s with reconnectDelayS := if s.ready then 1 else s.reconnectDelayS } s.generation
    exact Or.inr ⟨connected, one.trans (congrArg (· + 1) no_reads), kept.trans one_ping⟩

theorem dispatch_returns {json : Json} {provider : String → Token}
    (returns : refusal provider s.pendingTopics = none) : (s.dispatch json provider).2 = none := by
  unfold State.dispatch
  dsimp only
  split
  · unfold State.flushTopics
    split
    · rfl
    · exact (enqueueTopics_refusal provider _ _).trans returns
  · split <;> rfl

theorem onRead_message {gen : Nat} {json : Json} {provider : String → Token} {after : State}
    (handled : (if json.isObject then s.dispatch json provider else (s, none)) = (after, none)) :
    s.onRead gen (.message json) provider = after.readOn gen := by
  unfold State.onRead
  dsimp only
  rw [handled]

/-- After a read has completed on a connection, its ping wait is what is left. -/
theorem Alive.read_taken (h : Alive s) (link : Link s) (member : .read s.generation ∈ s.ops)
    (free : s.reconnectScheduled = false) :
    s.connected = true ∧ reads { s with ops := s.ops.erase (.read s.generation) } = 0 ∧
      pings { s with ops := s.ops.erase (.read s.generation) } = 1 := by
  obtain ⟨up, one_read, one_ping⟩ := h.connection link member rfl rfl free
  refine ⟨up, ?_, ?_⟩
  · have counted : reads { s with ops := s.ops.erase (.read s.generation) } = reads s - 1 :=
      List.count_erase_self
    omega
  · have kept : pings { s with ops := s.ops.erase (.read s.generation) } = pings s :=
      List.count_erase_of_ne (by simp)
    omega

theorem Alive.readDone (h : Alive s) (link : Link s) {gen : Nat} {result : State.ReadResult}
    {provider : String → Token} (returns : refusal provider s.pendingTopics = none)
    (taken : step s (.readDone gen result provider) = some s') : Alive s' := by
  simp only [step] at taken
  obtain ⟨member, ⟨current, rfl⟩ | ⟨past, rfl⟩⟩ := complete_spec taken
  · have same : gen = s.generation := current
    subst same
    have dropped := h.toWaits.drop member rfl
    cases result with
    | error => exact dropped.handleError
    | unparsable => exact dropped.handleError
    | message json =>
      let taken_off : State := { s with ops := s.ops.erase (.read s.generation) }
      let handled := if json.isObject then taken_off.dispatch json provider else (taken_off, none)
      have idle : Idle taken_off handled.1 := by
        unfold handled
        split
        · exact idle_dispatch taken_off json provider
        · exact .refl taken_off
      have no_throw : handled.2 = none := by
        unfold handled
        split
        · exact dispatch_returns returns
        · rfl
      have read_on : taken_off.onRead s.generation (.message json) provider =
          handled.1.readOn handled.1.generation := by
        rw [idle.generation]
        exact onRead_message (Prod.ext rfl no_throw)
      rw [read_on]
      apply alive_readOn (idle.waits dropped)
      intro free
      rw [idle.scheduled] at free
      rw [idle.connected, idle.reads, idle.pings]
      exact h.read_taken link member free
  · exact h.late member past

theorem Alive.writeDone (h : Alive s) {gen : Nat} {frame : Frame} {ok : Bool}
    (taken : step s (.writeDone gen frame ok) = some s') : Alive s' := by
  cases ok with
  | true =>
    simp only [step, if_true] at taken
    have noted : Idle s (s.log (.written gen frame)) := idle_frame
    obtain ⟨member, ⟨current, rfl⟩ | ⟨past, rfl⟩⟩ := complete_spec taken
    · have idle := noted.trans (idle_drop member)
      have cleared : Idle s { s.log (.written gen frame) with
          ops := s.ops.erase (.write gen frame), writeInFlight := false } :=
        ⟨rfl, rfl, rfl, rfl, rfl, rfl, idle.counts⟩
      exact (cleared.trans (idle_pump _)).alive h
    · exact (noted.trans (idle_drop member)).alive h
  | false =>
    simp only [step, Bool.false_eq_true, if_false] at taken
    obtain ⟨member, ⟨current, rfl⟩ | ⟨past, rfl⟩⟩ := complete_spec taken
    · have same : gen = s.generation := current
      subst same
      have dropped := h.toWaits.drop member rfl
      have cleared : Waits { s with
          ops := s.ops.erase (.write s.generation frame), writeInFlight := false } :=
        ⟨dropped.opened, dropped.unclosed, dropped.waiting, dropped.current⟩
      exact cleared.handleError
    · exact (idle_drop member).alive h

/-- The ping wait starts again, also on a connection that went down. -/
theorem Alive.pingFired (h : Alive s) (link : Link s) {gen : Nat} {ok silent : Bool}
    (cancelled : ok = true ∨ gen ≠ s.generation ∨ s.connected = false)
    (taken : step s (.pingFired gen ok silent) = some s') : Alive s' := by
  simp only [step] at taken
  obtain ⟨member, ⟨current, rfl⟩ | ⟨past, rfl⟩⟩ := complete_spec taken
  · have same : gen = s.generation := current
    subst same
    have dropped := h.toWaits.drop member rfl
    let taken_off : State := { s with ops := s.ops.erase (.pingWait s.generation) }
    have opened : s.userClosed = false := h.opened
    have down : s.connected = false → s.reconnectScheduled = true := by
      intro is_down
      by_contra free
      obtain ⟨up, _⟩ := h.connection link member rfl rfl (Bool.not_eq_true _ ▸ free)
      exact absurd (up.symm.trans is_down) (by simp)
    unfold State.onPingTimer
    split
    · rename_i stops
      have failed : ok = false := by
        simpa [opened] using stops
      rcases cancelled with fine | late | is_down
      · exact absurd (fine.symm.trans failed) (by simp)
      · exact absurd rfl late
      · exact dropped.alive_of_scheduled (down is_down)
    · split
      · exact dropped.handleError
      · have idle : Idle taken_off
            (if s.connected && s.ready then (taken_off.enqueueOp .ping).pump else taken_off) := by
          split
          · exact idle_send taken_off .ping
          · exact .refl taken_off
        refine ⟨(idle.waits dropped).launch rfl, fun _ free => ?_⟩
        have unscheduled : s.reconnectScheduled = false := idle.scheduled.symm.trans free
        obtain ⟨up, one_read, one_ping⟩ := h.connection link member rfl rfl unscheduled
        have none_left : pings taken_off = pings s - 1 := List.count_erase_self
        have kept : reads taken_off = reads s := List.count_erase_of_ne (by simp)
        have one := pings_launch_pingWait
          (if s.connected && s.ready then (taken_off.enqueueOp .ping).pump else taken_off)
        rw [idle.generation, idle.pings] at one
        have reading := (reads_launch_pingWait
          (if s.connected && s.ready then (taken_off.enqueueOp .ping).pump else taken_off)
          s.generation).trans idle.reads
        refine Or.inr ⟨idle.connected.trans up, ?_, ?_⟩
        · exact reading.trans (kept.trans one_read)
        · refine one.trans ?_
          omega
  · exact h.late member past

/-! ## The start and the reconnect -/

/-- With nothing of the session outstanding, a new connect chain starts. -/
theorem Waits.startConnect (h : Waits s) (gens : ∀ op ∈ s.ops, op.gen ≤ s.generation)
    (free : s.reconnectScheduled = false) : Alive s.startConnect := by
  have opened : ¬s.userClosed = true := by
    simp [h.opened]
  have none_waiting := h.waiting
  rw [free] at none_waiting
  unfold State.startConnect
  rw [if_neg opened]
  refine ⟨⟨h.opened, h.unclosed, ?_, ?_⟩, fun _ _ => Or.inl ⟨rfl, ?_⟩⟩
  · have kept : s.ops.countP isWait = 0 := none_waiting
    have same := List.countP_cons_of_neg (p := isWait) (a := .resolve (s.generation + 1))
      (l := s.ops) (by simp [isWait])
    rw [free]
    exact same.trans kept
  · intro gen seconds member
    rcases List.mem_cons.mp member with here | old
    · exact absurd here (by simp)
    · have some_waiting : 0 < s.ops.countP isWait := List.countP_pos_iff.mpr ⟨_, old, rfl⟩
      have kept : s.ops.countP isWait = 0 := none_waiting
      omega
  · have older : s.ops.countP (fun op => op.isChain && op.gen == s.generation + 1) = 0 := by
      apply List.countP_eq_zero.mpr
      intro op member
      have past := gens op member
      simp only [Bool.and_eq_true, beq_iff_eq, not_and]
      omega
    have one := List.countP_cons_of_pos (p := fun op : Op => op.isChain && op.gen == s.generation + 1)
      (a := .resolve (s.generation + 1)) (l := s.ops) (by simp [Op.isChain, Op.gen])
    rw [older] at one
    exact one

theorem Alive.reconnectFired (h : Alive s) (link : Link s) {gen seconds : Nat}
    (taken : step s (.reconnectFired gen seconds true) = some s') : Alive s' := by
  simp only [step] at taken
  obtain ⟨member, ⟨current, rfl⟩ | ⟨past, rfl⟩⟩ := complete_spec taken
  · have scheduled : s.reconnectScheduled = true := by
      by_contra free
      have none_waiting := h.waiting
      rw [if_neg free] at none_waiting
      have some_waiting : 0 < waits s := List.countP_pos_iff.mpr ⟨_, member, rfl⟩
      omega
    have one_waiting := h.waiting
    rw [if_pos scheduled] at one_waiting
    have counted := countP_erase member isWait
    rw [if_pos (by rfl)] at counted
    let fired : State := { s with
      ops := s.ops.erase (.reconnectWait gen seconds), reconnectScheduled := false }
    have idle : Waits fired := by
      refine ⟨h.opened, h.unclosed, ?_, ?_⟩
      · have none_left : (s.ops.erase (.reconnectWait gen seconds)).countP isWait = 0 := by
          unfold waits at one_waiting
          omega
        exact none_left
      · exact fun gen' seconds' among => h.current gen' seconds' (List.mem_of_mem_erase among)
    have gens : ∀ op ∈ fired.ops, op.gen ≤ s.generation :=
      fun op among => link.gens op (List.mem_of_mem_erase among)
    have opened : s.userClosed = false := h.opened
    unfold State.onReconnectTimer
    dsimp only
    rw [if_neg (by simp [opened])]
    exact idle.startConnect gens rfl
  · exact h.late member past

theorem Alive.runPosted (h : Alive s) (link : Link s) {provider : String → Token}
    (taken : runPosted s provider = some s') : Alive s' := by
  unfold WsSession.runPosted at taken
  split at taken
  · exact absurd taken (by simp)
  · rename_i handler rest posted
    have unclosed : ¬Owed { s with posted := rest } .closeByUser := by
      rintro (among | owed)
      · exact h.unclosed (Or.inl (posted ▸ List.mem_cons_of_mem _ among))
      · exact h.unclosed (Or.inr owed)
    have waiting : Waits { s with posted := rest } := ⟨h.opened, unclosed, h.waiting, h.current⟩
    have alive : handler ≠ .startConnect → Alive { s with posted := rest } := by
      intro other
      refine ⟨waiting, fun started free => h.busy (fun member => ?_) free⟩
      rw [posted] at member
      rcases List.mem_cons.mp member with here | later
      · exact other here.symm
      · exact started later
    dsimp only at taken
    split at taken
    · have idle := (link.starting (posted ▸ List.mem_cons_self)).2
      rw [← Option.some.inj taken]
      exact waiting.startConnect link.gens idle.2.2
    · rw [← Option.some.inj taken]
      exact (idle_flushTopics _ provider).alive (alive (by simp))
    · rw [← Option.some.inj taken]
      split
      · exact (idle_send _ _).alive (alive (by simp))
      · exact alive (by simp)
    · exact absurd (Or.inl (posted ▸ List.mem_cons_self)) h.unclosed

/-! ## Every step -/

/-- A call changes neither the operations nor what is posted. -/
theorem Alive.call (h : Alive s) {subscriptions pendingTopics : List String} {calls : List Posted}
    (unclosed : .closeByUser ∈ calls → .closeByUser ∈ s.calls) :
    Alive { s with subscriptions, pendingTopics, calls } := by
  refine ⟨⟨h.opened, ?_, h.waiting, h.current⟩, h.busy⟩
  rintro (posted | owed)
  · exact h.unclosed (Or.inl posted)
  · exact h.unclosed (Or.inr (unclosed owed))

theorem Alive.unsubscribe (h : Alive s) {channel : String}
    (taken : step s (.unsubscribe channel) = some s') : Alive s' := by
  rcases unsubscribe_spec taken with ⟨_, rfl⟩ | ⟨_, rfl⟩
  · exact h.call (by simp)
  · exact h.call id

theorem Alive.post (h : Alive s) {handler : Posted} (member : handler ∈ s.calls) :
    Alive { s with posted := s.posted ++ [handler], calls := s.calls.erase handler } := by
  refine ⟨⟨h.opened, ?_, h.waiting, h.current⟩, fun started free => h.busy (fun posted => ?_) free⟩
  · rw [owed_post member]
    exact h.unclosed
  · exact started (List.mem_append_left _ posted)

theorem Alive.step {a : Action} (h : Alive s) (link : Link s) (returning : Returning s a)
    (cancelled : Cancelled s a) (taken : step s a = some s') : Alive s' := by
  cases a with
  | subscribe channel =>
    obtain rfl := subscribe_spec taken
    exact h.call (by simp)
  | unsubscribe channel => exact h.unsubscribe taken
  | post handler =>
    obtain ⟨owed, rfl⟩ := post_spec taken
    exact h.post owed
  | close => exact returning.elim
  | execute provider => exact h.runPosted link taken
  | streamFails =>
    obtain rfl := Option.some.inj taken
    have idle : Idle s { s with wsOpen := false } := idle_frame
    exact idle.alive h
  | resolved gen ok => exact h.chainDone link (.resolve gen) (.connect gen) ok rfl rfl rfl taken
  | tcpConnected gen ok sni =>
    exact h.chainDone link (.connect gen) (.tlsHandshake gen) (ok && sni) rfl rfl rfl taken
  | tlsDone gen ok =>
    exact h.chainDone link (.tlsHandshake gen) (.wsHandshake gen) ok rfl rfl rfl taken
  | wsDone gen ok => exact h.wsDone link taken
  | readDone gen result provider => exact h.readDone link returning taken
  | writeDone gen frame ok => exact h.writeDone taken
  | pingFired gen ok silent => exact h.pingFired link cancelled taken
  | reconnectFired gen seconds ok =>
    have fine : ok = true := cancelled
    subst fine
    exact h.reconnectFired link taken

/-! ## Completions of older generations -/

/-- The operation an action completes. -/
def completed : Action → Option Op
  | .resolved gen _ => some (.resolve gen)
  | .tcpConnected gen _ _ => some (.connect gen)
  | .tlsDone gen _ => some (.tlsHandshake gen)
  | .wsDone gen _ => some (.wsHandshake gen)
  | .readDone gen _ _ => some (.read gen)
  | .writeDone gen frame _ => some (.write gen frame)
  | .pingFired gen _ _ => some (.pingWait gen)
  | .reconnectFired gen seconds _ => some (.reconnectWait gen seconds)
  | _ => none

/-- The completion of an operation of an older generation is all that happens. -/
def OldInert (s : State) : Prop :=
  ∀ a op s', completed a = some op → op.gen < s.generation → step s a = some s' →
    s' = { s with ops := s.ops.erase op, trace := s'.trace } ∧ launched s' = launched s

theorem oldInert (s : State) : OldInert s := by
  intro a op s' completes older taken
  have past : op.gen ≠ s.generation := Nat.ne_of_lt older
  have dropped : ∀ {handler : State → State}, s.complete op handler = some s' →
      s' = { s with ops := s.ops.erase op, trace := s'.trace } ∧ launched s' = launched s := by
    intro handler complete
    obtain ⟨_, ⟨current, _⟩ | ⟨_, rfl⟩⟩ := complete_spec complete
    · exact absurd current past
    · exact ⟨rfl, rfl⟩
  cases a with
  | writeDone gen frame ok =>
    obtain rfl := Option.some.inj completes
    cases ok with
    | true =>
      simp only [step, if_true] at taken
      obtain ⟨_, ⟨current, _⟩ | ⟨_, rfl⟩⟩ := complete_spec taken
      · exact absurd current past
      · exact ⟨rfl, rfl⟩
    | false =>
      simp only [step, Bool.false_eq_true, if_false] at taken
      exact dropped taken
  | resolved gen ok | tcpConnected gen ok sni | tlsDone gen ok | wsDone gen ok
  | readDone gen result provider | pingFired gen ok silent | reconnectFired gen seconds ok =>
    obtain rfl := Option.some.inj completes
    simp only [step] at taken
    exact dropped taken
  | _ => exact absurd completes (by simp [completed])

/-! ## Every run -/

/-- Some reconnect wait is outstanding exactly when one is scheduled, never two, and without
one the connect chain or the connection goes on; what is left of older connections is inert. -/
structure Lively (s : State) : Prop where
  scheduled : s.reconnectScheduled = true ↔ ∃ op ∈ s.ops, isWait op = true
  one : waits s ≤ 1
  busy : waits s = 0 → Busy s
  inert : OldInert s

theorem Alive.lively (h : Alive s) (started : .startConnect ∉ s.posted) : Lively s := by
  have waiting := h.waiting
  refine ⟨?_, ?_, fun none_waits => ?_, oldInert s⟩
  · rw [← List.countP_pos_iff]
    change _ ↔ 0 < waits s
    by_cases scheduled : s.reconnectScheduled = true
    · rw [if_pos scheduled] at waiting
      exact iff_of_true scheduled (by omega)
    · rw [if_neg scheduled] at waiting
      exact iff_of_false scheduled (by omega)
  · split at waiting <;> omega
  · apply h.busy started
    by_contra scheduled
    rw [if_pos (Bool.not_eq_false _ ▸ scheduled)] at waiting
    omega

/-- In every open run whose waits fail only when they were cancelled, the session never
stalls once the first connect has run. -/
theorem never_stalls {actions : List Action}
    (meets : Meets step (fun s a => Returning s a ∧ Cancelled s a) State.start actions)
    (reached : run step State.start actions = some s) (started : .startConnect ∉ s.posted) :
    Lively s := by
  have kept : Link s ∧ Alive s := by
    apply run_invariant_of_meets _ ⟨link_start, alive_start⟩ meets reached
    intro before a after kept conditions taken
    exact ⟨kept.1.step taken, kept.2.step kept.1 conditions.1 conditions.2 taken⟩
  exact kept.2.lively started

/-- The connection fails with its ping wait queued, and the session connects again. -/
def reconnecting : List Action :=
  [.readDone 1 .error plainTokens, .pingFired 1 true false, .reconnectFired 1 1 true,
    .resolved 2 true]

theorem never_stalls_sample :
    ∃ s, run step State.start (connecting ++ reconnecting) = some s ∧
      (.startConnect ∉ s.posted ∧ s.ops = [.connect 2, .pingWait 1]) ∧ Lively s := by
  have meets : Meets step (fun s a => Returning s a ∧ Cancelled s a) State.start
      (connecting ++ reconnecting) := by
    decide +kernel
  obtain ⟨s, reached, started, outstanding⟩ : ∃ s,
      run step State.start (connecting ++ reconnecting) = some s ∧
        (.startConnect ∉ s.posted ∧ s.ops = [.connect 2, .pingWait 1]) :=
    exists_run (by decide +kernel)
  exact ⟨s, reached, ⟨started, outstanding⟩, never_stalls meets reached started⟩

/-- A reconnect wait that completes with an error leaves nothing outstanding. -/
theorem failed_wait_stalls : ¬∀ (actions : List Action) (s : State),
    Meets step Returning State.start actions → run step State.start actions = some s →
      .startConnect ∉ s.posted → Lively s := by
  intro lively
  have stalled : ∃ s, run step State.start
      [.execute plainTokens, .resolved 1 false, .reconnectFired 1 1 false] = some s ∧
      (.startConnect ∉ s.posted ∧ s.ops = [] ∧ s.connected = false) :=
    exists_run (by decide +kernel)
  obtain ⟨s, reached, started, nothing, down⟩ := stalled
  have live := lively _ s (by decide +kernel) reached started
  have none_waits : waits s = 0 := by
    simp [waits, nothing]
  rcases live.busy none_waits with ⟨_, one⟩ | ⟨up, _⟩
  · simp [chains, nothing] at one
  · exact absurd (up.symm.trans down) (by simp)

end LighterApi.Guarantees.NeverStalls

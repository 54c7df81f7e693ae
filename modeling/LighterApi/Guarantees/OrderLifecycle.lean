import LighterApi.Guarantees.OrderIndices

/-!
# The lifecycle of an order

What the gateway calls back for an order follows a small machine: an event is accepted,
its fill is reported if it brought one, its update follows, and a terminal update closes
the order for good. The closed order has no record any more, or is about to lose it, and
no other order gets its index.
-/
namespace LighterApi.Guarantees.OrderLifecycle
open LighterApi.Library.Transition
open LighterApi.Source LighterApi.Source.SendTx LighterApi.Source.Gateway
open LighterApi.Source.GatewayRun
open LighterApi.Guarantees.OrderIndices

/-! ## The machine -/

inductive Phase where
  | waiting
  | accepted (order : Json)
  | filled (order : Json)
  | closed

/-- What the next event of an order makes of its phase. -/
def advance : Phase → Event → Option Phase
  | .waiting, .accepted _ order => some (.accepted order)
  | .accepted order, .fill _ _ => some (.filled order)
  | .accepted order, .update _ update | .filled order, .update _ update =>
    if update.state = (classifyStatus (textOf order "status")).1 then
      some (if update.state.isTerminal then .closed else .waiting)
    else none
  | _, _ => none

/-- The events of an order's lifecycle: those accepted for it, and its callbacks. -/
def concerns (i : Int) : Event → Bool
  | .accepted j _ | .fill j _ | .update j _ => j == i
  | _ => false

/-- The phase after the events so far, latest first; none if they do not follow the machine. -/
def phaseOf (i : Int) : List Event → Option Phase
  | [] => some .waiting
  | e :: earlier =>
    if concerns i e then (phaseOf i earlier).bind (advance · e) else phaseOf i earlier

/-- Between events, and after the last one. -/
def Phase.Settled : Phase → Prop
  | .waiting | .closed => True
  | _ => False

theorem phaseOf_aside {i : Int} {e : Event} {earlier : List Event}
    (aside : concerns i e = false) : phaseOf i (e :: earlier) = phaseOf i earlier :=
  if_neg (by simp [aside])

theorem phaseOf_next {i : Int} {e : Event} {earlier : List Event} {phase : Phase}
    (concerned : concerns i e = true) (before : phaseOf i earlier = some phase) :
    phaseOf i (e :: earlier) = advance phase e := by
  rw [phaseOf, if_pos concerned, before]
  rfl

theorem phaseOf_asides {i : Int} {events earlier : List Event}
    (asides : ∀ e ∈ events, concerns i e = false) :
    phaseOf i (events ++ earlier) = phaseOf i earlier := by
  induction events with
  | nil => rfl
  | cons e rest ih =>
    rw [List.cons_append, phaseOf_aside (asides e List.mem_cons_self)]
    exact ih fun e' member => asides e' (List.mem_cons_of_mem _ member)

/-- The machine has followed every earlier stretch of the events as well. -/
theorem phaseOf_earlier {i : Int} {phase : Phase} (later : List Event) {earlier : List Event}
    (follows : phaseOf i (later ++ earlier) = some phase) :
    ∃ before, phaseOf i earlier = some before := by
  induction later generalizing phase with
  | nil => exact ⟨phase, follows⟩
  | cons e rest ih =>
    rw [List.cons_append, phaseOf] at follows
    split at follows
    · obtain ⟨before, followed, _⟩ := Option.bind_eq_some_iff.mp follows
      exact ih followed
    · exact ih follows

/-- A terminal update that follows the machine closes the order. -/
theorem advance_terminal {phase after : Phase} {i : Int} {update : OrderUpdate}
    (follows : advance phase (.update i update) = some after)
    (terminal : update.state.isTerminal = true) : after = .closed := by
  cases phase with
  | waiting => cases follows
  | closed => cases follows
  | accepted order =>
    obtain ⟨_, closes⟩ := Option.ite_none_right_eq_some.mp follows
    rw [if_pos terminal] at closes
    exact (Option.some.inj closes).symm
  | filled order =>
    obtain ⟨_, closes⟩ := Option.ite_none_right_eq_some.mp follows
    rw [if_pos terminal] at closes
    exact (Option.some.inj closes).symm

/-- Once an order is closed, nothing of it follows. -/
theorem closed_is_last {i : Int} {later earlier : List Event} {phase : Phase}
    (follows : phaseOf i (later ++ earlier) = some phase)
    (closed : phaseOf i earlier = some .closed) : ∀ e ∈ later, concerns i e = false := by
  induction later generalizing phase with
  | nil => simp
  | cons e rest ih =>
    obtain ⟨before, followed⟩ := phaseOf_earlier [e] follows
    have none_before := ih followed
    intro e' member
    rcases List.mem_cons.mp member with rfl | old
    · by_contra concerned
      have still_closed := (phaseOf_asides none_before).trans closed
      rw [List.cons_append,
        phaseOf_next (Bool.not_eq_false _ ▸ concerned) still_closed] at follows
      exact absurd follows (by simp [advance])
    · exact none_before e' old

/-! ## The invariant -/

/-- The handler is at an event of the order between its update and its pruning. -/
def Finishing (i : Int) : Handler → Prop
  | .inUpdate t _ | .updated t _ => t.clientOrderIndex = i
  | _ => False

/-- The phase of an order as the handler has it. -/
def Expected (i : Int) (phase : Phase) : Handler → Prop
  | .idle | .orders _ => phase.Settled
  | .taken t _ | .priced t _ _ =>
    if t.clientOrderIndex = i then phase = .accepted t.order else phase.Settled
  | .inFill t _ _ => if t.clientOrderIndex = i then phase = .filled t.order else phase.Settled
  | .filled t _ _ =>
    if t.clientOrderIndex = i then phase = .accepted t.order ∨ phase = .filled t.order
    else phase.Settled
  | .inUpdate t _ | .updated t _ =>
    if t.clientOrderIndex = i then
      phase = if isTerminalEvent t.order then .closed else .waiting
    else phase.Settled

/-- An order has a phase, the one the handler has it in; it was inserted before it left the
first one, and once closed its record is gone or about to be pruned. -/
structure Tracked (s : State) (i : Int) (phase : Phase) : Prop where
  follows : phaseOf i s.trace = some phase
  expected : Expected i phase s.handler
  known : phase ≠ .waiting → ∃ rec, .inserted i rec ∈ s.trace
  gone : phase = .closed → s.maps.ordersByIndex i = none ∨ Finishing i s.handler

def Lifecycles (s : State) : Prop := ∀ i, ∃ phase, Tracked s i phase

theorem lifecycles_start (instruments : Instruments) (counter nonce : Int) :
    Lifecycles (State.start instruments counter nonce) :=
  fun _ => ⟨.waiting, rfl, trivial, fun other => absurd rfl other, fun closed => by cases closed⟩

variable {cfg : Config} {s s' : State}

/-- The record of a closed order is gone, once the handler is through with its event. -/
theorem Tracked.erased {i : Int} (h : Tracked s i .closed) (through : ¬Finishing i s.handler) :
    s.maps.ordersByIndex i = none :=
  (h.gone rfl).resolve_right through

/-- A step that is not about the order. -/
theorem Tracked.aside {i : Int} {phase : Phase} (h : Tracked s i phase)
    (events : ∃ events, s'.trace = events ++ s.trace ∧ ∀ e ∈ events, concerns i e = false)
    (expected : Expected i phase s.handler → Expected i phase s'.handler)
    (gone : phase = .closed → s.maps.ordersByIndex i = none ∨ Finishing i s.handler →
      s'.maps.ordersByIndex i = none ∨ Finishing i s'.handler) : Tracked s' i phase := by
  obtain ⟨events, trace_eq, asides⟩ := events
  refine ⟨?_, expected h.expected, fun other => ?_, fun closed => gone closed (h.gone closed)⟩
  · rw [trace_eq, phaseOf_asides asides]
    exact h.follows
  · obtain ⟨rec, inserted⟩ := h.known other
    exact ⟨rec, trace_eq ▸ List.mem_append_right _ inserted⟩

/-- A step of a calling thread, that stores no record under an index used before. -/
theorem Lifecycles.thread (h : Lifecycles s) (handler : s'.handler = s.handler)
    (events : ∃ events, s'.trace = events ++ s.trace ∧ ∀ e ∈ events, ∀ i, concerns i e = false)
    (maps : ∀ i, s.maps.ordersByIndex i = none → (∃ rec, .inserted i rec ∈ s.trace) →
      s'.maps.ordersByIndex i = none) : Lifecycles s' := by
  intro i
  obtain ⟨phase, tracked⟩ := h i
  obtain ⟨events, trace_eq, asides⟩ := events
  refine ⟨phase, tracked.aside ⟨events, trace_eq, fun e member => asides e member i⟩ ?_ ?_⟩
  · rw [handler]
    exact id
  · rintro rfl (none_stored | finishing)
    · exact Or.inl (maps i none_stored (tracked.known (by simp)))
    · exact Or.inr (handler ▸ finishing)

/-- A step of a calling thread that leaves the records alone. -/
theorem Lifecycles.call (h : Lifecycles s) (handler : s'.handler = s.handler)
    (maps : s'.maps = s.maps) (events : List Event) (trace_eq : s'.trace = events ++ s.trace)
    (asides : ∀ e ∈ events, ∀ i, concerns i e = false) : Lifecycles s' :=
  h.thread handler ⟨events, trace_eq, asides⟩ fun _ none_stored _ => maps ▸ none_stored

/-! ## The steps of the handler -/

/-- The handler moves on without a callback. -/
theorem Lifecycles.handle (h : Lifecycles s) (trace : s'.trace = s.trace)
    (expected : ∀ i phase, Expected i phase s.handler → Expected i phase s'.handler)
    (gone : ∀ i, Tracked s i .closed → s'.maps.ordersByIndex i = none ∨ Finishing i s'.handler) :
    Lifecycles s' := by
  intro i
  obtain ⟨phase, tracked⟩ := h i
  refine ⟨phase, tracked.aside ⟨[], trace, by simp⟩ (expected i phase) ?_⟩
  rintro rfl _
  exact gone i tracked

/-- The handler moves on and leaves the records alone. -/
theorem Lifecycles.pass (h : Lifecycles s) {before : Handler} (at_before : s.handler = before)
    (trace : s'.trace = s.trace) (maps : s'.maps = s.maps)
    (expected : ∀ i phase, Expected i phase before → Expected i phase s'.handler)
    (finishing : ∀ i, Finishing i before → Finishing i s'.handler) : Lifecycles s' := by
  subst at_before
  refine h.handle trace expected fun i tracked => ?_
  rw [maps]
  exact (tracked.gone rfl).imp id (finishing i)

/-- An event is accepted for an order whose record is stored, so that it is not closed. -/
theorem Lifecycles.accept (h : Lifecycles s) (indexed : Indexed s) {lib : Externals}
    {order : Json} {rest : List Json} {maps : OrderMaps} {t : Taken}
    (at_order : s.handler = .orders (order :: rest))
    (took : takeOrder lib s.maps order = some (maps, t)) :
    Lifecycles { s.log (.accepted t.clientOrderIndex order) with
      maps, handler := .taken t rest } := by
  obtain ⟨rec, rec', stored, rfl, _, _, _, _, _, rfl⟩ := takeOrder_spec took
  intro i
  obtain ⟨phase, tracked⟩ := h i
  have settled : phase.Settled := by
    have expected := tracked.expected
    rw [at_order] at expected
    exact expected
  by_cases here : t.clientOrderIndex = i
  · subst here
    have waiting : phase = .waiting := by
      cases phase with
      | waiting => rfl
      | accepted order => exact settled.elim
      | filled order => exact settled.elim
      | closed =>
        have none_stored := tracked.erased (by simp [at_order, Finishing])
        exact absurd (stored.symm.trans none_stored) (by simp)
    subst waiting
    obtain ⟨first, inserted, _⟩ := indexed.stored _ rec stored
    refine ⟨.accepted t.order, ?_, (if_pos rfl).mpr rfl, fun _ => ?_, fun closed => by cases closed⟩
    · exact phaseOf_next (beq_self_eq_true _) tracked.follows
    · exact ⟨first, List.mem_cons_of_mem _ inserted⟩
  · refine ⟨phase, tracked.aside ⟨[_], rfl, by simp [concerns, here]⟩ (fun _ => ?_) ?_⟩
    · exact (if_neg here).mpr settled
    · rintro rfl _
      refine Or.inl ?_
      rw [OrderMaps.set_ordersByIndex, if_neg fun same => here same.symm]
      exact tracked.erased (by simp [at_order, Finishing])

/-- The fill of the event is reported. -/
theorem Lifecycles.fill (h : Lifecycles s) {t : Taken} {price : Rat} {rest : List Json}
    {fill : FillEvent} (at_priced : s.handler = .priced t price rest) :
    Lifecycles { s.log (.fill t.clientOrderIndex fill) with handler := .inFill t price rest } := by
  intro i
  obtain ⟨phase, tracked⟩ := h i
  have expected := tracked.expected
  rw [at_priced] at expected
  by_cases here : t.clientOrderIndex = i
  · subst here
    have accepted : phase = .accepted t.order := (if_pos rfl).mp expected
    subst accepted
    obtain ⟨rec, inserted⟩ := tracked.known (by simp)
    refine ⟨.filled t.order, ?_, (if_pos rfl).mpr rfl, fun _ => ?_, fun closed => by cases closed⟩
    · exact phaseOf_next (beq_self_eq_true _) tracked.follows
    · exact ⟨rec, List.mem_cons_of_mem _ inserted⟩
  · have settled : phase.Settled := (if_neg here).mp expected
    refine ⟨phase, tracked.aside ⟨[_], rfl, by simp [concerns, here]⟩ (fun _ => ?_) ?_⟩
    · exact (if_neg here).mpr settled
    · rintro rfl _
      exact Or.inl (tracked.erased (by simp [at_priced, Finishing]))

/-- The update of the event is reported; a terminal one closes the order. -/
theorem Lifecycles.update (h : Lifecycles s) {t : Taken} {price : Rat} {rest : List Json}
    (at_filled : s.handler = .filled t price rest) :
    Lifecycles { s.log (.update t.clientOrderIndex (orderUpdate cfg.lib t price)) with
      handler := .inUpdate t rest } := by
  intro i
  obtain ⟨phase, tracked⟩ := h i
  have expected := tracked.expected
  rw [at_filled] at expected
  by_cases here : t.clientOrderIndex = i
  · subst here
    have open_order : phase = .accepted t.order ∨ phase = .filled t.order := (if_pos rfl).mp expected
    obtain ⟨rec, inserted⟩ := tracked.known (by rcases open_order with rfl | rfl <;> simp)
    refine ⟨if isTerminalEvent t.order then .closed else .waiting, ?_, (if_pos rfl).mpr rfl,
      fun _ => ?_, fun _ => Or.inr rfl⟩
    · rcases open_order with rfl | rfl
      · exact (phaseOf_next (beq_self_eq_true _) tracked.follows).trans (if_pos rfl)
      · exact (phaseOf_next (beq_self_eq_true _) tracked.follows).trans (if_pos rfl)
    · exact ⟨rec, List.mem_cons_of_mem _ inserted⟩
  · have settled : phase.Settled := (if_neg here).mp expected
    refine ⟨phase, tracked.aside ⟨[_], rfl, by simp [concerns, here]⟩ (fun _ => ?_) ?_⟩
    · exact (if_neg here).mpr settled
    · rintro rfl _
      exact Or.inl (tracked.erased (by simp [at_filled, Finishing]))

/-- The record of a closed order is erased. -/
theorem Lifecycles.prune (h : Lifecycles s) {t : Taken} {rest : List Json}
    (at_updated : s.handler = .updated t rest) (terminal : isTerminalEvent t.order = true) :
    Lifecycles { s with
      maps := s.maps.eraseOrderRec t.clientOrderIndex t.clientOrderId, handler := .orders rest } := by
  refine h.handle rfl (fun i phase expected => ?_) fun i tracked => Or.inl ?_
  · rw [at_updated] at expected
    by_cases here : t.clientOrderIndex = i
    · have closed := (if_pos here).mp expected
      rw [if_pos terminal] at closed
      rw [closed]
      exact trivial
    · exact (if_neg here).mp expected
  · rw [OrderMaps.erase_ordersByIndex]
    split
    · rfl
    · rename_i other
      exact tracked.erased (by simp [at_updated, Finishing, Ne.symm other])

/-- An order that is not closed keeps its record. -/
theorem Lifecycles.keep (h : Lifecycles s) {t : Taken} {rest : List Json}
    (at_updated : s.handler = .updated t rest) (open_order : ¬isTerminalEvent t.order = true) :
    Lifecycles { s with handler := .orders rest } := by
  refine h.handle rfl (fun i phase expected => ?_) fun i tracked => Or.inl ?_
  · rw [at_updated] at expected
    by_cases here : t.clientOrderIndex = i
    · have waiting := (if_pos here).mp expected
      rw [if_neg open_order] at waiting
      rw [waiting]
      exact trivial
    · exact (if_neg here).mp expected
  · rcases tracked.gone rfl with none_stored | finishing
    · exact none_stored
    · rw [at_updated] at finishing
      have expected := tracked.expected
      rw [at_updated] at expected
      have waiting := (if_pos finishing).mp expected
      rw [if_neg open_order] at waiting
      cases waiting

/-! ## Every step -/

/-- The callbacks return normally. -/
def Returns : Action → Prop
  | .fillReturns throws | .updateReturns throws => throws = false
  | _ => True

instance : DecidablePred Returns
  | .fillReturns _ | .updateReturns _ => inferInstanceAs (Decidable (_ = _))
  | .reload _ | .quote _ _ | .submitPostOnlyLimit .. | .submitReduceOnlyMarket .. | .insert _
  | .cancel .. | .lockTx _ | .sign _ _ | .send _ _ | .resync _ _ | .erase _ | .finish _
  | .deliver _ | .takeNext | .readPrice | .emitFill | .emitUpdate | .prune =>
    inferInstanceAs (Decidable True)

/-- An order is inserted under an index that no event was ever accepted for. -/
theorem Lifecycles.insert (h : Lifecycles s) (indexed : Indexed s) {t : Nat} {sub : Submission}
    {i : Int} (at_stage : s.threads t = .allocated sub i) :
    Lifecycles { (s.log (.inserted i sub.record)).goto t (.waiting (.submit sub i)) with
      maps := s.maps.insertOrderRec i sub.record } := by
  refine h.thread rfl ⟨[.inserted i sub.record], rfl, by simp [concerns]⟩ ?_
  rintro j none_stored ⟨rec, inserted⟩
  have other : j ≠ i := by
    rintro rfl
    exact indexed.alloc_new t sub j at_stage rec inserted
  rw [OrderMaps.insert_ordersByIndex, if_neg other]
  exact none_stored

theorem Lifecycles.erase (h : Lifecycles s) {t : Nat} {stage : Stage} (i : Int) (id : String) :
    Lifecycles { s.goto t stage with maps := s.maps.eraseOrderRec i id } := by
  refine h.thread rfl ⟨[], rfl, by simp⟩ fun j none_stored _ => ?_
  exact OrderMaps.missing_erase i id none_stored

theorem Lifecycles.step {a : Action} (callback : cfg.orderUpdateCB = true) (indexed : Indexed s)
    (h : Lifecycles s) (returns : Returns a) (taken : step cfg s a = some s') :
    Lifecycles s' := by
  cases step_spec taken with
  | reload | quote | allocated | cancelWaits | lockedTx => exact h.call rfl rfl [] rfl (by simp)
  | refused | cancelReturned | signed | signFailedCancel | sent | resynced =>
    exact h.call rfl rfl [_] rfl (by simp [concerns])
  | inserted at_stage => exact h.insert indexed at_stage
  | signFailedSubmit => exact h.call rfl rfl [_, _] rfl (by simp [concerns])
  | @sendFailed t job nonce answer failure =>
    rcases noteReject_eq (s.log (.sent nonce)) job failure with same | ⟨_, i, _, _, noted⟩
    · rw [same]
      exact h.call rfl rfl [.sent nonce] rfl (by simp [concerns])
    · rw [noted]
      exact h.call rfl rfl [.rejected i, .sent nonce] rfl (by simp [concerns])
  | erased => exact h.erase _ _
  | @finished t job result =>
    refine h.call rfl rfl [returnEvent job result] rfl fun e member i => ?_
    rw [List.mem_singleton.mp member]
    cases job <;> rfl
  | delivered msg idle =>
    refine h.pass idle rfl rfl (fun i phase expected => ?_) fun i => False.elim
    dsimp only
    split <;> exact expected
  | loopEnded at_end => exact h.pass at_end rfl rfl (fun _ _ => id) fun i => False.elim
  | skipped at_order ignored => exact h.pass at_order rfl rfl (fun _ _ => id) fun i => False.elim
  | took at_order took => exact h.accept indexed at_order took
  | priced at_taken => exact h.pass at_taken rfl rfl (fun _ _ => id) fun i => False.elim
  | filled at_priced => exact h.fill at_priced
  | @fillSkipped t price rest at_priced =>
    refine h.pass at_priced rfl rfl (fun i phase expected => ?_) fun i => False.elim
    by_cases here : t.clientOrderIndex = i
    · exact (if_pos here).mpr (Or.inl ((if_pos here).mp expected))
    · exact (if_neg here).mpr ((if_neg here).mp expected)
  | @fillReturned t price rest throws at_fill =>
    have normally : throws = false := returns
    subst normally
    refine h.pass at_fill rfl rfl (fun i phase expected => ?_) fun i => False.elim
    by_cases here : t.clientOrderIndex = i
    · exact (if_pos here).mpr (Or.inr ((if_pos here).mp expected))
    · exact (if_neg here).mpr ((if_neg here).mp expected)
  | updated at_filled => exact h.update at_filled
  | updateSkipped _ unset => exact absurd callback unset
  | updateReturned throws at_update =>
    have normally : throws = false := returns
    subst normally
    exact h.pass at_update rfl rfl (fun _ _ => id) fun _ => id
  | pruned at_updated terminal => exact h.prune at_updated terminal
  | kept at_updated open_order => exact h.keep at_updated open_order

/-! ## Every run -/

theorem lifecycles_of_run (callback : cfg.orderUpdateCB = true) {instruments : Instruments}
    {counter nonce : Int} {actions : List Action}
    (returns : Meets (step cfg) (fun _ a => Returns a) (State.start instruments counter nonce) actions)
    (reached : run (step cfg) (State.start instruments counter nonce) actions = some s) :
    Indexed s ∧ Lifecycles s := by
  apply run_invariant_of_meets (I := fun s => Indexed s ∧ Lifecycles s) _ _ returns reached
  · intro before a after kept normally taken
    exact ⟨kept.1.step taken, kept.2.step callback kept.1 normally taken⟩
  · exact ⟨indexed_start instruments counter nonce, lifecycles_start instruments counter nonce⟩

/-- In every run whose callbacks return, the events of each order follow the machine, are
complete while no message is handled, and none follows a terminal update. -/
theorem order_lifecycle (callback : cfg.orderUpdateCB = true) {instruments : Instruments}
    {counter nonce : Int} {actions : List Action}
    (returns : Meets (step cfg) (fun _ a => Returns a) (State.start instruments counter nonce) actions)
    (reached : run (step cfg) (State.start instruments counter nonce) actions = some s) (i : Int) :
    (∃ phase, phaseOf i s.trace = some phase ∧ (s.handler = .idle → phase.Settled)) ∧
      ∀ later update earlier, s.trace = later ++ .update i update :: earlier →
        update.state.isTerminal = true → ∀ e ∈ later, concerns i e = false := by
  obtain ⟨phase, tracked⟩ := (lifecycles_of_run callback returns reached).2 i
  refine ⟨⟨phase, tracked.follows, fun idle => ?_⟩, fun later update earlier trace_eq terminal => ?_⟩
  · have expected := tracked.expected
    rw [idle] at expected
    exact expected
  · have follows := tracked.follows
    rw [trace_eq] at follows
    obtain ⟨after, followed⟩ := phaseOf_earlier later follows
    obtain ⟨before, reached_before⟩ := phaseOf_earlier [_] followed
    apply closed_is_last follows
    have stepped := followed
    rw [phaseOf_next (e := .update i update) (beq_self_eq_true i) reached_before] at stepped
    rw [followed, advance_terminal stepped terminal]

/-- An order that is filled in two events of one message, the second told twice. -/
def sampleRun : List Action :=
  submitted 0 "x" ++
    [.deliver (ordersJson [orderJson 1 "open" (2 / 5), orderJson 1 "filled" 1,
      orderJson 1 "filled" 1])] ++
    handled true ++ handled true ++ [.takeNext, .takeNext]

def isIdle : Handler → Bool
  | .idle => true
  | _ => false

theorem order_lifecycle_sample : ∃ s,
    run (step sampleConfig) (State.start sampleInstruments 1 5) sampleRun = some s ∧
      (∃ phase, phaseOf 1 s.trace = some phase ∧ phase.Settled) ∧
      ∀ later update earlier, s.trace = later ++ .update 1 update :: earlier →
        update.state.isTerminal = true → ∀ e ∈ later, concerns 1 e = false := by
  obtain ⟨s, reached, idle⟩ : ∃ s,
      run (step sampleConfig) (State.start sampleInstruments 1 5) sampleRun = some s ∧
        isIdle s.handler = true := exists_run (by decide +kernel)
  have returns : Meets (step sampleConfig) (fun _ a => Returns a)
      (State.start sampleInstruments 1 5) sampleRun := by
    decide +kernel
  obtain ⟨⟨phase, follows, settled⟩, last⟩ := order_lifecycle rfl returns reached 1
  refine ⟨s, reached, ⟨phase, follows, settled ?_⟩, last⟩
  cases loop : s.handler with
  | idle => rfl
  | _ => simp [loop, isIdle] at idle

end LighterApi.Guarantees.OrderLifecycle

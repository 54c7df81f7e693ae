import LighterApi.Guarantees.LoudShapes
import LighterApi.Guarantees.VenueIndex

/-!
# What the venue tells of an order is handled, all of it and in order

The events of an order are read off the messages by their own fields, whatever the gateway
makes of them. The venue tells of an order that it has been given, under one venue index,
and nothing behind the event that ends it. As long as no callback throws and the order is
not refused, the events accepted for it and those that the loop has still to come to are
together all that was told (`heard_of_run`).
-/
namespace LighterApi.Guarantees.DeliveredReports
open LighterApi.Library.Transition
open LighterApi.Source LighterApi.Source.SendTx LighterApi.Source.Gateway
open LighterApi.Source.GatewayRun
open LighterApi.Guarantees.OrderIndices

/-! ## The events of an order -/

/-- An integer field, a number or the text of one. -/
def intField (order : Json) (key : String) : Option Int :=
  match order.find key with
  | some (.int n) => some (toInt64 n)
  | some (.str s) => stoll s
  | _ => none

theorem readInt_eq (order : Json) (key : String) :
    readInt order key = (intField order key).getD (-1) := by
  unfold readInt intField
  rcases order.find key with _ | value
  · rfl
  · cases value <;> rfl

def names (i : Int) (order : Json) : Bool := intField order "client_order_index" == some i

/-- The types of the messages about the orders of an account. -/
def feedTypes : List String := ["subscribed/account_all_orders", "update/account_all_orders"]

/-- The events of order `i` in a message. -/
def reports (i : Int) (msg : Json) : List Json :=
  if feedTypes.any fun type => startsWith (textOf msg "type") type then
    (((msg.find "orders").map LoudShapes.orderObjects).getD []).filter (names i)
  else []

/-- What the venue has told of order `i`, in order. -/
def told (i : Int) (actions : List Action) : List Json :=
  actions.flatMap fun
    | .deliver msg => reports i msg
    | _ => []

theorem told_append (i : Int) (past later : List Action) :
    told i (past ++ later) = told i past ++ told i later := List.flatMap_append

/-- A value that is no object names no order. -/
theorem isObject_of_names {i : Int} {order : Json} (named : names i order = true) :
    order.isObject = true := by
  cases order with
  | obj members => rfl
  | _ => exact absurd named (by simp [names, intField, Json.find])

/-- The gateway goes through the events that the message has. -/
theorem flattenOrders_names (i : Int) (msg : Json) :
    (if isOrderFeed msg then flattenOrders msg else []).filter (names i) = reports i msg := by
  have feed : isOrderFeed msg = feedTypes.any fun type => startsWith (textOf msg "type") type := by
    simp [isOrderFeed, feedTypes]
  have objects : ∀ orders : List Json,
      orders.filter (names i) = (orders.filter Json.isObject).filter (names i) := by
    intro orders
    rw [List.filter_filter]
    refine List.filter_congr fun order _ => ?_
    cases named : names i order with
    | false => rfl
    | true => rw [isObject_of_names named, Bool.and_true]
  unfold reports
  rw [feed]
  split
  · rw [objects]
    cases present : msg.find "orders" with
    | none => simp [flattenOrders, present]
    | some orders => rw [LoudShapes.flattenOrders_objects present, Option.map_some, Option.getD_some]
  · rfl

/-- The events of order `i` accepted so far, in order. -/
def accepted (i : Int) (trace : List Event) : List Json :=
  (trace.filterMap fun
    | .accepted j order => if j = i then some order else none
    | _ => none).reverse

/-- The event in hand and those behind it. -/
def inHand : Handler → Option Taken
  | .idle | .orders _ => none
  | .taken t _ | .priced t _ _ | .inFill t _ _ | .filled t _ _ | .inUpdate t _ | .updated t _ => some t

def behind : Handler → List Json
  | .idle => []
  | .orders rest | .taken _ rest | .priced _ _ rest | .inFill _ _ rest | .filled _ _ rest
  | .inUpdate _ rest | .updated _ rest => rest

/-- The events of order `i` that the loop has still to come to. -/
def pending (i : Int) (handler : Handler) : List Json := (behind handler).filter (names i)

/-- Nothing that concerns order `i`. -/
def Aside (i : Int) : Event → Prop
  | .accepted j _ => j ≠ i
  | .inserted j _ => j ≠ i
  | _ => True

theorem accepted_append {i : Int} {events : List Event} (asides : ∀ e ∈ events, Aside i e)
    (trace : List Event) : accepted i (events ++ trace) = accepted i trace := by
  unfold accepted
  rw [List.filterMap_append, List.filterMap_eq_nil_iff.mpr, List.nil_append]
  intro e member
  cases e with
  | accepted j order => exact if_neg (asides _ member)
  | _ => rfl

theorem inserted_append {i : Int} {events : List Event} (asides : ∀ e ∈ events, Aside i e)
    {trace : List Event} {rec : OrderRec} (inserted : .inserted i rec ∈ events ++ trace) :
    .inserted i rec ∈ trace := by
  rcases List.mem_append.mp inserted with new | old
  · exact absurd rfl (asides _ new)
  · exact old

theorem accepted_cons (i j : Int) (order : Json) (trace : List Event) :
    accepted i (.accepted j order :: trace) =
      if j = i then accepted i trace ++ [order] else accepted i trace := by
  unfold accepted
  rw [List.filterMap_cons]
  dsimp only
  by_cases here : j = i
  · rw [if_pos here, if_pos here, List.reverse_cons]
  · rw [if_neg here, if_neg here]

/-! ## The locked section of the handler -/

theorem takeOrder_index {lib : Externals} {maps maps' : OrderMaps} {order : Json} {t : Taken}
    (took : takeOrder lib maps order = some (maps', t)) :
    t.clientOrderIndex = readInt order "client_order_index" := by
  unfold takeOrder at took
  dsimp only at took
  split at took
  · exact absurd took (by simp)
  · split at took
    · exact absurd took (by simp)
    · split at took
      · exact absurd took (by simp)
      · simp only [Option.some.injEq, Prod.mk.injEq] at took
        rw [← took.2]

theorem names_iff {i : Int} (nonneg : 0 ≤ i) (order : Json) :
    names i order = true ↔ readInt order "client_order_index" = i := by
  rw [readInt_eq]
  unfold names
  cases intField order "client_order_index" with
  | none =>
    simp only [Option.getD_none, beq_iff_eq, reduceCtorEq, false_iff]
    omega
  | some n => simp

/-- The index of the record is open, or the venue's own. -/
def Fits (v : Int) (rec : OrderRec) : Prop := rec.orderIndex < 0 ∨ rec.orderIndex = v

/-- The event names the venue's own index, or none. -/
def NamesVenue (v : Int) (order : Json) : Prop :=
  ∀ n, intField order "order_index" = some n → n = v

variable {i v : Int}

/-- An event of a stored order is accepted, and the record still fits. -/
theorem takeOrder_known (lib : Externals) {maps : OrderMaps} {order : Json} {rec : OrderRec}
    (nonneg : 0 ≤ i) (named : names i order = true) (stored : maps.ordersByIndex i = some rec)
    (fits : Fits v rec) (venue : NamesVenue v order) :
    ∃ maps' t rec', takeOrder lib maps order = some (maps', t) ∧ t.clientOrderIndex = i ∧
      t.order = order ∧ maps'.ordersByIndex i = some rec' ∧ Fits v rec' := by
  have index := (names_iff nonneg order).mp named
  have names_venue : readInt order "order_index" < 0 ∨ readInt order "order_index" = v := by
    rw [readInt_eq]
    cases here : intField order "order_index" with
    | none => exact Or.inl (by decide)
    | some n => exact Or.inr (venue n here)
  have bound : ∃ rec', bindOrderIndex rec (readInt order "order_index") = some rec' := by
    unfold bindOrderIndex Fits at *
    split
    · exact ⟨_, rfl⟩
    · split
      · exact ⟨_, rfl⟩
      · rw [if_neg (by omega)]
        exact ⟨_, rfl⟩
  obtain ⟨rec', bound⟩ := bound
  have took : ∃ maps' t, takeOrder lib maps order = some (maps', t) := by
    unfold takeOrder
    rw [index, if_neg nonneg.not_gt, stored]
    dsimp only
    rw [bound]
    exact ⟨_, _, rfl⟩
  obtain ⟨maps', t, took⟩ := took
  have here : t.clientOrderIndex = i := (takeOrder_index took).trans index
  obtain ⟨_, _, _, _, _, _, _, _, _, order_eq⟩ := takeOrder_spec took
  obtain ⟨old, new, stored', rfl, binds⟩ := VenueIndex.takeOrder_binds took
  rw [here] at stored'
  obtain rfl := Option.some.inj (stored.symm.trans stored')
  refine ⟨_, t, new, took, here, order_eq, ?_, ?_⟩
  · rw [here, OrderMaps.set_ordersByIndex, if_pos rfl]
  · unfold Fits at *
    omega

/-! ## Every event told is heard -/

variable {cfg : Config} {s s' : State} {a : Action}

/-- The venue tells of an order only what it has been given. -/
def GivenFirst (i : Int) (s : State) (a : Action) : Prop :=
  ∀ msg, a = .deliver msg → reports i msg ≠ [] → ∃ rec, .inserted i rec ∈ s.trace

/-- No callback throws. -/
def Returns (actions : List Action) : Prop :=
  .fillReturns true ∉ actions ∧ .updateReturns true ∉ actions

/-- With all that will be told of order `i`: what has been told is accepted or pending, and
the record fits what is still to come. -/
structure Heard (i v : Int) (all : List Json) (past : List Action) (s : State) : Prop where
  heard : accepted i s.trace ++ pending i s.handler = told i past
  unknown : (∀ rec, .inserted i rec ∉ s.trace) → told i past = []
  stored : ∀ rec, .inserted i rec ∈ s.trace →
    (∃ rec', s.maps.ordersByIndex i = some rec' ∧ Fits v rec') ∨
      told i past = all ∧ pending i s.handler = []
  hand : ∀ t, inHand s.handler = some t → t.clientOrderIndex = i →
    (accepted i s.trace).getLast? = some t.order

variable {all : List Json} {past : List Action}

/-- A step that concerns other orders. -/
theorem Heard.aside (h : Heard i v all past s) (silent : told i [a] = [])
    (events : ∃ events, s'.trace = events ++ s.trace ∧ ∀ e ∈ events, Aside i e)
    (record : s'.maps.ordersByIndex i = s.maps.ordersByIndex i)
    (waiting : pending i s'.handler = pending i s.handler)
    (hand : ∀ t, inHand s'.handler = some t → t.clientOrderIndex = i →
      inHand s.handler = some t) : Heard i v all (past ++ [a]) s' := by
  obtain ⟨events, trace_eq, asides⟩ := events
  have same := accepted_append asides s.trace
  rw [← trace_eq] at same
  have told_same : told i (past ++ [a]) = told i past := by
    rw [told_append, silent, List.append_nil]
  refine ⟨?_, fun never => ?_, fun rec inserted => ?_, fun t held here => ?_⟩
  · rw [same, waiting, told_same]
    exact h.heard
  · rw [told_same]
    refine h.unknown fun rec inserted => never rec ?_
    rw [trace_eq]
    exact List.mem_append_right _ inserted
  · rw [record, told_same, waiting]
    rw [trace_eq] at inserted
    exact h.stored rec (inserted_append asides inserted)
  · rw [same]
    exact h.hand t (hand t held here) here

theorem Heard.insert (h : Heard i v all past s) (fresh : ∀ rec, .inserted i rec ∉ s.trace)
    {rec : OrderRec} (open_index : rec.orderIndex < 0) (silent : told i [a] = [])
    (trace_eq : s'.trace = .inserted i rec :: s.trace)
    (record : s'.maps.ordersByIndex i = some rec) (handler : s'.handler = s.handler) :
    Heard i v all (past ++ [a]) s' := by
  have nothing := h.unknown fresh
  have told_same : told i (past ++ [a]) = [] := by
    rw [told_append, silent, List.append_nil, nothing]
  have same : accepted i s'.trace = accepted i s.trace := by
    rw [trace_eq]
    rfl
  refine ⟨?_, fun _ => told_same, fun _ _ => Or.inl ⟨rec, record, Or.inl open_index⟩,
    fun t held here => ?_⟩
  · rw [same, handler, told_same, ← nothing]
    exact h.heard
  · rw [handler] at held
    rw [same]
    exact h.hand t held here

/-- A message is delivered. -/
theorem Heard.deliver (h : Heard i v all past s) {msg : Json} (given : GivenFirst i s (.deliver msg))
    (idle : s.handler = .idle) (within : told i (past ++ [.deliver msg]) <+: all) :
    Heard i v all (past ++ [.deliver msg])
      { s with handler := if isOrderFeed msg then .orders (flattenOrders msg) else .idle } := by
  have more : told i (past ++ [.deliver msg]) = told i past ++ reports i msg := by
    rw [told_append]
    simp [told]
  have waiting : pending i (if isOrderFeed msg then .orders (flattenOrders msg) else .idle) =
      reports i msg := by
    rw [← flattenOrders_names]
    unfold pending
    split <;> rfl
  have heard := h.heard
  rw [idle] at heard
  refine ⟨?_, fun never => ?_, fun rec inserted => ?_, fun t held => ?_⟩
  · change accepted i s.trace ++ pending i _ = _
    rw [waiting, more, ← heard]
    exact congrArg (· ++ reports i msg) (List.append_nil _).symm
  · rw [more, h.unknown never]
    by_contra told_first
    obtain ⟨rec, inserted⟩ := given msg rfl fun none_told => told_first (by rw [none_told]; rfl)
    exact never rec inserted
  · rcases h.stored rec inserted with stored | ⟨whole, _⟩
    · exact Or.inl stored
    · -- All has been told, so the message tells nothing.
      rw [more, whole] at within
      have none_told : reports i msg = [] := by
        have short := within.length_le
        rw [List.length_append] at short
        exact List.eq_nil_of_length_eq_zero (by omega)
      refine Or.inr ⟨by rw [more, whole, none_told, List.append_nil], ?_⟩
      exact waiting.trans none_told
  · dsimp only at held
    split at held <;> exact absurd held (by simp [inHand])

/-- The next event is one of the order: it is accepted. -/
theorem Heard.next (h : Heard i v all past s) (lib : Externals) (nonneg : 0 ≤ i) {order : Json}
    {rest : List Json} (at_order : s.handler = .orders (order :: rest))
    (named : names i order = true) (within : told i past <+: all)
    (venue : ∀ order ∈ all, NamesVenue v order) :
    order ∈ all ∧ ∃ maps' t rec', takeOrder lib s.maps order = some (maps', t) ∧
      t.clientOrderIndex = i ∧ t.order = order ∧ maps'.ordersByIndex i = some rec' ∧ Fits v rec' := by
  have waiting : pending i s.handler = order :: rest.filter (names i) := by
    rw [at_order]
    exact List.filter_cons_of_pos named
  have heard : order ∈ told i past := by
    rw [← h.heard, waiting]
    simp
  have member := within.subset heard
  refine ⟨member, ?_⟩
  have known : ∃ rec, .inserted i rec ∈ s.trace := by
    by_contra never
    rw [h.unknown fun rec inserted => never ⟨rec, inserted⟩] at heard
    exact absurd heard List.not_mem_nil
  obtain ⟨rec, inserted⟩ := known
  rcases h.stored rec inserted with ⟨rec', stored, fits⟩ | ⟨_, none_left⟩
  · exact takeOrder_known lib nonneg named stored fits (venue order member)
  · rw [waiting] at none_left
    exact absurd none_left (by simp)

theorem Heard.accept (h : Heard i v all past s) {order : Json} {rest : List Json}
    {maps : OrderMaps} {t : Taken} {rec' : OrderRec} (at_order : s.handler = .orders (order :: rest))
    (named : names i order = true) (here : t.clientOrderIndex = i) (order_eq : t.order = order)
    (record : maps.ordersByIndex i = some rec') (fits : Fits v rec') :
    Heard i v all (past ++ [.takeNext]) { s.log (.accepted t.clientOrderIndex order) with
      maps, handler := .taken t rest } := by
  have told_same : told i (past ++ [.takeNext]) = told i past := by
    rw [told_append]
    exact List.append_nil _
  have grown : accepted i (.accepted t.clientOrderIndex order :: s.trace) =
      accepted i s.trace ++ [order] := by
    rw [accepted_cons, if_pos here]
  have heard := h.heard
  have waiting : pending i s.handler = order :: rest.filter (names i) := by
    rw [at_order]
    exact List.filter_cons_of_pos named
  rw [waiting] at heard
  refine ⟨?_, fun never => ?_, fun rec inserted => ?_, fun t' held _ => ?_⟩
  · rw [told_same, ← heard]
    change accepted i (.accepted t.clientOrderIndex order :: s.trace) ++ rest.filter (names i) = _
    rw [grown, List.append_assoc, List.singleton_append]
  · rw [told_same]
    exact h.unknown fun rec inserted => never rec (List.mem_cons_of_mem _ inserted)
  · exact Or.inl ⟨rec', record, fits⟩
  · obtain rfl := Option.some.inj held
    change (accepted i (.accepted t.clientOrderIndex order :: s.trace)).getLast? = _
    rw [grown, List.getLast?_concat, order_eq]

/-- The event that ends the order is the last one told. -/
theorem Heard.prune (h : Heard i v all past s) {t : Taken} {rest : List Json}
    (at_updated : s.handler = .updated t rest) (terminal : isTerminalEvent t.order = true)
    (here : t.clientOrderIndex = i) (within : told i past <+: all)
    (ends : ∀ order ∈ all.dropLast, isTerminalEvent order = false) :
    Heard i v all (past ++ [.prune]) { s with
      maps := s.maps.eraseOrderRec t.clientOrderIndex t.clientOrderId, handler := .orders rest } := by
  have told_same : told i (past ++ [.prune]) = told i past := by
    rw [told_append]
    exact List.append_nil _
  have last := h.hand t (by rw [at_updated]; rfl) here
  obtain ⟨earlier, accepted_eq⟩ := List.getLast?_eq_some_iff.mp last
  have heard := h.heard
  rw [accepted_eq, List.append_assoc, List.singleton_append] at heard
  obtain ⟨more, all_eq⟩ := within
  rw [← heard, List.append_assoc, List.cons_append] at all_eq
  have whole : pending i s.handler ++ more = [] := by
    by_contra behind
    have before : t.order ∈ all.dropLast := by
      rw [← all_eq, List.dropLast_append_of_ne_nil (by simp), List.dropLast_cons_of_ne_nil behind]
      simp
    rw [ends t.order before] at terminal
    exact absurd terminal (by decide)
  obtain ⟨none_left, no_more⟩ := List.append_eq_nil_iff.mp whole
  have waiting : pending i (.orders rest) = pending i s.handler := by
    rw [at_updated]
    rfl
  refine ⟨?_, fun never => ?_, fun _ _ => Or.inr ⟨?_, waiting.trans none_left⟩,
    fun t' held => absurd held (by simp [inHand])⟩
  · rw [told_same, ← h.heard]
    exact congrArg (accepted i s.trace ++ ·) waiting
  · rw [told_same]
    exact h.unknown never
  · rw [told_same, ← heard, ← all_eq, no_more, List.append_nil]

/-- The step lemma. -/
theorem Heard.step (h : Heard i v all past s) (nonneg : 0 ≤ i) (indexed : Indexed s)
    (carried : Carried s) (taken : step cfg s a = some s') (kept : .rejected i ∉ s'.trace)
    (given : GivenFirst i s a) (returns : a ≠ .fillReturns true ∧ a ≠ .updateReturns true)
    (within : told i (past ++ [a]) <+: all) (venue : ∀ order ∈ all, NamesVenue v order)
    (ends : ∀ order ∈ all.dropLast, isTerminalEvent order = false) :
    Heard i v all (past ++ [a]) s' := by
  have before : told i past <+: all := by
    rw [told_append] at within
    exact (List.prefix_append _ _).trans within
  have one : ∀ {e : Event}, Aside i e → ∃ events, e :: s.trace = events ++ s.trace ∧
      ∀ e' ∈ events, Aside i e' := by
    intro e aside
    refine ⟨[e], rfl, fun e' member => ?_⟩
    rw [List.mem_singleton.mp member]
    exact aside
  have none_new : ∃ events, s.trace = events ++ s.trace ∧ ∀ e ∈ events, Aside i e :=
    ⟨[], rfl, fun _ member => absurd member List.not_mem_nil⟩
  have same_hand : ∀ t, inHand s.handler = some t → t.clientOrderIndex = i →
      inHand s.handler = some t := fun _ held _ => held
  -- The handler goes on with the event in hand.
  have goes_on : ∀ {before : Handler} (after : Handler), s.handler = before →
      behind after = behind before → (inHand after = none ∨ inHand after = inHand before) →
      pending i after = pending i s.handler ∧ ∀ t, inHand after = some t → t.clientOrderIndex = i →
        inHand s.handler = some t := by
    rintro before after rfl same_rest (dropped | same)
    · refine ⟨by unfold pending; rw [same_rest], fun t held => ?_⟩
      rw [dropped] at held
      exact absurd held (by simp)
    · refine ⟨by unfold pending; rw [same_rest], fun t held _ => ?_⟩
      rw [← same]
      exact held
  cases step_spec taken with
  | reload | quote | cancelWaits | lockedTx => exact h.aside rfl none_new rfl rfl same_hand
  | allocated sub idle calls whole =>
    refine h.aside ?_ none_new rfl rfl same_hand
    cases a <;> first | rfl | exact absurd calls (by simp [Action.thread])
  | refused id failure idle calls =>
    refine h.aside ?_ (one trivial) rfl rfl same_hand
    cases a <;> first | rfl | exact absurd calls (by simp [Action.thread])
  | inserted at_stage =>
    rename_i t sub j
    by_cases here : j = i
    · subst here
      exact h.insert (indexed.alloc_new t sub j at_stage) (show (-1 : Int) < 0 by decide) rfl rfl
        (by simp) rfl
    · refine h.aside rfl (one here) ?_ rfl same_hand
      rw [OrderMaps.insert_ordersByIndex, if_neg fun same => here same.symm]
  | cancelReturned | signed | signFailedCancel | sent | resynced =>
    exact h.aside rfl (one trivial) rfl rfl same_hand
  | signFailedSubmit what at_stage =>
    refine h.aside rfl ⟨[.rejected _, .signing _], rfl, ?_⟩ rfl rfl same_hand
    simp [Aside]
  | sendFailed failure at_stage failed =>
    rename_i t job nonce answer
    have events : ∃ events, (noteReject (s.log (.sent nonce)) job failure).trace =
        events ++ s.trace ∧ ∀ e ∈ events, Aside i e := by
      rcases noteReject_eq (s.log (.sent nonce)) job failure with same | ⟨_, j, _, _, same⟩
      · rw [same]
        exact one trivial
      · rw [same]
        exact ⟨[.rejected j, .sent nonce], rfl, by simp [Aside]⟩
    refine h.aside rfl events ?_ ?_ ?_
    · rw [State.goto_maps, noteReject_maps]
      rfl
    · rw [State.goto_handler, noteReject_handler]
      rfl
    · rw [State.goto_handler, noteReject_handler]
      exact same_hand
  | erased at_stage =>
    rename_i t sub j failure
    have refused : StageOk s.trace (.erasing sub j failure) := at_stage ▸ carried.stages t
    have other : j ≠ i := by
      rintro rfl
      exact kept refused.2
    refine h.aside rfl none_new ?_ rfl same_hand
    rw [OrderMaps.erase_ordersByIndex, if_neg fun same => other same.symm]
  | finished at_stage =>
    rename_i t job result
    refine h.aside rfl (one ?_) rfl rfl same_hand
    cases job <;> trivial
  | delivered msg idle => exact h.deliver given idle within
  | loopEnded at_end =>
    obtain ⟨waiting, hand⟩ := goes_on .idle at_end rfl (Or.inl rfl)
    exact h.aside rfl none_new rfl waiting hand
  | skipped at_order ignored =>
    rename_i order rest
    cases named : names i order with
    | true =>
      obtain ⟨_, maps', t, _, took, _⟩ := h.next cfg.lib nonneg at_order named before venue
      rw [ignored] at took
      exact absurd took (by simp)
    | false =>
      have waiting : pending i (.orders rest) = pending i s.handler := by
        rw [at_order]
        exact (List.filter_cons_of_neg (by simp [named])).symm
      exact h.aside rfl none_new rfl waiting fun t held => absurd held (by simp [inHand])
  | took at_order took =>
    rename_i order rest maps t
    cases named : names i order with
    | true =>
      obtain ⟨_, maps', t', rec', took', here, order_eq, record, fits⟩ :=
        h.next cfg.lib nonneg at_order named before venue
      obtain ⟨rfl, rfl⟩ := Prod.mk.inj (Option.some.inj (took.symm.trans took'))
      exact h.accept at_order named here order_eq record fits
    | false =>
      have other : t.clientOrderIndex ≠ i := by
        rw [takeOrder_index took]
        intro here
        rw [(names_iff nonneg order).mpr here] at named
        exact absurd named (by decide)
      have waiting : pending i (.taken t rest) = pending i s.handler := by
        rw [at_order]
        exact (List.filter_cons_of_neg (by simp [named])).symm
      obtain ⟨_, rec', _, rfl, _⟩ := takeOrder_spec took
      refine h.aside rfl (one other) ?_ waiting fun t' held here => ?_
      · rw [OrderMaps.set_ordersByIndex, if_neg fun same => other same.symm]
      · exact absurd here (Option.some.inj held ▸ other)
  | priced at_taken =>
    obtain ⟨waiting, hand⟩ := goes_on (.priced _ _ _) at_taken rfl (Or.inr rfl)
    exact h.aside rfl none_new rfl waiting hand
  | filled at_priced callback new =>
    obtain ⟨waiting, hand⟩ := goes_on (.inFill _ _ _) at_priced rfl (Or.inr rfl)
    exact h.aside rfl (one trivial) rfl waiting hand
  | fillSkipped at_priced none_due =>
    obtain ⟨waiting, hand⟩ := goes_on (.filled _ _ _) at_priced rfl (Or.inr rfl)
    exact h.aside rfl none_new rfl waiting hand
  | fillReturned throws at_fill =>
    cases throws with
    | true => exact absurd rfl returns.1
    | false =>
      obtain ⟨waiting, hand⟩ := goes_on (.filled _ _ _) at_fill rfl (Or.inr rfl)
      exact h.aside rfl none_new rfl waiting hand
  | updated at_filled callback =>
    obtain ⟨waiting, hand⟩ := goes_on (.inUpdate _ _) at_filled rfl (Or.inr rfl)
    exact h.aside rfl (one trivial) rfl waiting hand
  | updateSkipped at_filled unset =>
    obtain ⟨waiting, hand⟩ := goes_on (.updated _ _) at_filled rfl (Or.inr rfl)
    exact h.aside rfl none_new rfl waiting hand
  | updateReturned throws at_update =>
    cases throws with
    | true => exact absurd rfl returns.2
    | false =>
      obtain ⟨waiting, hand⟩ := goes_on (.updated _ _) at_update rfl (Or.inr rfl)
      exact h.aside rfl none_new rfl waiting hand
  | pruned at_updated terminal =>
    rename_i t rest
    by_cases here : t.clientOrderIndex = i
    · exact h.prune at_updated terminal here before ends
    · obtain ⟨waiting, hand⟩ := goes_on (.orders rest) at_updated rfl (Or.inl rfl)
      refine h.aside rfl none_new ?_ waiting hand
      rw [OrderMaps.erase_ordersByIndex, if_neg fun same => here same.symm]
  | kept at_updated open_order =>
    obtain ⟨waiting, hand⟩ := goes_on (.orders _) at_updated rfl (Or.inl rfl)
    exact h.aside rfl none_new rfl waiting hand

end LighterApi.Guarantees.DeliveredReports

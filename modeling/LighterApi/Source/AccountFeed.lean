import LighterApi.Library.EarlyExit
import LighterApi.Source.GatewaySteps

/-!
One message of the account feed, handled from end to end: lighter_execution_gateway.cpp:373-512.
The loop over its order events with what each of them logs, emits and does to the records,
and with the callbacks that throw, which end the loop: the handler of the exception stands
outside it. The io thread runs alone here, as it does in `GatewayRun` between two steps of
the calling threads (`loop_alone`).
-/
namespace LighterApi.Source.AccountFeed
open LighterApi.Library.Transition LighterApi.Library.EarlyExit
open LighterApi.Source.SendTx LighterApi.Source.Gateway LighterApi.Source.GatewayRun

inductive Severity where
  | debug | warn | error
  deriving DecidableEq, Repr

structure Log where
  severity : Severity
  text : String
  deriving DecidableEq, Repr

inductive Emission where
  | fill (fill : FillEvent)
  | update (update : OrderUpdate)
  deriving DecidableEq, Repr

structure Output where
  logs : List Log
  emitted : List Emission
  deriving DecidableEq, Repr

/-- An order event, and whether the callbacks throw when they are called for it. -/
structure OrderEvent where
  order : Json
  fillThrows : Bool
  updateThrows : Bool

/-- The same event with callbacks that return. -/
def OrderEvent.calm (event : OrderEvent) : OrderEvent := ⟨event.order, false, false⟩

variable (cfg : Config)

def noIndexWarning (order : Json) : Log :=
  ⟨.warn, "LighterGW: order event without client_order_index: " ++ cfg.lib.dump order⟩

def unknownIndexLog (clientOrderIndex : Int) : Log :=
  ⟨.debug, "LighterGW: event for unknown client_order_index " ++ toString clientOrderIndex⟩

def collisionWarning (clientOrderIndex known orderIndex : Int) : Log :=
  ⟨.warn, "LighterGW: client_order_index " ++ toString clientOrderIndex ++ " collision (venue " ++
    toString known ++ " vs " ++ toString orderIndex ++ ") — event ignored"⟩

def clampError (cumFilled submittedQty : Rat) (clientOrderId : String) : Log :=
  ⟨.error, "LighterGW: fill " ++ cfg.lib.showDouble cumFilled ++ " exceeds submitted qty " ++
    cfg.lib.showDouble submittedQty ++ " for " ++ clientOrderId ++ " — clamped (units mismatch?)"⟩

def orderLog (t : Taken) (price : Rat) : Log :=
  ⟨.debug, "LighterGW order: " ++ t.symbol ++ " idx=" ++ toString t.clientOrderIndex ++ " status=" ++
    textOf t.order "status" ++ " filled=" ++
    cfg.lib.showDouble (readStr cfg.lib t.order "filled_base_amount") ++ " px=" ++
    cfg.lib.showDouble price⟩

/-- What the locked section logs: why the event is passed over, or that its fill is clamped. -/
def lockedLogs (maps : OrderMaps) (order : Json) : List Log :=
  let clientOrderIndex := readInt order "client_order_index"
  if clientOrderIndex < 0 then [noIndexWarning cfg order]
  else
    match maps.ordersByIndex clientOrderIndex with
    | none => [unknownIndexLog clientOrderIndex]
    | some rec =>
      let orderIndex := readInt order "order_index"
      match bindOrderIndex rec orderIndex with
      | none => [collisionWarning clientOrderIndex rec.orderIndex orderIndex]
      | some bound =>
        let cumFilled := readStr cfg.lib order "filled_base_amount"
        if bound.submittedQty > 0 ∧ cumFilled > bound.submittedQty * (1001 / 1000) then
          [clampError cfg cumFilled bound.submittedQty bound.clientOrderId]
        else []

variable (quotes : QuoteCache)

/-- The body of the loop. -/
def handleOrder (maps : OrderMaps) (event : OrderEvent) : Visit OrderMaps Output :=
  let logs := lockedLogs cfg maps event.order
  match takeOrder cfg.lib maps event.order with
  | none => ⟨maps, ⟨logs, []⟩, maps, false⟩
  | some (credited, t) =>
    let price := eventPrice cfg.lib quotes t.symbol t.order
    let fillDue := cfg.fillCB && decide (t.newFill > 0)
    let filled := if fillDue then [.fill (fillEvent cfg.lib t price)] else []
    if fillDue && event.fillThrows then ⟨maps, ⟨logs, filled⟩, credited, true⟩
    else
      let emitted := if cfg.orderUpdateCB then filled ++ [.update (orderUpdate cfg.lib t price)]
        else filled
      if cfg.orderUpdateCB && event.updateThrows then ⟨maps, ⟨logs, emitted⟩, credited, true⟩
      else
        ⟨maps, ⟨logs ++ [orderLog cfg t price], emitted⟩,
          if isTerminalEvent t.order then credited.eraseOrderRec t.clientOrderIndex t.clientOrderId
          else credited, false⟩

/-- The order events of a message, with the callbacks that throw by position. -/
def eventsOf (msg : Json) (fillThrows updateThrows : Nat → Bool) : List OrderEvent :=
  (flattenOrders msg).mapIdx fun k order => ⟨order, fillThrows k, updateThrows k⟩

def schemaWarning (msg : Json) : Log :=
  ⟨.warn, "LighterGW: " ++ textOf msg "type" ++
    " message without parseable orders — schema mismatch? raw: " ++ cfg.lib.dump msg⟩

/-- What a message leaves behind: the visits of the loop, the records, the warnings before
the loop and how often those were due. -/
structure Outcome where
  feedLive : Bool
  logs : List Log
  emptyWarns : Nat
  visits : List (Visit OrderMaps Output)
  maps : OrderMaps

def onAccountMessage (maps : OrderMaps) (feedLive : Bool) (emptyWarns : Nat) (msg : Json)
    (fillThrows updateThrows : Nat → Bool) : Outcome :=
  if isOrderFeed msg then
    let events := eventsOf msg fillThrows updateThrows
    if events.isEmpty then
      if (msg.find "orders").isNone then
        ⟨true, if emptyWarns < 3 then [schemaWarning cfg msg] else [], emptyWarns + 1, [], maps⟩
      else ⟨true, [], emptyWarns, [], maps⟩
    else
      ⟨true, [], emptyWarns, loop (handleOrder cfg quotes) events maps,
        finish (handleOrder cfg quotes) events maps⟩
  else ⟨feedLive, [], emptyWarns, [], maps⟩

variable {cfg quotes} {maps : OrderMaps} {feedLive : Bool} {emptyWarns : Nat} {msg : Json}
  {fillThrows updateThrows : Nat → Bool}

/-- A message of the order feed is handled by the loop. -/
theorem onAccountMessage_of_feed (feed : isOrderFeed msg = true) :
    let outcome := onAccountMessage cfg quotes maps feedLive emptyWarns msg fillThrows updateThrows
    let events := eventsOf msg fillThrows updateThrows
    outcome.visits = loop (handleOrder cfg quotes) events maps ∧
      outcome.maps = finish (handleOrder cfg quotes) events maps := by
  unfold onAccountMessage
  rw [if_pos feed]
  dsimp only
  cases eventsOf msg fillThrows updateThrows with
  | nil =>
    rw [List.isEmpty_nil, if_pos rfl]
    split <;> exact ⟨rfl, rfl⟩
  | cons event rest => exact ⟨rfl, rfl⟩

theorem eventsOf_calm (msg : Json) (fillThrows updateThrows : Nat → Bool) :
    eventsOf msg (fun _ => false) (fun _ => false) =
      (eventsOf msg fillThrows updateThrows).map OrderEvent.calm := by
  unfold eventsOf
  refine List.ext_getElem? fun k => ?_
  simp [OrderEvent.calm, Function.comp_def]

/-- All that is logged for a message. -/
def Outcome.allLogs (outcome : Outcome) : List Log :=
  outcome.logs ++ outcome.visits.flatMap fun visit => visit.output.logs

/-! ## The io thread of a run, alone -/

/-- The fills and the order updates of a trace, latest first. -/
def emissions (trace : List Event) : List Emission :=
  trace.filterMap fun
    | .fill _ fill => some (.fill fill)
    | .update _ update => some (.update update)
    | _ => none

variable (cfg)

/-- The io thread gets from one state to another while the other threads stand still. -/
def Alone (s s' : State) (emitted : List Emission) : Prop :=
  ∃ actions, (∀ a ∈ actions, a.thread = none) ∧ run (step cfg) s actions = some s' ∧
    s'.quotes = s.quotes ∧ emissions s'.trace = emitted.reverse ++ emissions s.trace

variable {cfg}

theorem Alone.refl (s : State) : Alone cfg s s [] := ⟨[], by simp, rfl, rfl, rfl⟩

theorem Alone.trans {s m s' : State} {first second : List Emission} (h : Alone cfg s m first)
    (h' : Alone cfg m s' second) : Alone cfg s s' (first ++ second) := by
  obtain ⟨actions, io, reached, quotes, emitted⟩ := h
  obtain ⟨actions', io', reached', quotes', emitted'⟩ := h'
  refine ⟨actions ++ actions', ?_, run_append_eq_some.mpr ⟨m, reached, reached'⟩,
    quotes'.trans quotes, ?_⟩
  · intro a member
    rcases List.mem_append.mp member with early | late
    · exact io a early
    · exact io' a late
  · rw [emitted', emitted, List.reverse_append, List.append_assoc]

theorem Alone.of_step {s s' : State} {a : Action} {emitted : List Emission} (io : a.thread = none)
    (taken : step cfg s a = some s') (quotes : s'.quotes = s.quotes)
    (told : emissions s'.trace = emitted.reverse ++ emissions s.trace) : Alone cfg s s' emitted :=
  ⟨[a], by simpa using io, run_cons_eq_some.mpr ⟨s', taken, rfl⟩, quotes, told⟩

variable {s : State} {t : Taken} {price : Rat} {rest : List Json}

/-- From the price to the end of the fill callback, or out of the handler. -/
theorem fill_alone (at_priced : s.handler = .priced t price rest) (throws : Bool) :
    let due := cfg.fillCB && decide (t.newFill > 0)
    ∃ s', Alone cfg s s' (if due then [.fill (fillEvent cfg.lib t price)] else []) ∧
      s'.maps = s.maps ∧
      s'.handler = if due && throws then .idle else .filled t price rest := by
  intro due
  by_cases reported : cfg.fillCB = true ∧ t.newFill > 0
  · have due_true : due = true := by simpa [due] using reported
    rw [due_true, if_pos rfl, Bool.true_and]
    let inFill : State := { s.log (.fill t.clientOrderIndex (fillEvent cfg.lib t price)) with
      handler := .inFill t price rest }
    let after : State := { inFill with handler := if throws then .idle else .filled t price rest }
    have emits : Alone cfg s inFill [.fill (fillEvent cfg.lib t price)] := by
      refine .of_step (a := .emitFill) rfl ?_ rfl rfl
      simp only [step, at_priced]
      exact if_pos reported
    have returns : Alone cfg inFill after [] := .of_step (a := .fillReturns throws) rfl rfl rfl rfl
    exact ⟨after, emits.trans returns, rfl, rfl⟩
  · have due_false : due = false := by simpa [due] using reported
    rw [due_false, if_neg (by decide), Bool.false_and, if_neg (by decide)]
    refine ⟨{ s with handler := .filled t price rest }, ?_, rfl, rfl⟩
    refine .of_step (a := .emitFill) rfl ?_ rfl rfl
    simp only [step, at_priced]
    exact if_neg reported

/-- From there to the end of the order-update callback, or out of the handler. -/
theorem update_alone (cfg : Config) (at_filled : s.handler = .filled t price rest) (throws : Bool) :
    ∃ s', Alone cfg s s' (if cfg.orderUpdateCB then [.update (orderUpdate cfg.lib t price)] else []) ∧
      s'.maps = s.maps ∧
      s'.handler = if cfg.orderUpdateCB && throws then .idle else .updated t rest := by
  cases set : cfg.orderUpdateCB with
  | true =>
    rw [if_pos rfl, Bool.true_and]
    let inUpdate : State := { s.log (.update t.clientOrderIndex (orderUpdate cfg.lib t price)) with
      handler := .inUpdate t rest }
    let after : State := { inUpdate with handler := if throws then .idle else .updated t rest }
    have emits : Alone cfg s inUpdate [.update (orderUpdate cfg.lib t price)] := by
      refine .of_step (a := .emitUpdate) rfl ?_ rfl rfl
      simp only [step, at_filled]
      exact if_pos set
    have returns : Alone cfg inUpdate after [] := .of_step (a := .updateReturns throws) rfl rfl rfl rfl
    exact ⟨after, emits.trans returns, rfl, rfl⟩
  | false =>
    rw [if_neg (by decide), Bool.false_and, if_neg (by decide)]
    refine ⟨{ s with handler := .updated t rest }, ?_, rfl, rfl⟩
    refine .of_step (a := .emitUpdate) rfl ?_ rfl rfl
    simp only [step, at_filled]
    exact if_neg (by simp [set])

/-- The body of the loop is what the io thread does with one event. -/
theorem handleOrder_alone (event : OrderEvent) (at_order : s.handler = .orders (event.order :: rest)) :
    let visit := handleOrder cfg s.quotes s.maps event
    ∃ s', Alone cfg s s' visit.output.emitted ∧ s'.maps = visit.after ∧
      s'.handler = if visit.leaves then .idle else .orders rest := by
  unfold handleOrder
  cases took : takeOrder cfg.lib s.maps event.order with
  | none =>
    refine ⟨{ s with handler := .orders rest }, .of_step (a := .takeNext) rfl ?_ rfl rfl, rfl, rfl⟩
    simp only [step, takeNextOrder, at_order, took]
  | some pair =>
    obtain ⟨credited, t⟩ := pair
    let price := eventPrice cfg.lib s.quotes t.symbol t.order
    let taken : State := { s.log (.accepted t.clientOrderIndex event.order) with
      maps := credited, handler := .taken t rest }
    let priced : State := { taken with handler := .priced t price rest }
    have takes : Alone cfg s taken [] := by
      refine .of_step (a := .takeNext) rfl ?_ rfl rfl
      simp only [step, takeNextOrder, at_order, took, taken]
    have prices : Alone cfg taken priced [] := .of_step (a := .readPrice) rfl rfl rfl rfl
    obtain ⟨filled, fills, filled_maps, filled_handler⟩ :
        ∃ s', Alone cfg priced s' (if cfg.fillCB && decide (t.newFill > 0) then
            [.fill (fillEvent cfg.lib t price)] else []) ∧ s'.maps = credited ∧
          s'.handler = if (cfg.fillCB && decide (t.newFill > 0)) && event.fillThrows then .idle
            else .filled t price rest :=
      fill_alone rfl event.fillThrows
    have upto : Alone cfg s filled _ := (takes.trans prices).trans fills
    rw [List.append_nil, List.nil_append] at upto
    dsimp only
    by_cases fillThrown : ((cfg.fillCB && decide (t.newFill > 0)) && event.fillThrows) = true
    · rw [if_pos fillThrown] at filled_handler ⊢
      exact ⟨filled, upto, filled_maps, filled_handler⟩
    · rw [if_neg fillThrown] at filled_handler ⊢
      obtain ⟨told, updates, told_maps, told_handler⟩ :=
        update_alone cfg filled_handler event.updateThrows
      have emits := upto.trans updates
      have joined : ∀ fills : List Emission, (fills ++ if cfg.orderUpdateCB = true then
          [.update (orderUpdate cfg.lib t price)] else []) =
            if cfg.orderUpdateCB = true then fills ++ [.update (orderUpdate cfg.lib t price)]
            else fills := by
        intro fills
        split
        · rfl
        · rw [List.append_nil]
      rw [joined] at emits
      by_cases updateThrown : (cfg.orderUpdateCB && event.updateThrows) = true
      · rw [if_pos updateThrown] at told_handler ⊢
        exact ⟨told, emits, told_maps.trans filled_maps, told_handler⟩
      · rw [if_neg updateThrown] at told_handler ⊢
        let pruned : OrderMaps := if isTerminalEvent t.order then
          credited.eraseOrderRec t.clientOrderIndex t.clientOrderId else credited
        let after : State := { told with maps := pruned, handler := .orders rest }
        have prunes : Alone cfg told after [] := by
          refine .of_step (a := .prune) rfl ?_ rfl rfl
          simp only [step, told_handler, after, pruned]
          split
          · rw [told_maps, filled_maps]
          · rw [← told_maps.trans filled_maps]
        refine ⟨after, ?_, rfl, rfl⟩
        have whole := emits.trans prunes
        rw [List.append_nil] at whole
        exact whole

/-- A whole message: the records and everything emitted are those of the loop. -/
theorem loop_alone (events : List OrderEvent) (at_orders : s.handler = .orders (events.map (·.order))) :
    ∃ s', Alone cfg s s' ((loop (handleOrder cfg s.quotes) events s.maps).flatMap
        fun visit => visit.output.emitted) ∧
      s'.maps = finish (handleOrder cfg s.quotes) events s.maps ∧ s'.handler = .idle := by
  induction events generalizing s with
  | nil =>
    refine ⟨{ s with handler := .idle }, .of_step (a := .takeNext) rfl ?_ rfl rfl, rfl, rfl⟩
    simp only [step, takeNextOrder, at_orders, List.map_nil]
  | cons event events ih =>
    obtain ⟨m, visits, maps, handler⟩ := handleOrder_alone event at_orders
    have quotes : m.quotes = s.quotes := by
      obtain ⟨_, _, _, quotes, _⟩ := visits
      exact quotes
    cases leaves : (handleOrder cfg s.quotes s.maps event).leaves with
    | true =>
      rw [leaves, if_pos rfl] at handler
      rw [loop_of_leaves _ leaves, finish_of_leaves _ leaves]
      refine ⟨m, ?_, maps, handler⟩
      simpa using visits
    | false =>
      rw [leaves, if_neg (by decide)] at handler
      obtain ⟨s', later, last, idle⟩ := ih handler
      rw [quotes, maps] at later last
      rw [loop_of_stays _ leaves, finish_of_stays _ leaves, List.flatMap_cons]
      exact ⟨s', visits.trans later, last, idle⟩

end LighterApi.Source.AccountFeed

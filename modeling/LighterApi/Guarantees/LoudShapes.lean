import LighterApi.Guarantees.OrderLoop

/-!
# No order event is dropped silently

An order event that is not an object has no index and is warned about. A value of
`orders`, or of one of its markets, that is neither an array nor an object is not looked
at, so it is loud only when some other event of the message happens to warn. And a
callback that throws takes the order objects behind its event with it.
-/
namespace LighterApi.Guarantees.LoudShapes
open LighterApi.Library.EarlyExit
open LighterApi.Source LighterApi.Source.Gateway LighterApi.Source.GatewayRun
open LighterApi.Source.AccountFeed LighterApi.Guarantees.OrderLoop

/-- Neither an array nor an object. -/
def isScalar : Json → Bool
  | .arr _ => false
  | .obj _ => false
  | _ => true

/-- The order objects of an array, or of the arrays and objects of a per-market object. -/
def orderObjects : Json → List Json
  | .arr elements => elements.filter Json.isObject
  | .obj markets => markets.flatMap fun perMarket =>
      match perMarket.2 with
      | .arr elements => elements.filter Json.isObject
      | .obj members => [.obj members]
      | _ => []
  | _ => []

/-- Some part of the value is none of these. -/
inductive Misshapen : Json → Prop where
  | container {orders : Json} (scalar : isScalar orders = true) : Misshapen orders
  | element {elements : List Json} {element : Json} (member : element ∈ elements)
      (other : element.isObject = false) : Misshapen (.arr elements)
  | market {markets : List (String × Json)} {id : String} {perMarket : Json}
      (member : (id, perMarket) ∈ markets) (scalar : isScalar perMarket = true) :
      Misshapen (.obj markets)
  | marketElement {markets : List (String × Json)} {id : String} {elements : List Json}
      {element : Json} (market : (id, .arr elements) ∈ markets) (member : element ∈ elements)
      (other : element.isObject = false) : Misshapen (.obj markets)

variable (cfg : Config) (quotes : QuoteCache)

/-- The order objects are those handled, once each and in order, and a misshapen part is
warned about. -/
def NeverSilent (maps : OrderMaps) (feedLive : Bool) (emptyWarns : Nat) (msg orders : Json)
    (fillThrows updateThrows : Nat → Bool) : Prop :=
  let outcome := onAccountMessage cfg quotes maps feedLive emptyWarns msg fillThrows updateThrows
  ((flattenOrders msg).take outcome.visits.length).filter Json.isObject = orderObjects orders ∧
    (Misshapen orders → ∃ log ∈ outcome.allLogs, log.severity = .warn)

/-- No callback throws while an order object is still to come. -/
def Completes : List OrderEvent → OrderMaps → Prop
  | [], _ => True
  | event :: rest, maps =>
    (CallbackThrows cfg maps event → ∀ later ∈ rest, later.order.isObject = false) ∧
      (¬ CallbackThrows cfg maps event → Completes rest (recordsAfter cfg maps event.order))

/-- The event has no index, or it has the venue index of another order. -/
def Warns (maps : OrderMaps) (order : Json) : Prop :=
  let clientOrderIndex := readInt order "client_order_index"
  clientOrderIndex < 0 ∨ ∃ rec, maps.ordersByIndex clientOrderIndex = some rec ∧
    bindOrderIndex rec (readInt order "order_index") = none

/-- There is such an event, and no callback throws before it. -/
def SomeWarns : List OrderEvent → OrderMaps → Prop
  | [], _ => False
  | event :: rest, maps => Warns maps event.order ∨
    ¬ CallbackThrows cfg maps event ∧ SomeWarns rest (recordsAfter cfg maps event.order)

/-! ## The shapes -/

theorem flattenOrders_objects {msg orders : Json} (present : msg.find "orders" = some orders) :
    (flattenOrders msg).filter Json.isObject = orderObjects orders := by
  unfold flattenOrders orderObjects
  rw [present]
  cases orders with
  | arr elements => rfl
  | obj markets =>
    dsimp only
    rw [List.filter_flatMap]
    refine List.flatMap_congr fun perMarket _ => ?_
    cases perMarket.2 <;> rfl
  | _ => rfl

/-- A misshapen part is a scalar where a container is due, or one of the events. -/
theorem misshapen_iff {msg orders : Json} (present : msg.find "orders" = some orders) :
    Misshapen orders ↔ isScalar orders = true ∨
      (∃ markets, orders = .obj markets ∧ ∃ perMarket ∈ markets, isScalar perMarket.2 = true) ∨
      ∃ order ∈ flattenOrders msg, order.isObject = false := by
  unfold flattenOrders
  rw [present]
  constructor
  · intro misshapen
    cases misshapen with
    | container scalar => exact .inl scalar
    | element member other => exact .inr (.inr ⟨_, member, other⟩)
    | market member scalar => exact .inr (.inl ⟨_, rfl, _, member, scalar⟩)
    | marketElement market member other =>
      exact .inr (.inr ⟨_, List.mem_flatMap.mpr ⟨_, market, member⟩, other⟩)
  · rintro (scalar | ⟨markets, rfl, ⟨id, perMarket⟩, member, scalar⟩ | ⟨order, member, other⟩)
    · exact .container scalar
    · exact .market member scalar
    · cases orders with
      | arr elements => exact .element member other
      | obj markets =>
        obtain ⟨⟨id, perMarket⟩, market, inside⟩ := List.mem_flatMap.mp member
        cases perMarket with
        | arr elements => exact .marketElement market inside other
        | obj members =>
          rw [List.mem_singleton.mp inside] at other
          exact absurd other (by simp [Json.isObject])
        | _ => exact absurd inside List.not_mem_nil
      | _ => exact absurd member List.not_mem_nil

/-! ## The loop -/

variable {cfg quotes} {maps : OrderMaps}

/-- The handled events are the first ones; no object is missing when none is behind them. -/
theorem handled_objects_iff (quotes : QuoteCache) (events : List OrderEvent) (maps : OrderMaps) :
    ((events.map OrderEvent.order).take (loop (handleOrder cfg quotes) events maps).length).filter
        Json.isObject = (events.map OrderEvent.order).filter Json.isObject ↔
      Completes cfg events maps := by
  induction events generalizing maps with
  | nil => simp [Completes]
  | cons event rest ih =>
    rw [Completes]
    cases leaves : (handleOrder cfg quotes maps event).leaves with
    | true =>
      have throws := (leaves_iff quotes).mp leaves
      rw [loop_of_leaves rest leaves]
      simp only [throws, List.map_cons, List.length_singleton, List.take_succ_cons, List.take_zero,
        true_implies, not_true_eq_false, false_implies, and_true]
      rw [← List.singleton_append (l := rest.map OrderEvent.order), List.filter_append,
        List.self_eq_append_right, List.filter_eq_nil_iff]
      simp
    | false =>
      have returns := stays_iff.mp leaves
      rw [loop_of_stays rest leaves, handleOrder_of_stays maps event leaves, calmly_after]
      simp only [returns, List.map_cons, List.length_cons, List.take_succ_cons, false_implies,
        true_and, not_false_eq_true, true_implies]
      rw [← ih, List.filter_cons, List.filter_cons]
      cases event.order.isObject with
      | true => simp
      | false => simp

theorem lockedLogs_warn_iff (cfg : Config) (maps : OrderMaps) (order : Json) :
    (∃ log ∈ lockedLogs cfg maps order, log.severity = .warn) ↔ Warns maps order := by
  unfold lockedLogs Warns
  dsimp only
  split
  · rename_i noIndex
    simp [noIndex, noIndexWarning]
  · rename_i indexed
    cases stored : maps.ordersByIndex (readInt order "client_order_index") with
    | none => simp [indexed, unknownIndexLog]
    | some rec =>
      dsimp only
      cases bound : bindOrderIndex rec (readInt order "order_index") with
      | none => simp [bound, collisionWarning]
      | some bound' =>
        dsimp only
        split <;> simp [indexed, bound, clampError]

/-- An event is warned about in the locked section or not at all. -/
theorem handleOrder_warn_iff (cfg : Config) (quotes : QuoteCache) (maps : OrderMaps)
    (event : OrderEvent) :
    (∃ log ∈ (handleOrder cfg quotes maps event).output.logs, log.severity = .warn) ↔
      Warns maps event.order := by
  rw [← lockedLogs_warn_iff cfg]
  unfold handleOrder
  dsimp only
  split
  · rfl
  · split
    · rfl
    · split
      · rfl
      · simp [orderLog, or_and_right, exists_or]

theorem someWarns_iff (quotes : QuoteCache) (events : List OrderEvent) (maps : OrderMaps) :
    (∃ visit ∈ loop (handleOrder cfg quotes) events maps,
      ∃ log ∈ visit.output.logs, log.severity = .warn) ↔ SomeWarns cfg events maps := by
  induction events generalizing maps with
  | nil => simp [loop, SomeWarns]
  | cons event rest ih =>
    rw [SomeWarns, ← handleOrder_warn_iff cfg quotes]
    cases leaves : (handleOrder cfg quotes maps event).leaves with
    | true =>
      have throws := (leaves_iff quotes).mp leaves
      rw [loop_of_leaves rest leaves]
      simp [throws]
    | false =>
      have returns := stays_iff.mp leaves
      rw [loop_of_stays rest leaves, handleOrder_of_stays maps event leaves, calmly_after]
      simp only [List.mem_cons, exists_eq_or_imp, ih, returns, not_false_eq_true, true_and]

/-! ## A message -/

variable {msg orders : Json}

/-- Nothing is silent just when no object is behind a callback that throws, and a message
with a misshapen part has an event that is warned about. -/
theorem neverSilent_iff (cfg : Config) (quotes : QuoteCache) (maps : OrderMaps) (feedLive : Bool)
    (emptyWarns : Nat) (fillThrows updateThrows : Nat → Bool) (feed : isOrderFeed msg = true)
    (present : msg.find "orders" = some orders) :
    NeverSilent cfg quotes maps feedLive emptyWarns msg orders fillThrows updateThrows ↔
      Completes cfg (eventsOf msg fillThrows updateThrows) maps ∧
        (Misshapen orders → SomeWarns cfg (eventsOf msg fillThrows updateThrows) maps) := by
  have events : (eventsOf msg fillThrows updateThrows).map OrderEvent.order = flattenOrders msg := by
    unfold eventsOf
    refine List.ext_getElem? fun k => ?_
    simp [Function.comp_def]
  have logs : (onAccountMessage cfg quotes maps feedLive emptyWarns msg fillThrows updateThrows).logs =
      [] := by
    unfold onAccountMessage
    rw [if_pos feed, present]
    dsimp only
    split <;> rfl
  unfold NeverSilent Outcome.allLogs
  dsimp only
  rw [logs, (onAccountMessage_of_feed feed).1, ← flattenOrders_objects present, ← events,
    handled_objects_iff, ← someWarns_iff quotes]
  simp only [List.nil_append, List.mem_flatMap]
  constructor
  · rintro ⟨completes, warned⟩
    refine ⟨completes, fun misshapen => ?_⟩
    obtain ⟨log, ⟨visit, member, logged⟩, warn⟩ := warned misshapen
    exact ⟨visit, member, log, logged, warn⟩
  · rintro ⟨completes, warned⟩
    refine ⟨completes, fun misshapen => ?_⟩
    obtain ⟨visit, member, log, logged, warn⟩ := warned misshapen
    exact ⟨log, ⟨visit, member, logged⟩, warn⟩

/-- An event that is not an object is warned about, unless a callback throws first. -/
theorem someWarns_of_element {events : List OrderEvent}
    (calm : ∀ event ∈ events, event.fillThrows = false ∧ event.updateThrows = false)
    (other : ∃ event ∈ events, event.order.isObject = false) (cfg : Config) (maps : OrderMaps) :
    SomeWarns cfg events maps := by
  induction events generalizing maps with
  | nil =>
    obtain ⟨event, member, _⟩ := other
    exact absurd member List.not_mem_nil
  | cons event rest ih =>
    obtain ⟨found, member, scalar⟩ := other
    rcases List.mem_cons.mp member with rfl | behind
    · refine .inl (.inl ?_)
      have absent : found.order.find "client_order_index" = none := by
        cases order : found.order with
        | obj members => simp [order, Json.isObject] at scalar
        | _ => rfl
      unfold readInt
      rw [absent]
      decide
    · have returns : ¬ CallbackThrows cfg maps event := by
        have both := calm event List.mem_cons_self
        simp [CallbackThrows, both]
      exact .inr ⟨returns, ih (fun e later => calm e (List.mem_cons_of_mem _ later))
        ⟨found, behind, scalar⟩ _⟩

/-- So only a value that is not looked at can be silent while the callbacks return. -/
theorem misshapen_warns (present : msg.find "orders" = some orders)
    (container : isScalar orders = false)
    (markets : ∀ members, orders = .obj members → ∀ m ∈ members, isScalar m.2 = false)
    (misshapen : Misshapen orders) (cfg : Config) (maps : OrderMaps) :
    SomeWarns cfg (eventsOf msg (fun _ => false) fun _ => false) maps := by
  apply someWarns_of_element
  · intro event member
    obtain ⟨k, _, rfl⟩ := List.mem_mapIdx.mp member
    exact ⟨rfl, rfl⟩
  · rcases (misshapen_iff present).mp misshapen with scalar | ⟨members, rfl, m, member, scalar⟩ |
      ⟨order, member, other⟩
    · exact absurd scalar (by simp [container])
    · exact absurd scalar (by simp [markets members rfl m member])
    · obtain ⟨k, bound, rfl⟩ := List.getElem_of_mem member
      exact ⟨⟨(flattenOrders msg)[k], false, false⟩, List.mem_mapIdx.mpr ⟨k, bound, rfl⟩, other⟩

/-! ## A value that is not looked at -/

/-- The orders of market 0 are a text. -/
def textMarket : Json := .obj [("0", .str "none")]

def textMessage : Json := .obj [("orders", textMarket), ("type", .str "update/account_all_orders")]

theorem neverSilent_iff_sample : isOrderFeed textMessage = true ∧
    textMessage.find "orders" = some textMarket ∧
    (NeverSilent OrderIndices.sampleConfig (fun _ => none) twoOrders true 0 textMessage textMarket
        (fun _ => false) (fun _ => false) ↔
      Completes OrderIndices.sampleConfig (eventsOf textMessage (fun _ => false) fun _ => false)
          twoOrders ∧
        (Misshapen textMarket → SomeWarns OrderIndices.sampleConfig
          (eventsOf textMessage (fun _ => false) fun _ => false) twoOrders)) :=
  ⟨by decide +kernel, rfl, neverSilent_iff OrderIndices.sampleConfig (fun _ => none) twoOrders true 0
    (fun _ => false) (fun _ => false) (by decide +kernel) rfl⟩

/-- Nothing is logged for it. -/
theorem text_market_silent : ¬ ∀ (cfg : Config) (quotes : QuoteCache) (maps : OrderMaps)
    (feedLive : Bool) (emptyWarns : Nat) (msg orders : Json) (fillThrows updateThrows : Nat → Bool),
    isOrderFeed msg = true → msg.find "orders" = some orders →
      NeverSilent cfg quotes maps feedLive emptyWarns msg orders fillThrows updateThrows := by
  intro always
  have silent := always OrderIndices.sampleConfig (fun _ => none) twoOrders true 0 textMessage
    textMarket (fun _ => false) (fun _ => false) (by decide +kernel) rfl
  obtain ⟨log, logged, _⟩ := silent.2 (.market List.mem_cons_self rfl)
  have unlogged : (onAccountMessage OrderIndices.sampleConfig (fun _ => none) twoOrders true 0
      textMessage (fun _ => false) fun _ => false).allLogs = [] := by
    decide +kernel
  rw [unlogged] at logged
  exact absurd logged List.not_mem_nil

end LighterApi.Guarantees.LoudShapes

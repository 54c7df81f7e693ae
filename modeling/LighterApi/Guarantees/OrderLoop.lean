import LighterApi.Guarantees.OrderIndices
import LighterApi.Source.AccountFeed

/-!
# A throwing callback and the other orders of its message

The callbacks run inside the loop over the order events of a message, and the handler of
their exceptions stands outside it. So the first callback that throws takes every later
event of the message with it, and its own order keeps its record although its event was
terminal. Nothing is lost exactly when that event is not terminal and the later events
have nothing to do.
-/
namespace LighterApi.Guarantees.OrderLoop
open LighterApi.Library.EarlyExit
open LighterApi.Source LighterApi.Source.Gateway LighterApi.Source.GatewayRun
open LighterApi.Source.AccountFeed LighterApi.Guarantees.OrderIndices

variable (cfg : Config) (quotes : QuoteCache)

/-- A callback is called for the event and throws. -/
def CallbackThrows (maps : OrderMaps) (event : OrderEvent) : Prop :=
  ∃ credited t, takeOrder cfg.lib maps event.order = some (credited, t) ∧
    (cfg.fillCB = true ∧ t.newFill > 0 ∧ event.fillThrows = true ∨
      cfg.orderUpdateCB = true ∧ event.updateThrows = true)

/-- The fills and updates of a visit, none when there is no visit. -/
def emittedBy (visit : Option (Visit OrderMaps Output)) : List Emission :=
  visit.elim [] fun v => v.output.emitted

/-- The records a visit changes, with what it makes of them. -/
def recordsBy (visit : Option (Visit OrderMaps Output)) (i : Int) : Option (Option OrderRec) :=
  visit.bind fun v =>
    if v.before.ordersByIndex i = v.after.ordersByIndex i then none else some (v.after.ordersByIndex i)

/-- The entries of the other map it changes. -/
def indicesBy (visit : Option (Visit OrderMaps Output)) (id : String) : Option (Option Int) :=
  visit.bind fun v =>
    if v.before.clientIdToIndex id = v.after.clientIdToIndex id then none
    else some (v.after.clientIdToIndex id)

/-- The same fills, the same updates and the same changes of the records. -/
def SameEffect (done : Option (Visit OrderMaps Output)) (wanted : Visit OrderMaps Output) : Prop :=
  emittedBy done = emittedBy (some wanted) ∧ recordsBy done = recordsBy (some wanted) ∧
    indicesBy done = indicesBy (some wanted)

/-- Each event whose callbacks do not throw has the effect it has when none throws, and
each terminal event that was visited for a stored record leaves no record behind. -/
def OthersKept (maps : OrderMaps) (feedLive : Bool) (emptyWarns : Nat) (msg : Json)
    (fillThrows updateThrows : Nat → Bool) : Prop :=
  let events := eventsOf msg fillThrows updateThrows
  let done := onAccountMessage cfg quotes maps feedLive emptyWarns msg fillThrows updateThrows
  let calm := onAccountMessage cfg quotes maps feedLive emptyWarns msg
    (fun _ => false) fun _ => false
  (∀ (k : Nat) (event : OrderEvent) (wanted : Visit OrderMaps Output), events[k]? = some event →
      calm.visits[k]? = some wanted → ¬ CallbackThrows cfg wanted.before event →
      SameEffect done.visits[k]? wanted) ∧
    ∀ (k : Nat) (event : OrderEvent) (visit : Visit OrderMaps Output), events[k]? = some event →
      done.visits[k]? = some visit → isTerminalEvent event.order = true →
      takeOrder cfg.lib visit.before event.order ≠ none →
      done.maps.ordersByIndex (readInt event.order "client_order_index") = none

/-! ## When nothing is lost -/

/-- Handling the event would do nothing: it is passed over, or it is not terminal, changes
no record, reports no fill, and updates are not reported. -/
def Idle (maps : OrderMaps) (event : OrderEvent) : Prop :=
  ∀ credited t, takeOrder cfg.lib maps event.order = some (credited, t) →
    credited = maps ∧ isTerminalEvent event.order = false ∧ cfg.orderUpdateCB = false ∧
      ¬ (cfg.fillCB = true ∧ t.newFill > 0)

/-- The records behind an event whose callbacks return. -/
def recordsAfter (maps : OrderMaps) (order : Json) : OrderMaps :=
  match takeOrder cfg.lib maps order with
  | none => maps
  | some (credited, t) =>
    if isTerminalEvent order then credited.eraseOrderRec t.clientOrderIndex t.clientOrderId
    else credited

/-- The events behind have nothing to do, those apart whose callbacks throw too. -/
def IdleBehind : List OrderEvent → OrderMaps → Prop
  | [], _ => True
  | event :: rest, maps =>
    (¬ CallbackThrows cfg maps event → Idle cfg maps event) ∧
      IdleBehind rest (recordsAfter cfg maps event.order)

/-- The first event whose callback throws is not terminal, and the events behind it have
nothing to do. -/
def Harmless : List OrderEvent → OrderMaps → Prop
  | [], _ => True
  | event :: rest, maps =>
    (CallbackThrows cfg maps event →
        isTerminalEvent event.order = false ∧
          IdleBehind cfg rest (recordsAfter cfg maps event.order)) ∧
      (¬ CallbackThrows cfg maps event → Harmless rest (recordsAfter cfg maps event.order))

/-! ## One event -/

/-- The body of the loop with callbacks that return. -/
def calmly (maps : OrderMaps) (event : OrderEvent) : Visit OrderMaps Output :=
  handleOrder cfg quotes maps event.calm

variable {cfg quotes} {maps credited : OrderMaps} {event : OrderEvent} {t : Taken}

theorem taken_order {order : Json} (took : takeOrder cfg.lib maps order = some (credited, t)) :
    t.order = order := by
  obtain ⟨_, _, _, _, _, _, _, _, _, order_eq⟩ := takeOrder_spec took
  exact order_eq

theorem calmly_of_none (passed : takeOrder cfg.lib maps event.order = none) :
    calmly cfg quotes maps event = ⟨maps, ⟨lockedLogs cfg maps event.order, []⟩, maps, false⟩ := by
  unfold calmly handleOrder OrderEvent.calm
  rw [passed]

/-- What an event does whose callbacks return. -/
theorem calmly_spec (maps : OrderMaps) (event : OrderEvent) :
    (calmly cfg quotes maps event).leaves = false ∧
      (calmly cfg quotes maps event).before = maps ∧
      (calmly cfg quotes maps event).after = recordsAfter cfg maps event.order := by
  cases took : takeOrder cfg.lib maps event.order with
  | none =>
    rw [calmly_of_none took]
    unfold recordsAfter
    rw [took]
    exact ⟨rfl, rfl, rfl⟩
  | some pair =>
    obtain ⟨credited, t⟩ := pair
    unfold calmly handleOrder OrderEvent.calm recordsAfter
    simp [took, taken_order took]

theorem calmly_emits_iff (took : takeOrder cfg.lib maps event.order = some (credited, t)) :
    (calmly cfg quotes maps event).output.emitted = [] ↔
      ¬ (cfg.fillCB = true ∧ t.newFill > 0) ∧ cfg.orderUpdateCB = false := by
  unfold calmly handleOrder OrderEvent.calm
  simp only [took, Bool.and_false, Bool.false_eq_true, if_false]
  cases cfg.orderUpdateCB with
  | true => simp
  | false => by_cases due : cfg.fillCB = true ∧ t.newFill > 0 <;> simp [due]

theorem calmly_leaves (maps : OrderMaps) (event : OrderEvent) :
    (calmly cfg quotes maps event).leaves = false := (calmly_spec maps event).1

theorem calmly_before (maps : OrderMaps) (event : OrderEvent) :
    (calmly cfg quotes maps event).before = maps := (calmly_spec maps event).2.1

theorem calmly_after (maps : OrderMaps) (event : OrderEvent) :
    (calmly cfg quotes maps event).after = recordsAfter cfg maps event.order :=
  (calmly_spec maps event).2.2

/-- The loop is left by the callbacks that throw and by nothing else. -/
theorem leaves_iff (quotes : QuoteCache) :
    (handleOrder cfg quotes maps event).leaves = true ↔ CallbackThrows cfg maps event := by
  unfold handleOrder CallbackThrows
  cases took : takeOrder cfg.lib maps event.order with
  | none => simp
  | some pair =>
    obtain ⟨credited, t⟩ := pair
    simp only [Option.some.injEq, Prod.mk.injEq]
    by_cases fillThrown : cfg.fillCB = true ∧ t.newFill > 0 ∧ event.fillThrows = true
    · have due : ((cfg.fillCB && decide (t.newFill > 0)) && event.fillThrows) = true := by
        simpa [and_assoc] using fillThrown
      rw [if_pos due]
      exact ⟨fun _ => ⟨credited, t, ⟨rfl, rfl⟩, .inl fillThrown⟩, fun _ => rfl⟩
    · have due : ¬ ((cfg.fillCB && decide (t.newFill > 0)) && event.fillThrows) = true := by
        simpa [and_assoc] using fillThrown
      rw [if_neg due]
      by_cases updateThrown : (cfg.orderUpdateCB && event.updateThrows) = true
      · rw [if_pos updateThrown]
        have both := Bool.and_eq_true_iff.mp updateThrown
        exact ⟨fun _ => ⟨credited, t, ⟨rfl, rfl⟩, .inr both⟩, fun _ => rfl⟩
      · rw [if_neg updateThrown]
        constructor
        · intro leaves
          exact absurd leaves Bool.false_ne_true
        · rintro ⟨_, _, ⟨rfl, rfl⟩, fill | update⟩
          · exact absurd fill fillThrown
          · exact absurd (Bool.and_eq_true_iff.mpr update) updateThrown

theorem stays_iff : (handleOrder cfg quotes maps event).leaves = false ↔
    ¬ CallbackThrows cfg maps event := by
  rw [← leaves_iff quotes, Bool.not_eq_true]

/-- An event that does not leave the loop is handled as if its callbacks returned. -/
theorem handleOrder_of_stays (maps : OrderMaps) (event : OrderEvent)
    (stays : (handleOrder cfg quotes maps event).leaves = false) :
    handleOrder cfg quotes maps event = calmly cfg quotes maps event := by
  unfold calmly handleOrder OrderEvent.calm at *
  cases took : takeOrder cfg.lib maps event.order with
  | none => rfl
  | some pair =>
    simp only [took, Bool.and_false, Bool.false_eq_true, if_false] at stays ⊢
    split at stays
    · exact absurd stays (by simp)
    · rename_i fillReturns
      rw [if_neg fillReturns]
      split at stays
      · exact absurd stays (by simp)
      · rename_i updateReturns
        rw [if_neg updateReturns]

/-- What the records are when a callback throws: credited, not erased. -/
theorem after_of_throws (took : takeOrder cfg.lib maps event.order = some (credited, t))
    (leaves : (handleOrder cfg quotes maps event).leaves = true) :
    (handleOrder cfg quotes maps event).after = credited := by
  unfold handleOrder at leaves ⊢
  simp only [took] at leaves ⊢
  split
  · rfl
  · rename_i fillReturns
    rw [if_neg fillReturns] at leaves
    split at leaves
    · rename_i updateThrown
      rw [if_pos updateThrown]
    · exact absurd leaves Bool.false_ne_true

/-! ## An event that has nothing to do -/

theorem recordsAfter_eq_iff (took : takeOrder cfg.lib maps event.order = some (credited, t)) :
    recordsAfter cfg maps event.order = maps ↔
      credited = maps ∧ isTerminalEvent event.order = false := by
  obtain ⟨rec, _, stored, _⟩ := takeOrder_spec took
  unfold recordsAfter
  rw [took]
  dsimp only
  cases isTerminalEvent event.order with
  | true =>
    rw [if_pos rfl]
    constructor
    · intro erased
      rw [← erased] at stored
      simp at stored
    · rintro ⟨_, absurdity⟩
      exact absurd absurdity (by decide)
  | false => simp

theorem sameEffect_none_iff (visit : Visit OrderMaps Output) :
    SameEffect none visit ↔ visit.output.emitted = [] ∧ visit.after = visit.before := by
  have kept : ∀ {α : Type} [DecidableEq α] (a b : α), none = (if a = b then none else some b) ↔ b = a := by
    intro α _ a b
    split
    · rename_i same
      simp [same]
    · rename_i differ
      simp [Ne.symm differ]
  have records : recordsBy none = recordsBy (some visit) ↔
      visit.after.ordersByIndex = visit.before.ordersByIndex := by
    rw [funext_iff, funext_iff]
    exact forall_congr' fun i => kept _ _
  have indices : indicesBy none = indicesBy (some visit) ↔
      visit.after.clientIdToIndex = visit.before.clientIdToIndex := by
    rw [funext_iff, funext_iff]
    exact forall_congr' fun id => kept _ _
  unfold SameEffect
  rw [records, indices, eq_comm]
  constructor
  · rintro ⟨silent, orders, ids⟩
    exact ⟨silent, by cases h : visit.after; cases h' : visit.before; simp_all⟩
  · rintro ⟨silent, same⟩
    exact ⟨silent, by rw [same], by rw [same]⟩

theorem idle_iff : SameEffect none (calmly cfg quotes maps event) ↔ Idle cfg maps event := by
  rw [sameEffect_none_iff, calmly_before, calmly_after]
  unfold Idle
  cases took : takeOrder cfg.lib maps event.order with
  | none =>
    rw [calmly_of_none took]
    unfold recordsAfter
    simp [took]
  | some pair =>
    obtain ⟨credited, t⟩ := pair
    rw [calmly_emits_iff took, recordsAfter_eq_iff took]
    constructor
    · rintro ⟨⟨unfilled, unset⟩, same, alive⟩ _ _ ⟨⟩
      exact ⟨same, alive, unset, unfilled⟩
    · intro idle
      obtain ⟨same, alive, unset, unfilled⟩ := idle credited t rfl
      exact ⟨⟨unfilled, unset⟩, same, alive⟩

/-! ## A message -/

/-- Each terminal event that was visited for a stored record leaves no record behind. -/
def VisitedPruned (cfg : Config) (quotes : QuoteCache) (events : List OrderEvent)
    (maps : OrderMaps) : Prop :=
  ∀ (k : Nat) (event : OrderEvent) (visit : Visit OrderMaps Output), events[k]? = some event →
    (loop (handleOrder cfg quotes) events maps)[k]? = some visit →
    isTerminalEvent event.order = true → takeOrder cfg.lib visit.before event.order ≠ none →
    (finish (handleOrder cfg quotes) events maps).ordersByIndex
      (readInt event.order "client_order_index") = none

theorem handleOrder_before (maps : OrderMaps) (event : OrderEvent) :
    (handleOrder cfg quotes maps event).before = maps := by
  unfold handleOrder
  dsimp only
  split
  · rfl
  · split
    · rfl
    · split <;> rfl

theorem taken_index {order : Json} (took : takeOrder cfg.lib maps order = some (credited, t)) :
    t.clientOrderIndex = readInt order "client_order_index" := by
  unfold takeOrder at took
  dsimp only at took
  split at took
  · exact absurd took (by simp)
  · split at took
    · exact absurd took (by simp)
    · split at took
      · exact absurd took (by simp)
      · simp only [Option.some.injEq, Prod.mk.injEq] at took
        rw [← took.2]

theorem recordsAfter_terminal {order : Json} (terminal : isTerminalEvent order = true)
    (took : takeOrder cfg.lib maps order ≠ none) :
    (recordsAfter cfg maps order).ordersByIndex (readInt order "client_order_index") = none := by
  obtain ⟨⟨credited, t⟩, took⟩ := Option.ne_none_iff_exists'.mp took
  unfold recordsAfter
  rw [took]
  dsimp only
  rw [if_pos terminal, ← taken_index took]
  simp

/-- The loop creates no record. -/
theorem absent_kept {i : Int} (maps : OrderMaps) (event : OrderEvent)
    (absent : maps.ordersByIndex i = none) :
    (handleOrder cfg quotes maps event).after.ordersByIndex i = none := by
  cases took : takeOrder cfg.lib maps event.order with
  | none =>
    unfold handleOrder
    rw [took]
    exact absent
  | some pair =>
    obtain ⟨credited, t⟩ := pair
    obtain ⟨rec, rec', stored, credits, _⟩ := takeOrder_spec took
    have other : i ≠ t.clientOrderIndex := by
      rintro rfl
      simp [absent] at stored
    have credited_absent : credited.ordersByIndex i = none := by
      rw [credits, OrderMaps.set_ordersByIndex, if_neg other, absent]
    cases leaves : (handleOrder cfg quotes maps event).leaves with
    | true => rw [after_of_throws took leaves, credited_absent]
    | false =>
      rw [handleOrder_of_stays maps event leaves, calmly_after]
      unfold recordsAfter
      rw [took]
      dsimp only
      split
      · rw [OrderMaps.erase_ordersByIndex, if_neg other, credited_absent]
      · exact credited_absent

theorem visitedPruned_of_stays {rest : List OrderEvent}
    (stays : (handleOrder cfg quotes maps event).leaves = false) :
    VisitedPruned cfg quotes (event :: rest) maps ↔
      VisitedPruned cfg quotes rest (recordsAfter cfg maps event.order) := by
  have after : (handleOrder cfg quotes maps event).after = recordsAfter cfg maps event.order := by
    rw [handleOrder_of_stays maps event stays, calmly_after]
  unfold VisitedPruned
  rw [loop_of_stays rest stays, finish_of_stays rest stays, after]
  constructor
  · intro pruned k event' visit
    exact pruned (k + 1) event' visit
  · intro later k event' visit item visited terminal took
    cases k with
    | succ k => exact later k event' visit item visited terminal took
    | zero =>
      obtain rfl := Option.some.inj item
      obtain rfl := Option.some.inj visited
      rw [handleOrder_before] at took
      let index := readInt event.order "client_order_index"
      exact finish_invariant (I := fun m : OrderMaps => m.ordersByIndex index = none)
        absent_kept rest (recordsAfter_terminal terminal took)

theorem visitedPruned_of_leaves {rest : List OrderEvent}
    (leaves : (handleOrder cfg quotes maps event).leaves = true) :
    VisitedPruned cfg quotes (event :: rest) maps ↔ isTerminalEvent event.order = false := by
  obtain ⟨credited, t, took, _⟩ := (leaves_iff quotes).mp leaves
  obtain ⟨_, rec', _, credits, _⟩ := takeOrder_spec took
  have kept : credited.ordersByIndex (readInt event.order "client_order_index") = some rec' := by
    rw [credits, ← taken_index took]
    simp
  unfold VisitedPruned
  rw [loop_of_leaves rest leaves, finish_of_leaves rest leaves, after_of_throws took leaves]
  constructor
  · intro pruned
    rw [← Bool.not_eq_true]
    intro terminal
    have erased := pruned 0 event _ rfl rfl terminal (by simp [handleOrder_before, took])
    simp [kept] at erased
  · intro alive k event' visit item visited terminal
    cases k with
    | zero =>
      obtain rfl := Option.some.inj item
      exact absurd terminal (by simp [alive])
    | succ k => exact absurd visited (by simp)

theorem nothingLeft_iff_idleBehind {events : List OrderEvent} {maps : OrderMaps} :
    NothingLeft (handleOrder cfg quotes) (calmly cfg quotes) SameEffect events maps ↔
      IdleBehind cfg events maps := by
  induction events generalizing maps with
  | nil => exact Iff.rfl
  | cons event rest ih => rw [NothingLeft, IdleBehind, stays_iff, idle_iff, calmly_after, ih]

theorem harmless_iff (quotes : QuoteCache) {events : List OrderEvent} {maps : OrderMaps} :
    Harmless cfg events maps ↔
      LosesNothing (handleOrder cfg quotes) (calmly cfg quotes) SameEffect events maps ∧
        VisitedPruned cfg quotes events maps := by
  induction events generalizing maps with
  | nil => simp [Harmless, LosesNothing, VisitedPruned]
  | cons event rest ih =>
    rw [Harmless, LosesNothing]
    cases leaves : (handleOrder cfg quotes maps event).leaves with
    | true =>
      have throws := (leaves_iff quotes).mp leaves
      rw [if_pos rfl, nothingLeft_iff_idleBehind, visitedPruned_of_leaves leaves, calmly_after]
      simp only [throws, true_implies, not_true_eq_false, false_implies, and_true]
      exact and_comm
    | false =>
      have returns := stays_iff.mp leaves
      rw [if_neg (by decide), visitedPruned_of_stays leaves, handleOrder_of_stays maps event leaves,
        calmly_after, ← ih]
      simp only [returns, false_implies, true_and, not_false_eq_true, true_implies]

variable {msg : Json}

/-- The others lose nothing just when the first callback that throws does no harm. -/
theorem othersKept_iff (cfg : Config) (quotes : QuoteCache) (maps : OrderMaps) (feedLive : Bool)
    (emptyWarns : Nat) (fillThrows updateThrows : Nat → Bool) (feed : isOrderFeed msg = true) :
    OthersKept cfg quotes maps feedLive emptyWarns msg fillThrows updateThrows ↔
      Harmless cfg (eventsOf msg fillThrows updateThrows) maps := by
  unfold OthersKept
  dsimp only
  rw [(onAccountMessage_of_feed feed).1, (onAccountMessage_of_feed feed).1,
    (onAccountMessage_of_feed feed).2, eventsOf_calm msg fillThrows updateThrows, loop_map]
  rw [harmless_iff quotes, ← treatsAlike_iff calmly_leaves calmly_before
    handleOrder_of_stays fun _ => ⟨rfl, rfl, rfl⟩]
  unfold TreatsAlike VisitedPruned
  simp only [stays_iff]
  rfl

/-! ## A fill callback that throws for the first of two orders -/

def unitRec (clientOrderId : String) : OrderRec :=
  { clientOrderId, symbol := "ETH", marketId := 0, submittedQty := 1 }

def twoOrders : OrderMaps :=
  (OrderMaps.empty.insertOrderRec 1 (unitRec "a")).insertOrderRec 2 (unitRec "b")

def twoFills : Json := ordersJson [orderJson 1 "open" (2 / 5), orderJson 2 "open" (2 / 5)]

theorem othersKept_iff_sample : isOrderFeed twoFills = true ∧
    (OthersKept sampleConfig (fun _ => none) twoOrders true 0 twoFills (· == 0) (fun _ => false) ↔
      Harmless sampleConfig (eventsOf twoFills (· == 0) fun _ => false) twoOrders) :=
  ⟨by decide +kernel, othersKept_iff sampleConfig (fun _ => none) twoOrders true 0 (· == 0)
    (fun _ => false) (by decide +kernel)⟩

/-- The other order's fill is not reported. -/
theorem second_fill_lost : ¬ ∀ (cfg : Config) (quotes : QuoteCache) (maps : OrderMaps)
    (feedLive : Bool) (emptyWarns : Nat) (msg : Json) (fillThrows updateThrows : Nat → Bool),
    isOrderFeed msg = true →
      OthersKept cfg quotes maps feedLive emptyWarns msg fillThrows updateThrows := by
  intro always
  have kept := (always sampleConfig (fun _ => none) twoOrders true 0 twoFills (· == 0)
    (fun _ => false) (by decide +kernel)).1
  have told : (emittedBy (onAccountMessage sampleConfig (fun _ => none) twoOrders true 0 twoFills
      (fun _ => false) fun _ => false).visits[1]?).length = 2 := by
    decide +kernel
  have untold : (emittedBy (onAccountMessage sampleConfig (fun _ => none) twoOrders true 0 twoFills
      (· == 0) fun _ => false).visits[1]?).length = 0 := by
    decide +kernel
  cases visit : (onAccountMessage sampleConfig (fun _ => none) twoOrders true 0 twoFills
      (fun _ => false) fun _ => false).visits[1]? with
  | none =>
    rw [visit] at told
    exact absurd told (by decide)
  | some wanted =>
    have returns : ¬ CallbackThrows sampleConfig wanted.before
        ⟨orderJson 2 "open" (2 / 5), false, false⟩ := by
      simp [CallbackThrows]
    have same := (kept 1 _ wanted rfl visit returns).1
    rw [visit, ← same, untold] at told
    exact absurd told (by decide)

end LighterApi.Guarantees.OrderLoop

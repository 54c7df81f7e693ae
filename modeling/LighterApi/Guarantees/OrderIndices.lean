import Mathlib.Tactic.Linarith
import LighterApi.Guarantees.RejectDelivery
import LighterApi.Source.GatewaySteps

/-!
# Client order indices name one order each

Seen from the orders, a step of the gateway is one of six kinds (`Kind`). The counter
hands out each index once, so an index is inserted once (`Indexed`), and whatever carries
an index later, a call in flight or an event being handled, goes back to that insertion
(`Carried`). Both hold after every run from the start.
-/
namespace LighterApi.Guarantees.OrderIndices
open LighterApi.Library.Transition
open LighterApi.Source LighterApi.Source.SendTx LighterApi.Source.Gateway
open LighterApi.Source.GatewayRun

/-- The parts of a record that never change. -/
def SameOrder (rec rec' : OrderRec) : Prop :=
  rec.clientOrderId = rec'.clientOrderId ∧ rec.symbol = rec'.symbol ∧
    rec.marketId = rec'.marketId ∧ rec.submittedQty = rec'.submittedQty

theorem SameOrder.refl (rec : OrderRec) : SameOrder rec rec := ⟨rfl, rfl, rfl, rfl⟩

theorem SameOrder.trans {rec rec' rec'' : OrderRec} (h : SameOrder rec rec')
    (h' : SameOrder rec' rec'') : SameOrder rec rec'' :=
  ⟨h.1.trans h'.1, h.2.1.trans h'.2.1, h.2.2.1.trans h'.2.2.1, h.2.2.2.trans h'.2.2.2⟩

/-! ## The locked section of the handler -/

theorem bindOrderIndex_spec {rec bound : OrderRec} {orderIndex : Int}
    (h : bindOrderIndex rec orderIndex = some bound) :
    SameOrder bound rec ∧ bound.cumFilledBase = rec.cumFilledBase := by
  unfold bindOrderIndex at h
  split at h
  · exact Option.some.inj h ▸ ⟨SameOrder.refl rec, rfl⟩
  · split at h
    · exact Option.some.inj h ▸ ⟨SameOrder.refl rec, rfl⟩
    · split at h
      · exact absurd h (by simp)
      · exact Option.some.inj h ▸ ⟨SameOrder.refl rec, rfl⟩

theorem creditFill_spec (rec : OrderRec) (cumFilled : Rat) :
    SameOrder (creditFill rec cumFilled).1 rec ∧
      (creditFill rec cumFilled).1.cumFilledBase = max rec.cumFilledBase cumFilled ∧
      (creditFill rec cumFilled).2 = max rec.cumFilledBase cumFilled - rec.cumFilledBase := by
  unfold creditFill
  split
  · rename_i more
    exact ⟨SameOrder.refl rec, (max_eq_right more.le).symm, by rw [max_eq_right more.le]⟩
  · rename_i less
    have same := max_eq_left (not_lt.mp less)
    exact ⟨SameOrder.refl rec, same.symm, by rw [same, sub_self]⟩

/-- An event is accepted for a stored record, whose fill becomes the larger of the old
one and the clamped cumulative fill. -/
theorem takeOrder_spec {lib : Externals} {maps maps' : OrderMaps} {order : Json} {t : Taken}
    (h : takeOrder lib maps order = some (maps', t)) :
    ∃ rec rec', maps.ordersByIndex t.clientOrderIndex = some rec ∧
      maps' = maps.setOrderRec t.clientOrderIndex rec' ∧ SameOrder rec' rec ∧
      rec'.cumFilledBase = max rec.cumFilledBase
        (clampFill rec.submittedQty (readStr lib order "filled_base_amount")) ∧
      t.newFill = rec'.cumFilledBase - rec.cumFilledBase ∧
      t.clientOrderId = rec.clientOrderId ∧ t.symbol = rec.symbol ∧ t.order = order := by
  unfold takeOrder at h
  dsimp only at h
  split at h
  · exact absurd h (by simp)
  · split at h
    · exact absurd h (by simp)
    · rename_i rec stored
      split at h
      · exact absurd h (by simp)
      · rename_i bound bound_eq
        obtain ⟨same, fill⟩ := bindOrderIndex_spec bound_eq
        have credit := creditFill_spec bound
          (clampFill bound.submittedQty (readStr lib order "filled_base_amount"))
        simp only [Option.some.injEq, Prod.mk.injEq] at h
        obtain ⟨maps_eq, rfl⟩ := h
        rw [same.2.2.2, fill] at credit
        refine ⟨rec, _, stored, maps_eq.symm, ?_, ?_, ?_, same.1, same.2.1, rfl⟩
        · rw [same.2.2.2]
          exact credit.1.trans same
        · rw [same.2.2.2]
          exact credit.2.1
        · rw [same.2.2.2, credit.2.1]
          exact credit.2.2

/-! ## The kinds of steps -/

/-- Events that neither insert nor accept an order nor report a fill. -/
def Neutral : Event → Prop
  | .inserted _ _ => False
  | .accepted _ _ => False
  | .fill _ _ => False
  | _ => True

/-- The fill of order `i` that the handler has credited and is about to report. -/
def due (cfg : Config) (i : Int) : Handler → List Rat
  | .taken t _ | .priced t _ _ =>
    if t.clientOrderIndex = i ∧ cfg.fillCB = true ∧ 0 < t.newFill then [t.newFill] else []
  | _ => []

/-- A step that leaves the maps and the counter alone, records only neutral events,
allocates nothing and owes the same fills as before. -/
structure Plain (cfg : Config) (s s' : State) : Prop where
  counter : s'.clientOrderCounter = s.clientOrderCounter
  maps : s'.maps = s.maps
  events : ∃ events, s'.trace = events ++ s.trace ∧ ∀ e ∈ events, Neutral e
  allocated : ∀ t sub i, s'.threads t = .allocated sub i → s.threads t = .allocated sub i
  owes : ∀ i, due cfg i s'.handler = due cfg i s.handler

/-- The call or the event on whose behalf the action erases an order. -/
def Erases (s : State) (a : Action) (i : Int) (id : String) : Prop :=
  (∃ t sub failure, a = .erase t ∧ s.threads t = .erasing sub i failure ∧ id = sub.clientOrderId) ∨
    ∃ t rest, a = .prune ∧ s.handler = .updated t rest ∧ isTerminalEvent t.order = true ∧
      i = t.clientOrderIndex ∧ id = t.clientOrderId

inductive Kind (cfg : Config) (s : State) : Action → State → Prop where
  | plain {a : Action} {s' : State} (plain : Plain cfg s s') : Kind cfg s a s'
  | allocate {a : Action} (t : Nat) (sub : Submission)
      (whole : 0 < llround cfg.lib (sub.qty *
        pow10i ((s.instruments.sizeDecimals sub.symbol).getD 0))) :
      Kind cfg s a { s.goto t (.allocated sub s.clientOrderCounter) with
        clientOrderCounter := s.clientOrderCounter + 1 }
  | insert {t : Nat} {sub : Submission} {i : Int} (at_stage : s.threads t = .allocated sub i) :
      Kind cfg s (.insert t) { (s.log (.inserted i sub.record)).goto t (.waiting (.submit sub i)) with
        maps := s.maps.insertOrderRec i sub.record }
  | accept {order : Json} {rest : List Json} {maps : OrderMaps} {t : Taken}
      (at_order : s.handler = .orders (order :: rest))
      (took : takeOrder cfg.lib s.maps order = some (maps, t)) :
      Kind cfg s .takeNext { s.log (.accepted t.clientOrderIndex order) with
        maps, handler := .taken t rest }
  | pay {t : Taken} {price : Rat} {rest : List Json} (at_priced : s.handler = .priced t price rest)
      (callback : cfg.fillCB = true) (new : 0 < t.newFill) :
      Kind cfg s .emitFill { s.log (.fill t.clientOrderIndex (fillEvent cfg.lib t price)) with
        handler := .inFill t price rest }
  | erase {a : Action} {s' : State} {i : Int} {id : String} (owner : Erases s a i id)
      (plain : Plain cfg { s with maps := s.maps.eraseOrderRec i id } s') : Kind cfg s a s'

namespace Plain

variable {cfg : Config} {s s' : State} (plain : Plain cfg s s')
include plain

theorem trans {s'' : State} (next : Plain cfg s' s'') : Plain cfg s s'' := by
  obtain ⟨events, trace_eq, neutral⟩ := plain.events
  obtain ⟨events', trace_eq', neutral'⟩ := next.events
  refine ⟨next.counter.trans plain.counter, next.maps.trans plain.maps, ⟨events' ++ events, ?_, ?_⟩,
    fun t sub i at_stage => plain.allocated t sub i (next.allocated t sub i at_stage),
    fun i => (next.owes i).trans (plain.owes i)⟩
  · rw [trace_eq', trace_eq, List.append_assoc]
  · intro e member
    rcases List.mem_append.mp member with late | early
    · exact neutral' e late
    · exact neutral e early

theorem grows : ∀ e ∈ s.trace, e ∈ s'.trace := by
  obtain ⟨events, trace_eq, _⟩ := plain.events
  intro e member
  rw [trace_eq]
  exact List.mem_append_right events member

theorem old {e : Event} (member : e ∈ s'.trace) (order : ¬ Neutral e) : e ∈ s.trace := by
  obtain ⟨events, trace_eq, neutral⟩ := plain.events
  rw [trace_eq] at member
  rcases List.mem_append.mp member with new | old
  · exact absurd (neutral e new) order
  · exact old

/-- A plain step does not record an event that concerns an order. -/
theorem silent {e : Event} (order : ¬ Neutral e) : s'.trace ≠ e :: s.trace := by
  intro records
  obtain ⟨events, trace_eq, neutral⟩ := plain.events
  have cut := trace_eq.symm.trans records
  rw [← List.singleton_append] at cut
  exact order (neutral e (List.append_cancel_right cut ▸ List.mem_singleton_self e))

end Plain

variable {cfg : Config}

/-- A step that only records a neutral event. -/
theorem Plain.log (s : State) (event : Event) (neutral : Neutral event) : Plain cfg s (s.log event) :=
  ⟨rfl, rfl, ⟨[event], rfl, fun _ member => List.mem_singleton.mp member ▸ neutral⟩,
    fun _ _ _ at_stage => at_stage, fun _ => rfl⟩

/-- A step that only moves a thread, and not to `allocated`. -/
theorem Plain.goto (s : State) (t : Nat) (stage : Stage) (other : ∀ sub i, stage ≠ .allocated sub i) :
    Plain cfg s (s.goto t stage) := by
  refine ⟨rfl, rfl, ⟨[], rfl, fun _ none_in => absurd none_in List.not_mem_nil⟩, ?_, fun _ => rfl⟩
  intro t' sub i at_stage
  rw [State.goto_threads] at at_stage
  split at at_stage
  · exact absurd at_stage (other sub i)
  · exact at_stage

/-- A step that changes nothing the orders depend on. -/
theorem Plain.same {s s' : State} (counter : s'.clientOrderCounter = s.clientOrderCounter)
    (maps : s'.maps = s.maps) (trace : s'.trace = s.trace) (threads : s'.threads = s.threads)
    (owes : ∀ i, due cfg i s'.handler = due cfg i s.handler) : Plain cfg s s' :=
  ⟨counter, maps, ⟨[], trace, fun _ none_in => absurd none_in List.not_mem_nil⟩,
    fun _ _ _ at_stage => threads ▸ at_stage, owes⟩

theorem Plain.noteReject (s : State) (job : Job) (failure : Failure) :
    Plain cfg s (noteReject s job failure) := by
  rcases noteReject_eq s job failure with h | ⟨sub, i, _, _, h⟩
  · rw [h]
    exact .same rfl rfl rfl rfl fun _ => rfl
  · rw [h]
    exact .log s (.rejected i) trivial

theorem afterResync_ne_allocated (job : Job) (failure : Failure) (sub : Submission) (i : Int) :
    afterResync job failure ≠ .allocated sub i := by
  cases job with
  | submit sub' i' =>
    unfold afterResync
    dsimp only
    split <;> simp
  | cancel id m o => simp [afterResync]

/-- Every step is of one kind. -/
theorem step_kind {s s' : State} {a : Action}
    (taken : step cfg s a = some s') : Kind cfg s a s' := by
  cases step_spec taken with
  | reload instruments => exact .plain (.same rfl rfl rfl rfl fun _ => rfl)
  | quote symbol quote => exact .plain (.same rfl rfl rfl rfl fun _ => rfl)
  | refused id failure idle calls => exact .plain (.log s _ trivial)
  | allocated sub idle calls whole => exact .allocate _ sub whole
  | inserted at_stage => exact .insert at_stage
  | cancelReturned result idle => exact .plain (.log s _ trivial)
  | cancelWaits marketId orderIndex idle => exact .plain (.goto s _ _ (by simp))
  | lockedTx at_stage free =>
    rename_i t job
    have moved : Plain cfg s (s.goto t (.locked job)) := .goto s t (.locked job) (by simp)
    exact .plain ⟨rfl, rfl, moved.events, moved.allocated, fun _ => rfl⟩
  | signed at_stage =>
    rename_i t job
    exact .plain ((Plain.log s (.signing (job.signRequest s.nonces.nextNonce)) trivial).trans
      (.goto _ t (.signed job s.nonces.nextNonce) (by simp)))
  | signFailedSubmit what at_stage =>
    rename_i t sub i
    have told : Plain cfg s _ :=
      .log s (.signing (Job.signRequest (.submit sub i) s.nonces.nextNonce)) trivial
    exact .plain ((told.trans (.log _ (.rejected i) trivial)).trans
      (.goto _ t (.erasing sub i (signFailure what)) (by simp)))
  | signFailedCancel what at_stage =>
    rename_i t id m o
    have told : Plain cfg s _ :=
      .log s (.signing (Job.signRequest (.cancel id m o) s.nonces.nextNonce)) trivial
    exact .plain (told.trans
      (.goto _ t (.leaving (.cancel id m o) (.error (signFailure what))) (by simp)))
  | sent at_stage accepted =>
    rename_i t job nonce answer
    have moved : Plain cfg s _ := (Plain.log s (.sent nonce) trivial).trans
      (.goto _ t (.leaving job (.ok true)) (by simp))
    exact .plain ⟨rfl, rfl, moved.events, moved.allocated, fun _ => rfl⟩
  | sendFailed failure at_stage failed =>
    rename_i t job nonce answer
    have told : Plain cfg s _ :=
      (Plain.log s (.sent nonce) trivial).trans (.noteReject _ job failure)
    exact .plain (told.trans (.goto _ t (.failed job failure) (by simp)))
  | resynced reply at_stage =>
    rename_i t job failure
    have moved : Plain cfg s _ := (Plain.log s (.resynced reply) trivial).trans
      (.goto _ t (afterResync job failure) (afterResync_ne_allocated job failure))
    exact .plain ⟨rfl, rfl, moved.events, moved.allocated, fun _ => rfl⟩
  | erased at_stage =>
    rename_i t sub i failure
    have moved : Plain cfg { s with maps := s.maps.eraseOrderRec i sub.clientOrderId } _ :=
      .goto _ t (.leaving (.submit sub i) (.error failure)) (by simp)
    exact .erase (Or.inl ⟨t, sub, failure, rfl, at_stage, rfl⟩)
      ⟨rfl, rfl, moved.events, moved.allocated, fun _ => rfl⟩
  | finished at_stage =>
    rename_i t job result
    have neutral : Neutral (returnEvent job result) := by cases job <;> exact trivial
    have moved : Plain cfg s _ :=
      (Plain.log s (returnEvent job result) neutral).trans (.goto _ t .idle (by simp))
    exact .plain ⟨rfl, rfl, moved.events, moved.allocated, fun _ => rfl⟩
  | delivered msg idle =>
    refine .plain (.same rfl rfl rfl rfl fun i => ?_)
    rw [idle]
    dsimp only
    split <;> rfl
  | loopEnded at_end => exact .plain (.same rfl rfl rfl rfl fun i => by rw [at_end]; rfl)
  | skipped at_order ignored => exact .plain (.same rfl rfl rfl rfl fun i => by rw [at_order]; rfl)
  | took at_order took => exact .accept at_order took
  | priced at_taken => exact .plain (.same rfl rfl rfl rfl fun i => by rw [at_taken]; rfl)
  | filled at_priced callback new => exact .pay at_priced callback new
  | fillSkipped at_priced none_due =>
    rename_i t price rest
    refine .plain (.same rfl rfl rfl rfl fun i => ?_)
    rw [at_priced]
    exact (if_neg fun all => none_due all.2).symm
  | fillReturned throws at_fill =>
    refine .plain (.same rfl rfl rfl rfl fun i => ?_)
    rw [at_fill]
    cases throws <;> rfl
  | updated at_filled callback =>
    rename_i t price rest
    have told : Plain cfg s _ := .log s (.update t.clientOrderIndex (orderUpdate cfg.lib t price)) trivial
    exact .plain ⟨rfl, rfl, told.events, told.allocated, fun i => by rw [at_filled]; rfl⟩
  | updateSkipped at_filled unset =>
    exact .plain (.same rfl rfl rfl rfl fun i => by rw [at_filled]; rfl)
  | updateReturned throws at_update =>
    refine .plain (.same rfl rfl rfl rfl fun i => ?_)
    rw [at_update]
    cases throws <;> rfl
  | pruned at_updated terminal =>
    rename_i t rest
    exact .erase (Or.inr ⟨t, rest, rfl, at_updated, terminal, rfl, rfl⟩)
      (.same rfl rfl rfl rfl fun i => by simp only [at_updated]; rfl)
  | kept at_updated open_order =>
    exact .plain (.same rfl rfl rfl rfl fun i => by rw [at_updated]; rfl)

/-- A step keeps what is recorded. -/
theorem step_grows {s s' : State} {a : Action} (taken : step cfg s a = some s') :
    ∀ e ∈ s.trace, e ∈ s'.trace := by
  intro e member
  cases step_kind taken with
  | plain plain => exact plain.grows e member
  | allocate t sub whole => exact member
  | insert at_stage => exact List.mem_cons_of_mem _ member
  | accept at_order took => exact List.mem_cons_of_mem _ member
  | pay at_priced callback new => exact List.mem_cons_of_mem _ member
  | erase owner plain => exact plain.grows e member

/-! ## Each index is inserted once -/

structure Indexed (s : State) : Prop where
  below : ∀ i rec, .inserted i rec ∈ s.trace → i < s.clientOrderCounter
  alloc_below : ∀ t sub i, s.threads t = .allocated sub i → i < s.clientOrderCounter
  alloc_new : ∀ t sub i, s.threads t = .allocated sub i → ∀ rec, .inserted i rec ∉ s.trace
  alloc_apart : ∀ t t' sub sub' i, s.threads t = .allocated sub i →
    s.threads t' = .allocated sub' i → t = t'
  once : ∀ i rec rec', .inserted i rec ∈ s.trace → .inserted i rec' ∈ s.trace → rec = rec'
  stored : ∀ i rec, s.maps.ordersByIndex i = some rec →
    ∃ rec', .inserted i rec' ∈ s.trace ∧ SameOrder rec rec'
  accepted : ∀ i order, .accepted i order ∈ s.trace → ∃ rec, .inserted i rec ∈ s.trace

theorem Indexed.of_plain {s s' : State} (h : Indexed s) (plain : Plain cfg s s') : Indexed s' where
  below i rec inserted := plain.counter ▸ h.below i rec (plain.old inserted id)
  alloc_below t sub i at_stage :=
    plain.counter ▸ h.alloc_below t sub i (plain.allocated t sub i at_stage)
  alloc_new t sub i at_stage rec inserted :=
    h.alloc_new t sub i (plain.allocated t sub i at_stage) rec (plain.old inserted id)
  alloc_apart t t' sub sub' i at_stage at_stage' :=
    h.alloc_apart t t' sub sub' i (plain.allocated t sub i at_stage)
      (plain.allocated t' sub' i at_stage')
  once i rec rec' inserted inserted' :=
    h.once i rec rec' (plain.old inserted id) (plain.old inserted' id)
  stored i rec stored := by
    rw [plain.maps] at stored
    obtain ⟨rec', inserted, same⟩ := h.stored i rec stored
    exact ⟨rec', plain.grows _ inserted, same⟩
  accepted i order accepted := by
    obtain ⟨rec, inserted⟩ := h.accepted i order (plain.old accepted id)
    exact ⟨rec, plain.grows _ inserted⟩

/-- Forgetting an order. -/
theorem Indexed.erase {s : State} (h : Indexed s) (i : Int) (id : String) :
    Indexed { s with maps := s.maps.eraseOrderRec i id } where
  below := h.below
  alloc_below := h.alloc_below
  alloc_new := h.alloc_new
  alloc_apart := h.alloc_apart
  once := h.once
  stored j rec stored := h.stored j rec (OrderMaps.stored_of_erase stored)
  accepted := h.accepted

theorem Indexed.allocate {s : State} (h : Indexed s) (t : Nat) (sub : Submission) :
    Indexed { s.goto t (.allocated sub s.clientOrderCounter) with
      clientOrderCounter := s.clientOrderCounter + 1 } where
  below i rec inserted := (h.below i rec inserted).trans (lt_add_one _)
  alloc_below t' sub' i at_stage := by
    change (s.goto t (.allocated sub s.clientOrderCounter)).threads t' = _ at at_stage
    rw [State.goto_threads] at at_stage
    split at at_stage
    · rw [← (Stage.allocated.inj at_stage).2]
      exact lt_add_one _
    · exact (h.alloc_below t' sub' i at_stage).trans (lt_add_one _)
  alloc_new t' sub' i at_stage rec inserted := by
    change (s.goto t (.allocated sub s.clientOrderCounter)).threads t' = _ at at_stage
    rw [State.goto_threads] at at_stage
    split at at_stage
    · have below := h.below i rec inserted
      rw [← (Stage.allocated.inj at_stage).2] at below
      exact lt_irrefl _ below
    · exact h.alloc_new t' sub' i at_stage rec inserted
  alloc_apart t' t'' sub' sub'' i at_stage at_stage' := by
    change (s.goto t (.allocated sub s.clientOrderCounter)).threads t' = _ at at_stage
    change (s.goto t (.allocated sub s.clientOrderCounter)).threads t'' = _ at at_stage'
    rw [State.goto_threads] at at_stage at_stage'
    split at at_stage <;> split at at_stage'
    · rename_i here here'
      rw [here, here']
    · have below := h.alloc_below t'' sub'' i at_stage'
      rw [← (Stage.allocated.inj at_stage).2] at below
      exact absurd below (lt_irrefl _)
    · have below := h.alloc_below t' sub' i at_stage
      rw [← (Stage.allocated.inj at_stage').2] at below
      exact absurd below (lt_irrefl _)
    · exact h.alloc_apart t' t'' sub' sub'' i at_stage at_stage'
  once := h.once
  stored := h.stored
  accepted := h.accepted

theorem Indexed.insert {s : State} (h : Indexed s) {t : Nat} {sub : Submission} {i : Int}
    (at_stage : s.threads t = .allocated sub i) :
    Indexed { (s.log (.inserted i sub.record)).goto t (.waiting (.submit sub i)) with
      maps := s.maps.insertOrderRec i sub.record } := by
  have grows : ∀ e ∈ s.trace, e ∈ Event.inserted i sub.record :: s.trace :=
    fun e member => List.mem_cons_of_mem _ member
  have elsewhere : ∀ t' sub' j, ((s.log (.inserted i sub.record)).goto t
      (.waiting (.submit sub i))).threads t' = .allocated sub' j →
      t' ≠ t ∧ s.threads t' = .allocated sub' j := by
    intro t' sub' j at_stage'
    rw [State.goto_threads] at at_stage'
    split at at_stage'
    · exact absurd at_stage' (by simp)
    · rename_i other
      exact ⟨other, at_stage'⟩
  constructor
  · intro j rec member
    rcases inserted_cases member with ⟨rfl, _⟩ | old
    · exact h.alloc_below t sub j at_stage
    · exact h.below j rec old
  · intro t' sub' j at_stage'
    exact h.alloc_below t' sub' j (elsewhere t' sub' j at_stage').2
  · intro t' sub' j at_stage' rec member
    obtain ⟨other, before⟩ := elsewhere t' sub' j at_stage'
    rcases inserted_cases member with ⟨rfl, _⟩ | old
    · exact other (h.alloc_apart t' t sub' sub j before at_stage)
    · exact h.alloc_new t' sub' j before rec old
  · intro t' t'' sub' sub'' j at_stage' at_stage''
    exact h.alloc_apart t' t'' sub' sub'' j (elsewhere t' sub' j at_stage').2
      (elsewhere t'' sub'' j at_stage'').2
  · intro j rec rec' member member'
    rcases inserted_cases member with ⟨rfl, rfl⟩ | old
    · rcases inserted_cases member' with ⟨_, rfl⟩ | old'
      · rfl
      · exact absurd old' (h.alloc_new t sub j at_stage rec')
    · rcases inserted_cases member' with ⟨rfl, _⟩ | old'
      · exact absurd old (h.alloc_new t sub j at_stage rec)
      · exact h.once j rec rec' old old'
  · intro j rec stored
    rw [OrderMaps.insert_ordersByIndex] at stored
    split at stored
    · rename_i here
      rw [here, ← Option.some.inj stored]
      exact ⟨sub.record, by simp, SameOrder.refl _⟩
    · obtain ⟨rec', inserted, same⟩ := h.stored j rec stored
      exact ⟨rec', grows _ inserted, same⟩
  · intro j order member
    rcases List.mem_cons.mp member with new | old
    · exact absurd new (by simp)
    · obtain ⟨rec, inserted⟩ := h.accepted j order old
      exact ⟨rec, grows _ inserted⟩

theorem Indexed.accept {s : State} (h : Indexed s) {lib : Externals} {order : Json}
    {rest : List Json} {maps : OrderMaps} {t : Taken}
    (took : takeOrder lib s.maps order = some (maps, t)) :
    Indexed { s.log (.accepted t.clientOrderIndex order) with
      maps, handler := .taken t rest } := by
  obtain ⟨rec, rec', stored, rfl, same, _, _, id_eq, _, rfl⟩ := takeOrder_spec took
  obtain ⟨first, inserted, same'⟩ := h.stored _ rec stored
  have grows : ∀ e ∈ s.trace, e ∈ Event.accepted t.clientOrderIndex t.order :: s.trace :=
    fun e member => List.mem_cons_of_mem _ member
  have back : ∀ j rec, Event.inserted j rec ∈ Event.accepted t.clientOrderIndex t.order :: s.trace →
      .inserted j rec ∈ s.trace := by
    intro j rec member
    rcases List.mem_cons.mp member with new | old
    · exact absurd new (by simp)
    · exact old
  constructor
  · exact fun j rec member => h.below j rec (back j rec member)
  · exact h.alloc_below
  · exact fun t' sub j at_stage rec member => h.alloc_new t' sub j at_stage rec (back j rec member)
  · exact h.alloc_apart
  · exact fun j rec rec' member member' => h.once j rec rec' (back j rec member) (back j rec' member')
  · intro j rec'' stored'
    rw [OrderMaps.set_ordersByIndex] at stored'
    split at stored'
    · rename_i here
      rw [here, ← Option.some.inj stored']
      exact ⟨first, grows _ inserted, same.trans same'⟩
    · obtain ⟨rec₀, inserted₀, same₀⟩ := h.stored j rec'' stored'
      exact ⟨rec₀, grows _ inserted₀, same₀⟩
  · intro j order member
    rcases List.mem_cons.mp member with new | old
    · obtain ⟨rfl, _⟩ := Event.accepted.inj new
      exact ⟨first, grows _ inserted⟩
    · obtain ⟨rec₀, inserted₀⟩ := h.accepted j order old
      exact ⟨rec₀, grows _ inserted₀⟩

theorem Indexed.pay {s : State} (h : Indexed s) (i : Int) (fill : FillEvent) (handler : Handler) :
    Indexed { s.log (.fill i fill) with handler } where
  below j rec inserted := h.below j rec (List.mem_of_ne_of_mem (by simp) inserted)
  alloc_below := h.alloc_below
  alloc_new t sub j at_stage rec inserted :=
    h.alloc_new t sub j at_stage rec (List.mem_of_ne_of_mem (by simp) inserted)
  alloc_apart := h.alloc_apart
  once j rec rec' inserted inserted' :=
    h.once j rec rec' (List.mem_of_ne_of_mem (by simp) inserted)
      (List.mem_of_ne_of_mem (by simp) inserted')
  stored j rec stored := by
    obtain ⟨rec', inserted, same⟩ := h.stored j rec stored
    exact ⟨rec', List.mem_cons_of_mem _ inserted, same⟩
  accepted j order accepted := by
    obtain ⟨rec, inserted⟩ := h.accepted j order (List.mem_of_ne_of_mem (by simp) accepted)
    exact ⟨rec, List.mem_cons_of_mem _ inserted⟩

/-- The step lemma. -/
theorem Indexed.step {s s' : State} {a : Action} (h : Indexed s) (taken : step cfg s a = some s') :
    Indexed s' := by
  cases step_kind taken with
  | plain plain => exact h.of_plain plain
  | allocate t sub whole => exact h.allocate t sub
  | insert at_stage => exact h.insert at_stage
  | accept at_order took => exact h.accept took
  | pay at_priced callback new => exact h.pay _ _ _
  | erase owner plain => exact (h.erase _ _).of_plain plain

theorem indexed_start (instruments : Instruments) (counter nonce : Int) :
    Indexed (State.start instruments counter nonce) := by
  constructor <;> simp [State.start, OrderMaps.empty]

/-! ## Whatever carries an index goes back to its insertion -/

/-- The order of a call is the one inserted under its index. -/
def JobOk (trace : List Event) : Job → Prop
  | .submit sub i => .inserted i sub.record ∈ trace
  | .cancel .. => True

def StageOk (trace : List Event) : Stage → Prop
  | .idle => True
  | .allocated .. => True
  | .waiting job | .locked job | .signed job _ | .leaving job _ => JobOk trace job
  | .failed job failure => JobOk trace job ∧
      ∀ sub i, job = .submit sub i → failure.isGateway = true → .rejected i ∈ trace
  | .erasing sub i _ => .inserted i sub.record ∈ trace ∧ .rejected i ∈ trace

/-- An event being handled was accepted for the order inserted under its index. -/
def TakenOk (trace : List Event) (t : Taken) : Prop :=
  .accepted t.clientOrderIndex t.order ∈ trace ∧
    ∃ rec, .inserted t.clientOrderIndex rec ∈ trace ∧ t.clientOrderId = rec.clientOrderId

def HandlerOk (trace : List Event) : Handler → Prop
  | .idle => True
  | .orders _ => True
  | .taken t _ | .priced t _ _ | .inFill t _ _ | .filled t _ _ | .inUpdate t _ | .updated t _ =>
    TakenOk trace t

structure Carried (s : State) : Prop where
  stages : ∀ t, StageOk s.trace (s.threads t)
  handler : HandlerOk s.trace s.handler

theorem JobOk.mono {trace trace' : List Event} (grows : ∀ e ∈ trace, e ∈ trace') {job : Job}
    (h : JobOk trace job) : JobOk trace' job := by
  cases job with
  | submit sub i => exact grows _ h
  | cancel id m o => exact trivial

theorem StageOk.mono {trace trace' : List Event} (grows : ∀ e ∈ trace, e ∈ trace') {stage : Stage}
    (h : StageOk trace stage) : StageOk trace' stage := by
  cases stage with
  | idle => exact trivial
  | allocated sub i => exact trivial
  | waiting job => exact JobOk.mono grows h
  | locked job => exact JobOk.mono grows h
  | signed job nonce => exact JobOk.mono grows h
  | leaving job result => exact JobOk.mono grows h
  | failed job failure =>
    exact ⟨JobOk.mono grows h.1, fun sub i is_submit gateway => grows _ (h.2 sub i is_submit gateway)⟩
  | erasing sub i failure => exact ⟨grows _ h.1, grows _ h.2⟩

theorem TakenOk.mono {trace trace' : List Event} (grows : ∀ e ∈ trace, e ∈ trace') {t : Taken}
    (h : TakenOk trace t) : TakenOk trace' t := by
  obtain ⟨accepted, rec, inserted, same⟩ := h
  exact ⟨grows _ accepted, rec, grows _ inserted, same⟩

theorem HandlerOk.mono {trace trace' : List Event} (grows : ∀ e ∈ trace, e ∈ trace')
    {handler : Handler} (h : HandlerOk trace handler) : HandlerOk trace' handler := by
  cases handler with
  | idle => exact trivial
  | orders rest => exact trivial
  | taken t rest => exact TakenOk.mono grows h
  | priced t price rest => exact TakenOk.mono grows h
  | inFill t price rest => exact TakenOk.mono grows h
  | filled t price rest => exact TakenOk.mono grows h
  | inUpdate t rest => exact TakenOk.mono grows h
  | updated t rest => exact TakenOk.mono grows h

theorem afterResync_ok {trace : List Event} {job : Job} {failure : Failure}
    (ok : StageOk trace (.failed job failure)) : StageOk trace (afterResync job failure) := by
  cases job with
  | submit sub i =>
    unfold afterResync
    dsimp only
    split
    · rename_i gateway
      exact ⟨ok.1, ok.2 sub i rfl gateway⟩
    · exact ok.1
  | cancel id m o => exact trivial

section Moves

variable {s s' : State} (h : Carried s) (grows : ∀ e ∈ s.trace, e ∈ s'.trace)
include h grows

/-- One thread moves. -/
theorem Carried.move {t : Nat} {stage : Stage}
    (threads : s'.threads = Function.update s.threads t stage) (handler : s'.handler = s.handler)
    (ok : StageOk s'.trace stage) : Carried s' := by
  refine ⟨fun t' => ?_, handler ▸ HandlerOk.mono grows h.handler⟩
  rw [threads, Function.update_apply]
  split
  · exact ok
  · exact StageOk.mono grows (h.stages t')

/-- The io thread moves. -/
theorem Carried.handle (threads : s'.threads = s.threads) (ok : HandlerOk s'.trace s'.handler) :
    Carried s' := by
  refine ⟨fun t => ?_, ok⟩
  rw [threads]
  exact StageOk.mono grows (h.stages t)

/-- Nobody moves. -/
theorem Carried.stay (threads : s'.threads = s.threads) (handler : s'.handler = s.handler) :
    Carried s' :=
  h.handle grows threads (handler ▸ HandlerOk.mono grows h.handler)

end Moves

/-- The step lemma. -/
theorem Carried.step {s s' : State} {a : Action} (indexed : Indexed s) (h : Carried s)
    (taken : step cfg s a = some s') : Carried s' := by
  have grows := step_grows taken
  have at_thread : ∀ {t stage}, s.threads t = stage → StageOk s'.trace stage :=
    fun {t stage} at_stage => StageOk.mono grows (at_stage ▸ h.stages t)
  have at_handler : ∀ {handler}, s.handler = handler → HandlerOk s'.trace handler :=
    fun {handler} at_stage => HandlerOk.mono grows (at_stage ▸ h.handler)
  cases step_spec taken with
  | reload instruments => exact h.stay grows rfl rfl
  | quote symbol quote => exact h.stay grows rfl rfl
  | refused id failure idle calls => exact h.stay grows rfl rfl
  | allocated sub idle calls whole => exact h.move grows rfl rfl trivial
  | inserted at_stage => exact h.move grows rfl rfl List.mem_cons_self
  | cancelReturned result idle => exact h.stay grows rfl rfl
  | cancelWaits marketId orderIndex idle => exact h.move grows rfl rfl trivial
  | lockedTx at_stage free =>
    rename_i t job
    have ok : JobOk s.trace job := at_thread at_stage
    exact h.move grows rfl rfl ok
  | signed at_stage =>
    rename_i t job
    have ok : JobOk _ job := at_thread at_stage
    exact h.move grows rfl rfl ok
  | signFailedSubmit what at_stage =>
    exact h.move grows rfl rfl ⟨at_thread at_stage, List.mem_cons_self⟩
  | signFailedCancel what at_stage => exact h.move grows rfl rfl trivial
  | sent at_stage accepted =>
    rename_i t job nonce answer
    have ok : JobOk _ job := at_thread at_stage
    exact h.move grows rfl rfl ok
  | sendFailed failure at_stage failed =>
    rename_i t job nonce answer
    let told := s.log (.sent nonce)
    have verdict : ∀ sub i, job = .submit sub i → failure.isGateway = true →
        .rejected i ∈ (noteReject told job failure).trace := by
      intro sub i is_submit gateway
      simp [is_submit, noteReject, gateway]
    have threads : ((noteReject told job failure).goto t (.failed job failure)).threads =
        Function.update s.threads t (.failed job failure) := by
      rw [State.goto, noteReject_threads]
      rfl
    exact h.move grows threads (noteReject_handler told job failure)
      ⟨at_thread at_stage, verdict⟩
  | resynced reply at_stage => exact h.move grows rfl rfl (afterResync_ok (at_thread at_stage))
  | erased at_stage =>
    rename_i t sub i failure
    have ok : StageOk s.trace (.erasing sub i failure) := at_thread at_stage
    exact h.move grows rfl rfl ok.1
  | finished at_stage => exact h.move grows rfl rfl trivial
  | delivered msg idle =>
    refine h.handle grows rfl ?_
    dsimp only
    split <;> exact trivial
  | loopEnded at_end => exact h.handle grows rfl trivial
  | skipped at_order ignored => exact h.handle grows rfl trivial
  | took at_order took =>
    obtain ⟨rec, rec', stored, rfl, _, _, _, id_eq, _, rfl⟩ := takeOrder_spec took
    obtain ⟨first, inserted, same⟩ := indexed.stored _ rec stored
    exact h.handle grows rfl
      ⟨List.mem_cons_self, first, grows _ inserted, id_eq.trans same.1⟩
  | priced at_taken =>
    rename_i t rest
    have ok : TakenOk s.trace t := at_handler at_taken
    exact h.handle grows rfl ok
  | filled at_priced callback new =>
    rename_i t price rest
    have ok : TakenOk _ t := at_handler at_priced
    exact h.handle grows rfl ok
  | fillSkipped at_priced none_due =>
    rename_i t price rest
    have ok : TakenOk s.trace t := at_handler at_priced
    exact h.handle grows rfl ok
  | fillReturned throws at_fill =>
    rename_i t price rest
    have ok : TakenOk s.trace t := at_handler at_fill
    refine h.handle grows rfl ?_
    cases throws
    · exact ok
    · exact trivial
  | updated at_filled callback =>
    rename_i t price rest
    have ok : TakenOk _ t := at_handler at_filled
    exact h.handle grows rfl ok
  | updateSkipped at_filled unset =>
    rename_i t price rest
    have ok : TakenOk s.trace t := at_handler at_filled
    exact h.handle grows rfl ok
  | updateReturned throws at_update =>
    rename_i t rest
    have ok : TakenOk s.trace t := at_handler at_update
    refine h.handle grows rfl ?_
    cases throws
    · exact ok
    · exact trivial
  | pruned at_updated terminal => exact h.handle grows rfl trivial
  | kept at_updated open_order => exact h.handle grows rfl trivial

theorem carried_start (instruments : Instruments) (counter nonce : Int) :
    Carried (State.start instruments counter nonce) := ⟨fun _ => trivial, trivial⟩

/-! ## A sample venue -/

/-- The venue accepts what it is sent. -/
def acceptBody : String := "\x7b\"code\":200\x7d"

def sampleConfig : Config where
  lib := RejectDelivery.oneBody acceptBody (.obj [("code", .int 200)])
  fillCB := true
  orderUpdateCB := true

def sampleInstruments : Instruments where
  symbolToMarketId _ := some 0
  marketIdToSymbol _ := some "ETH"
  sizeDecimals _ := some 0
  priceDecimals _ := some 0

def orderJson (i : Int) (status : String) (filled : Rat) : Json :=
  .obj [("client_order_index", .int i), ("filled_base_amount", .num filled),
    ("order_index", .int 900), ("price", .int 7), ("status", .str status)]

def ordersJson (orders : List Json) : Json :=
  .obj [("orders", .arr orders), ("type", .str "update/account_all_orders")]

/-- A submit of thread `t` that the venue accepts. -/
def submitted (t : Nat) (id : String) : List Action :=
  [.submitPostOnlyLimit t id "ETH" .Buy 1 7 false, .insert t, .lockTx t, .sign t (.ok ()),
    .send t (.http 200 acceptBody), .finish t]

/-- An event is handled; one that fills goes through the fill callback. -/
def handled (fills : Bool) : List Action :=
  [.takeNext, .readPrice, .emitFill] ++ (if fills then [.fillReturns false] else []) ++
    [.emitUpdate, .updateReturns false, .prune]

end LighterApi.Guarantees.OrderIndices

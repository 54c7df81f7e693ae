import Mathlib.Algebra.Order.BigOperators.Group.List
import LighterApi.Guarantees.OrderIndices
import LighterApi.Library.RunningMax

/-!
# Fills are conserved

The fills reported for an order are the rises of its credited cumulative amounts over
their maximum so far, so they add up to the highest credited amount however the venue
repeats, reorders or replays its events. The invariant ties three things together: the
record's own cumulative fill, the events accepted for the order, and the fills reported
or still due.
-/
namespace LighterApi.Guarantees.FillConservation
open LighterApi.Library.Transition LighterApi.Library.RunningMax
open LighterApi.Source LighterApi.Source.SendTx LighterApi.Source.Gateway
open LighterApi.Source.GatewayRun
open LighterApi.Guarantees.OrderIndices

/-! ## What is credited -/

/-- The amount credited for a cumulative fill: the fill itself, or the submitted quantity
when the fill is implausible. -/
def credited (submittedQty cumFilled : Rat) : Rat :=
  if cumFilled ≤ 1001 / 1000 * submittedQty then cumFilled else submittedQty

/-- The amounts credited for an order, latest first. -/
def credits (lib : Externals) (submittedQty : Rat) (i : Int) (trace : List Event) : List Rat :=
  trace.filterMap fun
    | .accepted j order =>
      if j = i then some (credited submittedQty (readStr lib order "filled_base_amount")) else none
    | _ => none

/-- The quantities reported for an order, latest first. -/
def fills (i : Int) (trace : List Event) : List Rat :=
  trace.filterMap fun
    | .fill j fill => if j = i then some fill.qty else none
    | _ => none

theorem clampFill_eq_credited {submittedQty : Rat} (positive : 0 < submittedQty) (cumFilled : Rat) :
    clampFill submittedQty cumFilled = credited submittedQty cumFilled := by
  unfold clampFill credited
  rw [mul_comm submittedQty]
  by_cases believed : cumFilled ≤ 1001 / 1000 * submittedQty
  · rw [if_pos believed, if_neg fun both => absurd both.2 believed.not_gt]
  · rw [if_neg believed, if_pos ⟨positive, not_le.mp believed⟩]

theorem credited_le {submittedQty : Rat} (positive : 0 < submittedQty) (cumFilled : Rat) :
    credited submittedQty cumFilled ≤ 1001 / 1000 * submittedQty := by
  unfold credited
  split
  · rename_i believed
    exact believed
  · linarith

section Lists

variable (lib : Externals) (qty : Rat) (i : Int) (trace : List Event)

theorem credits_cons_accepted (j : Int) (order : Json) :
    credits lib qty i (.accepted j order :: trace) =
      if j = i then credited qty (readStr lib order "filled_base_amount") :: credits lib qty i trace
      else credits lib qty i trace := by
  unfold credits
  rw [List.filterMap_cons]
  dsimp only
  by_cases here : j = i
  · rw [if_pos here, if_pos here]
  · rw [if_neg here, if_neg here]

theorem fills_cons_fill (j : Int) (fill : FillEvent) :
    fills i (.fill j fill :: trace) =
      if j = i then fill.qty :: fills i trace else fills i trace := by
  unfold fills
  rw [List.filterMap_cons]
  dsimp only
  by_cases here : j = i
  · rw [if_pos here, if_pos here]
  · rw [if_neg here, if_neg here]

@[simp] theorem credits_cons_fill (j : Int) (fill : FillEvent) :
    credits lib qty i (.fill j fill :: trace) = credits lib qty i trace := rfl

@[simp] theorem credits_cons_inserted (j : Int) (rec : OrderRec) :
    credits lib qty i (.inserted j rec :: trace) = credits lib qty i trace := rfl

@[simp] theorem fills_cons_accepted (j : Int) (order : Json) :
    fills i (.accepted j order :: trace) = fills i trace := rfl

@[simp] theorem fills_cons_inserted (j : Int) (rec : OrderRec) :
    fills i (.inserted j rec :: trace) = fills i trace := rfl

/-- Neutral events credit nothing. -/
theorem credits_append {events : List Event} (neutral : ∀ e ∈ events, Neutral e) :
    credits lib qty i (events ++ trace) = credits lib qty i trace := by
  unfold credits
  rw [List.filterMap_append, List.filterMap_eq_nil_iff.mpr, List.nil_append]
  intro e member
  cases e with
  | accepted j order => exact absurd (neutral _ member) id
  | _ => rfl

/-- Neutral events report nothing. -/
theorem fills_append {events : List Event} (neutral : ∀ e ∈ events, Neutral e) :
    fills i (events ++ trace) = fills i trace := by
  unfold fills
  rw [List.filterMap_append, List.filterMap_eq_nil_iff.mpr, List.nil_append]
  intro e member
  cases e with
  | fill j fill => exact absurd (neutral _ member) id
  | _ => rfl

/-- Without an accepted event nothing is credited. -/
theorem credits_eq_nil (none_in : ∀ order, .accepted i order ∉ trace) :
    credits lib qty i trace = [] := by
  unfold credits
  rw [List.filterMap_eq_nil_iff]
  intro e member
  cases e with
  | accepted j order =>
    apply if_neg
    intro here
    exact none_in order (here ▸ member)
  | _ => rfl

theorem mem_fills {q : Rat} : q ∈ fills i trace ↔ ∃ fill, .fill i fill ∈ trace ∧ fill.qty = q := by
  unfold fills
  rw [List.mem_filterMap]
  constructor
  · intro ⟨e, member, reported⟩
    cases e with
    | fill j fill =>
      dsimp only at reported
      split at reported
      · rename_i here
        exact ⟨fill, here ▸ member, Option.some.inj reported⟩
      · exact absurd reported (by simp)
    | _ => exact absurd reported (by simp)
  · intro ⟨fill, member, qty_eq⟩
    exact ⟨.fill i fill, member, by simp [qty_eq]⟩

end Lists

/-! ## Submitted quantities are positive -/

theorem pow10i_pos (n : Int) : 0 < pow10i n := by
  unfold pow10i
  positivity

theorem roundAway_nonpos {x : Rat} (h : x ≤ 0) : roundAway x ≤ 0 := by
  unfold roundAway
  split
  · rename_i nonneg
    rw [le_antisymm h nonneg]
    norm_num
  · rw [neg_nonpos]
    apply Int.floor_nonneg.mpr
    linarith

/-- A quantity that scales to a positive number of base units is positive. -/
theorem qty_pos {lib : Externals} (overflow : ∀ x ≤ 0, lib.llroundOverflow x ≤ 0) {qty : Rat}
    {n : Int} (whole : 0 < llround lib (qty * pow10i n)) : 0 < qty := by
  by_contra none
  have scaled : qty * pow10i n ≤ 0 :=
    mul_nonpos_of_nonpos_of_nonneg (not_lt.mp none) (pow10i_pos n).le
  have rounded : llround lib (qty * pow10i n) ≤ 0 := by
    unfold llround
    split
    · exact roundAway_nonpos scaled
    · exact overflow _ scaled
  exact absurd whole rounded.not_gt

/-! ## The invariant -/

variable {cfg : Config}

structure Conserved (cfg : Config) (s : State) : Prop where
  asked : ∀ t sub i, s.threads t = .allocated sub i → 0 < sub.qty
  positive : ∀ i rec, .inserted i rec ∈ s.trace → 0 < rec.submittedQty
  stored : ∀ i rec, s.maps.ordersByIndex i = some rec →
    rec.cumFilledBase = peak 0 (credits cfg.lib rec.submittedQty i s.trace)
  paid : ∀ i rec, .inserted i rec ∈ s.trace →
    due cfg i s.handler ++ fills i s.trace =
      increments 0 (credits cfg.lib rec.submittedQty i s.trace)
  unpaid : ∀ i, (∀ rec, .inserted i rec ∉ s.trace) → due cfg i s.handler ++ fills i s.trace = []

theorem Conserved.of_plain {s s' : State} (h : Conserved cfg s) (plain : Plain cfg s s') :
    Conserved cfg s' := by
  obtain ⟨events, trace_eq, neutral⟩ := plain.events
  have same_credits : ∀ qty i, credits cfg.lib qty i s'.trace = credits cfg.lib qty i s.trace :=
    fun qty i => trace_eq ▸ credits_append cfg.lib qty i s.trace neutral
  have same_fills : ∀ i, fills i s'.trace = fills i s.trace :=
    fun i => trace_eq ▸ fills_append i s.trace neutral
  refine ⟨?_, ?_, ?_, ?_, ?_⟩
  · intro t sub i at_stage
    exact h.asked t sub i (plain.allocated t sub i at_stage)
  · intro i rec inserted
    exact h.positive i rec (plain.old inserted id)
  · intro i rec stored
    rw [same_credits]
    exact h.stored i rec (plain.maps ▸ stored)
  · intro i rec inserted
    rw [plain.owes, same_fills, same_credits]
    exact h.paid i rec (plain.old inserted id)
  · intro i never
    rw [plain.owes, same_fills]
    exact h.unpaid i fun rec inserted => never rec (plain.grows _ inserted)

theorem Conserved.erase {s : State} (h : Conserved cfg s) (i : Int) (id : String) :
    Conserved cfg { s with maps := s.maps.eraseOrderRec i id } where
  asked := h.asked
  positive := h.positive
  stored j rec stored := h.stored j rec (OrderMaps.stored_of_erase stored)
  paid := h.paid
  unpaid := h.unpaid

theorem Conserved.allocate {s : State} (h : Conserved cfg s) (t : Nat) {sub : Submission}
    (positive : 0 < sub.qty) :
    Conserved cfg { s.goto t (.allocated sub s.clientOrderCounter) with
      clientOrderCounter := s.clientOrderCounter + 1 } where
  asked t' sub' i at_stage := by
    change (s.goto t (.allocated sub s.clientOrderCounter)).threads t' = _ at at_stage
    rw [State.goto_threads] at at_stage
    split at at_stage
    · rw [← (Stage.allocated.inj at_stage).1]
      exact positive
    · exact h.asked t' sub' i at_stage
  positive := h.positive
  stored := h.stored
  paid := h.paid
  unpaid := h.unpaid

/-- A new order has no fills, whatever its index was used for. -/
theorem Conserved.insert {s : State} (indexed : Indexed s) (h : Conserved cfg s) {t : Nat}
    {sub : Submission} {i : Int} (at_stage : s.threads t = .allocated sub i) :
    Conserved cfg { (s.log (.inserted i sub.record)).goto t (.waiting (.submit sub i)) with
      maps := s.maps.insertOrderRec i sub.record } := by
  have fresh := indexed.alloc_new t sub i at_stage
  have no_credits : ∀ qty, credits cfg.lib qty i s.trace = [] := by
    intro qty
    apply credits_eq_nil
    intro order accepted
    obtain ⟨rec, inserted⟩ := indexed.accepted i order accepted
    exact fresh rec inserted
  refine ⟨?_, ?_, ?_, ?_, ?_⟩
  · intro t' sub' j at_stage'
    change ((s.log (.inserted i sub.record)).goto t (.waiting (.submit sub i))).threads t' = _
      at at_stage'
    rw [State.goto_threads] at at_stage'
    split at at_stage'
    · exact absurd at_stage' (by simp)
    · exact h.asked t' sub' j at_stage'
  · intro j rec inserted
    rcases inserted_cases inserted with ⟨_, rfl⟩ | old
    · exact h.asked t sub i at_stage
    · exact h.positive j rec old
  · intro j rec stored
    change rec.cumFilledBase = peak 0 (credits cfg.lib rec.submittedQty j s.trace)
    rw [OrderMaps.insert_ordersByIndex] at stored
    split at stored
    · rename_i here
      rw [here, no_credits, ← Option.some.inj stored]
      rfl
    · exact h.stored j rec stored
  · intro j rec inserted
    change due cfg j s.handler ++ fills j s.trace =
      increments 0 (credits cfg.lib rec.submittedQty j s.trace)
    rcases inserted_cases inserted with ⟨rfl, _⟩ | old
    · rw [no_credits]
      exact h.unpaid j fresh
    · exact h.paid j rec old
  · intro j never
    exact h.unpaid j fun rec inserted => never rec (List.mem_cons_of_mem _ inserted)

/-- What the handler owes after it has credited an event is exactly the new increment. -/
theorem Conserved.accept {s : State} (reports : cfg.fillCB = true) (indexed : Indexed s)
    (h : Conserved cfg s) {order : Json} {rest : List Json} {maps : OrderMaps} {t : Taken}
    (at_order : s.handler = .orders (order :: rest))
    (took : takeOrder cfg.lib s.maps order = some (maps, t)) :
    Conserved cfg { s.log (.accepted t.clientOrderIndex order) with
      maps, handler := .taken t rest } := by
  obtain ⟨rec, rec', stored, rfl, same, fill_eq, new_eq, _, _, rfl⟩ := takeOrder_spec took
  obtain ⟨first, inserted, same'⟩ := indexed.stored _ rec stored
  have positive : 0 < rec.submittedQty := same'.2.2.2 ▸ h.positive _ first inserted
  have idle : ∀ j, due cfg j s.handler = [] := fun j => by rw [at_order]; rfl
  rw [clampFill_eq_credited positive, h.stored _ rec stored] at fill_eq
  rw [fill_eq, h.stored _ rec stored] at new_eq
  have back : ∀ j rec, Event.inserted j rec ∈ Event.accepted t.clientOrderIndex t.order :: s.trace →
      .inserted j rec ∈ s.trace :=
    fun j rec member => List.mem_of_ne_of_mem (by simp) member
  refine ⟨h.asked, ?_, ?_, ?_, ?_⟩
  · intro j rec₀ member
    exact h.positive j rec₀ (back j rec₀ member)
  · intro j rec₀ stored'
    change rec₀.cumFilledBase =
      peak 0 (credits cfg.lib rec₀.submittedQty j (.accepted t.clientOrderIndex t.order :: s.trace))
    rw [OrderMaps.set_ordersByIndex] at stored'
    rw [credits_cons_accepted]
    split at stored'
    · rename_i here
      rw [if_pos here.symm, here, ← Option.some.inj stored', fill_eq, same.2.2.2, peak_cons, max_comm]
    · rename_i other
      rw [if_neg fun here => other here.symm]
      exact h.stored j rec₀ stored'
  · intro j rec₀ member
    change due cfg j (.taken t rest) ++ fills j s.trace = increments 0
      (credits cfg.lib rec₀.submittedQty j (.accepted t.clientOrderIndex t.order :: s.trace))
    have before := h.paid j rec₀ (back j rec₀ member)
    rw [idle, List.nil_append] at before
    rw [credits_cons_accepted]
    by_cases here : t.clientOrderIndex = j
    · subst here
      have qty_eq : rec₀.submittedQty = rec.submittedQty :=
        (indexed.once _ rec₀ first (back _ rec₀ member) inserted ▸ same'.2.2.2).symm
      rw [if_pos rfl, before, qty_eq]
      rcases lt_or_ge (peak 0 (credits cfg.lib rec.submittedQty t.clientOrderIndex s.trace))
        (credited rec.submittedQty (readStr cfg.lib t.order "filled_base_amount")) with above | reached
      · rw [max_eq_right above.le] at new_eq
        rw [increments_cons_of_lt above, ← new_eq]
        have pays : 0 < t.newFill := new_eq ▸ sub_pos.mpr above
        have owes : due cfg t.clientOrderIndex (.taken t rest) = [t.newFill] :=
          if_pos ⟨rfl, reports, pays⟩
        rw [owes]
        rfl
      · rw [max_eq_left reached, sub_self] at new_eq
        have owes : due cfg t.clientOrderIndex (.taken t rest) = [] :=
          if_neg fun all => absurd all.2.2 (new_eq ▸ lt_irrefl _)
        rw [increments_cons_of_le reached, owes, List.nil_append]
    · have owes : due cfg j (.taken t rest) = [] := if_neg fun all => here all.1
      rw [if_neg here, before, owes, List.nil_append]
  · intro j never
    have other : t.clientOrderIndex ≠ j := by
      intro here
      exact never first (List.mem_cons_of_mem _ (here ▸ inserted))
    have before := h.unpaid j fun rec₀ member => never rec₀ (List.mem_cons_of_mem _ member)
    rw [idle, List.nil_append] at before
    have owes : due cfg j (.taken t rest) = [] := if_neg fun all => other all.1
    change due cfg j (.taken t rest) ++ fills j s.trace = []
    rw [before, owes, List.nil_append]

/-- Reporting a fill moves it from what is due to what is reported. -/
theorem Conserved.pay {s : State} (h : Conserved cfg s) {t : Taken} {price : Rat}
    {rest : List Json} (at_priced : s.handler = .priced t price rest)
    (callback : cfg.fillCB = true) (new : 0 < t.newFill) :
    Conserved cfg { s.log (.fill t.clientOrderIndex (fillEvent cfg.lib t price)) with
      handler := .inFill t price rest } := by
  have back : ∀ j rec, Event.inserted j rec ∈
      Event.fill t.clientOrderIndex (fillEvent cfg.lib t price) :: s.trace → .inserted j rec ∈ s.trace :=
    fun j rec member => List.mem_of_ne_of_mem (by simp) member
  have moved : ∀ j, due cfg j (.inFill t price rest) ++
      fills j (.fill t.clientOrderIndex (fillEvent cfg.lib t price) :: s.trace) =
        due cfg j s.handler ++ fills j s.trace := by
    intro j
    rw [at_priced, fills_cons_fill]
    by_cases here : t.clientOrderIndex = j
    · have owes : due cfg j (.priced t price rest) = [t.newFill] := if_pos ⟨here, callback, new⟩
      rw [if_pos here, owes]
      rfl
    · have owes : due cfg j (.priced t price rest) = [] := if_neg fun all => here all.1
      rw [if_neg here, owes]
      rfl
  refine ⟨h.asked, ?_, h.stored, ?_, ?_⟩
  · intro j rec member
    exact h.positive j rec (back j rec member)
  · intro j rec member
    exact (moved j).trans (h.paid j rec (back j rec member))
  · intro j never
    exact (moved j).trans (h.unpaid j fun rec member => never rec (List.mem_cons_of_mem _ member))

/-- The step lemma. -/
theorem Conserved.step (reports : cfg.fillCB = true)
    (overflow : ∀ x ≤ 0, cfg.lib.llroundOverflow x ≤ 0) {s s' : State} {a : Action}
    (indexed : Indexed s) (h : Conserved cfg s) (taken : step cfg s a = some s') :
    Conserved cfg s' := by
  cases step_kind taken with
  | plain plain => exact h.of_plain plain
  | allocate t sub whole => exact h.allocate t (qty_pos overflow whole)
  | insert at_stage => exact h.insert indexed at_stage
  | accept at_order took => exact h.accept reports indexed at_order took
  | pay at_priced callback new => exact h.pay at_priced callback new
  | erase owner plain => exact (h.erase _ _).of_plain plain

theorem conserved_start (instruments : Instruments) (counter nonce : Int) :
    Conserved cfg (State.start instruments counter nonce) := by
  constructor <;> simp [State.start, OrderMaps.empty, due, fills]

/-! ## Every run -/

theorem conserved_of_run (reports : cfg.fillCB = true)
    (overflow : ∀ x ≤ 0, cfg.lib.llroundOverflow x ≤ 0) {instruments : Instruments}
    {counter nonce : Int} {actions : List Action} {s : State}
    (reached : run (step cfg) (State.start instruments counter nonce) actions = some s) :
    Indexed s ∧ Conserved cfg s := by
  apply run_invariant (I := fun s => Indexed s ∧ Conserved cfg s) _ _ reached
  · intro s a s' ⟨indexed, h⟩ taken
    exact ⟨indexed.step taken, h.step reports overflow indexed taken⟩
  · exact ⟨indexed_start instruments counter nonce, conserved_start instruments counter nonce⟩

theorem due_nonneg (cfg : Config) (i : Int) (handler : Handler) : 0 ≤ (due cfg i handler).sum := by
  apply List.sum_nonneg
  intro q member
  unfold due at member
  split at member
  · split at member
    · rename_i owed
      exact (List.mem_singleton.mp member ▸ owed.2.2).le
    · exact absurd member List.not_mem_nil
  · split at member
    · rename_i owed
      exact (List.mem_singleton.mp member ▸ owed.2.2).le
    · exact absurd member List.not_mem_nil
  · exact absurd member List.not_mem_nil

namespace Conserved

variable {s : State} (h : Conserved cfg s)
include h

/-- Reported and due fills add up to the highest credited amount. -/
theorem sum_eq_peak {i : Int} {rec : OrderRec} (inserted : .inserted i rec ∈ s.trace) :
    (due cfg i s.handler).sum + (fills i s.trace).sum =
      peak 0 (credits cfg.lib rec.submittedQty i s.trace) := by
  rw [← List.sum_append, h.paid i rec inserted, sum_increments, sub_zero]

theorem peak_le {i : Int} {rec : OrderRec} (inserted : .inserted i rec ∈ s.trace) :
    peak 0 (credits cfg.lib rec.submittedQty i s.trace) ≤ 1001 / 1000 * rec.submittedQty := by
  have positive := h.positive i rec inserted
  apply peak_le_iff.mpr
  constructor
  · linarith
  · intro amount member
    unfold credits at member
    obtain ⟨e, _, credit⟩ := List.mem_filterMap.mp member
    cases e with
    | accepted j order =>
      dsimp only at credit
      split at credit
      · rw [← Option.some.inj credit]
        exact credited_le positive _
      · exact absurd credit (by simp)
    | _ => exact absurd credit (by simp)

end Conserved

/-- After every run each reported fill is positive; the fills reported for an inserted
index, once none is due, add up to the highest amount credited by an accepted event,
never exceed 1.001 times the submitted quantity, and an event that credits an amount
credited before makes no fill due; nothing is reported for any other index. -/
theorem fills_conserved (reports : cfg.fillCB = true)
    (overflow : ∀ x ≤ 0, cfg.lib.llroundOverflow x ≤ 0) {instruments : Instruments}
    {counter nonce : Int} {actions : List Action} {s : State}
    (reached : run (step cfg) (State.start instruments counter nonce) actions = some s) :
    (∀ i fill, .fill i fill ∈ s.trace → 0 < fill.qty) ∧
    (∀ i rec, .inserted i rec ∈ s.trace →
      (due cfg i s.handler = [] →
        (fills i s.trace).sum = peak 0 (credits cfg.lib rec.submittedQty i s.trace)) ∧
      (fills i s.trace).sum ≤ 1001 / 1000 * rec.submittedQty ∧
      ∀ s' order, step cfg s .takeNext = some s' → s'.trace = .accepted i order :: s.trace →
        credited rec.submittedQty (readStr cfg.lib order "filled_base_amount") ∈
          credits cfg.lib rec.submittedQty i s.trace → due cfg i s'.handler = []) ∧
    ∀ i, (∀ rec, .inserted i rec ∉ s.trace) → fills i s.trace = [] := by
  obtain ⟨indexed, h⟩ := conserved_of_run reports overflow reached
  refine ⟨?_, ?_, ?_⟩
  · intro i fill member
    have reported := (mem_fills i s.trace).mpr ⟨fill, member, rfl⟩
    by_cases known : ∃ rec, .inserted i rec ∈ s.trace
    · obtain ⟨rec, inserted⟩ := known
      have paid := h.paid i rec inserted
      exact increments_pos (paid ▸ List.mem_append_right _ reported)
    · have none_reported := h.unpaid i fun rec inserted => known ⟨rec, inserted⟩
      rw [List.append_eq_nil_iff.mp none_reported |>.2] at reported
      exact absurd reported List.not_mem_nil
  · intro i rec inserted
    have sum_eq := h.sum_eq_peak inserted
    refine ⟨?_, ?_, ?_⟩
    · intro none_due
      rw [none_due, List.sum_nil, zero_add] at sum_eq
      exact sum_eq
    · have owed := due_nonneg cfg i s.handler
      have bound := h.peak_le inserted
      linarith
    · intro s' order taken trace_eq again
      have h' := h.step reports overflow indexed taken
      have paid := h'.paid i rec (trace_eq ▸ List.mem_cons_of_mem _ inserted)
      rw [trace_eq, credits_cons_accepted, if_pos rfl, increments_cons_of_le (le_peak again),
        ← h.paid i rec inserted, fills_cons_accepted] at paid
      have at_order : due cfg i s.handler = [] := by
        cases loop : s.handler with
        | orders rest => rfl
        | _ => exact absurd taken (by simp [step, takeNextOrder, loop])
      exact List.append_cancel_right (paid.trans (congrArg (· ++ _) at_order))
  · intro i never
    exact (List.append_eq_nil_iff.mp (h.unpaid i never)).2

/-! ## A sample run -/

/-- A partial fill, its re-delivery, an amount beyond the order, and the end of the order,
told twice. -/
def sampleRun : List Action :=
  submitted 0 "x" ++
    [.deliver (ordersJson [orderJson 1 "open" (2 / 5), orderJson 1 "open" (2 / 5),
      orderJson 1 "open" 50, orderJson 1 "filled" 1, orderJson 1 "filled" 1])] ++
    handled true ++ handled false ++ handled true ++ handled false ++ [.takeNext, .takeNext]

theorem sampleConfig_overflow : ∀ x ≤ 0, sampleConfig.lib.llroundOverflow x ≤ 0 := by
  intro x _
  change (-(2 ^ 63) : Int) ≤ 0
  decide

/-- The re-delivered and the implausible event report nothing beyond the order's quantity. -/
theorem fills_conserved_sample : ∃ s rec,
    run (step sampleConfig) (State.start sampleInstruments 1 5) sampleRun = some s ∧
      .inserted 1 rec ∈ s.trace ∧ fills 1 s.trace = [3 / 5, 2 / 5] ∧
      (fills 1 s.trace).sum = peak 0 (credits sampleConfig.lib rec.submittedQty 1 s.trace) := by
  obtain ⟨s, reached, reported, none_due⟩ : ∃ s,
      run (step sampleConfig) (State.start sampleInstruments 1 5) sampleRun = some s ∧
        fills 1 s.trace = [3 / 5, 2 / 5] ∧ due sampleConfig 1 s.handler = [] :=
    exists_run (by decide +kernel)
  have conserved := fills_conserved rfl sampleConfig_overflow reached
  have known : ∃ rec, .inserted 1 rec ∈ s.trace := by
    by_contra never
    have nothing := conserved.2.2 1 fun rec inserted => never ⟨rec, inserted⟩
    rw [reported] at nothing
    exact absurd nothing (by simp)
  obtain ⟨rec, inserted⟩ := known
  exact ⟨s, rec, reached, inserted, reported, (conserved.2.1 1 rec inserted).1 none_due⟩

end LighterApi.Guarantees.FillConservation

import LighterApi.Guarantees.FillConservation

/-!
# Reported and credited fills

An order update repeats the cumulative amount of its event as it came, while the fills
add up to the highest amount credited. The two agree exactly on events whose amount is
plausible and not below what was credited before. A venue that fills an order bit by bit
reports such amounts, unless the rounding to base units raised the order by more than the
tolerance of the plausibility clamp. The amounts are numbers, added and compared exactly.
-/
namespace LighterApi.Guarantees.FillReports
open LighterApi.Library.Transition LighterApi.Library.RunningMax
open LighterApi.Source LighterApi.Source.SendTx LighterApi.Source.Gateway
open LighterApi.Source.GatewayRun
open LighterApi.Guarantees.OrderIndices LighterApi.Guarantees.FillConservation

variable {cfg : Config} {s s' : State}

/-! ## The cumulative amount of an update -/

/-- An amount within the tolerance, and not below anything credited. -/
structure Credible (qty amount : Rat) (credits : List Rat) : Prop where
  nonneg : 0 ≤ amount
  believed : amount ≤ 1001 / 1000 * qty
  latest : ∀ credit ∈ credits, credit ≤ amount

/-- The amount of a credited event is the highest credit exactly when it is credible. -/
theorem amount_eq_peak_iff {qty amount : Rat} {credits : List Rat}
    (bounded : peak 0 credits ≤ 1001 / 1000 * qty) (member : credited qty amount ∈ credits) :
    amount = peak 0 credits ↔ Credible qty amount credits := by
  constructor
  · intro same
    have highest := peak_le_iff.mp same.ge
    exact ⟨highest.1, same.le.trans bounded, highest.2⟩
  · intro credible
    have believed : credited qty amount = amount := if_pos credible.believed
    apply le_antisymm
    · exact le_peak (believed ▸ member)
    · exact peak_le_iff.mpr ⟨credible.nonneg, credible.latest⟩

theorem mem_credits {lib : Externals} {qty : Rat} {i : Int} {order : Json} {trace : List Event}
    (accepted : .accepted i order ∈ trace) :
    credited qty (readStr lib order "filled_base_amount") ∈ credits lib qty i trace :=
  List.mem_filterMap.mpr ⟨.accepted i order, accepted, if_pos rfl⟩

/-- The cumulative amount of an event, unless it is an infinity or a NaN. -/
def amountOf (lib : Externals) (order : Json) : Option Rat :=
  if (order.find "filled_base_amount").any Json.nonFinite then none
  else some (readStr lib order "filled_base_amount")

theorem readStr_of_amount {lib : Externals} {order : Json} {amount : Rat}
    (number : amountOf lib order = some amount) :
    readStr lib order "filled_base_amount" = amount := by
  unfold amountOf at number
  split at number
  · exact absurd number (by simp)
  · exact Option.some.inj number

/-- In every run, when the loop is about to report an event, the cumulative amount of its order
update is the sum of the fills reported for the order so far exactly when the amount of this
very event is credible. -/
theorem cumFilledQty_agrees_iff (reports : cfg.fillCB = true) (callback : cfg.orderUpdateCB = true)
    (overflow : ∀ x ≤ 0, cfg.lib.llroundOverflow x ≤ 0) {instruments : Instruments}
    {counter nonce : Int} {actions : List Action} {t : Taken} {price : Rat} {rest : List Json}
    (reached : run (step cfg) (State.start instruments counter nonce) actions = some s)
    (handles : s.handler = .filled t price rest)
    (numbers : ∀ order, .accepted t.clientOrderIndex order ∈ s.trace →
      ∃ amount, amountOf cfg.lib order = some amount) :
    ∃ s' update rec amount, step cfg s .emitUpdate = some s' ∧
      s'.trace = .update t.clientOrderIndex update :: s.trace ∧
      .accepted t.clientOrderIndex t.order ∈ s.trace ∧
      .inserted t.clientOrderIndex rec ∈ s.trace ∧ amountOf cfg.lib t.order = some amount ∧
      (update.cumFilledQty = (fills t.clientOrderIndex s.trace).sum ↔
        Credible rec.submittedQty amount
          (credits cfg.lib rec.submittedQty t.clientOrderIndex s.trace)) := by
  obtain ⟨indexed, conserved⟩ := conserved_of_run reports overflow reached
  have carried : Indexed s ∧ Carried s := by
    apply run_invariant (I := fun s => Indexed s ∧ Carried s) _ _ reached
    · exact fun _ _ _ kept taken => ⟨kept.1.step taken, kept.2.step kept.1 taken⟩
    · exact ⟨indexed_start instruments counter nonce, carried_start instruments counter nonce⟩
  have ok : TakenOk s.trace t := by
    have handler := carried.2.handler
    rw [handles] at handler
    exact handler
  obtain ⟨accepted, rec, inserted, _⟩ := ok
  obtain ⟨amount, number⟩ := numbers t.order accepted
  have none_due : due cfg t.clientOrderIndex s.handler = [] := by
    rw [handles]
    rfl
  have sum_eq := conserved.sum_eq_peak inserted
  rw [none_due, List.sum_nil, zero_add] at sum_eq
  have reported : (orderUpdate cfg.lib t price).cumFilledQty = amount := readStr_of_amount number
  have credit : credited rec.submittedQty amount ∈
      credits cfg.lib rec.submittedQty t.clientOrderIndex s.trace :=
    readStr_of_amount number ▸ mem_credits accepted
  refine ⟨{ s.log (.update t.clientOrderIndex (orderUpdate cfg.lib t price)) with
    handler := .inUpdate t rest }, orderUpdate cfg.lib t price, rec, amount, ?_, rfl, accepted,
    inserted, number, ?_⟩
  · simp only [step, handles]
    exact if_pos callback
  · rw [sum_eq, reported]
    exact amount_eq_peak_iff (conserved.peak_le inserted) credit

/-- An event of the order is delivered, and handled up to its update. -/
def reporting (status : String) (filled : Rat) (fills : Bool) : List Action :=
  [.deliver (ordersJson [orderJson 1 status filled])] ++
    [.takeNext, .readPrice, .emitFill] ++ (if fills then [.fillReturns false] else [])

/-- The latest event is the order's update, with the amount. -/
def reports (i : Int) (amount : Rat) : List Event → Bool
  | .update j update :: _ => decide (j = i ∧ update.cumFilledQty = amount)
  | _ => false

/-- The loop is about to report an event of order 1, and the amounts so far are numbers. -/
def reportsNumbers (s : State) : Bool :=
  (match s.handler with
    | .filled t _ _ => t.clientOrderIndex == 1
    | _ => false) &&
  s.trace.all fun
    | .accepted _ order => (amountOf sampleConfig.lib order).isSome
    | _ => true

/-- A first partial fill. -/
theorem cumFilledQty_agrees_iff_sample : ∃ s s' update rec amount,
    run (step sampleConfig) (State.start sampleInstruments 1 5)
      (submitted 0 "x" ++ reporting "open" (2 / 5) true) = some s ∧
    step sampleConfig s .emitUpdate = some s' ∧
    s'.trace = .update 1 update :: s.trace ∧ .inserted 1 rec ∈ s.trace ∧
    (update.cumFilledQty = (fills 1 s.trace).sum ↔
      Credible rec.submittedQty amount (credits sampleConfig.lib rec.submittedQty 1 s.trace)) := by
  obtain ⟨s, reached, told⟩ : ∃ s, run (step sampleConfig) (State.start sampleInstruments 1 5)
      (submitted 0 "x" ++ reporting "open" (2 / 5) true) = some s ∧ reportsNumbers s = true :=
    exists_run (by decide +kernel)
  obtain ⟨handling, listed⟩ := (Bool.and_eq_true _ _).mp told
  obtain ⟨t, price, rest, handles, index⟩ : ∃ t price rest,
      s.handler = .filled t price rest ∧ t.clientOrderIndex = 1 := by
    split at handling
    · rename_i t price rest handles
      exact ⟨t, price, rest, handles, by simpa using handling⟩
    · exact absurd handling (by decide)
  have numbers : ∀ order, .accepted t.clientOrderIndex order ∈ s.trace →
      ∃ amount, amountOf sampleConfig.lib order = some amount := by
    intro order accepted
    exact Option.isSome_iff_exists.mp (List.all_eq_true.mp listed _ accepted)
  obtain ⟨s', update, rec, amount, taken, noted, _, inserted, _, agrees⟩ :=
    cumFilledQty_agrees_iff rfl rfl sampleConfig_overflow reached handles numbers
  rw [index] at noted inserted agrees
  exact ⟨s, s', update, rec, amount, reached, taken, noted, inserted, agrees⟩

/-- A stale event is re-delivered after a larger fill: its update reports less than was
credited. -/
theorem stale_update_disagrees : ¬∀ (cfg : Config) (instruments : Instruments)
    (counter nonce : Int) (actions : List Action) (s s' : State), cfg.fillCB = true →
      run (step cfg) (State.start instruments counter nonce) actions = some s →
      step cfg s .emitUpdate = some s' → ∀ i update, s'.trace = .update i update :: s.trace →
        update.cumFilledQty = (fills i s.trace).sum := by
  intro agrees
  obtain ⟨s, reached, reported, told⟩ : ∃ s, run (step sampleConfig)
      (State.start sampleInstruments 1 5) (submitted 0 "x" ++ reporting "open" (3 / 5) true ++
        [.emitUpdate, .updateReturns false, .prune, .takeNext] ++
        reporting "open" (2 / 5) false) = some s ∧
      ((fills 1 s.trace).sum = 3 / 5 ∧
        ((step sampleConfig s .emitUpdate).any fun s' => reports 1 (2 / 5) s'.trace) = true) :=
    exists_run (by decide +kernel)
  obtain ⟨s', taken, shown⟩ := (Option.any_eq_true _ _).mp told
  have noted := agrees _ _ _ _ _ s s' rfl reached taken
  cases step_spec taken with
  | @updated t price rest =>
    obtain ⟨here, amount⟩ := of_decide_eq_true shown
    have same := noted t.clientOrderIndex _ rfl
    rw [here, reported, amount] at same
    norm_num at same
  | updateSkipped _ unset => exact unset rfl
  | refused id failure idle calls => exact absurd calls (by simp [Action.thread])
  | allocated sub idle calls => exact absurd calls (by simp [Action.thread])

end LighterApi.Guarantees.FillReports

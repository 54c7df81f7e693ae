import Mathlib.Algebra.Order.Field.Power
import Mathlib.Algebra.Order.Round
import LighterApi.Guarantees.CallOrigins
import LighterApi.Guarantees.GenuineFills

/-!
# Signed integers denote the caller's order

A submit hands the signer its quantity and price scaled to integers. `llround` rounds to
the nearest integer when that fits 64 bits and returns anything otherwise, and `pow10i`
is a power of ten only for decimals that are not negative. So the integers denote the
order exactly when the roundings that are used fit and the decimals are not negative, or
the call is refused anyway (`LimitFits`, `MarketFits`).
-/
namespace LighterApi.Guarantees.SignedAmounts
open LighterApi.Library.Transition
open LighterApi.Source LighterApi.Source.SendTx LighterApi.Source.Gateway
open LighterApi.Source.GatewayRun
open LighterApi.Guarantees.CallOrigins LighterApi.Guarantees.FillConservation
open LighterApi.Guarantees.GenuineFills LighterApi.Guarantees.OrderIndices

/-- The decimals a submit scales the quantity by. -/
def sizeDec (inst : Instruments) (symbol : String) : Int := (inst.sizeDecimals symbol).getD 0

def priceDec (inst : Instruments) (symbol : String) : Int := (inst.priceDecimals symbol).getD 0

/-- The integer is the number scaled by a power of ten, to the nearest. -/
def Nearest (n : Int) (x : Rat) (decimals : Int) : Prop := |(n : Rat) - x * 10 ^ decimals| ≤ 1 / 2

/-- The rounded value fits 64 bits. -/
def Fits64 (x : Rat) : Prop := -(2 ^ 63) ≤ roundAway x ∧ roundAway x < 2 ^ 63

/-- What the signer is given for a limit order. -/
def LimitRequest (qty price : Rat) (sizeDecimals priceDecimals : Int) : SignRequest → Prop
  | .create _ _ baseAmount priceScaled _ _ _ _ _ _ =>
    1 ≤ baseAmount ∧ Nearest baseAmount qty sizeDecimals ∧
      1 ≤ priceScaled ∧ priceScaled ≤ uint32Max ∧ Nearest priceScaled price priceDecimals
  | .cancel .. => False

/-- What the signer is given for a market order. -/
def MarketRequest (qty : Rat) (sizeDecimals : Int) : SignRequest → Prop
  | .create _ _ baseAmount _ _ _ _ _ _ _ => 1 ≤ baseAmount ∧ Nearest baseAmount qty sizeDecimals
  | .cancel .. => False

/-- The call throws a `GatewayError` and does nothing else, or whatever its thread is about
to have signed before it returns is as required. -/
def Hands (cfg : Config) (s : State) (a : Action) (t : Nat) (id : String)
    (required : SignRequest → Prop) : Prop :=
  (∃ failure, failure.isGateway = true ∧
    step cfg s a = some (s.log (.submitReturned id none (some failure)))) ∨
  ∀ middle s' job, run (step cfg) s (a :: middle) = some s' → .finish t ∉ middle →
    s'.threads t = .locked job → required (job.signRequest s'.nonces.nextNonce)

/-- The gateway on a platform whose `llround` returns this when the value does not fit. -/
def overflowing (cfg : Config) (overflow : Rat → Int) : Config :=
  { cfg with lib := { cfg.lib with llroundOverflow := overflow } }

/-- In every state of every run, whatever 64-bit value a failed `llround` returns. -/
def Throughout (cfg : Config) (P : Config → State → Prop) : Prop :=
  ∀ overflow : Rat → Int, (∀ x, -(2 ^ 63) ≤ overflow x ∧ overflow x < 2 ^ 63) →
    ∀ (instruments : Instruments) (counter nonce : Int) (actions : List Action) (s : State),
      run (step (overflowing cfg overflow)) (State.start instruments counter nonce) actions =
        some s → P (overflowing cfg overflow) s

/-- A limit order is handed over as it was asked for, with these instruments. -/
def LimitDenotes (cfg : Config) (inst : Instruments) (symbol : String) (qty price : Rat) : Prop :=
  Throughout cfg fun cfg s => s.instruments = inst →
    ∀ (t : Nat) (id : String) (side : OrderSide) (reduceOnly : Bool), s.threads t = .idle →
      Hands cfg s (.submitPostOnlyLimit t id symbol side qty price reduceOnly) t id
        (LimitRequest qty price (sizeDec inst symbol) (priceDec inst symbol))

/-- The same for a market order, with the quote its price is bounded by. -/
def MarketDenotes (cfg : Config) (inst : Instruments) (symbol : String) (side : OrderSide)
    (qty : Rat) (quote : Option Quote) : Prop :=
  Throughout cfg fun cfg s => s.instruments = inst → s.quotes symbol = quote →
    ∀ (t : Nat) (id : String), s.threads t = .idle →
      Hands cfg s (.submitReduceOnlyMarket t id symbol side qty) t id
        (MarketRequest qty (sizeDec inst symbol))

/-- The call is refused, or its decimals are powers of ten and its roundings fit. -/
def LimitFits (inst : Instruments) (symbol : String) (qty price : Rat) : Prop :=
  let amount := qty * pow10i (sizeDec inst symbol)
  let scaledPrice := price * pow10i (priceDec inst symbol)
  inst.symbolToMarketId symbol = none ∨ roundAway amount = 0 ∨
    (Fits64 scaledPrice ∧ ¬ (1 ≤ roundAway scaledPrice ∧ roundAway scaledPrice ≤ uint32Max)) ∨
    (0 ≤ sizeDec inst symbol ∧ 0 ≤ priceDec inst symbol ∧ Fits64 amount ∧ Fits64 scaledPrice)

def MarketFits (lib : Externals) (inst : Instruments) (symbol : String) (qty : Rat)
    (quote : Option Quote) : Prop :=
  let amount := qty * pow10i (sizeDec inst symbol)
  inst.symbolToMarketId symbol = none ∨ roundAway amount = 0 ∨ quote.filter lib.sane = none ∨
    (0 ≤ sizeDec inst symbol ∧ Fits64 amount)

/-! ## Rounding -/

theorem roundAway_close (x : Rat) : |(roundAway x : Rat) - x| ≤ 1 / 2 := by
  unfold roundAway
  split
  · rw [← round_eq, abs_sub_comm]
    exact abs_sub_round x
  · have close := abs_sub_round (-x)
    rw [round_eq] at close
    rw [Int.cast_neg, show -((⌊-x + 1 / 2⌋ : Int) : Rat) - x = -x - (⌊-x + 1 / 2⌋ : Int) by ring]
    exact close

theorem roundAway_nonneg {x : Rat} (h : 0 ≤ x) : 0 ≤ roundAway x := by
  unfold roundAway
  rw [if_pos h]
  exact Int.floor_nonneg.mpr (by linarith)

theorem pow10i_eq_zpow {decimals : Int} (h : 0 ≤ decimals) : pow10i decimals = 10 ^ decimals := by
  unfold pow10i
  rw [← zpow_natCast, Int.toNat_of_nonneg h]

theorem llround_of_fits (lib : Externals) {x : Rat} (fits : Fits64 x) : llround lib x = roundAway x :=
  if_pos fits

theorem llround_of_overflow (lib : Externals) {x : Rat} (overflows : ¬ Fits64 x) :
    llround lib x = lib.llroundOverflow x :=
  if_neg overflows

/-- Scaling and rounding within 64 bits gives the nearest integer. -/
theorem llround_nearest (lib : Externals) {x : Rat} {decimals : Int} (nonneg : 0 ≤ decimals)
    (fits : Fits64 (x * pow10i decimals)) : Nearest (llround lib (x * pow10i decimals)) x decimals := by
  unfold Nearest
  rw [llround_of_fits lib fits, ← pow10i_eq_zpow nonneg]
  exact roundAway_close _

/-- Negative decimals are taken for none, which is never close. -/
theorem not_nearest_of_neg {x : Rat} {n decimals : Int} (neg : decimals < 0) (whole : 1 ≤ n)
    (close : |(n : Rat) - x| ≤ 1 / 2) : ¬ Nearest n x decimals := by
  intro nearest
  unfold Nearest at nearest
  have one : (1 : Rat) ≤ n := by
    exact_mod_cast whole
  have tenth : (10 : Rat) ^ decimals ≤ 1 / 10 := by
    have le : (10 : Rat) ^ decimals ≤ 10 ^ (-1 : Int) := zpow_le_zpow_right₀ (by norm_num) (by omega)
    norm_num at le ⊢
    exact le
  obtain ⟨low, high⟩ := abs_le.mp close
  have positive : 0 ≤ x := by linarith
  have small : x * 10 ^ decimals ≤ x * (1 / 10) := mul_le_mul_of_nonneg_left tenth positive
  obtain ⟨_, bound⟩ := abs_le.mp nearest
  linarith

/-- Of one and three, one is not the nearest. -/
theorem exists_not_nearest (x : Rat) (decimals : Int) :
    ∃ n, (n = 1 ∨ n = 3) ∧ ¬ Nearest n x decimals := by
  by_cases one : Nearest 1 x decimals
  · refine ⟨3, Or.inr rfl, fun three => ?_⟩
    unfold Nearest at one three
    push_cast at one three
    obtain ⟨_, _⟩ := abs_le.mp one
    obtain ⟨_, _⟩ := abs_le.mp three
    linarith
  · exact ⟨1, Or.inl rfl, one⟩

theorem pow10i_of_neg {decimals : Int} (neg : decimals < 0) : pow10i decimals = 1 := by
  have none_left : decimals.toNat = 0 := by
    omega
  rw [pow10i, none_left, pow_zero]

/-- A value that rounds to a whole number stays positive when an overflow does. -/
theorem llround_whole (cfg : Config) {x : Rat} {v : Int} (whole : 1 ≤ roundAway x) (v_pos : 0 < v) :
    0 < llround (overflowing cfg fun _ => v).lib x := by
  by_cases fits : Fits64 x
  · rw [llround_of_fits _ fits]
    omega
  · rw [llround_of_overflow _ fits]
    exact v_pos

section Nearest

variable {cfg : Config} {x : Rat} {decimals : Int} (nearest : ∀ v : Int, v = 1 ∨ v = 3 →
  Nearest (llround (overflowing cfg fun _ => v).lib (x * pow10i decimals)) x decimals)
include nearest

/-- A rounding that is the nearest whatever an overflow returns does not overflow. -/
theorem fits_of_nearest : Fits64 (x * pow10i decimals) := by
  by_contra overflows
  obtain ⟨v, choice, far⟩ := exists_not_nearest x decimals
  have close := nearest v choice
  rw [llround_of_overflow _ overflows] at close
  exact far close

theorem decimals_of_nearest (whole : 1 ≤ roundAway (x * pow10i decimals)) : 0 ≤ decimals := by
  by_contra neg
  have near := nearest 1 (Or.inl rfl)
  have close := roundAway_close (x * pow10i decimals)
  rw [llround_of_fits _ (fits_of_nearest nearest)] at near
  rw [pow10i_of_neg (not_le.mp neg), mul_one] at near close whole
  exact not_nearest_of_neg (not_le.mp neg) whole close near

end Nearest

/-! ## Scaling -/

section Scaling

variable {lib : Externals} {inst : Instruments} {symbol : String} {qty price : Rat} {scaled : Scaled}
  {failure : Failure}

theorem scaleLimit_ok_iff : scaleLimit lib inst symbol qty price = .ok scaled ↔
    inst.symbolToMarketId symbol = some scaled.marketId ∧
      0 < llround lib (qty * pow10i (sizeDec inst symbol)) ∧
      0 < llround lib (price * pow10i (priceDec inst symbol)) ∧
      llround lib (price * pow10i (priceDec inst symbol)) ≤ uint32Max ∧
      scaled.baseAmount = llround lib (qty * pow10i (sizeDec inst symbol)) ∧
      scaled.price = llround lib (price * pow10i (priceDec inst symbol)) := by
  unfold scaleLimit sizeDec priceDec
  cases known : inst.symbolToMarketId symbol with
  | none => simp
  | some marketId =>
    dsimp only
    split
    · rename_i zero
      simp only [reduceCtorEq, false_iff]
      omega
    · rename_i whole
      split
      · rename_i outside
        simp only [reduceCtorEq, false_iff]
        omega
      · rename_i inside
        obtain ⟨marketId', baseAmount, price'⟩ := scaled
        simp only [Except.ok.injEq, Scaled.mk.injEq, Option.some.injEq]
        omega

theorem scaleLimit_refuses (refused : scaleLimit lib inst symbol qty price = .error failure) :
    failure.isGateway = true := by
  unfold scaleLimit at refused
  split at refused
  · exact Except.error.inj refused ▸ rfl
  · dsimp only at refused
    split at refused
    · exact Except.error.inj refused ▸ rfl
    · split at refused
      · exact Except.error.inj refused ▸ rfl
      · exact absurd refused (by simp)

variable {quotes : QuoteCache} {side : OrderSide}

theorem scaleMarket_ok (accepted : scaleMarket lib inst quotes symbol side qty = .ok scaled) :
    inst.symbolToMarketId symbol ≠ none ∧ (quotes symbol).filter lib.sane ≠ none ∧
      0 < llround lib (qty * pow10i (sizeDec inst symbol)) ∧
      scaled.baseAmount = llround lib (qty * pow10i (sizeDec inst symbol)) := by
  have whole := scaleMarket_whole accepted
  unfold scaleMarket at accepted
  split at accepted
  · exact absurd accepted (by simp)
  · rename_i known
    dsimp only at accepted
    rw [if_neg whole.not_ge] at accepted
    split at accepted
    · exact absurd accepted (by simp)
    · rename_i sane
      refine ⟨by simp [known], by simp [sane], whole, ?_⟩
      rw [← Except.ok.inj accepted]
      rfl

theorem scaleMarket_accepts {quote : Quote} (known : inst.symbolToMarketId symbol ≠ none)
    (sane : (quotes symbol).filter lib.sane = some quote)
    (whole : 0 < llround lib (qty * pow10i (sizeDec inst symbol))) :
    ∃ scaled, scaleMarket lib inst quotes symbol side qty = .ok scaled := by
  obtain ⟨marketId, known⟩ := Option.ne_none_iff_exists'.mp known
  unfold sizeDec at whole
  unfold scaleMarket
  rw [known, sane]
  dsimp only
  rw [if_neg whole.not_ge]
  exact ⟨_, rfl⟩

theorem scaleMarket_refuses (refused : scaleMarket lib inst quotes symbol side qty = .error failure) :
    failure.isGateway = true := by
  unfold scaleMarket at refused
  split at refused
  · exact Except.error.inj refused ▸ rfl
  · dsimp only at refused
    split at refused
    · exact Except.error.inj refused ▸ rfl
    · split at refused
      · exact Except.error.inj refused ▸ rfl
      · exact absurd refused (by simp)

end Scaling

/-! ## From the call to the signer -/

section Handing

variable {cfg : Config} {s : State} {a : Action} {t : Nat} {kind : SubmitKind} {id symbol : String}
  {side : OrderSide} {qty : Rat} {reduceOnly : Bool} {scaled : Except Failure Scaled}
  {required : SignRequest → Prop} (idle : s.threads t = .idle)
  (begins : step cfg s a = beginSubmit s t kind id symbol side qty reduceOnly scaled)
include idle begins

theorem hands_of_begin (refuses : ∀ failure, scaled = .error failure → failure.isGateway = true)
    (asks : ∀ order, scaled = .ok order → ∀ i nonce, required
      (Submission.signRequest ⟨kind, id, symbol, side, qty, reduceOnly, order⟩ i nonce)) :
    Hands cfg s a t id required := by
  unfold beginSubmit at begins
  rw [idle] at begins
  cases scaled with
  | error failure => exact Or.inl ⟨failure, refuses failure rfl, begins⟩
  | ok order =>
    refine Or.inr fun middle s' job reached stays at_locked => ?_
    obtain ⟨m, taken, reached⟩ := run_cons_eq_some.mp reached
    obtain rfl := Option.some.inj (begins.symm.trans taken)
    have kept : jobOf (s'.threads t) = some (.submit
        ⟨kind, id, symbol, side, qty, reduceOnly, order⟩ s.clientOrderCounter) :=
      job_of_run (by simp [State.goto, jobOf]) stays reached
    rw [at_locked] at kept
    obtain rfl := Option.some.inj kept
    exact asks order rfl _ _

/-- A call that is accepted reaches the signer when nobody holds the tx lock. -/
theorem asks_of_hands {order : Scaled} (accepts : scaled = .ok order) (free : s.txOwner = none)
    (hands : Hands cfg s a t id required) :
    required (Submission.signRequest ⟨kind, id, symbol, side, qty, reduceOnly, order⟩
      s.clientOrderCounter s.nonces.nextNonce) := by
  subst accepts
  obtain ⟨locked, reached, at_locked, nonces, _⟩ := submit_locks idle free begins
  rcases hands with ⟨failure, _, refused⟩ | asks
  · obtain ⟨m, taken, onward⟩ := run_cons_eq_some.mp reached
    obtain rfl := Option.some.inj (refused.symm.trans taken)
    exact absurd onward (by simp [run, step, idle])
  · have asked := asks _ _ _ reached (by simp) at_locked
    rw [nonces] at asked
    exact asked

end Handing

/-! ## The exact conditions -/

variable {cfg : Config} {inst : Instruments} {symbol : String} {qty : Rat}

theorem llround_of_zero (lib : Externals) {x : Rat} (zero : roundAway x = 0) : llround lib x = 0 := by
  have fits : Fits64 x := by
    unfold Fits64
    omega
  rw [llround_of_fits lib fits, zero]

theorem units_whole (positive : 0 < qty)
    (units : roundAway (qty * pow10i (sizeDec inst symbol)) ≠ 0) :
    1 ≤ roundAway (qty * pow10i (sizeDec inst symbol)) := by
  have nonneg := roundAway_nonneg (mul_pos positive (pow10i_pos (sizeDec inst symbol))).le
  omega

theorem small_int64 {v : Int} (choice : v = 1 ∨ v = 3) (_ : Rat) : -(2 ^ 63) ≤ v ∧ v < 2 ^ 63 := by
  omega

theorem limit_of_fits {price : Rat} (fits : LimitFits inst symbol qty price) :
    LimitDenotes cfg inst symbol qty price := by
  intro overflow _ instruments counter nonce actions s _ same t id side reduceOnly idle
  refine hands_of_begin idle rfl (fun failure refused => scaleLimit_refuses refused) ?_
  intro order accepted i nonce'
  rw [same] at accepted
  obtain ⟨known, whole, low, high, amount_eq, price_eq⟩ := scaleLimit_ok_iff.mp accepted
  rcases fits with unknown | zero | ⟨price_fits, outside⟩ | ⟨sizes, prices, amount_fits, price_fits⟩
  · exact absurd (known.symm.trans unknown) (by simp)
  · rw [llround_of_zero _ zero] at whole
    exact absurd whole (lt_irrefl 0)
  · rw [llround_of_fits _ price_fits] at low high
    exact absurd ⟨low, high⟩ outside
  · change 1 ≤ order.baseAmount ∧ _ ∧ 1 ≤ order.price ∧ order.price ≤ uint32Max ∧ _
    rw [amount_eq, price_eq]
    exact ⟨whole, llround_nearest _ sizes amount_fits, low, high, llround_nearest _ prices price_fits⟩

/-- A price that is not refused stays in range when an overflow returns a small number. -/
theorem price_in_range (cfg : Config) {price : Rat} {v : Int} (choice : v = 1 ∨ v = 3)
    (priced : ¬ (Fits64 (price * pow10i (priceDec inst symbol)) ∧
      ¬ (1 ≤ roundAway (price * pow10i (priceDec inst symbol)) ∧
        roundAway (price * pow10i (priceDec inst symbol)) ≤ uint32Max))) :
    0 < llround (overflowing cfg fun _ => v).lib (price * pow10i (priceDec inst symbol)) ∧
      llround (overflowing cfg fun _ => v).lib (price * pow10i (priceDec inst symbol)) ≤
        uint32Max := by
  by_cases fits : Fits64 (price * pow10i (priceDec inst symbol))
  · rw [llround_of_fits _ fits]
    by_contra outside
    exact priced ⟨fits, outside⟩
  · rw [llround_of_overflow _ fits]
    change 0 < v ∧ v ≤ uint32Max
    unfold uint32Max
    omega

theorem fits_of_limit {price : Rat} (positive : 0 < qty)
    (denotes : LimitDenotes cfg inst symbol qty price) : LimitFits inst symbol qty price := by
  cases known : inst.symbolToMarketId symbol with
  | none => exact Or.inl known
  | some marketId =>
    refine Or.inr (or_iff_not_imp_left.mpr fun units => or_iff_not_imp_left.mpr fun priced => ?_)
    have whole := units_whole positive units
    -- Whatever small number an overflow returns, the order is accepted and signed.
    have signs : ∀ v : Int, v = 1 ∨ v = 3 →
        Nearest (llround (overflowing cfg fun _ => v).lib (qty * pow10i (sizeDec inst symbol))) qty
          (sizeDec inst symbol) ∧
        Nearest (llround (overflowing cfg fun _ => v).lib (price * pow10i (priceDec inst symbol)))
          price (priceDec inst symbol) := by
      intro v choice
      obtain ⟨low, high⟩ := price_in_range cfg choice priced
      have accepted : scaleLimit (overflowing cfg fun _ => v).lib inst symbol qty price =
          .ok ⟨marketId, _, _⟩ :=
        scaleLimit_ok_iff.mpr ⟨known, llround_whole cfg whole (by omega), low, high, rfl, rfl⟩
      have hands := denotes (fun _ => v) (small_int64 choice) inst 0 0 [] (State.start inst 0 0) rfl
        rfl 0 "" .Buy false rfl
      obtain ⟨_, amount, _, _, limit⟩ := asks_of_hands rfl rfl accepted rfl hands
      exact ⟨amount, limit⟩
    have amount_fits := fits_of_nearest fun v choice => (signs v choice).1
    have price_fits := fits_of_nearest fun v choice => (signs v choice).2
    have price_whole : 1 ≤ roundAway (price * pow10i (priceDec inst symbol)) := by
      by_contra low
      exact priced ⟨price_fits, fun inside => low inside.1⟩
    exact ⟨decimals_of_nearest (fun v choice => (signs v choice).1) whole,
      decimals_of_nearest (fun v choice => (signs v choice).2) price_whole, amount_fits, price_fits⟩

theorem market_of_fits {side : OrderSide} {quote : Option Quote}
    (fits : MarketFits cfg.lib inst symbol qty quote) :
    MarketDenotes cfg inst symbol side qty quote := by
  intro overflow _ instruments counter nonce actions s _ same quoted t id idle
  refine hands_of_begin idle rfl (fun failure refused => scaleMarket_refuses refused) ?_
  intro order accepted i nonce'
  rw [same] at accepted
  obtain ⟨known, sane, whole, amount_eq⟩ := scaleMarket_ok accepted
  rcases fits with unknown | zero | unquoted | ⟨sizes, amount_fits⟩
  · exact absurd unknown known
  · rw [llround_of_zero _ zero] at whole
    exact absurd whole (lt_irrefl 0)
  · rw [quoted] at sane
    exact absurd unquoted sane
  · change 1 ≤ order.baseAmount ∧ _
    rw [amount_eq]
    exact ⟨whole, llround_nearest _ sizes amount_fits⟩

/-- A market close that is not refused is signed in a gateway that was told the quote, whatever
an overflow returns. -/
theorem market_signed {side : OrderSide} {quote : Quote} {v : Int} {required : SignRequest → Prop}
    (known : inst.symbolToMarketId symbol ≠ none) (sane : cfg.lib.sane quote = true)
    (small : -(2 ^ 63) ≤ v ∧ v < 2 ^ 63)
    (whole : 0 < llround (overflowing cfg fun _ => v).lib (qty * pow10i (sizeDec inst symbol)))
    (handed : Throughout cfg fun cfg s => s.instruments = inst → s.quotes symbol = some quote →
      ∀ (t : Nat) (id : String), s.threads t = .idle →
        Hands cfg s (.submitReduceOnlyMarket t id symbol side qty) t id required) :
    ∃ quotes order i nonce, quotes symbol = some quote ∧
      scaleMarket (overflowing cfg fun _ => v).lib inst quotes symbol side qty = .ok order ∧
      required (Submission.signRequest
        ⟨.submitReduceOnlyMarket, "", symbol, side, qty, true, order⟩ i nonce) := by
  let quotes : QuoteCache := Function.update (fun _ => none) symbol (some quote)
  have cached : quotes symbol = some quote := by
    simp [quotes]
  have filtered : (quotes symbol).filter cfg.lib.sane = some quote := by
    rw [cached, Option.filter_some, if_pos sane]
  obtain ⟨order, accepted⟩ : ∃ order,
      scaleMarket (overflowing cfg fun _ => v).lib inst quotes symbol side qty = .ok order :=
    scaleMarket_accepts known filtered whole
  have hands := handed (fun _ => v) (fun _ => small) inst 0 0 [.quote symbol quote]
    { State.start inst 0 0 with quotes } rfl rfl cached 0 "" rfl
  exact ⟨quotes, order, _, _, cached, accepted, asks_of_hands rfl rfl accepted rfl hands⟩

theorem fits_of_market {side : OrderSide} {quote : Option Quote} (positive : 0 < qty)
    (denotes : MarketDenotes cfg inst symbol side qty quote) :
    MarketFits cfg.lib inst symbol qty quote := by
  refine or_iff_not_imp_left.mpr fun known => or_iff_not_imp_left.mpr fun units =>
    or_iff_not_imp_left.mpr fun quoted => ?_
  have whole := units_whole positive units
  obtain ⟨quote', filtered⟩ := Option.ne_none_iff_exists'.mp quoted
  obtain ⟨rfl, sane⟩ := Option.filter_eq_some_iff.mp filtered
  have signs : ∀ v : Int, v = 1 ∨ v = 3 →
      Nearest (llround (overflowing cfg fun _ => v).lib (qty * pow10i (sizeDec inst symbol))) qty
        (sizeDec inst symbol) := by
    intro v choice
    obtain ⟨_, order, _, _, _, accepted, _, amount⟩ := market_signed known sane
      (small_int64 choice 0) (llround_whole cfg whole (by omega)) denotes
    exact (scaleMarket_ok accepted).2.2.2 ▸ amount
  exact ⟨decimals_of_nearest signs whole, fits_of_nearest signs⟩

/-- For every order the integers denote it exactly when the condition holds. -/
theorem submits_denote_iff (cfg : Config) (inst : Instruments) (symbol : String) {qty : Rat}
    (positive : 0 < qty) :
    (∀ price, LimitDenotes cfg inst symbol qty price ↔ LimitFits inst symbol qty price) ∧
      ∀ side quote, MarketDenotes cfg inst symbol side qty quote ↔
        MarketFits cfg.lib inst symbol qty quote :=
  ⟨fun _ => ⟨fits_of_limit positive, limit_of_fits⟩,
    fun _ _ => ⟨fits_of_market positive, market_of_fits⟩⟩

/-- One unit at price seven. -/
theorem submits_denote_iff_sample : (0 : Rat) < 1 ∧
    (∀ price, LimitDenotes sampleConfig sampleInstruments "ETH" 1 price ↔
      LimitFits sampleInstruments "ETH" 1 price) ∧
    ∀ side quote, MarketDenotes sampleConfig sampleInstruments "ETH" side 1 quote ↔
      MarketFits sampleConfig.lib sampleInstruments "ETH" 1 quote :=
  ⟨by norm_num, submits_denote_iff sampleConfig sampleInstruments "ETH" (by norm_num)⟩

/-- Ten to the nineteenth base units do not fit, and are signed as anything positive. -/
theorem huge_amount_misread :
    ¬ ∀ (cfg : Config) (inst : Instruments) (symbol : String) (qty price : Rat), 0 < qty →
      LimitDenotes cfg inst symbol qty price ∧
        ∀ side quote, MarketDenotes cfg inst symbol side qty quote := by
  intro always
  have denotes := (always sampleConfig (instrument 0) "ETH" (10 ^ 19) 1 (by norm_num)).1
  have fits := fits_of_limit (by norm_num) denotes
  revert fits
  unfold LimitFits Fits64
  decide +kernel

end LighterApi.Guarantees.SignedAmounts

import LighterApi.Source.Signer
import LighterApi.Guarantees.SignedAmounts

/-!
# The bound of a market close

A market order is signed with the worst price it accepts: five percent beyond the touch of
the cached quote, rounded to a tick and clamped to the venue's price field. The bid and the
ask are whole ticks, so neither the rounding nor the clamp moves the bound across the touch,
and the clamp only moves it inwards. The native call carries the bound as a C `int`.

That holds of decimals that are not negative. `pow10i` takes negative ones for none, the
bound comes out at least ten times too high, and only the clamp can bring it back to the cap
(`CapHolds`).
-/
namespace LighterApi.Guarantees.MarketBound
open LighterApi.Library.Transition
open LighterApi.Source LighterApi.Source.SendTx LighterApi.Source.Gateway
open LighterApi.Source.GatewayRun LighterApi.Source.Signer
open LighterApi.Guarantees.CallOrigins LighterApi.Guarantees.SignedAmounts
open LighterApi.Guarantees.GenuineFills LighterApi.Guarantees.OrderIndices

/-- The price argument of a native call, as the unsigned number the library reads. -/
def nativePrice : NativeCall → Option Int
  | .signCreateOrder _ _ _ price _ _ _ _ _ _ _ _ _ _ _ _ _ => some (price % 2 ^ 32)
  | _ => none

/-- A price and a whole number of ticks of the instrument are the same. -/
def IsTicks (inst : Instruments) (symbol : String) (price : Rat) (ticks : Int) : Prop :=
  price * (10 : Rat) ^ priceDec inst symbol = ticks

/-- The bound is a price of the venue's domain, at the touch or beyond it by at most five
percent and half a tick. -/
def Bounded (side : OrderSide) (bid ask bound : Int) : Prop :=
  (1 ≤ bound ∧ bound ≤ uint32Max) ∧
    (side = .Buy → ask ≤ bound ∧ (bound : Rat) ≤ 105 / 100 * ask + 1 / 2) ∧
    (side = .Sell → 95 / 100 * (bid : Rat) - 1 / 2 ≤ bound ∧ bound ≤ bid)

/-- The native library is asked to sign such a bound. -/
def SignsBounded (signer : LighterSigner) (side : OrderSide) (bid ask : Int)
    (request : SignRequest) : Prop :=
  ∃ bound, nativePrice (signer.signCall request) = some bound ∧ Bounded side bid ask bound

/-- Whatever a market close has signed is bounded, with these instruments and this quote. -/
def MarketBounded (cfg : Config) (signer : LighterSigner) (inst : Instruments) (symbol : String)
    (side : OrderSide) (qty : Rat) (quote : Quote) (bid ask : Int) : Prop :=
  Throughout cfg fun cfg s => s.instruments = inst → s.quotes symbol = some quote →
    ∀ (t : Nat) (id : String), s.threads t = .idle →
      Hands cfg s (.submitReduceOnlyMarket t id symbol side qty) t id
        (SignsBounded signer side bid ask)

/-- The price of a market close before it is scaled. -/
def boundPrice (side : OrderSide) (quote : Quote) : Rat :=
  if side = .Buy then quote.ask * (105 / 100) else quote.bid * (95 / 100)

/-- The call is refused, or the decimals are a power of ten, or the domain of prices ends
before the cap does. -/
def CapHolds (inst : Instruments) (symbol : String) (side : OrderSide) (qty : Rat) (quote : Quote)
    (bid ask : Int) : Prop :=
  let amount := qty * pow10i (sizeDec inst symbol)
  inst.symbolToMarketId symbol = none ∨ (Fits64 amount ∧ roundAway amount ≤ 0) ∨
    0 ≤ priceDec inst symbol ∨
    (Fits64 (boundPrice side quote) ∧
      (side = .Buy → (uint32Max : Rat) ≤ 105 / 100 * ask + 1 / 2) ∧
      (side = .Sell → bid = uint32Max))

/-! ## Rounding against whole ticks -/

/-- A price at or beyond a whole tick does not round back across it. -/
theorem le_roundAway {x : Rat} {n : Int} (nonneg : 0 ≤ n) (le : (n : Rat) ≤ x) : n ≤ roundAway x := by
  have positive : (0 : Rat) ≤ n := by exact_mod_cast nonneg
  unfold roundAway
  rw [if_pos (positive.trans le)]
  exact Int.le_floor.mpr (by linarith)

theorem roundAway_le {x : Rat} {n : Int} (nonneg : 0 ≤ x) (le : x ≤ n) : roundAway x ≤ n := by
  unfold roundAway
  rw [if_pos nonneg]
  have below : x + 1 / 2 < (n + 1 : Int) := by
    push_cast
    linarith
  have floored := Int.floor_lt.mpr below
  omega

variable {lib : Externals} {ticks : Int}

/-- A scaled price of the uint32 domain, five percent up or down, is rounded as specified. -/
theorem llround_scaled (x : Rat) (nonneg : 0 ≤ x) (small : x ≤ 105 / 100 * (uint32Max : Rat)) :
    llround lib x = roundAway x := by
  have upper : roundAway x ≤ 2 * uint32Max := by
    refine roundAway_le nonneg (small.trans ?_)
    unfold uint32Max
    norm_num
  have lower := roundAway_nonneg nonneg
  unfold uint32Max at upper
  exact llround_of_fits lib ⟨by omega, by omega⟩

/-- The clamp keeps what is in the domain. -/
theorem clamp_bounds (n : Int) : 1 ≤ max 1 (min n uint32Max) ∧ max 1 (min n uint32Max) ≤ uint32Max := by
  unfold uint32Max
  omega

theorem buy_bounded (bid : Int) (low : 1 ≤ ticks) (high : ticks ≤ uint32Max) :
    Bounded .Buy bid ticks (max 1 (min (llround lib (ticks * (105 / 100))) uint32Max)) := by
  have low' : (1 : Rat) ≤ ticks := by exact_mod_cast low
  have high' : (ticks : Rat) ≤ uint32Max := by exact_mod_cast high
  have rounded : llround lib ((ticks : Rat) * (105 / 100)) = roundAway (ticks * (105 / 100)) :=
    llround_scaled _ (by linarith) (by linarith)
  have touch : ticks ≤ roundAway ((ticks : Rat) * (105 / 100)) :=
    le_roundAway (by omega) (by linarith)
  have close := (abs_le.mp (roundAway_close ((ticks : Rat) * (105 / 100)))).2
  refine ⟨clamp_bounds _, fun _ => ?_, fun sell => absurd sell (by decide)⟩
  rw [rounded]
  constructor
  · omega
  · have inwards : max 1 (min (roundAway ((ticks : Rat) * (105 / 100))) uint32Max) ≤
        roundAway ((ticks : Rat) * (105 / 100)) := by
      omega
    have inwards' : ((max 1 (min (roundAway ((ticks : Rat) * (105 / 100))) uint32Max) : Int) : Rat) ≤
        roundAway ((ticks : Rat) * (105 / 100)) := by
      exact_mod_cast inwards
    linarith

theorem sell_bounded (ask : Int) (low : 1 ≤ ticks) (high : ticks ≤ uint32Max) :
    Bounded .Sell ticks ask (max 1 (min (llround lib (ticks * (95 / 100))) uint32Max)) := by
  have low' : (1 : Rat) ≤ ticks := by exact_mod_cast low
  have high' : (ticks : Rat) ≤ uint32Max := by exact_mod_cast high
  have rounded : llround lib ((ticks : Rat) * (95 / 100)) = roundAway (ticks * (95 / 100)) :=
    llround_scaled _ (by linarith) (by linarith)
  have touch : roundAway ((ticks : Rat) * (95 / 100)) ≤ ticks :=
    roundAway_le (by linarith) (by linarith)
  have close := (abs_le.mp (roundAway_close ((ticks : Rat) * (95 / 100)))).1
  refine ⟨clamp_bounds _, fun buy => absurd buy (by decide), fun _ => ?_⟩
  rw [rounded]
  constructor
  · have outwards : roundAway ((ticks : Rat) * (95 / 100)) ≤
        max 1 (min (roundAway ((ticks : Rat) * (95 / 100))) uint32Max) := by
      omega
    have outwards' : (roundAway ((ticks : Rat) * (95 / 100)) : Rat) ≤
        (max 1 (min (roundAway ((ticks : Rat) * (95 / 100))) uint32Max) : Int) := by
      exact_mod_cast outwards
    linarith
  · omega

/-! ## Negative decimals -/

/-- A tick of negative decimals is worth ten of the units the code scales to, or more. -/
theorem ten_le_of_isTicks {inst : Instruments} {symbol : String} {price : Rat}
    (neg : priceDec inst symbol < 0) (whole : IsTicks inst symbol price ticks) (low : 1 ≤ ticks) :
    10 * (ticks : Rat) ≤ price := by
  have one : (1 : Rat) ≤ ticks := by
    exact_mod_cast low
  have tick_pos : (0 : Rat) < 10 ^ priceDec inst symbol := zpow_pos (by norm_num) _
  have tenth : (10 : Rat) ^ priceDec inst symbol ≤ 10 ^ (-1 : Int) :=
    zpow_le_zpow_right₀ (by norm_num) (by omega)
  unfold IsTicks at whole
  have positive : 0 < price := by
    by_contra negative
    have := mul_nonpos_of_nonpos_of_nonneg (not_lt.mp negative) tick_pos.le
    linarith
  have scaled := mul_le_mul_of_nonneg_left tenth positive.le
  norm_num at scaled
  linarith

/-- A bound of nine times the touch and more is within the cap only at the end of the domain. -/
theorem clamp_bounded_iff {side : OrderSide} {bid ask rounded : Int} (low : 1 ≤ bid)
    (spread : bid ≤ ask) (high : ask ≤ uint32Max)
    (beyond : 9 * (if side = .Buy then ask else bid) ≤ rounded) :
    Bounded side bid ask (max 1 (min rounded uint32Max)) ↔
      (side = .Buy → (uint32Max : Rat) ≤ 105 / 100 * ask + 1 / 2) ∧
        (side = .Sell → bid = uint32Max) := by
  have low' : (1 : Rat) ≤ bid := by
    exact_mod_cast low
  have spread' : (bid : Rat) ≤ ask := by
    exact_mod_cast spread
  have domain := clamp_bounds rounded
  -- Below the end of the domain the clamp keeps the bound, which is beyond the cap.
  have kept : rounded < uint32Max → max 1 (min rounded uint32Max) = rounded := by
    split at beyond <;> omega
  have cut : uint32Max ≤ rounded → max 1 (min rounded uint32Max) = uint32Max := by
    unfold uint32Max at *
    omega
  cases side with
  | Buy =>
    rw [if_pos rfl] at beyond
    have beyond' : 9 * (ask : Rat) ≤ rounded := by
      exact_mod_cast beyond
    constructor
    · rintro ⟨_, buy, _⟩
      obtain ⟨_, capped⟩ := buy rfl
      rcases lt_or_ge rounded uint32Max with inside | outside
      · rw [kept inside] at capped
        linarith
      · rw [cut outside] at capped
        exact ⟨fun _ => capped, fun sell => absurd sell (by decide)⟩
    · rintro ⟨buy, _⟩
      have capped := buy rfl
      have outside : uint32Max ≤ rounded := by
        have : (uint32Max : Rat) ≤ rounded := by
          linarith
        exact_mod_cast this
      refine ⟨domain, fun _ => ?_, fun sell => absurd sell (by decide)⟩
      rw [cut outside]
      exact ⟨high, capped⟩
  | Sell =>
    rw [if_neg (by decide)] at beyond
    constructor
    · rintro ⟨_, _, sell⟩
      obtain ⟨_, capped⟩ := sell rfl
      refine ⟨fun buy => absurd buy (by decide), fun _ => ?_⟩
      rcases lt_or_ge rounded uint32Max with inside | outside
      · rw [kept inside] at capped
        omega
      · rw [cut outside] at capped
        omega
    · rintro ⟨_, sell⟩
      obtain rfl := sell rfl
      refine ⟨domain, fun buy => absurd buy (by decide), fun _ => ?_⟩
      rw [cut (by omega)]
      exact ⟨by linarith, le_refl _⟩

/-- No touch lets both ends of the domain through. -/
theorem not_bounded_both {side : OrderSide} {bid ask : Int} (least : Bounded side bid ask 1)
    (most : Bounded side bid ask uint32Max) : False := by
  obtain ⟨_, buy_least, sell_least⟩ := least
  obtain ⟨_, buy_most, sell_most⟩ := most
  unfold uint32Max at *
  cases side with
  | Buy =>
    have close : (ask : Rat) ≤ 1 := by
      exact_mod_cast (buy_least rfl).1
    have far := (buy_most rfl).2
    norm_num at far
    linarith
  | Sell =>
    have close := (sell_least rfl).1
    have far : (4294967295 : Rat) ≤ bid := by
      exact_mod_cast (sell_most rfl).2
    norm_num at close
    linarith

/-! ## From the quote to the native call -/

variable {inst : Instruments} {quotes : QuoteCache} {symbol : String} {side : OrderSide} {qty : Rat}
  {scaled : Scaled} {quote : Quote} {bid ask : Int}

theorem scaleMarket_price (accepted : scaleMarket lib inst quotes symbol side qty = .ok scaled)
    (cached : quotes symbol = some quote) (sane : lib.sane quote = true) :
    scaled.price = max 1 (min (llround lib (boundPrice side quote *
      pow10i (priceDec inst symbol))) uint32Max) := by
  have whole := scaleMarket_whole accepted
  unfold scaleMarket at accepted
  split at accepted
  · exact absurd accepted (by simp)
  · dsimp only at accepted
    rw [if_neg whole.not_ge, cached, Option.filter_some, if_pos sane] at accepted
    exact Except.ok.inj accepted ▸ rfl

/-- At decimals that are not negative the bound is the touch in ticks, five percent beyond. -/
theorem bounded_of_nonneg (nonneg : 0 ≤ priceDec inst symbol)
    (bid_ticks : IsTicks inst symbol quote.bid bid) (ask_ticks : IsTicks inst symbol quote.ask ask)
    (low : 1 ≤ bid) (spread : bid ≤ ask) (high : ask ≤ uint32Max) :
    Bounded side bid ask (max 1 (min (llround lib (boundPrice side quote *
      pow10i (priceDec inst symbol))) uint32Max)) := by
  unfold IsTicks at bid_ticks ask_ticks
  rw [pow10i_eq_zpow nonneg]
  unfold boundPrice
  cases side with
  | Buy =>
    rw [if_pos rfl, mul_right_comm, ask_ticks]
    exact buy_bounded bid (low.trans spread) high
  | Sell =>
    rw [if_neg (by decide), mul_right_comm, bid_ticks]
    exact sell_bounded ask low (spread.trans high)

/-- At negative ones it is the price itself, which is ten times the ticks or more. -/
theorem bounded_iff_of_neg (neg : priceDec inst symbol < 0)
    (bid_ticks : IsTicks inst symbol quote.bid bid) (ask_ticks : IsTicks inst symbol quote.ask ask)
    (low : 1 ≤ bid) (spread : bid ≤ ask) (high : ask ≤ uint32Max) :
    Bounded side bid ask (max 1 (min (roundAway (boundPrice side quote)) uint32Max)) ↔
      (side = .Buy → (uint32Max : Rat) ≤ 105 / 100 * ask + 1 / 2) ∧
        (side = .Sell → bid = uint32Max) := by
  refine clamp_bounded_iff low spread high (le_roundAway ?_ ?_)
  · split <;> omega
  · have bid_low := ten_le_of_isTicks neg bid_ticks low
    have ask_low := ten_le_of_isTicks neg ask_ticks (low.trans spread)
    have one : (1 : Rat) ≤ bid := by
      exact_mod_cast low
    have one' : (bid : Rat) ≤ ask := by
      exact_mod_cast spread
    unfold boundPrice
    split
    · push_cast
      linarith
    · push_cast
      linarith

/-- The `int` of the call has the bits of the bound. -/
theorem signsBounded_iff (signer : LighterSigner) {sub : Submission}
    (market : sub.kind = .submitReduceOnlyMarket)
    (domain : 1 ≤ sub.scaled.price ∧ sub.scaled.price ≤ uint32Max) (i nonce : Int) :
    SignsBounded signer side bid ask (sub.signRequest i nonce) ↔
      Bounded side bid ask sub.scaled.price := by
  have carried : nativePrice (signer.signCall (sub.signRequest i nonce)) =
      some sub.scaled.price := by
    unfold Submission.signRequest
    rw [market]
    exact congrArg some (asSignedBits_emod (by linarith [domain.1]) domain.2)
  unfold SignsBounded
  rw [carried]
  constructor
  · rintro ⟨bound, same, bounded⟩
    obtain rfl := Option.some.inj same
    exact bounded
  · intro bounded
    exact ⟨_, rfl, bounded⟩

section Exact

variable {cfg : Config} {signer : LighterSigner} (sane : cfg.lib.sane quote = true)
  (bid_ticks : IsTicks inst symbol quote.bid bid) (ask_ticks : IsTicks inst symbol quote.ask ask)
  (low : 1 ≤ bid) (spread : bid ≤ ask) (high : ask ≤ uint32Max)
include sane bid_ticks ask_ticks low spread high

theorem bounded_of_cap (cap : CapHolds inst symbol side qty quote bid ask) :
    MarketBounded cfg signer inst symbol side qty quote bid ask := by
  intro overflow _ instruments counter nonce actions s _ same quoted t id idle
  refine hands_of_begin idle rfl (fun failure refused => scaleMarket_refuses refused) ?_
  intro order accepted i nonce'
  rw [same] at accepted
  obtain ⟨known, _, whole, _⟩ := scaleMarket_ok accepted
  have price := scaleMarket_price accepted quoted sane
  refine (signsBounded_iff signer rfl (price ▸ clamp_bounds _) i nonce').mpr ?_
  change Bounded side bid ask order.price
  rw [price]
  rcases cap with unknown | ⟨amount_fits, none_left⟩ | nonneg | ⟨fits, at_end⟩
  · exact absurd unknown known
  · rw [llround_of_fits _ amount_fits] at whole
    omega
  · exact bounded_of_nonneg nonneg bid_ticks ask_ticks low spread high
  · rcases lt_or_ge (priceDec inst symbol) 0 with neg | nonneg
    · rw [pow10i_of_neg neg, mul_one, llround_of_fits _ fits]
      exact (bounded_iff_of_neg neg bid_ticks ask_ticks low spread high).mpr at_end
    · exact bounded_of_nonneg nonneg bid_ticks ask_ticks low spread high

theorem cap_of_bounded (bounded : MarketBounded cfg signer inst symbol side qty quote bid ask) :
    CapHolds inst symbol side qty quote bid ask := by
  refine or_iff_not_imp_left.mpr fun known => or_iff_not_imp_left.mpr fun amount =>
    or_iff_not_imp_left.mpr fun negative => ?_
  have neg := not_le.mp negative
  -- Whatever an overflow returns, the close is accepted and its bound is signed.
  have signs : ∀ v : Int, v = 1 ∨ v = uint32Max → Bounded side bid ask
      (max 1 (min (llround (overflowing cfg fun _ => v).lib (boundPrice side quote)) uint32Max)) := by
    intro v choice
    have small : 0 < v ∧ -(2 ^ 63) ≤ v ∧ v < 2 ^ 63 := by
      unfold uint32Max at choice
      omega
    have whole : 0 < llround (overflowing cfg fun _ => v).lib
        (qty * pow10i (sizeDec inst symbol)) := by
      by_cases fits : Fits64 (qty * pow10i (sizeDec inst symbol))
      · rw [llround_of_fits _ fits]
        exact not_le.mp fun none_left => amount ⟨fits, none_left⟩
      · rw [llround_of_overflow _ fits]
        exact small.1
    obtain ⟨quotes, order, i, nonce, cached, accepted, asked⟩ :=
      market_signed known sane small.2 whole bounded
    have price := scaleMarket_price accepted cached sane
    have signed := (signsBounded_iff signer rfl (price ▸ clamp_bounds _) _ _).mp asked
    change Bounded side bid ask order.price at signed
    rw [price, pow10i_of_neg neg, mul_one] at signed
    exact signed
  have least := signs 1 (Or.inl rfl)
  have most := signs uint32Max (Or.inr rfl)
  have fits : Fits64 (boundPrice side quote) := by
    by_contra overflows
    rw [llround_of_overflow _ overflows] at least most
    exact not_bounded_both least most
  rw [llround_of_fits _ fits] at least
  exact ⟨fits, (bounded_iff_of_neg neg bid_ticks ask_ticks low spread high).mp least⟩

/-- With a sane quote of whole ticks every close that is signed is marketable and capped
exactly when the condition holds. It is refused only for its symbol or its quantity: any
other gets to its signing once the tx lock is free. -/
theorem market_bound_iff :
    (MarketBounded cfg signer inst symbol side qty quote bid ask ↔
      CapHolds inst symbol side qty quote bid ask) ∧
    ∀ (s : State) (t : Nat) (id : String), s.instruments = inst → s.quotes symbol = some quote →
      s.threads t = .idle → inst.symbolToMarketId symbol ≠ none →
      0 < llround cfg.lib (qty * pow10i (sizeDec inst symbol)) → s.txOwner = none →
      ∃ s' job, run (step cfg) s
          [.submitReduceOnlyMarket t id symbol side qty, .insert t, .lockTx t] = some s' ∧
        s'.threads t = .locked job := by
  refine ⟨⟨cap_of_bounded sane bid_ticks ask_ticks low spread high,
    bounded_of_cap sane bid_ticks ask_ticks low spread high⟩, ?_⟩
  intro s t id same cached idle known whole free
  have filtered : (s.quotes symbol).filter cfg.lib.sane = some quote := by
    rw [cached, Option.filter_some, if_pos sane]
  obtain ⟨order, accepted⟩ : ∃ order,
      scaleMarket cfg.lib inst s.quotes symbol side qty = .ok order :=
    scaleMarket_accepts known filtered whole
  have begins : step cfg s (.submitReduceOnlyMarket t id symbol side qty) =
      beginSubmit s t .submitReduceOnlyMarket id symbol side qty true (.ok order) := by
    rw [step, same, accepted]
  obtain ⟨s', reached, at_locked, _⟩ := submit_locks idle free begins
  exact ⟨s', _, reached, at_locked⟩

end Exact

/-- 19 bid, 20 ask in whole ticks. -/
theorem market_bound_iff_sample :
    (MarketBounded sampleConfig ⟨2, 7, 304⟩ (instrument 0) "ETH" .Buy 1 ⟨19, 20, 0⟩ 19 20 ↔
      CapHolds (instrument 0) "ETH" .Buy 1 ⟨19, 20, 0⟩ 19 20) ∧
    ∀ (s : State) (t : Nat) (id : String), s.instruments = instrument 0 →
      s.quotes "ETH" = some ⟨19, 20, 0⟩ → s.threads t = .idle →
      (instrument 0).symbolToMarketId "ETH" ≠ none →
      0 < llround sampleConfig.lib (1 * pow10i (sizeDec (instrument 0) "ETH")) →
      s.txOwner = none →
      ∃ s' job, run (step sampleConfig) s
          [.submitReduceOnlyMarket t id "ETH" .Buy 1, .insert t, .lockTx t] = some s' ∧
        s'.threads t = .locked job := by
  have whole : IsTicks (instrument 0) "ETH" 19 19 ∧ IsTicks (instrument 0) "ETH" 20 20 := by
    unfold IsTicks
    decide +kernel
  exact market_bound_iff rfl whole.1 whole.2 (by decide) (by decide) (by decide)

/-- A tick of this instrument is ten. -/
def coarseInstrument : Instruments := { instrument 0 with priceDecimals := fun _ => some (-1) }

/-- A touch of ten such ticks is closed at up to 105 ticks instead of 11. -/
theorem coarse_tick_uncapped :
    ¬ ∀ (cfg : Config) (signer : LighterSigner) (inst : Instruments) (symbol : String)
        (side : OrderSide) (qty : Rat) (quote : Quote) (bid ask : Int),
      cfg.lib.sane quote = true → IsTicks inst symbol quote.bid bid →
      IsTicks inst symbol quote.ask ask → 1 ≤ bid → bid ≤ ask → ask ≤ uint32Max →
      MarketBounded cfg signer inst symbol side qty quote bid ask := by
  intro always
  have whole : IsTicks coarseInstrument "ETH" 100 10 := by
    unfold IsTicks
    decide +kernel
  have bounded := always sampleConfig ⟨2, 7, 304⟩ coarseInstrument "ETH" .Buy 1 ⟨100, 100, 0⟩ 10 10
    rfl whole whole (by decide) (by decide) (by decide)
  have cap := cap_of_bounded rfl whole whole (by decide) (by decide) (by decide) bounded
  revert cap
  unfold CapHolds Fits64
  decide +kernel

end LighterApi.Guarantees.MarketBound

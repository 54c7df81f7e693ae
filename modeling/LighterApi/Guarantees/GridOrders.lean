import LighterApi.Guarantees.MarketBound
import LighterApi.Guarantees.SymbolMarkets

/-!
# Orders on the reported grid are signed exactly

`instrumentSpec` reports the steps of an instrument, `loadInstruments` keeps its decimals,
and a submit scales by these. Steps and decimals come from one asset (`Consistent`), so an
order near so many quantity steps at a price near so many ticks is accepted and signed with
these two integers, whatever the venue listed, also with negative decimals. Reloads between
the call and its signing change nothing. All this is in exact rational arithmetic.
-/
namespace LighterApi.Guarantees.GridOrders
open LighterApi.Library.Transition
open LighterApi.Source LighterApi.Source.SendTx LighterApi.Source.Gateway
open LighterApi.Source.GatewayRun
open LighterApi.Source.Listings (PerpAsset InstrumentSpec Specs Markets)
open LighterApi.Guarantees.CallOrigins LighterApi.Guarantees.SignedAmounts
open LighterApi.Guarantees.MarketBound LighterApi.Guarantees.OrderIndices

/-! ## Steps and decimals -/

/-- What a gateway with these instruments would use for the symbol comes from the asset. -/
structure Uses (inst : Instruments) (symbol : String) (asset : PerpAsset) : Prop where
  market : inst.symbolToMarketId symbol = some asset.marketId
  size : inst.sizeDecimals symbol = some asset.sizeDecimals
  price : inst.priceDecimals symbol = some asset.priceDecimals

/-- Every spec in the cache is that of the asset whose id and decimals are used. -/
def Consistent (specs : Specs) : Prop :=
  ∀ symbol spec, specs.specCache symbol = some spec →
    ∃ asset : PerpAsset, spec = asset.spec ∧ Uses specs.instruments symbol asset

theorem consistent_empty : Consistent .empty := by
  intro symbol spec cached
  exact absurd cached (by simp [Specs.empty])

theorem Consistent.loadAsset {specs : Specs} (h : Consistent specs) (asset : PerpAsset) :
    Consistent (specs.loadAsset asset) := by
  intro symbol spec cached
  unfold Specs.loadAsset at cached ⊢
  dsimp only at cached
  by_cases here : symbol = asset.symbol
  · subst here
    rw [Function.update_self] at cached
    refine ⟨asset, (Option.some.inj cached).symm, ?_, ?_, ?_⟩ <;> exact Function.update_self ..
  · rw [Function.update_of_ne here] at cached
    obtain ⟨asset', same, uses⟩ := h symbol spec cached
    refine ⟨asset', same, ?_, ?_, ?_⟩
    · exact (Function.update_of_ne here ..).trans uses.market
    · exact (Function.update_of_ne here ..).trans uses.size
    · exact (Function.update_of_ne here ..).trans uses.price

theorem Consistent.loadInstruments {specs : Specs} (h : Consistent specs)
    (reply : Except String (List PerpAsset)) : Consistent (specs.loadInstruments reply) := by
  unfold Specs.loadInstruments
  cases reply with
  | error what => exact h
  | ok assets =>
    dsimp only
    generalize Listings.getPerpetualAssets assets false = listed
    induction listed generalizing specs with
    | nil => exact h
    | cons asset rest ih => exact ih (h.loadAsset asset)

theorem Consistent.instrumentSpec {specs : Specs} (h : Consistent specs) (symbol : String)
    (reply : Except String (List PerpAsset)) : Consistent (specs.instrumentSpec symbol reply).1 := by
  unfold Specs.instrumentSpec
  split
  · exact h
  · split
    · exact h
    · rename_i assets
      dsimp only
      split
      · exact h.loadInstruments _
      · exact h.loadInstruments _

theorem consistent_of_run {actions : List Listings.Action} {m : Markets}
    (listed : run Listings.step .start actions = some m) : Consistent m.specs := by
  refine run_invariant (I := fun m : Markets => Consistent m.specs) ?_ consistent_empty listed
  intro before a after h taken
  cases a with
  | loadInstruments reply =>
    obtain rfl := Option.some.inj taken
    exact h.loadInstruments reply
  | instrumentSpec symbol reply =>
    obtain rfl := Option.some.inj taken
    exact h.instrumentSpec symbol reply
  | orderBook marketId quote =>
    obtain rfl := Option.some.inj taken
    unfold Markets.onOrderBook
    split
    · exact h
    · exact h

/-- What `instrumentSpec` reports is in the cache that it leaves. -/
theorem cached_of_reported {specs : Specs} {symbol : String} {reply : Except String (List PerpAsset)}
    {spec : InstrumentSpec} (reported : (specs.instrumentSpec symbol reply).2 = .ok spec) :
    (specs.instrumentSpec symbol reply).1.specCache symbol = some spec := by
  unfold Specs.instrumentSpec at reported ⊢
  cases known : specs.specCache symbol with
  | some spec' =>
    rw [known] at reported
    exact known.trans (congrArg some (Except.ok.inj reported))
  | none =>
    rw [known] at reported
    cases reply with
    | error what => exact absurd reported (by simp)
    | ok assets =>
      dsimp only at reported ⊢
      cases loaded : (specs.loadInstruments (.ok assets)).specCache symbol with
      | some spec' =>
        rw [loaded] at reported
        exact loaded.trans (congrArg some (Except.ok.inj reported))
      | none =>
        rw [loaded] at reported
        exact absurd reported (by simp)

/-! ## Rounding to the grid -/

/-- The amount is closer to so many steps than to any other number of them. -/
def Near (n : Int) (amount step : Rat) : Prop := |amount - n * step| < step / 2

theorem roundAway_near {x : Rat} {n : Int} (near : |x - n| < 1 / 2) : roundAway x = n := by
  have close := roundAway_close x
  have apart : |((roundAway x - n : Int) : Rat)| < 1 := by
    push_cast
    calc |(roundAway x : Rat) - n| ≤ |(roundAway x : Rat) - x| + |x - n| := abs_sub_le _ _ _
      _ < 1 := by linarith
  have same : |roundAway x - n| < 1 := by exact_mod_cast apart
  have zero := Int.abs_lt_one_iff.mp same
  omega

/-- An amount near so many steps is scaled to their number. -/
theorem llround_near (lib : Externals) {n : Int} (nonneg : 0 ≤ n) (fits : n < 2 ^ 63)
    {decimals : Int} {amount : Rat} (near : Near n amount (1 / pow10i decimals)) :
    llround lib (amount * pow10i decimals) = n := by
  have power : 0 < pow10i decimals := FillConservation.pow10i_pos decimals
  have scaled : |amount * pow10i decimals - n| < 1 / 2 := by
    have unit : amount * pow10i decimals - n =
        (amount - n * (1 / pow10i decimals)) * pow10i decimals := by
      field_simp
    have bound := mul_lt_mul_of_pos_right near power
    rw [unit, abs_mul, abs_of_pos power]
    calc |amount - n * (1 / pow10i decimals)| * pow10i decimals
        < 1 / pow10i decimals / 2 * pow10i decimals := bound
      _ = 1 / 2 := by field_simp
  have whole := roundAway_near scaled
  rw [llround_of_fits, whole]
  unfold Fits64
  rw [whole]
  omega

section Scaling

variable {lib : Externals} {inst : Instruments} {symbol : String} {asset : PerpAsset} {k j : Int}
  {qty price : Rat} (uses : Uses inst symbol asset) (whole : 1 ≤ k) (fits : k < 2 ^ 63)
  (units : Near k qty asset.spec.qtyStep)
include uses whole fits units

theorem scaleLimit_near (positive : 1 ≤ j) (within : j ≤ uint32Max)
    (ticks : Near j price asset.spec.tickSize) :
    scaleLimit lib inst symbol qty price = .ok ⟨asset.marketId, k, j⟩ := by
  have amount : llround lib (qty * pow10i (sizeDec inst symbol)) = k := by
    unfold sizeDec
    rw [uses.size, Option.getD_some]
    exact llround_near lib (by omega) fits units
  have limit : llround lib (price * pow10i (priceDec inst symbol)) = j := by
    unfold priceDec
    rw [uses.price, Option.getD_some]
    unfold uint32Max at within
    exact llround_near lib (by omega) (by omega) ticks
  rw [scaleLimit_ok_iff]
  dsimp only
  rw [amount, limit]
  exact ⟨uses.market, by omega, by omega, within, rfl, rfl⟩

theorem scaleMarket_near {quotes : QuoteCache} {quote : Quote} (side : OrderSide)
    (sane : (quotes symbol).filter lib.sane = some quote) :
    ∃ bound, 1 ≤ bound ∧ bound ≤ uint32Max ∧
      scaleMarket lib inst quotes symbol side qty = .ok ⟨asset.marketId, k, bound⟩ := by
  have amount : llround lib (qty * pow10i asset.sizeDecimals) = k :=
    llround_near lib (by omega) fits units
  unfold scaleMarket
  rw [uses.market, uses.size, uses.price, sane]
  dsimp only [Option.getD_some]
  rw [amount, if_neg (by omega)]
  refine ⟨_, le_max_left _ _, ?_, rfl⟩
  unfold uint32Max
  omega

end Scaling

/-! ## From the call to the signer -/

variable {cfg : Config} {s : State} {t : Nat}

/-- The call is accepted. Whatever the others do meanwhile, its thread has this request signed
once it finds the tx lock free, with the nonce of that moment, and it has nothing else signed
before it returns. -/
def Signs (cfg : Config) (s : State) (a : Action) (t : Nat) (request : Int → SignRequest) : Prop :=
  ∃ m, step cfg s a = some m ∧
    (∃ sub, m.threads t = .allocated sub s.clientOrderCounter) ∧
    (∀ later m', run (step cfg) m later = some m' → (∀ b ∈ later, b.thread ≠ some t) →
      m'.txOwner = none → ∃ s', run (step cfg) m' [.insert t, .lockTx t, .sign t (.ok ())] = some s' ∧
        s'.trace.head? = some (.signing (request m'.nonces.nextNonce))) ∧
    ∀ later s' job, run (step cfg) m later = some s' → .finish t ∉ later →
      s'.threads t = .locked job →
      job.signRequest s'.nonces.nextNonce = request s'.nonces.nextNonce

/-- The thread of an accepted submit has it signed when it finds the tx lock free. -/
theorem allocated_signs {sub : Submission} {i : Int} (at_stage : s.threads t = .allocated sub i)
    (free : s.txOwner = none) :
    ∃ s', run (step cfg) s [.insert t, .lockTx t, .sign t (.ok ())] = some s' ∧
      s'.trace.head? = some (.signing (sub.signRequest i s.nonces.nextNonce)) := by
  obtain ⟨locked, reached, at_locked, nonces, _⟩ := allocated_locks at_stage free
  let signed : State := (locked.log (.signing (sub.signRequest i locked.nonces.nextNonce))).goto t
    (.signed (.submit sub i) locked.nonces.nextNonce)
  have taken : step cfg locked (.sign t (.ok ())) = some signed := by
    simp [step, signTx, at_locked, signed, Job.signRequest]
  refine ⟨signed, ?_, by rw [← nonces]; rfl⟩
  exact run_append_eq_some.mpr ⟨locked, reached, run_cons_eq_some.mpr ⟨_, taken, rfl⟩⟩

theorem signs_of_begin {a : Action} {kind : SubmitKind} {id symbol : String} {side : OrderSide}
    {qty : Rat} {reduceOnly : Bool} {order : Scaled} (idle : s.threads t = .idle)
    (begins : step cfg s a = beginSubmit s t kind id symbol side qty reduceOnly (.ok order)) :
    Signs cfg s a t (Submission.signRequest ⟨kind, id, symbol, side, qty, reduceOnly, order⟩
      s.clientOrderCounter) := by
  unfold beginSubmit at begins
  rw [idle] at begins
  let sub : Submission := ⟨kind, id, symbol, side, qty, reduceOnly, order⟩
  let allocated : State := { s.goto t (.allocated sub s.clientOrderCounter) with
    clientOrderCounter := s.clientOrderCounter + 1 }
  have at_stage : allocated.threads t = .allocated sub s.clientOrderCounter := by
    simp [allocated, State.goto]
  refine ⟨allocated, begins, ⟨sub, at_stage⟩, ?_, ?_⟩
  · intro later m' reached aside free
    exact allocated_signs ((threads_of_run_aside aside reached).trans at_stage) free
  · intro later s' job reached stays at_locked
    have kept : jobOf (s'.threads t) = some (.submit sub s.clientOrderCounter) :=
      job_of_run (by rw [at_stage]; rfl) stays reached
    rw [at_locked] at kept
    obtain rfl := Option.some.inj kept
    rfl

/-- The instruments tell the same of the symbol. -/
structure Agree (symbol : String) (inst inst' : Instruments) : Prop where
  market : inst'.symbolToMarketId symbol = inst.symbolToMarketId symbol
  size : inst'.sizeDecimals symbol = inst.sizeDecimals symbol
  price : inst'.priceDecimals symbol = inst.priceDecimals symbol

theorem Uses.agree {inst inst' : Instruments} {symbol : String} {asset : PerpAsset}
    (h : Uses inst symbol asset) (agree : Agree symbol inst inst') : Uses inst' symbol asset :=
  ⟨agree.market.trans h.market, agree.size.trans h.size, agree.price.trans h.price⟩

/-- After any reloads: an amount near `k` of the quantity steps, at a price near `j` of the
ticks that `instrumentSpec` reports, is accepted and signed as `k` and `j`, for the symbol's
market, as long as what is listed of the symbol is the same. A market close is signed for `k`
units likewise. -/
theorem grid_orders_signed_exactly (cfg : Config) {actions : List Listings.Action} {m : Markets}
    (listed : run Listings.step .start actions = some m) {symbol : String}
    {reply : Except String (List PerpAsset)} {spec : InstrumentSpec}
    (reported : (m.specs.instrumentSpec symbol reply).2 = .ok spec)
    (current : Agree symbol (m.specs.instrumentSpec symbol reply).1.instruments s.instruments)
    (idle : s.threads t = .idle) {k j : Int} (whole : 1 ≤ k) (fits : k < 2 ^ 63)
    (positive : 1 ≤ j) (within : j ≤ uint32Max) {qty price : Rat}
    (units : Near k qty spec.qtyStep) (ticks : Near j price spec.tickSize) :
    ∃ marketId, s.instruments.symbolToMarketId symbol = some marketId ∧
      (∀ id side reduceOnly, Signs cfg s
        (.submitPostOnlyLimit t id symbol side qty price reduceOnly) t
        fun nonce => .create marketId s.clientOrderCounter k j (decide (side = .Sell)) .Limit
          .PostOnly reduceOnly nonce (-1)) ∧
      ∀ id side quote, (s.quotes symbol).filter cfg.lib.sane = some quote →
        ∃ bound, 1 ≤ bound ∧ bound ≤ uint32Max ∧ Signs cfg s
          (.submitReduceOnlyMarket t id symbol side qty) t
          fun nonce => .create marketId s.clientOrderCounter k bound (decide (side = .Sell)) .Market
            .ImmediateOrCancel true nonce 0 := by
  have consistent := (consistent_of_run listed).instrumentSpec symbol reply
  obtain ⟨asset, rfl, used⟩ := consistent symbol spec (cached_of_reported reported)
  have uses := used.agree current
  refine ⟨asset.marketId, uses.market, fun id side reduceOnly => ?_, fun id side quote sane => ?_⟩
  · have begins : step cfg s (.submitPostOnlyLimit t id symbol side qty price reduceOnly) =
        beginSubmit s t .submitPostOnlyLimit id symbol side qty reduceOnly
          (.ok ⟨asset.marketId, k, j⟩) := by
      rw [← scaleLimit_near uses whole fits units positive within ticks]
      rfl
    exact signs_of_begin idle begins
  · obtain ⟨bound, least, most, scales⟩ := scaleMarket_near uses whole fits units side sane
    have begins : step cfg s (.submitReduceOnlyMarket t id symbol side qty) =
        beginSubmit s t .submitReduceOnlyMarket id symbol side qty true
          (.ok ⟨asset.marketId, k, bound⟩) := by
      rw [← scales]
      rfl
    exact ⟨bound, least, most, signs_of_begin idle begins⟩

/-- One asset with four and two decimals. -/
def sampleListing : List Listings.Action :=
  [.loadInstruments (.ok [⟨"ETH", 7, "active", 4, 2, 1 / 1000, 10⟩])]

/-- A little more than two and a half of the asset, at the price 3000.01. -/
theorem grid_orders_signed_exactly_sample : ∃ m spec,
    run Listings.step .start sampleListing = some m ∧
      (m.specs.instrumentSpec "ETH" (.error "")).2 = .ok spec ∧
      Signs sampleConfig (.start m.specs.instruments 100 0)
        (.submitPostOnlyLimit 0 "a" "ETH" .Sell (5 / 2 + 1 / 10 ^ 17) (300001 / 100) false)
        0 fun nonce => .create 7 100 25000 300001 true .Limit .PostOnly false nonce (-1) := by
  have listed : ∃ m, run Listings.step .start sampleListing = some m ∧
      ((m.specs.instrumentSpec "ETH" (.error "")).2.toOption =
          some ⟨"ETH", 1 / 100, 1 / 10000, 1 / 1000, 0, 10⟩ ∧
        m.specs.instruments.symbolToMarketId "ETH" = some 7) :=
    exists_run (by decide +kernel)
  obtain ⟨m, reached, told, market⟩ := listed
  cases reported : (m.specs.instrumentSpec "ETH" (.error "")).2 with
  | error what =>
    rw [reported] at told
    exact absurd told (by simp [Except.toOption])
  | ok spec =>
    rw [reported] at told
    obtain rfl := Option.some.inj told
    have kept : (m.specs.instrumentSpec "ETH" (.error "")).1 = m.specs := by
      unfold Specs.instrumentSpec
      split <;> rfl
    let s : State := .start m.specs.instruments 100 0
    have current : Agree "ETH" (m.specs.instrumentSpec "ETH" (.error "")).1.instruments
        s.instruments := by
      rw [kept]
      exact ⟨rfl, rfl, rfl⟩
    have idle : s.threads 0 = .idle := rfl
    have units : Near 25000 (5 / 2 + 1 / 10 ^ 17) (1 / 10000) := by
      unfold Near
      norm_num [abs_lt]
    have ticks : Near 300001 (300001 / 100) (1 / 100) := by
      unfold Near
      norm_num
    obtain ⟨marketId, named, signs, _⟩ := grid_orders_signed_exactly sampleConfig reached reported
      current idle (by decide) (by decide) (by decide) (by decide) units ticks
    obtain rfl : marketId = 7 := Option.some.inj (named.symm.trans market)
    exact ⟨m, _, reached, reported, signs "a" .Sell false⟩

end LighterApi.Guarantees.GridOrders

import LighterApi.Guarantees.SignedAmounts
import LighterApi.Library.Correspondence
import LighterApi.Source.Listings

/-!
# Symbols and market ids correspond one to one

A reload writes both maps key by key and erases nothing. From the empty maps on they
correspond exactly as long as each reload names, of every stored pair, both the symbol and
the market id or neither; a symbol that is relisted under a new id leaves its old id
leading to it. While they correspond, a quote is cached under the symbol whose orders go
to its market.
-/
namespace LighterApi.Guarantees.SymbolMarkets
open LighterApi.Library.Transition LighterApi.Library.Correspondence
open LighterApi.Source LighterApi.Source.Gateway LighterApi.Source.Listings

/-- The markets of a listing, without the delisted ones, repeat no symbol and no id. -/
structure Proper (assets : List PerpAsset) : Prop where
  symbols : ((getPerpetualAssets assets false).map PerpAsset.symbol).Nodup
  marketIds : ((getPerpetualAssets assets false).map PerpAsset.marketId).Nodup

instance (assets : List PerpAsset) : Decidable (Proper assets) :=
  decidable_of_iff (((getPerpetualAssets assets false).map PerpAsset.symbol).Nodup ∧
    ((getPerpetualAssets assets false).map PerpAsset.marketId).Nodup)
    ⟨fun both => ⟨both.1, both.2⟩, fun proper => ⟨proper.symbols, proper.marketIds⟩⟩

/-- The listing a reload is given. -/
def listing : Listings.Action → Option (List PerpAsset)
  | .loadInstruments reply | .instrumentSpec _ reply => reply.toOption
  | .orderBook _ _ => none

/-- An order for the symbol is accepted, and goes to the market. -/
def Ordered (lib : Externals) (s : Markets) (symbol : String) (marketId : Int) : Prop :=
  ∃ scaled, scaled.marketId = marketId ∧
    ((∃ qty price, scaleLimit lib s.specs.instruments symbol qty price = .ok scaled) ∨
      ∃ side qty, scaleMarket lib s.specs.instruments s.quoteCache symbol side qty = .ok scaled)

/-- The maps correspond; a quote of a market is not cached under a symbol whose orders go
elsewhere; an order does not go to a market whose quotes are cached under another symbol. -/
structure Matched (s : Markets) : Prop where
  corresponds : ∀ symbol marketId, s.specs.instruments.symbolToMarketId symbol = some marketId ↔
    s.specs.instruments.marketIdToSymbol marketId = some symbol
  quotes : ∀ lib marketId marketId' symbol, s.quotedAs marketId = some symbol →
    Ordered lib s symbol marketId' → marketId' = marketId
  orders : ∀ lib marketId symbol symbol', Ordered lib s symbol marketId →
    s.quotedAs marketId = some symbol' → symbol' = symbol

/-- The listing has both ends of every stored pair, or neither. -/
def BothOrNeither (inst : Instruments) (assets : List PerpAsset) : Prop :=
  ∀ symbol marketId, inst.symbolToMarketId symbol = some marketId →
    (symbol ∈ (getPerpetualAssets assets false).map PerpAsset.symbol ↔
      marketId ∈ (getPerpetualAssets assets false).map PerpAsset.marketId)

/-- The condition on a step: a reload that succeeds has both ends of every pair or neither. -/
def Whole (s : Markets) : Listings.Action → Prop
  | .loadInstruments reply => ∀ assets, reply = .ok assets → BothOrNeither s.specs.instruments assets
  | .instrumentSpec symbol reply => s.specs.specCache symbol = none →
    ∀ assets, reply = .ok assets → BothOrNeither s.specs.instruments assets
  | .orderBook _ _ => True

/-! ## One reload -/

abbrev Corresponds (inst : Instruments) : Prop := Mutual inst.symbolToMarketId inst.marketIdToSymbol

variable {s s' : Markets}

/-- The pair an asset is written as. -/
def pair (asset : PerpAsset) : String × Int := (asset.symbol, asset.marketId)

theorem loadAssets_maps (specs : Specs) (assets : List PerpAsset) :
    (assets.foldl Specs.loadAsset specs).instruments.symbolToMarketId =
        put specs.instruments.symbolToMarketId (assets.map pair) ∧
      (assets.foldl Specs.loadAsset specs).instruments.marketIdToSymbol =
        put specs.instruments.marketIdToSymbol ((assets.map pair).map Prod.swap) := by
  induction assets generalizing specs with
  | nil => exact ⟨rfl, rfl⟩
  | cons asset rest ih => exact ih (specs.loadAsset asset)

theorem corresponds_load_iff {specs : Specs} {assets : List PerpAsset}
    (before : Corresponds specs.instruments) (proper : Proper assets) :
    Corresponds (specs.loadInstruments (.ok assets)).instruments ↔
      BothOrNeither specs.instruments assets := by
  have names : (((getPerpetualAssets assets false).map pair).map Prod.fst) =
      (getPerpetualAssets assets false).map PerpAsset.symbol := List.map_map ..
  have keys : (((getPerpetualAssets assets false).map pair).map Prod.snd) =
      (getPerpetualAssets assets false).map PerpAsset.marketId := List.map_map ..
  obtain ⟨forward, back⟩ := loadAssets_maps specs (getPerpetualAssets assets false)
  unfold Corresponds Specs.loadInstruments
  rw [forward, back, before.put_iff (names ▸ proper.symbols) (keys ▸ proper.marketIds), names, keys]
  rfl

theorem instrumentSpec_specs (specs : Specs) (symbol : String)
    (reply : Except String (List PerpAsset)) : (specs.instrumentSpec symbol reply).1 =
      if specs.specCache symbol = none then specs.loadInstruments reply else specs := by
  unfold Specs.instrumentSpec
  cases known : specs.specCache symbol with
  | some spec => rfl
  | none =>
    cases reply with
    | error what => rfl
    | ok assets =>
      dsimp only
      split <;> rfl

theorem corresponds_reload_iff {specs : Specs} {reply : Except String (List PerpAsset)}
    (before : Corresponds specs.instruments)
    (proper : ∀ assets, reply.toOption = some assets → Proper assets) :
    Corresponds (specs.loadInstruments reply).instruments ↔
      ∀ assets, reply = .ok assets → BothOrNeither specs.instruments assets := by
  cases reply with
  | error what =>
    refine ⟨fun _ assets listed => absurd listed (by simp), fun _ => before⟩
  | ok assets =>
    rw [corresponds_load_iff before (proper assets rfl)]
    constructor
    · intro whole assets' same
      exact Except.ok.inj same ▸ whole
    · intro whole
      exact whole assets rfl

theorem onOrderBook_specs (s : Markets) (marketId : Int) (quote : Quote) :
    (s.onOrderBook marketId quote).specs = s.specs := by
  unfold Markets.onOrderBook
  split <;> rfl

/-- The step lemma: a step keeps the correspondence exactly when it meets the condition. -/
theorem corresponds_step (before : Corresponds s.specs.instruments) (a : Listings.Action)
    (proper : ∀ assets, listing a = some assets → Proper assets) :
    ∃ s', step s a = some s' ∧ (Corresponds s'.specs.instruments ↔ Whole s a) := by
  cases a with
  | loadInstruments reply => exact ⟨_, rfl, corresponds_reload_iff before proper⟩
  | instrumentSpec symbol reply =>
    refine ⟨_, rfl, ?_⟩
    dsimp only [Whole]
    rw [instrumentSpec_specs]
    split
    · rename_i missing
      rw [corresponds_reload_iff before proper]
      exact ⟨fun whole _ => whole, fun whole => whole missing⟩
    · rename_i known
      exact ⟨fun _ missing => absurd missing known, fun _ => before⟩
  | orderBook marketId quote =>
    refine ⟨_, rfl, ?_⟩
    rw [onOrderBook_specs]
    exact ⟨fun _ => trivial, fun _ => before⟩

/-! ## Quotes and orders -/

theorem marketIdToSymbol_of_quotedAs {marketId : Int} {symbol : String}
    (quoted : s.quotedAs marketId = some symbol) :
    s.specs.instruments.marketIdToSymbol marketId = some symbol := by
  unfold Markets.quotedAs Specs.symbolFor at quoted
  cases known : s.specs.instruments.marketIdToSymbol marketId with
  | none =>
    rw [known] at quoted
    exact absurd quoted (by simp)
  | some symbol' =>
    rw [known, Option.getD_some] at quoted
    split at quoted
    · exact absurd quoted (by simp)
    · exact quoted

theorem scaleMarket_marketId {lib : Externals} {inst : Instruments} {quotes : QuoteCache}
    {symbol : String} {side : OrderSide} {qty : Rat} {scaled : Scaled}
    (accepted : scaleMarket lib inst quotes symbol side qty = .ok scaled) :
    inst.symbolToMarketId symbol = some scaled.marketId := by
  unfold scaleMarket at accepted
  split at accepted
  · exact absurd accepted (by simp)
  · rename_i marketId known
    dsimp only at accepted
    split at accepted
    · exact absurd accepted (by simp)
    · split at accepted
      · exact absurd accepted (by simp)
      · rw [← Except.ok.inj accepted]
        exact known

theorem symbolToMarketId_of_ordered {lib : Externals} {symbol : String} {marketId : Int}
    (ordered : Ordered lib s symbol marketId) :
    s.specs.instruments.symbolToMarketId symbol = some marketId := by
  obtain ⟨scaled, rfl, accepted⟩ := ordered
  rcases accepted with ⟨qty, price, limit⟩ | ⟨side, qty, market⟩
  · exact (SignedAmounts.scaleLimit_ok_iff.mp limit).1
  · exact scaleMarket_marketId market

theorem matched_of_corresponds (h : Corresponds s.specs.instruments) : Matched s := by
  refine ⟨h, ?_, ?_⟩
  · intro lib marketId marketId' symbol quoted ordered
    have goes := (h symbol marketId).mpr (marketIdToSymbol_of_quotedAs quoted)
    rw [symbolToMarketId_of_ordered ordered] at goes
    exact Option.some.inj goes
  · intro lib marketId symbol symbol' ordered quoted
    have back := (h symbol marketId).mp (symbolToMarketId_of_ordered ordered)
    rw [marketIdToSymbol_of_quotedAs quoted] at back
    exact Option.some.inj back

theorem matched_iff : Matched s ↔ Corresponds s.specs.instruments :=
  ⟨fun h => h.corresponds, matched_of_corresponds⟩

/-! ## Every run -/

/-- Over any sequence of reloads and quotes, each listing one to one, the maps correspond in
every state exactly when each reload has both ends of every stored pair or neither. -/
theorem matched_throughout_iff {actions : List Listings.Action}
    (proper : ∀ a ∈ actions, ∀ assets, listing a = some assets → Proper assets) :
    (∀ past rest s, actions = past ++ rest → run step Markets.start past = some s → Matched s) ↔
      Meets step Whole Markets.start actions := by
  simp only [matched_iff]
  exact throughout_iff (fun s a member before => corresponds_step before a (proper a member))
    mutual_none

def asset (symbol : String) (marketId : Int) (status : String) : PerpAsset where
  symbol := symbol
  marketId := marketId
  status := status
  sizeDecimals := 0
  priceDecimals := 0
  minBaseAmount := 1
  minQuoteAmount := 1

theorem proper_of_check {actions : List Listings.Action}
    (check : ∀ a ∈ actions, (listing a).all (fun assets => decide (Proper assets)) = true) :
    ∀ a ∈ actions, ∀ assets, listing a = some assets → Proper assets := by
  intro a member assets listed
  have passes := check a member
  rw [listed, Option.all_some] at passes
  exact of_decide_eq_true passes

/-- A symbol is delisted, and another one is listed. -/
def delistRun : List Listings.Action :=
  [.loadInstruments (.ok [asset "BTC" 1 "active", asset "ETH" 0 "active"]),
    .instrumentSpec "SOL"
      (.ok [asset "BTC" 1 "active", asset "ETH" 0 "inactive", asset "SOL" 2 "active"])]

theorem matched_throughout_iff_sample :
    (∀ a ∈ delistRun, ∀ assets, listing a = some assets → Proper assets) ∧
      ((∀ past rest s, delistRun = past ++ rest → run step Markets.start past = some s → Matched s) ↔
        Meets step Whole Markets.start delistRun) := by
  have proper : ∀ a ∈ delistRun, ∀ assets, listing a = some assets → Proper assets :=
    proper_of_check (by decide)
  exact ⟨proper, matched_throughout_iff proper⟩

/-- The symbol comes back under another id. -/
def relistRun : List Listings.Action :=
  [.loadInstruments (.ok [asset "ETH" 0 "active"]), .loadInstruments (.ok [asset "ETH" 5 "active"])]

/-- The old id still leads to the symbol, whose orders go to the new one. -/
theorem relisted_mismatched : ¬ ∀ actions : List Listings.Action,
    (∀ a ∈ actions, ∀ assets, listing a = some assets → Proper assets) →
    ∀ past rest s, actions = past ++ rest → run step Markets.start past = some s → Matched s := by
  intro always
  have proper : ∀ a ∈ relistRun, ∀ assets, listing a = some assets → Proper assets :=
    proper_of_check (by decide)
  obtain ⟨s, reached, moved, stale⟩ : ∃ s, run step Markets.start relistRun = some s ∧
      s.specs.instruments.symbolToMarketId "ETH" = some 5 ∧
      s.specs.instruments.marketIdToSymbol 0 = some "ETH" := exists_run (by decide +kernel)
  have matched := always relistRun proper relistRun [] s (List.append_nil _).symm reached
  rw [(matched.corresponds "ETH" 0).mpr stale] at moved
  exact absurd moved (by decide)

/-! ## The gateway -/

/-- A step of the listings is a step of the gateway, or none. -/
theorem exists_gateway_step (cfg : GatewayRun.Config) {g : GatewayRun.State} {a : Listings.Action}
    (instruments : g.instruments = s.specs.instruments) (quotes : g.quotes = s.quoteCache)
    (taken : step s a = some s') : ∃ deeds g', run (GatewayRun.step cfg) g deeds = some g' ∧
      g'.instruments = s'.specs.instruments ∧ g'.quotes = s'.quoteCache := by
  cases a with
  | loadInstruments reply =>
    obtain rfl := Option.some.inj taken
    exact ⟨[.reload (s.specs.loadInstruments reply).instruments], _, rfl, rfl, quotes⟩
  | instrumentSpec symbol reply =>
    obtain rfl := Option.some.inj taken
    exact ⟨[.reload (s.specs.instrumentSpec symbol reply).1.instruments], _, rfl, rfl, quotes⟩
  | orderBook marketId quote =>
    obtain rfl := Option.some.inj taken
    unfold Markets.onOrderBook
    cases quoted : s.quotedAs marketId with
    | none => exact ⟨[], g, rfl, instruments, quotes⟩
    | some symbol =>
      refine ⟨[.quote symbol quote], _, rfl, instruments, ?_⟩
      exact congrArg (fun cache => Function.update cache symbol (some quote)) quotes

/-- Every sequence of reloads and quotes is a run of the gateway. -/
theorem exists_gateway_run (cfg : GatewayRun.Config) (counter nonce : Int)
    {actions : List Listings.Action} (reached : run step Markets.start actions = some s) :
    ∃ deeds g, run (GatewayRun.step cfg)
        (GatewayRun.State.start Specs.empty.instruments counter nonce) deeds = some g ∧
      g.instruments = s.specs.instruments ∧ g.quotes = s.quoteCache := by
  refine run_history (H := fun _ s => ∃ deeds g, run (GatewayRun.step cfg)
      (GatewayRun.State.start Specs.empty.instruments counter nonce) deeds = some g ∧
      g.instruments = s.specs.instruments ∧ g.quotes = s.quoteCache) ?_ ⟨[], _, rfl, rfl, rfl⟩ reached
  rintro past s a s' _ ⟨deeds, g, before, instruments, quotes⟩ taken
  obtain ⟨more, g', onward, instruments', quotes'⟩ :=
    exists_gateway_step cfg instruments quotes taken
  exact ⟨deeds ++ more, g', run_append_eq_some.mpr ⟨g, before, onward⟩, instruments', quotes'⟩

end LighterApi.Guarantees.SymbolMarkets

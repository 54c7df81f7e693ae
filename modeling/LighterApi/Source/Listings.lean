import LighterApi.Source.GatewayRun

/-!
The instrument maps and what fills them: lighter_execution_gateway.cpp:212-253,567-586,
623-645, lighter_rest_client.cpp:240-246 and lighter_models.cpp:128-139. A listing is what
the venue's request returns; a request that fails throws and loads nothing. The reloads of
`start()` and `refreshInstruments` are the same step. The refresh of the auth token before
each is in `GatewayLife`.
-/
namespace LighterApi.Source.Listings
open LighterApi.Source.Gateway

/-- The fields of `PerpAsset` that the gateway reads. -/
structure PerpAsset where
  symbol : String
  marketId : Int
  status : String
  sizeDecimals : Int
  priceDecimals : Int
  minBaseAmount : Rat
  minQuoteAmount : Rat
  deriving DecidableEq, Repr

/-- Derived from the status when the asset is read. -/
def PerpAsset.isDelisted (asset : PerpAsset) : Bool := asset.status != "active"

def getPerpetualAssets (assets : List PerpAsset) (includeDelisted : Bool) : List PerpAsset :=
  if includeDelisted then assets else assets.filter fun asset => !asset.isDelisted

structure InstrumentSpec where
  symbol : String
  tickSize : Rat
  qtyStep : Rat
  minQty : Rat
  maxQty : Rat
  minNotional : Rat
  deriving DecidableEq, Repr

/-- What `specM` guards. -/
structure Specs where
  instruments : Instruments
  specCache : String → Option InstrumentSpec

/-- No venue cap is exposed. -/
def PerpAsset.spec (asset : PerpAsset) : InstrumentSpec where
  symbol := asset.symbol
  tickSize := 1 / pow10i asset.priceDecimals
  qtyStep := 1 / pow10i asset.sizeDecimals
  minQty := asset.minBaseAmount
  maxQty := 0
  minNotional := asset.minQuoteAmount

namespace Specs

def empty : Specs := ⟨⟨fun _ => none, fun _ => none, fun _ => none, fun _ => none⟩, fun _ => none⟩

variable (s : Specs)

/-- The body of the loop: every map is written in place. -/
def loadAsset (asset : PerpAsset) : Specs where
  instruments :=
    { symbolToMarketId :=
        Function.update s.instruments.symbolToMarketId asset.symbol (some asset.marketId)
      marketIdToSymbol :=
        Function.update s.instruments.marketIdToSymbol asset.marketId (some asset.symbol)
      sizeDecimals := Function.update s.instruments.sizeDecimals asset.symbol (some asset.sizeDecimals)
      priceDecimals :=
        Function.update s.instruments.priceDecimals asset.symbol (some asset.priceDecimals) }
  specCache := Function.update s.specCache asset.symbol (some asset.spec)

def loadInstruments (reply : Except String (List PerpAsset)) : Specs :=
  match reply with
  | .error _ => s
  | .ok assets => (getPerpetualAssets assets false).foldl loadAsset s

def symbolFor (marketId : Int) : String := (s.instruments.marketIdToSymbol marketId).getD ""

/-- A miss reloads once and looks again. -/
def instrumentSpec (symbol : String) (reply : Except String (List PerpAsset)) :
    Specs × Except String InstrumentSpec :=
  match s.specCache symbol with
  | some spec => (s, .ok spec)
  | none =>
    match reply with
    | .error what => (s, .error what)
    | .ok assets =>
      let s := s.loadInstruments (.ok assets)
      match s.specCache symbol with
      | some spec => (s, .ok spec)
      | none => (s, .error ("Lighter: unknown instrument " ++ symbol))

end Specs

structure Markets where
  specs : Specs
  quoteCache : QuoteCache

namespace Markets

def start : Markets := ⟨.empty, fun _ => none⟩

variable (s : Markets)

/-- The symbol under which the order book callback caches a quote; it drops the others. -/
def quotedAs (marketId : Int) : Option String :=
  if s.specs.symbolFor marketId = "" then none else some (s.specs.symbolFor marketId)

def onOrderBook (marketId : Int) (quote : Quote) : Markets :=
  match s.quotedAs marketId with
  | none => s
  | some symbol => { s with quoteCache := Function.update s.quoteCache symbol (some quote) }

end Markets

inductive Action where
  | loadInstruments (reply : Except String (List PerpAsset))
  | instrumentSpec (symbol : String) (reply : Except String (List PerpAsset))
  | orderBook (marketId : Int) (quote : Quote)

/-- None of these blocks. -/
def step (s : Markets) : Action → Option Markets
  | .loadInstruments reply => some { s with specs := s.specs.loadInstruments reply }
  | .instrumentSpec symbol reply => some { s with specs := (s.specs.instrumentSpec symbol reply).1 }
  | .orderBook marketId quote => some (s.onOrderBook marketId quote)

end LighterApi.Source.Listings

import LighterApi.Library.Transition
import LighterApi.Source.History
import LighterApi.Source.Listings
import LighterApi.Source.GatewayLife

/-!
The read side of the REST client, from the HTTP request to the parsed record:
lighter_rest_client.cpp:21-30,82-246,354-419, lighter_http_session.cpp:41-58 and
lighter_models.cpp:14-147. Of a `GET` what depends on the call is kept: the target and the
token. An answer is given by the environment (`SendTx.Answer`); the pass of the throttle
before each request is in `Throttle`. Objects list their members by key, as the library
orders them.
-/
namespace LighterApi.Source.Rest
open LighterApi.Source.SendTx LighterApi.Source.History

/-- The other readers of `json_utils.h`, and the flattening of a query. `readStringAsDouble`
is given the value of a missing member. -/
structure RestExternals extends Externals where
  readInt64 : Json → String → Int → Except String Int
  readDouble : Json → String → Rat → Except String Rat
  readBool : Json → String → Bool → Except String Bool
  readStringAsDouble : Json → String → Rat → Except String Rat
  queryStringFromJson : Json → String

/-! ## Requests -/

structure HttpRequest where
  target : String
  authorization : Option String
  deriving DecidableEq, Repr

def authorizationOf (authHeader : String) : Option String :=
  if authHeader = "" then none else some authHeader

variable (lib : RestExternals)

/-- `HTTPSession::get`: an empty query leaves the path alone. -/
def get (path : String) (query : Json) (authHeader : String) : HttpRequest where
  target :=
    match query with
    | .obj (_ :: _) => path ++ "?" ++ lib.queryStringFromJson query
    | _ => path
  authorization := authorizationOf authHeader

def kCandlesPath : String := "/api/v1/candles"

def kFundingsPath : String := "/api/v1/fundings"

def kFundingRatesPath : String := "/api/v1/funding-rates"

def kLighterExchangeTag : String := "lighter"

def kAccountPath : String := "/api/v1/account"

def kNextNoncePath : String := "/api/v1/nextNonce"

/-- The query that candles and fundings share. -/
def batchQuery (req : BatchRequest) : Json :=
  .obj [("count_back", .int req.countBack), ("end_timestamp", .int req.endSec),
    ("market_id", .int req.marketId), ("resolution", .str req.resolution),
    ("start_timestamp", .int req.startSec)]

def accountQuery (byKey byValue : String) (activeOnly : Bool) : Json :=
  .obj ((if activeOnly then [("active_only", .bool true)] else []) ++
    [("by", .str byKey), ("value", .str byValue)])

/-! ## The envelope -/

/-- A code is compared after its conversion to `int`. -/
def parseEnvelope (body : String) : Except String Json := do
  let json ← lib.parse body
  if json.isObject then
    match (json.find "code").bind Json.asInteger with
    | none => throw "Lighter API response is missing integer field 'code'"
    | some code =>
      if toInt32 code = 200 then return json
      else
        let msg ← lib.readText json "message" ""
        throw ("Lighter API error, code " ++ toString (toInt32 code) ++ ", msg: " ++ msg)
  else throw "Lighter API returned a non-object response envelope"

def envelope (answer : Answer) : Except String Json :=
  (checkTransport answer).bind (parseEnvelope lib)

/-- The array under a key, or the exception that misses it. -/
def arrayOf (json : Json) (key what : String) : Except String (List Json) :=
  match (json.find key).bind Json.asArray with
  | some items => .ok items
  | none => .error what

/-! ## Candles and fundings -/

def candleFromJson (json : Json) : Except String Candle := do
  let openTime ← lib.readInt64 json "t" 0
  let opening ← lib.readDouble json "o" 0
  let high ← lib.readDouble json "h" 0
  let low ← lib.readDouble json "l" 0
  let close ← lib.readDouble json "c" 0
  let baseVolume ← lib.readDouble json "v" 0
  let quoteVolume ← lib.readDouble json "V" 0
  return ⟨openTime, opening, high, low, close, baseVolume, quoteVolume⟩

/-- A text is an unsigned percentage whose sign is in the direction; a number is taken as it is. -/
def rateOf (json : Json) (direction : String) : Rat :=
  match json.find "rate" with
  | some (.str s) =>
    match lib.stod s with
    | some percent => if direction = "short" then -(percent / 100) else percent / 100
    | none => 0
  | some (.int n) => n
  | some (.num q) => q
  | _ => 0

def fundingFromJson (json : Json) : Except String FundingRate := do
  let fundingTime ← lib.readInt64 json "timestamp" 0
  let direction ← lib.readText json "direction" ""
  let marketId ← lib.readInt32 json "market_id" (-1)
  let symbol ← lib.readText json "symbol" ""
  let exchange ← lib.readText json "exchange" ""
  return { marketId, symbol, fundingRate := rateOf lib json direction, fundingTime, direction,
           exchange }

def readCandles (answer : Answer) : Except String (List Candle) := do
  let json ← envelope lib answer
  let items ← arrayOf json "c" "Lighter candle response is missing array field 'c'"
  items.mapM (candleFromJson lib)

def readFundings (answer : Answer) : Except String (List FundingRate) := do
  let json ← envelope lib answer
  let items ← arrayOf json "fundings" "Lighter funding response is missing array field 'fundings'"
  items.mapM (fundingFromJson lib)

variable (server : HttpRequest → Answer) (authToken : String)

/-- `P::getCandlesBatch` -/
def getCandlesBatch (req : BatchRequest) : Except String (List Candle) :=
  readCandles lib (server (get lib kCandlesPath (batchQuery req) authToken))

/-- `P::getFundingBatch`; the market is filled in by `History.getFundingBatch`. -/
def fundingBatch (req : BatchRequest) : Except String (List FundingRate) :=
  readFundings lib (server (get lib kFundingsPath (batchQuery req) authToken))

/-- The rows of other venues are dropped, and the quote for eight hours is settled hourly. -/
def readCurrentFunding (item : Json) : Except String (Option FundingRate) := do
  let exchange ← lib.readText item "exchange" ""
  if exchange ≠ kLighterExchangeTag then return none
  else
    let fr ← fundingFromJson lib item
    return some { fr with fundingRate := fr.fundingRate / 8 }

def getCurrentFundingRates : Except String (List FundingRate) := do
  let json ← envelope lib (server (get lib kFundingRatesPath (.obj []) authToken))
  let rates ← (((json.find "funding_rates").bind Json.asArray).getD []).mapM (readCurrentFunding lib)
  return rates.reduceOption

/-! ## Accounts -/

structure Position where
  marketId : Int
  symbol : String
  sign : Int
  quantity : Rat
  avgEntryPrice : Rat
  positionValue : Rat
  unrealizedPnl : Rat
  realizedPnl : Rat
  liquidationPrice : Rat
  allocatedMargin : Rat
  marginMode : Int
  deriving DecidableEq, Repr

structure AccountAsset where
  symbol : String
  assetId : Int
  balance : Rat
  lockedBalance : Rat
  marginBalance : Rat
  deriving DecidableEq, Repr

structure AccountBalance where
  accountIndex : Int
  l1Address : String
  availableBalance : Rat
  collateral : Rat
  totalAssetValue : Rat
  crossInitialMarginRequirement : Rat
  crossMaintenanceMarginRequirement : Rat
  positions : List Position
  assets : List AccountAsset
  deriving DecidableEq, Repr

def positionFromJson (json : Json) : Except String Position := do
  let marketId ← lib.readInt32 json "market_id" (-1)
  let symbol ← lib.readText json "symbol" ""
  let sign ← lib.readInt32 json "sign" 0
  let quantity ← lib.readStringAsDouble json "position" 0
  let avgEntryPrice ← lib.readStringAsDouble json "avg_entry_price" 0
  let positionValue ← lib.readStringAsDouble json "position_value" 0
  let unrealizedPnl ← lib.readStringAsDouble json "unrealized_pnl" 0
  let realizedPnl ← lib.readStringAsDouble json "realized_pnl" 0
  let liquidationPrice ← lib.readStringAsDouble json "liquidation_price" 0
  let allocatedMargin ← lib.readStringAsDouble json "allocated_margin" 0
  let marginMode ← lib.readInt32 json "margin_mode" 0
  return ⟨marketId, symbol, sign, quantity, avgEntryPrice, positionValue, unrealizedPnl, realizedPnl,
    liquidationPrice, allocatedMargin, marginMode⟩

def accountAssetFromJson (json : Json) : Except String AccountAsset := do
  let symbol ← lib.readText json "symbol" ""
  let assetId ← lib.readInt32 json "asset_id" (-1)
  let balance ← lib.readStringAsDouble json "balance" 0
  let lockedBalance ← lib.readStringAsDouble json "locked_balance" 0
  let marginBalance ← lib.readStringAsDouble json "margin_balance" 0
  return ⟨symbol, assetId, balance, lockedBalance, marginBalance⟩

/-- The items of a list that may be missing. -/
def itemsOf (json : Json) (key : String) : List Json := ((json.find key).bind Json.asArray).getD []

def balanceFromJson (json : Json) : Except String AccountBalance := do
  let accountIndex ← lib.readInt32 json "account_index" (-1)
  let l1Address ← lib.readText json "l1_address" ""
  let availableBalance ← lib.readStringAsDouble json "available_balance" 0
  let collateral ← lib.readStringAsDouble json "collateral" 0
  let totalAssetValue ← lib.readStringAsDouble json "total_asset_value" 0
  let crossInitial ← lib.readStringAsDouble json "cross_initial_margin_requirement" 0
  let crossMaintenance ← lib.readStringAsDouble json "cross_maintenance_margin_requirement" 0
  let positions ← (itemsOf json "positions").mapM (positionFromJson lib)
  let assets ← (itemsOf json "assets").mapM (accountAssetFromJson lib)
  return ⟨accountIndex, l1Address, availableBalance, collateral, totalAssetValue, crossInitial,
    crossMaintenance, positions, assets⟩

/-- `P::getAccountBalance`: the first account of the answer. -/
def getAccountBalance (byKey byValue : String) (activeOnly : Bool) :
    Except String AccountBalance := do
  let json ← envelope lib (server (get lib kAccountPath (accountQuery byKey byValue activeOnly)
    authToken))
  match (json.find "accounts").bind Json.asArray with
  | some (account :: _) => balanceFromJson lib account
  | _ => throw ("Lighter: no account found for " ++ byKey ++ "=" ++ byValue)

def getBalance (accountIndex : Int) (activeOnly : Bool) : Except String AccountBalance :=
  getAccountBalance lib server authToken "index" (toString accountIndex) activeOnly

/-! ## The nonce -/

/-- A nonce that is missing or negative is an error: the signer would fetch one itself. -/
def readNextNonce (answer : Answer) : Except String Int := do
  let json ← envelope lib answer
  let nonce ← lib.readInt64 json "nonce" (-1)
  if nonce < 0 then throw ("Lighter nextNonce: no nonce in response: " ++ lib.dump json)
  else return nonce

def getNextNonce (accountIndex apiKeyIndex : Int) : Except String Int :=
  readNextNonce lib (server (get lib kNextNoncePath
    (GatewayLife.nextNonceQuery accountIndex apiKeyIndex) authToken))

/-! ## Listings and the symbol cache -/

structure PerpAsset where
  symbol : String
  marketId : Int
  isolatedOnly : Bool
  forceReduceOnly : Bool
  marketType : String
  status : String
  sizeDecimals : Int
  priceDecimals : Int
  takerFee : Rat
  makerFee : Rat
  minBaseAmount : Rat
  minQuoteAmount : Rat
  isDelisted : Bool
  deriving DecidableEq, Repr

/-- What the gateway reads of an asset. -/
def PerpAsset.listing (asset : PerpAsset) : Listings.PerpAsset where
  symbol := asset.symbol
  marketId := asset.marketId
  status := asset.status
  sizeDecimals := asset.sizeDecimals
  priceDecimals := asset.priceDecimals
  minBaseAmount := asset.minBaseAmount
  minQuoteAmount := asset.minQuoteAmount

/-- The margin mode and the close-only flag of the market, when it is configured. -/
def readMarketConfig (json : Json) : Except String (Bool × Bool) :=
  match json.find "market_config" with
  | some (.obj members) => do
    let marketMarginMode ← lib.readInt32 (.obj members) "market_margin_mode" 0
    let forceReduceOnly ← lib.readBool (.obj members) "force_reduce_only" false
    return (decide (marketMarginMode = 1), forceReduceOnly)
  | _ => return (false, false)

def assetFromJson (json : Json) : Except String PerpAsset := do
  let symbol ← lib.readText json "symbol" ""
  let marketId ← lib.readInt32 json "market_id" (-1)
  let marketType ← lib.readText json "market_type" ""
  let status ← lib.readText json "status" ""
  let sizeDecimals ← lib.readInt32 json "supported_size_decimals" 0
  let priceDecimals ← lib.readInt32 json "supported_price_decimals" 0
  let takerFee ← lib.readStringAsDouble json "taker_fee" 0
  let makerFee ← lib.readStringAsDouble json "maker_fee" 0
  let minBaseAmount ← lib.readStringAsDouble json "min_base_amount" 0
  let minQuoteAmount ← lib.readStringAsDouble json "min_quote_amount" 0
  let (isolatedOnly, forceReduceOnly) ← readMarketConfig lib json
  return { symbol, marketId, isolatedOnly, forceReduceOnly, marketType, status, sizeDecimals,
           priceDecimals, takerFee, makerFee, minBaseAmount, minQuoteAmount,
           isDelisted := status != "active" }

/-- The list is optional. -/
def readListing (answer : Answer) : Except String (List PerpAsset) := do
  let json ← envelope lib answer
  (itemsOf json "order_book_details").mapM (assetFromJson lib)

structure SymbolCache where
  symbolToMarketId : String → Option Int
  symbolCachePopulated : Bool

namespace SymbolCache

def empty : SymbolCache := ⟨fun _ => none, false⟩

/-- Cleared and filled from a listing: the last asset of a symbol stays. -/
def fill (assets : List PerpAsset) : SymbolCache :=
  ⟨assets.foldl (fun cache asset => Function.update cache asset.symbol (some asset.marketId))
    fun _ => none, true⟩

variable (cache : SymbolCache)

/-- `P::loadAssets`; a listing that cannot be read throws before the cache is touched. -/
def loadAssets (populateCache : Bool) (answer : Answer) :
    SymbolCache × Except String (List PerpAsset) :=
  match readListing lib answer with
  | .error what => (cache, .error what)
  | .ok assets => (if populateCache then fill assets else cache, .ok assets)

/-- Delisted markets are loaded too, and dropped from what is returned. -/
def getPerpetualAssets (includeDelisted : Bool) (answer : Answer) :
    SymbolCache × Except String (List PerpAsset) :=
  let (cache, loaded) := cache.loadAssets lib true answer
  (cache, loaded.map fun assets =>
    if includeDelisted then assets else assets.filter fun asset => !asset.isDelisted)

/-- The cache, the listing requests made and the exception, if one left. -/
def ensureSymbolCache (answer : Answer) : SymbolCache × Nat × Option String :=
  if cache.symbolCachePopulated then (cache, 0, none)
  else
    match cache.loadAssets lib true answer with
    | (cache, .error what) => (cache, 1, some what)
    | (cache, .ok _) => (cache, 1, none)

/-- A market that is not in the cache is looked up once more in a fresh listing. -/
def resolveMarketId (symbol : String) (answers : Nat → Answer) :
    SymbolCache × Nat × Except String Int :=
  match cache.ensureSymbolCache lib (answers 0) with
  | (cache, asked, some what) => (cache, asked, .error what)
  | (cache, asked, none) =>
    match cache.symbolToMarketId symbol with
    | some marketId => (cache, asked, .ok marketId)
    | none =>
      match cache.loadAssets lib true (answers asked) with
      | (cache, .error what) => (cache, asked + 1, .error what)
      | (cache, .ok _) =>
        match cache.symbolToMarketId symbol with
        | some marketId => (cache, asked + 1, .ok marketId)
        | none => (cache, asked + 1, .error ("Lighter: unknown symbol '" ++ symbol ++ "'"))

end SymbolCache

end LighterApi.Source.Rest

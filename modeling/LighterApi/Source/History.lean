import LighterApi.Library.WindowWalk
import LighterApi.Source.Json

/-!
Candle and funding history downloads: lighter.cpp:11-32 and
lighter_rest_client.cpp:197-224,254-352. The HTTP exchange behind one batch is a
function from the request to the parsed answer or the text of the exception, and
the requests made are kept. Seconds, milliseconds and counts are `std::int64_t` in
the source and integers here, and the one sum that can leave the 64 bits wraps
around; the divisions truncate towards zero.
-/
namespace LighterApi.Source.History
open LighterApi.Library.WindowWalk

inductive CandleInterval where
  | _1m | _5m | _15m | _30m | _1h | _4h | _12h | _1d
  deriving DecidableEq, Repr

def numberOfMsForCandleInterval : CandleInterval → Int
  | ._1m => 60000
  | ._5m => 60000 * 5
  | ._15m => 60000 * 15
  | ._30m => 60000 * 30
  | ._1h => 60000 * 60
  | ._4h => 60000 * 240
  | ._12h => 60000 * 720
  | ._1d => 86400000

structure Candle where
  openTime : Int
  opening : Rat
  high : Rat
  low : Rat
  close : Rat
  baseVolume : Rat
  quoteVolume : Rat
  deriving DecidableEq, Repr

structure FundingRate where
  marketId : Int := -1
  symbol : String := ""
  fundingRate : Rat := 0
  fundingTime : Int := 0
  direction : String := ""
  exchange : String := ""
  deriving DecidableEq, Repr

/-- The spelling of an interval on the wire. -/
def enumName : CandleInterval → String
  | ._1m => "1m"
  | ._5m => "5m"
  | ._15m => "15m"
  | ._30m => "30m"
  | ._1h => "1h"
  | ._4h => "4h"
  | ._12h => "12h"
  | ._1d => "1d"

/-- The query of one batch. -/
structure BatchRequest where
  marketId : Int
  resolution : String
  startSec : Int
  endSec : Int
  countBack : Int
  deriving DecidableEq, Repr

/-- One exchange: the request is made, and answered or not. -/
def ask {β : Type} (serve : BatchRequest → Except String β) (req : BatchRequest)
    (asked : List BatchRequest) : Except String β × List BatchRequest :=
  (serve req, asked ++ [req])

def kMaxBarsPerCall : Int := 500

def kFundingResolution : String := "1h"

/-- `count_back` of a window: the grid points it can hold, capped. -/
def windowCount (cursorSec batchEndSec periodSec : Int) : Int :=
  let countBack := (batchEndSec - cursorSec).tdiv periodSec + 1
  if countBack > kMaxBarsPerCall then kMaxBarsPerCall else countBack

/-! ## Candles -/

def intervalSec (interval : CandleInterval) : Int :=
  (numberOfMsForCandleInterval interval).tdiv 1000

theorem intervalSec_pos (interval : CandleInterval) : 0 < intervalSec interval := by
  cases interval <;> decide

theorem intervalMs_valid (interval : CandleInterval) : ¬ numberOfMsForCandleInterval interval ≤ 0 := by
  cases interval <;> decide

theorem intervalMs_eq (interval : CandleInterval) :
    numberOfMsForCandleInterval interval = 1000 * intervalSec interval := by
  cases interval <;> decide

def candleWindowSec (interval : CandleInterval) : Int :=
  intervalSec interval * (kMaxBarsPerCall - 1)

theorem candleWindowSec_pos (interval : CandleInterval) : 0 < candleWindowSec interval :=
  Int.mul_pos (intervalSec_pos interval) (by decide)

/-- The filter loop over one batch: the three `continue` guards, in order. The sum of the second
one is a signed 64-bit sum. -/
def keepCandles (fromMs toMs intervalMs : Int) : Int → List Candle → List Candle × Int
  | lastOpenTime, [] => ([], lastOpenTime)
  | lastOpenTime, c :: rest =>
    if c.openTime < fromMs then keepCandles fromMs toMs intervalMs lastOpenTime rest
    else if toInt64 (c.openTime + intervalMs) > toMs then
      keepCandles fromMs toMs intervalMs lastOpenTime rest
    else if c.openTime ≤ lastOpenTime then keepCandles fromMs toMs intervalMs lastOpenTime rest
    else
      let later := keepCandles fromMs toMs intervalMs c.openTime rest
      (c :: later.1, later.2)

/-- Loop state of `getHistoricalPrices`, with the batches handed to the writer and the requests
made so far. -/
structure PriceDownload where
  retVal : List Candle
  lastOpenTime : Int
  written : List (List Candle)
  asked : List BatchRequest
  deriving DecidableEq, Repr

variable (candles : BatchRequest → Except String (List Candle))
  (fundings : BatchRequest → Except String (List FundingRate))

/-- The request of a turn for the candles of its window. -/
def candleRequest (marketId : Int) (interval : CandleInterval) (cursorSec batchEndSec : Int) :
    BatchRequest :=
  ⟨marketId, enumName interval, cursorSec, batchEndSec,
    windowCount cursorSec batchEndSec (intervalSec interval)⟩

/-- One turn of the loop of `getHistoricalPrices`. -/
def priceWindow (marketId : Int) (interval : CandleInterval) (fromMs toMs : Int)
    (cursorSec batchEndSec : Int) (d : PriceDownload) : PriceDownload × Option String :=
  match ask candles (candleRequest marketId interval cursorSec batchEndSec) d.asked with
  | (.error what, asked) => ({ d with asked }, some what)
  | (.ok batch, asked) =>
    let (kept, last) :=
      keepCandles fromMs toMs (numberOfMsForCandleInterval interval) d.lastOpenTime batch
    if kept.isEmpty then ({ d with lastOpenTime := last, asked }, none)
    else (⟨d.retVal ++ kept, last, d.written ++ [kept], asked⟩, none)

/-- The state when the loop ends and the exception that ended it, if one did. -/
def getHistoricalPrices (marketId : Int) (interval : CandleInterval) (fromMs toMs : Int) :
    PriceDownload × Option String :=
  if numberOfMsForCandleInterval interval ≤ 0 then
    (⟨[], -1, [], []⟩, some "Lighter: invalid candle interval")
  else
    walk (candleWindowSec interval) (toMs.tdiv 1000) (candleWindowSec_pos interval)
      (priceWindow candles marketId interval fromMs toMs) (fromMs.tdiv 1000) ⟨[], -1, [], []⟩

/-! ## Funding -/

def fundingIntervalSec : Int := 60 * 60

def fundingWindowSec : Int := fundingIntervalSec * (kMaxBarsPerCall - 1)

theorem fundingWindowSec_pos : 0 < fundingWindowSec := by decide

/-- The historical payload names no market, so the query's fills in. -/
def backfillMarket (marketId : Int) (fr : FundingRate) : FundingRate :=
  if fr.marketId < 0 then { fr with marketId := marketId } else fr

/-- `P::getFundingBatch` -/
def getFundingBatch (marketId startSec endSec countBack : Int) (asked : List BatchRequest) :
    Except String (List FundingRate) × List BatchRequest :=
  let (answer, asked) :=
    ask fundings ⟨marketId, kFundingResolution, startSec, endSec, countBack⟩ asked
  (answer.map fun rates => rates.map (backfillMarket marketId), asked)

/-- Times that look like seconds become milliseconds. -/
def normaliseTime (fr : FundingRate) : FundingRate :=
  if fr.fundingTime > 0 ∧ fr.fundingTime < 100000000000 then
    { fr with fundingTime := fr.fundingTime * 1000 }
  else fr

/-- The filter loop over one batch of normalised events. -/
def keepFundings (startTime endTime : Int) : Int → List FundingRate → List FundingRate × Int
  | lastTime, [] => ([], lastTime)
  | lastTime, fr :: rest =>
    if fr.fundingTime < startTime then keepFundings startTime endTime lastTime rest
    else if fr.fundingTime > endTime then keepFundings startTime endTime lastTime rest
    else if fr.fundingTime ≤ lastTime then keepFundings startTime endTime lastTime rest
    else
      let later := keepFundings startTime endTime fr.fundingTime rest
      (fr :: later.1, later.2)

/-- Loop state of `getFundingRates`, with the requests made so far. -/
structure FundingDownload where
  retVal : List FundingRate
  lastTime : Int
  asked : List BatchRequest
  deriving DecidableEq, Repr

/-- One turn of the loop of `getFundingRates`. -/
def fundingWindow (marketId startTime endTime : Int) (cursorSec batchEndSec : Int)
    (d : FundingDownload) : FundingDownload × Option String :=
  match getFundingBatch fundings marketId cursorSec batchEndSec
      (windowCount cursorSec batchEndSec fundingIntervalSec) d.asked with
  | (.error what, asked) => ({ d with asked }, some what)
  | (.ok batch, asked) =>
    let (kept, last) := keepFundings startTime endTime d.lastTime (batch.map normaliseTime)
    (⟨d.retVal ++ kept, last, asked⟩, none)

def getFundingRates (marketId startTime endTime : Int) : FundingDownload × Option String :=
  walk fundingWindowSec (endTime.tdiv 1000) (by decide)
    (fundingWindow fundings marketId startTime endTime) (startTime.tdiv 1000) ⟨[], -1, []⟩

/-! ## The filter loops are collecting passes -/

/-- A candle is wanted when it is found to lie inside the requested range. -/
def wantedCandle (fromMs toMs intervalMs : Int) (c : Candle) : Bool :=
  decide (fromMs ≤ c.openTime ∧ toInt64 (c.openTime + intervalMs) ≤ toMs)

/-- A candle lies wholly inside the range. -/
def insideCandle (fromMs toMs intervalMs : Int) (c : Candle) : Bool :=
  decide (fromMs ≤ c.openTime ∧ c.openTime + intervalMs ≤ toMs)

/-- Adding the interval to the open time does not overflow. -/
def NoOverflow (intervalMs : Int) (c : Candle) : Prop :=
  toInt64 (c.openTime + intervalMs) = c.openTime + intervalMs

theorem wantedCandle_eq_inside (fromMs toMs : Int) {intervalMs : Int} {c : Candle}
    (small : NoOverflow intervalMs c) :
    wantedCandle fromMs toMs intervalMs c = insideCandle fromMs toMs intervalMs c := by
  unfold wantedCandle insideCandle
  rw [small]

theorem keepCandles_eq_collect (fromMs toMs intervalMs last : Int) (batch : List Candle) :
    keepCandles fromMs toMs intervalMs last batch =
      collect Candle.openTime (wantedCandle fromMs toMs intervalMs) last batch := by
  induction batch generalizing last with
  | nil => rfl
  | cons c rest ih =>
    rw [keepCandles, collect]
    split
    · rw [ih, if_neg (by simp [wantedCandle]; omega)]
    · split
      · rw [ih, if_neg (by simp [wantedCandle]; omega)]
      · split
        · rw [ih, if_neg (by simp [wantedCandle]; omega)]
        · rw [ih, if_pos (by simp [wantedCandle]; omega)]

def wantedFunding (startTime endTime : Int) (fr : FundingRate) : Bool :=
  decide (startTime ≤ fr.fundingTime ∧ fr.fundingTime ≤ endTime)

theorem keepFundings_eq_collect (startTime endTime last : Int) (batch : List FundingRate) :
    keepFundings startTime endTime last batch =
      collect FundingRate.fundingTime (wantedFunding startTime endTime) last batch := by
  induction batch generalizing last with
  | nil => rfl
  | cons fr rest ih =>
    rw [keepFundings, collect]
    split
    · rw [ih, if_neg (by simp [wantedFunding]; omega)]
    · split
      · rw [ih, if_neg (by simp [wantedFunding]; omega)]
      · split
        · rw [ih, if_neg (by simp [wantedFunding]; omega)]
        · rw [ih, if_pos (by simp [wantedFunding]; omega)]

theorem tdiv_thousand_of_nonneg {ms : Int} (nonneg : 0 ≤ ms) : ms.tdiv 1000 = ms / 1000 :=
  Int.tdiv_eq_ediv_of_nonneg nonneg

/-- A negative time truncates towards zero. -/
theorem tdiv_thousand_nonpos {ms : Int} (neg : ms ≤ 0) : ms.tdiv 1000 ≤ 0 := by
  obtain ⟨n, rfl⟩ : ∃ n, ms = -n := ⟨-ms, by omega⟩
  rw [Int.neg_tdiv, Int.tdiv_eq_ediv_of_nonneg (by omega)]
  omega

/-- In a window no longer than `kMaxBarsPerCall - 1` periods the cap never bites. -/
theorem windowCount_eq {cursorSec batchEndSec periodSec : Int} (pos : 0 < periodSec)
    (ahead : cursorSec ≤ batchEndSec)
    (short : batchEndSec ≤ cursorSec + periodSec * (kMaxBarsPerCall - 1)) :
    windowCount cursorSec batchEndSec periodSec = (batchEndSec - cursorSec) / periodSec + 1 := by
  have bound : (batchEndSec - cursorSec) / periodSec ≤ kMaxBarsPerCall - 1 := by
    apply Int.ediv_le_of_le_mul pos
    rw [Int.mul_comm]
    omega
  unfold windowCount
  rw [Int.tdiv_eq_ediv_of_nonneg (by omega), if_neg (by omega)]

end LighterApi.Source.History

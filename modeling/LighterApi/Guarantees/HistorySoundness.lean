import LighterApi.Guarantees.CandleHistory

/-!
# History downloads are sound against any server

The answers are arbitrary here: unsorted, repeated, overlapping, outside the window or
empty. The running last time alone keeps the result ascending, inside a batch and from
one window to the next, and the range checks keep it inside the requested range. A
request is told from the other requests of its download by its start, so a server that
answers by the request is any sequence of answers. The open times are small enough that
adding the interval does not overflow.
-/
namespace LighterApi.Guarantees.HistorySoundness
open LighterApi.Library.WindowWalk LighterApi.Source.History
open LighterApi.Guarantees.CandleHistory

variable (candles : BatchRequest → Except String (List Candle))
  (fundings : BatchRequest → Except String (List FundingRate))

/-- Adding the interval overflows for no candle in an answer. -/
def SmallTimes (interval : CandleInterval) : Prop :=
  ∀ req batch, candles req = .ok batch →
    ∀ c ∈ batch, NoOverflow (numberOfMsForCandleInterval interval) c

/-- The loop state of `getHistoricalPrices` whatever was answered. -/
def KeptCandles (interval : CandleInterval) (fromMs toMs : Int) (d : PriceDownload) : Prop :=
  Kept Candle.openTime (insideCandle fromMs toMs (numberOfMsForCandleInterval interval))
    d.lastOpenTime d.retVal

/-- The loop state of `getFundingRates` whatever was answered. -/
def KeptFundings (startTime endTime : Int) (d : FundingDownload) : Prop :=
  Kept FundingRate.fundingTime (wantedFunding startTime endTime) d.lastTime d.retVal

variable {candles} in
theorem priceWindow_kept {interval : CandleInterval} (small : SmallTimes candles interval)
    (marketId fromMs toMs lo hi : Int) (d : PriceDownload) (before : KeptCandles interval fromMs toMs d) :
    KeptCandles interval fromMs toMs
      (priceWindow candles marketId interval fromMs toMs lo hi d).1 := by
  unfold priceWindow ask
  split
  · exact before
  · rename_i batch asked answered
    have fits := small _ batch (congrArg Prod.fst answered)
    have after := Kept.append before batch
    rw [← collect_congr _ _ d.lastOpenTime batch
      fun c member => wantedCandle_eq_inside fromMs toMs (fits c member),
      ← keepCandles_eq_collect] at after
    dsimp only
    split
    · -- An empty batch is not appended, but the last time is still taken over.
      rename_i empty
      rw [List.isEmpty_iff.mp empty, List.append_nil] at after
      exact after
    · exact after

theorem fundingWindow_kept (marketId startTime endTime lo hi : Int) (d : FundingDownload)
    (before : KeptFundings startTime endTime d) :
    KeptFundings startTime endTime
      (fundingWindow fundings marketId startTime endTime lo hi d).1 := by
  unfold fundingWindow
  split
  · exact before
  · rename_i batch asked answered
    have after := Kept.append before (batch.map normaliseTime)
    rw [← keepFundings_eq_collect] at after
    exact after

variable {candles} in
theorem getHistoricalPrices_kept {interval : CandleInterval} (small : SmallTimes candles interval)
    (marketId fromMs toMs : Int) :
    KeptCandles interval fromMs toMs
      (getHistoricalPrices candles marketId interval fromMs toMs).1 := by
  have start : KeptCandles interval fromMs toMs ⟨[], -1, [], []⟩ := Kept.nil _ _ _
  unfold getHistoricalPrices
  split
  · exact start
  · exact walk_always (fun lo hi d => priceWindow_kept small marketId fromMs toMs lo hi d)
      _ _ start

theorem getFundingRates_kept (marketId startTime endTime : Int) :
    KeptFundings startTime endTime (getFundingRates fundings marketId startTime endTime).1 := by
  have start : KeptFundings startTime endTime ⟨[], -1, []⟩ := Kept.nil _ _ _
  unfold getFundingRates
  exact walk_always (fun lo hi d => fundingWindow_kept fundings marketId startTime endTime lo hi d)
    _ _ start

/-- What every candle download promises of its result and of the batches it wrote. -/
structure SoundPrices (interval : CandleInterval) (fromMs toMs : Int) (d : PriceDownload) : Prop where
  ascending : d.retVal.Pairwise fun a b => a.openTime < b.openTime
  inside : ∀ c ∈ d.retVal, fromMs ≤ c.openTime ∧
    c.openTime + numberOfMsForCandleInterval interval ≤ toMs
  nonempty : ∀ batch ∈ d.written, batch ≠ []
  whole : d.written.flatten = d.retVal

/-- What every funding download promises of its result. -/
structure SoundRates (startTime endTime : Int) (d : FundingDownload) : Prop where
  ascending : d.retVal.Pairwise fun a b => a.fundingTime < b.fundingTime
  inside : ∀ fr ∈ d.retVal, startTime ≤ fr.fundingTime ∧ fr.fundingTime ≤ endTime

/-- Both downloads keep their promises with any server and over any range. -/
theorem history_sound (candles : BatchRequest → Except String (List Candle))
    (fundings : BatchRequest → Except String (List FundingRate)) (marketId : Int)
    (interval : CandleInterval) (small : SmallTimes candles interval)
    (fromMs toMs startTime endTime : Int) :
    SoundPrices interval fromMs toMs
        (getHistoricalPrices candles marketId interval fromMs toMs).1 ∧
      SoundRates startTime endTime (getFundingRates fundings marketId startTime endTime).1 := by
  have prices := getHistoricalPrices_kept small marketId fromMs toMs
  have written := getHistoricalPrices_written candles marketId interval fromMs toMs
  have rates := getFundingRates_kept fundings marketId startTime endTime
  refine ⟨⟨prices.ascending, ?_, written.2, written.1⟩, rates.ascending, ?_⟩
  · intro c member
    exact of_decide_eq_true (prices.wanted c member)
  · intro fr member
    exact of_decide_eq_true (rates.wanted fr member)

/-- A server that answers every request with the same two candles, the later one first. -/
def stubborn (_ : BatchRequest) : Except String (List Candle) :=
  .ok [⟨7200000, 1, 2, 1, 2, 5, 7⟩, ⟨3600000, 2, 3, 2, 3, 5, 12⟩]

theorem history_sound_sample :
    SoundPrices ._1h 0 10800000 (getHistoricalPrices stubborn 1 ._1h 0 10800000).1 ∧
      SoundRates 0 10 (getFundingRates (fun _ => .error "down") 1 0 10).1 := by
  have small : SmallTimes stubborn ._1h := by
    intro req batch answered
    obtain rfl := Except.ok.inj answered
    unfold NoOverflow
    decide
  exact history_sound stubborn (fun _ => .error "down") 1 ._1h small 0 10800000 0 10

end LighterApi.Guarantees.HistorySoundness

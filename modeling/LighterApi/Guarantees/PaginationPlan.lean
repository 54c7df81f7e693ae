import LighterApi.Library.WindowPlan
import LighterApi.Source.History

/-!
# The pagination plan

Both downloads walk the range in windows of 499 periods and ask once for each window.
As long as the answers succeed, what they hold has no influence on the walk. So the
requests are those of a fixed plan: as many as windows fit into the range, rounded up,
abutting from end to end, each with a `count_back` between the grid points of its window
and the cap of 500, and nothing that a turn computes leaves 64 bits.
-/
namespace LighterApi.Guarantees.PaginationPlan
open LighterApi.Library.WindowWalk LighterApi.Source.History

def Fits64 (n : Int) : Prop := -(2 ^ 63) ≤ n ∧ n < 2 ^ 63

/-! ## What a turn asks -/

variable {candles : BatchRequest → Except String (List Candle)}
  {fundings : BatchRequest → Except String (List FundingRate)}

/-- One request, before the answer is looked at. -/
theorem priceWindow_asks (marketId : Int) (interval : CandleInterval) (fromMs toMs lo hi : Int)
    (d : PriceDownload) :
    (priceWindow candles marketId interval fromMs toMs lo hi d).1.asked =
      d.asked ++ [candleRequest marketId interval lo hi] := by
  unfold priceWindow ask
  cases candles (candleRequest marketId interval lo hi) with
  | error what => rfl
  | ok batch =>
    dsimp only
    split <;> rfl

/-- The request of a turn for the events of its window. -/
def fundingRequest (marketId lo hi : Int) : BatchRequest :=
  ⟨marketId, kFundingResolution, lo, hi, windowCount lo hi fundingIntervalSec⟩

theorem fundingWindow_asks (marketId startTime endTime lo hi : Int) (d : FundingDownload) :
    (fundingWindow fundings marketId startTime endTime lo hi d).1.asked =
      d.asked ++ [fundingRequest marketId lo hi] := by
  unfold fundingWindow getFundingBatch ask fundingRequest
  cases fundings ⟨marketId, kFundingResolution, lo, hi, windowCount lo hi fundingIntervalSec⟩ with
  | error what => rfl
  | ok batch => rfl

/-- A turn ends in an exception only when its answer does. -/
theorem priceWindow_succeeds (answered : ∀ req, ∃ batch, candles req = .ok batch) (marketId : Int)
    (interval : CandleInterval) (fromMs toMs lo hi : Int) (d : PriceDownload) :
    (priceWindow candles marketId interval fromMs toMs lo hi d).2 = none := by
  obtain ⟨batch, answer⟩ := answered (candleRequest marketId interval lo hi)
  unfold priceWindow ask
  rw [answer]
  dsimp only
  split <;> rfl

theorem fundingWindow_succeeds (answered : ∀ req, ∃ batch, fundings req = .ok batch)
    (marketId startTime endTime lo hi : Int) (d : FundingDownload) :
    (fundingWindow fundings marketId startTime endTime lo hi d).2 = none := by
  obtain ⟨batch, answer⟩ := answered (fundingRequest marketId lo hi)
  unfold fundingRequest at answer
  unfold fundingWindow getFundingBatch ask
  rw [answer]
  rfl

/-! ## The plan -/

/-- Every value the loop computes in a turn from its cursor, in order. -/
def turnValues (toSec windowSec periodSec cursorSec : Int) : List Int :=
  let batchEndSec := min (cursorSec + windowSec) toSec
  [cursorSec, cursorSec + windowSec, batchEndSec, batchEndSec - cursorSec,
    (batchEndSec - cursorSec).tdiv periodSec, (batchEndSec - cursorSec).tdiv periodSec + 1]

structure Plan (fromMs toMs periodSec : Int) (requests : List BatchRequest) : Prop where
  count : requests.length =
    ⌈((toMs.tdiv 1000 - fromMs.tdiv 1000 : Int) : ℚ) / ((499 * periodSec : Int) : ℚ)⌉₊
  starts : ∀ r ∈ requests.head?, r.startSec = fromMs.tdiv 1000
  ends : ∀ r ∈ requests.getLast?, r.endSec = toMs.tdiv 1000
  abut : requests.IsChain fun a b => a.endSec = b.startSec
  capped : ∀ r ∈ requests, 1 ≤ r.countBack ∧ r.countBack ≤ 500
  covers : ∀ r ∈ requests,
    (((Finset.Icc r.startSec r.endSec).filter (periodSec ∣ ·)).card : Int) ≤ r.countBack
  bounds : Fits64 (499 * periodSec) ∧ Fits64 (toMs.tdiv 1000) ∧ Fits64 (fromMs.tdiv 1000)
  turns : ∀ r ∈ requests,
    ∀ n ∈ turnValues (toMs.tdiv 1000) (499 * periodSec) periodSec r.startSec, Fits64 n

theorem tdiv_thousand_bounds {ms : Int} (fits : Fits64 ms) :
    -(2 ^ 54) ≤ ms.tdiv 1000 ∧ ms.tdiv 1000 < 2 ^ 54 := by
  unfold Fits64 at fits
  rcases le_total 0 ms with nonneg | neg
  · rw [tdiv_thousand_of_nonneg nonneg]
    omega
  · obtain ⟨n, rfl⟩ : ∃ n, ms = -n := ⟨-ms, by omega⟩
    rw [Int.neg_tdiv, Int.tdiv_eq_ediv_of_nonneg (by omega)]
    omega

/-- The numbers of a turn are small: the cursor is, and a period is at most a day. -/
theorem turnValues_fit {toSec periodSec cursorSec : Int} (pos : 0 < periodSec)
    (day : periodSec ≤ 86400) (lo : -(2 ^ 54) ≤ cursorSec) (more : cursorSec < toSec)
    (hi : toSec < 2 ^ 54) :
    ∀ n ∈ turnValues toSec (499 * periodSec) periodSec cursorSec, Fits64 n := by
  have ahead : 0 ≤ min (cursorSec + 499 * periodSec) toSec - cursorSec := by omega
  have quotient : 0 ≤ (min (cursorSec + 499 * periodSec) toSec - cursorSec).tdiv periodSec ∧
      (min (cursorSec + 499 * periodSec) toSec - cursorSec).tdiv periodSec ≤
        min (cursorSec + 499 * periodSec) toSec - cursorSec := by
    rw [Int.tdiv_eq_ediv_of_nonneg ahead]
    exact ⟨Int.ediv_nonneg ahead pos.le, Int.ediv_le_self _ ahead⟩
  unfold turnValues Fits64
  intro n member
  simp only [List.mem_cons, List.not_mem_nil, or_false] at member
  rcases member with rfl | rfl | rfl | rfl | rfl | rfl <;> omega

/-- The windows of 499 periods, each asked for with the count of its grid points. -/
theorem plan_of_windows {fromMs toMs : Int} (periodSec : Int) {pos : 0 < 499 * periodSec}
    (day : periodSec ≤ 86400) (from_fits : Fits64 fromMs) (to_fits : Fits64 toMs)
    {request : Int → Int → BatchRequest}
    (startSec : ∀ lo hi, (request lo hi).startSec = lo)
    (endSec : ∀ lo hi, (request lo hi).endSec = hi)
    (countBack : ∀ lo hi, (request lo hi).countBack = windowCount lo hi periodSec) :
    Plan fromMs toMs periodSec
      ((windows (499 * periodSec) (toMs.tdiv 1000) pos (fromMs.tdiv 1000)).map fun w =>
        request w.1 w.2) := by
  have period : 0 < periodSec := by omega
  have from_bounds := tdiv_thousand_bounds from_fits
  have to_bounds := tdiv_thousand_bounds to_fits
  have inside : ∀ w ∈ windows (499 * periodSec) (toMs.tdiv 1000) pos (fromMs.tdiv 1000),
      fromMs.tdiv 1000 ≤ w.1 ∧ w.1 < w.2 ∧ w.2 ≤ w.1 + 499 * periodSec ∧ w.2 ≤ toMs.tdiv 1000 :=
    windows_bounds (fromMs.tdiv 1000)
  have counted : ∀ w ∈ windows (499 * periodSec) (toMs.tdiv 1000) pos (fromMs.tdiv 1000),
      (request w.1 w.2).countBack = (w.2 - w.1) / periodSec + 1 := by
    intro w member
    have bounds := inside w member
    rw [countBack]
    apply windowCount_eq period (by omega)
    unfold kMaxBarsPerCall
    omega
  refine ⟨?_, ?_, ?_, ?_, ?_, ?_, ⟨?_, ?_, ?_⟩, ?_⟩
  · rw [List.length_map, windows_length]
  · intro r first
    rw [List.head?_map, Option.mem_def, Option.map_eq_some_iff] at first
    obtain ⟨w, first, rfl⟩ := first
    rw [startSec, windows_head _ w first]
  · intro r last
    rw [List.getLast?_map, Option.mem_def, Option.map_eq_some_iff] at last
    obtain ⟨w, last, rfl⟩ := last
    rw [endSec, windows_last _ w last]
  · rw [List.isChain_map]
    refine (windows_abut _).imp ?_
    intro a b meet
    rw [startSec, endSec, meet]
  · intro r member
    obtain ⟨w, planned, rfl⟩ := List.mem_map.mp member
    have bounds := inside w planned
    have nonneg : 0 ≤ (w.2 - w.1) / periodSec := Int.ediv_nonneg (by omega) period.le
    have few : (w.2 - w.1) / periodSec ≤ 499 := by
      apply Int.ediv_le_of_le_mul period
      omega
    rw [counted w planned]
    omega
  · intro r member
    obtain ⟨w, planned, rfl⟩ := List.mem_map.mp member
    have bounds := inside w planned
    rw [counted w planned, startSec, endSec]
    exact grid_card_le period (by omega)
  · unfold Fits64
    omega
  · unfold Fits64
    omega
  · unfold Fits64
    omega
  · intro r member
    obtain ⟨w, planned, rfl⟩ := List.mem_map.mp member
    have bounds := inside w planned
    rw [startSec]
    exact turnValues_fit period day (by omega) (by omega) to_bounds.2

theorem intervalSec_le_day (interval : CandleInterval) : intervalSec interval ≤ 86400 := by
  cases interval <;> decide

/-- The requests that both downloads make follow their plan over every 64-bit range, with any
successful answers. -/
theorem history_plan (candles : BatchRequest → Except String (List Candle))
    (fundings : BatchRequest → Except String (List FundingRate))
    (answered : ∀ req, ∃ batch, candles req = .ok batch)
    (answered' : ∀ req, ∃ batch, fundings req = .ok batch) (marketId fromMs toMs : Int)
    (from_fits : Fits64 fromMs) (to_fits : Fits64 toMs) :
    (∀ interval, Plan fromMs toMs (intervalSec interval)
        (getHistoricalPrices candles marketId interval fromMs toMs).1.asked) ∧
      Plan fromMs toMs fundingIntervalSec
        (getFundingRates fundings marketId fromMs toMs).1.asked := by
  constructor
  · intro interval
    have window : candleWindowSec interval = 499 * intervalSec interval :=
      Int.mul_comm _ _
    unfold getHistoricalPrices
    rw [if_neg (intervalMs_valid interval),
      walk_asks PriceDownload.asked (priceWindow_succeeds answered marketId interval fromMs toMs)
        (priceWindow_asks marketId interval fromMs toMs), List.nil_append]
    simp only [window]
    exact plan_of_windows (intervalSec interval) (intervalSec_le_day interval) from_fits to_fits
      (fun _ _ => rfl) (fun _ _ => rfl) (fun _ _ => rfl)
  · unfold getFundingRates
    rw [walk_asks FundingDownload.asked (fundingWindow_succeeds answered' marketId fromMs toMs)
        (fundingWindow_asks marketId fromMs toMs), List.nil_append]
    exact plan_of_windows fundingIntervalSec (by decide) from_fits to_fits (fun _ _ => rfl)
      (fun _ _ => rfl) (fun _ _ => rfl)

/-- A range that starts below zero and ends within an hour. -/
theorem history_plan_sample :
    (∀ interval, Plan (-1500) 3599999 (intervalSec interval)
        (getHistoricalPrices (fun _ => .ok []) 1 interval (-1500) 3599999).1.asked) ∧
      Plan (-1500) 3599999 fundingIntervalSec
        (getFundingRates (fun _ => .ok [{ fundingTime := 7 }]) 1 (-1500) 3599999).1.asked :=
  history_plan (fun _ => .ok []) (fun _ => .ok [{ fundingTime := 7 }]) (fun _ => ⟨_, rfl⟩)
    (fun _ => ⟨_, rfl⟩) 1 (-1500) 3599999 (by unfold Fits64; omega) (by unfold Fits64; omega)

end LighterApi.Guarantees.PaginationPlan

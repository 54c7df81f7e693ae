import LighterApi.Source.History

/-!
# Candle history: complete and exact against a count-back venue

The venue holds candles on the grid of the interval, with arbitrary gaps, and
answers a batch with the last `count_back` candles up to the window's end,
whatever the window's start. The walk then returns the candles that it finds inside
the requested range, and hands them to the writer in non-empty batches that
concatenate to the result. These are the candles that lie wholly inside the range,
unless one is delivered that ends behind the last millisecond of 64 bits.
-/
namespace LighterApi.Guarantees.CandleHistory
open LighterApi.Library.WindowWalk LighterApi.Source LighterApi.Source.History

/-- A venue's candles of one interval: one a grid point at most, listed by open time. -/
structure CandleVenue (intervalMs : Int) where
  held : List Candle
  ascending : Ascending Candle.openTime held
  aligned : ∀ c ∈ held, intervalMs ∣ c.openTime

variable {intervalMs : Int}

/-- The last `countBack` candles with `openTime` up to the end of the window. -/
def CandleVenue.answer (venue : CandleVenue intervalMs) (req : BatchRequest) : List Candle :=
  (venue.held.filter fun c => c.openTime ≤ 1000 * req.endSec).rtake req.countBack.toNat

def CandleVenue.endpoint (venue : CandleVenue intervalMs) (req : BatchRequest) :
    Except String (List Candle) :=
  .ok (venue.answer req)

/-- The answer to a window of at most 499 intervals holds every candle inside it. -/
theorem answer_answers (interval : CandleInterval)
    (venue : CandleVenue (numberOfMsForCandleInterval interval)) (marketId lo hi : Int)
    (ahead : lo ≤ hi) (short : hi ≤ lo + candleWindowSec interval) :
    Answers Candle.openTime venue.held (1000 * lo) (1000 * hi)
      (venue.answer (candleRequest marketId interval lo hi)) := by
  have pos := intervalSec_pos interval
  have count := windowCount_eq pos ahead short
  have quotient : (1000 * hi - 1000 * lo) / numberOfMsForCandleInterval interval =
      (hi - lo) / intervalSec interval := by
    rw [intervalMs_eq, ← Int.mul_sub, Int.mul_ediv_mul_of_pos _ _ (by decide)]
  have nonneg : 0 ≤ (hi - lo) / intervalSec interval := Int.ediv_nonneg (by omega) pos.le
  have sub : (venue.answer (candleRequest marketId interval lo hi)).Sublist venue.held :=
    (List.drop_sublist _ _).trans List.filter_sublist
  refine Answers.of_last Candle.openTime (numberOfMsForCandleInterval interval)
    (windowCount lo hi (intervalSec interval)).toNat ?_ (by omega) venue.ascending
    venue.aligned ?_ (fun x hx => sub.subset hx) (venue.ascending.sublist sub) ?_ (fun x hx => hx)
  · rw [intervalMs_eq]
    omega
  · rw [quotient]
    omega
  · intro c hc
    have kept := (List.drop_sublist _ _).subset hc
    exact of_decide_eq_true (List.mem_filter.mp kept).2

/-- What the code keeps of the venue's candles: what it wants, up to the last second asked for. -/
def takenCandle (fromMs toMs intervalMs : Int) (c : Candle) : Bool :=
  wantedCandle fromMs toMs intervalMs c && decide (c.openTime ≤ 1000 * toMs.tdiv 1000)

/-- The loop state with the frontier at `frontierMs`: everything taken before it is in the result. -/
def Covered (interval : CandleInterval) (venue : CandleVenue (numberOfMsForCandleInterval interval))
    (fromMs toMs frontierMs : Int) (d : PriceDownload) : Prop :=
  Collected Candle.openTime (takenCandle fromMs toMs (numberOfMsForCandleInterval interval))
    venue.held frontierMs d.lastOpenTime d.retVal

/-- One turn of the loop carries the coverage behind the end of its window. -/
theorem priceWindow_covered (interval : CandleInterval)
    (venue : CandleVenue (numberOfMsForCandleInterval interval)) (marketId fromMs toMs lo hi : Int)
    (d : PriceDownload) (ahead : lo ≤ hi) (short : hi ≤ lo + candleWindowSec interval)
    (within : hi ≤ toMs.tdiv 1000) (before : Covered interval venue fromMs toMs (1000 * lo) d) :
    ∃ d', priceWindow venue.endpoint marketId interval fromMs toMs lo hi d = (d', none) ∧
      Covered interval venue fromMs toMs (1000 * hi + 1) d' := by
  have answers := answer_answers interval venue marketId lo hi ahead short
  have asked : ∀ c ∈ venue.answer (candleRequest marketId interval lo hi),
      takenCandle fromMs toMs (numberOfMsForCandleInterval interval) c =
        wantedCandle fromMs toMs (numberOfMsForCandleInterval interval) c := by
    intro c member
    have upto := answers.bounded c member
    unfold takenCandle
    rw [decide_eq_true (by omega), Bool.and_true]
  have after := Collected.advance venue.ascending before answers
  rw [collect_congr _ _ d.lastOpenTime _ asked, ← keepCandles_eq_collect] at after
  simp only [priceWindow, ask, CandleVenue.endpoint]
  split
  · rename_i empty
    rw [List.isEmpty_iff.mp empty, List.append_nil] at after
    exact ⟨_, rfl, after⟩
  · exact ⟨_, rfl, after⟩

/-- The batches handed to the writer: none is empty and together they are the result. -/
def WrittenWhole (d : PriceDownload) : Prop :=
  d.written.flatten = d.retVal ∧ ∀ batch ∈ d.written, batch ≠ []

theorem priceWindow_written (candles : BatchRequest → Except String (List Candle))
    (marketId : Int) (interval : CandleInterval) (fromMs toMs lo hi : Int) (d : PriceDownload)
    (before : WrittenWhole d) :
    WrittenWhole (priceWindow candles marketId interval fromMs toMs lo hi d).1 := by
  unfold priceWindow ask
  split
  · exact before
  · dsimp only
    split
    · exact before
    · rename_i nonempty
      refine ⟨by simp [before.1], ?_⟩
      intro batch member
      rcases List.mem_append.mp member with old | new
      · exact before.2 batch old
      · rw [List.mem_singleton.mp new]
        exact fun empty => nonempty (by simp [empty])

theorem getHistoricalPrices_written (candles : BatchRequest → Except String (List Candle))
    (marketId : Int) (interval : CandleInterval) (fromMs toMs : Int) :
    WrittenWhole (getHistoricalPrices candles marketId interval fromMs toMs).1 := by
  have start : WrittenWhole ⟨[], -1, [], []⟩ := ⟨rfl, fun _ h => absurd h List.not_mem_nil⟩
  unfold getHistoricalPrices
  split
  · exact start
  · exact walk_always (fun lo hi d => priceWindow_written candles marketId interval fromMs toMs lo hi d)
      _ _ start

/-- The candles inside the range all open in the seconds the loop walks over. -/
theorem inside_in_walk (interval : CandleInterval) (fromMs toMs : Int) (nonneg : 0 ≤ fromMs)
    (c : Candle) (aligned : numberOfMsForCandleInterval interval ∣ c.openTime)
    (inside : insideCandle fromMs toMs (numberOfMsForCandleInterval interval) c = true) :
    1000 * fromMs.tdiv 1000 ≤ c.openTime ∧ c.openTime < 1000 * toMs.tdiv 1000 := by
  have pos := intervalSec_pos interval
  rw [intervalMs_eq] at aligned inside
  obtain ⟨n, hn⟩ := aligned
  simp only [insideCandle, decide_eq_true_eq] at inside
  rw [Int.mul_assoc] at hn
  generalize intervalSec interval * n = t at hn
  rw [Int.tdiv_eq_ediv_of_nonneg nonneg, Int.tdiv_eq_ediv_of_nonneg (by omega)]
  omega

theorem covered_start (interval : CandleInterval)
    (venue : CandleVenue (numberOfMsForCandleInterval interval)) (fromMs toMs : Int)
    (nonneg : 0 ≤ fromMs) :
    Covered interval venue fromMs toMs (1000 * fromMs.tdiv 1000) ⟨[], -1, [], []⟩ := by
  refine Collected.start fun c _ taken => ?_
  unfold takenCandle wantedCandle at taken
  rw [Bool.and_eq_true, decide_eq_true_eq] at taken
  rw [tdiv_thousand_of_nonneg nonneg]
  exact ⟨show -1 < c.openTime by omega, by omega⟩

/-- A range of at least a second is walked to its end. -/
theorem getHistoricalPrices_covered (interval : CandleInterval)
    (venue : CandleVenue (numberOfMsForCandleInterval interval)) (marketId fromMs toMs : Int)
    (nonneg : 0 ≤ fromMs) (more : fromMs.tdiv 1000 < toMs.tdiv 1000) :
    ∃ d, getHistoricalPrices venue.endpoint marketId interval fromMs toMs = (d, none) ∧
      Covered interval venue fromMs toMs (1000 * toMs.tdiv 1000 + 1) d := by
  have start := covered_start interval venue fromMs toMs nonneg
  have window := candleWindowSec_pos interval
  -- Only behind a window is the frontier behind the cursor.
  have walked : ∃ d, walk (candleWindowSec interval) (toMs.tdiv 1000) (candleWindowSec_pos interval)
      (priceWindow venue.endpoint marketId interval fromMs toMs) (fromMs.tdiv 1000)
        ⟨[], -1, [], []⟩ = (d, none) ∧
      Covered interval venue fromMs toMs (1000 * toMs.tdiv 1000) d ∧
        (toMs.tdiv 1000 = toMs.tdiv 1000 →
          Covered interval venue fromMs toMs (1000 * toMs.tdiv 1000 + 1) d) := by
    refine walk_invariant (I := fun cursorSec d =>
      Covered interval venue fromMs toMs (1000 * cursorSec) d ∧
        (cursorSec = toMs.tdiv 1000 → Covered interval venue fromMs toMs (1000 * cursorSec + 1) d))
      (fun lo d before covered => ?_) _ _ ⟨start, fun done => by omega⟩ more
    obtain ⟨d', turned, after⟩ := priceWindow_covered interval venue marketId fromMs toMs lo
      (min (lo + candleWindowSec interval) (toMs.tdiv 1000)) d (by omega) (by omega) (by omega)
      covered.1
    exact ⟨d', turned, Collected.mono after (by omega), fun _ => after⟩
  obtain ⟨d, ended, _, covered⟩ := walked
  unfold getHistoricalPrices
  rw [if_neg (intervalMs_valid interval)]
  exact ⟨d, ended, covered rfl⟩

/-- What a download returns of the venue's candles, over any range. -/
theorem getHistoricalPrices_takes (interval : CandleInterval)
    (venue : CandleVenue (numberOfMsForCandleInterval interval)) (marketId fromMs toMs : Int)
    (nonneg : 0 ≤ fromMs) :
    let download := getHistoricalPrices venue.endpoint marketId interval fromMs toMs
    download.2 = none ∧ download.1.retVal =
      if fromMs.tdiv 1000 < toMs.tdiv 1000 then
        venue.held.filter (takenCandle fromMs toMs (numberOfMsForCandleInterval interval))
      else [] := by
  by_cases more : fromMs.tdiv 1000 < toMs.tdiv 1000
  · obtain ⟨d, download_eq, covered⟩ :=
      getHistoricalPrices_covered interval venue marketId fromMs toMs nonneg more
    rw [download_eq, if_pos more]
    refine ⟨rfl, Collected.complete covered fun c _ taken => ?_⟩
    unfold takenCandle at taken
    simp only [Bool.and_eq_true, decide_eq_true_eq] at taken
    omega
  · unfold getHistoricalPrices
    rw [if_neg (intervalMs_valid interval), walk_of_le _ _ (not_lt.mp more), if_neg more]
    exact ⟨rfl, rfl⟩

/-! ## The candles wholly inside the range -/

/-- The download returns exactly the candles wholly inside `[from, to]`, ascending and each
once, and writes them in non-empty batches that concatenate to the result. -/
def Exact (interval : CandleInterval) (venue : CandleVenue (numberOfMsForCandleInterval interval))
    (marketId fromMs toMs : Int) : Prop :=
  let download := getHistoricalPrices venue.endpoint marketId interval fromMs toMs
  download.2 = none ∧
    download.1.retVal = venue.held.filter (fun c => fromMs ≤ c.openTime ∧
      c.openTime + numberOfMsForCandleInterval interval ≤ toMs) ∧
    Ascending Candle.openTime download.1.retVal ∧
    download.1.written.flatten = download.1.retVal ∧
    ∀ batch ∈ download.1.written, batch ≠ []

/-- The sum of a candle inside the clock overflows to a negative number, if it does. -/
theorem takenCandle_eq_inside_iff (interval : CandleInterval) {fromMs toMs : Int}
    (nonneg : 0 ≤ fromMs) (clock : toMs < 2 ^ 63) {c : Candle}
    (aligned : numberOfMsForCandleInterval interval ∣ c.openTime) :
    takenCandle fromMs toMs (numberOfMsForCandleInterval interval) c =
        insideCandle fromMs toMs (numberOfMsForCandleInterval interval) c ↔
      (fromMs ≤ c.openTime → c.openTime ≤ toMs →
        c.openTime + numberOfMsForCandleInterval interval < 2 ^ 63) := by
  have walked := inside_in_walk interval fromMs toMs nonneg c aligned
  have positive : 0 < numberOfMsForCandleInterval interval :=
    not_le.mp (intervalMs_valid interval)
  have day : numberOfMsForCandleInterval interval ≤ 86400000 := by cases interval <;> decide
  have seconds : c.openTime ≤ toMs → 0 ≤ toMs → c.openTime ≤ 1000 * toMs.tdiv 1000 := by
    intro upto nonneg'
    rw [intervalMs_eq] at aligned
    obtain ⟨n, hn⟩ := aligned
    rw [Int.mul_assoc] at hn
    generalize intervalSec interval * n = t at hn
    rw [tdiv_thousand_of_nonneg nonneg']
    omega
  unfold takenCandle wantedCandle insideCandle at *
  rw [← Bool.decide_and, decide_eq_decide]
  rw [decide_eq_true_eq] at walked
  constructor
  · intro same first upto
    by_contra late
    have wraps := toInt64_of_overflow (not_lt.mp late) (by omega)
    have inside := same.mp ⟨⟨first, by omega⟩, seconds upto (by omega)⟩
    omega
  · intro small
    constructor
    · rintro ⟨⟨first, ends⟩, upto⟩
      have to_nonneg : 0 ≤ toMs := by
        by_contra negative
        have below := tdiv_thousand_nonpos (by omega : toMs ≤ 0)
        rw [toInt64_of_fits (by omega) (by omega)] at ends
        omega
      rw [tdiv_thousand_of_nonneg to_nonneg] at upto
      rw [toInt64_of_fits (by omega) (small first (by omega))] at ends
      exact ⟨first, ends⟩
    · rintro ⟨first, ends⟩
      rw [toInt64_of_fits (by omega) (by omega)]
      exact ⟨⟨first, ends⟩, (walked ⟨first, ends⟩).2.le⟩

theorem filter_eq_filter_iff {α : Type*} {p q : α → Bool} {l : List α} :
    l.filter p = l.filter q ↔ ∀ x ∈ l, p x = q x := by
  refine ⟨fun same x member => ?_, List.filter_congr⟩
  have kept : x ∈ l.filter p ↔ x ∈ l.filter q := by rw [same]
  rw [List.mem_filter, List.mem_filter] at kept
  simp only [member, true_and] at kept
  exact Bool.eq_iff_iff.mpr kept

/-- The writer and the order are always right, so the candles returned decide. -/
theorem exact_iff_filter_eq (interval : CandleInterval)
    (venue : CandleVenue (numberOfMsForCandleInterval interval)) (marketId fromMs toMs : Int)
    (nonneg : 0 ≤ fromMs) :
    Exact interval venue marketId fromMs toMs ↔
      (if fromMs.tdiv 1000 < toMs.tdiv 1000 then
        venue.held.filter (takenCandle fromMs toMs (numberOfMsForCandleInterval interval))
      else []) =
        venue.held.filter (insideCandle fromMs toMs (numberOfMsForCandleInterval interval)) := by
  have written := getHistoricalPrices_written venue.endpoint marketId interval fromMs toMs
  obtain ⟨succeeds, taken⟩ := getHistoricalPrices_takes interval venue marketId fromMs toMs nonneg
  rw [← taken]
  refine ⟨fun whole => whole.2.1, fun result => ⟨succeeds, result, ?_, written⟩⟩
  rw [result]
  exact venue.ascending.filter _

/-- Against a count-back venue the download is exact just when no candle that it asks for
ends behind the last 64-bit millisecond. -/
theorem getHistoricalPrices_exact_iff (interval : CandleInterval)
    (venue : CandleVenue (numberOfMsForCandleInterval interval)) (marketId fromMs toMs : Int)
    (nonneg : 0 ≤ fromMs) (clock : toMs < 2 ^ 63) :
    Exact interval venue marketId fromMs toMs ↔
      (fromMs.tdiv 1000 < toMs.tdiv 1000 → ∀ c ∈ venue.held, fromMs ≤ c.openTime →
        c.openTime ≤ toMs → c.openTime + numberOfMsForCandleInterval interval < 2 ^ 63) := by
  rw [exact_iff_filter_eq interval venue marketId fromMs toMs nonneg]
  by_cases more : fromMs.tdiv 1000 < toMs.tdiv 1000
  · rw [if_pos more, filter_eq_filter_iff]
    simp only [more, forall_true_left]
    exact forall₂_congr fun c member =>
      takenCandle_eq_inside_iff interval nonneg clock (venue.aligned c member)
  · rw [if_neg more]
    refine ⟨fun _ longer => absurd longer more, fun _ => ?_⟩
    -- No second lies between the ends, so no candle does.
    refine (List.filter_eq_nil_iff.mpr fun c member inside => ?_).symm
    have walked := inside_in_walk interval fromMs toMs nonneg c (venue.aligned c member) inside
    omega

/-- Two candles an hour apart, one of them still open at the end of the range. -/
def sampleVenue : CandleVenue (numberOfMsForCandleInterval ._1h) where
  held := [⟨3600000, 1, 2, 1, 2, 5, 7⟩, ⟨10800000, 2, 3, 2, 3, 5, 12⟩]
  ascending := by simp [Ascending]
  aligned := by decide

theorem getHistoricalPrices_exact_iff_sample : Exact ._1h sampleVenue 1 5 14399999 :=
  (getHistoricalPrices_exact_iff ._1h sampleVenue 1 5 14399999 (by decide) (by decide)).mpr
    (by decide)

/-- The last whole minute of the 64-bit clock: its candle is still open at the end of it. -/
def lastMinuteVenue : CandleVenue (numberOfMsForCandleInterval ._1m) where
  held := [⟨9223372036854720000, 1, 2, 1, 2, 5, 7⟩]
  ascending := List.pairwise_singleton _ _
  aligned := by decide

/-- The open candle is returned: the sum of its open time and the interval is negative. -/
theorem open_candle_returned : ¬ ∀ (interval : CandleInterval)
    (venue : CandleVenue (numberOfMsForCandleInterval interval)) (marketId fromMs toMs : Int),
    0 ≤ fromMs → fromMs < toMs → toMs < 2 ^ 63 → Exact interval venue marketId fromMs toMs := by
  intro always
  have whole := always ._1m lastMinuteVenue 1 9223372036854700000 9223372036854775807 (by decide)
    (by decide) (by decide)
  have same := (exact_iff_filter_eq ._1m lastMinuteVenue 1 9223372036854700000
    9223372036854775807 (by decide)).mp whole
  exact absurd same (by decide)

end LighterApi.Guarantees.CandleHistory

import LighterApi.Library.Resumption
import LighterApi.Guarantees.CandleHistory
import LighterApi.Guarantees.WireRecords

/-!
# A download that fails can be gone on with

The writer of `getHistoricalPrices` is handed every batch before the next request is made,
so an exception loses none of what was written. A client that keeps what is written and
calls again from behind the last candle has, after any number of failed attempts, the first
candles of the range without a gap, and all of them as soon as one attempt succeeds
(`resumed_download_exact`). The venue may fail any exchange in any way, and otherwise
answers with a page of its candles. The range ends at least an interval before the last
64-bit millisecond.
-/
namespace LighterApi.Guarantees.ResumedDownload
open LighterApi.Library.WindowWalk
open LighterApi.Source LighterApi.Source.SendTx LighterApi.Source.History LighterApi.Source.Rest
open LighterApi.Guarantees.CandleHistory LighterApi.Guarantees.WireRecords

variable {lib : RestExternals} {interval : CandleInterval}

abbrev Server := HttpRequest → Answer

/-- Every exchange about the market up to some time fails, or brings the page of the venue. -/
def FlakyServes (lib : RestExternals) (venue : CandleVenue (numberOfMsForCandleInterval interval))
    (marketId toMs : Int) (authToken : String) (server : Server) : Prop :=
  ∀ lo hi, 0 ≤ lo → lo < hi → hi ≤ toMs.tdiv 1000 →
    let req := candleRequest marketId interval lo hi
    let answer := server (get lib kCandlesPath (batchQuery req) authToken)
    (∃ what, envelope lib answer = .error what) ∨
      ∃ items, Page lib answer "c" items ∧ CandleRows lib items (venue.answer req)

/-- One attempt of the client: the candles it has afterwards, and the exception. -/
def attempt (lib : RestExternals) (marketId : Int) (interval : CandleInterval) (fromMs toMs : Int)
    (authToken : String) (archive : List Candle) (server : Server) : List Candle × Option String :=
  let download := getHistoricalPrices (getCandlesBatch lib server authToken) marketId interval
    (resumeAt Candle.openTime fromMs archive) toMs
  (archive ++ download.1.written.flatten, download.2)

/-- What the client has after attempts at these servers, one after another. -/
def archiveOf (lib : RestExternals) (marketId : Int) (interval : CandleInterval) (fromMs toMs : Int)
    (authToken : String) (servers : List Server) : List Candle :=
  servers.foldl (fun archive server =>
    (attempt lib marketId interval fromMs toMs authToken archive server).1) []

variable {venue : CandleVenue (numberOfMsForCandleInterval interval)} {marketId fromMs toMs : Int}
  {authToken : String} {server : Server}

/-- A turn of the loop fails and keeps nothing, or is a turn against the venue itself. -/
theorem flaky_window (reads : Reads lib)
    (flaky : FlakyServes lib venue marketId toMs authToken server) {lo hi : Int} (nonneg : 0 ≤ lo)
    (ahead : lo < hi) (within : hi ≤ toMs.tdiv 1000) (d : PriceDownload) :
    (∃ d' what,
      priceWindow (getCandlesBatch lib server authToken) marketId interval fromMs toMs lo hi d =
        (d', some what) ∧ d'.lastOpenTime = d.lastOpenTime ∧ d'.retVal = d.retVal) ∨
    priceWindow (getCandlesBatch lib server authToken) marketId interval fromMs toMs lo hi d =
      priceWindow venue.endpoint marketId interval fromMs toMs lo hi d := by
  rcases flaky lo hi nonneg ahead within with ⟨what, failed⟩ | ⟨items, page, rows⟩
  · have thrown : getCandlesBatch lib server authToken (candleRequest marketId interval lo hi) =
        .error what := by
      simp [getCandlesBatch, readCandles, failed, bind, Except.bind]
    exact Or.inl ⟨{ d with asked := d.asked ++ [candleRequest marketId interval lo hi] }, what,
      by simp only [priceWindow, ask, thrown], rfl, rfl⟩
  · have answered : getCandlesBatch lib server authToken (candleRequest marketId interval lo hi) =
        .ok (venue.answer (candleRequest marketId interval lo hi)) := candles_read reads page rows
    exact Or.inr (by simp only [priceWindow, ask, answered, CandleVenue.endpoint])

/-- The range ends early enough that no candle inside it overflows the clock. -/
def EndsEarly (interval : CandleInterval) (toMs : Int) : Prop :=
  toMs + numberOfMsForCandleInterval interval < 2 ^ 63

/-- However the download ends, it has collected the candles inside the range up to some time. -/
theorem flaky_download (reads : Reads lib)
    (flaky : FlakyServes lib venue marketId toMs authToken server) (early : EndsEarly interval toMs)
    (nonneg : 0 ≤ fromMs) : ∃ cursorSec d outcome,
    getHistoricalPrices (getCandlesBatch lib server authToken) marketId interval fromMs toMs =
      (d, outcome) ∧
    Collected Candle.openTime (insideCandle fromMs toMs (numberOfMsForCandleInterval interval))
      venue.held (1000 * cursorSec) d.lastOpenTime d.retVal ∧
    (outcome = none → toMs.tdiv 1000 ≤ cursorSec) := by
  have starts : 0 ≤ fromMs.tdiv 1000 := Int.tdiv_nonneg nonneg (by decide)
  have window := candleWindowSec_pos interval
  have positive : 0 < numberOfMsForCandleInterval interval := not_le.mp (intervalMs_valid interval)
  have reaches : ∃ c d, (0 ≤ c ∧ Covered interval venue fromMs toMs (1000 * c) d) ∧
      ((∃ what, walk (candleWindowSec interval) (toMs.tdiv 1000) (candleWindowSec_pos interval)
          (priceWindow (getCandlesBatch lib server authToken) marketId interval fromMs toMs)
          (fromMs.tdiv 1000) ⟨[], -1, [], []⟩ = (d, some what)) ∨
        walk (candleWindowSec interval) (toMs.tdiv 1000) (candleWindowSec_pos interval)
          (priceWindow (getCandlesBatch lib server authToken) marketId interval fromMs toMs)
          (fromMs.tdiv 1000) ⟨[], -1, [], []⟩ = (d, none) ∧ toMs.tdiv 1000 ≤ c) := by
    refine walk_reaches (I := fun c d => 0 ≤ c ∧ Covered interval venue fromMs toMs (1000 * c) d)
      (fun lo d before at_cursor => ?_) _ _ ⟨starts, covered_start interval venue fromMs toMs nonneg⟩
    rcases flaky_window reads flaky at_cursor.1
      (show lo < min (lo + candleWindowSec interval) (toMs.tdiv 1000) by omega) (by omega) d with
      ⟨d', what, failed, last, kept⟩ | same
    · refine Or.inl ⟨d', what, failed, at_cursor.1, ?_⟩
      unfold Covered
      rw [last, kept]
      exact at_cursor.2
    · rw [same]
      obtain ⟨d', turned, covered⟩ := priceWindow_covered interval venue marketId fromMs toMs lo
        (min (lo + candleWindowSec interval) (toMs.tdiv 1000)) d (by omega) (by omega) (by omega)
        at_cursor.2
      exact Or.inr ⟨d', turned, by omega, Collected.mono covered (by omega)⟩
  have agree : ∀ c ∈ venue.held,
      takenCandle fromMs toMs (numberOfMsForCandleInterval interval) c =
        insideCandle fromMs toMs (numberOfMsForCandleInterval interval) c := by
    intro c member
    unfold EndsEarly at early
    refine (takenCandle_eq_inside_iff interval nonneg (by omega) (venue.aligned c member)).mpr ?_
    intro _ upto
    omega
  unfold getHistoricalPrices
  rw [if_neg (intervalMs_valid interval)]
  obtain ⟨cursorSec, d, ⟨-, covered⟩, ⟨what, failed⟩ | ⟨finished, arrived⟩⟩ := reaches
  · exact ⟨cursorSec, d, some what, failed, Collected.congr covered agree,
      fun absent => absurd absent (Option.some_ne_none what)⟩
  · exact ⟨cursorSec, d, none, finished, Collected.congr covered agree, fun _ => arrived⟩

/-! ## One attempt after another -/

/-- The candles that lie wholly inside the range. -/
abbrev Inside (interval : CandleInterval) (fromMs toMs : Int) : Candle → Bool :=
  insideCandle fromMs toMs (numberOfMsForCandleInterval interval)

theorem inside_from (interval : CandleInterval) (toMs : Int) {first : Int} (later : fromMs ≤ first) :
    Inside interval first toMs = wantedFrom Candle.openTime (Inside interval fromMs toMs) first := by
  funext c
  simp only [Inside, insideCandle, wantedFrom, ← Bool.decide_and, decide_eq_decide]
  omega

theorem inside_starts : ∀ c ∈ venue.held, Inside interval fromMs toMs c = true →
    fromMs ≤ c.openTime := by
  intro c _ want
  simp only [Inside, insideCandle, decide_eq_true_eq] at want
  exact want.1

/-- A client never goes back before the start of its range. -/
theorem le_resumeAt {archive : List Candle}
    (segment : Segment Candle.openTime (Inside interval fromMs toMs) venue.held archive) :
    fromMs ≤ resumeAt Candle.openTime fromMs archive := by
  unfold resumeAt
  cases final : archive.getLast? with
  | none => exact le_rfl
  | some c =>
    have kept := (segment.mem_iff venue.ascending inside_starts).mp (List.mem_of_getLast? final)
    have first := inside_starts c kept.1 kept.2.1
    simp only [Option.map_some, Option.getD_some]
    omega

section Attempts

variable (reads : Reads lib) (nonneg : 0 ≤ fromMs) (early : EndsEarly interval toMs)
  (flaky : FlakyServes lib venue marketId toMs authToken server) {archive : List Candle}
  (segment : Segment Candle.openTime (Inside interval fromMs toMs) venue.held archive)

include reads nonneg early flaky segment

/-- What one attempt adds, and that it adds all that was missing unless it fails. -/
theorem attempt_adds : ∃ new cursorSec last,
    (attempt lib marketId interval fromMs toMs authToken archive server).1 = archive ++ new ∧
      Collected Candle.openTime
        (wantedFrom Candle.openTime (Inside interval fromMs toMs)
          (resumeAt Candle.openTime fromMs archive)) venue.held (1000 * cursorSec) last new ∧
      ((attempt lib marketId interval fromMs toMs authToken archive server).2 = none →
        new = venue.held.filter (wantedFrom Candle.openTime (Inside interval fromMs toMs)
          (resumeAt Candle.openTime fromMs archive))) := by
  have later := le_resumeAt segment
  obtain ⟨cursorSec, d, outcome, ended, covered, arrived⟩ :=
    flaky_download reads flaky early (nonneg.trans later)
  have whole := (getHistoricalPrices_written (getCandlesBatch lib server authToken) marketId interval
    (resumeAt Candle.openTime fromMs archive) toMs).1
  rw [ended] at whole
  have same := inside_from interval toMs later
  rw [← same]
  refine ⟨d.retVal, cursorSec, d.lastOpenTime, ?_, covered, fun succeeded => ?_⟩
  · rw [attempt, ended, ← whole]
  · rw [attempt, ended] at succeeded
    refine Collected.complete covered fun c member want => ?_
    have before := (inside_in_walk interval _ toMs (nonneg.trans later) c (venue.aligned c member)
      want).2
    have reached := arrived succeeded
    omega

theorem attempt_segment : Segment Candle.openTime (Inside interval fromMs toMs) venue.held
    (attempt lib marketId interval fromMs toMs authToken archive server).1 := by
  obtain ⟨new, cursorSec, last, added, collected, -⟩ := attempt_adds reads nonneg early flaky segment
  rw [added]
  exact segment.resume venue.ascending inside_starts collected

theorem attempt_finishes
    (succeeds : (attempt lib marketId interval fromMs toMs authToken archive server).2 = none) :
    (attempt lib marketId interval fromMs toMs authToken archive server).1 =
      venue.held.filter (Inside interval fromMs toMs) := by
  obtain ⟨new, cursorSec, last, added, -, complete⟩ := attempt_adds reads nonneg early flaky segment
  rw [added]
  exact segment.finish venue.ascending inside_starts (complete succeeds)

end Attempts

/-- After any number of attempts a client that goes on behind its last candle has the first
candles of the range, each once and in order, and after the first attempt that does not
throw all of them. -/
theorem resumed_download_exact (lib : RestExternals) (reads : Reads lib) (interval : CandleInterval)
    (venue : CandleVenue (numberOfMsForCandleInterval interval)) (marketId fromMs toMs : Int)
    (nonneg : 0 ≤ fromMs) (early : EndsEarly interval toMs) (authToken : String)
    (servers : List Server)
    (flaky : ∀ server ∈ servers, FlakyServes lib venue marketId toMs authToken server) :
    archiveOf lib marketId interval fromMs toMs authToken servers <+:
        venue.held.filter (fun c => fromMs ≤ c.openTime ∧
          c.openTime + numberOfMsForCandleInterval interval ≤ toMs) ∧
      ∀ server, FlakyServes lib venue marketId toMs authToken server →
        let archive := archiveOf lib marketId interval fromMs toMs authToken servers
        (attempt lib marketId interval fromMs toMs authToken archive server).2 = none →
          (attempt lib marketId interval fromMs toMs authToken archive server).1 =
            venue.held.filter (fun c => fromMs ≤ c.openTime ∧
              c.openTime + numberOfMsForCandleInterval interval ≤ toMs) := by
  have segment : Segment Candle.openTime (Inside interval fromMs toMs) venue.held
      (archiveOf lib marketId interval fromMs toMs authToken servers) := by
    unfold archiveOf
    induction servers using List.reverseRecOn with
    | nil => exact Segment.nil venue.held
    | append_singleton before server ih =>
      rw [List.foldl_append]
      exact attempt_segment reads nonneg early (flaky server (by simp))
        (ih fun s member => flaky s (List.mem_append_left _ member))
  exact ⟨segment.first_part venue.ascending, fun server flaky' succeeds =>
    attempt_finishes reads nonneg early flaky' segment succeeds⟩

/-! ## A download that is cut in two -/

/-- A query in the order of its keys, as numbers and texts stand in it. -/
def queryText : List (String × Json) → String
  | [] => ""
  | (key, .int n) :: rest => key ++ "=" ++ toString n ++ "&" ++ queryText rest
  | (key, .str s) :: rest => key ++ "=" ++ s ++ "&" ++ queryText rest
  | _ :: rest => queryText rest

def firstHour : Candle := ⟨0, 1, 2, 1, 2, 5, 7⟩

/-- A candle of the second window. -/
def laterHour : Candle := ⟨2160000000, 2, 3, 2, 3, 5, 12⟩

def hourVenue : CandleVenue (numberOfMsForCandleInterval ._1h) where
  held := [firstHour, laterHour]
  ascending := by simp [Ascending, firstHour, laterHour]
  aligned := by decide

def firstItem : Json :=
  .obj [("V", .int 7), ("c", .int 2), ("h", .num 2), ("l", .int 1), ("o", .int 1), ("t", .int 0),
    ("v", .num 5)]

def laterItem : Json :=
  .obj [("V", .int 12), ("c", .num 3), ("h", .num 3), ("l", .int 2), ("o", .int 2),
    ("t", .int 2160000000), ("v", .num 5)]

def hourLib : RestExternals :=
  { plainReaders [("first", .obj [("c", .arr [firstItem]), ("code", .int 200)]),
      ("both", .obj [("c", .arr [firstItem, laterItem]), ("code", .int 200)])] [] with
    queryStringFromJson := fun query =>
      match query with
      | .obj members => queryText members
      | _ => "" }

theorem hourLib_reads : Reads hourLib :=
  let plain := plainReaders_reads _ _
  ⟨plain.values, plain.int64_present, plain.int64_missing, plain.double_present,
    plain.double_whole, plain.bool_present, plain.decimal_present⟩

def hourRequest (lo hi : Int) : HttpRequest :=
  get hourLib kCandlesPath (batchQuery (candleRequest 1 ._1h lo hi)) ""

/-- The venue goes down between two windows. -/
def cut : Server := fun req =>
  if req = hourRequest 0 1796400 then .http 200 "first" else .http 502 "Bad Gateway"

def whole : Server := fun req =>
  if req = hourRequest 0 1796400 then .http 200 "first"
  else if req = hourRequest 1796400 3592800 then .http 200 "both" else .http 502 "Bad Gateway"

theorem rendered_inj {m n : Int} {rest rest' : List Char}
    (same : (toString m).toList ++ '&' :: rest = (toString n).toList ++ '&' :: rest') :
    m = n ∧ rest = rest' := by
  have read : ∀ (k : Int) (behind : List Char),
      strtol (String.ofList ((toString k).toList ++ '&' :: behind)) = some k :=
    fun k behind => strtol_decimal k (by simp)
  have number := read m rest
  rw [same, read n rest'] at number
  obtain rfl := Option.some.inj number
  exact ⟨rfl, (List.cons.inj (List.append_cancel_left same)).2⟩

theorem hourRequest_target (lo hi : Int) : ∃ rest, (hourRequest lo hi).target.toList =
    "/api/v1/candles?count_back=".toList ++ ((toString (windowCount lo hi 3600)).toList ++ '&' ::
      ("end_timestamp=".toList ++ ((toString hi).toList ++ '&' :: rest))) := by
  refine ⟨("market_id=" ++ toString (1 : Int) ++ "&" ++ ("resolution=" ++ "1h" ++ "&" ++
    ("start_timestamp=" ++ toString lo ++ "&" ++ ""))).toList, ?_⟩
  have shown : (hourRequest lo hi).target = "/api/v1/candles" ++ "?" ++ ("count_back=" ++
      toString (windowCount lo hi 3600) ++ "&" ++ ("end_timestamp=" ++ toString hi ++ "&" ++
        ("market_id=" ++ toString (1 : Int) ++ "&" ++ ("resolution=" ++ "1h" ++ "&" ++
          ("start_timestamp=" ++ toString lo ++ "&" ++ ""))))) := rfl
  rw [shown]
  simp only [String.toList_append, List.append_assoc]
  rfl

/-- Two windows with one query have the same count and end. -/
theorem hourRequest_inj {lo hi lo' hi' : Int} (same : hourRequest lo hi = hourRequest lo' hi') :
    windowCount lo hi 3600 = windowCount lo' hi' 3600 ∧ hi = hi' := by
  obtain ⟨rest, target⟩ := hourRequest_target lo hi
  obtain ⟨rest', target'⟩ := hourRequest_target lo' hi'
  rw [same, target', List.append_cancel_left_eq] at target
  obtain ⟨count, behind⟩ := rendered_inj target
  rw [List.append_cancel_left_eq] at behind
  exact ⟨count.symm, (rendered_inj behind).1.symm⟩

/-- The answer to a window is that to any other with the same query. -/
theorem answer_of_same {lo hi lo' hi' : Int} (same : hourRequest lo hi = hourRequest lo' hi') :
    hourVenue.answer (candleRequest 1 ._1h lo hi) = hourVenue.answer (candleRequest 1 ._1h lo' hi') := by
  obtain ⟨count, stop⟩ := hourRequest_inj same
  have counts : (candleRequest 1 ._1h lo hi).countBack = (candleRequest 1 ._1h lo' hi').countBack :=
    count
  have ends : (candleRequest 1 ._1h lo hi).endSec = (candleRequest 1 ._1h lo' hi').endSec := stop
  unfold CandleVenue.answer
  rw [counts, ends]

theorem firstItem_carries : Carries hourLib firstItem (candleFields firstHour) := by
  simp [carries_cons, carries_nil, candleFields, firstHour, firstItem, Field.Spelled]

theorem laterItem_carries : Carries hourLib laterItem (candleFields laterHour) := by
  simp [carries_cons, carries_nil, candleFields, laterHour, laterItem, Field.Spelled]

theorem cut_serves : FlakyServes hourLib hourVenue 1 3592800000 "" cut := by
  intro lo hi _ _ _
  dsimp only
  by_cases first : hourRequest lo hi = hourRequest 0 1796400
  · refine Or.inr ⟨[firstItem], ⟨"first", _, if_pos first, rfl, rfl, rfl, rfl⟩, ?_⟩
    rw [answer_of_same first]
    exact .cons firstItem_carries .nil
  · exact Or.inl ⟨_, congrArg (envelope hourLib) (if_neg first)⟩

theorem whole_serves : FlakyServes hourLib hourVenue 1 3592800000 "" whole := by
  intro lo hi _ _ _
  dsimp only
  by_cases first : hourRequest lo hi = hourRequest 0 1796400
  · refine Or.inr ⟨[firstItem], ⟨"first", _, if_pos first, rfl, rfl, rfl, rfl⟩, ?_⟩
    rw [answer_of_same first]
    exact .cons firstItem_carries .nil
  · by_cases second : hourRequest lo hi = hourRequest 1796400 3592800
    · refine Or.inr ⟨[firstItem, laterItem],
        ⟨"both", _, (if_neg first).trans (if_pos second), rfl, rfl, rfl, rfl⟩, ?_⟩
      rw [answer_of_same second]
      exact .cons firstItem_carries (.cons laterItem_carries .nil)
    · exact Or.inl ⟨_, congrArg (envelope hourLib) ((if_neg first).trans (if_neg second))⟩

/-- The exchanges of the two windows. -/
theorem cut_answers :
    getCandlesBatch hourLib cut "" (candleRequest 1 ._1h 0 1796400) = .ok [firstHour] ∧
      getCandlesBatch hourLib cut "" (candleRequest 1 ._1h 1796400 3592800) =
        .error "Lighter HTTP error, code 502, msg: Bad Gateway" := by
  have apart : hourRequest 1796400 3592800 ≠ hourRequest 0 1796400 := by
    intro same
    exact absurd (hourRequest_inj same).2 (by decide)
  refine ⟨candles_read hourLib_reads ⟨"first", _, if_pos rfl, rfl, rfl, rfl, rfl⟩
    (.cons firstItem_carries .nil), ?_⟩
  exact congrArg (readCandles hourLib) (if_neg apart)

theorem whole_answers :
    getCandlesBatch hourLib whole "" (candleRequest 1 ._1h 0 1796400) = .ok [firstHour] ∧
      getCandlesBatch hourLib whole "" (candleRequest 1 ._1h 1796400 3592800) =
        .ok [firstHour, laterHour] := by
  have apart : hourRequest 1796400 3592800 ≠ hourRequest 0 1796400 := by
    intro same
    exact absurd (hourRequest_inj same).2 (by decide)
  exact ⟨candles_read hourLib_reads ⟨"first", _, if_pos rfl, rfl, rfl, rfl, rfl⟩
      (.cons firstItem_carries .nil),
    candles_read hourLib_reads ⟨"both", _, (if_neg apart).trans (if_pos rfl), rfl, rfl, rfl, rfl⟩
      (.cons firstItem_carries (.cons laterItem_carries .nil))⟩

/-- The first attempt has the first window. -/
theorem cut_attempt : attempt hourLib 1 ._1h 0 3592800000 "" [] cut =
    ([firstHour], some "Lighter HTTP error, code 502, msg: Bad Gateway") := by
  have first : priceWindow (getCandlesBatch hourLib cut "") 1 ._1h 0 3592800000 0 1796400
      ⟨[], -1, [], []⟩ = (⟨[firstHour], 0, [[firstHour]], [candleRequest 1 ._1h 0 1796400]⟩, none) := by
    simp only [priceWindow, ask, cut_answers.1]
    rfl
  have second : (priceWindow (getCandlesBatch hourLib cut "") 1 ._1h 0 3592800000 1796400 3592800
      ⟨[firstHour], 0, [[firstHour]], [candleRequest 1 ._1h 0 1796400]⟩) =
      (⟨[firstHour], 0, [[firstHour]],
          [candleRequest 1 ._1h 0 1796400, candleRequest 1 ._1h 1796400 3592800]⟩,
        some "Lighter HTTP error, code 502, msg: Bad Gateway") := by
    simp only [priceWindow, ask, cut_answers.2]
    rfl
  have resumes : resumeAt Candle.openTime 0 ([] : List Candle) = 0 := rfl
  unfold attempt getHistoricalPrices
  rw [if_neg (intervalMs_valid _), resumes, walk_next (by decide) first,
    walk_fail (by decide) second]
  rfl

/-- The second attempt is given the first window again, and keeps what lies behind it. -/
theorem whole_attempt : attempt hourLib 1 ._1h 0 3592800000 "" [firstHour] whole =
    ([firstHour, laterHour], none) := by
  have first : priceWindow (getCandlesBatch hourLib whole "") 1 ._1h 1 3592800000 0 1796400
      ⟨[], -1, [], []⟩ = (⟨[], -1, [], [candleRequest 1 ._1h 0 1796400]⟩, none) := by
    simp only [priceWindow, ask, whole_answers.1]
    rfl
  have second : (priceWindow (getCandlesBatch hourLib whole "") 1 ._1h 1 3592800000 1796400 3592800
      ⟨[], -1, [], [candleRequest 1 ._1h 0 1796400]⟩) =
      (⟨[laterHour], 2160000000, [[laterHour]],
        [candleRequest 1 ._1h 0 1796400, candleRequest 1 ._1h 1796400 3592800]⟩, none) := by
    simp only [priceWindow, ask, whole_answers.2]
    rfl
  have resumes : resumeAt Candle.openTime 0 [firstHour] = 1 := rfl
  unfold attempt getHistoricalPrices
  rw [if_neg (intervalMs_valid _), resumes, walk_next (by decide) first,
    walk_next (by decide) second, walk_of_le _ _ (by decide)]
  rfl

/-- The venue goes down behind the first window, and the next attempt brings the rest. -/
theorem resumed_download_exact_sample :
    archiveOf hourLib 1 ._1h 0 3592800000 "" [cut] = [firstHour] ∧
      archiveOf hourLib 1 ._1h 0 3592800000 "" [cut] <+: [firstHour, laterHour] ∧
      (attempt hourLib 1 ._1h 0 3592800000 "" (archiveOf hourLib 1 ._1h 0 3592800000 "" [cut])
        whole).1 = [firstHour, laterHour] := by
  have archived : archiveOf hourLib 1 ._1h 0 3592800000 "" [cut] = [firstHour] := by
    rw [archiveOf, List.foldl_cons, cut_attempt, List.foldl_nil]
  have flaky : ∀ server ∈ [cut], FlakyServes hourLib hourVenue 1 3592800000 "" server := by
    intro server member
    rw [List.mem_singleton.mp member]
    exact cut_serves
  have resumed := resumed_download_exact hourLib hourLib_reads ._1h hourVenue 1 0 3592800000 le_rfl
    (by unfold EndsEarly; decide) "" [cut] flaky
  refine ⟨archived, resumed.1, resumed.2 whole whole_serves ?_⟩
  rw [archived, whole_attempt]

end LighterApi.Guarantees.ResumedDownload

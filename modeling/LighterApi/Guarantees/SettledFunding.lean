import Mathlib.Data.List.ReduceOption
import Mathlib.Tactic.Linarith
import LighterApi.Guarantees.WireRecords

/-!
# History and snapshot quote one funding rate

The venue settles a signed fraction of the notional every hour, positive when longs pay.
Its history writes it as an unsigned percentage in a text, next to the side that pays; its
snapshot as a signed number, eight times as large, among the rows of other exchanges. Both
methods of the client return the settled fraction itself, in exact rational arithmetic and
whatever pages the venue answers with, so that a snapshot continues a history
(`funding_rates_settled`).
-/
namespace LighterApi.Guarantees.SettledFunding
open LighterApi.Library.WindowWalk
open LighterApi.Source LighterApi.Source.SendTx LighterApi.Source.History LighterApi.Source.Rest
open LighterApi.Guarantees.WireRecords

/-- What the venue settles: the signed rate of a market at a time in milliseconds. -/
abbrev Ledger := Int → Int → Rat

/-- The side that pays; at a rate of zero it may be either. -/
def Pays (direction : String) (rate : Rat) : Prop :=
  (direction = "long" ∧ 0 ≤ rate) ∨ (direction = "short" ∧ rate ≤ 0)

/-- A time in milliseconds, or in seconds that look like seconds. -/
def Stamped (time stamp : Int) : Prop :=
  stamp = time ∨ (1000 * stamp = time ∧ stamp < 100000000000)

variable (lib : RestExternals) (settled : Ledger)

/-- A row of the history: it names no market. -/
def HistoryRow (marketId : Int) (json : Json) : Prop :=
  ∃ members time stamp percent direction,
    json = .obj members ∧ 100000000000 ≤ time ∧ Stamped time stamp ∧
      Carries lib json [("timestamp", .int64 stamp), ("direction", .text direction)] ∧
      json.find "rate" = some (.str percent) ∧
      lib.stod percent = some (100 * |settled marketId time|) ∧
      Pays direction (settled marketId time) ∧
      json.find "market_id" = none ∧ json.find "symbol" = none ∧ json.find "exchange" = none

/-- A row of the snapshot: another exchange's, or a market of the venue with its symbol. -/
def SnapshotRow (now : Int) (json : Json) : Option (Int × String) → Prop
  | none => ∃ exchange, Carries lib json [("exchange", .text exchange)] ∧ exchange ≠ kLighterExchangeTag
  | some (marketId, symbol) => ∃ members,
    json = .obj members ∧
      Carries lib json [("exchange", .text kLighterExchangeTag), ("market_id", .int32 marketId),
        ("symbol", .text symbol), ("rate", .number (8 * settled marketId now))] ∧
      json.find "timestamp" = none ∧ json.find "direction" = none

/-- Every exchange about the history of the market fails, or brings a page of its rows. -/
def HistoryServes (marketId : Int) (authToken : String) (server : HttpRequest → Answer) : Prop :=
  ∀ lo hi countBack,
    let answer := server (get lib kFundingsPath
      (batchQuery ⟨marketId, kFundingResolution, lo, hi, countBack⟩) authToken)
    (∃ what, envelope lib answer = .error what) ∨
      ∃ items, Page lib answer "fundings" items ∧ ∀ item ∈ items, HistoryRow lib settled marketId item

/-- The rate of the event is the settled one of its market at its time. -/
def AsSettled (marketId : Int) (fr : FundingRate) : Prop :=
  fr.marketId = marketId ∧ fr.fundingRate = settled marketId fr.fundingTime

variable {lib settled} {marketId : Int} {authToken : String} {server : HttpRequest → Answer}

/-! ## The history -/

/-- The sign of the direction restores the rate. -/
theorem rateOf_percent {json : Json} {percent direction : String} {rate : Rat}
    (found : json.find "rate" = some (.str percent)) (spelled : lib.stod percent = some (100 * |rate|))
    (pays : Pays direction rate) : rateOf lib json direction = rate := by
  have magnitude : 100 * |rate| / 100 = |rate| := mul_div_cancel_left₀ |rate| (by norm_num)
  unfold rateOf
  rw [found]
  dsimp only
  rw [spelled]
  dsimp only
  rw [magnitude]
  rcases pays with ⟨rfl, nonneg⟩ | ⟨rfl, nonpos⟩
  · rw [if_neg (by decide), abs_of_nonneg nonneg]
  · rw [if_pos rfl, abs_of_nonpos nonpos, neg_neg]

theorem normaliseTime_stamped {time stamp : Int} (late : 100000000000 ≤ time)
    (stamped : Stamped time stamp) (fr : FundingRate) (at_stamp : fr.fundingTime = stamp) :
    normaliseTime fr = { fr with fundingTime := time } := by
  unfold normaliseTime
  rw [at_stamp]
  rcases stamped with rfl | ⟨rfl, small⟩
  · rw [if_neg (by omega), ← at_stamp]
  · rw [if_pos (by omega), Int.mul_comm]

/-- A row is read as the settled rate of the asked market at the row's time. -/
theorem history_row (reads : Reads lib) {json : Json} (row : HistoryRow lib settled marketId json) :
    ∃ fr, fundingFromJson lib json = .ok fr ∧
      AsSettled settled marketId (normaliseTime (backfillMarket marketId fr)) := by
  obtain ⟨members, time, stamp, percent, direction, rfl, late, stamped, carries, found, spelled, pays,
    no_market, no_symbol, no_exchange⟩ := row
  have rate := rateOf_percent found spelled pays
  refine ⟨{ fundingRate := settled marketId time, fundingTime := stamp, direction }, ?_, ?_⟩
  · unfold fundingFromJson
    rw [carries.readInt64 reads (n := stamp) (by simp), carries.readText reads (s := direction) (by simp),
      reads.values.int_missing _ _ _ no_market, reads.values.text_missing _ _ _ no_symbol,
      reads.values.text_missing _ _ _ no_exchange]
    simp only [bind, Except.bind, pure, Except.pure, rate]
  · rw [backfillMarket, if_pos (show (-1 : Int) < 0 by decide),
      normaliseTime_stamped late stamped _ rfl]
    exact ⟨rfl, rfl⟩

theorem history_rows (reads : Reads lib) {items : List Json}
    (rows : ∀ item ∈ items, HistoryRow lib settled marketId item) :
    ∃ rates, items.mapM (fundingFromJson lib) = .ok rates ∧
      ∀ fr ∈ rates, AsSettled settled marketId (normaliseTime (backfillMarket marketId fr)) := by
  induction items with
  | nil => exact ⟨[], rfl, fun _ member => absurd member List.not_mem_nil⟩
  | cons item rest ih =>
    obtain ⟨fr, read, as_settled⟩ := history_row reads (rows item List.mem_cons_self)
    obtain ⟨rates, others, all⟩ := ih fun item member => rows item (List.mem_cons_of_mem _ member)
    refine ⟨fr :: rates, by rw [List.mapM_cons, read, others]; rfl, ?_⟩
    intro other member
    rcases List.mem_cons.mp member with rfl | member
    · exact as_settled
    · exact all other member

/-- A turn of the loop adds settled rates only. -/
theorem fundingWindow_settled (reads : Reads lib)
    (serves : HistoryServes lib settled marketId authToken server) (startTime endTime lo hi : Int)
    (d : FundingDownload) (before : ∀ fr ∈ d.retVal, AsSettled settled marketId fr) :
    ∀ fr ∈ (fundingWindow (fundingBatch lib server authToken) marketId startTime endTime lo hi d).1.retVal,
      AsSettled settled marketId fr := by
  have answered := serves lo hi (windowCount lo hi fundingIntervalSec)
  unfold fundingWindow getFundingBatch ask fundingBatch readFundings
  rcases answered with ⟨what, failed⟩ | ⟨items, page, rows⟩
  · simp only [failed, bind, Except.bind, Except.map]
    exact before
  · obtain ⟨json, opened, found⟩ := page.envelope
    obtain ⟨rates, read, all⟩ := history_rows reads rows
    rw [opened]
    simp only [arrayOf, found, Json.asArray, read, bind, Except.bind, Option.bind_some, Except.map]
    intro fr member
    rcases List.mem_append.mp member with old | new
    · exact before fr old
    · rw [keepFundings_eq_collect] at new
      have batched := (collect_wanted _ _ _ _ fr new).1
      obtain ⟨_, inner, rfl⟩ := List.mem_map.mp batched
      obtain ⟨raw, raw_member, rfl⟩ := List.mem_map.mp inner
      exact all raw raw_member

theorem getFundingRates_settled (reads : Reads lib)
    (serves : HistoryServes lib settled marketId authToken server) (startTime endTime : Int) :
    ∀ fr ∈ (getFundingRates (fundingBatch lib server authToken) marketId startTime endTime).1.retVal,
      AsSettled settled marketId fr := by
  have start : ∀ fr ∈ (⟨[], -1, []⟩ : FundingDownload).retVal, AsSettled settled marketId fr :=
    fun fr member => absurd member List.not_mem_nil
  unfold getFundingRates
  exact walk_always
    (P := fun d : FundingDownload => ∀ fr ∈ d.retVal, AsSettled settled marketId fr)
    (fun lo hi d => fundingWindow_settled reads serves startTime endTime lo hi d) _ _ start

/-! ## The snapshot -/

/-- The quote of a market in the snapshot. -/
def quoteAt (settled : Ledger) (now : Int) (entry : Int × String) : FundingRate where
  marketId := entry.1
  symbol := entry.2
  fundingRate := settled entry.1 now
  exchange := kLighterExchangeTag

theorem rateOf_number {json : Json} {rate : Rat} {v : Json} (direction : String)
    (found : json.find "rate" = some v) (spelled : (Field.number rate).Spelled lib v) :
    rateOf lib json direction = rate := by
  unfold rateOf
  rw [found]
  rcases spelled with rfl | ⟨n, rfl, rfl, -⟩ <;> rfl

/-- An eighth of the quote is what is settled in the hour. -/
theorem snapshot_row (reads : Reads lib) {now : Int} {json : Json} {entry : Option (Int × String)}
    (row : SnapshotRow lib settled now json entry) :
    readCurrentFunding lib json = .ok (entry.map (quoteAt settled now)) := by
  unfold readCurrentFunding
  cases entry with
  | none =>
    obtain ⟨exchange, carries, other⟩ := row
    rw [carries.readText reads (s := exchange) (by simp)]
    simp only [bind, Except.bind, ne_eq, other, not_false_eq_true, if_true, pure, Except.pure,
      Option.map_none]
  | some entry =>
    obtain ⟨marketId, symbol⟩ := entry
    obtain ⟨members, rfl, carries, no_time, no_direction⟩ := row
    obtain ⟨v, found, spelled⟩ := carries "rate" (.number (8 * settled marketId now)) (by simp)
    have rate := rateOf_number "" found spelled
    have hourly : 8 * settled marketId now / 8 = settled marketId now :=
      mul_div_cancel_left₀ _ (by norm_num)
    unfold fundingFromJson
    rw [carries.readText reads (s := kLighterExchangeTag) (by simp),
      reads.int64_missing _ _ _ no_time, reads.values.text_missing _ _ _ no_direction,
      carries.readInt32 reads (n := marketId) (by simp), carries.readText reads (s := symbol) (by simp)]
    simp only [bind, Except.bind, ne_eq, not_true_eq_false, if_false, pure, Except.pure, rate, hourly,
      Option.map_some, quoteAt]

theorem getCurrentFundingRates_settled (reads : Reads lib) {now : Int} {items : List Json}
    {entries : List (Option (Int × String))}
    (page : Page lib (server (get lib kFundingRatesPath (.obj []) authToken)) "funding_rates" items)
    (rows : List.Forall₂ (SnapshotRow lib settled now) items entries) :
    getCurrentFundingRates lib server authToken =
      .ok (entries.reduceOption.map (quoteAt settled now)) := by
  obtain ⟨json, opened, found⟩ := page.envelope
  have read : items.mapM (readCurrentFunding lib) =
      .ok (entries.map (Option.map (quoteAt settled now))) := by
    apply mapM_read
    rw [List.forall₂_map_right_iff]
    exact rows.imp fun item entry row => snapshot_row reads row
  unfold getCurrentFundingRates
  rw [opened]
  simp only [bind, Except.bind, pure, Except.pure, found, Json.asArray, Option.bind_some,
    Option.getD_some, read, List.reduceOption_map]

/-- Whatever the venue answers to any request, no event of a market's history, complete or cut
short by an exception, carries another rate than the one settled at its time; and a snapshot
holds exactly the venue's own markets, in order, each at the rate the history has for that hour. -/
theorem funding_rates_settled (lib : RestExternals) (reads : Reads lib) (settled : Ledger)
    (server : HttpRequest → Answer) (authToken : String) :
    (∀ marketId, HistoryServes lib settled marketId authToken server → ∀ startTime endTime,
      ∀ fr ∈ (getFundingRates (fundingBatch lib server authToken) marketId startTime endTime).1.retVal,
        fr.marketId = marketId ∧ fr.fundingRate = settled marketId fr.fundingTime) ∧
    ∀ now items entries,
      Page lib (server (get lib kFundingRatesPath (.obj []) authToken)) "funding_rates" items →
      List.Forall₂ (SnapshotRow lib settled now) items entries →
      getCurrentFundingRates lib server authToken =
        .ok (entries.reduceOption.map fun entry =>
          { marketId := entry.1, symbol := entry.2, fundingRate := settled entry.1 now,
            exchange := "lighter" }) :=
  ⟨fun _ serves startTime endTime => getFundingRates_settled reads serves startTime endTime,
    fun _ _ _ page rows => getCurrentFundingRates_settled reads page rows⟩

/-! ## A sample hour -/

/-- Shorts pay. -/
def sampleLedger : Ledger := fun _ _ => -(3 / 250000)

def sampleHour : Json :=
  .obj [("direction", .str "short"), ("rate", .str "0.0012"), ("timestamp", .int 1700000000)]

def sampleQuotes : List Json :=
  [.obj [("exchange", .str "binance")],
    .obj [("exchange", .str "lighter"), ("market_id", .int 3), ("rate", .num (-(12 / 125000))),
      ("symbol", .str "ETH")]]

def samplePages : RestExternals :=
  plainReaders [("hours", .obj [("code", .int 200), ("fundings", .arr [sampleHour])]),
    ("quotes", .obj [("code", .int 200), ("funding_rates", .arr sampleQuotes)])] [("0.0012", 3 / 2500)]

def sampleServer (req : HttpRequest) : Answer :=
  .http 200 (if req.target = kFundingRatesPath then "quotes" else "hours")

theorem sampleHour_row : HistoryRow samplePages sampleLedger 3 sampleHour := by
  refine ⟨_, 1700000000000, 1700000000, "0.0012", "short", rfl, by decide, Or.inr (by decide), ?_, rfl,
    ?_, Or.inr ⟨rfl, ?_⟩, rfl, rfl, rfl⟩
  · simp [carries_cons, carries_nil, Field.Spelled, sampleHour, Json.find]
  · simp only [samplePages, plainReaders, List.lookup_cons, sampleLedger]
    norm_num [abs_of_neg]
  · norm_num [sampleLedger]

theorem sampleHour_served : HistoryServes samplePages sampleLedger 3 "" sampleServer := by
  intro lo hi countBack
  have served : sampleServer (get samplePages kFundingsPath
      (batchQuery ⟨3, kFundingResolution, lo, hi, countBack⟩) "") = .http 200 "hours" := rfl
  refine Or.inr ⟨[sampleHour], ⟨"hours", _, served, rfl, rfl, rfl, rfl⟩, ?_⟩
  intro item member
  rw [List.mem_singleton.mp member]
  exact sampleHour_row

theorem sampleQuotes_rows :
    List.Forall₂ (SnapshotRow samplePages sampleLedger 1700000000000) sampleQuotes
      [none, some (3, "ETH")] := by
  refine .cons ⟨"binance", ?_, by decide⟩ (.cons ⟨_, rfl, ?_, rfl, rfl⟩ .nil)
  · simp [carries_cons, carries_nil, Field.Spelled, Json.find]
  · simp [carries_cons, carries_nil, Field.Spelled, Json.find, sampleLedger, kLighterExchangeTag]
    norm_num

theorem funding_rates_settled_sample :
    (∀ fr ∈ (getFundingRates (fundingBatch samplePages sampleServer "") 3 1699999200000
      1700002800000).1.retVal, fr.marketId = 3 ∧ fr.fundingRate = -(3 / 250000)) ∧
    getCurrentFundingRates samplePages sampleServer "" =
      .ok [{ marketId := 3, symbol := "ETH", fundingRate := -(3 / 250000), exchange := "lighter" }] :=
  have settles := funding_rates_settled samplePages (plainReaders_reads _ _) sampleLedger sampleServer ""
  ⟨settles.1 3 sampleHour_served _ _,
    settles.2 1700000000000 sampleQuotes _ ⟨"quotes", _, rfl, rfl, rfl, rfl, rfl⟩ sampleQuotes_rows⟩

end LighterApi.Guarantees.SettledFunding

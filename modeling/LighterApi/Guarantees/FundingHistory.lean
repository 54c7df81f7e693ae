import LighterApi.Source.History

/-!
# Funding history: when the closed range is answered exactly

The venue holds hourly funding events later than `10^11` ms, spells each time in
seconds or in milliseconds, and answers a batch with an ascending part of the
events up to the window's end that holds the last `count_back` of them.

The download is exact on all but two kinds of input. The loop is guarded by
truncated seconds, so a range that starts and ends within one second asks
nothing, even when an event lies in it. And a time spelt in seconds is
recognised only below `10^11`, so an event from `10^14` ms on keeps its seconds.
-/
namespace LighterApi.Guarantees.FundingHistory
open LighterApi.Library.WindowWalk LighterApi.Source.History

/-- A venue's funding events, times in ms, with the spelling of each on the wire and
its answer to every batch request. -/
structure FundingVenue where
  events : List FundingRate
  ascending : Ascending FundingRate.fundingTime events
  hourly : ∀ e ∈ events, 3600000 ∣ e.fundingTime
  late : ∀ e ∈ events, 100000000000 < e.fundingTime
  inSeconds : FundingRate → Bool
  answer : BatchRequest → List FundingRate
  answer_part : ∀ req, (answer req).Sublist
    (events.filter fun e => e.fundingTime ≤ 1000 * req.endSec)
  answer_last : ∀ req, ∀ e ∈ (events.filter fun e => e.fundingTime ≤ 1000 * req.endSec).rtake
    req.countBack.toNat, e ∈ answer req

namespace FundingVenue

variable (venue : FundingVenue)

/-- An event as it travels. -/
def spell (e : FundingRate) : FundingRate :=
  if venue.inSeconds e then { e with fundingTime := e.fundingTime / 1000 } else e

def endpoint (req : BatchRequest) : Except String (List FundingRate) :=
  .ok ((venue.answer req).map venue.spell)

end FundingVenue

/-- The download is complete and exact: no exception, and exactly the events in
`[startTime, endTime]`, ascending, each once, with the time in ms. -/
def Exact (venue : FundingVenue) (marketId startTime endTime : Int) : Prop :=
  let download := getFundingRates venue.endpoint marketId startTime endTime
  download.2 = none ∧
    download.1.retVal = (venue.events.filter fun e =>
      startTime ≤ e.fundingTime ∧ e.fundingTime ≤ endTime).map (backfillMarket marketId) ∧
    Ascending FundingRate.fundingTime download.1.retVal

/-- A second boundary lies between the ends or no event lies in the range, and no event
in the range is spelt in seconds from `10^14` ms on. -/
def Served (venue : FundingVenue) (startTime endTime : Int) : Prop :=
  (startTime.tdiv 1000 < endTime.tdiv 1000 ∨
    ∀ e ∈ venue.events, ¬ (startTime ≤ e.fundingTime ∧ e.fundingTime ≤ endTime)) ∧
  ∀ e ∈ venue.events, startTime ≤ e.fundingTime → e.fundingTime ≤ endTime →
    venue.inSeconds e = true → e.fundingTime < 100000000000000

variable (venue : FundingVenue) (marketId startTime endTime : Int)

@[simp] theorem backfillMarket_fundingTime (fr : FundingRate) :
    (backfillMarket marketId fr).fundingTime = fr.fundingTime := by
  unfold backfillMarket
  split <;> rfl

theorem backfillMarket_normaliseTime (fr : FundingRate) :
    backfillMarket marketId (normaliseTime fr) = normaliseTime (backfillMarket marketId fr) := by
  unfold normaliseTime
  rw [backfillMarket_fundingTime]
  unfold backfillMarket
  split <;> split <;> rfl

/-- An event after parsing, backfilling and normalising. -/
def seen (e : FundingRate) : FundingRate :=
  normaliseTime (backfillMarket marketId (venue.spell e))

/-- A time spelt in ms, or in seconds before `10^14` ms, is read back. -/
theorem seen_of_early {e : FundingRate} (member : e ∈ venue.events)
    (early : venue.inSeconds e = true → e.fundingTime < 100000000000000) :
    seen venue marketId e = backfillMarket marketId e := by
  obtain ⟨n, hn⟩ := venue.hourly e member
  have late := venue.late e member
  unfold seen
  rw [← backfillMarket_normaliseTime]
  congr 1
  unfold FundingVenue.spell normaliseTime
  cases spelt : venue.inSeconds e with
  | false =>
    simp only [Bool.false_eq_true, if_false]
    rw [if_neg (by omega)]
  | true =>
    have := early spelt
    simp only [if_true]
    rw [if_pos (by omega)]
    have back : e.fundingTime / 1000 * 1000 = e.fundingTime := by omega
    rw [back]

/-- A time spelt in seconds from `10^14` ms on stays in seconds. -/
theorem seen_of_far {e : FundingRate} (spelt : venue.inSeconds e = true)
    (far : 100000000000000 ≤ e.fundingTime) :
    (seen venue marketId e).fundingTime = e.fundingTime / 1000 := by
  unfold seen
  rw [← backfillMarket_normaliseTime, backfillMarket_fundingTime]
  unfold FundingVenue.spell normaliseTime
  rw [spelt, if_pos rfl, if_neg (by simp only; omega)]

/-- The answer of the venue to the window `[lo, hi]`. -/
def windowAnswer (lo hi : Int) : List FundingRate :=
  venue.answer ⟨marketId, kFundingResolution, lo, hi, windowCount lo hi fundingIntervalSec⟩

/-- The answer to a window of at most 499 hours holds every event inside it. -/
theorem answer_answers (lo hi : Int) (ahead : lo ≤ hi) (short : hi ≤ lo + fundingWindowSec) :
    Answers FundingRate.fundingTime venue.events (1000 * lo) (1000 * hi)
      (windowAnswer venue marketId lo hi) := by
  unfold windowAnswer
  generalize request : (⟨marketId, kFundingResolution, lo, hi,
    windowCount lo hi fundingIntervalSec⟩ : BatchRequest) = req
  have count : req.countBack = (hi - lo) / fundingIntervalSec + 1 := by
    rw [← request]
    exact windowCount_eq (by decide) ahead short
  have stop : req.endSec = hi := by rw [← request]
  have part := venue.answer_part req
  have last := venue.answer_last req
  rw [stop] at part last
  have hours : (1000 * hi - 1000 * lo) / 3600000 = (hi - lo) / fundingIntervalSec := by
    unfold fundingIntervalSec
    omega
  have nonneg : 0 ≤ (hi - lo) / fundingIntervalSec := Int.ediv_nonneg (by omega) (by decide)
  refine Answers.of_last FundingRate.fundingTime 3600000 req.countBack.toNat (by decide) (by omega)
    venue.ascending venue.hourly ?_ (fun e he => (List.mem_filter.mp (part.subset he)).1)
    (venue.ascending.sublist (part.trans List.filter_sublist)) ?_ last
  · rw [hours]
    omega
  · intro e he
    simpa using (List.mem_filter.mp (part.subset he)).2

/-! ## The loop -/

/-- The loop state with the cursor at `cursorSec`, for a range without far events spelt
in seconds. The frontier is past the cursor once a window has been visited. -/
def Covered (cursorSec : Int) (d : FundingDownload) : Prop :=
  startTime.tdiv 1000 ≤ cursorSec ∧
  ∃ kept, d.retVal = kept.map (backfillMarket marketId) ∧
    Collected FundingRate.fundingTime (wantedFunding startTime endTime) venue.events
      (1000 * cursorSec + if startTime.tdiv 1000 < cursorSec then 1 else 0) d.lastTime kept

variable {venue marketId startTime endTime}

/-- Filtering the events as they are read takes the events that are wanted. -/
theorem keepFundings_seen (marketId : Int) (near : ∀ e ∈ venue.events, startTime ≤ e.fundingTime →
      e.fundingTime ≤ endTime → venue.inSeconds e = true → e.fundingTime < 100000000000000)
    {batch : List FundingRate} (part : ∀ e ∈ batch, e ∈ venue.events)
    (upto : ∀ e ∈ batch, e.fundingTime ≤ endTime) (last : Int) :
    keepFundings startTime endTime last (batch.map (seen venue marketId)) =
      ((collect FundingRate.fundingTime (wantedFunding startTime endTime) last batch).1.map
          (backfillMarket marketId),
        (collect FundingRate.fundingTime (wantedFunding startTime endTime) last batch).2) := by
  rw [keepFundings_eq_collect]
  refine collect_map _ _ _ _ last batch ?_
  intro e he
  have member := part e he
  have before := upto e he
  by_cases early : venue.inSeconds e = true → e.fundingTime < 100000000000000
  · rw [seen_of_early venue marketId member early]
    simp [wantedFunding]
  · -- Not recognised, so out of range, and even more so read as ms.
    push Not at early
    obtain ⟨spelt, far⟩ := early
    have out : ¬ startTime ≤ e.fundingTime := by
      intro start
      have := near e member start before spelt
      omega
    have unwanted : wantedFunding startTime endTime e = false := by
      simp [wantedFunding, out]
    rw [unwanted]
    have time := seen_of_far venue marketId spelt far
    refine ⟨?_, fun h => absurd h Bool.false_ne_true⟩
    simp only [wantedFunding, time, decide_eq_false_iff_not]
    omega

/-- One turn of the loop filters the window's answer as it is read. -/
theorem fundingWindow_eq (lo hi : Int) (d : FundingDownload) :
    fundingWindow venue.endpoint marketId startTime endTime lo hi d =
      (⟨d.retVal ++ (keepFundings startTime endTime d.lastTime
          ((windowAnswer venue marketId lo hi).map (seen venue marketId))).1,
        (keepFundings startTime endTime d.lastTime
          ((windowAnswer venue marketId lo hi).map (seen venue marketId))).2,
        d.asked ++ [⟨marketId, kFundingResolution, lo, hi, windowCount lo hi fundingIntervalSec⟩]⟩,
        none) := by
  have composed : normaliseTime ∘ backfillMarket marketId ∘ venue.spell = seen venue marketId := rfl
  simp only [fundingWindow, getFundingBatch, ask, FundingVenue.endpoint, Except.map, List.map_map,
    composed, windowAnswer]

theorem fundingWindow_covered (near : ∀ e ∈ venue.events, startTime ≤ e.fundingTime →
      e.fundingTime ≤ endTime → venue.inSeconds e = true → e.fundingTime < 100000000000000)
    {lo hi : Int} {d : FundingDownload} (ahead : lo < hi) (short : hi ≤ lo + fundingWindowSec)
    (upto : 1000 * hi ≤ max endTime 0) (before : Covered venue marketId startTime endTime lo d) :
    ∃ d', fundingWindow venue.endpoint marketId startTime endTime lo hi d = (d', none) ∧
      Covered venue marketId startTime endTime hi d' := by
  obtain ⟨later, kept, ret_eq, covered⟩ := before
  have answers := answer_answers venue marketId lo hi ahead.le short
  have low : 1000 * lo ≤ 1000 * lo + if startTime.tdiv 1000 < lo then 1 else 0 := by
    split <;> omega
  have after := Collected.advance venue.ascending (covered.mono low) answers
  have kept_eq := keepFundings_seen marketId near answers.part (fun e he => by
    have := answers.bounded e he
    have := venue.late e (answers.part e he)
    omega) d.lastTime
  rw [fundingWindow_eq, kept_eq]
  refine ⟨_, rfl, by omega, kept ++ (collect FundingRate.fundingTime
    (wantedFunding startTime endTime) d.lastTime (windowAnswer venue marketId lo hi)).1, ?_, ?_⟩
  · rw [List.map_append, ret_eq]
  · rw [if_pos (by omega)]
    exact after

/-- A window of the loop ends by the end of the range, in seconds towards zero. -/
theorem window_upto {hi : Int} (le : hi ≤ endTime.tdiv 1000) : 1000 * hi ≤ max endTime 0 := by
  by_cases nonneg : 0 ≤ endTime
  · rw [tdiv_thousand_of_nonneg nonneg] at le
    omega
  · have := tdiv_thousand_nonpos (le_of_not_ge nonneg)
    omega

/-- A range whose ends lie in one second is not asked for. -/
theorem getFundingRates_of_le (venue : FundingVenue) (marketId : Int) {startTime endTime : Int}
    (done : endTime.tdiv 1000 ≤ startTime.tdiv 1000) :
    getFundingRates venue.endpoint marketId startTime endTime = (⟨[], -1, []⟩, none) :=
  walk_of_le _ _ done

/-- The whole download, when the loop is entered and no event in range is far. -/
theorem getFundingRates_covered (marketId : Int) (near : ∀ e ∈ venue.events, startTime ≤ e.fundingTime →
      e.fundingTime ≤ endTime → venue.inSeconds e = true → e.fundingTime < 100000000000000)
    (entered : startTime.tdiv 1000 < endTime.tdiv 1000) :
    ∃ d, getFundingRates venue.endpoint marketId startTime endTime = (d, none) ∧
      Covered venue marketId startTime endTime (endTime.tdiv 1000) d := by
  have start : Covered venue marketId startTime endTime (startTime.tdiv 1000) ⟨[], -1, []⟩ := by
    refine ⟨le_refl _, [], rfl, Collected.start ?_⟩
    intro e member want
    have late := venue.late e member
    simp only [wantedFunding, decide_eq_true_eq] at want
    rw [if_neg (lt_irrefl _)]
    have before : 1000 * startTime.tdiv 1000 ≤ max startTime 0 := window_upto (le_refl _)
    exact ⟨show -1 < e.fundingTime by omega, by omega⟩
  refine walk_invariant ?_ _ _ start entered
  intro lo d more covered
  have window := fundingWindowSec_pos
  exact fundingWindow_covered near (by omega) (by omega) (window_upto (by omega)) covered

/-- Everything returned is an event of the venue up to the end of the range, as read. -/
def Drawn (venue : FundingVenue) (marketId endTime : Int) (d : FundingDownload) : Prop :=
  ∀ fr ∈ d.retVal, ∃ e ∈ venue.events, e.fundingTime ≤ endTime ∧ fr = seen venue marketId e

theorem fundingWindow_drawn {lo hi : Int} {d : FundingDownload} (ahead : lo < hi)
    (short : hi ≤ lo + fundingWindowSec) (upto : 1000 * hi ≤ max endTime 0)
    (before : Drawn venue marketId endTime d) :
    ∃ d', fundingWindow venue.endpoint marketId startTime endTime lo hi d = (d', none) ∧
      Drawn venue marketId endTime d' := by
  have answers := answer_answers venue marketId lo hi ahead.le short
  refine ⟨_, fundingWindow_eq lo hi d, ?_⟩
  intro fr member
  rcases List.mem_append.mp member with old | fresh
  · exact before fr old
  · rw [keepFundings_eq_collect] at fresh
    obtain ⟨read, _, _⟩ := collect_wanted _ _ _ _ fr fresh
    obtain ⟨e, answered, rfl⟩ := List.mem_map.mp read
    have bounded := answers.bounded e answered
    have held := answers.part e answered
    have late := venue.late e held
    exact ⟨e, held, by omega, rfl⟩

theorem getFundingRates_drawn (venue : FundingVenue) (marketId startTime endTime : Int) :
    ∃ d, getFundingRates venue.endpoint marketId startTime endTime = (d, none) ∧
      Drawn venue marketId endTime d := by
  have start : Drawn venue marketId endTime ⟨[], -1, []⟩ := fun _ h => absurd h List.not_mem_nil
  by_cases entered : startTime.tdiv 1000 < endTime.tdiv 1000
  · refine walk_invariant (I := fun _ => Drawn venue marketId endTime) ?_ _ _ start entered
    intro lo d more drawn
    have window := fundingWindowSec_pos
    exact fundingWindow_drawn (by omega) (by omega) (window_upto (by omega)) drawn
  · exact ⟨_, getFundingRates_of_le venue marketId (not_lt.mp entered), start⟩

/-- A far event spelt in seconds is returned only in place of a later one. -/
theorem no_far_returned {d : FundingDownload} (drawn : Drawn venue marketId endTime d)
    (returned : ∀ e ∈ venue.events, startTime ≤ e.fundingTime → e.fundingTime ≤ endTime →
      backfillMarket marketId e ∈ d.retVal)
    (e : FundingRate) (member : e ∈ venue.events) (after : startTime ≤ e.fundingTime)
    (before : e.fundingTime ≤ endTime) (spelt : venue.inSeconds e = true) :
    e.fundingTime < 100000000000000 := by
  by_contra far
  obtain ⟨e', member', before', same⟩ := drawn _ (returned e member after before)
  have times : e.fundingTime = (seen venue marketId e').fundingTime := by
    rw [← same, backfillMarket_fundingTime]
  by_cases early : venue.inSeconds e' = true → e'.fundingTime < 100000000000000
  · rw [seen_of_early venue marketId member' early, backfillMarket_fundingTime] at times
    have once : (venue.events.map FundingRate.fundingTime).Nodup :=
      List.pairwise_map.mpr (venue.ascending.imp ne_of_lt)
    have one : e = e' := List.inj_on_of_nodup_map once member member' times
    rw [← one] at early
    exact far (early spelt)
  · push Not at early
    obtain ⟨spelt', far'⟩ := early
    have times' := times.trans (seen_of_far venue marketId spelt' far')
    have later : e.fundingTime < e'.fundingTime := by omega
    exact absurd (no_far_returned drawn returned e' member' (by omega) before' spelt') (by omega)
termination_by (endTime - e.fundingTime).toNat
decreasing_by omega

theorem served_of_exact (exact : Exact venue marketId startTime endTime) :
    Served venue startTime endTime := by
  obtain ⟨d, download_eq, drawn⟩ := getFundingRates_drawn venue marketId startTime endTime
  unfold Exact at exact
  rw [download_eq] at exact
  obtain ⟨_, ret_eq, _⟩ := exact
  have returned : ∀ e ∈ venue.events, startTime ≤ e.fundingTime → e.fundingTime ≤ endTime →
      backfillMarket marketId e ∈ d.retVal := by
    intro e member after before
    change d.retVal = _ at ret_eq
    rw [ret_eq]
    exact List.mem_map_of_mem (by simp [member, after, before])
  refine ⟨?_, fun e member after before spelt =>
    no_far_returned drawn returned e member after before spelt⟩
  by_cases entered : startTime.tdiv 1000 < endTime.tdiv 1000
  · exact Or.inl entered
  · refine Or.inr ?_
    intro e member inside
    rw [getFundingRates_of_le venue marketId (not_lt.mp entered)] at download_eq
    have nothing : ⟨[], -1, []⟩ = d := congrArg Prod.fst download_eq
    have held := returned e member inside.1 inside.2
    rw [← nothing] at held
    exact absurd held List.not_mem_nil

theorem exact_of_entered (near : ∀ e ∈ venue.events, startTime ≤ e.fundingTime →
      e.fundingTime ≤ endTime → venue.inSeconds e = true → e.fundingTime < 100000000000000)
    (entered : startTime.tdiv 1000 < endTime.tdiv 1000) : Exact venue marketId startTime endTime := by
  obtain ⟨d, download_eq, _, kept, ret_eq, collected⟩ := getFundingRates_covered marketId near entered
  have result : kept = venue.events.filter (wantedFunding startTime endTime) := by
    refine Collected.complete collected ?_
    intro e member want
    obtain ⟨n, hn⟩ := venue.hourly e member
    have late := venue.late e member
    simp only [wantedFunding, decide_eq_true_eq] at want
    rw [if_pos entered, tdiv_thousand_of_nonneg (by omega)]
    omega
  unfold Exact
  rw [download_eq]
  refine ⟨rfl, ?_, ?_⟩
  · change d.retVal = _
    rw [ret_eq, result]
    rfl
  · change Ascending FundingRate.fundingTime d.retVal
    rw [ret_eq, result]
    refine List.pairwise_map.mpr ((venue.ascending.filter _).imp ?_)
    intro a b lt
    simpa using lt

/-- Nothing is asked for, and nothing had to be. -/
theorem exact_of_empty (done : endTime.tdiv 1000 ≤ startTime.tdiv 1000)
    (empty : ∀ e ∈ venue.events, ¬ (startTime ≤ e.fundingTime ∧ e.fundingTime ≤ endTime)) :
    Exact venue marketId startTime endTime := by
  have none_wanted : (venue.events.filter fun e =>
      startTime ≤ e.fundingTime ∧ e.fundingTime ≤ endTime) = [] := by
    rw [List.filter_eq_nil_iff]
    intro e member
    simpa using empty e member
  unfold Exact
  rw [getFundingRates_of_le venue marketId done, none_wanted]
  exact ⟨rfl, rfl, List.Pairwise.nil⟩

/-- The download is complete and exact just when the range is served. -/
theorem getFundingRates_exact_iff (venue : FundingVenue) (marketId startTime endTime : Int) :
    Exact venue marketId startTime endTime ↔ Served venue startTime endTime := by
  constructor
  · exact served_of_exact
  · rintro ⟨reached, near⟩
    by_cases entered : startTime.tdiv 1000 < endTime.tdiv 1000
    · exact exact_of_entered near entered
    · exact exact_of_empty (not_lt.mp entered) (reached.resolve_left entered)

/-- One funding event, at the only instant asked for. -/
def hourVenue : FundingVenue where
  events := [⟨1, "BTC", 0, 1800000000000, "long", "lighter"⟩]
  ascending := by simp [Ascending]
  hourly := by decide
  late := by decide
  inSeconds := fun _ => false
  answer req := [⟨1, "BTC", 0, 1800000000000, "long", "lighter"⟩].filter fun e =>
    e.fundingTime ≤ 1000 * req.endSec
  answer_part _ := List.Sublist.refl _
  answer_last _ _ h := (List.mem_of_mem_drop (by simpa only [List.rtake] using h))

/-- A range of one instant returns nothing although an event lies at that instant. -/
theorem getFundingRates_misses_instant : ¬ Exact hourVenue 1 1800000000000 1800000000000 := by
  rintro ⟨_, ret_eq, _⟩
  rw [getFundingRates_of_le hourVenue 1 (le_refl _)] at ret_eq
  simp [hourVenue] at ret_eq

end LighterApi.Guarantees.FundingHistory

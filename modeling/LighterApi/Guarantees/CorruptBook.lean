import LighterApi.Guarantees.BookRefinement

/-!
# Quotes from a book known to be corrupt

A crossed book is taken as proof of a lost delta and answered with a resubscribe, and
the crossed prices are not quoted. Deltas that arrive before the new snapshot are still
applied to the corrupt book, and one that leaves it uncrossed is quoted at once.
-/
namespace LighterApi.Guarantees.CorruptBook
open LighterApi.Source LighterApi.Source.StreamManager LighterApi.Guarantees.BookRefinement

variable (lib : Externals) (hooks : Hooks)

/-- The messages leave a bid resting above an ask. -/
def Crossed (m : Int) (msgs : List Json) : Prop :=
  ∃ bid ask, resting (writes m (appliedBids lib) msgs) bid ≠ none ∧
    resting (writes m (appliedAsks lib) msgs) ask ≠ none ∧ ask < bid

/-- After `before` the book of `m` is crossed, and no snapshot for it is applied in `gap`. -/
def Corrupt (m : Int) (before gap : List Json) : Prop :=
  Crossed lib m before ∧
    ∀ msg ∈ gap, about m msg = true → isSnapshot msg = true → complete msg = false

/-- In the run, a message that comes while the book of `m` is corrupt does not quote `m`. -/
def QuietWhileCorrupt (m : Int) (run : List Json) : Prop :=
  ∀ before gap msg after, run = before ++ gap ++ msg :: after →
    Corrupt lib m before (gap ++ [msg]) →
    ∀ quote ∈ quotes (onMessage lib hooks (onMessages lib hooks ∅ (before ++ gap)).1 msg).2,
      quote.1 ≠ m

/-- In the run, a whole delta that comes while the book of `m` is corrupt leaves a bid
resting above an ask. -/
def NeverUncrossed (m : Int) (run : List Json) : Prop :=
  ∀ before gap msg after, run = before ++ gap ++ msg :: after →
    Corrupt lib m before (gap ++ [msg]) → about m msg = true → complete msg = true →
    Crossed lib m (before ++ gap ++ [msg])

theorem resting_pos {log : List (Rat × Rat)} {price : Rat} (rests : resting log price ≠ none) :
    0 < price := by
  by_contra pos
  exact rests (if_neg pos)

/-- The code's test of the best prices finds every crossing. -/
theorem crossed_iff {msgs : List Json} (finite : ∀ msg ∈ msgs, allFinite msg = true) (m : Int) :
    crossed (bestPrice (bookOf (onMessages lib hooks ∅ msgs).1 m).bids)
        (bestPrice (bookOf (onMessages lib hooks ∅ msgs).1 m).asks) = true ↔
      Crossed lib m msgs := by
  have shown := onMessages_shown lib hooks finite ∅ [] (shown_start lib)
  have bids := bestBid_isBest (Shows.resting (shown.bids m))
  have asks := bestAsk_isBest (Shows.resting (shown.asks m))
  rw [List.nil_append] at bids asks
  simp only [crossed, decide_eq_true_eq]
  constructor
  · rintro ⟨bid_pos, ask_pos, above⟩
    rcases bids with ⟨_, zero⟩ | bids
    · exact absurd bid_pos (by rw [zero]; exact lt_irrefl 0)
    · rcases asks with ⟨_, zero⟩ | asks
      · exact absurd ask_pos (by rw [zero]; exact lt_irrefl 0)
      · exact ⟨_, _, bids.1, asks.1, above⟩
  · rintro ⟨bid, ask, bid_rests, ask_rests, above⟩
    rcases bids with ⟨empty, _⟩ | bids
    · exact absurd (empty bid) bid_rests
    · rcases asks with ⟨empty, _⟩ | asks
      · exact absurd (empty ask) ask_rests
      · have highest := bids.2 bid_rests
        have lowest := asks.2 ask_rests
        exact ⟨resting_pos bids.1, resting_pos asks.1, lt_of_le_of_lt lowest
          (lt_of_lt_of_le above highest)⟩

/-- A message quotes `m` exactly when it is a whole message for `m` that leaves the
book uncrossed. -/
theorem quoted_iff (set : hooks.book = true) {msgs : List Json} {msg : Json}
    (finite : ∀ msg' ∈ msgs ++ [msg], allFinite msg' = true) (m : Int) :
    (∃ quote ∈ quotes (onMessage lib hooks (onMessages lib hooks ∅ msgs).1 msg).2, quote.1 = m) ↔
      about m msg = true ∧ complete msg = true ∧ ¬ Crossed lib m (msgs ++ [msg]) := by
  have test := crossed_iff lib hooks finite m
  rw [onMessages_concat] at test
  rw [quotes_onMessage lib hooks _ set]
  constructor
  · rintro ⟨quote, member, rfl⟩
    split at member
    · rename_i whole
      dsimp only at member
      split at member
      · exact absurd member List.not_mem_nil
      · rename_i uncrossed
        rw [List.mem_singleton.mp member] at test ⊢
        refine ⟨by simp [about, whole.1], whole.2, ?_⟩
        exact fun cross => uncrossed (test.mpr cross)
    · exact absurd member List.not_mem_nil
  · rintro ⟨mine, whole, uncrossed⟩
    unfold about at mine
    rw [Bool.and_eq_true, beq_iff_eq] at mine
    obtain ⟨kind, rfl⟩ := mine
    rw [if_pos ⟨kind, whole⟩]
    dsimp only
    rw [if_neg fun cross => uncrossed (test.mp cross)]
    exact ⟨_, List.mem_singleton_self _, rfl⟩

/-- A run of finite prices and sizes never quotes a corrupt book of `m` just when no delta
uncrosses it. -/
theorem quietWhileCorrupt_iff (set : hooks.book = true) (m : Int) (run : List Json)
    (finite : ∀ msg ∈ run, allFinite msg = true) :
    QuietWhileCorrupt lib hooks m run ↔ NeverUncrossed lib m run := by
  have so_far : ∀ before gap msg after, run = before ++ gap ++ msg :: after →
      ∀ msg' ∈ (before ++ gap) ++ [msg], allFinite msg' = true := by
    rintro before gap msg after rfl msg' member
    exact finite msg' (by simp only [List.mem_append, List.mem_cons] at member ⊢; tauto)
  constructor
  · intro quiet before gap msg after split corrupt mine whole
    by_contra uncrossed
    obtain ⟨quote, member, market⟩ :=
      (quoted_iff lib hooks set (so_far before gap msg after split) m).mpr ⟨mine, whole, uncrossed⟩
    exact quiet before gap msg after split corrupt quote member market
  · intro never before gap msg after split corrupt quote member market
    obtain ⟨mine, whole, uncrossed⟩ :=
      (quoted_iff lib hooks set (so_far before gap msg after split) m).mp ⟨quote, member, market⟩
    exact uncrossed (never before gap msg after split corrupt mine whole)

/-- A snapshot, a delta that crosses the book, and a delta that uncrosses it. -/
def uncrossingRun : List Json :=
  [bookJson "subscribed/order_book" 7 [levelJson 100 1, levelJson 98 1] [levelJson 101 1],
    bookJson "update/order_book" 7 [] [levelJson 99 1],
    bookJson "update/order_book" 7 [levelJson 100 0] []]

theorem quietWhileCorrupt_iff_sample :
    QuietWhileCorrupt sampleExternals allHooks 7 uncrossingRun ↔
      NeverUncrossed sampleExternals 7 uncrossingRun :=
  quietWhileCorrupt_iff sampleExternals allHooks rfl 7 uncrossingRun (by decide)

/-- The uncrossing delta quotes 98 bid, 99 ask from the corrupt book. -/
theorem corrupt_book_quoted : ¬ QuietWhileCorrupt sampleExternals allHooks 7 uncrossingRun := by
  intro quiet
  have crossed : Crossed sampleExternals 7 (uncrossingRun.take 2) :=
    ⟨100, 99, by decide, by decide, by decide +kernel⟩
  have told := quiet (uncrossingRun.take 2) [] (bookJson "update/order_book" 7 [levelJson 100 0] [])
    [] rfl ⟨crossed, by decide⟩ (7, 98, 99)
  exact told (by decide +kernel) rfl

end LighterApi.Guarantees.CorruptBook

import LighterApi.Guarantees.CorruptBook
import LighterApi.Guarantees.MarketBound
import LighterApi.Guarantees.SymbolMarkets
import LighterApi.Library.LastMark
import LighterApi.Source.MarketData

/-!
# A cached quote is the top of a book that was on the wire

Every whole order-book message that leaves its market's reference book uncrossed announces
the best prices of that book, under the symbol that the loaded instruments give the market.
After any run of messages and reloads the quote of a symbol is the last one announced for
it (`lastQuote_iff_announced`). A market close whose symbol always kept its market id is
bounded by the newest uncrossed book of the very market it is sent to, in exact rational
arithmetic (`market_close_bounded_by_wire`).
-/
namespace LighterApi.Guarantees.QuotePath
open LighterApi.Library.Transition LighterApi.Library.LastMark
open LighterApi.Source LighterApi.Source.StreamManager LighterApi.Source.Gateway
open LighterApi.Source.Listings LighterApi.Source.MarketData
open LighterApi.Guarantees.BookRefinement LighterApi.Guarantees.CorruptBook
open LighterApi.Guarantees.SymbolMarkets

variable (lib : Externals) (hooks : Hooks)

/-- The messages of a run. -/
def messages (actions : List MarketData.Action) : List Json :=
  actions.filterMap fun
    | .message json _ => some json
    | _ => none

@[simp] theorem messages_nil : messages [] = [] := rfl

theorem messages_message (past : List MarketData.Action) (json : Json) (receivedAt : Nat) :
    messages (past ++ [.message json receivedAt]) = messages past ++ [json] := List.filterMap_append ..

/-- The message, handled after these, is whole and leaves the reference book of `m` uncrossed
with this top. -/
structure ShowsTop (m : Int) (before : List Json) (json : Json) (bid ask : Rat) : Prop where
  about : about m json = true
  complete : complete json = true
  bid : IsBestBid (resting (writes m (appliedBids lib) (before ++ [json]))) bid
  ask : IsBestAsk (resting (writes m (appliedAsks lib) (before ++ [json]))) ask
  uncrossed : ¬ Crossed lib m (before ++ [json])

/-- The last action shows the top of the book of a market that has the symbol. -/
def Announces (symbol : String) (past : List MarketData.Action) (a : MarketData.Action)
    (quote : Quote) : Prop :=
  ∃ json receivedAt m s, a = .message json receivedAt ∧ run (step lib hooks) .start past = some s ∧
    s.markets.quotedAs m = some symbol ∧ ShowsTop lib m (messages past) json quote.bid quote.ask ∧
    quote.receivedAt = receivedAt

variable {lib hooks}

/-! ## The books along a run -/

theorem onEffects_markets (receivedAt : Nat) (effects : List Effect) (markets : Markets) :
    effects.foldl (onEffect receivedAt) markets =
      (quotes (.ok effects)).foldl
        (fun markets quote => markets.onOrderBook quote.1 ⟨quote.2.1, quote.2.2, receivedAt⟩) markets := by
  induction effects generalizing markets with
  | nil => rfl
  | cons effect rest ih =>
    rw [List.foldl_cons, ih]
    cases effect <;> rfl

theorem onMessage_markets (s : State) (json : Json) (receivedAt : Nat) :
    (MarketData.onMessage lib hooks s json receivedAt).markets =
      (quotes (StreamManager.onMessage lib hooks s.books json).2).foldl
        (fun markets quote => markets.onOrderBook quote.1 ⟨quote.2.1, quote.2.2, receivedAt⟩)
        s.markets := by
  unfold MarketData.onMessage
  rcases StreamManager.onMessage lib hooks s.books json with ⟨books, outcome⟩
  cases outcome with
  | error what => rfl
  | ok effects => exact onEffects_markets receivedAt effects s.markets

/-- The books are those of the messages alone. -/
theorem run_books {actions : List MarketData.Action} {s : State}
    (reached : run (step lib hooks) .start actions = some s) :
    s.books = (onMessages lib hooks ∅ (messages actions)).1 := by
  refine run_history (H := fun past s => s.books = (onMessages lib hooks ∅ (messages past)).1)
    ?_ rfl reached
  intro past m a m' _ same taken
  cases a with
  | message json receivedAt =>
    rw [messages_message, onMessages_concat, ← same, ← Option.some.inj taken]
    rfl
  | loadAsset asset =>
    rw [← Option.some.inj taken, messages, List.filterMap_append]
    exact same.trans (by rw [messages]; simp)

/-! ## What a message announces -/

theorem isBestBid_unique {side : Rat → Option Rat} {best best' : Rat} (h : IsBestBid side best)
    (h' : IsBestBid side best') : best = best' := by
  rcases h with ⟨empty, rfl⟩ | greatest
  · rcases h' with ⟨_, rfl⟩ | greatest'
    · rfl
    · exact absurd (empty best') greatest'.1
  · rcases h' with ⟨empty, _⟩ | greatest'
    · exact absurd (empty best) greatest.1
    · exact greatest.unique greatest'

theorem isBestAsk_unique {side : Rat → Option Rat} {best best' : Rat} (h : IsBestAsk side best)
    (h' : IsBestAsk side best') : best = best' := by
  rcases h with ⟨empty, rfl⟩ | least
  · rcases h' with ⟨_, rfl⟩ | least'
    · rfl
    · exact absurd (empty best') least'.1
  · rcases h' with ⟨empty, _⟩ | least'
    · exact absurd (empty best) least.1
    · exact least.unique least'

theorem ShowsTop.market {m : Int} {before : List Json} {json : Json} {bid ask : Rat}
    (top : ShowsTop lib m before json bid ask) : marketOf json = m := by
  have mine := top.about
  unfold BookRefinement.about at mine
  rw [Bool.and_eq_true, beq_iff_eq] at mine
  exact mine.2

/-- The handler quotes the top that a message shows, and nothing when it shows none. -/
theorem quotes_top (set : hooks.book = true) {msgs : List Json} {json : Json}
    (finite : ∀ msg ∈ msgs ++ [json], allFinite msg = true) :
    (∃ bid ask, ShowsTop lib (marketOf json) msgs json bid ask ∧
      quotes (StreamManager.onMessage lib hooks (onMessages lib hooks ∅ msgs).1 json).2 =
        [(marketOf json, bid, ask)]) ∨
    (∀ m bid ask, ¬ ShowsTop lib m msgs json bid ask) ∧
      quotes (StreamManager.onMessage lib hooks (onMessages lib hooks ∅ msgs).1 json).2 = [] := by
  have shown := onMessages_shown lib hooks finite ∅ [] (shown_start lib)
  have test := crossed_iff lib hooks finite (marketOf json)
  rw [onMessages_concat] at shown test
  rw [quotes_onMessage lib hooks _ set]
  by_cases whole : isBookMessage json = true ∧ complete json = true
  · rw [if_pos whole]
    dsimp only
    by_cases cross : Crossed lib (marketOf json) (msgs ++ [json])
    · rw [if_pos (test.mpr cross)]
      refine Or.inr ⟨fun m bid ask top => ?_, rfl⟩
      exact top.uncrossed (top.market ▸ cross)
    · rw [if_neg fun found => cross (test.mp found)]
      refine Or.inl ⟨_, _, ⟨by simp [about, whole.1], whole.2, ?_, ?_, cross⟩, rfl⟩
      · exact bestBid_isBest (Shows.resting (shown.bids (marketOf json)))
      · exact bestAsk_isBest (Shows.resting (shown.asks (marketOf json)))
  · rw [if_neg whole]
    refine Or.inr ⟨fun m bid ask top => whole ⟨?_, top.complete⟩, rfl⟩
    have mine := top.about
    unfold BookRefinement.about at mine
    exact (Bool.and_eq_true _ _ ▸ mine).1

theorem announces_functional (symbol : String) (past : List MarketData.Action)
    (a : MarketData.Action) (quote quote' : Quote) (announces : Announces lib hooks symbol past a quote)
    (announces' : Announces lib hooks symbol past a quote') : quote = quote' := by
  obtain ⟨json, receivedAt, m, s, rfl, _, _, top, stamped⟩ := announces
  obtain ⟨json', receivedAt', m', s', same, _, _, top', stamped'⟩ := announces'
  obtain ⟨rfl, rfl⟩ := MarketData.Action.message.inj same
  obtain rfl := top.market.symm.trans top'.market
  have bids := isBestBid_unique top.bid top'.bid
  have asks := isBestAsk_unique top.ask top'.ask
  cases quote
  cases quote'
  simp_all

theorem announces_message_iff {symbol : String} {past : List MarketData.Action} {s : State}
    {json : Json} {receivedAt : Nat} {quote : Quote}
    (reached : run (step lib hooks) .start past = some s) :
    Announces lib hooks symbol past (.message json receivedAt) quote ↔
      s.markets.quotedAs (marketOf json) = some symbol ∧ quote.receivedAt = receivedAt ∧
        ShowsTop lib (marketOf json) (messages past) json quote.bid quote.ask := by
  constructor
  · rintro ⟨json', receivedAt', m, s', same, reached', named, top, stamped⟩
    obtain ⟨rfl, rfl⟩ := MarketData.Action.message.inj same
    obtain rfl := Option.some.inj (reached.symm.trans reached')
    rw [top.market]
    exact ⟨named, stamped, top⟩
  · rintro ⟨named, stamped, top⟩
    exact ⟨json, receivedAt, _, s, rfl, reached, named, top, stamped⟩

theorem finite_earlier {past actions : List MarketData.Action} (cut : past <+: actions)
    (finite : ∀ msg ∈ messages actions, allFinite msg = true) :
    ∀ msg ∈ messages past, allFinite msg = true :=
  fun msg member => finite msg ((cut.filterMap _).subset member)

/-- A step caches what it announces for the symbol, and leaves the quote alone otherwise. -/
theorem lastQuote_step (set : hooks.book = true) (symbol : String) {past : List MarketData.Action}
    {s s' : State} {a : MarketData.Action}
    (finite : ∀ msg ∈ messages (past ++ [a]), allFinite msg = true)
    (reached : run (step lib hooks) .start past = some s) (taken : step lib hooks s a = some s') :
    (∃ quote, Announces lib hooks symbol past a quote ∧ s'.lastQuote symbol = some quote) ∨
      (∀ quote, ¬ Announces lib hooks symbol past a quote) ∧
        s'.lastQuote symbol = s.lastQuote symbol := by
  cases a with
  | loadAsset asset =>
    obtain rfl := Option.some.inj taken
    refine Or.inr ⟨?_, rfl⟩
    rintro quote ⟨json, receivedAt, m, r, same, _⟩
    exact nomatch same
  | message json receivedAt =>
    obtain rfl := Option.some.inj taken
    simp only [announces_message_iff reached, State.lastQuote, onMessage_markets, run_books reached]
    rw [messages_message] at finite
    rcases quotes_top set finite with ⟨bid, ask, top, quoted⟩ | ⟨silent, quoted⟩
    · rw [quoted, List.foldl_cons, List.foldl_nil]
      unfold Markets.onOrderBook
      cases named : s.markets.quotedAs (marketOf json) with
      | none => exact Or.inr ⟨fun quote announces => absurd announces.1 (by simp), rfl⟩
      | some name =>
        by_cases mine : name = symbol
        · subst mine
          exact Or.inl ⟨⟨bid, ask, receivedAt⟩, ⟨rfl, rfl, top⟩, Function.update_self ..⟩
        · refine Or.inr ⟨fun quote announces => mine (Option.some.inj announces.1), ?_⟩
          exact Function.update_of_ne (fun same => mine same.symm) ..
    · rw [quoted, List.foldl_nil]
      exact Or.inr ⟨fun quote announces => silent _ _ _ announces.2.2, rfl⟩

/-- After every run of messages and reloads, interleaved in any way, whatever the venue sends
in finite numbers and lists, the quote of a symbol is the last one announced for it: the best
prices of the reference book of a market that had the symbol then, uncrossed, with no later
announcement. -/
theorem lastQuote_iff_announced (lib : Externals) (hooks : Hooks) (set : hooks.book = true)
    (actions : List MarketData.Action) (finite : ∀ msg ∈ messages actions, allFinite msg = true)
    (s : State) (reached : run (step lib hooks) .start actions = some s) (symbol : String) (quote : Quote) :
    s.lastQuote symbol = some quote ↔ Latest (Announces lib hooks symbol) actions quote :=
  run_latest (fun _ _ _ _ cut => lastQuote_step set symbol (finite_earlier cut finite))
    (announces_functional symbol) rfl reached quote

/-! ## Market closes -/

/-- The markets that are loaded have the ids and the symbols that belong to each other. -/
def KeepsIds (idOf : String → Int) (symbolOf : Int → String) : MarketData.Action → Prop
  | .message _ _ => True
  | .loadAsset asset => asset.marketId = idOf asset.symbol ∧ asset.symbol = symbolOf asset.marketId

/-- Both maps know only what belongs together. -/
structure Assigned (idOf : String → Int) (symbolOf : Int → String) (specs : Specs) : Prop where
  forward : ∀ symbol m, specs.instruments.symbolToMarketId symbol = some m → m = idOf symbol
  back : ∀ m symbol, specs.instruments.marketIdToSymbol m = some symbol →
    m = idOf symbol ∧ symbol = symbolOf m

variable {idOf : String → Int} {symbolOf : Int → String}

/-- What loading an asset with its old id keeps: the assignment, and every name of a market. -/
def Extends (idOf : String → Int) (symbolOf : Int → String) (specs specs' : Specs) : Prop :=
  Assigned idOf symbolOf specs → Assigned idOf symbolOf specs' ∧
    ∀ m symbol, specs.instruments.marketIdToSymbol m = some symbol →
      specs'.instruments.marketIdToSymbol m = some symbol

theorem loadAsset_extends (specs : Specs) {asset : PerpAsset}
    (own : asset.marketId = idOf asset.symbol ∧ asset.symbol = symbolOf asset.marketId) :
    Extends idOf symbolOf specs (specs.loadAsset asset) := by
  intro before
  refine ⟨⟨?_, ?_⟩, ?_⟩
  · intro symbol m found
    by_cases same : symbol = asset.symbol
    · subst same
      rw [show (specs.loadAsset asset).instruments.symbolToMarketId asset.symbol =
        some asset.marketId from Function.update_self ..] at found
      exact (Option.some.inj found).symm.trans own.1
    · rw [show (specs.loadAsset asset).instruments.symbolToMarketId symbol =
        specs.instruments.symbolToMarketId symbol from Function.update_of_ne same ..] at found
      exact before.forward symbol m found
  · intro m symbol found
    by_cases same : m = asset.marketId
    · subst same
      rw [show (specs.loadAsset asset).instruments.marketIdToSymbol asset.marketId =
        some asset.symbol from Function.update_self ..] at found
      exact Option.some.inj found ▸ own
    · rw [show (specs.loadAsset asset).instruments.marketIdToSymbol m =
        specs.instruments.marketIdToSymbol m from Function.update_of_ne same ..] at found
      exact before.back m symbol found
  · intro m symbol found
    by_cases same : m = asset.marketId
    · rw [(before.back m symbol found).2, same, ← own.2]
      exact Function.update_self ..
    · rw [show (specs.loadAsset asset).instruments.marketIdToSymbol m =
        specs.instruments.marketIdToSymbol m from Function.update_of_ne same ..]
      exact found

theorem onOrderBooks_specs (tops : List (Int × Rat × Rat)) (receivedAt : Nat) (markets : Markets) :
    (tops.foldl (fun markets quote =>
      markets.onOrderBook quote.1 ⟨quote.2.1, quote.2.2, receivedAt⟩) markets).specs =
      markets.specs := by
  induction tops generalizing markets with
  | nil => rfl
  | cons top rest ih =>
    rw [List.foldl_cons, ih]
    exact onOrderBook_specs markets _ _

theorem step_extends {s s' : State} {a : MarketData.Action}
    (keeps : KeepsIds idOf symbolOf a) (taken : step lib hooks s a = some s') :
    Extends idOf symbolOf s.markets.specs s'.markets.specs := by
  cases a with
  | message json receivedAt =>
    rw [← Option.some.inj taken, onMessage_markets, onOrderBooks_specs]
    exact fun before => ⟨before, fun _ _ found => found⟩
  | loadAsset asset =>
    rw [← Option.some.inj taken]
    exact loadAsset_extends _ keeps

/-- The run lemma: the assignment holds and no market loses its name. -/
theorem run_extends {actions : List MarketData.Action}
    {s s' : State} (keeps : ∀ a ∈ actions, KeepsIds idOf symbolOf a)
    (reached : run (step lib hooks) s actions = some s') :
    Extends idOf symbolOf s.markets.specs s'.markets.specs := by
  induction actions generalizing s with
  | nil =>
    obtain rfl := Option.some.inj reached
    exact fun before => ⟨before, fun _ _ found => found⟩
  | cons a rest ih =>
    obtain ⟨m, taken, reached⟩ := run_cons_eq_some.mp reached
    intro before
    obtain ⟨middle, kept⟩ := step_extends (keeps a List.mem_cons_self) taken before
    obtain ⟨after, kept'⟩ := ih (fun b member => keeps b (List.mem_cons_of_mem _ member)) reached middle
    exact ⟨after, fun m symbol found => kept' m symbol (kept m symbol found)⟩

theorem start_assigned : Assigned idOf symbolOf State.start.markets.specs where
  forward _ _ found := nomatch found
  back _ _ found := nomatch found

/-- A name that a market has stays its symbol's, so that every later top is announced for it. -/
theorem named_later {first between : List MarketData.Action}
    {s : State} {m : Int} {symbol : String} (keeps : ∀ a ∈ first ++ between, KeepsIds idOf symbolOf a)
    (reached : run (step lib hooks) .start first = some s) (named : s.markets.quotedAs m = some symbol) :
    ∃ s', run (step lib hooks) .start (first ++ between) = some s' ∧
      s'.markets.quotedAs m = some symbol := by
  induction between using List.reverseRecOn with
  | nil => exact ⟨s, by rw [List.append_nil]; exact reached, named⟩
  | append_singleton between a ih =>
    rw [← List.append_assoc] at keeps ⊢
    obtain ⟨middle, before, named⟩ := ih fun b member => keeps b (List.mem_append_left _ member)
    obtain ⟨s', taken⟩ : ∃ s', step lib hooks middle a = some s' := by cases a <;> exact ⟨_, rfl⟩
    refine ⟨s', run_append_eq_some.mpr ⟨middle, before, run_cons_eq_some.mpr ⟨s', taken, run_nil s'⟩⟩, ?_⟩
    have assigned := (run_extends
      (fun b member => keeps b (List.mem_append_left _ member)) before start_assigned).1
    have kept := (step_extends (keeps a (by simp)) taken assigned).2 m symbol
      (marketIdToSymbol_of_quotedAs named)
    unfold Markets.quotedAs Specs.symbolFor at named ⊢
    rw [marketIdToSymbol_of_quotedAs named, Option.getD_some] at named
    rw [kept, Option.getD_some]
    exact named

/-- While the venue keeps symbols and market ids to each other, a market close that is accepted
goes to the symbol's market and is bounded, in exact rational arithmetic, by the top of that
market's newest uncrossed book: no later whole message about the market left its reference book
uncrossed. -/
theorem market_close_bounded_by_wire (lib : Externals) (hooks : Hooks) (set : hooks.book = true)
    (idOf : String → Int) (symbolOf : Int → String) (actions : List MarketData.Action)
    (keeps : ∀ a ∈ actions, KeepsIds idOf symbolOf a)
    (finite : ∀ msg ∈ messages actions, allFinite msg = true) (s : State)
    (reached : run (step lib hooks) .start actions = some s) (symbol : String) (side : OrderSide)
    (qty : Rat) (scaled : Scaled)
    (accepted : scaleMarket lib s.markets.specs.instruments s.lastQuote symbol side qty = .ok scaled) :
    scaled.marketId = idOf symbol ∧ ∃ past json receivedAt later bid ask,
      actions = past ++ .message json receivedAt :: later ∧
      ShowsTop lib (idOf symbol) (messages past) json bid ask ∧
      lib.sane ⟨bid, ask, receivedAt⟩ = true ∧
      scaled.price = max 1 (min (llround lib ((if side = .Buy then ask * (105 / 100)
        else bid * (95 / 100)) *
          pow10i ((s.markets.specs.instruments.priceDecimals symbol).getD 0))) uint32Max) ∧
      ∀ between json' receivedAt' rest, later = between ++ .message json' receivedAt' :: rest →
        ∀ bid' ask', ¬ ShowsTop lib (idOf symbol)
          (messages (past ++ .message json receivedAt :: between)) json' bid' ask' := by
  have assigned := (run_extends keeps reached start_assigned).1
  refine ⟨assigned.forward symbol _ (scaleMarket_marketId accepted), ?_⟩
  obtain ⟨quote, quoted⟩ := Option.ne_none_iff_exists'.mp (SignedAmounts.scaleMarket_ok accepted).2.1
  obtain ⟨cached, sane⟩ := Option.filter_eq_some_iff.mp quoted
  obtain ⟨past, a, later, cut, announces, quiet⟩ :=
    (run_latest (fun _ _ _ _ cut => lastQuote_step set symbol (finite_earlier cut finite))
      (announces_functional symbol) rfl reached quote).mp cached
  obtain ⟨json, receivedAt, m, before, rfl, to_past, named, top, rfl⟩ := announces
  have keeps_past : ∀ a ∈ past, KeepsIds idOf symbolOf a := by
    intro a member
    exact keeps a (cut ▸ List.mem_append_left _ member)
  have owned := ((run_extends keeps_past to_past start_assigned).1.back m symbol
    (marketIdToSymbol_of_quotedAs named)).1
  subst owned
  refine ⟨past, json, quote.receivedAt, later, quote.bid, quote.ask, cut, top, sane,
    MarketBound.scaleMarket_price accepted cached sane, ?_⟩
  rintro between json' receivedAt' rest rfl bid' ask' top'
  refine quiet between _ rest rfl ⟨bid', ask', receivedAt'⟩ ?_
  have keeps_between : ∀ a ∈ past ++ .message json quote.receivedAt :: between, KeepsIds idOf symbolOf a := by
    intro a member
    refine keeps a ?_
    rw [cut, ← List.cons_append, ← List.append_assoc]
    exact List.mem_append_left _ member
  obtain ⟨after, to_after, named'⟩ := named_later keeps_between to_past named
  exact ⟨json', receivedAt', _, after, rfl, to_after, named', top', rfl⟩

/-! ## A sample run -/

def sampleAsset : PerpAsset := ⟨"ETH", 7, "active", 4, 2, 1 / 1000, 10⟩

/-- A listing, a snapshot, and a delta that crosses the book. -/
def sampleRun : List MarketData.Action :=
  [.loadAsset sampleAsset,
    .message (bookJson "subscribed/order_book" 7 [levelJson 100 1] [levelJson 101 1]) 5,
    .message (bookJson "update/order_book" 7 [levelJson 102 1] []) 6]

theorem lastQuote_iff_announced_sample :
    Latest (Announces sampleExternals allHooks "ETH") sampleRun ⟨100, 101, 5⟩ :=
  (lastQuote_iff_announced sampleExternals allHooks rfl sampleRun (by decide) _ rfl "ETH" ⟨100, 101, 5⟩).mp
    (by decide +kernel)

theorem market_close_bounded_by_wire_sample :
    ∃ past json receivedAt later bid ask, sampleRun = past ++ .message json receivedAt :: later ∧
      ShowsTop sampleExternals 7 (messages past) json bid ask ∧
      (10605 : Int) = max 1 (min (llround sampleExternals (ask * (105 / 100) * pow10i 2)) uint32Max) := by
  obtain ⟨_, past, json, receivedAt, later, bid, ask, cut, top, _, price, _⟩ :=
    market_close_bounded_by_wire sampleExternals allHooks rfl (fun _ => 7) (fun _ => "ETH") sampleRun
      (by simp [sampleRun, KeepsIds, sampleAsset]) (by decide) _ rfl "ETH" .Buy 1
      ⟨7, 10000, 10605⟩ (by decide +kernel)
  exact ⟨past, json, receivedAt, later, bid, ask, cut, top, price⟩

end LighterApi.Guarantees.QuotePath

import LighterApi.Library.Replica
import LighterApi.Guarantees.ChannelGrammar
import LighterApi.Guarantees.WritePump

/-!
# The local books are the venue's

The session, the local books and the venue at the other end of the connection, in any
interleaving. The venue answers a subscription of a market with its whole book and from
then on sends every change of it, in order; it may send anything else in between, and a
connection may end at any moment with what is still on its way. The frames come from the
session alone, so the calls of any thread and the resubscription of a crossed book are
among the runs.

While the venue serves a market, the local book with the messages on their way applied is
the venue's (`local_book_follows_venue`), so at rest every wanted market's book is
(`wanted_books_at_rest`); and no local book ever crosses unless the venue's does
(`books_never_cross`).
-/
namespace LighterApi.Guarantees.BookSync
open LighterApi.Library.Transition LighterApi.Library.Replica LighterApi.Library.LastWrite
open LighterApi.Source LighterApi.Source.StreamManager LighterApi.Source.WsSession
open LighterApi.Guarantees.BookRefinement LighterApi.Guarantees.WireAgreement
open LighterApi.Guarantees.WritePump LighterApi.Guarantees.SessionLink

/-! ## The venue -/

/-- A market's book at the venue: the changes of its levels so far, in order. -/
structure VenueBook where
  bids : List (Rat × Rat)
  asks : List (Rat × Rat)

/-- The logs leave the same levels. -/
def SameLevels (log log' : List (Rat × Rat)) : Prop :=
  ∀ price ∈ (log ++ log').map Prod.fst, resting log price = resting log' price

instance (log log' : List (Rat × Rat)) : Decidable (SameLevels log log') :=
  inferInstanceAs (Decidable (∀ _ ∈ _, _))

/-- The market a channel is about, when the venue has it. -/
def marketChannel (channel : String) : Option Int :=
  if channelOf (channelId channel) = channel then some (channelId channel) else none

/-- The market whose book a frame asks for. -/
def asksFor : Frame → Option Int
  | .subscribe channel _ => marketChannel channel
  | _ => none

/-- The frames taken leave the market subscribed. -/
def serves (taken : List Frame) (m : Int) : Bool :=
  decide (marketChannel (channelOf m) = some m ∧ lastTopic (channelOf m) taken = some true)

variable (lib : Externals)

/-- The message states the whole book, in finite numbers. -/
structure States (m : Int) (venue : VenueBook) (msg : Json) : Prop where
  about : about m msg = true
  snapshot : isSnapshot msg = true
  complete : complete msg = true
  finite : allFinite msg = true
  bids : SameLevels (entries lib "bids" msg) venue.bids
  asks : SameLevels (entries lib "asks" msg) venue.asks

instance (m : Int) (venue : VenueBook) (msg : Json) : Decidable (States lib m venue msg) :=
  decidable_of_iff (about m msg = true ∧ isSnapshot msg = true ∧ complete msg = true ∧
      allFinite msg = true ∧ SameLevels (entries lib "bids" msg) venue.bids ∧
      SameLevels (entries lib "asks" msg) venue.asks)
    ⟨fun ⟨mine, snapshot, whole, finite, bids, asks⟩ => ⟨mine, snapshot, whole, finite, bids, asks⟩,
      fun h => ⟨h.about, h.snapshot, h.complete, h.finite, h.bids, h.asks⟩⟩

/-- The message is a delta for the market, in finite numbers. -/
def isDelta (m : Int) (msg : Json) : Bool :=
  about m msg && !isSnapshot msg && complete msg && allFinite msg

/-- The book after the changes that a delta tells. -/
def VenueBook.after (venue : VenueBook) (msg : Json) : VenueBook :=
  ⟨venue.bids ++ entries lib "bids" msg, venue.asks ++ entries lib "asks" msg⟩

/-! ## Both ends of the connection -/

structure State where
  session : WsSession.State
  books : Books
  venue : Int → VenueBook
  /-- The frames that the venue has taken from the connection. -/
  taken : List Frame
  /-- The messages on their way to the session, the oldest first. -/
  feed : List Json

def start (venue : Int → VenueBook) : State := ⟨.start, ∅, venue, [], []⟩

/-- A new connection has nothing on it. -/
def State.upTo (s : State) (session : WsSession.State) : State :=
  if session.generation = s.session.generation then { s with session }
  else { s with session, taken := [], feed := [] }

inductive Action where
  | session (a : WsSession.Action)
  | receive (provider : String → Token)
  | take (frame : Frame) (answer : Json)
  | change (m : Int) (msg : Json)
  | send (msg : Json)

/-- A message that the session keeps to itself. -/
def isControl (msg : Json) : Bool :=
  let type := textOf msg "type"
  type == "connected" || type == "ping" || type == "pong"

variable (hooks : Hooks)

/-- A message that was read, handed to the stream manager. -/
def deliver (books : Books) (msg : Json) : Books :=
  if msg.isObject && !isControl msg then (onMessage lib hooks books msg).1 else books

/-- A read of the current connection completes with a message. -/
def isReceipt (s : WsSession.State) : WsSession.Action → Bool
  | .readDone gen (.message _) _ => gen == s.generation
  | _ => false

/-- The message that a read completes with is the oldest one on its way. The venue takes
the frames in the order in which they were handed to the writer. -/
def step (s : State) : Action → Option State
  | .session a =>
    if isReceipt s.session a then none else (WsSession.step s.session a).map s.upTo
  | .receive provider =>
    match s.feed with
    | [] => none
    | msg :: feed =>
      (WsSession.step s.session (.readDone s.session.generation (.message msg) provider)).map
        { s with books := deliver lib hooks s.books msg, feed }.upTo
  | .take frame answer =>
    if (handed s.session.generation (history s.session))[s.taken.length]? = some frame then
      match asksFor frame with
      | none => some { s with taken := s.taken ++ [frame] }
      | some m =>
        if States lib m (s.venue m) answer then
          some { s with taken := s.taken ++ [frame], feed := s.feed ++ [answer] }
        else none
    else none
  | .change m msg =>
    if isDelta m msg then
      some { s with
        venue := Function.update s.venue m ((s.venue m).after lib msg)
        feed := if serves s.taken m then s.feed ++ [msg] else s.feed }
    else none
  | .send msg => if isBookMessage msg then none else some { s with feed := s.feed ++ [msg] }

/-- What a step does, with what it requires. -/
inductive Step (s : State) : Action → State → Prop
  | session {a : WsSession.Action} {session : WsSession.State}
      (moved : WsSession.step s.session a = some session) : Step s (.session a) (s.upTo session)
  | receive {provider : String → Token} {msg : Json} {feed : List Json} {session : WsSession.State}
      (next : s.feed = msg :: feed)
      (moved : WsSession.step s.session
        (.readDone s.session.generation (.message msg) provider) = some session) :
      Step s (.receive provider)
        (State.upTo { s with books := deliver lib hooks s.books msg, feed } session)
  | take {frame : Frame} {answer : Json} (plain : asksFor frame = none) :
      Step s (.take frame answer) { s with taken := s.taken ++ [frame] }
  | answer {frame : Frame} {answer : Json} {m : Int} (asks : asksFor frame = some m)
      (states : States lib m (s.venue m) answer) :
      Step s (.take frame answer)
        { s with taken := s.taken ++ [frame], feed := s.feed ++ [answer] }
  | change {m : Int} {msg : Json} (delta : isDelta m msg = true) :
      Step s (.change m msg) { s with
        venue := Function.update s.venue m ((s.venue m).after lib msg)
        feed := if serves s.taken m then s.feed ++ [msg] else s.feed }
  | send {msg : Json} (other : isBookMessage msg = false) :
      Step s (.send msg) { s with feed := s.feed ++ [msg] }

variable {lib hooks} {s s' : State}

theorem step_spec {a : Action} (taken : step lib hooks s a = some s') : Step lib hooks s a s' := by
  cases a with
  | session a =>
    unfold BookSync.step at taken
    dsimp only at taken
    split at taken
    · exact absurd taken (by simp)
    · obtain ⟨session, moved, rfl⟩ := Option.map_eq_some_iff.mp taken
      exact .session moved
  | receive provider =>
    unfold BookSync.step at taken
    dsimp only at taken
    split at taken
    · exact absurd taken (by simp)
    · rename_i msg feed next
      obtain ⟨session, moved, rfl⟩ := Option.map_eq_some_iff.mp taken
      exact .receive next moved
  | take frame answer =>
    unfold BookSync.step at taken
    dsimp only at taken
    split at taken
    · split at taken
      · rename_i plain
        exact Option.some.inj taken ▸ .take plain
      · rename_i m asks
        split at taken
        · rename_i states
          exact Option.some.inj taken ▸ .answer asks states
        · exact absurd taken (by simp)
    · exact absurd taken (by simp)
  | change m msg =>
    unfold BookSync.step at taken
    dsimp only at taken
    split at taken
    · rename_i delta
      exact Option.some.inj taken ▸ .change delta
    · exact absurd taken (by simp)
  | send msg =>
    unfold BookSync.step at taken
    dsimp only at taken
    split at taken
    · exact absurd taken (by simp)
    · rename_i other
      exact Option.some.inj taken ▸ .send (by simpa using other)

/-- What is handed over or kept back is all the same to the books. -/
theorem deliver_eq (books : Books) (msg : Json) :
    deliver lib hooks books msg = (onMessage lib hooks books msg).1 := by
  cases kind : isBookMessage msg with
  | false =>
    unfold deliver
    rw [(onMessage_of_other lib hooks books kind).1]
    exact ite_self books
  | true =>
    unfold deliver
    have type : textOf msg "type" = "subscribed/order_book" ∨
        textOf msg "type" = "update/order_book" := by
      simpa [isBookMessage, isSnapshot] using (Bool.and_eq_true_iff.mp kind).1
    have object : msg.isObject = true := by
      cases msg with
      | obj members => rfl
      | _ => rcases type with none | none <;> exact absurd none (by simp [textOf, Json.find])
    have data : isControl msg = false := by
      unfold isControl
      rcases type with type | type <;> rw [type] <;> decide
    rw [object, data]
    rfl

/-! ## One message -/

/-- The local book shows the changes of the venue's. -/
structure Matches (book : Book) (venue : VenueBook) : Prop where
  bids : Shows positive nonzero book.bids venue.bids
  asks : Shows positive nonzero book.asks venue.asks

theorem resting_of_sameLevels {log log' : List (Rat × Rat)} (same : SameLevels log log')
    (price : Rat) : resting log price = resting log' price := by
  by_cases named : price ∈ (log ++ log').map Prod.fst
  · exact same price named
  · rw [List.map_append, List.mem_append, not_or] at named
    unfold resting
    rw [(lastWrite_eq_none_iff price log).mpr named.1, (lastWrite_eq_none_iff price log').mpr named.2]

theorem shows_of_sameLevels {order : Rat → Rat → Ordering} [Std.TransCmp order]
    {side : Levels order} {log log' : List (Rat × Rat)} (h : Shows positive nonzero side log)
    (same : SameLevels log log') : Shows positive nonzero side log' := by
  intro price
  rw [Shows.resting h price, resting_of_sameLevels same price]
  unfold resting positive
  by_cases pos : 0 < price
  · rw [if_pos pos, if_pos (by simpa using pos)]
    rfl
  · rw [if_neg pos, if_neg (by simpa using pos)]

theorem marketOf_of_about {m : Int} {msg : Json} (mine : about m msg = true) : marketOf msg = m := by
  unfold about at mine
  rw [Bool.and_eq_true, beq_iff_eq] at mine
  exact mine.2

/-- A whole message is written on the book of its market, or on an empty one. -/
theorem bookOf_deliver (lib : Externals) (hooks : Hooks) {m : Int} {msg : Json}
    (mine : about m msg = true) (whole : complete msg = true) (finite : allFinite msg = true)
    (books : Books) :
    let before := if isSnapshot msg then ⟨∅, ∅⟩ else bookOf books m
    let after := bookOf (deliver lib hooks books msg) m
    after.bids = (entries lib "bids" msg).foldl (write positive nonzero) before.bids ∧
      after.asks = (entries lib "asks" msg).foldl (write positive nonzero) before.asks := by
  have kind : isBookMessage msg = true := by
    unfold about at mine
    exact (Bool.and_eq_true_iff.mp mine).1
  have sides := applySides_fst lib (if isSnapshot msg then ⟨∅, ∅⟩ else bookOf books m) finite
  rw [appliedBids_of_complete lib whole, appliedAsks_of_complete lib whole] at sides
  rw [deliver_eq, onMessage_stored lib hooks books kind, marketOf_of_about mine, bookOf_insert,
    if_pos rfl]
  exact sides

/-- A delta does to the local book what the changes it tells do to the venue's. -/
theorem Matches.change {m : Int} {msg : Json} {books : Books} {venue : VenueBook}
    (h : Matches (bookOf books m) venue) (delta : isDelta m msg = true) :
    Matches (bookOf (deliver lib hooks books msg) m) (venue.after lib msg) := by
  unfold isDelta at delta
  simp only [Bool.and_eq_true, Bool.not_eq_true'] at delta
  obtain ⟨⟨⟨mine, update⟩, whole⟩, finite⟩ := delta
  have sides := bookOf_deliver lib hooks mine whole finite books
  rw [update] at sides
  constructor
  · rw [sides.1]
    exact h.bids.writes _
  · rw [sides.2]
    exact h.asks.writes _

/-- Whatever the local book was, the answer to a subscription makes it the venue's. -/
theorem States.matches {m : Int} {msg : Json} {venue : VenueBook} (h : States lib m venue msg)
    (books : Books) : Matches (bookOf (deliver lib hooks books msg) m) venue := by
  have sides := bookOf_deliver lib hooks h.about h.complete h.finite books
  rw [h.snapshot] at sides
  constructor
  · rw [sides.1]
    exact shows_of_sameLevels ((shows_empty positive nonzero).writes _) h.bids
  · rw [sides.2]
    exact shows_of_sameLevels ((shows_empty positive nonzero).writes _) h.asks

/-- A message that is not about the market leaves its book alone. -/
theorem bookOf_deliver_of_other {m : Int} {msg : Json} (other : about m msg = false)
    (books : Books) : bookOf (deliver lib hooks books msg) m = bookOf books m := by
  rw [deliver_eq]
  unfold about at other
  cases kind : isBookMessage msg with
  | false => rw [(onMessage_of_other lib hooks books kind).1]
  | true =>
    rw [kind, Bool.true_and, beq_eq_false_iff_ne] at other
    exact bookOf_onMessage_of_ne lib hooks books other

/-! ## What the venue serves -/

theorem lastTopic_subscribe (channel c : String) (auth : Option String) :
    lastTopic c [.subscribe channel auth] = if channel = c then some true else none := by
  unfold lastTopic topic lastWrite lastWrite
  simp

/-- A frame that asks for no market's book starts no service. -/
theorem serves_of_plain {frame : Frame} (plain : asksFor frame = none) {taken : List Frame}
    {m : Int} (served : serves (taken ++ [frame]) m = true) : serves taken m = true := by
  simp only [serves, decide_eq_true_eq] at served ⊢
  obtain ⟨named, subscribed⟩ := served
  rw [lastTopic_append] at subscribed
  refine ⟨named, ?_⟩
  cases frame with
  | subscribe channel auth =>
    rw [lastTopic_subscribe] at subscribed
    by_cases here : channel = channelOf m
    · unfold asksFor at plain
      dsimp only at plain
      rw [here, named] at plain
      exact absurd plain (Option.some_ne_none m)
    · rwa [if_neg here] at subscribed
  | unsubscribe channel =>
    rw [lastTopic_unsubscribe] at subscribed
    by_cases here : channel = channelOf m
    · rw [if_pos here] at subscribed
      exact absurd subscribed (by simp)
    · rwa [if_neg here] at subscribed
  | ping | pong => rwa [lastTopic_frame rfl] at subscribed

/-- A frame that asks for one market's book starts no other service. -/
theorem serves_of_other {frame : Frame} {m m' : Int} (asks : asksFor frame = some m) (other : m' ≠ m)
    {taken : List Frame} (served : serves (taken ++ [frame]) m' = true) : serves taken m' = true := by
  cases frame with
  | subscribe channel auth =>
    simp only [serves, decide_eq_true_eq] at served ⊢
    obtain ⟨named, subscribed⟩ := served
    refine ⟨named, ?_⟩
    rw [lastTopic_append, lastTopic_subscribe] at subscribed
    by_cases here : channel = channelOf m'
    · unfold asksFor at asks
      dsimp only at asks
      rw [here, named] at asks
      exact absurd (Option.some.inj asks) other
    · rwa [if_neg here] at subscribed
  | _ => exact absurd asks.symm (Option.some_ne_none m)

/-- The venue knows the channel of every market id that the client reads as such. -/
theorem marketChannel_channelOf {m : Int} (lower : 0 ≤ m) (upper : m < 2 ^ 31) :
    marketChannel (channelOf m) = some m := by
  obtain ⟨n, rfl⟩ := Int.eq_ofNat_of_zero_le lower
  have split : (channelOf n).toList = "order_book".toList ++ '/' :: (toString n).toList := by
    change ("order_book/" ++ toString (n : Int)).toList = _
    rw [String.toList_append]
    rfl
  have plain : "order_book".toList.all (fun c => !ChannelGrammar.isSeparator c) = true := by decide
  have names : ChannelGrammar.Names (channelOf n) n := by
    refine ⟨_, '/', _, split, fun c member => ?_, rfl, ?_, fun c => mem_decimal_nat, ?_, upper⟩
    · simpa using List.all_eq_true.mp plain c member
    · change (Nat.repr n).toList ≠ []
      rw [Nat.repr, String.toList_ofList]
      exact Nat.toDigits_ne_nil
    · rw [digitsValue_decimal]
  unfold marketChannel
  rw [ChannelGrammar.channelId_of_names names, if_pos rfl]

/-! ## The venue's changes reach the local books -/

/-- Where the venue serves a market, the local book is its own when what is on the way has
been applied. -/
def Follows (lib : Externals) (hooks : Hooks) (s : State) : Prop :=
  ∀ m, serves s.taken m = true →
    Matches (bookOf (settled (deliver lib hooks) s.feed s.books) m) (s.venue m)

theorem serves_nil (m : Int) : serves [] m = false := by
  simp [serves, lastTopic, lastWrite]

theorem follows_start (venue : Int → VenueBook) : Follows lib hooks (start venue) := by
  intro m served
  exact absurd ((serves_nil m).symm.trans served) Bool.false_ne_true

/-- A connection that goes on keeps what is on it, and a new one has nothing on it. -/
theorem Follows.upTo (h : Follows lib hooks s) (session : WsSession.State) :
    Follows lib hooks (s.upTo session) := by
  unfold State.upTo
  split
  · exact h
  · intro m served
    exact absurd ((serves_nil m).symm.trans served) Bool.false_ne_true

/-- A message about one market, behind what is on the way, changes no other book. -/
theorem settled_of_other {m : Int} {msg : Json} (other : about m msg = false) (feed : List Json)
    (books : Books) :
    bookOf (settled (deliver lib hooks) (feed ++ [msg]) books) m =
      bookOf (settled (deliver lib hooks) feed books) m := by
  rw [settled_concat, bookOf_deliver_of_other other]

theorem about_of_ne {m m' : Int} {msg : Json} (mine : about m msg = true) (other : m' ≠ m) :
    about m' msg = false := by
  rw [Bool.eq_false_iff]
  exact fun also => other ((marketOf_of_about also).symm.trans (marketOf_of_about mine))

theorem about_of_delta {m : Int} {msg : Json} (delta : isDelta m msg = true) :
    about m msg = true := by
  unfold isDelta at delta
  simp only [Bool.and_eq_true] at delta
  exact delta.1.1.1

theorem Follows.step {a : Action} (h : Follows lib hooks s) (step : Step lib hooks s a s') :
    Follows lib hooks s' := by
  cases step with
  | session => exact h.upTo _
  | @receive provider msg feed session next moved =>
    refine Follows.upTo (fun m served => ?_) session
    have follows := h m served
    rw [next, settled_cons] at follows
    exact follows
  | take plain => exact fun m served => h m (serves_of_plain plain served)
  | @answer frame answer m asks states =>
    intro m' served
    dsimp only
    by_cases here : m' = m
    · subst here
      rw [settled_concat]
      exact states.matches _
    · rw [settled_of_other (about_of_ne states.about here)]
      exact h m' (serves_of_other asks here served)
  | @change m msg delta =>
    intro m' served
    have follows := h m' served
    dsimp only at served ⊢
    by_cases here : m' = m
    · subst here
      rw [Function.update_self, if_pos served, settled_concat]
      exact follows.change delta
    · rw [Function.update_of_ne here]
      split
      · rw [settled_of_other (about_of_ne (about_of_delta delta) here)]
        exact follows
      · exact follows
  | send other =>
    intro m served
    dsimp only
    rw [settled_of_other (by simp [about, other])]
    exact h m served

/-- The local book has the levels and the top of the venue's. -/
structure SameBook (book : Book) (venue : VenueBook) : Prop where
  bids : ∀ price, book.bids[price]? = resting venue.bids price
  asks : ∀ price, book.asks[price]? = resting venue.asks price
  bestBid : IsBestBid (resting venue.bids) (bestPrice book.bids)
  bestAsk : IsBestAsk (resting venue.asks) (bestPrice book.asks)

theorem Matches.sameBook {book : Book} {venue : VenueBook} (h : Matches book venue) :
    SameBook book venue where
  bids := Shows.resting h.bids
  asks := Shows.resting h.asks
  bestBid := bestBid_isBest (Shows.resting h.bids)
  bestAsk := bestAsk_isBest (Shows.resting h.asks)

/-- In every run, where the frames that the venue has taken leave a market subscribed, the
local book with the messages on their way applied is the venue's. -/
theorem local_book_follows_venue (lib : Externals) (hooks : Hooks) {venue : Int → VenueBook}
    {actions : List Action} (reached : run (step lib hooks) (start venue) actions = some s) {m : Int}
    (lower : 0 ≤ m) (upper : m < 2 ^ 31)
    (subscribed : lastTopic (channelOf m) s.taken = some true) :
    SameBook (bookOf (settled (deliver lib hooks) s.feed s.books) m) (s.venue m) := by
  have follows : Follows lib hooks s :=
    run_invariant (fun _ _ _ h taken => Follows.step h (step_spec taken)) (follows_start venue)
      reached
  have served : serves s.taken m = true := by
    simp only [serves, decide_eq_true_eq]
    exact ⟨marketChannel_channelOf lower upper, subscribed⟩
  exact (follows m served).sameBook

def sampleVenue (m : Int) : VenueBook :=
  if m = 7 then ⟨[(100, 3), (98, 1)], [(101, 2)]⟩ else ⟨[], []⟩

/-- The market is subscribed on a greeted connection and served; the best bid moves while
the answer is still on its way. -/
def serving : List Action :=
  [.session (.execute plainTokens), .session (.resolved 1 true),
    .session (.tcpConnected 1 true true), .session (.tlsDone 1 true), .session (.wsDone 1 true),
    .send greeting, .receive plainTokens,
    .session (.subscribe "order_book/7"), .session (.post .flushTopics),
    .session (.execute plainTokens), .take (.subscribe "order_book/7" none)
      (bookJson "subscribed/order_book" 7 [levelJson 98 1, levelJson 100 3] [levelJson 101 2]),
    .change 7 (bookJson "update/order_book" 7 [levelJson 100 0, levelJson 99 4] [])]

theorem local_book_follows_venue_sample :
    ∃ s, run (step sampleExternals allHooks) (start sampleVenue) serving = some s ∧
      s.feed.length = 2 ∧
      SameBook (bookOf (settled (deliver sampleExternals allHooks) s.feed s.books) 7) (s.venue 7) := by
  have ends : ∃ s, run (step sampleExternals allHooks) (start sampleVenue) serving = some s ∧
      (s.feed.length = 2 ∧ lastTopic "order_book/7" s.taken = some true) :=
    exists_run (by decide +kernel)
  obtain ⟨s, reached, two, subscribed⟩ := ends
  exact ⟨s, reached, two, local_book_follows_venue _ _ reached (by decide) (by decide) subscribed⟩

/-! ## At rest -/

/-- The session is quiet, the venue has taken all it wrote, and nothing is on its way. -/
structure AtRest (s : State) : Prop where
  quiet : Quiet s.session
  taken : s.taken = writtenOn s.session
  feed : s.feed = []

/-- The flushes that the session makes are timely and build all their frames. -/
def OrderlyEnds (s : State) : Action → Prop
  | .session a => Orderly s.session a
  | .receive provider => ∀ msg ∈ s.feed.head?,
      Orderly s.session (.readDone s.session.generation (.message msg) provider)
  | _ => True

instance decidableOrderlyEnds (s : State) : (a : Action) → Decidable (OrderlyEnds s a)
  | .session a => decidableOrderly s.session a
  | .receive _ => inferInstanceAs (Decidable (∀ _ ∈ _, _))
  | .take _ _ | .change _ _ | .send _ => inferInstanceAs (Decidable True)

@[simp] theorem upTo_session (s : State) (session : WsSession.State) :
    (s.upTo session).session = session := by
  unfold State.upTo
  split <;> rfl

/-- The session takes its own steps, orderly ones in an orderly run. -/
theorem session_step {a : Action} (step : Step lib hooks s a s') (orderly : OrderlyEnds s a)
    (link : Link s.session) (topics : Topics s.session) : Link s'.session ∧ Topics s'.session := by
  cases step with
  | session moved =>
    rw [upTo_session]
    exact ⟨link.step moved, topics.step link orderly moved⟩
  | receive next moved =>
    rw [upTo_session]
    exact ⟨link.step moved, topics.step link (orderly _ (by rw [next]; rfl)) moved⟩
  | take | answer | change | send => exact ⟨link, topics⟩

/-- In every orderly run, at rest the local book of each market that is wanted is the
venue's. -/
theorem wanted_books_at_rest (lib : Externals) (hooks : Hooks) {venue : Int → VenueBook}
    {actions : List Action}
    (orderly : Meets (step lib hooks) OrderlyEnds (start venue) actions)
    (reached : run (step lib hooks) (start venue) actions = some s) (rest : AtRest s) {m : Int}
    (lower : 0 ≤ m) (upper : m < 2 ^ 31) (wanted : s.session.isSubscribed (channelOf m) = true) :
    SameBook (bookOf s.books m) (s.venue m) := by
  have kept : (Link s.session ∧ Topics s.session) ∧ Follows lib hooks s := by
    apply run_invariant_of_meets _ ⟨⟨link_start, topics_start⟩, follows_start venue⟩ orderly reached
    intro before a after ⟨⟨link, topics⟩, follows⟩ orderly taken
    exact ⟨session_step (step_spec taken) orderly link topics, follows.step (step_spec taken)⟩
  obtain ⟨⟨link, topics⟩, follows⟩ := kept
  have agrees := topics.agrees link rest.quiet
  have subscribed : channelOf m ∈ s.session.subscriptions := by
    unfold State.isSubscribed at wanted
    simpa [agrees.pending] using wanted
  have served : serves s.taken m = true := by
    simp only [serves, decide_eq_true_eq]
    rw [rest.taken]
    exact ⟨marketChannel_channelOf lower upper, (agrees.channels _).mp subscribed⟩
  have same := follows m served
  rw [rest.feed, settled_nil] at same
  exact same.sameBook

/-- Everything arrives. -/
def arriving : List Action :=
  [.session (.writeDone 1 (.subscribe "order_book/7" none) true), .receive plainTokens,
    .receive plainTokens]

instance (s : State) : Decidable (AtRest s) :=
  decidable_of_iff (Quiet s.session ∧ s.taken = writtenOn s.session ∧ s.feed.length = 0)
    ⟨fun ⟨quiet, taken, feed⟩ => ⟨quiet, taken, List.length_eq_zero_iff.mp feed⟩,
    fun rest => ⟨rest.quiet, rest.taken, List.length_eq_zero_iff.mpr rest.feed⟩⟩

/-- At rest again, the best bid is the new one on both sides. -/
theorem wanted_books_at_rest_sample :
    ∃ s, run (step sampleExternals allHooks) (start sampleVenue) (serving ++ arriving) = some s ∧
      bestPrice (bookOf s.books 7).bids = 99 ∧ SameBook (bookOf s.books 7) (s.venue 7) := by
  have orderly : Meets (step sampleExternals allHooks) OrderlyEnds (start sampleVenue)
      (serving ++ arriving) := by decide +kernel
  have ends : ∃ s, run (step sampleExternals allHooks) (start sampleVenue) (serving ++ arriving) =
      some s ∧ (AtRest s ∧ s.session.isSubscribed "order_book/7" = true ∧
        bestPrice (bookOf s.books 7).bids = 99) :=
    exists_run (by decide +kernel)
  obtain ⟨s, reached, rest, wanted, best⟩ := ends
  exact ⟨s, reached, best,
    wanted_books_at_rest _ _ orderly reached rest (by decide) (by decide) wanted⟩

/-! ## No book crosses by itself -/

/-- No bid of the venue's book rests above an ask. -/
def Uncrossed (venue : VenueBook) : Prop :=
  ∀ bid ∈ venue.bids.map Prod.fst, ∀ ask ∈ venue.asks.map Prod.fst,
    resting venue.bids bid ≠ none → resting venue.asks ask ≠ none → bid ≤ ask

instance (venue : VenueBook) : Decidable (Uncrossed venue) :=
  inferInstanceAs (Decidable (∀ _ ∈ _, ∀ _ ∈ _, _))

/-- A change leaves the venue's book uncrossed. -/
def KeepsUncrossed (lib : Externals) (s : State) : Action → Prop
  | .change m msg => Uncrossed ((s.venue m).after lib msg)
  | _ => True

instance decidableKeepsUncrossed (s : State) : (a : Action) → Decidable (KeepsUncrossed lib s a)
  | .change m msg => inferInstanceAs (Decidable (Uncrossed ((s.venue m).after lib msg)))
  | .session _ | .receive _ | .take _ _ | .send _ => inferInstanceAs (Decidable True)

/-- The test of the best prices, which a crossed book fails. -/
structure Sound (book : Book) : Prop where
  uncrossed : crossed (bestPrice book.bids) (bestPrice book.asks) = false

theorem mem_of_resting_log {log : List (Rat × Rat)} {price : Rat} (rests : resting log price ≠ none) :
    price ∈ log.map Prod.fst := by
  by_contra unwritten
  apply rests
  unfold resting
  rw [(lastWrite_eq_none_iff price log).mpr unwritten]
  exact ite_self none

theorem Matches.sound {book : Book} {venue : VenueBook} (h : Matches book venue)
    (uncrossed : Uncrossed venue) : Sound book := by
  have same := h.sameBook
  constructor
  unfold crossed
  rw [decide_eq_false_iff_not]
  rintro ⟨bid_pos, ask_pos, above⟩
  rcases same.bestBid with ⟨_, zero⟩ | bids
  · exact absurd bid_pos (by rw [zero]; exact lt_irrefl 0)
  · rcases same.bestAsk with ⟨_, zero⟩ | asks
    · exact absurd ask_pos (by rw [zero]; exact lt_irrefl 0)
    · have below := uncrossed _ (mem_of_resting_log bids.1) _ (mem_of_resting_log asks.1) bids.1 asks.1
      exact absurd above below.not_gt

/-- Every book is sound, and will be after every message on its way; these are whole. -/
structure Healthy (lib : Externals) (hooks : Hooks) (s : State) : Prop where
  follows : Follows lib hooks s
  venue : ∀ m, Uncrossed (s.venue m)
  books : Throughout (deliver lib hooks) (fun books => ∀ m, Sound (bookOf books m)) s.feed s.books
  whole : ∀ msg ∈ s.feed, isBookMessage msg = true → complete msg = true

theorem Healthy.upTo (h : Healthy lib hooks s) (session : WsSession.State) :
    Healthy lib hooks (s.upTo session) := by
  refine ⟨h.follows.upTo session, ?_, ?_, ?_⟩
  all_goals unfold State.upTo
  · split <;> exact h.venue
  · split
    · exact h.books
    · exact throughout_nil h.books.now
  · split
    · exact h.whole
    · exact fun msg member => absurd member List.not_mem_nil

/-- A message about one market that leaves its book sound, sent behind what is on the way. -/
theorem sound_send {m : Int} {msg : Json} {feed : List Json} {books : Books}
    (through : Throughout (deliver lib hooks) (fun books => ∀ m, Sound (bookOf books m)) feed books)
    (elsewhere : ∀ m', m' ≠ m → about m' msg = false)
    (restored : Sound (bookOf (settled (deliver lib hooks) (feed ++ [msg]) books) m)) :
    Throughout (deliver lib hooks) (fun books => ∀ m, Sound (bookOf books m)) (feed ++ [msg]) books := by
  refine through.send fun m' => ?_
  by_cases here : m' = m
  · subst here
    rwa [settled_concat] at restored
  · rw [bookOf_deliver_of_other (elsewhere m' here)]
    exact through.settled m'

theorem whole_send {msg : Json} {feed : List Json} (complete_msg : complete msg = true)
    (whole : ∀ msg ∈ feed, isBookMessage msg = true → complete msg = true) :
    ∀ msg' ∈ feed ++ [msg], isBookMessage msg' = true → complete msg' = true := by
  intro msg' member kind
  rcases List.mem_append.mp member with early | last
  · exact whole msg' early kind
  · rwa [List.mem_singleton.mp last]

theorem Healthy.step {a : Action} (h : Healthy lib hooks s) (step : Step lib hooks s a s')
    (keeps : KeepsUncrossed lib s a) : Healthy lib hooks s' := by
  have follows := h.follows.step step
  cases step with
  | session => exact h.upTo _
  | @receive provider msg feed session next moved =>
    have received : Healthy lib hooks { s with books := deliver lib hooks s.books msg, feed } := by
      refine ⟨?_, h.venue, ?_, ?_⟩
      · intro m served
        have before := h.follows m served
        rwa [next, settled_cons] at before
      · have through := h.books
        rw [next] at through
        exact through.receive
      · intro msg' member
        exact h.whole msg' (next ▸ List.mem_cons_of_mem _ member)
    exact received.upTo session
  | take => exact ⟨follows, h.venue, h.books, h.whole⟩
  | @answer frame answer m asks states =>
    refine ⟨follows, h.venue, ?_, whole_send states.complete h.whole⟩
    refine sound_send h.books (fun m' other => about_of_ne states.about other) ?_
    rw [settled_concat]
    exact (states.matches _).sound (h.venue m)
  | @change m msg delta =>
    refine ⟨follows, ?_, ?_, ?_⟩
    · intro m'
      dsimp only
      by_cases here : m' = m
      · subst here
        rw [Function.update_self]
        exact keeps
      · rw [Function.update_of_ne here]
        exact h.venue m'
    · have now := follows m
      dsimp only at now ⊢
      split
      · rename_i served
        rw [if_pos served, Function.update_self] at now
        refine sound_send h.books (fun m' other => about_of_ne (about_of_delta delta) other) ?_
        exact (now served).sound keeps
      · exact h.books
    · dsimp only
      split
      · unfold isDelta at delta
        simp only [Bool.and_eq_true] at delta
        exact whole_send delta.1.2 h.whole
      · exact h.whole
  | @send msg other =>
    refine ⟨follows, h.venue, ?_, ?_⟩
    · refine h.books.send fun m => ?_
      rw [bookOf_deliver_of_other (by simp [about, other])]
      exact h.books.settled m
    · intro msg' member kind
      rcases List.mem_append.mp member with early | last
      · exact h.whole msg' early kind
      · rw [List.mem_singleton.mp last, other] at kind
        exact absurd kind Bool.false_ne_true

/-- What the handler does about a subscription. -/
def resubscribes : Effect → Bool
  | .unsubscribe _ | .subscribe _ => true
  | _ => false

theorem other_effects {books : Books} {msg : Json} (other : isBookMessage msg = false) :
    ∀ effect ∈ (onMessage lib hooks books msg).2.toOption.getD [], resubscribes effect = false := by
  intro effect member
  unfold onMessage at member
  cases type_eq : (msg.find "type").bind Json.asString with
  | none =>
    rw [type_eq] at member
    exact absurd member List.not_mem_nil
  | some type =>
    rw [type_eq] at member
    dsimp only at member
    split at member
    · rename_i kind
      split at member
      · rename_i members body_eq
        unfold isBookMessage isSnapshot textOf at other
        rw [type_eq, body_eq] at other
        simp only [Option.getD_some, Json.isObject, Bool.and_true, Bool.or_eq_false_iff,
          beq_eq_false_iff_ne] at other
        exact absurd kind (not_or.mpr other)
      · exact absurd member List.not_mem_nil
    · split at member
      · split at member
        · rw [List.mem_singleton.mp member]
          rfl
        · exact absurd member List.not_mem_nil
      · split at member
        · split at member
          · rw [List.mem_singleton.mp member]
            rfl
          · exact absurd member List.not_mem_nil
        · exact absurd member List.not_mem_nil

/-- A message that leaves its market's book sound is answered with no resubscription. -/
theorem no_resubscription {books : Books} {msg : Json}
    (sound : Sound (bookOf (onMessage lib hooks books msg).1 (marketOf msg))) :
    ∀ effect ∈ (onMessage lib hooks books msg).2.toOption.getD [], resubscribes effect = false := by
  intro effect member
  cases kind : isBookMessage msg with
  | false => exact other_effects kind effect member
  | true =>
    rw [onMessage_of_book lib hooks books kind] at sound member
    unfold onOrderBookMessage at sound member
    generalize updateBook lib (bookOf books (marketOf msg)) ((msg.find "order_book").getD .null)
      (isSnapshot msg) = result at sound member
    obtain ⟨book, outcome⟩ := result
    cases outcome with
    | some what => exact absurd member List.not_mem_nil
    | none =>
      dsimp only at sound member
      rw [bookOf_insert, if_pos rfl] at sound
      have told : effect ∈ quoteBook lib hooks (marketOf msg) book := member
      unfold quoteBook at told
      dsimp only at told
      rw [sound.uncrossed, if_neg Bool.false_ne_true] at told
      split at told
      · rw [List.mem_singleton.mp told]
        rfl
      · exact absurd told List.not_mem_nil

/-- In every run in which the venue's books never cross, neither do the local ones: the
stream manager resubscribes no market, and every order-book message is quoted. -/
theorem books_never_cross (lib : Externals) (hooks : Hooks) {venue : Int → VenueBook}
    {actions : List Action} (uncrossed : ∀ m, Uncrossed (venue m))
    (keeps : Meets (step lib hooks) (KeepsUncrossed lib) (start venue) actions)
    (reached : run (step lib hooks) (start venue) actions = some s) {msg : Json} {feed : List Json}
    (next : s.feed = msg :: feed) :
    let outcome := onMessage lib hooks s.books msg
    let book := bookOf outcome.1 (marketOf msg)
    (∀ effect ∈ outcome.2.toOption.getD [], resubscribes effect = false) ∧
      (hooks.book = true → isBookMessage msg = true →
        quotes outcome.2 = [(marketOf msg, bestPrice book.bids, bestPrice book.asks)]) := by
  have healthy : Healthy lib hooks s := by
    apply run_invariant_of_meets _ _ keeps reached
    · exact fun _ _ _ h keeps taken => h.step (step_spec taken) keeps
    · refine ⟨follows_start venue, uncrossed, throughout_nil fun m => ?_, ?_⟩
      · have empty := shown_start lib
        have fresh : Matches (bookOf ∅ m) ⟨[], []⟩ := ⟨empty.bids m, empty.asks m⟩
        exact fresh.sound (by decide)
      · exact fun msg member => absurd member List.not_mem_nil
  have through := healthy.books
  rw [next] at through
  have sound := through.receive.now (marketOf msg)
  rw [deliver_eq] at sound
  refine ⟨no_resubscription sound, fun set kind => ?_⟩
  have whole := healthy.whole msg (next ▸ List.mem_cons_self) kind
  rw [quotes_onMessage lib hooks s.books set, if_pos ⟨kind, whole⟩]
  dsimp only
  rw [if_neg (by rw [sound.uncrossed]; exact Bool.false_ne_true)]

theorem sampleVenue_uncrossed (m : Int) : Uncrossed (sampleVenue m) := by
  unfold sampleVenue
  split <;> decide

/-- The answer on its way is quoted when it arrives. -/
theorem books_never_cross_sample :
    ∃ s msg feed, run (step sampleExternals allHooks) (start sampleVenue) serving = some s ∧
      s.feed = msg :: feed ∧
      quotes (onMessage sampleExternals allHooks s.books msg).2 = [(7, 100, 101)] := by
  have keeps : Meets (step sampleExternals allHooks) (KeepsUncrossed sampleExternals)
      (start sampleVenue) serving := by decide +kernel
  have ends : ∃ s, run (step sampleExternals allHooks) (start sampleVenue) serving = some s ∧
      (s.feed.length = 2 ∧ ∀ msg ∈ s.feed.head?, isBookMessage msg = true ∧ marketOf msg = 7 ∧
        let book := bookOf (onMessage sampleExternals allHooks s.books msg).1 7
        bestPrice book.bids = 100 ∧ bestPrice book.asks = 101) :=
    exists_run (by decide +kernel)
  obtain ⟨s, reached, two, first⟩ := ends
  cases on_way : s.feed with
  | nil =>
    rw [on_way] at two
    exact absurd two (by decide)
  | cons msg feed =>
    obtain ⟨kind, market, bid, ask⟩ := first msg (by rw [on_way]; rfl)
    have quoted := (books_never_cross _ _ sampleVenue_uncrossed keeps reached on_way).2 rfl kind
    rw [market, bid, ask] at quoted
    exact ⟨s, msg, feed, reached, on_way, quoted⟩

end LighterApi.Guarantees.BookSync

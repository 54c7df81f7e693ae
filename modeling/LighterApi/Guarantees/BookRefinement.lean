import Mathlib.Data.List.TakeWhile
import LighterApi.Library.LastWrite
import LighterApi.Source.StreamManager

/-!
# The local order book refines the last-write-wins book

The reference book of a market maps a positive price to its last size among the
entries of the market's messages since its latest snapshot, a size of zero meaning
that the price is gone. The stored sides are the reference sides after every message,
and each message quotes the best prices of the reference book unless they cross.
-/
namespace LighterApi.Guarantees.BookRefinement
open Std (ExtTreeMap TransCmp LawfulEqCmp)
open LighterApi.Source LighterApi.Source.StreamManager LighterApi.Library.LastWrite

/-! ## What a message says -/

def isSnapshot (msg : Json) : Bool := textOf msg "type" == "subscribed/order_book"

/-- One of the two order-book types with an object under `order_book`. -/
def isBookMessage (msg : Json) : Bool :=
  (isSnapshot msg || textOf msg "type" == "update/order_book") &&
    ((msg.find "order_book").getD .null).isObject

def marketOf (msg : Json) : Int := channelId (textOf msg "channel")

/-- An order-book message for market `m`. -/
def about (m : Int) (msg : Json) : Bool := isBookMessage msg && marketOf msg == m

/-- The elements of the array under `bids` or `asks`. -/
def levels (side : String) (msg : Json) : List Json :=
  (levelsOf ((msg.find "order_book").getD .null) side).getD []

variable (lib : Externals)

/-- The price and the size members of a level; a missing one counts as zero. -/
def stated (lvl : Json) : List Json :=
  [(lvl.find "price").getD (.int 0), (lvl.find "size").getD (.int 0)]

/-- The price and the size a level states. -/
def entryOf (lvl : Json) : Rat × Rat :=
  (toDouble lib ((lvl.find "price").getD (.int 0)), toDouble lib ((lvl.find "size").getD (.int 0)))

/-- The price and the size are no infinity and no NaN. -/
def finiteLevel (lvl : Json) : Bool := (stated lvl).all fun v => !v.nonFinite

def entries (side : String) (msg : Json) : List (Rat × Rat) :=
  (levels side msg).map (entryOf lib)

/-- Every level of the message is an object. -/
def complete (msg : Json) : Bool :=
  (levels "bids" msg).all Json.isObject && (levels "asks" msg).all Json.isObject

/-- No price and no size in the message is an infinity or a NaN. -/
def allFinite (msg : Json) : Bool :=
  (levels "bids" msg).all finiteLevel && (levels "asks" msg).all finiteLevel

/-- A text that reads as a finite number, or no text at all. -/
def isNumeral : Json → Bool
  | .str s => !readsNonFinite s && (lib.stod s).isSome
  | _ => true

/-- An order-book message whose levels are objects with readable prices and sizes. -/
structure WellFormed (msg : Json) : Prop where
  kind : isBookMessage msg = true
  complete : complete msg = true
  numerals : ∀ lvl ∈ levels "bids" msg ++ levels "asks" msg, ∀ v ∈ stated lvl, isNumeral lib v = true

/-! ## The reference book -/

/-- The messages from the latest snapshot on, or all of them. -/
def sinceSnapshot : List Json → List Json
  | [] => []
  | msg :: rest => if rest.any isSnapshot then sinceSnapshot rest else msg :: rest

/-- What the messages for `m` since its latest snapshot write, message by message. -/
def writes (m : Int) (said : Json → List (Rat × Rat)) (msgs : List Json) : List (Rat × Rat) :=
  (sinceSnapshot (msgs.filter (about m))).flatMap said

/-- A positive price has the last size written, unless that is zero. -/
def resting (log : List (Rat × Rat)) (price : Rat) : Option Rat :=
  if 0 < price then (lastWrite price log).filter (fun size => size ≠ 0) else none

/-- A side's best price: zero when the side is empty. -/
def IsBestBid (side : Rat → Option Rat) (best : Rat) : Prop :=
  ((∀ price, side price = none) ∧ best = 0) ∨ IsGreatest {price | side price ≠ none} best

def IsBestAsk (side : Rat → Option Rat) (best : Rat) : Prop :=
  ((∀ price, side price = none) ∧ best = 0) ∨ IsLeast {price | side price ≠ none} best

/-- The quotes among the effects of a handler: market, best bid, best ask. -/
def quotes (outcome : Except String (List Effect)) : List (Int × Rat × Rat) :=
  (outcome.toOption.getD []).filterMap fun
    | .bookUpdate marketId bestBid bestAsk => some (marketId, bestBid, bestAsk)
    | _ => none

theorem sinceSnapshot_concat (msgs : List Json) (msg : Json) :
    sinceSnapshot (msgs ++ [msg]) =
      if isSnapshot msg then [msg] else sinceSnapshot msgs ++ [msg] := by
  induction msgs with
  | nil => cases h : isSnapshot msg <;> simp [sinceSnapshot]
  | cons first rest ih =>
    rw [List.cons_append, sinceSnapshot, sinceSnapshot, ih, List.any_append]
    cases snapshot : isSnapshot msg with
    | true => simp [snapshot]
    | false =>
      cases later : rest.any isSnapshot <;> simp [snapshot]

theorem writes_concat (m : Int) (said : Json → List (Rat × Rat)) (msgs : List Json) (msg : Json) :
    writes m said (msgs ++ [msg]) =
      if about m msg then
        (if isSnapshot msg then [] else writes m said msgs) ++ said msg
      else writes m said msgs := by
  unfold writes
  rw [List.filter_append]
  cases mine : about m msg with
  | false => simp [mine]
  | true =>
    have only : [msg].filter (about m) = [msg] := by simp [mine]
    rw [only, sinceSnapshot_concat]
    cases isSnapshot msg <;> simp

/-! ## What the level loop applies -/

def positive (price : Rat) : Bool := decide (0 < price)

def nonzero (size : Rat) : Bool := decide (size ≠ 0)

theorem value_of_isObject {lvl : Json} (object : lvl.isObject = true) (key : String)
    (fallback : Json) : lvl.value key fallback = some ((lvl.find key).getD fallback) := by
  cases lvl with
  | obj members => rfl
  | _ => exact absurd object Bool.false_ne_true

theorem value_of_not_isObject {lvl : Json} (other : lvl.isObject = false) (key : String)
    (fallback : Json) : lvl.value key fallback = none := by
  cases lvl with
  | obj members => exact absurd other.symm Bool.false_ne_true
  | _ => rfl

variable {order : Rat → Rat → Ordering} [TransCmp order]

theorem nonFinite_of_finiteLevel {lvl : Json} (finite : finiteLevel lvl = true) :
    (((lvl.find "price").getD (.int 0)).nonFinite ||
      ((lvl.find "size").getD (.int 0)).nonFinite) = false := by
  simpa [finiteLevel, stated] using finite

/-- The loop writes the entries up to the first level that is no object. -/
theorem applyLevelsTo_fst (side : Levels order) {lvls : List Json}
    (finite : lvls.all finiteLevel = true) :
    (applyLevelsTo lib side lvls).1 =
      ((lvls.takeWhile Json.isObject).map (entryOf lib)).foldl (write positive nonzero) side := by
  induction lvls generalizing side with
  | nil => rfl
  | cons lvl rest ih =>
    rw [List.all_cons, Bool.and_eq_true] at finite
    have ih := fun side => ih side finite.2
    cases object : lvl.isObject with
    | false =>
      rw [applyLevelsTo, value_of_not_isObject object, List.takeWhile_cons, object]
      rfl
    | true =>
      rw [applyLevelsTo, value_of_isObject object, value_of_isObject object,
        List.takeWhile_cons, object]
      dsimp only
      rw [nonFinite_of_finiteLevel finite.1]
      simp only [if_true, if_false, Bool.false_eq_true, List.map_cons, List.foldl_cons]
      split
      · rename_i skipped
        rw [ih]
        congr 1
        simp [write, positive, entryOf, not_lt.mpr skipped]
      · rename_i kept
        split
        · rename_i zero
          rw [ih]
          congr 1
          simp [write, positive, nonzero, entryOf, not_le.mp kept, zero]
        · rename_i size
          rw [ih]
          congr 1
          simp [write, positive, nonzero, entryOf, not_le.mp kept, size]

theorem applyLevelsTo_snd (side : Levels order) (lvls : List Json) :
    (applyLevelsTo lib side lvls).2 = none ↔ lvls.all Json.isObject = true := by
  induction lvls generalizing side with
  | nil => simp [applyLevelsTo]
  | cons lvl rest ih =>
    cases object : lvl.isObject with
    | false =>
      rw [applyLevelsTo, value_of_not_isObject object]
      simp [object]
    | true =>
      rw [applyLevelsTo, value_of_isObject object, value_of_isObject object, List.all_cons, object]
      simp only [Bool.true_and]
      split
      · exact ih _
      · split
        · exact ih side
        · split
          · exact ih _
          · exact ih _

/-! ## One message -/

/-- The bid entries a message gets applied, up to the first level that is no object. -/
def appliedBids (msg : Json) : List (Rat × Rat) :=
  ((levels "bids" msg).takeWhile Json.isObject).map (entryOf lib)

/-- The ask entries a message gets applied: none after an exception among the bids. -/
def appliedAsks (msg : Json) : List (Rat × Rat) :=
  if (levels "bids" msg).all Json.isObject then
    ((levels "asks" msg).takeWhile Json.isObject).map (entryOf lib)
  else []

theorem takeWhile_of_all {lvls : List Json} (all : lvls.all Json.isObject = true) :
    lvls.takeWhile Json.isObject = lvls :=
  List.takeWhile_eq_self_iff.mpr fun lvl member => List.all_eq_true.mp all lvl member

theorem appliedBids_of_complete {msg : Json} (whole : complete msg = true) :
    appliedBids lib msg = entries lib "bids" msg := by
  unfold complete at whole
  rw [Bool.and_eq_true] at whole
  rw [appliedBids, takeWhile_of_all whole.1, entries]

theorem appliedAsks_of_complete {msg : Json} (whole : complete msg = true) :
    appliedAsks lib msg = entries lib "asks" msg := by
  unfold complete at whole
  rw [Bool.and_eq_true] at whole
  rw [appliedAsks, if_pos whole.1, takeWhile_of_all whole.2, entries]

variable (hooks : Hooks) (books : Books)

theorem onMessage_of_book {msg : Json} (book : isBookMessage msg = true) :
    onMessage lib hooks books msg = onOrderBookMessage lib hooks books (marketOf msg)
      ((msg.find "order_book").getD .null) (isSnapshot msg) := by
  unfold isBookMessage isSnapshot textOf at book
  rw [Bool.and_eq_true, Bool.or_eq_true] at book
  obtain ⟨kind, object⟩ := book
  cases type_eq : (msg.find "type").bind Json.asString with
  | none =>
    rw [type_eq] at kind
    exact absurd kind (by decide)
  | some type =>
    rw [type_eq] at kind
    simp only [Option.getD_some, beq_iff_eq] at kind
    cases body_eq : msg.find "order_book" with
    | none =>
      rw [body_eq] at object
      exact absurd object Bool.false_ne_true
    | some body =>
      rw [body_eq] at object
      cases body with
      | obj members =>
        unfold onMessage isSnapshot textOf marketOf
        simp only [type_eq, body_eq, Option.getD_some]
        rw [if_pos kind]
        rfl
      | _ => exact absurd object Bool.false_ne_true

/-- Any other message leaves the books alone and quotes nothing. -/
theorem onMessage_of_other {msg : Json} (other : isBookMessage msg = false) :
    (onMessage lib hooks books msg).1 = books ∧ quotes (onMessage lib hooks books msg).2 = [] := by
  unfold onMessage
  cases type_eq : (msg.find "type").bind Json.asString with
  | none => exact ⟨rfl, rfl⟩
  | some type =>
    dsimp only
    split
    · rename_i kind
      split
      · rename_i members body_eq
        unfold isBookMessage isSnapshot textOf at other
        rw [type_eq, body_eq] at other
        simp only [Option.getD_some, Json.isObject, Bool.and_true, Bool.or_eq_false_iff,
          beq_eq_false_iff_ne] at other
        exact absurd kind (not_or.mpr other)
      · exact ⟨rfl, rfl⟩
    · split
      · refine ⟨rfl, ?_⟩
        cases hooks.account <;> rfl
      · split
        · refine ⟨rfl, ?_⟩
          cases hooks.log <;> rfl
        · exact ⟨rfl, rfl⟩

/-- The sides after the level loops, thrown out of or not. -/
theorem applySides_fst (book : Book) {msg : Json} (finite : allFinite msg = true) :
    let after := (applySides lib book ((msg.find "order_book").getD .null)).1
    after.bids = (appliedBids lib msg).foldl (write positive nonzero) book.bids ∧
      after.asks = (appliedAsks lib msg).foldl (write positive nonzero) book.asks := by
  unfold allFinite at finite
  rw [Bool.and_eq_true] at finite
  have bids := applyLevelsTo_fst lib book.bids finite.1
  have asks := applyLevelsTo_fst lib book.asks finite.2
  have thrown := applyLevelsTo_snd lib book.bids (levels "bids" msg)
  unfold applySides applyBidLevels applyAskLevels appliedBids appliedAsks
  unfold levels at bids asks thrown ⊢
  generalize applyLevelsTo lib book.bids
    ((levelsOf ((msg.find "order_book").getD .null) "bids").getD []) = loop at bids thrown ⊢
  obtain ⟨side, outcome⟩ := loop
  cases outcome with
  | some what =>
    rw [if_neg fun all => absurd (thrown.mpr all) (Option.some_ne_none what)]
    exact ⟨bids, rfl⟩
  | none =>
    rw [if_pos (thrown.mp rfl)]
    exact ⟨bids, asks⟩

theorem applySides_snd (book : Book) (msg : Json) :
    (applySides lib book ((msg.find "order_book").getD .null)).2 = none ↔ complete msg = true := by
  have bids := applyLevelsTo_snd lib book.bids (levels "bids" msg)
  have asks := applyLevelsTo_snd lib book.asks (levels "asks" msg)
  unfold applySides applyBidLevels applyAskLevels complete
  rw [Bool.and_eq_true, ← bids, ← asks]
  unfold levels
  rcases applyLevelsTo lib book.bids
    ((levelsOf ((msg.find "order_book").getD .null) "bids").getD []) with ⟨side, outcome⟩
  cases outcome <;> simp

/-! ## A run of messages -/

/-- The stored books show what the messages wrote. -/
structure Shown (msgs : List Json) : Prop where
  bids : ∀ m, Shows positive nonzero (bookOf books m).bids (writes m (appliedBids lib) msgs)
  asks : ∀ m, Shows positive nonzero (bookOf books m).asks (writes m (appliedAsks lib) msgs)

theorem bookOf_insert (m m' : Int) (book : Book) :
    bookOf (books.insert m book) m' = if m = m' then book else bookOf books m' := by
  unfold bookOf
  rw [ExtTreeMap.getD_insert]
  by_cases same : m = m'
  · simp [same]
  · rw [if_neg same, if_neg (by simpa using same)]

/-- An order-book message stores its market's book, failing or not. -/
theorem onMessage_stored {msg : Json} (kind : isBookMessage msg = true) :
    (onMessage lib hooks books msg).1 = books.insert (marketOf msg)
      (updateBook lib (bookOf books (marketOf msg)) ((msg.find "order_book").getD .null)
        (isSnapshot msg)).1 := by
  rw [onMessage_of_book lib hooks books kind]
  unfold onOrderBookMessage
  rcases updateBook lib (bookOf books (marketOf msg)) ((msg.find "order_book").getD .null)
    (isSnapshot msg) with ⟨book, outcome⟩
  cases outcome <;> rfl

variable {books} in
theorem onMessage_shown {msgs : List Json} (before : Shown lib books msgs) {msg : Json}
    (finite : allFinite msg = true) :
    Shown lib (onMessage lib hooks books msg).1 (msgs ++ [msg]) := by
  cases kind : isBookMessage msg with
  | false =>
    rw [(onMessage_of_other lib hooks books kind).1]
    have elsewhere : ∀ m, about m msg = false := fun m => by simp [about, kind]
    constructor
    · intro m
      rw [writes_concat, elsewhere m]
      exact before.bids m
    · intro m
      rw [writes_concat, elsewhere m]
      exact before.asks m
  | true =>
    rw [onMessage_stored lib hooks books kind]
    have sides := applySides_fst lib
      (if isSnapshot msg then ⟨∅, ∅⟩ else bookOf books (marketOf msg)) finite
    constructor
    · intro m
      rw [bookOf_insert, writes_concat]
      by_cases mine : marketOf msg = m
      · subst mine
        rw [if_pos rfl, if_pos (by simp [about, kind])]
        unfold updateBook
        rw [sides.1]
        cases isSnapshot msg with
        | true => exact (shows_empty positive nonzero).writes _
        | false => exact (before.bids _).writes _
      · rw [if_neg mine, if_neg (by simp [about, mine])]
        exact before.bids m
    · intro m
      rw [bookOf_insert, writes_concat]
      by_cases mine : marketOf msg = m
      · subst mine
        rw [if_pos rfl, if_pos (by simp [about, kind])]
        unfold updateBook
        rw [sides.2]
        cases isSnapshot msg with
        | true => exact (shows_empty positive nonzero).writes _
        | false => exact (before.asks _).writes _
      · rw [if_neg mine, if_neg (by simp [about, mine])]
        exact before.asks m

/-- The run lemma: the books show the run so far. -/
theorem onMessages_shown {msgs : List Json} (finite : ∀ msg ∈ msgs, allFinite msg = true)
    (books : Books) (before : List Json) (shown : Shown lib books before) :
    Shown lib (onMessages lib hooks books msgs).1 (before ++ msgs) := by
  induction msgs generalizing books before with
  | nil => simpa [onMessages] using shown
  | cons msg rest ih =>
    have next := ih (fun msg member => finite msg (List.mem_cons_of_mem _ member)) _ _
      (onMessage_shown lib hooks shown (finite msg List.mem_cons_self))
    rw [List.append_assoc] at next
    exact next

/-- The books before the first message. -/
theorem shown_start : Shown lib ∅ [] := by
  constructor <;> intro m <;> exact shows_empty positive nonzero

theorem Shows.resting {side : Levels order} {log : List (Rat × Rat)}
    (h : Shows positive nonzero side log) (price : Rat) : side[price]? = resting log price := by
  rw [h price]
  unfold BookRefinement.resting positive
  by_cases pos : 0 < price
  · rw [if_pos pos, if_pos (by simpa using pos)]
    rfl
  · rw [if_neg pos, if_neg (by simpa using pos)]

/-! ## The best prices -/

theorem mem_of_resting {side : Levels order} {log : List (Rat × Rat)}
    (same : ∀ price, side[price]? = resting log price) (price : Rat) :
    price ∈ side ↔ resting log price ≠ none := by
  rw [ExtTreeMap.mem_iff_isSome_getElem?, same price, Option.isSome_iff_ne_none]

/-- The first price of a side, or zero, seen from the log the side shows. -/
theorem bestPrice_cases [LawfulEqCmp order] {side : Levels order} {log : List (Rat × Rat)}
    (same : ∀ price, side[price]? = resting log price) :
    ((∀ price, resting log price = none) ∧ bestPrice side = 0) ∨
      resting log (bestPrice side) ≠ none ∧
        ∀ price, resting log price ≠ none → (order (bestPrice side) price).isLE = true := by
  unfold bestPrice
  cases first : side.keys.head? with
  | none =>
    have empty := (head?_keys_eq_none_iff side).mp first
    refine Or.inl ⟨fun price => ?_, rfl⟩
    by_contra rests
    exact empty price ((mem_of_resting same price).mpr rests)
  | some best =>
    obtain ⟨member, least⟩ := (head?_keys_eq_some_iff side best).mp first
    refine Or.inr ⟨(mem_of_resting same best).mp member, fun price rests => ?_⟩
    exact least price ((mem_of_resting same price).mpr rests)

theorem bestBid_isBest {side : Levels descending} {log : List (Rat × Rat)}
    (same : ∀ price, side[price]? = resting log price) :
    IsBestBid (resting log) (bestPrice side) := by
  rcases bestPrice_cases same with empty | ⟨member, first⟩
  · exact Or.inl empty
  · refine Or.inr ⟨member, fun price rests => ?_⟩
    simpa [descending, Ordering.isLE_iff_ne_gt, compare_gt_iff_gt] using first price rests

theorem bestAsk_isBest {side : Levels ascending} {log : List (Rat × Rat)}
    (same : ∀ price, side[price]? = resting log price) :
    IsBestAsk (resting log) (bestPrice side) := by
  rcases bestPrice_cases same with empty | ⟨member, first⟩
  · exact Or.inl empty
  · refine Or.inr ⟨member, fun price rests => ?_⟩
    simpa [ascending, Ordering.isLE_iff_ne_gt, compare_gt_iff_gt] using first price rests

/-- A message quotes its market's best prices when it is whole and leaves them uncrossed. -/
theorem quotes_onMessage (set : hooks.book = true) (msg : Json) :
    quotes (onMessage lib hooks books msg).2 =
      if isBookMessage msg = true ∧ complete msg = true then
        let book := bookOf (onMessage lib hooks books msg).1 (marketOf msg)
        if crossed (bestPrice book.bids) (bestPrice book.asks) then []
        else [(marketOf msg, bestPrice book.bids, bestPrice book.asks)]
      else [] := by
  cases kind : isBookMessage msg with
  | false =>
    rw [(onMessage_of_other lib hooks books kind).2]
    rfl
  | true =>
    rw [onMessage_of_book lib hooks books kind]
    have whole := applySides_snd lib
      (if isSnapshot msg then ⟨∅, ∅⟩ else bookOf books (marketOf msg)) msg
    unfold onOrderBookMessage updateBook
    generalize applySides lib (if isSnapshot msg then ⟨∅, ∅⟩ else bookOf books (marketOf msg))
      ((msg.find "order_book").getD .null) = result at whole ⊢
    obtain ⟨book, outcome⟩ := result
    cases outcome with
    | some what =>
      rw [if_neg fun both => absurd (whole.mpr both.2) (Option.some_ne_none what)]
      rfl
    | none =>
      rw [if_pos ⟨rfl, whole.mp rfl⟩]
      dsimp only
      rw [bookOf_insert, if_pos rfl]
      unfold quoteBook
      rw [set]
      dsimp only
      split
      · cases hooks.log <;> cases hooks.session <;> rfl
      · rfl

/-- A message for another market leaves the book alone. -/
theorem bookOf_onMessage_of_ne {m : Int} {msg : Json} (other : marketOf msg ≠ m) :
    bookOf (onMessage lib hooks books msg).1 m = bookOf books m := by
  cases kind : isBookMessage msg with
  | false => rw [(onMessage_of_other lib hooks books kind).1]
  | true =>
    rw [onMessage_of_book lib hooks books kind]
    unfold onOrderBookMessage
    split <;> exact (bookOf_insert books _ m _).trans (if_neg other)

theorem mem_of_mem_sinceSnapshot {msgs : List Json} {msg : Json}
    (h : msg ∈ sinceSnapshot msgs) : msg ∈ msgs := by
  induction msgs with
  | nil => exact h
  | cons first rest ih =>
    unfold sinceSnapshot at h
    split at h
    · exact List.mem_cons_of_mem _ (ih h)
    · exact h

theorem writes_congr (m : Int) {said said' : Json → List (Rat × Rat)} {msgs : List Json}
    (same : ∀ msg ∈ msgs, said msg = said' msg) : writes m said msgs = writes m said' msgs := by
  unfold writes
  refine List.flatMap_congr fun msg member => same msg ?_
  exact (List.mem_filter.mp (mem_of_mem_sinceSnapshot member)).1

/-- The stored sides after well-formed messages. -/
theorem onMessages_sides {msgs : List Json} (finite : ∀ msg ∈ msgs, allFinite msg = true)
    (whole : ∀ msg ∈ msgs, complete msg = true) (m : Int) :
    (∀ price, (bookOf (onMessages lib hooks ∅ msgs).1 m).bids[price]? =
        resting (writes m (entries lib "bids") msgs) price) ∧
      ∀ price, (bookOf (onMessages lib hooks ∅ msgs).1 m).asks[price]? =
        resting (writes m (entries lib "asks") msgs) price := by
  have shown := onMessages_shown lib hooks finite ∅ [] (shown_start lib)
  rw [List.nil_append] at shown
  have bids := shown.bids m
  have asks := shown.asks m
  rw [writes_congr m fun msg member => appliedBids_of_complete lib (whole msg member)] at bids
  rw [writes_congr m fun msg member => appliedAsks_of_complete lib (whole msg member)] at asks
  exact ⟨Shows.resting bids, Shows.resting asks⟩

theorem WellFormed.allFinite {msg : Json} (h : WellFormed lib msg) :
    BookRefinement.allFinite msg = true := by
  have readable : ∀ v, isNumeral lib v = true → (!v.nonFinite) = true := by
    intro v numeral
    cases v with
    | str s => exact (Bool.and_eq_true_iff.mp numeral).1
    | _ => rfl
  have finite : ∀ lvl ∈ levels "bids" msg ++ levels "asks" msg, finiteLevel lvl = true :=
    fun lvl member => List.all_eq_true.mpr fun v said => readable v (h.numerals lvl member v said)
  unfold BookRefinement.allFinite
  rw [Bool.and_eq_true, List.all_eq_true, List.all_eq_true]
  exact ⟨fun lvl member => finite lvl (List.mem_append_left _ member),
    fun lvl member => finite lvl (List.mem_append_right _ member)⟩

theorem onMessages_concat (msgs : List Json) (msg : Json) (books : Books) :
    (onMessages lib hooks books (msgs ++ [msg])).1 =
      (onMessage lib hooks (onMessages lib hooks books msgs).1 msg).1 := by
  induction msgs generalizing books with
  | nil => rfl
  | cons first rest ih => exact ih _

/-- After any messages the stored sides of every market are the reference sides. The next
message leaves every other market's book alone and quotes the best prices of its own
market's reference book exactly when they do not cross. -/
theorem onMessages_refines (set : hooks.book = true) (msgs : List Json)
    (wellFormed : ∀ msg ∈ msgs, WellFormed lib msg) (m : Int) :
    (∀ price, (bookOf (onMessages lib hooks ∅ msgs).1 m).bids[price]? =
        resting (writes m (entries lib "bids") msgs) price) ∧
      (∀ price, (bookOf (onMessages lib hooks ∅ msgs).1 m).asks[price]? =
        resting (writes m (entries lib "asks") msgs) price) ∧
      ∀ before msg after, msgs = before ++ msg :: after →
        let books := (onMessages lib hooks ∅ before).1
        let quoted := quotes (onMessage lib hooks books msg).2
        (∀ m', marketOf msg ≠ m' → bookOf (onMessage lib hooks books msg).1 m' = bookOf books m') ∧
        (∀ quote ∈ quoted, ¬ (0 < quote.2.1 ∧ 0 < quote.2.2 ∧ quote.2.2 < quote.2.1)) ∧
        ∃ bestBid bestAsk,
          IsBestBid (resting (writes (marketOf msg) (entries lib "bids") (before ++ [msg]))) bestBid ∧
          IsBestAsk (resting (writes (marketOf msg) (entries lib "asks") (before ++ [msg]))) bestAsk ∧
          quoted = if 0 < bestBid ∧ 0 < bestAsk ∧ bestAsk < bestBid then []
            else [(marketOf msg, bestBid, bestAsk)] := by
  have whole := fun msg member => (wellFormed msg member).complete
  have finite := fun msg member => (wellFormed msg member).allFinite
  obtain ⟨bids, asks⟩ := onMessages_sides lib hooks finite whole m
  refine ⟨bids, asks, ?_⟩
  rintro before msg after rfl books quoted
  have here := wellFormed msg (by simp)
  have early : ∀ msg' ∈ before ++ [msg], msg' ∈ before ++ msg :: after := by
    intro msg' member
    rcases List.mem_append.mp member with early | last
    · exact List.mem_append_left _ early
    · simp [List.mem_singleton.mp last]
  have so_far : ∀ msg' ∈ before ++ [msg], WellFormed lib msg' :=
    fun msg' member => wellFormed msg' (early msg' member)
  obtain ⟨bids, asks⟩ := onMessages_sides lib hooks
    (fun msg' member => (so_far msg' member).allFinite)
    (fun msg' member => (so_far msg' member).complete) (marketOf msg)
  rw [onMessages_concat] at bids asks
  let book := bookOf (onMessage lib hooks books msg).1 (marketOf msg)
  have told : quoted =
      if 0 < bestPrice book.bids ∧ 0 < bestPrice book.asks ∧
        bestPrice book.asks < bestPrice book.bids then []
      else [(marketOf msg, bestPrice book.bids, bestPrice book.asks)] := by
    have told := quotes_onMessage lib hooks books set msg
    rw [if_pos ⟨here.kind, here.complete⟩] at told
    simpa [crossed] using told
  refine ⟨fun m' other => bookOf_onMessage_of_ne lib hooks books other, ?_,
    _, _, bestBid_isBest bids, bestAsk_isBest asks, told⟩
  intro quote member
  rw [told] at member
  split at member
  · exact absurd member List.not_mem_nil
  · rename_i uncrossed
    rw [List.mem_singleton.mp member]
    exact uncrossed

/-! ## A sample run -/

/-- Numbers arrive as JSON numbers; no text is a number. -/
def sampleExternals : Externals where
  parse _ := .error "no JSON"
  dump _ := ""
  readInt32 _ _ n := .ok n
  readText _ _ s := .ok s
  stod _ := none
  nonFiniteLevel side _ := side
  llroundOverflow _ := -(2 ^ 63)
  showDouble _ := ""
  sane _ := true

def levelJson (price size : Int) : Json := .obj [("price", .int price), ("size", .int size)]

def bookJson (type : String) (marketId : Int) (bids asks : List Json) : Json :=
  .obj [("channel", .str s!"order_book:{marketId}"),
    ("order_book", .obj [("asks", .arr asks), ("bids", .arr bids)]), ("type", .str type)]

def allHooks : Hooks := ⟨true, true, true, true⟩

/-- A snapshot and a delta that replaces the best bid. -/
def sampleMessages : List Json :=
  [bookJson "subscribed/order_book" 7 [levelJson 100 3, levelJson 98 1] [levelJson 101 2],
    bookJson "update/order_book" 7 [levelJson 100 0, levelJson 99 4] []]

theorem onMessages_refines_sample :
    (bookOf (onMessages sampleExternals allHooks ∅ sampleMessages).1 7).bids[(99 : Rat)]? =
      some 4 := by
  have kinds : ∀ msg ∈ sampleMessages, isBookMessage msg = true := by decide
  have whole : ∀ msg ∈ sampleMessages, complete msg = true := by decide
  have numerals : ∀ msg ∈ sampleMessages, ∀ lvl ∈ levels "bids" msg ++ levels "asks" msg,
      ∀ v ∈ stated lvl, isNumeral sampleExternals v = true := by decide
  rw [(onMessages_refines sampleExternals allHooks rfl sampleMessages
    (fun msg member => ⟨kinds msg member, whole msg member, numerals msg member⟩) 7).1]
  decide

end LighterApi.Guarantees.BookRefinement

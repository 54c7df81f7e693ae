import LighterApi.Guarantees.BookRefinement

/-!
# Order-book messages that fail

Levels are applied one by one to the stored book, after a snapshot has cleared it, and the
exception that ends a message is caught where the book is unknown. So what was applied stays:
a message that fails leaves the book alone exactly when it states only what the book holds.
-/
namespace LighterApi.Guarantees.FailedBookMessage
open Std (TransCmp LawfulEqCmp)
open LighterApi.Source LighterApi.Source.StreamManager LighterApi.Library.LastWrite
open LighterApi.Guarantees.BookRefinement

variable (lib : Externals) (hooks : Hooks) (books : Books)

/-- The message ends in an exception: its own, or that of a callback it makes. -/
def Fails (throws : Effect → Bool) (msg : Json) : Prop :=
  ∀ effects, (onMessage lib hooks books msg).2 = .ok effects → ∃ effect ∈ effects, throws effect

/-- Every market's book is what it was. A market without an entry has an empty book. -/
def LeftAlone (after : Books) : Prop := ∀ m, bookOf after m = bookOf books m

/-- A message that fails leaves the books alone. -/
def FailsCleanly (throws : Effect → Bool) (msg : Json) : Prop :=
  Fails lib hooks books throws msg → LeftAlone books (onMessage lib hooks books msg).1

variable {order : Rat → Rat → Ordering} [TransCmp order]

/-- The entries say nothing new: each price they state is held with its last size, and
after a snapshot no other price is held. -/
def Restates (snapshot : Bool) (side : Levels order) (said : List (Rat × Rat)) : Prop :=
  ∀ price, snapshot = true ∨ (0 < price ∧ lastWrite price said ≠ none) →
    side[price]? = resting said price

/-- The levels up to the one that is no object say nothing new. -/
structure AlreadyHeld (book : Book) (msg : Json) : Prop where
  bids : Restates (isSnapshot msg) book.bids (appliedBids lib msg)
  asks : Restates (isSnapshot msg) book.asks (appliedAsks lib msg)

theorem writes_unchanged_iff [LawfulEqCmp order] (snapshot : Bool) (side : Levels order)
    (said : List (Rat × Rat)) :
    said.foldl (write positive nonzero) (if snapshot then ∅ else side) = side ↔
      Restates snapshot side said := by
  cases snapshot with
  | true =>
    have shown : Shows positive nonzero (said.foldl (write positive nonzero) (∅ : Levels order)) said :=
      (shows_empty positive nonzero).writes said
    constructor
    · intro unchanged price _
      rw [if_pos rfl] at unchanged
      rw [unchanged] at shown
      exact Shows.resting shown price
    · intro held
      rw [if_pos rfl]
      refine Std.ExtTreeMap.ext_getElem? fun price => ?_
      rw [Shows.resting shown price, held price (Or.inl rfl)]
  | false =>
    rw [if_neg (by decide), writes_eq_self_iff]
    constructor
    · rintro held price (snapshot | ⟨pos, stated⟩)
      · exact absurd snapshot (by decide)
      · rw [held price (by simpa [positive] using pos) stated, resting, if_pos pos]
        rfl
    · intro held price pos stated
      have pos' : 0 < price := by simpa [positive] using pos
      rw [held price (Or.inr ⟨pos', stated⟩), resting, if_pos pos']
      rfl

variable {msg : Json}

theorem bookOf_onMessage (kind : isBookMessage msg = true) (finite : allFinite msg = true) :
    let before := bookOf books (marketOf msg)
    bookOf (onMessage lib hooks books msg).1 (marketOf msg) =
      ⟨(appliedBids lib msg).foldl (write positive nonzero)
          (if isSnapshot msg then ∅ else before.bids),
        (appliedAsks lib msg).foldl (write positive nonzero)
          (if isSnapshot msg then ∅ else before.asks)⟩ := by
  intro before
  have sides := applySides_fst lib (if isSnapshot msg then ⟨∅, ∅⟩ else before) finite
  rw [onMessage_stored lib hooks books kind, bookOf_insert, if_pos rfl]
  unfold updateBook
  cases snapshot : isSnapshot msg with
  | true =>
    rw [snapshot] at sides
    exact congrArg₂ Book.mk sides.1 sides.2
  | false =>
    rw [snapshot] at sides
    exact congrArg₂ Book.mk sides.1 sides.2

/-- Failing or not, a message leaves the books alone when it says nothing new. -/
theorem leftAlone_iff (kind : isBookMessage msg = true) (finite : allFinite msg = true) :
    LeftAlone books (onMessage lib hooks books msg).1 ↔
      AlreadyHeld lib (bookOf books (marketOf msg)) msg := by
  have after := bookOf_onMessage lib hooks books kind finite
  constructor
  · intro alone
    have same := after.symm.trans (alone (marketOf msg))
    constructor
    · exact (writes_unchanged_iff _ _ _).mp (congrArg Book.bids same)
    · exact (writes_unchanged_iff _ _ _).mp (congrArg Book.asks same)
  · intro held m
    by_cases mine : marketOf msg = m
    · subst mine
      rw [after, (writes_unchanged_iff _ _ _).mpr held.bids, (writes_unchanged_iff _ _ _).mpr held.asks]
    · exact bookOf_onMessage_of_ne lib hooks books mine

/-- An order-book message that fails leaves the books alone just when it says nothing new. -/
theorem failsCleanly_iff (throws : Effect → Bool) (kind : isBookMessage msg = true)
    (finite : allFinite msg = true) :
    FailsCleanly lib hooks books throws msg ↔
      (Fails lib hooks books throws msg → AlreadyHeld lib (bookOf books (marketOf msg)) msg) :=
  imp_congr_right fun _ => leftAlone_iff lib hooks books kind finite

/-! ## A snapshot with a number among its bids -/

/-- A level that is no object is enough to fail. -/
theorem fails_of_incomplete (throws : Effect → Bool) (kind : isBookMessage msg = true)
    (broken : complete msg = false) : Fails lib hooks books throws msg := by
  intro effects outcome
  have whole := applySides_snd lib
    (if isSnapshot msg then ⟨∅, ∅⟩ else bookOf books (marketOf msg)) msg
  rw [onMessage_of_book lib hooks books kind] at outcome
  unfold onOrderBookMessage updateBook at outcome
  split at outcome
  · exact absurd outcome (by simp)
  · rename_i book applied
    rw [applied] at whole
    exact absurd (broken.symm.trans (whole.mp rfl)) (by decide)

/-- The book of market 7 after a whole snapshot. -/
def restingBooks : Books :=
  (onMessages sampleExternals allHooks ∅
    [bookJson "subscribed/order_book" 7 [levelJson 100 3] [levelJson 101 2]]).1

def brokenSnapshot : Json :=
  bookJson "subscribed/order_book" 7 [levelJson 99 1, .int 5] [levelJson 101 2]

theorem failsCleanly_iff_sample : isBookMessage brokenSnapshot = true ∧
    allFinite brokenSnapshot = true ∧
    (FailsCleanly sampleExternals allHooks restingBooks (fun _ => false) brokenSnapshot ↔
      (Fails sampleExternals allHooks restingBooks (fun _ => false) brokenSnapshot →
        AlreadyHeld sampleExternals (bookOf restingBooks (marketOf brokenSnapshot)) brokenSnapshot)) :=
  ⟨by decide, by decide,
    failsCleanly_iff sampleExternals allHooks restingBooks _ (by decide) (by decide)⟩

/-- The bid at 100 and the ask at 101 are gone, and the bid at 99 is kept. -/
theorem snapshot_half_applied : ¬ ∀ (lib : Externals) (hooks : Hooks) (books : Books)
    (throws : Effect → Bool) (msg : Json), isBookMessage msg = true →
    allFinite msg = true → FailsCleanly lib hooks books throws msg := by
  intro always
  have kind : isBookMessage brokenSnapshot = true := by decide
  have alone := always sampleExternals allHooks restingBooks (fun _ => false) brokenSnapshot kind
    (by decide) (fails_of_incomplete _ _ _ _ kind (by decide))
  have held := (leftAlone_iff _ _ _ kind (by decide)).mp alone
  have gone := held.bids 100 (Or.inl (by decide))
  exact absurd gone (by decide +kernel)

end LighterApi.Guarantees.FailedBookMessage

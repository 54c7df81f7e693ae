import LighterApi.Guarantees.FailedBookMessage

/-!
# Which channels touch a book

A channel names a market by the digits behind its first separator. The handler reads them
with `std::stoi`, which skips blanks, takes a sign and ignores what follows the digits, and
it uses the `-1` of a channel that cannot be read like any other market id. So a channel
that names no market is applied to some book all the same, and that goes unnoticed only
when the message says nothing new about a book that exists and no quote is due.
-/
namespace LighterApi.Guarantees.ChannelGrammar
open LighterApi.Source LighterApi.Source.StreamManager
open LighterApi.Guarantees.BookRefinement LighterApi.Guarantees.FailedBookMessage

def isSeparator (c : Char) : Bool := c = ':' || c = '/'

/-- A name without a separator, a separator, and the digits of a market id. -/
def Names (channel : String) (marketId : Int) : Prop :=
  ∃ name sep digits, channel.toList = name ++ sep :: digits ∧
    (∀ c ∈ name, isSeparator c = false) ∧ isSeparator sep = true ∧
    digits ≠ [] ∧ (∀ c ∈ digits, c.isDigit = true) ∧
    (digitsValue digits : Int) = marketId ∧ marketId < 2 ^ 31

/-- The message has a channel, a string, that names the market. -/
def Addresses (msg : Json) (marketId : Int) : Prop :=
  ∃ channel, msg.find "channel" = some (.str channel) ∧ Names channel marketId

variable (lib : Externals) (hooks : Hooks) (books : Books)

/-- A message that addresses a market is applied to it; any other one creates and changes
no book and makes no quote. -/
def TouchesOnlyAddressed (msg : Json) : Prop :=
  (∀ marketId, Addresses msg marketId → onMessage lib hooks books msg =
      onOrderBookMessage lib hooks books marketId ((msg.find "order_book").getD .null)
        (isSnapshot msg)) ∧
    ((∀ marketId, ¬ Addresses msg marketId) →
      (onMessage lib hooks books msg).1 = books ∧ quotes (onMessage lib hooks books msg).2 = [])

/-- The message says nothing new about a book that exists, and no quote of it is due: no
callback is set, a level is no object, or the book is crossed. -/
structure Unnoticed (msg : Json) : Prop where
  exists_book : marketOf msg ∈ books
  held : AlreadyHeld lib (bookOf books (marketOf msg)) msg
  quiet : hooks.book = true → complete msg = true →
    crossed (bestPrice (bookOf books (marketOf msg)).bids)
      (bestPrice (bookOf books (marketOf msg)).asks) = true

/-! ## Reading the market id -/

/-- The longest run without a separator ends at the first separator. -/
theorem dropWhile_name {name rest : List Char} {sep : Char}
    (plain : ∀ c ∈ name, isSeparator c = false) (separator : isSeparator sep = true) :
    (name ++ sep :: rest).dropWhile (fun c => c ≠ ':' && c ≠ '/') = sep :: rest := by
  induction name with
  | nil =>
    simp only [isSeparator, Bool.or_eq_true, decide_eq_true_eq] at separator
    rcases separator with rfl | rfl <;> rfl
  | cons c name ih =>
    have other := plain c List.mem_cons_self
    simp only [isSeparator, Bool.or_eq_false_iff, decide_eq_false_iff_not] at other
    rw [List.cons_append, List.dropWhile_cons, if_pos (by simp [other])]
    exact ih fun c member => plain c (List.mem_cons_of_mem _ member)

theorem channelId_of_names {channel : String} {marketId : Int} (names : Names channel marketId) :
    channelId channel = marketId := by
  obtain ⟨name, sep, digits, split, plain, separator, some_digit, all, value, fits⟩ := names
  have read : strtol (String.ofList (digits ++ [])) = some (digitsValue digits : Int) :=
    (strtol_digits some_digit all (by simp)).1
  rw [List.append_nil, value] at read
  have nonneg : 0 ≤ marketId := by omega
  have parsed : stoi (String.ofList digits) = some marketId := by
    unfold stoi
    rw [read, Option.filter_some, if_pos (by simp only [decide_eq_true_eq]; omega)]
  unfold channelId
  rw [split, dropWhile_name plain separator]
  dsimp only
  rw [parsed, Option.getD_some]

theorem marketOf_of_addresses {msg : Json} {marketId : Int} (addresses : Addresses msg marketId) :
    marketOf msg = marketId := by
  obtain ⟨channel, member, names⟩ := addresses
  unfold marketOf textOf
  rw [member]
  exact channelId_of_names names

/-! ## What any channel does -/

theorem quotes_of_unset {msg : Json} (unset : hooks.book = false) (kind : isBookMessage msg = true) :
    quotes (onMessage lib hooks books msg).2 = [] := by
  rw [onMessage_of_book lib hooks books kind]
  unfold onOrderBookMessage
  split
  · rfl
  · unfold quoteBook
    rw [unset]
    dsimp only
    split
    · cases hooks.log <;> cases hooks.session <;> rfl
    · rfl

variable {msg : Json}

/-- The stored map is what it was when the market had a book and keeps it. -/
theorem stored_unchanged_iff (kind : isBookMessage msg = true) (finite : allFinite msg = true) :
    (onMessage lib hooks books msg).1 = books ↔
      marketOf msg ∈ books ∧ AlreadyHeld lib (bookOf books (marketOf msg)) msg := by
  rw [← leftAlone_iff lib hooks books kind finite]
  constructor
  · intro same
    refine ⟨?_, fun m => by rw [same]⟩
    rw [onMessage_stored lib hooks books kind] at same
    rw [← same]
    exact Std.ExtTreeMap.mem_insert_self
  · rintro ⟨member, alone⟩
    have here := alone (marketOf msg)
    rw [onMessage_stored lib hooks books kind] at here ⊢
    rw [bookOf_insert, if_pos rfl] at here
    rw [here]
    refine Std.ExtTreeMap.ext_getElem? fun m => ?_
    rw [Std.ExtTreeMap.getElem?_insert]
    split
    · rename_i same
      obtain rfl := Std.LawfulEqCmp.eq_of_compare same
      rw [Std.ExtTreeMap.mem_iff_isSome_getElem?] at member
      obtain ⟨book, stored⟩ := Option.isSome_iff_exists.mp member
      unfold bookOf
      rw [Std.ExtTreeMap.getD_eq_getD_getElem?, stored]
      rfl
    · rfl

/-- A quote is due unless no callback is set, a level is no object or the book is crossed. -/
theorem unquoted_iff (kind : isBookMessage msg = true)
    (same : (onMessage lib hooks books msg).1 = books) :
    quotes (onMessage lib hooks books msg).2 = [] ↔
      (hooks.book = true → complete msg = true →
        crossed (bestPrice (bookOf books (marketOf msg)).bids)
          (bestPrice (bookOf books (marketOf msg)).asks) = true) := by
  cases set : hooks.book with
  | false => simp [quotes_of_unset lib hooks books set kind]
  | true =>
    rw [quotes_onMessage lib hooks books set, same]
    cases whole : complete msg with
    | false => simp
    | true =>
      rw [if_pos ⟨kind, rfl⟩]
      dsimp only
      split
      · rename_i cross
        simp [cross]
      · rename_i uncrossed
        simp [uncrossed]

/-- Only an addressed book is touched just when the message addresses one or goes unnoticed. -/
theorem touchesOnlyAddressed_iff (kind : isBookMessage msg = true)
    (finite : allFinite msg = true) :
    TouchesOnlyAddressed lib hooks books msg ↔
      (∃ marketId, Addresses msg marketId) ∨ Unnoticed lib hooks books msg := by
  constructor
  · rintro ⟨_, malformed⟩
    refine or_iff_not_imp_left.mpr fun unaddressed => ?_
    obtain ⟨same, unquoted⟩ := malformed fun marketId addresses => unaddressed ⟨marketId, addresses⟩
    obtain ⟨member, held⟩ := (stored_unchanged_iff lib hooks books kind finite).mp same
    exact ⟨member, held, (unquoted_iff lib hooks books kind same).mp unquoted⟩
  · intro condition
    constructor
    · intro marketId addresses
      rw [onMessage_of_book lib hooks books kind, marketOf_of_addresses addresses]
    · intro unaddressed
      rcases condition with ⟨marketId, addresses⟩ | unnoticed
      · exact absurd addresses (unaddressed marketId)
      · have same := (stored_unchanged_iff lib hooks books kind finite).mpr
          ⟨unnoticed.exists_book, unnoticed.held⟩
        exact ⟨same, (unquoted_iff lib hooks books kind same).mpr unnoticed.quiet⟩

/-! ## A message without a channel -/

def unaddressedJson : Json :=
  .obj [("order_book", .obj []), ("type", .str "update/order_book")]

theorem touchesOnlyAddressed_iff_sample : isBookMessage unaddressedJson = true ∧
    allFinite unaddressedJson = true ∧
    (TouchesOnlyAddressed sampleExternals allHooks restingBooks unaddressedJson ↔
      (∃ marketId, Addresses unaddressedJson marketId) ∨
        Unnoticed sampleExternals allHooks restingBooks unaddressedJson) :=
  ⟨by decide, by decide,
    touchesOnlyAddressed_iff sampleExternals allHooks restingBooks (by decide) (by decide)⟩

/-- A message without a channel creates the book of market -1 and quotes it. -/
theorem unaddressed_book_created : ¬ ∀ (lib : Externals) (hooks : Hooks) (books : Books) (msg : Json),
    isBookMessage msg = true → allFinite msg = true →
      TouchesOnlyAddressed lib hooks books msg := by
  intro always
  have touches := always sampleExternals allHooks ∅ unaddressedJson (by decide) (by decide)
  have unaddressed : ∀ marketId, ¬ Addresses unaddressedJson marketId := by
    rintro marketId ⟨channel, member, _⟩
    exact absurd member (by simp [unaddressedJson])
  have created := (touches.2 unaddressed).2
  exact absurd created (by decide +kernel)

end LighterApi.Guarantees.ChannelGrammar

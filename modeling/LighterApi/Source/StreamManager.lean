import Std.Data.ExtTreeMap
import LighterApi.Source.Json

/-!
The message side of the stream manager: lighter_ws_stream_manager.cpp:25-180. The
books are the only state; a handler returns them with what it did, or with the text
of the exception that left it. Levels applied before an exception stay applied.
-/
namespace LighterApi.Source.StreamManager
open Std

/-- Parse the id after the channel separator, `:` or `/`. -/
def channelId (channel : String) : Int :=
  match channel.toList.dropWhile (fun c => c ≠ ':' && c ≠ '/') with
  | [] => -1
  | _ :: id => (stoi (String.ofList id)).getD (-1)

example : channelId "order_book:7" = 7 ∧ channelId "order_book/7" = 7 ∧ channelId "book" = -1 := by
  decide

/-- One side of a book: price to size, in the order of the side. -/
abbrev Levels (order : Rat → Rat → Ordering) := ExtTreeMap Rat Rat order

abbrev descending (a b : Rat) : Ordering := compare b a

abbrev ascending (a b : Rat) : Ordering := compare a b

instance : TransCmp descending := inferInstanceAs (TransCmp fun a b : Rat => compare b a)

instance : LawfulEqCmp descending := inferInstanceAs (LawfulEqCmp fun a b : Rat => compare b a)

structure Book where
  bids : Levels descending := ∅
  asks : Levels ascending := ∅

abbrev Books := ExtTreeMap Int Book

/-- `type_name()` -/
def typeName : Json → String
  | .null => "null"
  | .bool _ => "boolean"
  | .int _ => "number"
  | .num _ => "number"
  | .str _ => "string"
  | .arr _ => "array"
  | .obj _ => "object"

def valueError (json : Json) : String :=
  "[json.exception.type_error.306] cannot use value() with " ++ typeName json

variable (lib : Externals)

/-- The shared loop of the two `applyLevels`: the side so far and the exception that
ended the loop, if one did. -/
def applyLevelsTo {order : Rat → Rat → Ordering} [TransCmp order] (side : Levels order) :
    List Json → Levels order × Option String
  | [] => (side, none)
  | lvl :: levels =>
    match lvl.value "price" (.int 0), lvl.value "size" (.int 0) with
    | some priceJson, some sizeJson =>
      let price := toDouble lib priceJson
      let size := toDouble lib sizeJson
      if priceJson.nonFinite || sizeJson.nonFinite then
        applyLevelsTo (ExtTreeMap.ofList (lib.nonFiniteLevel side.toList lvl) order) levels
      else if price ≤ 0 then applyLevelsTo side levels
      else if size = 0 then applyLevelsTo (side.erase price) levels
      else applyLevelsTo (side.insert price size) levels
    | _, _ => (side, some (valueError lvl))

/-- `applyLevels` on `std::map<double, double, std::greater<>>` -/
def applyBidLevels (side : Levels descending) (levels : List Json) :
    Levels descending × Option String :=
  applyLevelsTo lib side levels

/-- `applyLevels` on `std::map<double, double>` -/
def applyAskLevels (side : Levels ascending) (levels : List Json) :
    Levels ascending × Option String :=
  applyLevelsTo lib side levels

/-- The array under a key, when there is one. -/
def levelsOf (orderBook : Json) (key : String) : Option (List Json) :=
  (orderBook.find key).bind Json.asArray

/-- `begin()->first`, or zero on an empty side. -/
def bestPrice {order : Rat → Rat → Ordering} [TransCmp order] (side : Levels order) : Rat :=
  side.keys.head?.getD 0

/-- The callbacks that are set, and whether the session exists. -/
structure Hooks where
  log : Bool
  book : Bool
  account : Bool
  session : Bool

/-- What a handler does besides changing the books. -/
inductive Effect where
  | warning (text : String)
  | error (text : String)
  | unsubscribe (channel : String)
  | subscribe (channel : String)
  | bookUpdate (marketId : Int) (bestBid bestAsk : Rat)
  | accountUpdate (msg : Json)

/-- The two guarded level loops. -/
def applySides (book : Book) (orderBook : Json) : Book × Option String :=
  match applyBidLevels lib book.bids ((levelsOf orderBook "bids").getD []) with
  | (bids, some what) => ({ book with bids }, some what)
  | (bids, none) =>
    let (asks, thrown) := applyAskLevels lib book.asks ((levelsOf orderBook "asks").getD [])
    (⟨bids, asks⟩, thrown)

/-- A snapshot clears both sides first. -/
def updateBook (book : Book) (orderBook : Json) (snapshot : Bool) : Book × Option String :=
  applySides lib (if snapshot then ⟨∅, ∅⟩ else book) orderBook

def crossedWarning (marketId : Int) (bestBid bestAsk : Rat) : String :=
  s!"Lighter WS: crossed local book market {marketId} (bid {lib.showDouble bestBid} > ask {lib.showDouble bestAsk}), resubscribing"

/-- The local book is crossed: a lost or misapplied delta. -/
def crossed (bestBid bestAsk : Rat) : Bool :=
  decide (bestBid > 0 ∧ bestAsk > 0 ∧ bestBid > bestAsk)

def channelOf (marketId : Int) : String := s!"order_book/{marketId}"

/-- The check of the best prices and what it triggers. -/
def quoteBook (hooks : Hooks) (marketId : Int) (book : Book) : List Effect :=
  let bestBid := bestPrice book.bids
  let bestAsk := bestPrice book.asks
  if crossed bestBid bestAsk then
    (if hooks.log then [.warning (crossedWarning lib marketId bestBid bestAsk)] else []) ++
      (if hooks.session then [.unsubscribe (channelOf marketId), .subscribe (channelOf marketId)]
        else [])
  else if hooks.book then [.bookUpdate marketId bestBid bestAsk]
  else []

def bookOf (books : Books) (marketId : Int) : Book := books.getD marketId {}

def onOrderBookMessage (hooks : Hooks) (books : Books) (marketId : Int) (orderBook : Json)
    (snapshot : Bool) : Books × Except String (List Effect) :=
  match updateBook lib (bookOf books marketId) orderBook snapshot with
  | (book, some what) => (books.insert marketId book, .error what)
  | (book, none) => (books.insert marketId book, .ok (quoteBook lib hooks marketId book))

def onMessage (hooks : Hooks) (books : Books) (json : Json) :
    Books × Except String (List Effect) :=
  match (json.find "type").bind Json.asString with
  | none => (books, .ok [])
  | some type =>
    let channel := textOf json "channel"
    if type = "subscribed/order_book" ∨ type = "update/order_book" then
      match json.find "order_book" with
      | some (.obj members) =>
        onOrderBookMessage lib hooks books (channelId channel) (.obj members)
          (decide (type = "subscribed/order_book"))
      | _ => (books, .ok [])
    else if type = "subscribed/account_all_orders" ∨ type = "update/account_all_orders" ∨
        type = "subscribed/account_all" ∨ type = "update/account_all" then
      (books, .ok (if hooks.account then [.accountUpdate json] else []))
    else if startsWith type "error" then
      (books, .ok (if hooks.log then [.error ("Lighter WS: " ++ lib.dump json)] else []))
    else (books, .ok [])

/-- The messages of a run, handled in order; an exception is logged by the session and
the next message is handled on the books it left. -/
def onMessages (hooks : Hooks) (books : Books) : List Json → Books × List Effect
  | [] => (books, [])
  | json :: rest =>
    let (next, outcome) := onMessage lib hooks books json
    let (last, effects) := onMessages hooks next rest
    (last, outcome.toOption.getD [] ++ effects)

end LighterApi.Source.StreamManager

import LighterApi.Source.Listings
import LighterApi.Source.StreamManager

/-!
Market data from the wire to `lastQuote`: lighter_ws_stream_manager.cpp:118-180 with the
order book callback that `start()` sets, lighter_execution_gateway.cpp:567-585, and the
loop of `loadInstruments`, lighter_execution_gateway.cpp:227-243, which decides under which
symbol a market is cached. A message is handled on the io thread and looks its symbol up
once; the loop takes the lock for each asset, so messages may come between two of them.
-/
namespace LighterApi.Source.MarketData
open LighterApi.Source.StreamManager LighterApi.Source.Listings LighterApi.Source.Gateway

structure State where
  books : Books
  markets : Markets

namespace State

def start : State := ⟨∅, .start⟩

def lastQuote (s : State) (symbol : String) : Option Quote := s.markets.quoteCache symbol

end State

inductive Action where
  | message (json : Json) (receivedAt : Nat)
  | loadAsset (asset : PerpAsset)

/-- The order book callback. -/
def onEffect (receivedAt : Nat) (markets : Markets) : Effect → Markets
  | .bookUpdate marketId bestBid bestAsk => markets.onOrderBook marketId ⟨bestBid, bestAsk, receivedAt⟩
  | _ => markets

variable (lib : Externals) (hooks : Hooks)

def onMessage (s : State) (json : Json) (receivedAt : Nat) : State :=
  let (books, outcome) := StreamManager.onMessage lib hooks s.books json
  ⟨books, (outcome.toOption.getD []).foldl (onEffect receivedAt) s.markets⟩

/-- Neither of these blocks. -/
def step (s : State) : Action → Option State
  | .message json receivedAt => some (onMessage lib hooks s json receivedAt)
  | .loadAsset asset =>
    some { s with markets := { s.markets with specs := s.markets.specs.loadAsset asset } }

end LighterApi.Source.MarketData

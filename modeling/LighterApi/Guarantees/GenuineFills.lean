import LighterApi.Guarantees.DeliveredReports
import LighterApi.Guarantees.FillReports

/-!
# Genuine fills are credited in full

The venue fills an order bit by bit up to the base units it was signed for. The gateway
judges the amounts by the quantity its caller asked for, before the rounding to base
units. So everything the venue tells of an order is credited in full exactly when the
rounding raised the order by no more than the tolerance of the clamp.
-/
namespace LighterApi.Guarantees.GenuineFills
open LighterApi.Library.Transition LighterApi.Library.RunningMax
open LighterApi.Source LighterApi.Source.SendTx LighterApi.Source.Gateway
open LighterApi.Source.GatewayRun
open LighterApi.Guarantees.OrderIndices LighterApi.Guarantees.FillConservation
open LighterApi.Guarantees.FillReports LighterApi.Guarantees.DeliveredReports

variable {cfg : Config} {s s' : State} {qty units last : Rat} {amounts : List Rat}

/-- One instrument with a given size precision. -/
def instrument (sizeDecimals : Int) : Instruments where
  symbolToMarketId _ := some 0
  marketIdToSymbol _ := some "ETH"
  sizeDecimals _ := some sizeDecimals
  priceDecimals _ := some 0

def submission (qty : Rat) (baseAmount : Int) : Submission where
  kind := .submitPostOnlyLimit
  clientOrderId := "x"
  symbol := "ETH"
  side := .Buy
  qty := qty
  reduceOnly := false
  scaled := ⟨0, baseAmount, 1⟩

theorem llround_one (lib : Externals) : llround lib (1 * pow10i 0) = 1 := by
  have rounded : roundAway (1 * pow10i 0) = 1 := by
    decide +kernel
  unfold llround
  rw [rounded]
  exact if_pos (by norm_num)

theorem scaleLimit_instrument {lib : Externals} {qty : Rat} {sizeDecimals : Int}
    (whole : 0 < llround lib (qty * pow10i sizeDecimals)) :
    scaleLimit lib (instrument sizeDecimals) "ETH" qty 1 =
      .ok ⟨0, llround lib (qty * pow10i sizeDecimals), 1⟩ := by
  unfold scaleLimit instrument
  dsimp only [Option.getD_some]
  rw [llround_one, if_neg whole.not_ge, if_neg (by unfold uint32Max; omega)]

/-- Actions of the handler that neither throw nor bring anything new. -/
structure Passes (cfg : Config) (s : State) (actions : List Action) (s' : State) : Prop where
  reached : run (step cfg) s actions = some s'
  silent : ∀ i, told i actions = []
  returns : Returns actions
  grown : ∃ events, s'.trace = events ++ s.trace ∧ ∀ e ∈ events, ∀ i, e ≠ .rejected i

theorem Passes.trans {m : State} {first second : List Action} (h : Passes cfg s first m)
    (h' : Passes cfg m second s') : Passes cfg s (first ++ second) s' := by
  obtain ⟨events, trace_eq, none_refused⟩ := h.grown
  obtain ⟨events', trace_eq', none_refused'⟩ := h'.grown
  refine ⟨run_append_eq_some.mpr ⟨m, h.reached, h'.reached⟩, fun i => ?_, ⟨?_, ?_⟩, events' ++ events,
    by rw [trace_eq', trace_eq, List.append_assoc], fun e member => ?_⟩
  · rw [told_append, h.silent, h'.silent]
    rfl
  · exact fun throws => (List.mem_append.mp throws).elim h.returns.1 h'.returns.1
  · exact fun throws => (List.mem_append.mp throws).elim h.returns.2 h'.returns.2
  · rcases List.mem_append.mp member with later | earlier
    · exact none_refused' e later
    · exact none_refused e earlier

end LighterApi.Guarantees.GenuineFills

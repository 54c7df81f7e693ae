import Mathlib.Algebra.Order.Floor.Defs
import Mathlib.Data.Rat.Floor
import Mathlib.Logic.Function.Basic
import LighterApi.Source.SendTx

/-!
The order side of the execution gateway, one definition for each locked section or
pure step: lighter_execution_gateway.cpp:48-106,178-253,357-520,677-847. Doubles are
exact rationals. How the steps of several threads interleave is in `GatewayRun`.
-/
namespace LighterApi.Source.Gateway
open LighterApi.Source.SendTx

/-! ## Order records -/

structure OrderRec where
  clientOrderId : String
  symbol : String
  marketId : Int := -1
  orderIndex : Int := -1
  cumFilledBase : Rat := 0
  submittedQty : Rat := 0
  deriving DecidableEq, Repr

/-- The two maps behind `orderM`. -/
structure OrderMaps where
  ordersByIndex : Int → Option OrderRec
  clientIdToIndex : String → Option Int

namespace OrderMaps

def empty : OrderMaps := ⟨fun _ => none, fun _ => none⟩

/-- What both submits do under `orderM`. -/
def insertOrderRec (maps : OrderMaps) (clientOrderIndex : Int) (rec : OrderRec) : OrderMaps where
  ordersByIndex := Function.update maps.ordersByIndex clientOrderIndex (some rec)
  clientIdToIndex := Function.update maps.clientIdToIndex rec.clientOrderId (some clientOrderIndex)

def eraseOrderRec (maps : OrderMaps) (clientOrderIndex : Int) (clientOrderId : String) :
    OrderMaps where
  ordersByIndex := Function.update maps.ordersByIndex clientOrderIndex none
  clientIdToIndex := Function.update maps.clientIdToIndex clientOrderId none

/-- A record changed in place. -/
def setOrderRec (maps : OrderMaps) (clientOrderIndex : Int) (rec : OrderRec) : OrderMaps :=
  { maps with ordersByIndex := Function.update maps.ordersByIndex clientOrderIndex (some rec) }

variable (maps : OrderMaps) (i j : Int) (rec : OrderRec) (id id' : String)

@[simp] theorem insert_ordersByIndex : (maps.insertOrderRec i rec).ordersByIndex j =
    if j = i then some rec else maps.ordersByIndex j := by
  simp [insertOrderRec, Function.update_apply]

@[simp] theorem insert_clientIdToIndex : (maps.insertOrderRec i rec).clientIdToIndex id =
    if id = rec.clientOrderId then some i else maps.clientIdToIndex id := by
  simp [insertOrderRec, Function.update_apply]

@[simp] theorem erase_ordersByIndex : (maps.eraseOrderRec i id).ordersByIndex j =
    if j = i then none else maps.ordersByIndex j := by
  simp [eraseOrderRec, Function.update_apply]

/-- What is stored after an erasure was stored before. -/
theorem stored_of_erase {maps : OrderMaps} {i j : Int} {rec : OrderRec} {id : String}
    (stored : (maps.eraseOrderRec i id).ordersByIndex j = some rec) :
    maps.ordersByIndex j = some rec := by
  rw [erase_ordersByIndex] at stored
  split at stored
  · cases stored
  · exact stored

/-- What is missing before an erasure is missing after it. -/
theorem missing_erase {maps : OrderMaps} {j : Int} (i : Int) (id : String)
    (missing : maps.ordersByIndex j = none) :
    (maps.eraseOrderRec i id).ordersByIndex j = none := by
  rw [erase_ordersByIndex]
  split
  · rfl
  · exact missing

@[simp] theorem erase_clientIdToIndex : (maps.eraseOrderRec i id').clientIdToIndex id =
    if id = id' then none else maps.clientIdToIndex id := by
  simp [eraseOrderRec, Function.update_apply]

@[simp] theorem set_ordersByIndex : (maps.setOrderRec i rec).ordersByIndex j =
    if j = i then some rec else maps.ordersByIndex j := by
  simp [setOrderRec, Function.update_apply]

@[simp] theorem set_clientIdToIndex :
    (maps.setOrderRec i rec).clientIdToIndex = maps.clientIdToIndex := rfl

end OrderMaps

/-! ## Scaling -/

variable (lib : Externals)

def pow10i (n : Int) : Rat := 10 ^ n.toNat

/-- Rounding half away from zero. -/
def roundAway (x : Rat) : Int := if 0 ≤ x then ⌊x + 1 / 2⌋ else -⌊-x + 1 / 2⌋

/-- `std::llround`, unspecified when the rounded value does not fit. -/
def llround (x : Rat) : Int :=
  if -(2 ^ 63) ≤ roundAway x ∧ roundAway x < 2 ^ 63 then roundAway x else lib.llroundOverflow x

/-- The instrument maps behind `specM`. -/
structure Instruments where
  symbolToMarketId : String → Option Int
  marketIdToSymbol : Int → Option String
  sizeDecimals : String → Option Int
  priceDecimals : String → Option Int

abbrev QuoteCache := String → Option Quote

inductive OrderSide where
  | Buy | Sell
  deriving DecidableEq, Repr

def uint32Max : Int := 4294967295

/-- The scaled order a submit hands to the signer. -/
structure Scaled where
  marketId : Int
  baseAmount : Int
  price : Int
  deriving DecidableEq, Repr

def unknownInstrument (symbol : String) : Failure :=
  .gateway .Permanent ("Lighter: unknown instrument " ++ symbol)

def qtyRoundsToZero (qty : Rat) : Failure :=
  .gateway .MinNotional ("Lighter: qty " ++ lib.showDouble qty ++ " rounds to 0 base units")

/-- `submitPostOnlyLimit` up to the allocation of the index. -/
def scaleLimit (inst : Instruments) (symbol : String) (qty price : Rat) : Except Failure Scaled :=
  match inst.symbolToMarketId symbol with
  | none => .error (unknownInstrument symbol)
  | some marketId =>
    let sizeDec := (inst.sizeDecimals symbol).getD 0
    let priceDec := (inst.priceDecimals symbol).getD 0
    let baseAmount := llround lib (qty * pow10i sizeDec)
    if baseAmount ≤ 0 then .error (qtyRoundsToZero lib qty)
    else
      let priceScaled64 := llround lib (price * pow10i priceDec)
      if priceScaled64 ≤ 0 ∨ priceScaled64 > uint32Max then
        .error (.gateway .Hard ("Lighter: price " ++ lib.showDouble price ++ " scales to " ++
          toString priceScaled64 ++ " — outside the venue's uint32 domain"))
      else .ok ⟨marketId, baseAmount, priceScaled64⟩

/-- `submitReduceOnlyMarket` up to the allocation of the index. -/
def scaleMarket (inst : Instruments) (quotes : QuoteCache) (symbol : String) (side : OrderSide)
    (qty : Rat) : Except Failure Scaled :=
  match inst.symbolToMarketId symbol with
  | none => .error (unknownInstrument symbol)
  | some marketId =>
    let sizeDec := (inst.sizeDecimals symbol).getD 0
    let priceDec := (inst.priceDecimals symbol).getD 0
    let baseAmount := llround lib (qty * pow10i sizeDec)
    if baseAmount ≤ 0 then .error (qtyRoundsToZero lib qty)
    else
      match (quotes symbol).filter lib.sane with
      | none => .error (.gateway .Hard ("Lighter: no sane quote for " ++ symbol ++
          " — cannot bound the market close"))
      | some quote =>
        let bound := if side = .Buy then quote.ask * (105 / 100) else quote.bid * (95 / 100)
        let boundScaled64 := llround lib (bound * pow10i priceDec)
        .ok ⟨marketId, baseAmount, max 1 (min boundScaled64 uint32Max)⟩

/-! ## Calls -/

inductive SubmitKind where
  | submitPostOnlyLimit | submitReduceOnlyMarket
  deriving DecidableEq, Repr

def SubmitKind.name : SubmitKind → String
  | submitPostOnlyLimit => "submitPostOnlyLimit"
  | submitReduceOnlyMarket => "submitReduceOnlyMarket"

/-- A submit call with its scaled order. -/
structure Submission where
  kind : SubmitKind
  clientOrderId : String
  symbol : String
  side : OrderSide
  qty : Rat
  reduceOnly : Bool
  scaled : Scaled
  deriving DecidableEq, Repr

/-- The record a submit stores. -/
def Submission.record (s : Submission) : OrderRec :=
  { clientOrderId := s.clientOrderId, symbol := s.symbol, marketId := s.scaled.marketId,
    orderIndex := -1, cumFilledBase := 0, submittedQty := s.qty }

inductive OrderType where
  | Limit | Market
  deriving DecidableEq, Repr

inductive TimeInForce where
  | ImmediateOrCancel | PostOnly
  deriving DecidableEq, Repr

/-- What the signer is asked to sign. -/
inductive SignRequest where
  | create (marketId clientOrderIndex baseAmount price : Int) (isAsk : Bool) (type : OrderType)
      (tif : TimeInForce) (reduceOnly : Bool) (nonce orderExpiry : Int)
  | cancel (marketId orderIndex nonce : Int)
  deriving DecidableEq, Repr

/-- The arguments of `signCreateOrder`; a market order is always reduce-only. -/
def Submission.signRequest (s : Submission) (clientOrderIndex nonce : Int) : SignRequest :=
  match s.kind with
  | .submitPostOnlyLimit =>
    .create s.scaled.marketId clientOrderIndex s.scaled.baseAmount s.scaled.price
      (decide (s.side = .Sell)) .Limit .PostOnly s.reduceOnly nonce (-1)
  | .submitReduceOnlyMarket =>
    .create s.scaled.marketId clientOrderIndex s.scaled.baseAmount s.scaled.price
      (decide (s.side = .Sell)) .Market .ImmediateOrCancel true nonce 0

def signFailure (what : String) : Failure := .gateway .Hard ("Lighter sign failed: " ++ what)

/-- The locked section of `cancel`: the market and the venue index to cancel, no record
(which returns false), or the exception of an order without a venue index. -/
def cancelTarget (maps : OrderMaps) (clientOrderId : String) :
    Except Failure (Option (Int × Int)) :=
  match maps.clientIdToIndex clientOrderId with
  | none => .ok none
  | some i =>
    match maps.ordersByIndex i with
    | none => .ok none
    | some rec =>
      if rec.orderIndex < 0 then
        .error (.gateway .Hard ("Lighter: order " ++ clientOrderId ++
          " not yet acknowledged — cancel retried next tick"))
      else .ok (some (rec.marketId, rec.orderIndex))

/-- The catch clauses of `cancel`. They see the text of the exception through `what()`. -/
def cancelVerdict : Failure → Except Failure Bool
  | .gateway kind text =>
    if isOrderGoneReason (cText text) then .ok false else .error (.gateway kind text)
  | .plain what => .error (.gateway .Hard ("Lighter cancel transport failure: " ++ cText what))

/-- What the tail of a call under the tx lock reads and writes. -/
structure Locked where
  maps : OrderMaps
  nonces : Nonces

/-- The tail of both submits under the tx lock, with the signer's answer, the answer to
the transaction and the reply to the resync given. -/
def submitLocked (kind : SubmitKind) (clientOrderIndex : Int) (clientOrderId : String)
    (signed : Except String Unit) (answer : Answer) (reply : Except String Int) (g : Locked) :
    Except Failure Unit × Locked :=
  match signed with
  | .error what =>
    (.error (signFailure what),
      { g with maps := g.maps.eraseOrderRec clientOrderIndex clientOrderId })
  | .ok () =>
    match sendSigned lib kind.name answer reply g.nonces with
    | (none, nonces) => (.ok (), { g with nonces })
    | (some failure, nonces) =>
      if failure.isGateway then
        (.error failure, ⟨g.maps.eraseOrderRec clientOrderIndex clientOrderId, nonces⟩)
      else (.error failure, { g with nonces })

/-- The tail of `cancel` under the tx lock. -/
def cancelLocked (signed : Except String Unit) (answer : Answer) (reply : Except String Int)
    (g : Locked) : Except Failure Bool × Locked :=
  match signed with
  | .error what => (.error (signFailure what), g)
  | .ok () =>
    match sendSigned lib "cancel" answer reply g.nonces with
    | (none, nonces) => (.ok true, { g with nonces })
    | (some failure, nonces) => (cancelVerdict failure, { g with nonces })

/-! ## Order events -/

inductive OrderState where
  | Accepted | Filled | Cancelled | Rejected
  deriving DecidableEq, Repr

def OrderState.isTerminal : OrderState → Bool
  | Accepted => false
  | _ => true

def classifyStatus (status : String) : OrderState × RejectKind :=
  if status = "open" ∨ status = "pending" ∨ status = "in-progress" then (.Accepted, .Hard)
  else if status = "filled" then (.Filled, .Hard)
  else if status = "canceled" then (.Cancelled, .Hard)
  else if status = "canceled-post-only" then (.Rejected, .BenignPostOnlyCross)
  else if status = "canceled-not-enough-liquidity" ∨ status = "canceled-too-much-slippage" then
    (.Rejected, .Hard)
  else if status = "canceled-reduce-only" ∨ status = "canceled-position-not-allowed" ∨
      status = "canceled-margin-not-allowed" ∨ status = "canceled-invalid-balance" then
    (.Rejected, .Permanent)
  else if startsWith status "canceled" then (.Cancelled, .Hard)
  else (.Accepted, .Hard)

/-- The messages that carry order events. -/
def isOrderFeed (msg : Json) : Bool :=
  let type := textOf msg "type"
  startsWith type "subscribed/account_all_orders" || startsWith type "update/account_all_orders"

/-- The order events of a message: the array itself, or the arrays and objects of a
per-market object in its order. -/
def flattenOrders (msg : Json) : List Json :=
  match msg.find "orders" with
  | some (.arr orders) => orders
  | some (.obj markets) => markets.flatMap fun perMarket =>
      match perMarket.2 with
      | .arr orders => orders
      | .obj members => [.obj members]
      | _ => []
  | _ => []

/-- Learn the venue index once; none for an event of another order. -/
def bindOrderIndex (rec : OrderRec) (orderIndex : Int) : Option OrderRec :=
  if orderIndex < 0 then some rec
  else if rec.orderIndex < 0 then some { rec with orderIndex }
  else if rec.orderIndex ≠ orderIndex then none
  else some rec

/-- The plausibility clamp. -/
def clampFill (submittedQty cumFilled : Rat) : Rat :=
  if submittedQty > 0 ∧ cumFilled > submittedQty * (1001 / 1000) then submittedQty else cumFilled

/-- The record after a cumulative fill, and the increment. -/
def creditFill (rec : OrderRec) (cumFilled : Rat) : OrderRec × Rat :=
  if cumFilled > rec.cumFilledBase then
    ({ rec with cumFilledBase := cumFilled }, cumFilled - rec.cumFilledBase)
  else (rec, 0)

/-- What the locked section hands to the rest of the loop body. -/
structure Taken where
  clientOrderIndex : Int
  clientOrderId : String
  symbol : String
  newFill : Rat
  order : Json

/-- The locked section of `onAccountMessage`; none is `continue`. -/
def takeOrder (maps : OrderMaps) (order : Json) : Option (OrderMaps × Taken) :=
  let clientOrderIndex := readInt order "client_order_index"
  if clientOrderIndex < 0 then none
  else
    match maps.ordersByIndex clientOrderIndex with
    | none => none
    | some rec =>
      match bindOrderIndex rec (readInt order "order_index") with
      | none => none
      | some bound =>
        let cumFilled := clampFill bound.submittedQty (readStr lib order "filled_base_amount")
        let (credited, newFill) := creditFill bound cumFilled
        some (maps.setOrderRec clientOrderIndex credited,
          ⟨clientOrderIndex, bound.clientOrderId, bound.symbol, newFill, order⟩)

/-- The price reported: the event's own, or the cached mid when it has none. -/
def eventPrice (quotes : QuoteCache) (symbol : String) (order : Json) : Rat :=
  let price := readStr lib order "price"
  if price ≤ 0 then
    match (quotes symbol).filter lib.sane with
    | some quote => (quote.bid + quote.ask) / 2
    | none => price
  else price

/-- A per-increment key so re-delivered messages dedup at the core. -/
def cumFilledKey (order : Json) : String :=
  match order.find "filled_base_amount" with
  | some (.str s) => s
  | some v => lib.dump v
  | none => "0"

structure FillEvent where
  clientOrderId : String
  symbol : String
  fillId : String
  qty : Rat
  price : Rat
  isMaker : Bool
  deriving DecidableEq, Repr

structure OrderUpdate where
  clientOrderId : String
  symbol : String
  state : OrderState
  price : Rat
  cumFilledQty : Rat
  rejectKind : RejectKind
  reason : String
  deriving DecidableEq, Repr

def fillEvent (taken : Taken) (price : Rat) : FillEvent :=
  { clientOrderId := taken.clientOrderId, symbol := taken.symbol,
    fillId := toString taken.clientOrderIndex ++ "-" ++ cumFilledKey lib taken.order,
    qty := taken.newFill, price := price, isMaker := true }

def orderUpdate (taken : Taken) (price : Rat) : OrderUpdate :=
  let status := textOf taken.order "status"
  { clientOrderId := taken.clientOrderId, symbol := taken.symbol,
    state := (classifyStatus status).1, price := price,
    cumFilledQty := readStr lib taken.order "filled_base_amount",
    rejectKind := (classifyStatus status).2, reason := status }

/-- The event ends the order. -/
def isTerminalEvent (order : Json) : Bool :=
  (classifyStatus (textOf order "status")).1.isTerminal

end LighterApi.Source.Gateway

import LighterApi.Library.Transition
import LighterApi.Source.Gateway

/-!
Runs of the execution gateway: any number of calling threads and the io thread, each
between two of its locked sections or external calls. A call made from inside a callback
is a call of some thread while the callback is running. The trace, newest event first,
only records; no step reads it.
-/
namespace LighterApi.Source.GatewayRun
open LighterApi.Source.SendTx LighterApi.Source.Gateway

/-- A call with what its locked section left it with. -/
inductive Job where
  | submit (s : Submission) (clientOrderIndex : Int)
  | cancel (clientOrderId : String) (marketId orderIndex : Int)
  deriving DecidableEq, Repr

/-- The name under which `sendSigned` reports the call. -/
def Job.name : Job → String
  | submit s _ => s.kind.name
  | cancel .. => "cancel"

def Job.signRequest (job : Job) (nonce : Int) : SignRequest :=
  match job with
  | submit s i => s.signRequest i nonce
  | cancel _ marketId orderIndex => .cancel marketId orderIndex nonce

/-- Where a calling thread stands. From `locked` to `leaving` it holds the tx lock, and
once `signed` its transaction carries a nonce. -/
inductive Stage where
  | idle
  | allocated (s : Submission) (clientOrderIndex : Int)
  | waiting (job : Job)
  | locked (job : Job)
  | signed (job : Job) (nonce : Int)
  | failed (job : Job) (failure : Failure)
  | erasing (s : Submission) (clientOrderIndex : Int) (failure : Failure)
  | leaving (job : Job) (result : Except Failure Bool)

def Stage.holdsTx : Stage → Bool
  | locked _ | signed _ _ | failed _ _ | erasing _ _ _ | leaving _ _ => true
  | _ => false

/-- Where the io thread stands in `onAccountMessage`. -/
inductive Handler where
  | idle
  | orders (rest : List Json)
  | taken (t : Taken) (rest : List Json)
  | priced (t : Taken) (price : Rat) (rest : List Json)
  | inFill (t : Taken) (price : Rat) (rest : List Json)
  | filled (t : Taken) (price : Rat) (rest : List Json)
  | inUpdate (t : Taken) (rest : List Json)
  | updated (t : Taken) (rest : List Json)

inductive Event where
  | inserted (clientOrderIndex : Int) (rec : OrderRec)
  | signing (request : SignRequest)
  | sent (nonce : Int)
  | resynced (reply : Except String Int)
  | rejected (clientOrderIndex : Int)
  | submitReturned (clientOrderId : String) (clientOrderIndex : Option Int)
      (failure : Option Failure)
  | cancelReturned (clientOrderId : String) (result : Except Failure Bool)
  | accepted (clientOrderIndex : Int) (order : Json)
  | fill (clientOrderIndex : Int) (fill : FillEvent)
  | update (clientOrderIndex : Int) (update : OrderUpdate)

/-- What does not change: the outside world's functions and the callbacks that are set. -/
structure Config where
  lib : Externals
  fillCB : Bool
  orderUpdateCB : Bool

structure State where
  maps : OrderMaps
  clientOrderCounter : Int
  nonces : Nonces
  txOwner : Option Nat
  threads : Nat → Stage
  handler : Handler
  instruments : Instruments
  quotes : QuoteCache
  trace : List Event

namespace State

variable (s : State)

/-- After `start()`: no order, no call, the counter and the nonce seeded. -/
def start (instruments : Instruments) (clientOrderCounter nextNonce : Int) : State where
  maps := .empty
  clientOrderCounter := clientOrderCounter
  nonces := { nextNonce := nextNonce }
  txOwner := none
  threads := fun _ => .idle
  handler := .idle
  instruments := instruments
  quotes := fun _ => none
  trace := []

/-- Thread `t` moves to a stage. -/
def goto (t : Nat) (stage : Stage) : State :=
  { s with threads := Function.update s.threads t stage }

def log (event : Event) : State := { s with trace := event :: s.trace }

end State

inductive Action where
  | reload (instruments : Instruments)
  | quote (symbol : String) (quote : Quote)
  | submitPostOnlyLimit (t : Nat) (clientOrderId symbol : String) (side : OrderSide)
      (qty price : Rat) (reduceOnly : Bool)
  | submitReduceOnlyMarket (t : Nat) (clientOrderId symbol : String) (side : OrderSide) (qty : Rat)
  | insert (t : Nat)
  | cancel (t : Nat) (clientOrderId symbol : String)
  | lockTx (t : Nat)
  | sign (t : Nat) (answer : Except String Unit)
  | send (t : Nat) (answer : Answer)
  | resync (t : Nat) (reply : Except String Int)
  | erase (t : Nat)
  | finish (t : Nat)
  | deliver (msg : Json)
  | takeNext
  | readPrice
  | emitFill
  | fillReturns (throws : Bool)
  | emitUpdate
  | updateReturns (throws : Bool)
  | prune

variable (cfg : Config)

/-- The head of a submit: scale the order and allocate the index, or throw. -/
def beginSubmit (s : State) (t : Nat) (kind : SubmitKind) (clientOrderId symbol : String)
    (side : OrderSide) (qty : Rat) (reduceOnly : Bool) (scaled : Except Failure Scaled) :
    Option State :=
  match s.threads t, scaled with
  | .idle, .error failure => some (s.log (.submitReturned clientOrderId none (some failure)))
  | .idle, .ok scaled =>
    let submission := ⟨kind, clientOrderId, symbol, side, qty, reduceOnly, scaled⟩
    some { s.goto t (.allocated submission s.clientOrderCounter) with
      clientOrderCounter := s.clientOrderCounter + 1 }
  | _, _ => none

def beginCancel (s : State) (t : Nat) (clientOrderId : String) : Option State :=
  match s.threads t with
  | .idle =>
    match cancelTarget s.maps clientOrderId with
    | .error failure => some (s.log (.cancelReturned clientOrderId (.error failure)))
    | .ok none => some (s.log (.cancelReturned clientOrderId (.ok false)))
    | .ok (some (marketId, orderIndex)) =>
      some (s.goto t (.waiting (.cancel clientOrderId marketId orderIndex)))
  | _ => none

def signTx (s : State) (t : Nat) (answer : Except String Unit) : Option State :=
  match s.threads t with
  | .locked job =>
    let s := s.log (.signing (job.signRequest s.nonces.nextNonce))
    match answer, job with
    | .ok (), job => some (s.goto t (.signed job s.nonces.nextNonce))
    | .error what, .submit sub i =>
      some ((s.log (.rejected i)).goto t (.erasing sub i (signFailure what)))
    | .error what, .cancel id m o =>
      some (s.goto t (.leaving (.cancel id m o) (.error (signFailure what))))
  | _ => none

/-- A definitive verdict on a submit is recorded when it is read. -/
def noteReject (s : State) (job : Job) (failure : Failure) : State :=
  match job with
  | .submit _ i => if failure.isGateway then s.log (.rejected i) else s
  | .cancel .. => s

def sendTxStep (s : State) (t : Nat) (answer : Answer) : Option State :=
  match s.threads t with
  | .signed job nonce =>
    let s := s.log (.sent nonce)
    match sendFailure cfg.lib job.name answer with
    | none =>
      some { s.goto t (.leaving job (.ok true)) with
        nonces := { s.nonces with nextNonce := s.nonces.nextNonce + 1 } }
    | some failure => some ((noteReject s job failure).goto t (.failed job failure))
  | _ => none

/-- Where a call goes after the resync that follows a failed send. -/
def afterResync (job : Job) (failure : Failure) : Stage :=
  match job with
  | .submit sub i =>
    if failure.isGateway then .erasing sub i failure else .leaving job (.error failure)
  | .cancel .. => .leaving job (cancelVerdict failure)

def resyncStep (s : State) (t : Nat) (reply : Except String Int) : Option State :=
  match s.threads t with
  | .failed job failure =>
    some { (s.log (.resynced reply)).goto t (afterResync job failure) with
      nonces := resyncNonce reply s.nonces }
  | _ => none

/-- The event of a call that returns or throws. -/
def returnEvent (job : Job) (result : Except Failure Bool) : Event :=
  match job with
  | .submit sub i =>
    .submitReturned sub.clientOrderId (some i)
      (match result with
        | .error failure => some failure
        | .ok _ => none)
  | .cancel id _ _ => .cancelReturned id result

/-- The loop head and the locked section of `onAccountMessage`. -/
def takeNextOrder (s : State) : Option State :=
  match s.handler with
  | .orders [] => some { s with handler := .idle }
  | .orders (order :: rest) =>
    match takeOrder cfg.lib s.maps order with
    | none => some { s with handler := .orders rest }
    | some (maps, t) =>
      some { s.log (.accepted t.clientOrderIndex order) with maps, handler := .taken t rest }
  | _ => none

def step (s : State) : Action → Option State
  | .reload instruments => some { s with instruments }
  | .quote symbol quote => some { s with quotes := Function.update s.quotes symbol (some quote) }
  | .submitPostOnlyLimit t id symbol side qty price reduceOnly =>
    beginSubmit s t .submitPostOnlyLimit id symbol side qty reduceOnly
      (scaleLimit cfg.lib s.instruments symbol qty price)
  | .submitReduceOnlyMarket t id symbol side qty =>
    beginSubmit s t .submitReduceOnlyMarket id symbol side qty true
      (scaleMarket cfg.lib s.instruments s.quotes symbol side qty)
  | .insert t =>
    match s.threads t with
    | .allocated sub i =>
      some { (s.log (.inserted i sub.record)).goto t (.waiting (.submit sub i)) with
        maps := s.maps.insertOrderRec i sub.record }
    | _ => none
  | .cancel t id _ => beginCancel s t id
  | .lockTx t =>
    match s.threads t, s.txOwner with
    | .waiting job, none => some { s.goto t (.locked job) with txOwner := some t }
    | _, _ => none
  | .sign t answer => signTx s t answer
  | .send t answer => sendTxStep cfg s t answer
  | .resync t reply => resyncStep s t reply
  | .erase t =>
    match s.threads t with
    | .erasing sub i failure =>
      some { s.goto t (.leaving (.submit sub i) (.error failure)) with
        maps := s.maps.eraseOrderRec i sub.clientOrderId }
    | _ => none
  | .finish t =>
    match s.threads t with
    | .leaving job result =>
      some { (s.log (returnEvent job result)).goto t .idle with txOwner := none }
    | _ => none
  | .deliver msg =>
    match s.handler with
    | .idle => some { s with handler := if isOrderFeed msg then .orders (flattenOrders msg) else .idle }
    | _ => none
  | .takeNext => takeNextOrder cfg s
  | .readPrice =>
    match s.handler with
    | .taken t rest =>
      some { s with handler := .priced t (eventPrice cfg.lib s.quotes t.symbol t.order) rest }
    | _ => none
  | .emitFill =>
    match s.handler with
    | .priced t price rest =>
      if cfg.fillCB = true ∧ t.newFill > 0 then
        some { s.log (.fill t.clientOrderIndex (fillEvent cfg.lib t price)) with
          handler := .inFill t price rest }
      else some { s with handler := .filled t price rest }
    | _ => none
  | .fillReturns throws =>
    match s.handler with
    | .inFill t price rest =>
      some { s with handler := if throws then .idle else .filled t price rest }
    | _ => none
  | .emitUpdate =>
    match s.handler with
    | .filled t price rest =>
      if cfg.orderUpdateCB = true then
        some { s.log (.update t.clientOrderIndex (orderUpdate cfg.lib t price)) with
          handler := .inUpdate t rest }
      else some { s with handler := .updated t rest }
    | _ => none
  | .updateReturns throws =>
    match s.handler with
    | .inUpdate t rest => some { s with handler := if throws then .idle else .updated t rest }
    | _ => none
  | .prune =>
    match s.handler with
    | .updated t rest =>
      if isTerminalEvent t.order then
        some { s with
          maps := s.maps.eraseOrderRec t.clientOrderIndex t.clientOrderId
          handler := .orders rest }
      else some { s with handler := .orders rest }
    | _ => none

end LighterApi.Source.GatewayRun

import LighterApi.Library.LockRanks

/-!
What every operation does to the mutexes of the program:
lighter_execution_gateway.cpp:208-261,279-297,330-355,373-512,563-849,
lighter_rest_client.cpp:72-80,108-224,240-435, lighter_signer.cpp:108-158,
lighter_ws_stream_manager.cpp:124-278 and lighter_ws_session.cpp:93-560. A `lock_guard`
holds to the end of its scope; everything between two of them that may throw is `skip`.
Sleeps and exchanges with the venue end by their timeouts. Destructors, which join the io
thread, are left out, and the locks inside the logger and the other libraries.
-/
namespace LighterApi.Source.LockUse
open LighterApi.Library.LockRanks

/-- The gateway's own REST client is client 0; any other client has a mutex of its own. -/
inductive Lock where
  | txM | authM | orderM | specM | quoteM
  | signMutex
  | throttleMtx (client : Nat)
  | clientLocker
  | locker
  deriving DecidableEq, Repr

open Lock Code

/-! ## The REST client -/

def throttle (client : Nat) : Code Lock := locked (throttleMtx client) skip

/-- The pass of the throttle, the HTTP exchange and the reading of its answer. -/
def exchange (client : Nat) : Code Lock := block [throttle client, skip]

def loadAssets (client : Nat) : Code Lock := exchange client

def ensureSymbolCache (client : Nat) : Code Lock := branch skip (loadAssets client)

def resolveMarketId (client : Nat) : Code Lock :=
  block [ensureSymbolCache client, branch skip (block [loadAssets client, branch skip fail])]

/-- The writer is called between two batches. -/
def getHistoricalPrices (client : Nat) : Code Lock :=
  block [resolveMarketId client, branch fail skip,
    loop (block [exchange client, branch skip callback])]

def getFundingRates (client : Nat) : Code Lock :=
  block [resolveMarketId client, loop (exchange client)]

def getCurrentFundingRates (client : Nat) : Code Lock := exchange client

def getPerpetualAssets (client : Nat) : Code Lock := loadAssets client

def getBalance (client : Nat) : Code Lock := exchange client

def getNextNonce (client : Nat) : Code Lock := exchange client

def sendTx (client : Nat) : Code Lock := exchange client

def restCalls (client : Nat) : List (Code Lock) :=
  [getHistoricalPrices client, getFundingRates client, getCurrentFundingRates client,
    getPerpetualAssets client, getBalance client, getNextNonce client, sendTx client]

/-! ## The signer: every call is one locked section -/

def checkClient : Code Lock := locked signMutex skip

def signCreateOrder : Code Lock := locked signMutex skip

def signCancelOrder : Code Lock := locked signMutex skip

def createAuthToken : Code Lock := locked signMutex skip

/-! ## The session -/

def isUserClosed : Code Lock := locked locker skip

def enqueueOp : Code Lock := locked locker skip

def pump : Code Lock := branch skip (block [locked locker skip, skip])

/-- The gateway's token provider catches what the mint throws. -/
def subscribeMsg : Code Lock := block [attempt createAuthToken skip, skip]

def addTopic : Code Lock := locked locker skip

def removeTopic : Code Lock := locked locker skip

/-- The frames are built and queued after the lists were changed. -/
def flushTopics : Code Lock :=
  branch skip (block [locked locker skip, loop (block [subscribeMsg, enqueueOp]), pump])

def startConnect : Code Lock := block [isUserClosed, branch skip skip]

def handleError : Code Lock :=
  branch skip (block [skip, isUserClosed, branch skip (block [locked locker skip, skip])])

/-- The completions of the connect chain. -/
def onChain : Code Lock := branch handleError skip

def onHandshake : Code Lock := branch handleError (block [isUserClosed, branch skip skip])

def onWritten : Code Lock := branch handleError pump

def onPingTimer : Code Lock :=
  branch skip (block [isUserClosed, branch skip (branch handleError
    (block [branch skip (block [enqueueOp, pump]), skip]))])

def onReconnectTimer : Code Lock := branch skip (block [isUserClosed, branch skip startConnect])

def closeByUser : Code Lock := block [locked locker skip, branch skip skip]

/-- `subscribe` and `unsubscribe` change the lists and post the rest. -/
def subscribe : Code Lock := block [addTopic, skip]

def unsubscribe : Code Lock := block [removeTopic, branch skip skip]

def onUnsubscribe : Code Lock := branch skip (block [enqueueOp, pump])

/-! ## The gateway under its lock -/

def eraseOrderRec : Code Lock := locked orderM skip

def refreshAuthTokenIfNeeded : Code Lock :=
  locked authM (block [skip, branch skip (attempt (block [createAuthToken, skip]) skip)])

def loadInstruments : Code Lock :=
  block [refreshAuthTokenIfNeeded, getPerpetualAssets 0, loop (locked specM skip)]

def marketIdFor : Code Lock := locked specM skip

def symbolFor : Code Lock := locked specM skip

def resyncNonce : Code Lock := attempt (getNextNonce 0) skip

def sendSigned : Code Lock :=
  block [refreshAuthTokenIfNeeded, attempt (sendTx 0) (block [resyncNonce, skip, fail]),
    branch (block [resyncNonce, fail]) skip]

/-! ## The stream manager and the callbacks of `start()` -/

def ensureSession : Code Lock := locked clientLocker (branch skip skip)

def subscribeOrderBook : Code Lock := block [ensureSession, subscribe]

def unsubscribeOrderBook : Code Lock := branch skip unsubscribe

def subscribeAccountOrders : Code Lock :=
  block [locked clientLocker skip, ensureSession, skip, subscribe]

/-- The order book callback of `start()`, with the quote callback it makes. -/
def onOrderBook : Code Lock :=
  block [symbolFor, branch skip (block [locked quoteM skip, branch skip callback])]

def onOrderBookMessage : Code Lock :=
  block [skip, branch (branch skip (block [unsubscribe, subscribe])) onOrderBook]

/-- The loop body: the locked section, the price, the two callbacks and the pruning. -/
def onOrder : Code Lock :=
  branch skip (block [locked orderM (branch skip skip), branch skip (locked quoteM skip),
    branch skip callback, branch skip callback, branch skip eraseOrderRec, skip])

def onAccountMessage : Code Lock := block [skip, loop onOrder]

def onMessage : Code Lock := branch onOrderBookMessage (branch onAccountMessage skip)

/-- What the consumer throws is logged. -/
def dispatch : Code Lock :=
  branch flushTopics (branch (block [enqueueOp, pump]) (attempt onMessage skip))

/-- Only a JSON exception is caught. -/
def onRead : Code Lock :=
  branch handleError (attempt (block [skip, dispatch, skip]) (branch handleError fail))

/-! ## The operations of the gateway -/

def start : Code Lock :=
  block [loadInstruments, getNextNonce 0, skip, checkClient, subscribeAccountOrders, ensureSession,
    loop skip, branch fail skip]

def instrumentSpec : Code Lock :=
  block [locked specM skip, branch skip (block [loadInstruments, locked specM (branch fail skip)])]

def refreshInstruments : Code Lock := loadInstruments

def subscribeQuotes : Code Lock := block [marketIdFor, branch fail subscribeOrderBook]

def unsubscribeQuotes : Code Lock := block [marketIdFor, branch skip unsubscribeOrderBook]

def lastQuote : Code Lock := locked quoteM skip

/-- The two submits differ in how the price is made. -/
def submit (price : Code Lock) : Code Lock :=
  block [locked specM (branch fail skip), branch fail skip, price, locked orderM skip,
    locked txM (block [attempt signCreateOrder (block [eraseOrderRec, fail]),
      attempt sendSigned (branch (block [eraseOrderRec, fail]) fail), skip])]

def submitPostOnlyLimit : Code Lock := submit (branch fail skip)

def submitReduceOnlyMarket : Code Lock := submit (locked quoteM (branch fail skip))

/-- A cancelled order is gone, a failure is rethrown under another type. -/
def cancel : Code Lock :=
  block [locked orderM (branch skip fail),
    branch skip (locked txM (block [attempt signCancelOrder fail,
      attempt sendSigned (branch skip fail)]))]

def amendPrice : Code Lock := fail

def gatewayCalls : List (Code Lock) :=
  [start, instrumentSpec, refreshInstruments, subscribeQuotes, unsubscribeQuotes, lastQuote,
    submitPostOnlyLimit, amendPrice, cancel, submitReduceOnlyMarket]

/-- The handlers that the strand runs, posted or completing. -/
def ioCalls : List (Code Lock) :=
  [startConnect, flushTopics, onUnsubscribe, closeByUser, onChain, onHandshake, onRead, onWritten,
    onPingTimer, onReconnectTimer]

/-- The gateway and the REST clients beside it. -/
def clientCalls (clients : Nat) : List (Code Lock) :=
  gatewayCalls ++ (List.range clients).flatMap fun client => restCalls (client + 1)

/-- Thread 0 is the io thread. The others, and whoever is called back, are client code. -/
def program (clients : Nat) : Program Lock where
  calls t := if t = 0 then ioCalls else clientCalls clients
  client := clientCalls clients

end LighterApi.Source.LockUse

import LighterApi.Source.GatewayRun
import LighterApi.Source.Signer
import LighterApi.Source.StreamManager
import LighterApi.Source.WsSession

/-!
A gateway from its constructor on: lighter_execution_gateway.cpp:190-194,255-291,318-320,
523-611,635-651, lighter_rest_client.cpp:400-406 and lighter_ws_stream_manager.cpp:182-275.
`start()` goes on between the steps of the order side (`GatewayRun`) and of the session
(`WsSession`). What is asked of the native signer and of the nonce endpoint, and what is
subscribed, is a request; they are kept latest first, and no step reads them.
-/
namespace LighterApi.Source.GatewayLife
open LighterApi.Source.Gateway LighterApi.Source.Signer

inductive Request where
  | native (call : NativeCall)
  | nextNonce (query : Json)
  | subscribe (channel : String) (auth : Option String)

/-- The query of `getNextNonce`. -/
def nextNonceQuery (accountIndex apiKeyIndex : Int) : Json :=
  .obj [("account_index", .int accountIndex), ("api_key_index", .int apiKeyIndex)]

def accountOrdersChannel (accountIndex : Int) : String :=
  "account_all_orders/" ++ toString accountIndex

/-- What `start()` has done so far; `idle` before and after it. -/
inductive Startup where
  | idle | loaded | seeded | checked | subscribed
  deriving DecidableEq, Repr

structure Life where
  signer : LighterSigner
  accountIndex : Int
  apiKeyIndex : Int
  /-- The token the REST client holds. -/
  authToken : String
  authTokenDeadline : Int
  startup : Startup
  authTokenProvider : Bool
  session : Option WsSession.State
  orders : GatewayRun.State
  requests : List Request

def tokenLifetime : Int := 8 * 3600

def noInstruments : Instruments := ⟨fun _ => none, fun _ => none, fun _ => none, fun _ => none⟩

/-- The constructor, with the two readings of the clock. -/
def construct (lib : NativeLib) (nowMs now : Int) (url apiPrivateKey : String)
    (apiKeyIndex accountIndex : Int) : Except String Life :=
  match LighterSigner.create lib url apiPrivateKey apiKeyIndex accountIndex with
  | .error what => .error what
  | .ok signer =>
    let deadline := now + tokenLifetime
    match takeToken (lib.createAuthToken deadline signer.apiKeyIndex signer.accountIndex) with
    | .error what => .error what
    | .ok authToken =>
      if authToken = "" then
        .error "Lighter gateway: auth token mint failed — check the API key"
      else .ok
        { signer, accountIndex, apiKeyIndex, authToken
          authTokenDeadline := deadline
          startup := .idle
          authTokenProvider := false
          session := none
          orders := .start noInstruments nowMs 0
          requests := [.native (signer.createAuthTokenCall deadline),
            .native (signer.createClientCall url apiPrivateKey)] }

namespace Life

variable (s : Life)

def ask (request : Request) : Life := { s with requests := request :: s.requests }

/-- A failed mint is logged and the old token stays. -/
def refreshAuthTokenIfNeeded (now : Int) (minted : StrOrErr) : Life :=
  if now < s.authTokenDeadline - 3600 then s
  else
    let deadline := now + tokenLifetime
    let s := s.ask (.native (s.signer.createAuthTokenCall deadline))
    match takeToken minted with
    | .error _ => s
    | .ok authToken => { s with authToken, authTokenDeadline := deadline }

/-- `loadInstruments`, with the maps it makes of the assets or the exception of the request. -/
def loadInstruments (now : Int) (minted : StrOrErr) (reply : Except String Instruments) : Life :=
  let s := s.refreshAuthTokenIfNeeded now minted
  match reply with
  | .error _ => s
  | .ok instruments => { s with orders := { s.orders with instruments } }

theorem loadInstruments_keeps (now : Int) (minted : StrOrErr) (reply : Except String Instruments) :
    (s.loadInstruments now minted reply).accountIndex = s.accountIndex ∧
      (s.loadInstruments now minted reply).apiKeyIndex = s.apiKeyIndex := by
  have refreshed : (s.refreshAuthTokenIfNeeded now minted).accountIndex = s.accountIndex ∧
      (s.refreshAuthTokenIfNeeded now minted).apiKeyIndex = s.apiKeyIndex := by
    unfold refreshAuthTokenIfNeeded
    split
    · exact ⟨rfl, rfl⟩
    · dsimp only
      split
      · exact ⟨rfl, rfl⟩
      · exact ⟨rfl, rfl⟩
  cases reply with
  | error what => exact refreshed
  | ok instruments => exact refreshed

/-- `static_cast<std::int32_t>(accountIndex)` goes into the query. -/
def askNextNonce : Life :=
  s.ask (.nextNonce (nextNonceQuery (toInt32 s.accountIndex) s.apiKeyIndex))

/-- `start()` throws when the request fails. -/
def seedNonce (reply : Except String Int) : Life :=
  match reply with
  | .error _ => { s.askNextNonce with startup := .idle }
  | .ok nonce =>
    { s.askNextNonce with
      startup := .seeded
      orders := { s.orders with nonces := { s.orders.nonces with nextNonce := nonce } } }

/-! ## The session -/

def ensureSession : WsSession.State := s.session.getD .start

def sessionCall (a : WsSession.Action) : Option Life :=
  (WsSession.step s.ensureSession a).map fun session => { s with session := some session }

/-- The provider of `start()` catches what the mint throws. -/
def provider (minted : String → StrOrErr) (channel : String) : WsSession.Token :=
  if s.authTokenProvider then .text ((takeToken (minted channel)).toOption.getD "") else .text ""

/-- The handler that runs asks the gateway's provider. -/
def withProvider (provider : String → WsSession.Token) : WsSession.Action → WsSession.Action
  | .execute _ => .execute provider
  | .readDone gen result _ => .readDone gen result provider
  | a => a

/-- A subscribe frame is preceded by the mint of its token. -/
def asked (now : Int) : WsSession.Event → List Request
  | .enqueued (.subscribe channel auth) =>
    .subscribe channel auth ::
      if s.authTokenProvider then [.native (s.signer.createAuthTokenCall (now + tokenLifetime))]
      else []
  | _ => []

def sessionStep (a : WsSession.Action) (now : Int) (minted : String → StrOrErr) : Option Life :=
  match s.session with
  | none => none
  | some session =>
    (WsSession.step session (withProvider (s.provider minted) a)).map fun session' =>
      let noted := session'.trace.take (session'.trace.length - session.trace.length)
      { s with session := some session', requests := noted.flatMap (s.asked now) ++ s.requests }

/-! ## The order side -/

/-- What a step of the order side asks. -/
def askOrders : GatewayRun.Action → Life
  | .sign t _ =>
    match s.orders.threads t with
    | .locked job =>
      s.ask (.native (s.signer.signCall (job.signRequest s.orders.nonces.nextNonce)))
    | _ => s
  | .resync _ _ => s.askNextNonce
  | _ => s

/-- `sendSigned` refreshes the token first. -/
def ordersStep (cfg : GatewayRun.Config) (a : GatewayRun.Action) (now : Int) (minted : StrOrErr) :
    Option Life :=
  (GatewayRun.step cfg s.orders a).map fun orders =>
    match a with
    | .send _ _ => { s.refreshAuthTokenIfNeeded now minted with orders }
    | a => { s.askOrders a with orders }

end Life

inductive Action where
  | refreshInstruments (now : Int) (minted : StrOrErr) (reply : Except String Instruments)
  | start (now : Int) (minted : StrOrErr) (reply : Except String Instruments)
  | seedNonce (reply : Except String Int)
  | checkClient
  | subscribeAccountOrders
  | startReturns
  | subscribeOrderBook (marketId : Int)
  | unsubscribeOrderBook (marketId : Int)
  | orders (a : GatewayRun.Action) (now : Int) (minted : StrOrErr)
  | session (a : WsSession.Action) (now : Int) (minted : String → StrOrErr)

def step (cfg : GatewayRun.Config) (s : Life) : Action → Option Life
  | .refreshInstruments now minted reply => some (s.loadInstruments now minted reply)
  | .start now minted reply =>
    if s.startup = .idle then
      some { s.loadInstruments now minted reply with
        startup := if reply.isOk then .loaded else .idle }
    else none
  | .seedNonce reply => if s.startup = .loaded then some (s.seedNonce reply) else none
  | .checkClient =>
    if s.startup = .seeded then
      some { s.ask (.native s.signer.checkClientCall) with startup := .checked }
    else none
  | .subscribeAccountOrders =>
    if s.startup = .checked then
      { s with startup := .subscribed, authTokenProvider := true }.sessionCall
        (.subscribe (accountOrdersChannel (toInt32 s.accountIndex)))
    else none
  | .startReturns => if s.startup = .subscribed then some { s with startup := .idle } else none
  | .subscribeOrderBook marketId => s.sessionCall (.subscribe (StreamManager.channelOf marketId))
  | .unsubscribeOrderBook marketId =>
    if s.session.isSome then s.sessionCall (.unsubscribe (StreamManager.channelOf marketId))
    else some s
  | .orders (.reload _) _ _ => none
  | .orders a now minted => s.ordersStep cfg a now minted
  | .session (.subscribe _) _ _ | .session (.unsubscribe _) _ _ => none
  | .session a now minted => s.sessionStep a now minted

end LighterApi.Source.GatewayLife

import LighterApi.Guarantees.OrderIndices
import LighterApi.Guarantees.WantedChannels
import LighterApi.Source.GatewayLife

/-!
# One account everywhere

The gateway is constructed with a 64-bit account, and its signer keeps it; the nonce
endpoint is asked, and the order channel subscribed, for what a cast to 32 bits leaves of
it. So all the requests of a gateway name one account exactly when the cast loses nothing.
-/
namespace LighterApi.Guarantees.OneAccount
open LighterApi.Source LighterApi.Source.Signer LighterApi.Source.GatewayLife
open LighterApi.Library LighterApi.Library.Transition
open OrderIndices SessionLink WantedChannels

/-! ## The account a request names -/

/-- A channel of the order feed is that of the account. -/
def Owns (account : Int) (channel : String) : Prop :=
  startsWith channel "account_all_orders/" = true → channel = accountOrdersChannel account

/-- A call of the signer names one account, a request to the venue another. -/
def Names (signing asking : Int) : Request → Prop
  | .native call => call.accountIndex = signing
  | .nextNonce query => query.find "account_index" = some (.int asking)
  | .subscribe channel _ => Owns asking channel

/-- In every run every request names the account. -/
def NamesOne (cfg : GatewayRun.Config) (life : Life) (account : Int) : Prop :=
  ∀ actions s, run (step cfg) life actions = some s → ∀ r ∈ s.requests, Names account account r

/-- No book channel is one of the order feed. -/
theorem owns_channelOf (account marketId : Int) : Owns account (StreamManager.channelOf marketId) := by
  intro starts
  have split : (StreamManager.channelOf marketId).toList =
      'o' :: ("rder_book/".toList ++ (toString marketId).toList) := by
    change ("order_book/" ++ toString marketId).toList = _
    rw [String.toList_append]
    rfl
  unfold startsWith at starts
  rw [split] at starts
  exact absurd (List.cons_prefix_cons.mp (of_decide_eq_true starts)).1 (by decide)

/-! ## The session -/

/-- The channels of the list, and those that frames were built for, are the account's. -/
structure Tuned (account : Int) (session : WsSession.State) : Prop where
  refined : Refined session
  listed : ∀ c ∈ topics session, Owns account c
  built : ∀ c auth, .enqueued (.subscribe c auth) ∈ session.trace → Owns account c

theorem tuned_start (account : Int) : Tuned account WsSession.State.start :=
  ⟨refined_start, by simp [topics, WsSession.State.start], by simp [WsSession.State.start]⟩

variable {account : Int} {session session' : WsSession.State}

/-- A call builds no frame. -/
theorem trace_call {a : WsSession.Action} (calls : call a ≠ none)
    (taken : WsSession.step session a = some session') : session'.trace = session.trace := by
  cases a with
  | subscribe channel => rw [subscribe_spec taken]
  | unsubscribe channel =>
    rcases unsubscribe_spec taken with ⟨_, rfl⟩ | ⟨_, rfl⟩
    · rfl
    · rfl
  | _ => exact absurd rfl calls

theorem Tuned.step {a : WsSession.Action} (h : Tuned account session)
    (own : ∀ c, a = .subscribe c → Owns account c)
    (taken : WsSession.step session a = some session') : Tuned account session' := by
  refine ⟨h.refined.step taken, fun c member => ?_, fun c auth member => ?_⟩
  · rw [topics_step h.refined taken] at member
    unfold callEffect at member
    cases a with
    | subscribe channel =>
      have added := (OrderedSet.mem_operate_iff h.refined.nodup (channel, true) c).mp member
      by_cases same : channel = c
      · exact own c (same ▸ rfl)
      · exact h.listed c (by rwa [if_neg same] at added)
    | unsubscribe channel =>
      have kept := (OrderedSet.mem_operate_iff h.refined.nodup (channel, false) c).mp member
      by_cases same : channel = c
      · rw [if_pos same] at kept
        cases kept
      · exact h.listed c (by rwa [if_neg same] at kept)
    | _ => exact h.listed c member
  · by_cases no_call : call a = none
    · rcases (step_stutter h.refined.link no_call taken).frames c auth member with before | listed
      · exact h.built c auth before
      · exact h.listed c listed
    · exact h.built c auth (trace_call no_call taken ▸ member)

/-! ## The invariant -/

/-- The signer has the account, and so far every request names what its path makes of it. -/
structure Faithful (account : Int) (s : Life) : Prop where
  signs : s.signer.accountIndex = account
  asks : s.accountIndex = account
  named : ∀ r ∈ s.requests, Names account (toInt32 account) r
  tuned : ∀ session, s.session = some session → Tuned (toInt32 account) session

variable {s s' : Life}

/-- A step that leaves the signer, the requests and the session alone. -/
theorem Faithful.aside (h : Faithful account s) (signer : s'.signer = s.signer)
    (accountIndex : s'.accountIndex = s.accountIndex) (requests : s'.requests = s.requests)
    (session : s'.session = s.session) : Faithful account s' := by
  refine ⟨?_, ?_, ?_, ?_⟩
  · rw [signer]
    exact h.signs
  · rw [accountIndex]
    exact h.asks
  · rw [requests]
    exact h.named
  · rw [session]
    exact h.tuned

theorem Faithful.ask (h : Faithful account s) {r : Request}
    (names : Names account (toInt32 account) r) : Faithful account (s.ask r) := by
  refine ⟨h.signs, h.asks, fun r' member => ?_, h.tuned⟩
  rcases List.mem_cons.mp member with rfl | before
  · exact names
  · exact h.named r' before

theorem Faithful.refresh (h : Faithful account s) (now : Int) (minted : StrOrErr) :
    Faithful account (s.refreshAuthTokenIfNeeded now minted) := by
  unfold Life.refreshAuthTokenIfNeeded
  split
  · exact h
  · have minting : Faithful account
        (s.ask (.native (s.signer.createAuthTokenCall (now + tokenLifetime)))) := h.ask h.signs
    dsimp only
    split
    · exact minting
    · exact minting.aside rfl rfl rfl rfl

theorem Faithful.load (h : Faithful account s) (now : Int) (minted : StrOrErr)
    (reply : Except String Gateway.Instruments) :
    Faithful account (s.loadInstruments now minted reply) := by
  have refreshed := h.refresh now minted
  cases reply with
  | error what => exact refreshed
  | ok instruments => exact refreshed.aside rfl rfl rfl rfl

/-- The nonce of the cast account is asked for. -/
theorem Faithful.askNextNonce (h : Faithful account s) : Faithful account s.askNextNonce := by
  apply h.ask
  rw [← h.asks]
  rfl

theorem Faithful.seed (h : Faithful account s) (reply : Except String Int) :
    Faithful account (s.seedNonce reply) := by
  have asked := h.askNextNonce
  cases reply with
  | error what => exact asked.aside rfl rfl rfl rfl
  | ok nonce => exact asked.aside rfl rfl rfl rfl

theorem Faithful.askOrders (h : Faithful account s) (a : GatewayRun.Action) :
    Faithful account (s.askOrders a) := by
  cases a with
  | sign t answer =>
    unfold Life.askOrders
    dsimp only
    split
    · exact h.ask ((LighterSigner.signCall_accountIndex _ _).trans h.signs)
    · exact h
  | resync t reply => exact h.askNextNonce
  | _ => exact h

theorem Faithful.ordersStep {cfg : GatewayRun.Config} {a : GatewayRun.Action} {now : Int}
    {minted : StrOrErr} (h : Faithful account s) (taken : s.ordersStep cfg a now minted = some s') :
    Faithful account s' := by
  obtain ⟨orders, _, rfl⟩ := Option.map_eq_some_iff.mp taken
  split
  · exact (h.refresh now minted).aside rfl rfl rfl rfl
  · exact (h.askOrders _).aside rfl rfl rfl rfl

theorem Faithful.ensured (h : Faithful account s) : Tuned (toInt32 account) s.ensureSession := by
  unfold Life.ensureSession
  cases opened : s.session with
  | none => exact tuned_start _
  | some session => exact h.tuned session opened

/-- A call of the session subscribes the account's channel, or no channel of the feed. -/
theorem Faithful.sessionCall (h : Faithful account s) {a : WsSession.Action}
    (own : ∀ c, a = .subscribe c → Owns (toInt32 account) c)
    (taken : s.sessionCall a = some s') : Faithful account s' := by
  obtain ⟨session, stepped, rfl⟩ := Option.map_eq_some_iff.mp taken
  refine ⟨h.signs, h.asks, h.named, fun session' opened => ?_⟩
  cases opened
  exact h.ensured.step own stepped

theorem Faithful.sessionStep (h : Faithful account s) {a : WsSession.Action} {now : Int}
    {minted : String → StrOrErr} (no_call : ∀ c, a ≠ .subscribe c)
    (taken : s.sessionStep a now minted = some s') : Faithful account s' := by
  unfold Life.sessionStep at taken
  split at taken
  · cases taken
  · rename_i session opened
    obtain ⟨session', stepped, rfl⟩ := Option.map_eq_some_iff.mp taken
    have tuned : Tuned (toInt32 account) session' := by
      apply (h.tuned session opened).step _ stepped
      intro c calls
      cases a with
      | subscribe channel => exact absurd rfl (no_call channel)
      | _ => cases calls
    refine ⟨h.signs, h.asks, fun r member => ?_, fun after held => ?_⟩
    · rcases List.mem_append.mp member with new | before
      · obtain ⟨e, noted, asked⟩ := List.mem_flatMap.mp new
        have happened := List.mem_of_mem_take noted
        unfold Life.asked at asked
        split at asked
        · rename_i channel auth
          rcases List.mem_cons.mp asked with rfl | minting
          · exact tuned.built channel auth happened
          · split at minting
            · rw [List.mem_singleton.mp minting]
              exact h.signs
            · cases minting
        · cases asked
      · exact h.named r before
    · cases held
      exact tuned

theorem Faithful.step {cfg : GatewayRun.Config} {a : Action} (h : Faithful account s)
    (taken : step cfg s a = some s') : Faithful account s' := by
  cases a with
  | refreshInstruments now minted reply =>
    obtain rfl := Option.some.inj taken
    exact h.load now minted reply
  | start now minted reply =>
    obtain ⟨_, taken⟩ := Option.ite_none_right_eq_some.mp taken
    obtain rfl := Option.some.inj taken
    exact (h.load now minted reply).aside rfl rfl rfl rfl
  | seedNonce reply =>
    obtain ⟨_, taken⟩ := Option.ite_none_right_eq_some.mp taken
    obtain rfl := Option.some.inj taken
    exact h.seed reply
  | checkClient =>
    obtain ⟨_, taken⟩ := Option.ite_none_right_eq_some.mp taken
    obtain rfl := Option.some.inj taken
    have checking : Faithful account (s.ask (.native s.signer.checkClientCall)) := h.ask h.signs
    exact checking.aside rfl rfl rfl rfl
  | subscribeAccountOrders =>
    obtain ⟨_, taken⟩ := Option.ite_none_right_eq_some.mp taken
    have wired : Faithful account { s with startup := .subscribed, authTokenProvider := true } :=
      h.aside rfl rfl rfl rfl
    refine wired.sessionCall (fun c calls _ => ?_) taken
    rw [← WsSession.Action.subscribe.inj calls, h.asks]
  | startReturns =>
    obtain ⟨_, taken⟩ := Option.ite_none_right_eq_some.mp taken
    obtain rfl := Option.some.inj taken
    exact h.aside rfl rfl rfl rfl
  | subscribeOrderBook marketId =>
    refine h.sessionCall (fun c calls => ?_) taken
    rw [← WsSession.Action.subscribe.inj calls]
    exact owns_channelOf _ marketId
  | unsubscribeOrderBook marketId =>
    simp only [GatewayLife.step] at taken
    split at taken
    · exact h.sessionCall (by simp) taken
    · obtain rfl := Option.some.inj taken
      exact h
  | orders a now minted =>
    have stepped : s.ordersStep cfg a now minted = some s' := by
      cases a with
      | reload instruments => cases taken
      | _ => exact taken
    exact h.ordersStep stepped
  | session a now minted =>
    have stepped : (∀ c, a ≠ .subscribe c) ∧ s.sessionStep a now minted = some s' := by
      cases a with
      | subscribe channel => cases taken
      | unsubscribe channel => cases taken
      | _ => exact ⟨by simp, taken⟩
    exact h.sessionStep stepped.1 stepped.2

/-! ## Every run -/

variable {lib : NativeLib} {cfg : GatewayRun.Config} {nowMs now : Int} {url apiPrivateKey : String}
  {apiKeyIndex accountIndex : Int} {life : Life}

/-- The constructor itself asks in the name of the account it was given. -/
theorem faithful_construct
    (accepted : construct lib nowMs now url apiPrivateKey apiKeyIndex accountIndex = .ok life) :
    Faithful accountIndex life ∧ life.startup = .idle := by
  unfold construct at accepted
  split at accepted
  · cases accepted
  · rename_i signer created
    obtain rfl := LighterSigner.create_eq_ok created
    dsimp only at accepted
    split at accepted
    · cases accepted
    · split at accepted
      · cases accepted
      · obtain rfl := Except.ok.inj accepted
        refine ⟨⟨rfl, rfl, fun r member => ?_, by simp⟩, rfl⟩
        simp only [List.mem_cons, List.not_mem_nil, or_false] at member
        rcases member with rfl | rfl
        · rfl
        · rfl

theorem faithful_of_run
    (accepted : construct lib nowMs now url apiPrivateKey apiKeyIndex accountIndex = .ok life)
    {actions : List Action} (reached : run (step cfg) life actions = some s) :
    Faithful accountIndex s :=
  run_invariant (fun _ _ _ h taken => h.step taken) (faithful_construct accepted).1 reached

/-- A gateway that starts asks for the nonce of the cast account. -/
theorem exists_nonce_asked (cfg : GatewayRun.Config) (idle : life.startup = .idle) : ∃ actions s,
    run (step cfg) life actions = some s ∧
      .nextNonce (nextNonceQuery (toInt32 life.accountIndex) life.apiKeyIndex) ∈ s.requests := by
  have kept := life.loadInstruments_keeps 0 ⟨"", ""⟩ (.ok noInstruments)
  have loading : step cfg life (.start 0 ⟨"", ""⟩ (.ok noInstruments)) =
      some { life.loadInstruments 0 ⟨"", ""⟩ (.ok noInstruments) with startup := .loaded } :=
    if_pos idle
  refine ⟨[.start 0 ⟨"", ""⟩ (.ok noInstruments), .seedNonce (.error "")], _,
    run_cons_eq_some.mpr ⟨_, loading, rfl⟩, ?_⟩
  rw [← kept.1, ← kept.2]
  exact List.mem_cons_self

/-- For every account the constructor accepts, all requests of all runs name it exactly if
it is a 32-bit integer. -/
theorem one_account_iff
    (accepted : construct lib nowMs now url apiPrivateKey apiKeyIndex accountIndex = .ok life) :
    NamesOne cfg life accountIndex ↔ -(2 ^ 31) ≤ accountIndex ∧ accountIndex < 2 ^ 31 := by
  rw [← toInt32_eq_iff]
  obtain ⟨faithful, idle⟩ := faithful_construct accepted
  constructor
  · intro names_one
    obtain ⟨actions, s, reached, asked⟩ := exists_nonce_asked cfg idle
    have named := names_one actions s reached _ asked
    rw [faithful.asks] at named
    have same : Json.int (toInt32 accountIndex) = .int accountIndex := Option.some.inj named
    exact Json.int.inj same
  · intro same actions s reached r member
    have named := (faithful_of_run accepted reached).named r member
    rwa [same] at named

/-! ## Samples -/

/-- A library that accepts every key. -/
def sampleLib : NativeLib where
  createClient _ _ _ _ _ := ""
  createAuthToken _ _ _ := ⟨"token", ""⟩

theorem one_account_iff_sample : ∃ life,
    construct sampleLib 1 0 "https://mainnet.zklighter.elliot.ai" "0xab" 3 77 = .ok life ∧
      (NamesOne sampleConfig life 77 ↔ -(2 ^ 31) ≤ (77 : Int) ∧ (77 : Int) < 2 ^ 31) := by
  have accepted : ∃ life, construct sampleLib 1 0 "https://mainnet.zklighter.elliot.ai" "0xab" 3
      77 = .ok life := ⟨_, rfl⟩
  obtain ⟨life, accepted⟩ := accepted
  exact ⟨life, accepted, one_account_iff accepted⟩

/-- The nonce of account 0 is asked for in the name of the sub-account 2 ^ 48. -/
theorem sub_account_misnamed : ¬∀ (lib : NativeLib) (cfg : GatewayRun.Config) (nowMs now : Int)
    (url apiPrivateKey : String) (apiKeyIndex accountIndex : Int) (life : Life),
    -(2 ^ 63) ≤ accountIndex → accountIndex < 2 ^ 63 →
      construct lib nowMs now url apiPrivateKey apiKeyIndex accountIndex = .ok life →
      NamesOne cfg life accountIndex := by
  intro always
  have accepted : ∃ life, construct sampleLib 1 0 "https://mainnet.zklighter.elliot.ai" "0xab" 3
      281474976710656 = .ok life := ⟨_, rfl⟩
  obtain ⟨life, accepted⟩ := accepted
  obtain ⟨faithful, idle⟩ := faithful_construct accepted
  obtain ⟨actions, s, reached, asked⟩ := exists_nonce_asked sampleConfig idle
  have named := always _ _ _ _ _ _ _ _ _ (by decide) (by decide) accepted actions s reached _ asked
  rw [faithful.asks] at named
  have same : Json.int (toInt32 281474976710656) = .int 281474976710656 := Option.some.inj named
  exact absurd (Json.int.inj same) (by decide)

end LighterApi.Guarantees.OneAccount

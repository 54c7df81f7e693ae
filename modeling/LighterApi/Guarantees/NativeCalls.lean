import LighterApi.Guarantees.MarketBound
import LighterApi.Guarantees.OneAccount
import LighterApi.Guarantees.VenueIndex
import LighterApi.Guarantees.WireRecords

/-!
# What crosses the C ABI of the signer

The native library trusts its arguments: a nonce of -1 makes it fetch one of its own, and an
amount or a price of 0 is signed like any other. What a job carries was checked in the first
step of its call, and the nonce comes from `getNextNonce` or from counting it up, so every
transaction a gateway has signed in its life is in the domain of the library, as long as the
replies leave the 64 bits of the nonce room for the sends to come (`native_calls_in_domain`).
The counter hands out an index once, and its seed is the clock:
no two orders are signed under one index, not even by the processes before and after a
restart (`orders_signed_once`).
-/
namespace LighterApi.Guarantees.NativeCalls
open LighterApi.Library.Transition
open LighterApi.Source LighterApi.Source.SendTx LighterApi.Source.Gateway LighterApi.Source.Signer
open LighterApi.Source.GatewayLife
open LighterApi.Guarantees.CallOrigins
open LighterApi.Guarantees.SignedAmounts (scaleLimit_ok_iff scaleMarket_ok)
open LighterApi.Guarantees.MarketBound (scaleMarket_price clamp_bounds)
open LighterApi.Guarantees.VenueIndex (cancelTarget_spec)
open GatewayRun (Job Stage State Config step_spec noteReject_nonces noteReject_counter
  noteReject_threads State.goto_threads)

/-! ## The transactions a gateway has signed -/

def isTransaction : NativeCall → Bool
  | .signCreateOrder .. | .signCancelOrder .. => true
  | _ => false

def transaction : Request → Option NativeCall
  | .native call => if isTransaction call then some call else none
  | _ => none

/-- Latest first. -/
def transactions (requests : List Request) : List NativeCall := requests.filterMap transaction

def clientOrderIndexOf : NativeCall → Option Int
  | .signCreateOrder _ clientOrderIndex _ _ _ _ _ _ _ _ _ _ _ _ _ _ _ => some clientOrderIndex
  | _ => none

/-- The indices orders were signed under. -/
def signedIndices (requests : List Request) : List Int :=
  (transactions requests).filterMap clientOrderIndexOf

/-- A post-only limit order, or a market order that can only reduce. -/
def OrderForm (orderType timeInForce reduceOnly orderExpiry : Int) : Prop :=
  (orderType = 0 ∧ timeInForce = 2 ∧ (reduceOnly = 0 ∨ reduceOnly = 1) ∧ orderExpiry = -1) ∨
    (orderType = 1 ∧ timeInForce = 0 ∧ reduceOnly = 1 ∧ orderExpiry = 0)

/-- The price is a C `int` whose bits are a positive unsigned number. -/
def InDomain (seed : Int) : NativeCall → Prop
  | .signCreateOrder _ clientOrderIndex baseAmount price _ orderType timeInForce reduceOnly
      triggerPrice orderExpiry _ _ _ _ nonce _ _ =>
    seed ≤ clientOrderIndex ∧ 1 ≤ baseAmount ∧
      (-(2 ^ 31) ≤ price ∧ price < 2 ^ 31 ∧ 1 ≤ price % 2 ^ 32) ∧
      OrderForm orderType timeInForce reduceOnly orderExpiry ∧ triggerPrice = 0 ∧
      0 ≤ nonce ∧ nonce < 2 ^ 63
  | .signCancelOrder _ orderIndex _ nonce _ _ => 0 ≤ orderIndex ∧ 0 ≤ nonce ∧ nonce < 2 ^ 63
  | _ => True

/-- The reply is what `getNextNonce` makes of some answer, and counting it up so many times
stays within 64 bits. -/
def Replies (lib : Rest.RestExternals) (sends : Nat) (reply : Except String Int) : Prop :=
  (∃ answer, reply = Rest.readNextNonce lib answer) ∧ ∀ n, reply = .ok n → n + sends < 2 ^ 63

/-- Every reply about the nonce is such a reply. -/
def ReadsNonce (lib : Rest.RestExternals) (sends : Nat) : Action → Prop
  | .seedNonce reply => Replies lib sends reply
  | .orders (.resync _ reply) _ _ => Replies lib sends reply
  | _ => True

def isSend : Action → Bool
  | .orders (.send ..) _ _ => true
  | _ => false

def isSubmit : Action → Bool
  | .orders (.submitPostOnlyLimit ..) _ _ | .orders (.submitReduceOnlyMarket ..) _ _ => true
  | _ => false

/-! ## Jobs -/

/-- What the first step of a call has checked. -/
def Checked (seed : Int) : Job → Prop
  | .submit sub i =>
    seed ≤ i ∧ 1 ≤ sub.scaled.baseAmount ∧ 1 ≤ sub.scaled.price ∧ sub.scaled.price ≤ uint32Max
  | .cancel _ _ orderIndex => 0 ≤ orderIndex

theorem scaleMarket_clamped {lib : Externals} {inst : Instruments} {quotes : QuoteCache}
    {symbol : String} {side : OrderSide} {qty : Rat} {scaled : Scaled}
    (accepted : scaleMarket lib inst quotes symbol side qty = .ok scaled) :
    1 ≤ scaled.price ∧ scaled.price ≤ uint32Max := by
  obtain ⟨-, quoted, -, -⟩ := scaleMarket_ok accepted
  obtain ⟨quote, filtered⟩ := Option.ne_none_iff_exists'.mp quoted
  obtain ⟨cached, sane⟩ := Option.filter_eq_some_iff.mp filtered
  rw [scaleMarket_price accepted cached sane]
  exact clamp_bounds _

theorem checked_of_begins {cfg : Config} {s : State} {a : GatewayRun.Action} {t : Nat} {job : Job}
    {seed : Int} (counter : seed ≤ s.clientOrderCounter) (begins : Begins cfg s t a job) :
    Checked seed job := by
  cases begins with
  | limit scales =>
    obtain ⟨-, whole, positive, small, amount, price⟩ := scaleLimit_ok_iff.mp scales
    simp only [Checked]
    omega
  | market scales =>
    obtain ⟨-, -, whole, amount⟩ := scaleMarket_ok scales
    have clamped := scaleMarket_clamped scales
    simp only [Checked]
    omega
  | cancel target =>
    obtain ⟨i, rec, -, -, bound, -, rfl⟩ := cancelTarget_spec target
    exact bound

theorem asSignedBits_int32 (v : Int) : -(2 ^ 31) ≤ asSignedBits v ∧ asSignedBits v < 2 ^ 31 := by
  have low : -(((2 ^ 32 : Nat) : Int) / 2) ≤ v.bmod (2 ^ 32) := Int.le_bmod (by norm_num)
  have high : v.bmod (2 ^ 32) < (((2 ^ 32 : Nat) : Int) + 1) / 2 := Int.bmod_lt (by norm_num)
  unfold asSignedBits toInt32
  norm_num at low high ⊢
  omega

/-- A checked job is signed with arguments of the domain. -/
theorem inDomain_of_checked (signer : LighterSigner) {seed nonce : Int} {job : Job}
    (checked : Checked seed job) (domain : 0 ≤ nonce ∧ nonce < 2 ^ 63) :
    InDomain seed (signer.signCall (job.signRequest nonce)) := by
  cases job with
  | cancel id m o => exact ⟨checked, domain⟩
  | submit sub i =>
    obtain ⟨seeded, amount, positive, small⟩ := checked
    have bits := asSignedBits_emod (by omega) small
    have fits := asSignedBits_int32 sub.scaled.price
    have price : -(2 ^ 31) ≤ asSignedBits sub.scaled.price ∧ asSignedBits sub.scaled.price < 2 ^ 31 ∧
        1 ≤ asSignedBits sub.scaled.price % 2 ^ 32 := ⟨fits.1, fits.2, by omega⟩
    change InDomain seed (signer.signCall (sub.signRequest i nonce))
    cases kind : sub.kind with
    | submitPostOnlyLimit =>
      have form : OrderForm 0 2 (if sub.reduceOnly = true then 1 else 0) (-1) := by
        refine Or.inl ⟨rfl, rfl, ?_, rfl⟩
        cases sub.reduceOnly <;> simp
      simp only [Submission.signRequest, kind, LighterSigner.signCall, InDomain]
      exact ⟨seeded, amount, price, form, by decide, domain⟩
    | submitReduceOnlyMarket =>
      simp only [Submission.signRequest, kind, LighterSigner.signCall, InDomain]
      exact ⟨seeded, amount, price, .inr ⟨rfl, rfl, rfl, rfl⟩, by decide, domain⟩

/-! ## The order side -/

theorem readNextNonce_nonneg {lib : Rest.RestExternals} {answer : Answer} {nonce : Int}
    (read : Rest.readNextNonce lib answer = .ok nonce) : 0 ≤ nonce := by
  unfold Rest.readNextNonce at read
  cases opened : Rest.envelope lib answer with
  | error what => simp [opened, bind, Except.bind] at read
  | ok json =>
    cases found : lib.readInt64 json "nonce" (-1) with
    | error what => simp [opened, found, bind, Except.bind] at read
    | ok n =>
      by_cases negative : n < 0
      · simp [opened, found, negative, bind, Except.bind] at read
      · simp [opened, found, negative, bind, Except.bind, pure, Except.pure] at read
        omega

section Orders

variable {cfg : Config} {s s' : State} {a : GatewayRun.Action} {t : Nat} {i seed : Int}

/-- A step leaves the nonce, counts it up or takes it from a reply. -/
theorem nonce_step (taken : GatewayRun.step cfg s a = some s') :
    s'.nonces.nextNonce = s.nonces.nextNonce ∨
      (s'.nonces.nextNonce = s.nonces.nextNonce + 1 ∧
        ∀ now minted, isSend (.orders a now minted) = true) ∨
      ∃ t, a = .resync t (.ok s'.nonces.nextNonce) := by
  cases step_spec taken with
  | sent at_stage accepted => exact Or.inr (Or.inl ⟨rfl, fun _ _ => rfl⟩)
  | sendFailed failure at_stage failed => exact Or.inl (by simp)
  | resynced reply at_stage =>
    cases reply with
    | error what => exact Or.inl rfl
    | ok nonce => exact Or.inr (Or.inr ⟨_, rfl⟩)
  | _ => exact Or.inl rfl

/-- Only a submit takes an index from the counter. -/
theorem counter_step (taken : GatewayRun.step cfg s a = some s') :
    s'.clientOrderCounter = s.clientOrderCounter ∨
      s'.clientOrderCounter = s.clientOrderCounter + 1 ∧
        ∀ now minted, isSubmit (.orders a now minted) = true := by
  cases step_spec taken with
  | allocated sub idle calls whole =>
    rename_i t
    have busy : jobOf (((s.goto t (.allocated sub s.clientOrderCounter)).threads) t) =
        some (.submit sub s.clientOrderCounter) := by
      rw [State.goto_threads, if_pos rfl]
      rfl
    refine Or.inr ⟨rfl, fun now minted => ?_⟩
    cases begins_of_idle idle calls taken busy with
    | limit scales => rfl
    | market scales => rfl
  | sendFailed failure at_stage failed => exact Or.inl (by simp)
  | _ => exact Or.inl rfl

/-- The index of a submit that has not been signed yet. -/
def ahead : Stage → Option Int
  | .allocated _ i | .waiting (.submit _ i) | .locked (.submit _ i) => some i
  | _ => none

theorem ahead_afterResync (job : Job) (failure : Failure) :
    ahead (GatewayRun.afterResync job failure) = none := by
  cases job with
  | submit sub i =>
    unfold GatewayRun.afterResync
    dsimp only
    split <;> rfl
  | cancel id m o => rfl

/-- A thread that has an order to sign had it before, or takes the next index now. -/
theorem ahead_step (taken : GatewayRun.step cfg s a = some s')
    (after : ahead (s'.threads t) = some i) :
    (ahead (s.threads t) = some i ∧ ∀ answer, a ≠ .sign t answer) ∨
      i = s.clientOrderCounter ∧ s'.clientOrderCounter = s.clientOrderCounter + 1 ∧
        a.thread = some t := by
  by_cases calls : a.thread = some t
  · -- Wherever the thread goes behind its signing it has nothing to sign.
    have past : ∀ (m : State) {stage : Stage}, ahead stage = none →
        ahead ((m.goto t stage).threads t) = some i → False := by
      intro m stage none_left after
      rw [State.goto_threads, if_pos rfl, none_left] at after
      cases after
    cases step_spec taken with
    | allocated sub idle calls' whole =>
      obtain rfl := Option.some.inj (calls'.symm.trans calls)
      change ahead ((s.goto _ _).threads _) = some i at after
      rw [State.goto_threads, if_pos rfl] at after
      exact Or.inr ⟨(Option.some.inj after).symm, rfl, calls⟩
    | inserted at_stage =>
      obtain rfl := Option.some.inj calls
      change ahead ((State.goto _ _ _).threads _) = some i at after
      rw [State.goto_threads, if_pos rfl] at after
      exact Or.inl ⟨by rw [at_stage]; exact after, by simp⟩
    | lockedTx at_stage free =>
      obtain rfl := Option.some.inj calls
      rename_i job
      change ahead ((s.goto _ _).threads _) = some i at after
      rw [State.goto_threads, if_pos rfl] at after
      refine Or.inl ⟨?_, by simp⟩
      rw [at_stage]
      cases job with
      | submit sub j => exact after
      | cancel id m o => cases after
    | refused id failure idle calls' =>
      obtain rfl := Option.some.inj (calls'.symm.trans calls)
      rw [GatewayRun.State.log_threads, idle] at after
      cases after
    | cancelReturned result idle =>
      obtain rfl := Option.some.inj calls
      rw [GatewayRun.State.log_threads, idle] at after
      cases after
    | cancelWaits marketId orderIndex idle | signed at_stage | signFailedSubmit what at_stage
    | signFailedCancel what at_stage | sent at_stage | sendFailed failure at_stage
    | erased at_stage | finished at_stage =>
      obtain rfl := Option.some.inj calls
      exact (past _ rfl after).elim
    | resynced reply at_stage =>
      obtain rfl := Option.some.inj calls
      exact (past _ (ahead_afterResync _ _) after).elim
    | _ => exact absurd calls (by simp [GatewayRun.Action.thread])
  · rw [GatewayRun.step_threads_of_ne taken calls] at after
    refine Or.inl ⟨after, ?_⟩
    rintro answer rfl
    exact calls rfl

/-- Every job was checked when its call began. -/
structure Sound (seed : Int) (s : State) : Prop where
  counter : seed ≤ s.clientOrderCounter
  jobs : ∀ t job, jobOf (s.threads t) = some job → Checked seed job

theorem Sound.step (h : Sound seed s) (taken : GatewayRun.step cfg s a = some s') : Sound seed s' := by
  refine ⟨?_, fun t job busy => ?_⟩
  · have before := h.counter
    rcases counter_step taken with same | ⟨counted, -⟩
    · omega
    · omega
  · rcases job_step taken busy with before | begins
    · exact h.jobs t job before
    · exact checked_of_begins h.counter begins

/-- No index has been signed twice, and none ahead of its signing has been signed. -/
structure Once (s : State) (signed : List Int) : Prop where
  nodup : signed.Nodup
  signed_below : ∀ i ∈ signed, i < s.clientOrderCounter
  ahead_below : ∀ t i, ahead (s.threads t) = some i → i < s.clientOrderCounter
  ahead_new : ∀ t i, ahead (s.threads t) = some i → i ∉ signed
  apart : ∀ t t' i, ahead (s.threads t) = some i → ahead (s.threads t') = some i → t = t'

variable {signed : List Int}

theorem Once.step (h : Once s signed) (taken : GatewayRun.step cfg s a = some s') :
    Once s' signed := by
  have rises : s.clientOrderCounter ≤ s'.clientOrderCounter := by
    rcases counter_step taken with same | ⟨counted, -⟩ <;> omega
  refine ⟨h.nodup, fun i member => (h.signed_below i member).trans_le rises, ?_, ?_, ?_⟩
  · intro t i after
    rcases ahead_step taken after with ⟨before, -⟩ | ⟨rfl, counted, -⟩
    · exact (h.ahead_below t i before).trans_le rises
    · omega
  · intro t i after member
    rcases ahead_step taken after with ⟨before, -⟩ | ⟨rfl, -, -⟩
    · exact h.ahead_new t i before member
    · exact absurd (h.signed_below _ member) (lt_irrefl _)
  · intro t t' i after after'
    rcases ahead_step taken after with ⟨before, -⟩ | ⟨rfl, -, calls⟩
    · rcases ahead_step taken after' with ⟨before', -⟩ | ⟨rfl, -, -⟩
      · exact h.apart t t' i before before'
      · exact absurd (h.ahead_below t _ before) (lt_irrefl _)
    · rcases ahead_step taken after' with ⟨before', -⟩ | ⟨-, -, calls'⟩
      · exact absurd (h.ahead_below t' _ before') (lt_irrefl _)
      · exact Option.some.inj (calls.symm.trans calls')

/-- The step in which an order is signed. -/
theorem Once.sign (h : Once s signed) {answer : Except String Unit} {sub : Submission}
    (at_stage : s.threads t = .locked (.submit sub i))
    (taken : GatewayRun.step cfg s (.sign t answer) = some s') : Once s' (i :: signed) := by
  have kept := h.step taken
  have mine : ahead (s.threads t) = some i := by rw [at_stage]; rfl
  have rises : s.clientOrderCounter ≤ s'.clientOrderCounter := by
    rcases counter_step taken with same | ⟨counted, -⟩ <;> omega
  refine ⟨List.nodup_cons.mpr ⟨h.ahead_new t i mine, h.nodup⟩, ?_, kept.ahead_below, ?_, kept.apart⟩
  · intro j member
    rcases List.mem_cons.mp member with rfl | old
    · exact (h.ahead_below t j mine).trans_le rises
    · exact kept.signed_below j old
  · intro t' j after member
    rcases List.mem_cons.mp member with rfl | old
    · rcases ahead_step taken after with ⟨before, other⟩ | ⟨rfl, -, -⟩
      · obtain rfl := h.apart t' t j before mine
        exact other answer rfl
      · exact absurd (h.ahead_below t _ mine) (lt_irrefl _)
    · exact kept.ahead_new t' j after old

end Orders

/-! ## The life of a gateway -/

section Lives

variable {cfg : Config} {s s' life : Life} {a : Action} {seed : Int}

/-- The transactions that a step has signed. -/
inductive Signs (s : Life) : Action → List NativeCall → Prop where
  | nothing {a : Action} : Signs s a []
  | job {t : Nat} {job : Job} {answer : Except String Unit} {now : Int} {minted : StrOrErr}
      (at_stage : s.orders.threads t = .locked job) :
      Signs s (.orders (.sign t answer) now minted)
        [s.signer.signCall (job.signRequest s.orders.nonces.nextNonce)]

@[simp] theorem transactions_cons_nextNonce (query : Json) (requests : List Request) :
    transactions (.nextNonce query :: requests) = transactions requests := rfl

@[simp] theorem transactions_refresh (s : Life) (now : Int) (minted : StrOrErr) :
    transactions (s.refreshAuthTokenIfNeeded now minted).requests = transactions s.requests := by
  unfold Life.refreshAuthTokenIfNeeded
  split
  · rfl
  · dsimp only
    split <;> rfl

@[simp] theorem transactions_load (s : Life) (now : Int) (minted : StrOrErr)
    (reply : Except String Instruments) :
    transactions (s.loadInstruments now minted reply).requests = transactions s.requests := by
  cases reply with
  | error what => exact transactions_refresh s now minted
  | ok instruments => exact transactions_refresh s now minted

theorem transactions_asked (s : Life) (now : Int) (noted : List WsSession.Event) :
    transactions (noted.flatMap (s.asked now)) = [] := by
  refine List.filterMap_eq_nil_iff.mpr fun r member => ?_
  obtain ⟨e, -, asked⟩ := List.mem_flatMap.mp member
  unfold Life.asked at asked
  split at asked
  · rcases List.mem_cons.mp asked with rfl | minting
    · rfl
    · split at minting
      · rw [List.mem_singleton.mp minting]
        rfl
      · cases minting
  · cases asked

theorem signs_askOrders (s : Life) (b : GatewayRun.Action) (now : Int) (minted : StrOrErr) :
    ∃ new, Signs s (.orders b now minted) new ∧
      transactions (s.askOrders b).requests = new ++ transactions s.requests := by
  cases b with
  | sign t answer =>
    unfold Life.askOrders
    dsimp only
    split
    · rename_i job at_stage
      refine ⟨_, .job at_stage, ?_⟩
      cases job with
      | submit sub i =>
        change transactions (.native (s.signer.signCall (sub.signRequest i _)) :: s.requests) = _
        unfold Submission.signRequest
        cases kind : sub.kind <;> simp [GatewayRun.Job.signRequest, Submission.signRequest, kind, transactions,
          transaction, LighterSigner.signCall, isTransaction]
      | cancel id m o => rfl
    · exact ⟨[], .nothing, rfl⟩
  | _ => exact ⟨[], .nothing, rfl⟩

def orderAction : Action → Option GatewayRun.Action
  | .orders b _ _ => some b
  | _ => none

/-- What a step of the gateway is to the order side. -/
inductive OrdersMove (cfg : Config) (s : Life) : Action → State → Prop where
  | loads {a : Action} (aside : orderAction a = none) (instruments : Instruments) :
      OrdersMove cfg s a { s.orders with instruments }
  | seeds (nonce : Int) : OrdersMove cfg s (.seedNonce (.ok nonce))
      { s.orders with nonces := { s.orders.nonces with nextNonce := nonce } }
  | steps {b : GatewayRun.Action} {now : Int} {minted : StrOrErr} {orders : State}
      (taken : GatewayRun.step cfg s.orders b = some orders) :
      OrdersMove cfg s (.orders b now minted) orders

theorem OrdersMove.stays (aside : orderAction a = none) : OrdersMove cfg s a s.orders :=
  .loads aside s.orders.instruments

@[simp] theorem orders_refresh (s : Life) (now : Int) (minted : StrOrErr) :
    (s.refreshAuthTokenIfNeeded now minted).orders = s.orders := by
  unfold Life.refreshAuthTokenIfNeeded
  split
  · rfl
  · dsimp only
    split <;> rfl

theorem OrdersMove.load (aside : orderAction a = none) (now : Int) (minted : StrOrErr)
    (reply : Except String Instruments) :
    OrdersMove cfg s a (s.loadInstruments now minted reply).orders := by
  cases reply with
  | error what =>
    rw [Life.loadInstruments, orders_refresh]
    exact .stays aside
  | ok instruments =>
    rw [Life.loadInstruments, orders_refresh]
    exact .loads aside instruments

/-- What a step signs, and what it is to the order side. -/
theorem step_effects (taken : step cfg s a = some s') : ∃ new, Signs s a new ∧
    transactions s'.requests = new ++ transactions s.requests ∧ OrdersMove cfg s a s'.orders := by
  have quiet : transactions s'.requests = transactions s.requests → OrdersMove cfg s a s'.orders →
      ∃ new, Signs s a new ∧ transactions s'.requests = new ++ transactions s.requests ∧
        OrdersMove cfg s a s'.orders := fun same moves => ⟨[], .nothing, same, moves⟩
  have called : ∀ {m : Life} {b : WsSession.Action}, m.sessionCall b = some s' →
      orderAction a = none → m.requests = s.requests → m.orders = s.orders →
      ∃ new, Signs s a new ∧ transactions s'.requests = new ++ transactions s.requests ∧
        OrdersMove cfg s a s'.orders := by
    intro m b stepped aside same same'
    obtain ⟨session, -, rfl⟩ := Option.map_eq_some_iff.mp stepped
    refine quiet (congrArg transactions same) ?_
    change OrdersMove cfg s a m.orders
    rw [same']
    exact .stays aside
  cases a with
  | refreshInstruments now minted reply =>
    obtain rfl := Option.some.inj taken
    exact quiet (transactions_load s now minted reply) (.load rfl now minted reply)
  | start now minted reply =>
    obtain ⟨-, taken⟩ := Option.ite_none_right_eq_some.mp taken
    obtain rfl := Option.some.inj taken
    exact quiet (transactions_load s now minted reply) (.load rfl now minted reply)
  | seedNonce reply =>
    obtain ⟨-, taken⟩ := Option.ite_none_right_eq_some.mp taken
    obtain rfl := Option.some.inj taken
    cases reply with
    | error what => exact quiet rfl (.stays rfl)
    | ok nonce => exact quiet rfl (.seeds nonce)
  | checkClient | startReturns =>
    obtain ⟨-, taken⟩ := Option.ite_none_right_eq_some.mp taken
    obtain rfl := Option.some.inj taken
    exact quiet rfl (.stays rfl)
  | subscribeAccountOrders =>
    obtain ⟨-, taken⟩ := Option.ite_none_right_eq_some.mp taken
    exact called taken rfl rfl rfl
  | subscribeOrderBook marketId => exact called taken rfl rfl rfl
  | unsubscribeOrderBook marketId =>
    simp only [step] at taken
    split at taken
    · exact called taken rfl rfl rfl
    · obtain rfl := Option.some.inj taken
      exact quiet rfl (.stays rfl)
  | orders b now minted =>
    have stepped : s.ordersStep cfg b now minted = some s' := by
      cases b with
      | reload instruments => cases taken
      | _ => exact taken
    obtain ⟨orders, moved, rfl⟩ := Option.map_eq_some_iff.mp stepped
    split
    · exact ⟨[], .nothing, transactions_refresh s now minted, .steps moved⟩
    · obtain ⟨new, signs, same⟩ := signs_askOrders s b now minted
      exact ⟨new, signs, same, .steps moved⟩
  | session b now minted =>
    have stepped : s.sessionStep b now minted = some s' := by
      cases b with
      | subscribe channel => cases taken
      | unsubscribe channel => cases taken
      | _ => exact taken
    unfold Life.sessionStep at stepped
    split at stepped
    · cases stepped
    · obtain ⟨session, -, rfl⟩ := Option.map_eq_some_iff.mp stepped
      refine quiet ?_ (.stays rfl)
      simp only [transactions, List.filterMap_append]
      exact congrArg (· ++ _) (transactions_asked s now _)

/-! ### Every transaction is in the domain -/

/-- After so many of all the sends of a life; each of them counts the nonce up at most once. -/
structure InRange (seed : Int) (sends sent : Nat) (s : Life) : Prop where
  sound : Sound seed s.orders
  nonneg : 0 ≤ s.orders.nonces.nextNonce
  room : s.orders.nonces.nextNonce + sends < 2 ^ 63 + sent
  signed : ∀ call ∈ transactions s.requests, InDomain seed call

theorem Sound.move (h : Sound seed s.orders) {orders : State} (moves : OrdersMove cfg s a orders) :
    Sound seed orders := by
  cases moves with
  | loads aside instruments => exact ⟨h.counter, h.jobs⟩
  | seeds nonce => exact ⟨h.counter, h.jobs⟩
  | steps taken => exact h.step taken

theorem nonce_of_replies {lib : Rest.RestExternals} {sends : Nat} {n : Int}
    (replies : Replies lib sends (.ok n)) : 0 ≤ n ∧ n + sends < 2 ^ 63 := by
  obtain ⟨⟨answer, read⟩, room⟩ := replies
  exact ⟨readNextNonce_nonneg read.symm, room n rfl⟩

/-- A step keeps the nonce, counts it up for a send, or takes it from a reply with room. -/
theorem nonce_move {lib : Rest.RestExternals} {sends : Nat} (reads : ReadsNonce lib sends a)
    {orders : State} (moves : OrdersMove cfg s a orders) :
    orders.nonces.nextNonce = s.orders.nonces.nextNonce ∨
      (orders.nonces.nextNonce = s.orders.nonces.nextNonce + 1 ∧ isSend a = true) ∨
      (0 ≤ orders.nonces.nextNonce ∧ orders.nonces.nextNonce + sends < 2 ^ 63) := by
  cases moves with
  | loads aside instruments => exact Or.inl rfl
  | seeds nonce => exact Or.inr (Or.inr (nonce_of_replies reads))
  | steps moved =>
    rcases nonce_step moved with same | ⟨counted, sends⟩ | ⟨t, rfl⟩
    · exact Or.inl same
    · exact Or.inr (Or.inl ⟨counted, sends _ _⟩)
    · exact Or.inr (Or.inr (nonce_of_replies reads))

theorem InRange.step {lib : Rest.RestExternals} {sends sent : Nat} (h : InRange seed sends sent s)
    (within : sent ≤ sends) (reads : ReadsNonce lib sends a) (taken : step cfg s a = some s') :
    InRange seed sends (sent + if isSend a then 1 else 0) s' := by
  obtain ⟨new, signs, transactions_eq, moves⟩ := step_effects taken
  have nonneg := h.nonneg
  have room := h.room
  have domain : 0 ≤ s.orders.nonces.nextNonce ∧ s.orders.nonces.nextNonce < 2 ^ 63 := by
    omega
  refine ⟨h.sound.move moves, ?_, ?_, fun call member => ?_⟩
  · rcases nonce_move reads moves with same | ⟨counted, -⟩ | ⟨read, -⟩ <;> omega
  · rcases nonce_move reads moves with same | ⟨counted, is_send⟩ | ⟨-, read⟩
    · omega
    · rw [if_pos is_send]
      push_cast
      omega
    · omega
  · rw [transactions_eq] at member
    rcases List.mem_append.mp member with now_signed | before
    · cases signs with
      | nothing => cases now_signed
      | job at_stage =>
        rw [List.mem_singleton.mp now_signed]
        have checked := h.sound.jobs _ _ (by rw [at_stage]; rfl)
        exact inDomain_of_checked s.signer checked domain
    · exact h.signed call before

/-! ### No index is signed twice -/

@[simp] theorem clientOrderIndexOf_submit (signer : LighterSigner) (sub : Submission) (i nonce : Int) :
    clientOrderIndexOf (signer.signCall (Job.signRequest (.submit sub i) nonce)) = some i := by
  change clientOrderIndexOf (signer.signCall (sub.signRequest i nonce)) = some i
  unfold Submission.signRequest
  cases sub.kind with
  | submitPostOnlyLimit => rfl
  | submitReduceOnlyMarket => rfl

theorem Once.move {signed : List Int} {new : List NativeCall} {orders : State}
    (h : Once s.orders signed) (signs : Signs s a new) (moves : OrdersMove cfg s a orders) :
    Once orders (new.filterMap clientOrderIndexOf ++ signed) := by
  cases signs with
  | nothing =>
    cases moves with
    | loads aside instruments => exact ⟨h.nodup, h.signed_below, h.ahead_below, h.ahead_new, h.apart⟩
    | seeds nonce => exact ⟨h.nodup, h.signed_below, h.ahead_below, h.ahead_new, h.apart⟩
    | steps taken => exact h.step taken
  | job at_stage =>
    cases moves with
    | loads aside instruments => cases aside
    | steps taken =>
      rename_i t job answer now minted
      cases job with
      | submit sub i =>
        rw [List.filterMap_cons, clientOrderIndexOf_submit]
        exact h.sign at_stage taken
      | cancel id m o => exact h.step taken

/-- The indices signed so far lie between the seed and the counter, which has gone up once
for each submit at most. -/
structure Dispensed (seed : Int) (submits : Nat) (s : Life) : Prop where
  sound : Sound seed s.orders
  once : Once s.orders (signedIndices s.requests)
  counted : s.orders.clientOrderCounter ≤ seed + submits
  above : ∀ i ∈ signedIndices s.requests, seed ≤ i

theorem counter_move {orders : State} (moves : OrdersMove cfg s a orders) :
    orders.clientOrderCounter ≤ s.orders.clientOrderCounter + if isSubmit a then 1 else 0 := by
  cases moves with
  | loads aside instruments => split <;> simp
  | seeds nonce => simp [isSubmit]
  | steps taken =>
    rcases counter_step taken with same | ⟨counted, submits⟩
    · split <;> omega
    · rw [if_pos (submits _ _)]
      exact counted.le

theorem Dispensed.step {submits : Nat} (h : Dispensed seed submits s)
    (taken : step cfg s a = some s') :
    Dispensed seed (submits + if isSubmit a then 1 else 0) s' := by
  obtain ⟨new, signs, transactions_eq, moves⟩ := step_effects taken
  have signed_eq : signedIndices s'.requests =
      new.filterMap clientOrderIndexOf ++ signedIndices s.requests := by
    rw [signedIndices, transactions_eq, List.filterMap_append]
    rfl
  refine ⟨h.sound.move moves, ?_, ?_, fun i member => ?_⟩
  · rw [signed_eq]
    exact h.once.move signs moves
  · have counted := h.counted
    have moved := counter_move moves
    split at moved <;> simp_all <;> omega
  · rw [signed_eq] at member
    rcases List.mem_append.mp member with now_signed | before
    · cases signs with
      | nothing => cases now_signed
      | job at_stage =>
        rename_i t job answer now minted
        have checked := h.sound.jobs t job (by rw [at_stage]; rfl)
        cases job with
        | submit sub j =>
          rw [List.filterMap_cons, clientOrderIndexOf_submit] at now_signed
          rw [List.mem_singleton.mp now_signed]
          exact checked.1
        | cancel id m o => cases now_signed
    · exact h.above i before

section Construct

variable {lib : NativeLib} {nowMs now : Int} {url apiPrivateKey : String}
  {apiKeyIndex accountIndex : Int}

/-- A new gateway has signed nothing, and its counter starts at the clock. -/
theorem construct_fresh
    (accepted : construct lib nowMs now url apiPrivateKey apiKeyIndex accountIndex = .ok life) :
    life.orders = .start noInstruments nowMs 0 ∧ transactions life.requests = [] := by
  unfold construct at accepted
  split at accepted
  · cases accepted
  · dsimp only at accepted
    split at accepted
    · cases accepted
    · split at accepted
      · cases accepted
      · obtain rfl := Except.ok.inj accepted
        exact ⟨rfl, rfl⟩

theorem sound_start (instruments : Instruments) (counter nonce : Int) :
    Sound counter (State.start instruments counter nonce) :=
  ⟨le_rfl, fun _ _ busy => by cases busy⟩

theorem once_start (instruments : Instruments) (counter nonce : Int) :
    Once (State.start instruments counter nonce) [] :=
  ⟨List.nodup_nil, nofun, nofun, nofun, nofun⟩

theorem dispensed_of_run {actions : List Action}
    (accepted : construct lib nowMs now url apiPrivateKey apiKeyIndex accountIndex = .ok life)
    (reached : run (step cfg) life actions = some s) :
    Dispensed nowMs (actions.countP isSubmit) s := by
  obtain ⟨fresh, unsigned⟩ := construct_fresh accepted
  have none_signed : signedIndices life.requests = [] := by
    rw [signedIndices, unsigned]
    rfl
  refine run_history (H := fun past s => Dispensed nowMs (past.countP isSubmit) s) ?_ ?_ reached
  · intro past m a m' _ before taken
    rw [List.countP_append, List.countP_singleton]
    exact before.step taken
  · rw [List.countP_nil]
    refine ⟨?_, ?_, ?_, ?_⟩
    · rw [fresh]
      exact sound_start noInstruments nowMs 0
    · rw [fresh, none_signed]
      exact once_start noInstruments nowMs 0
    · rw [fresh]
      simp [State.start]
    · simp [none_signed]

theorem inRange_of_run {rest : Rest.RestExternals} {sends : Nat} {actions : List Action}
    (accepted : construct lib nowMs now url apiPrivateKey apiKeyIndex accountIndex = .ok life)
    (bounded : sends < 2 ^ 63) (reads : ∀ a ∈ actions, ReadsNonce rest sends a)
    (counted : actions.countP isSend ≤ sends) (reached : run (step cfg) life actions = some s) :
    InRange nowMs sends (actions.countP isSend) s := by
  obtain ⟨fresh, unsigned⟩ := construct_fresh accepted
  have started : InRange nowMs sends 0 life := by
    refine ⟨?_, ?_, ?_, by simp [unsigned]⟩
    · rw [fresh]
      exact sound_start noInstruments nowMs 0
    · rw [fresh]
      exact le_rfl
    · rw [fresh]
      change (0 : Int) + sends < 2 ^ 63 + (0 : Nat)
      omega
  revert reads counted
  refine run_history (H := fun past s => (∀ a ∈ past, ReadsNonce rest sends a) →
    past.countP isSend ≤ sends → InRange nowMs sends (past.countP isSend) s) ?_
    (fun _ _ => started) reached
  intro past m a m' _ before taken reads counted
  rw [List.countP_append, List.countP_singleton] at counted ⊢
  have earlier : past.countP isSend ≤ sends := by
    omega
  have reads_past := before (fun b member => reads b (List.mem_append_left _ member)) earlier
  exact reads_past.step earlier (reads a (by simp)) taken

/-- Over the whole life of a gateway the signer is only ever asked for transactions of its
domain, whatever the callers asked for and the nonce endpoint answered, as long as counting
up stays within 64 bits. -/
theorem native_calls_in_domain {rest : Rest.RestExternals} {actions : List Action}
    (accepted : construct lib nowMs now url apiPrivateKey apiKeyIndex accountIndex = .ok life)
    (sends : actions.countP isSend < 2 ^ 63) (submits : nowMs + actions.countP isSubmit < 2 ^ 63)
    (reads : ∀ a ∈ actions, ReadsNonce rest (actions.countP isSend) a)
    (reached : run (step cfg) life actions = some s) :
    ∀ call ∈ transactions s.requests, InDomain nowMs call ∧
      ∀ i, clientOrderIndexOf call = some i → i < 2 ^ 63 := by
  intro call member
  refine ⟨(inRange_of_run accepted sends reads le_rfl reached).signed call member, ?_⟩
  intro i names
  have dispensed := dispensed_of_run accepted reached
  have below := dispensed.once.signed_below i (List.mem_filterMap.mpr ⟨call, member, names⟩)
  have counted := dispensed.counted
  omega

end Construct

end Lives

/-- A gateway from its construction to some point of its life. -/
structure Process where
  lib : NativeLib
  cfg : Config
  nowMs : Int
  now : Int
  url : String
  apiPrivateKey : String
  apiKeyIndex : Int
  accountIndex : Int
  life : Life
  actions : List Action
  last : Life
  accepted : construct lib nowMs now url apiPrivateKey apiKeyIndex accountIndex = .ok life
  reached : run (step cfg) life actions = some last

namespace Process

def submits (p : Process) : Nat := p.actions.countP isSubmit

def signed (p : Process) : List Int := signedIndices p.last.requests

/-- A restart: the earlier process has submitted at most once a millisecond on average. -/
def RestartsAs (p q : Process) : Prop := p.nowMs + p.submits ≤ q.nowMs

end Process

/-- No two orders are ever signed under one client order index, neither by the threads of
one gateway nor by gateways that follow one another. -/
theorem orders_signed_once (processes : List Process)
    (restarts : processes.Pairwise Process.RestartsAs) :
    (processes.flatMap Process.signed).Nodup := by
  have dispensed : ∀ p : Process, Dispensed p.nowMs p.submits p.last :=
    fun p => dispensed_of_run p.accepted p.reached
  refine List.nodup_flatMap.mpr ⟨fun p _ => (dispensed p).once.nodup, ?_⟩
  refine restarts.imp fun {p q} restart => ?_
  intro i earlier later
  have below := (dispensed p).once.signed_below i earlier
  have counted := (dispensed p).counted
  have above := (dispensed q).above i later
  unfold Process.RestartsAs at restart
  omega

/-! ## Samples -/

def sampleUrl : String := "https://mainnet.zklighter.elliot.ai"

/-- The gateway that is constructed at this millisecond. -/
def sampleLife (nowMs : Int) : Life where
  signer := ⟨3, 77, 304⟩
  accountIndex := 77
  apiKeyIndex := 3
  authToken := "token"
  authTokenDeadline := tokenLifetime
  startup := .idle
  authTokenProvider := false
  session := none
  orders := .start noInstruments nowMs 0
  requests := [.native (.createAuthToken tokenLifetime 3 77),
    .native (.createClient sampleUrl "ab" 304 3 77)]

theorem sampleLife_constructed (nowMs : Int) :
    construct OneAccount.sampleLib nowMs 0 sampleUrl "0xab" 3 77 = .ok (sampleLife nowMs) := rfl

def noncePage : Rest.RestExternals :=
  WireRecords.plainReaders [("page", .obj [("code", .int 200), ("nonce", .int 5)])] []

/-- A limit order is signed with the nonce that was read at the start, and sent. -/
def signing : List Action :=
  [.start 0 ⟨"", ""⟩ (.ok OrderIndices.sampleInstruments), .seedNonce (.ok 5),
    .orders (.submitPostOnlyLimit 0 "x" "ETH" .Buy 1 7 false) 0 ⟨"", ""⟩, .orders (.insert 0) 0 ⟨"", ""⟩,
    .orders (.lockTx 0) 0 ⟨"", ""⟩, .orders (.sign 0 (.ok ())) 0 ⟨"", ""⟩,
    .orders (.send 0 (.http 200 OrderIndices.acceptBody)) 0 ⟨"", ""⟩]

theorem signing_reached {nowMs : Int} (early : nowMs = 1 ∨ nowMs = 2) :
    ∃ s, run (step OrderIndices.sampleConfig) (sampleLife nowMs) signing = some s ∧
      transactions s.requests = [.signCreateOrder 0 nowMs 1 7 0 0 2 0 0 (-1) 0 0 0 0 5 3 77] := by
  rcases early with rfl | rfl
  · exact exists_run (P := fun s : Life => transactions s.requests =
      [.signCreateOrder 0 1 1 7 0 0 2 0 0 (-1) 0 0 0 0 5 3 77]) (by decide +kernel)
  · exact exists_run (P := fun s : Life => transactions s.requests =
      [.signCreateOrder 0 2 1 7 0 0 2 0 0 (-1) 0 0 0 0 5 3 77]) (by decide +kernel)

theorem signing_reads : ∀ a ∈ signing, ReadsNonce noncePage (signing.countP isSend) a := by
  intro a member
  simp only [signing, List.mem_cons, List.not_mem_nil, or_false] at member
  rcases member with rfl | rfl | rfl | rfl | rfl | rfl | rfl
  · trivial
  · refine ⟨⟨.http 200 "page", rfl⟩, fun n replied => ?_⟩
    obtain rfl := Except.ok.inj replied
    decide
  all_goals trivial

theorem native_calls_in_domain_signing : ∃ s,
    run (step OrderIndices.sampleConfig) (sampleLife 1) signing = some s ∧
      (transactions s.requests).length = 1 ∧ ∀ call ∈ transactions s.requests,
        InDomain 1 call ∧ ∀ i, clientOrderIndexOf call = some i → i < 2 ^ 63 := by
  obtain ⟨s, reached, signed⟩ := signing_reached (Or.inl rfl)
  refine ⟨s, reached, by rw [signed]; rfl, ?_⟩
  exact native_calls_in_domain (sampleLife_constructed 1) (by decide) (by decide) signing_reads
    reached

theorem orders_signed_once_signing : ∃ p q : Process,
    [p, q].flatMap Process.signed = [1, 2] ∧ ([p, q].flatMap Process.signed).Nodup := by
  obtain ⟨s, reached, signed⟩ := signing_reached (Or.inl rfl)
  obtain ⟨s', reached', signed'⟩ := signing_reached (Or.inr rfl)
  let p : Process := ⟨_, _, _, _, _, _, _, _, _, _, _, sampleLife_constructed 1, reached⟩
  let q : Process := ⟨_, _, _, _, _, _, _, _, _, _, _, sampleLife_constructed 2, reached'⟩
  have both : [p, q].flatMap Process.signed = [1, 2] := by
    simp [p, q, Process.signed, signedIndices, signed, signed', clientOrderIndexOf]
  refine ⟨p, q, both, orders_signed_once [p, q] ?_⟩
  exact List.pairwise_pair.mpr (by decide : (1 : Int) + signing.countP isSubmit ≤ 2)

end LighterApi.Guarantees.NativeCalls

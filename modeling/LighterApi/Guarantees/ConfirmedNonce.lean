import LighterApi.Guarantees.CallOrigins
import LighterApi.Guarantees.GenuineFills
import LighterApi.Guarantees.NonceAgreement

/-!
# No signing between a failed send and a resync

The thread whose send failed keeps the tx lock until it has asked for the next nonce, so
nobody else signs in between. But it asks only once: when the request fails the lock is
released with the old nonce, and the next call signs with it. So the rule holds exactly
for the environments whose replies to the request are never errors.
-/
namespace LighterApi.Guarantees.ConfirmedNonce
open LighterApi.Library.Transition
open LighterApi.Source LighterApi.Source.SendTx LighterApi.Source.Gateway
open LighterApi.Source.GatewayRun
open LighterApi.Guarantees.CallOrigins LighterApi.Guarantees.NonceAgreement
open LighterApi.Guarantees.GenuineFills LighterApi.Guarantees.VenueAnswers

/-- The answer does not say 200, nor another code that is cut to 200. -/
def Fails (lib : Externals) (answer : Answer) : Prop :=
  acknowledges lib answer = false ∧ wraps lib answer = false

/-- Between a send that fails and any later signing a resync succeeds. -/
def NoUnconfirmedSigning (lib : Externals) (actions : List Action) : Prop :=
  ∀ before t answer middle t' signed after,
    actions = before ++ .send t answer :: (middle ++ .sign t' signed :: after) →
    Fails lib answer → ∃ t'' next, .resync t'' (.ok next) ∈ middle

/-! ## The lock is kept until the request -/

variable {cfg : Config} {s s' : State}

/-- The gateway finds a send failed that fails. -/
theorem sendFailure_of_fails {lib : Externals} (reads : lib.ReadsInts) {answer : Answer}
    (fails : Fails lib answer) (what : String) :
    ∃ failure, sendFailure lib what answer = some failure := by
  refine Option.ne_none_iff_exists'.mp fun accepted => ?_
  rcases (sendFailure_eq_none_iff reads what).mp accepted with said | misread
  · exact absurd (fails.1.symm.trans said) (by decide)
  · exact absurd (fails.2.symm.trans misread) (by decide)

/-- A thread whose send failed waits for the reply to its request. -/
theorem failed_stays {a : Action} {t : Nat} {job : Job} {failure : Failure}
    (at_stage : s.threads t = .failed job failure) (other : ∀ reply, a ≠ .resync t reply)
    (taken : step cfg s a = some s') : s'.threads t = .failed job failure := by
  by_cases calls : a.thread = some t
  · have stuck : step cfg s a = none := by
      cases a with
      | resync t' reply =>
        obtain rfl : t' = t := Option.some.inj calls
        exact absurd rfl (other reply)
      | submitPostOnlyLimit t' | submitReduceOnlyMarket t' =>
        obtain rfl : t' = t := Option.some.inj calls
        simp [step, beginSubmit, at_stage]
      | insert t' | lockTx t' | erase t' | finish t' =>
        obtain rfl : t' = t := Option.some.inj calls
        simp [step, at_stage]
      | cancel t' id symbol =>
        obtain rfl : t' = t := Option.some.inj calls
        simp [step, beginCancel, at_stage]
      | sign t' answer =>
        obtain rfl : t' = t := Option.some.inj calls
        simp [step, signTx, at_stage]
      | send t' answer =>
        obtain rfl : t' = t := Option.some.inj calls
        simp [step, sendTxStep, at_stage]
      | _ => exact absurd calls (by simp [Action.thread])
    rw [stuck] at taken
    exact absurd taken (by simp)
  · rw [step_threads_of_ne taken calls]
    exact at_stage

/-- While nobody asks for the nonce, the failed thread keeps the lock. -/
theorem failed_keeps_lock {middle : List Action} {t : Nat} {job : Job} {failure : Failure}
    (lock : LockOk s) (at_stage : s.threads t = .failed job failure)
    (quiet : ∀ t' reply, .resync t' reply ∉ middle)
    (reached : run (step cfg) s middle = some s') :
    LockOk s' ∧ s'.threads t = .failed job failure := by
  induction middle generalizing s with
  | nil =>
    rw [run_nil] at reached
    exact Option.some.inj reached ▸ ⟨lock, at_stage⟩
  | cons a rest ih =>
    obtain ⟨m, taken, reached⟩ := run_cons_eq_some.mp reached
    have other : ∀ reply, a ≠ .resync t reply := by
      rintro reply rfl
      exact quiet t reply List.mem_cons_self
    exact ih (lock_step lock taken) (failed_stays at_stage other taken)
      (fun t' reply member => quiet t' reply (List.mem_cons_of_mem a member)) reached

theorem sign_at_locked {t : Nat} {signed : Except String Unit}
    (taken : step cfg s (.sign t signed) = some s') : ∃ job, s.threads t = .locked job := by
  simp only [step, signTx] at taken
  split at taken
  · rename_i job at_stage
    exact ⟨job, at_stage⟩
  · exact absurd taken (by simp)

/-- Nobody signs while a failed thread keeps the lock. -/
theorem nobody_signs {t t' : Nat} {job : Job} {failure : Failure} {signed : Except String Unit}
    (lock : LockOk s) (at_stage : s.threads t = .failed job failure) :
    step cfg s (.sign t' signed) = none := by
  by_contra enabled
  obtain ⟨s', taken⟩ := Option.ne_none_iff_exists'.mp enabled
  obtain ⟨job', locked⟩ := sign_at_locked taken
  have owner : s.txOwner = some t := (lock t).mp (by rw [at_stage]; rfl)
  have owner' : s.txOwner = some t' := (lock t').mp (by rw [locked]; rfl)
  obtain rfl : t = t' := Option.some.inj (owner.symm.trans owner')
  exact absurd (at_stage.symm.trans locked) (by simp)

theorem send_at_signed {t : Nat} {answer : Answer} (taken : step cfg s (.send t answer) = some s') :
    ∃ job nonce, s.threads t = .signed job nonce := by
  simp only [step, sendTxStep] at taken
  split at taken
  · rename_i job nonce at_stage
    exact ⟨job, nonce, at_stage⟩
  · exact absurd taken (by simp)

/-- Signing after a failed send comes after a request for the nonce. -/
theorem resync_between {t t' : Nat} {answer : Answer} {middle after : List Action}
    {signed : Except String Unit} (reads : cfg.lib.ReadsInts) (lock : LockOk s)
    (fails : Fails cfg.lib answer)
    (reached : run (step cfg) s (.send t answer :: (middle ++ .sign t' signed :: after)) = some s') :
    ∃ t'' reply, .resync t'' reply ∈ middle := by
  by_contra none_in
  have quiet : ∀ t'' reply, .resync t'' reply ∉ middle :=
    fun t'' reply member => none_in ⟨t'', reply, member⟩
  obtain ⟨sent, taken, reached⟩ := run_cons_eq_some.mp reached
  obtain ⟨m, through, reached⟩ := run_append_eq_some.mp reached
  obtain ⟨_, signs, _⟩ := run_cons_eq_some.mp reached
  obtain ⟨job, nonce, at_stage⟩ := send_at_signed taken
  obtain ⟨failure, failed⟩ := sendFailure_of_fails reads fails job.name
  have broken : sent.threads t = .failed job failure := by
    simp only [step, sendTxStep, at_stage, failed] at taken
    rw [← Option.some.inj taken, State.goto_threads, if_pos rfl]
  obtain ⟨lock', stays⟩ := failed_keeps_lock (lock_step lock taken) broken quiet through
  rw [nobody_signs lock' stays] at signs
  exact absurd signs (by simp)

/-! ## A request that fails -/

/-- A submit whose send fails, then its request too, and a submit that signs. -/
def unconfirmed (what : String) : List Action :=
  [.submitPostOnlyLimit 0 "x" "ETH" .Buy 1 1 false, .insert 0, .lockTx 0, .sign 0 (.ok ())] ++
    .send 0 (.transport "") ::
      ([.resync 0 (.error what), .finish 0,
        .submitPostOnlyLimit 0 "y" "ETH" .Buy 1 1 false, .insert 0, .lockTx 0] ++
        .sign 0 (.ok ()) :: [])

theorem scaleLimit_one (lib : Externals) :
    scaleLimit lib (instrument 0) "ETH" 1 1 = .ok ⟨0, 1, 1⟩ := by
  have whole : 0 < llround lib (1 * pow10i 0) := by
    rw [llround_one]
    decide
  rw [scaleLimit_instrument whole, llround_one]

/-- A submit of one unit that finds the tx lock free is signed. -/
theorem submit_signs (cfg : Config) (id : String) {t : Nat} (instruments : s.instruments = instrument 0)
    (idle : s.threads t = .idle) (free : s.txOwner = none) :
    ∃ s' sub, run (step cfg) s
        [.submitPostOnlyLimit t id "ETH" .Buy 1 1 false, .insert t, .lockTx t, .sign t (.ok ())] =
          some s' ∧
      s'.threads t = .signed (.submit sub s.clientOrderCounter) s.nonces.nextNonce ∧
      s'.instruments = instrument 0 := by
  have begins : step cfg s (.submitPostOnlyLimit t id "ETH" .Buy 1 1 false) =
      beginSubmit s t .submitPostOnlyLimit id "ETH" .Buy 1 false (.ok ⟨0, 1, 1⟩) := by
    rw [step, instruments, scaleLimit_one]
  obtain ⟨locked, reached, at_locked, nonces, kept⟩ := submit_locks idle free begins
  have signs : ∃ s' sub, run (step cfg) locked [.sign t (.ok ())] = some s' ∧
      s'.threads t = .signed (.submit sub s.clientOrderCounter) locked.nonces.nextNonce ∧
      s'.instruments = locked.instruments := by
    simp only [run, step, signTx, at_locked, Option.bind_some, Option.some.injEq, exists_and_left,
      exists_eq_left', State.goto_threads, if_true]
    exact ⟨_, rfl, rfl⟩
  obtain ⟨s', sub, signed, at_signed, same⟩ := signs
  rw [nonces] at at_signed
  exact ⟨s', sub, run_append_eq_some.mpr ⟨locked, reached, signed⟩, at_signed,
    same.trans (kept.trans instruments)⟩

/-- A signed submit whose send and whose request for the nonce both fail gives the lock back. -/
theorem lost_submit_returns (cfg : Config) {t : Nat} {sub : Submission} {i nonce : Int} (what : String)
    (at_stage : s.threads t = .signed (.submit sub i) nonce) :
    ∃ s', run (step cfg) s [.send t (.transport ""), .resync t (.error what), .finish t] = some s' ∧
      s'.threads t = .idle ∧ s'.txOwner = none ∧ s'.instruments = s.instruments := by
  simp only [run, step, sendTxStep, at_stage, transport_failure, noteReject, Failure.isGateway,
    Bool.false_eq_true, if_false, Option.bind_some, resyncStep, State.goto_threads, if_true,
    afterResync, Option.some.injEq, exists_eq_left']
  exact ⟨trivial, trivial, rfl⟩

theorem unconfirmed_run (cfg : Config) (what : String) :
    ∃ s, run (step cfg) (State.start (instrument 0) 1 0) (unconfirmed what) = some s := by
  obtain ⟨signed, sub, first, at_stage, kept⟩ := submit_signs cfg "x" (t := 0)
    (s := State.start (instrument 0) 1 0) rfl rfl rfl
  obtain ⟨returned, lost, idle, free, same⟩ := lost_submit_returns cfg what at_stage
  obtain ⟨again, _, second, _⟩ := submit_signs cfg "y" (same.trans kept) idle free
  exact ⟨again, run_append_eq_some.mpr ⟨signed, first, run_append_eq_some.mpr ⟨returned, lost, second⟩⟩⟩

theorem unconfirmed_signs (cfg : Config) (what : String) :
    ¬ NoUnconfirmedSigning cfg.lib (unconfirmed what) := by
  intro confirmed
  obtain ⟨t, next, member⟩ := confirmed _ 0 (.transport "") _ 0 (.ok ()) [] rfl ⟨rfl, rfl⟩
  exact absurd member (by simp)

/-- Over the environments that reply to the request as allowed, the rule holds in every run
exactly when no error is allowed. -/
theorem no_unconfirmed_signing_iff (cfg : Config) (reads : cfg.lib.ReadsInts)
    (allowed : Except String Int → Prop) :
    (∀ (instruments : Instruments) (counter nonce : Int) (actions : List Action) (s : State),
      run (step cfg) (State.start instruments counter nonce) actions = some s →
      (∀ t reply, .resync t reply ∈ actions → allowed reply) →
      NoUnconfirmedSigning cfg.lib actions) ↔
    ∀ what, ¬ allowed (.error what) := by
  constructor
  · intro always what error_allowed
    obtain ⟨s, reached⟩ := unconfirmed_run cfg what
    refine unconfirmed_signs cfg what (always _ 1 0 _ s reached ?_)
    intro t reply member
    obtain ⟨_, rfl⟩ : t = 0 ∧ reply = .error what := by simpa [unconfirmed] using member
    exact error_allowed
  · intro no_error instruments counter nonce actions s reached replies before t answer middle t'
      signed after cut fails
    subst cut
    obtain ⟨m, at_send, onward⟩ := run_append_eq_some.mp reached
    have lock : LockOk m :=
      run_invariant (fun _ _ _ lock taken => lock_step lock taken)
        (lock_start instruments counter nonce) at_send
    obtain ⟨t'', reply, member⟩ := resync_between reads lock fails onward
    cases reply with
    | ok next => exact ⟨t'', next, member⟩
    | error what =>
      refine absurd (replies t'' _ ?_) (no_error what)
      exact List.mem_append_right _ (List.mem_cons_of_mem _ (List.mem_append_left _ member))

/-- A submit whose send fails, a request that succeeds, and a submit that signs. -/
def confirmed : List Action :=
  [.submitPostOnlyLimit 0 "x" "ETH" .Buy 1 1 false, .insert 0, .lockTx 0, .sign 0 (.ok ()),
    .send 0 (.transport ""), .resync 0 (.ok 4), .finish 0,
    .submitPostOnlyLimit 0 "y" "ETH" .Buy 1 1 false, .insert 0, .lockTx 0, .sign 0 (.ok ())]

theorem no_unconfirmed_signing_iff_sample :
    NoUnconfirmedSigning codedConfig.lib confirmed := by
  have ends : ∃ s, run (step codedConfig) (State.start (instrument 0) 1 0) confirmed = some s ∧
      s.nonces.nextNonce = 4 := exists_run (by decide +kernel)
  obtain ⟨s, reached, _⟩ := ends
  have replies : ∀ t reply, .resync t reply ∈ confirmed → reply = .ok 4 := by
    simp [confirmed]
  exact (no_unconfirmed_signing_iff codedConfig codedConfig_readsInts (· = .ok 4)).mpr
    (by simp) _ 1 0 confirmed s reached replies

/-- The nonce of a failed send is signed again when the request for the next one times out. -/
theorem unconfirmed_after_timeout :
    ¬ ∀ (cfg : Config), cfg.lib.ReadsInts → ∀ (instruments : Instruments) (counter nonce : Int)
      (actions : List Action) (s : State), run (step cfg) (State.start instruments counter nonce) actions = some s →
      NoUnconfirmedSigning cfg.lib actions := by
  intro always
  obtain ⟨s, reached⟩ := unconfirmed_run codedConfig "timeout"
  exact unconfirmed_signs _ "timeout" (always _ codedConfig_readsInts _ 1 0 _ s reached)

end LighterApi.Guarantees.ConfirmedNonce

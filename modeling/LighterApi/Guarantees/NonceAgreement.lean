import LighterApi.Guarantees.OrderIndices
import LighterApi.Guarantees.VenueAnswers
import LighterApi.Library.SerialCounter

/-!
# The gateway's nonce agrees with the venue's

The gateway and the venue it trades on, stepping in any interleaving. Seen through the
tx lock, a step of the gateway is a step of the serial counter of the library
(`Agreeing.step`), so between resyncs the nonces sent are consecutive and a free lock means
an agreed nonce. A resync asks for the account index cut to 32 bits, and the code of an
answer is cut to 32 bits too, so all this holds exactly for the accounts that the cut leaves
alone and the codes that it does not make a 200 (`noncesAgree_iff`).
-/
namespace LighterApi.Guarantees.NonceAgreement
open LighterApi.Library.Transition LighterApi.Library.SerialCounter
open LighterApi.Source LighterApi.Source.SendTx LighterApi.Source.Gateway
open LighterApi.Source.GatewayRun
open LighterApi.Guarantees.OrderIndices LighterApi.Guarantees.RejectDelivery
open LighterApi.Guarantees.VenueAnswers

/-! ## The gateway and the venue -/

/-- What the venue does with a transaction when it is sent. A floating one may still
arrive. -/
inductive Fate where
  | accepted | refused | floating
  deriving DecidableEq

structure World where
  gateway : State
  /-- The venue's next nonce of each account. -/
  next : Int → Nat
  floating : Option Int
  stale : List Int
  resyncsOk : Bool
  timely : Bool

/-- A step of the gateway alone, an exchange with the venue, or a step of the venue. -/
inductive Deed where
  | gateway (a : Action)
  | send (t : Nat) (answer : Answer) (fate : Fate)
  | resync (t : Nat) (reply : Except String Unit)
  | arrive
  | arriveLate (nonce : Int)
  | elsewhere (account : Int) (next : Nat)

/-- The action is an exchange with the venue. -/
def exchanges : Action → Bool
  | .send .. | .resync .. => true
  | _ => false

namespace World

/-- After `start()`, which has seeded the nonce. -/
def start (accountIndex : Int) (instruments : Instruments) (clientOrderCounter : Int)
    (next : Int → Nat) : World where
  gateway := .start instruments clientOrderCounter (next accountIndex)
  next := next
  floating := none
  stale := []
  resyncsOk := true
  timely := true

/-- The venue takes the next transaction of an account. -/
def consume (w : World) (account : Int) : World :=
  { w with next := Function.update w.next account (w.next account + 1) }

/-- The venue takes a transaction only under the next nonce of the account, and answers
200 only to what it takes. A resync is told the next nonce of the account that
`resyncNonce` names. -/
def step (cfg : Config) (accountIndex : Int) (w : World) : Deed → Option World
  | .gateway a =>
    if exchanges a then none
    else (GatewayRun.step cfg w.gateway a).map fun gateway => { w with gateway }
  | .send t answer fate =>
    match w.gateway.threads t, GatewayRun.step cfg w.gateway (.send t answer) with
    | .signed _ nonce, some gateway =>
      match fate with
      | .accepted =>
        if nonce = w.next accountIndex then some { w.consume accountIndex with gateway } else none
      | .refused => if acknowledges cfg.lib answer then none else some { w with gateway }
      | .floating =>
        if acknowledges cfg.lib answer then none
        else some { w with gateway, floating := some nonce }
    | _, _ => none
  | .resync t (.ok ()) =>
    (GatewayRun.step cfg w.gateway (.resync t (.ok (w.next (toInt32 accountIndex))))).map
      fun gateway => { w with
        gateway, floating := none, stale := w.floating.toList ++ w.stale }
  | .resync t (.error what) =>
    (GatewayRun.step cfg w.gateway (.resync t (.error what))).map fun gateway => { w with
      gateway, floating := none, stale := w.floating.toList ++ w.stale, resyncsOk := false }
  | .arrive =>
    match w.floating with
    | some nonce =>
      if nonce = w.next accountIndex then some { w.consume accountIndex with floating := none }
      else none
    | none => none
  | .arriveLate nonce =>
    if nonce ∈ w.stale ∧ nonce = w.next accountIndex then
      some { w.consume accountIndex with stale := w.stale.erase nonce, timely := false }
    else none
  | .elsewhere account next =>
    if account = accountIndex then none
    else some { w with next := Function.update w.next account next }

end World

/-- The nonces sent since the last resync, latest first. -/
def sentSince : List Event → List Int
  | .resynced _ :: _ => []
  | .sent nonce :: earlier => nonce :: sentSince earlier
  | _ :: earlier => sentSince earlier
  | [] => []

/-- The codes in the venue's HTTP-200 answers are 200 and these. -/
def AnswersAmong (lib : Externals) (codes : Int → Prop) (deeds : List Deed) : Prop :=
  ∀ t body fate code, .send t (.http 200 body) fate ∈ deeds →
    codeOf lib (.http 200 body) = some code → code ≠ 200 → codes code

/-- In every state of every run: when the tx lock is free, every resync succeeded and no
failed transaction arrived after its resync, the nonces agree; the nonces sent since the
last resync are consecutive; and a sign failure changes neither nonce. -/
def NoncesAgree (accountIndex : Int) (codes : Int → Prop) : Prop :=
  ∀ (cfg : Config) (instruments : Instruments) (counter : Int) (next : Int → Nat)
    (deeds : List Deed) (w : World), cfg.lib.ReadsInts → AnswersAmong cfg.lib codes deeds →
    run (World.step cfg accountIndex) (World.start accountIndex instruments counter next) deeds =
      some w →
    (w.gateway.txOwner = none → w.resyncsOk = true → w.timely = true →
      w.gateway.nonces.nextNonce = w.next accountIndex) ∧
    Consecutive (sentSince w.gateway.trace) ∧
    ∀ t what w', World.step cfg accountIndex w (.gateway (.sign t (.error what))) = some w' →
      w'.gateway.nonces = w.gateway.nonces ∧ w'.next = w.next

/-! ## The tx lock -/

/-- Exactly the owner of the tx lock stands between taking and leaving it. -/
def LockOk (s : State) : Prop := ∀ t, (s.threads t).holdsTx = true ↔ s.txOwner = some t

def phase : Stage → Phase
  | .signed _ nonce => .armed nonce
  | .failed _ _ => .broken
  | _ => .settled

/-- Where the owner of the tx lock stands. -/
def held (s : State) : Option Phase := s.txOwner.map fun t => phase (s.threads t)

section Lock

variable {s s' : State} (lock : LockOk s)
include lock

theorem held_eq {t : Nat} (holds : (s.threads t).holdsTx = true) :
    held s = some (phase (s.threads t)) := by
  rw [held, (lock t).mp holds]
  rfl

theorem held_ne {t : Nat} (before : (s.threads t).holdsTx = false) : s.txOwner ≠ some t := by
  intro owner
  rw [(lock t).mpr owner] at before
  exact absurd before (by simp)

/-- A thread outside the lock stays outside. -/
theorem lock_outside {t : Nat} {stage : Stage} (threads : s'.threads = Function.update s.threads t stage)
    (owner : s'.txOwner = s.txOwner) (before : (s.threads t).holdsTx = false)
    (after : stage.holdsTx = false) : LockOk s' ∧ held s' = held s := by
  have other := held_ne lock before
  constructor
  · intro t'
    rw [threads, owner, Function.update_apply]
    split
    · rename_i here
      rw [after, here]
      exact ⟨fun none_held => absurd none_held (by simp), fun owned => absurd owned other⟩
    · exact lock t'
  · unfold held
    rw [owner, threads]
    cases holder : s.txOwner with
    | none => rfl
    | some t' =>
      have apart : t' ≠ t := by
        intro here
        exact other (here ▸ holder)
      rw [Option.map_some, Option.map_some, Function.update_of_ne apart]

/-- The owner moves under the lock. -/
theorem lock_inside {t : Nat} {stage : Stage} (threads : s'.threads = Function.update s.threads t stage)
    (owner : s'.txOwner = s.txOwner) (before : (s.threads t).holdsTx = true)
    (after : stage.holdsTx = true) : LockOk s' ∧ held s' = some (phase stage) := by
  have owned := (lock t).mp before
  constructor
  · intro t'
    rw [threads, owner, Function.update_apply]
    split
    · rename_i here
      rw [after, here]
      exact ⟨fun _ => owned, fun _ => rfl⟩
    · exact lock t'
  · rw [held, owner, owned, threads, Option.map_some, Function.update_self]

/-- A waiting thread takes the free lock. -/
theorem lock_take {t : Nat} {stage : Stage} (threads : s'.threads = Function.update s.threads t stage)
    (owner : s'.txOwner = some t) (free : s.txOwner = none) (after : stage.holdsTx = true) :
    LockOk s' ∧ held s' = some (phase stage) := by
  constructor
  · intro t'
    rw [threads, owner, Function.update_apply]
    split
    · rename_i here
      rw [after, here]
      exact ⟨fun _ => rfl, fun _ => rfl⟩
    · rename_i other
      rw [lock t', free]
      exact ⟨fun owned => absurd owned (by simp), fun owned => absurd (Option.some.inj owned).symm other⟩
  · rw [held, owner, threads, Option.map_some, Function.update_self]

/-- The owner leaves the lock. -/
theorem lock_release {t : Nat} {stage : Stage} (threads : s'.threads = Function.update s.threads t stage)
    (owner : s'.txOwner = none) (before : (s.threads t).holdsTx = true)
    (after : stage.holdsTx = false) : LockOk s' ∧ held s' = none := by
  have owned := (lock t).mp before
  constructor
  · intro t'
    rw [threads, owner, Function.update_apply]
    split
    · rw [after]
      exact ⟨fun none_held => absurd none_held (by simp), fun none_owns => absurd none_owns (by simp)⟩
    · rename_i other
      rw [lock t', owned]
      exact ⟨fun same => absurd (Option.some.inj same).symm other, fun none_owns => absurd none_owns (by simp)⟩
  · rw [held, owner]
    rfl

end Lock

/-! ## What the steps of the gateway do to it -/

variable {cfg : Config} {s s' : State}

/-- What a step outside the exchanges does to the holder. -/
def Turn (counter : Int) (before after : Option Phase) : Prop :=
  after = before ∨ (before = none ∧ after = some .settled) ∨
    (before = some .settled ∧ after = some (.armed counter)) ∨
    (before = some .settled ∧ after = none)

/-- A step outside the exchanges sends nothing and leaves the nonce alone. -/
structure Calm (s s' : State) : Prop where
  lock : LockOk s'
  nonces : s'.nonces = s.nonces
  sent : sentSince s'.trace = sentSince s.trace
  turn : Turn s.nonces.nextNonce (held s) (held s')

section Calm

variable (lock : LockOk s) (nonces : s'.nonces = s.nonces)
  (sent : sentSince s'.trace = sentSince s.trace)
include lock nonces sent

theorem Calm.outside {t : Nat} {stage : Stage}
    (threads : s'.threads = Function.update s.threads t stage) (owner : s'.txOwner = s.txOwner)
    (before : (s.threads t).holdsTx = false) (after : stage.holdsTx = false) : Calm s s' := by
  obtain ⟨lock', held'⟩ := lock_outside lock threads owner before after
  exact ⟨lock', nonces, sent, Or.inl held'⟩

/-- The owner moves without fixing a nonce. -/
theorem Calm.inside {t : Nat} {stage stage' : Stage} (at_stage : s.threads t = stage)
    (threads : s'.threads = Function.update s.threads t stage') (owner : s'.txOwner = s.txOwner)
    (before : stage.holdsTx = true) (after : stage'.holdsTx = true)
    (same : phase stage' = phase stage) : Calm s s' := by
  obtain ⟨lock', held'⟩ := lock_inside lock threads owner (at_stage ▸ before) after
  have held := held_eq lock (at_stage ▸ before)
  rw [at_stage, ← same] at held
  exact ⟨lock', nonces, sent, Or.inl (held'.trans held.symm)⟩

end Calm

theorem calm_step {a : Action} (lock : LockOk s) (quiet : exchanges a = false)
    (taken : GatewayRun.step cfg s a = some s') : Calm s s' := by
  cases step_spec taken with
  | allocated sub idle calls whole => exact .outside lock rfl rfl rfl rfl (by rw [idle]; rfl) rfl
  | inserted at_stage => exact .outside lock rfl rfl rfl rfl (by rw [at_stage]; rfl) rfl
  | cancelWaits marketId orderIndex idle =>
    exact .outside lock rfl rfl rfl rfl (by rw [idle]; rfl) rfl
  | lockedTx at_stage free =>
    rename_i t job
    let after : State := { s.goto t (.locked job) with txOwner := some t }
    have taking : LockOk after ∧ held after = some (phase (.locked job)) :=
      lock_take lock rfl rfl free rfl
    have nobody : held s = none := by rw [held, free]; rfl
    exact ⟨taking.1, rfl, rfl, Or.inr (Or.inl ⟨nobody, taking.2⟩)⟩
  | signed at_stage =>
    rename_i t job
    have holds : (s.threads t).holdsTx = true := by rw [at_stage]; rfl
    have before := held_eq lock holds
    rw [at_stage] at before
    let after : State := (s.log (.signing (job.signRequest s.nonces.nextNonce))).goto t
      (.signed job s.nonces.nextNonce)
    have signing : LockOk after ∧ held after = some (phase (.signed job s.nonces.nextNonce)) :=
      lock_inside lock rfl rfl holds rfl
    exact ⟨signing.1, rfl, rfl, Or.inr (Or.inr (Or.inl ⟨before, signing.2⟩))⟩
  | signFailedSubmit what at_stage => exact .inside lock rfl rfl at_stage rfl rfl rfl rfl rfl
  | signFailedCancel what at_stage => exact .inside lock rfl rfl at_stage rfl rfl rfl rfl rfl
  | sent at_stage accepted => exact absurd quiet (by simp [exchanges])
  | sendFailed failure at_stage failed => exact absurd quiet (by simp [exchanges])
  | resynced reply at_stage => exact absurd quiet (by simp [exchanges])
  | erased at_stage => exact .inside lock rfl rfl at_stage rfl rfl rfl rfl rfl
  | finished at_stage =>
    rename_i t job result
    have holds : (s.threads t).holdsTx = true := by rw [at_stage]; rfl
    have before := held_eq lock holds
    rw [at_stage] at before
    let after : State := { (s.log (returnEvent job result)).goto t .idle with txOwner := none }
    have leaving : LockOk after ∧ held after = none := lock_release lock rfl rfl holds rfl
    refine ⟨leaving.1, rfl, ?_, Or.inr (Or.inr (Or.inr ⟨before, leaving.2⟩))⟩
    cases job <;> rfl
  | _ => exact ⟨lock, rfl, rfl, Or.inl rfl⟩

theorem sentSince_noteReject (s : State) (job : Job) (failure : Failure) :
    sentSince (noteReject s job failure).trace = sentSince s.trace := by
  rcases noteReject_eq s job failure with h | ⟨_, _, _, _, h⟩
  · rw [h]
  · rw [h]
    rfl

/-- What a send does, by the answer to it. -/
theorem send_step {t : Nat} {job : Job} {nonce : Int} {answer : Answer} (lock : LockOk s)
    (at_stage : s.threads t = .signed job nonce)
    (taken : GatewayRun.step cfg s (.send t answer) = some s') :
    LockOk s' ∧ held s = some (.armed nonce) ∧
      sentSince s'.trace = nonce :: sentSince s.trace ∧
      if sendFailure cfg.lib job.name answer = none then
        held s' = some .settled ∧ s'.nonces.nextNonce = s.nonces.nextNonce + 1
      else held s' = some .broken ∧ s'.nonces = s.nonces := by
  have holds : (s.threads t).holdsTx = true := by
    rw [at_stage]
    rfl
  have before := held_eq lock holds
  rw [at_stage] at before
  simp only [GatewayRun.step, sendTxStep, at_stage] at taken
  split at taken
  · rename_i accepted
    obtain rfl := Option.some.inj taken
    rw [if_pos accepted]
    let after : State := { (s.log (.sent nonce)).goto t (.leaving job (.ok true)) with
      nonces := { s.nonces with nextNonce := s.nonces.nextNonce + 1 } }
    have moved : LockOk after ∧ held after = some (phase (.leaving job (.ok true))) :=
      lock_inside lock rfl rfl holds rfl
    exact ⟨moved.1, before, rfl, moved.2, rfl⟩
  · rename_i failure failed
    have threads : s'.threads = Function.update s.threads t (.failed job failure) := by
      rw [← Option.some.inj taken, State.goto, noteReject_threads]
      rfl
    have owner : s'.txOwner = s.txOwner := by
      rw [← Option.some.inj taken, State.goto_txOwner, noteReject_txOwner]
      rfl
    obtain ⟨lock', held'⟩ := lock_inside lock threads owner holds rfl
    refine ⟨lock', before, ?_, ?_⟩
    · rw [← Option.some.inj taken, State.goto_trace, sentSince_noteReject]
      rfl
    · rw [if_neg (by simp [failed])]
      refine ⟨held', ?_⟩
      rw [← Option.some.inj taken, State.goto_nonces, noteReject_nonces]
      rfl

theorem afterResync_settled (job : Job) (failure : Failure) :
    (afterResync job failure).holdsTx = true ∧ phase (afterResync job failure) = .settled := by
  cases job with
  | submit sub i =>
    unfold afterResync
    dsimp only
    split <;> exact ⟨rfl, rfl⟩
  | cancel id m o => exact ⟨rfl, rfl⟩

theorem resync_step {t : Nat} {reply : Except String Int} (lock : LockOk s)
    (taken : GatewayRun.step cfg s (.resync t reply) = some s') :
    LockOk s' ∧ held s = some .broken ∧ held s' = some .settled ∧ sentSince s'.trace = [] ∧
      s'.nonces = resyncNonce reply s.nonces := by
  simp only [GatewayRun.step, resyncStep] at taken
  split at taken
  · rename_i job failure at_stage
    have holds : (s.threads t).holdsTx = true := by
      rw [at_stage]
      rfl
    have before := held_eq lock holds
    rw [at_stage] at before
    obtain ⟨under, settled⟩ := afterResync_settled job failure
    obtain rfl := Option.some.inj taken
    let after : State := { (s.log (.resynced reply)).goto t (afterResync job failure) with
      nonces := resyncNonce reply s.nonces }
    have moved : LockOk after ∧ held after = some (phase (afterResync job failure)) :=
      lock_inside lock rfl rfl holds under
    rw [settled] at moved
    exact ⟨moved.1, before, moved.2, rfl, rfl⟩
  · exact absurd taken (by simp)

/-- The tx lock has one owner after every step. -/
theorem lock_step {a : Action} (lock : LockOk s) (taken : GatewayRun.step cfg s a = some s') :
    LockOk s' := by
  cases a with
  | send t answer =>
    obtain ⟨job, nonce, at_stage⟩ : ∃ job nonce, s.threads t = .signed job nonce := by
      simp only [GatewayRun.step, sendTxStep] at taken
      split at taken
      · rename_i job nonce at_stage
        exact ⟨job, nonce, at_stage⟩
      · exact absurd taken (by simp)
    exact (send_step lock at_stage taken).1
  | resync t reply => exact (resync_step lock taken).1
  | _ => exact (calm_step lock rfl taken).lock

theorem lock_start (instruments : Instruments) (counter nonce : Int) :
    LockOk (State.start instruments counter nonce) :=
  fun _ => by simp [State.start, Stage.holdsTx]

/-! ## The world simulates the serial counter -/

variable {accountIndex : Int} {w w' : World}

/-- The world as a serial counter. -/
def World.system (accountIndex : Int) (w : World) (trusted : Bool) : System :=
  ⟨held w.gateway, w.gateway.nonces.nextNonce, sentSince w.gateway.trace, w.next accountIndex,
    w.floating, trusted⟩

/-- A step outside the exchanges is a step of the counter, or none. -/
theorem system_of_calm {g : State} (calm : Calm w.gateway g) {trusted : Bool}
    (sound : Sound (w.system accountIndex trusted)) :
    Sound (World.system accountIndex { w with gateway := g } trusted) := by
  have same : World.system accountIndex { w with gateway := g } trusted =
      { w.system accountIndex trusted with held := held g } := by
    simp only [World.system, calm.nonces, calm.sent]
  rw [same]
  rcases calm.turn with stays | ⟨free, takes⟩ | ⟨settled, arms⟩ | ⟨settled, releases⟩
  · rw [stays]
    exact sound
  · rw [takes]
    exact sound.move (.take free)
  · rw [arms]
    exact sound.move (.arm settled)
  · rw [releases]
    exact sound.move (.release settled)

/-- The lock is in order, and the world is a sound counter, trusted as long as the
resyncs succeed in time and ask for the right account. -/
structure Agreeing (accountIndex : Int) (w : World) : Prop where
  lock : LockOk w.gateway
  sound : ∃ trusted, Sound (w.system accountIndex trusted) ∧
    (toInt32 accountIndex = accountIndex → w.resyncsOk = true → w.timely = true → trusted = true)

/-- The answer to a transaction is not misread. -/
def Unwrapped (lib : Externals) : Deed → Prop
  | .send _ answer _ => wraps lib answer = false
  | _ => True

theorem Agreeing.send {t : Nat} {answer : Answer} {fate : Fate} (reads : cfg.lib.ReadsInts)
    (plain : wraps cfg.lib answer = false) (h : Agreeing accountIndex w)
    (taken : World.step cfg accountIndex w (.send t answer fate) = some w') :
    Agreeing accountIndex w' := by
  obtain ⟨trusted, sound, trust⟩ := h.sound
  simp only [World.step] at taken
  split at taken
  · rename_i job nonce g at_stage sent
    obtain ⟨lock, armed, used, outcome⟩ := send_step h.lock at_stage sent
    have failed : ¬ acknowledges cfg.lib answer = true → sendFailure cfg.lib job.name answer ≠ none := by
      intro unsaid accepted
      rcases (sendFailure_eq_none_iff reads job.name).mp accepted with said | misread
      · exact unsaid said
      · exact absurd (plain.symm.trans misread) (by decide)
    split at taken
    · split at taken
      · rename_i next
        obtain rfl := Option.some.inj taken
        refine ⟨lock, trusted, ?_, trust⟩
        split at outcome
        · have moved := sound.move (.succeed armed next)
          simpa only [World.system, World.consume, Function.update_self, outcome, used, Nat.cast_add,
            Nat.cast_one] using moved
        · have moved := sound.move (.fail armed (w.next accountIndex + 1) w.floating)
          simpa only [World.system, World.consume, Function.update_self, outcome, used, Nat.cast_add,
            Nat.cast_one] using moved
      · exact absurd taken (by simp)
    · split at taken
      · exact absurd taken (by simp)
      · rename_i unsaid
        obtain rfl := Option.some.inj taken
        rw [if_neg (failed unsaid)] at outcome
        refine ⟨lock, trusted, ?_, trust⟩
        have moved := sound.move (.fail armed (w.next accountIndex) w.floating)
        simpa only [World.system, outcome, used] using moved
    · split at taken
      · exact absurd taken (by simp)
      · rename_i unsaid
        obtain rfl := Option.some.inj taken
        rw [if_neg (failed unsaid)] at outcome
        refine ⟨lock, trusted, ?_, trust⟩
        have moved := sound.move (.fail armed (w.next accountIndex) (some nonce))
        simpa only [World.system, outcome, used] using moved
  · exact absurd taken (by simp)

theorem Agreeing.resync {t : Nat} {reply : Except String Unit} (h : Agreeing accountIndex w)
    (taken : World.step cfg accountIndex w (.resync t reply) = some w') :
    Agreeing accountIndex w' := by
  obtain ⟨trusted, sound, trust⟩ := h.sound
  cases reply with
  | ok told =>
    simp only [World.step, Option.map_eq_some_iff] at taken
    obtain ⟨g, resynced, rfl⟩ := taken
    obtain ⟨lock, broken, settled, used, nonces⟩ := resync_step h.lock resynced
    have moved := sound.move (.readBack broken (w.next (toInt32 accountIndex)))
    refine ⟨lock, trusted && ((w.next (toInt32 accountIndex) : Int) == w.next accountIndex), ?_, ?_⟩
    · simpa only [World.system, settled, used, nonces, resyncNonce] using moved
    · intro account ok timely
      rw [account, trust account ok timely]
      simp
  | error what =>
    simp only [World.step, Option.map_eq_some_iff] at taken
    obtain ⟨g, resynced, rfl⟩ := taken
    obtain ⟨lock, broken, settled, used, nonces⟩ := resync_step h.lock resynced
    have moved := sound.move (.readFails broken)
    refine ⟨lock, false, ?_, fun _ ok => absurd ok (by simp)⟩
    simpa only [World.system, settled, used, nonces, resyncNonce] using moved

/-- The step lemma. -/
theorem Agreeing.step {deed : Deed} (reads : cfg.lib.ReadsInts) (plain : Unwrapped cfg.lib deed)
    (h : Agreeing accountIndex w)
    (taken : World.step cfg accountIndex w deed = some w') : Agreeing accountIndex w' := by
  cases deed with
  | gateway a =>
    obtain ⟨trusted, sound, trust⟩ := h.sound
    simp only [World.step] at taken
    split at taken
    · exact absurd taken (by simp)
    · rename_i quiet
      obtain ⟨g, stepped, rfl⟩ := Option.map_eq_some_iff.mp taken
      have calm := calm_step h.lock (Bool.eq_false_iff.mpr quiet) stepped
      exact ⟨calm.lock, trusted, system_of_calm calm sound, trust⟩
  | send t answer fate => exact h.send reads plain taken
  | resync t reply => exact h.resync taken
  | arrive =>
    obtain ⟨trusted, sound, trust⟩ := h.sound
    simp only [World.step] at taken
    split at taken
    · rename_i nonce floating
      split at taken
      · obtain rfl := Option.some.inj taken
        have moved := sound.move (.arrive floating (w.next accountIndex + 1))
        refine ⟨h.lock, trusted, ?_, trust⟩
        simpa only [World.system, World.consume, Function.update_self, Nat.cast_add,
          Nat.cast_one] using moved
      · exact absurd taken (by simp)
    · exact absurd taken (by simp)
  | arriveLate nonce =>
    obtain ⟨trusted, sound, trust⟩ := h.sound
    simp only [World.step] at taken
    split at taken
    · obtain rfl := Option.some.inj taken
      have moved := sound.move (.stray (w.next accountIndex + 1))
      refine ⟨h.lock, false, ?_, fun _ _ timely => absurd timely (by simp)⟩
      simpa only [World.system, World.consume, Function.update_self, Nat.cast_add,
        Nat.cast_one] using moved
    · exact absurd taken (by simp)
  | elsewhere account next =>
    obtain ⟨trusted, sound, trust⟩ := h.sound
    simp only [World.step] at taken
    split at taken
    · exact absurd taken (by simp)
    · rename_i other
      obtain rfl := Option.some.inj taken
      refine ⟨h.lock, trusted, ?_, trust⟩
      simpa only [World.system, Function.update_of_ne (Ne.symm other)] using sound

theorem agreeing_start (instruments : Instruments) (counter : Int) (next : Int → Nat) :
    Agreeing accountIndex (World.start accountIndex instruments counter next) :=
  ⟨lock_start instruments counter _, true, sound_start _, fun _ _ _ => rfl⟩

variable {codes : Int → Prop}

theorem unwrapped_of_among {lib : Externals} {deeds : List Deed}
    (sound : ∀ code, codes code → toInt32 code = 200 → code = 200)
    (among : AnswersAmong lib codes deeds) : ∀ deed ∈ deeds, Unwrapped lib deed := by
  intro deed member
  cases deed with
  | send t answer fate =>
    by_contra misread
    obtain ⟨body, code, rfl, coded, other, cut⟩ := code_of_wraps (Bool.not_eq_false _ ▸ misread)
    exact other (sound code (among t body fate code member coded other) cut)
  | _ => exact trivial

/-- The step lemma gives `NoncesAgree` for the accounts and the codes that the cuts leave alone. -/
theorem noncesAgree_of_cut (account : toInt32 accountIndex = accountIndex)
    (sound : ∀ code, codes code → toInt32 code = 200 → code = 200) :
    NoncesAgree accountIndex codes := by
  intro cfg instruments counter next deeds w reads among reached
  have plain := unwrapped_of_among sound among
  have h : Agreeing accountIndex w :=
    run_invariant_of_meets (fun _ _ _ h plain taken => h.step reads plain taken)
      (agreeing_start instruments counter next) (meets_of_forall (fun _ => plain) _) reached
  obtain ⟨trusted, sound, trust⟩ := h.sound
  refine ⟨?_, sound.consecutive, ?_⟩
  · intro free ok timely
    have nobody : held w.gateway ≠ some .broken := by simp [held, free]
    exact sound.agree (trust account ok timely) nobody
  · intro t what w' taken
    obtain ⟨g, stepped, rfl⟩ := Option.map_eq_some_iff.mp taken
    exact ⟨(calm_step h.lock rfl stepped).nonces, rfl⟩

/-! ## The accounts and the codes that the cuts change -/

/-- Steps outside the exchanges move the gateway alone. -/
theorem run_gateway {actions : List Action} (quiet : ∀ a ∈ actions, exchanges a = false) {g : State}
    (reached : run (GatewayRun.step cfg) w.gateway actions = some g) :
    run (World.step cfg accountIndex) w (actions.map .gateway) = some { w with gateway := g } := by
  induction actions generalizing w with
  | nil =>
    rw [run_nil] at reached
    rw [← Option.some.inj reached]
    rfl
  | cons a rest ih =>
    obtain ⟨m, stepped, reached⟩ := run_cons_eq_some.mp reached
    rw [List.map_cons]
    refine run_cons_eq_some.mpr ⟨{ w with gateway := m }, ?_, ?_⟩
    · rw [World.step, quiet a List.mem_cons_self, stepped]
      rfl
    · exact ih (fun b member => quiet b (List.mem_cons_of_mem a member)) reached

/-- A venue whose bodies are the codes. -/
def codedConfig : Config where
  lib := { oneBody "" .null with
    parse := fun text => match strtol text with
      | some code => .ok (rejectJson code "")
      | none => .error "[json.exception.parse_error.101]" }
  fillCB := true
  orderUpdateCB := true

theorem codedConfig_readsInts : codedConfig.lib.ReadsInts where
  int_present := (oneBody_readsValues "" .null).int_present
  text_present := (oneBody_readsValues "" .null).text_present
  int_missing := (oneBody_readsValues "" .null).int_missing
  text_missing := (oneBody_readsValues "" .null).text_missing
  int_cut := (oneBody_readsInts "" .null).int_cut

theorem codedConfig_parse (code : Int) :
    codedConfig.lib.parse (toString code) = .ok (rejectJson code "") := by
  have read := @strtol_decimal code [] (by simp)
  rw [List.append_nil, String.ofList_toList] at read
  simp only [codedConfig, read]

/-- A submit up to its signature. -/
def signing : List Action :=
  [.submitPostOnlyLimit 0 "x" "ETH" .Buy 1 7 false, .insert 0, .lockTx 0, .sign 0 (.ok ())]

/-- Only the account itself is at nonce 5. -/
def apart (accountIndex : Int) (account : Int) : Nat := if account = accountIndex then 5 else 9

def isSignedSubmit : Stage → Bool
  | .signed (.submit _ _) _ => true
  | _ => false

/-- The world after the signature. -/
theorem signing_run (accountIndex : Int) : ∃ g sub i nonce,
    run (World.step codedConfig accountIndex)
        (World.start accountIndex sampleInstruments 1 (apart accountIndex)) (signing.map .gateway) =
      some { World.start accountIndex sampleInstruments 1 (apart accountIndex) with gateway := g } ∧
      g.threads 0 = .signed (.submit sub i) nonce ∧ g.nonces.nextNonce = 5 := by
  obtain ⟨g, signed, armed, seeded⟩ : ∃ g, run (GatewayRun.step codedConfig)
      (State.start sampleInstruments 1 5) signing = some g ∧ isSignedSubmit (g.threads 0) = true ∧
        g.nonces.nextNonce = 5 :=
    exists_run (by decide +kernel)
  have start : (World.start accountIndex sampleInstruments 1 (apart accountIndex)).gateway =
      State.start sampleInstruments 1 5 := by
    simp [World.start, apart]
  have first : run (World.step codedConfig accountIndex)
      (World.start accountIndex sampleInstruments 1 (apart accountIndex)) (signing.map .gateway) =
        some { World.start accountIndex sampleInstruments 1 (apart accountIndex) with gateway := g } :=
    run_gateway (by decide) (start ▸ signed)
  unfold isSignedSubmit at armed
  split at armed
  · rename_i sub i nonce here
    exact ⟨g, sub, i, nonce, first, here, seeded⟩
  · exact absurd armed (by simp)

/-- A send that fails, the resync that follows it, and the end of the call. -/
def failing : List Deed :=
  [.send 0 (.transport "") .refused, .resync 0 (.ok ()), .gateway (.finish 0)]

/-- A transaction refused with a code in an HTTP-200 body, and the end of the call. -/
def refusing (code : Int) : List Deed :=
  [.send 0 (.http 200 (toString code)) .refused, .gateway (.finish 0)]

theorem transport_failure (lib : Externals) (what : String) :
    sendFailure lib what (.transport "") = some (.plain "") := by
  have unmarked : substrAfter "" "msg: " = none := by decide +kernel
  simp only [sendFailure, sendTx, checkTransport, bind, Except.bind, parseVenueReject, unmarked]

/-- A signed submit fails: the resync is told the nonce of another account. -/
theorem failing_misreads {g : State} {sub : Submission} {i nonce : Int}
    (at_stage : g.threads 0 = .signed (.submit sub i) nonce)
    (other : apart accountIndex (toInt32 accountIndex) = 9) :
    ∃ w, run (World.step codedConfig accountIndex)
        { World.start accountIndex sampleInstruments 1 (apart accountIndex) with gateway := g }
        failing = some w ∧ w.gateway.txOwner = none ∧ w.resyncsOk = true ∧ w.timely = true ∧
      w.gateway.nonces.nextNonce = 9 ∧ w.next accountIndex = 5 := by
  have unsaid : acknowledges codedConfig.lib (.transport "") = false := rfl
  simp only [failing, run, World.step, at_stage, GatewayRun.step, sendTxStep, transport_failure,
    unsaid, if_false, Option.bind_some, Option.map_some, State.goto_threads, if_true,
    resyncStep, afterResync, Failure.isGateway, resyncNonce, exchanges, Option.some.injEq,
    exists_eq_left', Bool.false_eq_true]
  refine ⟨trivial, rfl, rfl, ?_, if_pos rfl⟩
  exact congrArg Nat.cast other

theorem not_noncesAgree_of_account (cut : toInt32 accountIndex ≠ accountIndex) :
    ¬ NoncesAgree accountIndex codes := by
  intro claim
  have other : apart accountIndex (toInt32 accountIndex) = 9 := if_neg cut
  obtain ⟨g, sub, i, nonce, first, at_stage, _⟩ := signing_run accountIndex
  obtain ⟨w, then_, free, ok, timely, misread, unchanged⟩ := failing_misreads at_stage other
  have uncoded : AnswersAmong codedConfig.lib codes (signing.map .gateway ++ failing) := by
    intro t body fate code member
    exact absurd member (by simp [signing, failing])
  have agree := (claim codedConfig sampleInstruments 1 (apart accountIndex) _ w
    codedConfig_readsInts uncoded (run_append_eq_some.mpr ⟨_, first, then_⟩)).1 free ok timely
  rw [misread, unchanged] at agree
  exact absurd agree (by decide)

theorem codeOf_coded (code : Int) :
    codeOf codedConfig.lib (.http 200 (toString code)) = some code := by
  unfold codeOf
  dsimp only
  rw [codedConfig_parse]
  rfl

theorem wraps_coded {code : Int} (other : code ≠ 200) (cut : toInt32 code = 200) :
    acknowledges codedConfig.lib (.http 200 (toString code)) = false ∧
      wraps codedConfig.lib (.http 200 (toString code)) = true := by
  have said : envelope codedConfig.lib (.http 200 (toString code)) = some (rejectJson code "") := by
    unfold envelope
    dsimp only
    rw [codedConfig_parse]
    exact if_pos ⟨rfl, rfl⟩
  have coded : ((rejectJson code "").find "code").bind Json.asInteger = some code := rfl
  unfold acknowledges wraps
  rw [said]
  dsimp only
  rw [coded]
  simp [other, cut]

/-- A signed submit is refused with a code that is read as 200: the gateway counts on. -/
theorem refusing_misreads {g : State} {sub : Submission} {i nonce code : Int}
    (at_stage : g.threads 0 = .signed (.submit sub i) nonce) (seeded : g.nonces.nextNonce = 5)
    (other : code ≠ 200) (cut : toInt32 code = 200) :
    ∃ w, run (World.step codedConfig accountIndex)
        { World.start accountIndex sampleInstruments 1 (apart accountIndex) with gateway := g }
        (refusing code) = some w ∧ w.gateway.txOwner = none ∧ w.resyncsOk = true ∧
      w.timely = true ∧ w.gateway.nonces.nextNonce = 6 ∧ w.next accountIndex = 5 := by
  obtain ⟨unsaid, misread⟩ := wraps_coded other cut
  have taken : ∀ what, sendFailure codedConfig.lib what (.http 200 (toString code)) = none :=
    fun what => (sendFailure_eq_none_iff codedConfig_readsInts what).mpr (Or.inr misread)
  simp only [refusing, run, World.step, at_stage, GatewayRun.step, sendTxStep, taken, unsaid,
    if_false, Option.bind_some, Option.map_some, State.goto_threads, if_true, exchanges,
    Option.some.injEq, exists_eq_left', Bool.false_eq_true]
  refine ⟨trivial, rfl, rfl, ?_, if_pos rfl⟩
  change g.nonces.nextNonce + 1 = 6
  rw [seeded]
  rfl

theorem not_noncesAgree_of_code {code : Int} (among : codes code) (other : code ≠ 200)
    (cut : toInt32 code = 200) : ¬ NoncesAgree accountIndex codes := by
  intro claim
  obtain ⟨g, sub, i, nonce, first, at_stage, seeded⟩ := signing_run accountIndex
  obtain ⟨w, then_, free, ok, timely, counted, unchanged⟩ :=
    @refusing_misreads accountIndex _ _ _ _ _ at_stage seeded other cut
  have coded : AnswersAmong codedConfig.lib codes (signing.map .gateway ++ refusing code) := by
    intro t body fate code' member said _
    obtain ⟨_, rfl, _⟩ : t = 0 ∧ body = toString code ∧ fate = .refused := by
      simpa [signing, refusing] using member
    rw [← Option.some.inj ((codeOf_coded code).symm.trans said)]
    exact among
  have agree := (claim codedConfig sampleInstruments 1 (apart accountIndex) _ w
    codedConfig_readsInts coded (run_append_eq_some.mpr ⟨_, first, then_⟩)).1 free ok timely
  rw [counted, unchanged] at agree
  exact absurd agree (by decide)

/-- The nonces agree in every run exactly for the accounts that the cut leaves alone, as long
as no refusal in an HTTP-200 body has a code that is cut to 200. -/
theorem noncesAgree_iff (accountIndex : Int) (codes : Int → Prop) :
    NoncesAgree accountIndex codes ↔ toInt32 accountIndex = accountIndex ∧
      ∀ code, codes code → toInt32 code = 200 → code = 200 := by
  constructor
  · intro claim
    constructor
    · by_contra cut
      exact not_noncesAgree_of_account cut claim
    · intro code among cut
      by_contra other
      exact not_noncesAgree_of_code among other cut claim
  · rintro ⟨account, sound⟩
    exact noncesAgree_of_cut account sound

/-- A sub-account, whose index has 49 bits: the resync asks for account 0. -/
theorem sub_account_misread : ¬ NoncesAgree 281474976710656 fun _ => True :=
  not_noncesAgree_of_account (by decide)

end LighterApi.Guarantees.NonceAgreement

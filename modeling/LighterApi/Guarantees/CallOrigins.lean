import LighterApi.Source.GatewaySteps

/-!
# What is signed goes back to the first step of its call

A call gets its job in its first step, which scales the order or looks the record up, and
keeps it until it returns. So whatever a run hands to the signer was fixed by an action
earlier in the run, in the state before that action (`traced_of_run`).
-/
namespace LighterApi.Guarantees.CallOrigins
open LighterApi.Library.Transition
open LighterApi.Source LighterApi.Source.SendTx LighterApi.Source.Gateway
open LighterApi.Source.GatewayRun

/-- The job a thread is busy with. -/
def jobOf : Stage → Option Job
  | .idle => none
  | .allocated sub i | .erasing sub i _ => some (.submit sub i)
  | .waiting job | .locked job | .signed job _ | .failed job _ | .leaving job _ => some job

/-- The first step of a call that gets as far as a job. -/
inductive Begins (cfg : Config) (s : State) (t : Nat) : Action → Job → Prop where
  | limit {id symbol : String} {side : OrderSide} {qty price : Rat} {reduceOnly : Bool}
      {scaled : Scaled} (scales : scaleLimit cfg.lib s.instruments symbol qty price = .ok scaled) :
      Begins cfg s t (.submitPostOnlyLimit t id symbol side qty price reduceOnly)
        (.submit ⟨.submitPostOnlyLimit, id, symbol, side, qty, reduceOnly, scaled⟩
          s.clientOrderCounter)
  | market {id symbol : String} {side : OrderSide} {qty : Rat} {scaled : Scaled}
      (scales : scaleMarket cfg.lib s.instruments s.quotes symbol side qty = .ok scaled) :
      Begins cfg s t (.submitReduceOnlyMarket t id symbol side qty)
        (.submit ⟨.submitReduceOnlyMarket, id, symbol, side, qty, true, scaled⟩
          s.clientOrderCounter)
  | cancel {id symbol : String} {marketId orderIndex : Int}
      (target : cancelTarget s.maps id = .ok (some (marketId, orderIndex))) :
      Begins cfg s t (.cancel t id symbol) (.cancel id marketId orderIndex)

/-- The job was begun by an action of the run, in a call that has not returned since. -/
def Origin (cfg : Config) (first : State) (actions : List Action) (t : Nat) (job : Job) : Prop :=
  ∃ before a middle s, actions = before ++ a :: middle ∧ .finish t ∉ middle ∧
    run (step cfg) first before = some s ∧ Begins cfg s t a job

/-- The request was signed by a thread for the job of its call. -/
def Signed (cfg : Config) (first : State) (actions : List Action) (request : SignRequest) : Prop :=
  ∃ past t answer after s job, actions = past ++ .sign t answer :: after ∧
    run (step cfg) first past = some s ∧ s.threads t = .locked job ∧
    request = job.signRequest s.nonces.nextNonce ∧ Origin cfg first past t job

variable {cfg : Config} {s s' : State} {a : Action} {t : Nat} {job : Job}

theorem begins_of_beginSubmit {kind : SubmitKind} {id symbol : String} {side : OrderSide} {qty : Rat}
    {reduceOnly : Bool} {scaled : Except Failure Scaled} (idle : s.threads t = .idle)
    (taken : beginSubmit s t kind id symbol side qty reduceOnly scaled = some s')
    (busy : jobOf (s'.threads t) = some job) :
    ∃ order, scaled = .ok order ∧
      job = .submit ⟨kind, id, symbol, side, qty, reduceOnly, order⟩ s.clientOrderCounter := by
  unfold beginSubmit at taken
  rw [idle] at taken
  cases scaled with
  | error failure =>
    obtain rfl := Option.some.inj taken
    rw [State.log_threads, idle] at busy
    exact absurd busy (by simp [jobOf])
  | ok order =>
    obtain rfl := Option.some.inj taken
    change jobOf ((s.goto t _).threads t) = some job at busy
    rw [State.goto_threads, if_pos rfl] at busy
    exact ⟨order, rfl, (Option.some.inj busy).symm⟩

/-- A submit that has its index gets as far as its signing when it finds the tx lock free. -/
theorem allocated_locks {sub : Submission} {i : Int} (at_stage : s.threads t = .allocated sub i)
    (free : s.txOwner = none) :
    ∃ s', run (step cfg) s [.insert t, .lockTx t] = some s' ∧
      s'.threads t = .locked (.submit sub i) ∧
      s'.nonces = s.nonces ∧ s'.instruments = s.instruments := by
  let waiting : State := { (s.log (.inserted i sub.record)).goto t (.waiting (.submit sub i)) with
    maps := s.maps.insertOrderRec i sub.record }
  let holding : State := { waiting.goto t (.locked (.submit sub i)) with txOwner := some t }
  have inserted : step cfg s (.insert t) = some waiting := by
    simp [step, waiting, at_stage]
  have locked : step cfg waiting (.lockTx t) = some holding := by
    simp [step, holding, waiting, State.goto, State.log, free]
  refine ⟨holding, ?_, by simp [holding, State.goto], rfl, rfl⟩
  exact run_cons_eq_some.mpr ⟨_, inserted, run_cons_eq_some.mpr ⟨_, locked, rfl⟩⟩

/-- An accepted submit that finds the tx lock free gets as far as its signing. -/
theorem submit_locks {kind : SubmitKind} {id symbol : String} {side : OrderSide} {qty : Rat}
    {reduceOnly : Bool} {order : Scaled} (idle : s.threads t = .idle) (free : s.txOwner = none)
    (begins : step cfg s a = beginSubmit s t kind id symbol side qty reduceOnly (.ok order)) :
    ∃ s', run (step cfg) s [a, .insert t, .lockTx t] = some s' ∧
      s'.threads t =
        .locked (.submit ⟨kind, id, symbol, side, qty, reduceOnly, order⟩ s.clientOrderCounter) ∧
      s'.nonces = s.nonces ∧ s'.instruments = s.instruments := by
  let submission : Submission := ⟨kind, id, symbol, side, qty, reduceOnly, order⟩
  let allocated : State := { s.goto t (.allocated submission s.clientOrderCounter) with
    clientOrderCounter := s.clientOrderCounter + 1 }
  have accepted : step cfg s a = some allocated := by
    rw [begins]
    unfold beginSubmit
    rw [idle]
  have at_stage : allocated.threads t = .allocated submission s.clientOrderCounter := by
    simp [allocated, State.goto]
  obtain ⟨s', reached, at_locked, nonces, instruments⟩ :=
    allocated_locks at_stage free
  exact ⟨s', run_cons_eq_some.mpr ⟨_, accepted, reached⟩, at_locked, nonces, instruments⟩

/-- An idle thread gets a job only by beginning a call. -/
theorem begins_of_idle (idle : s.threads t = .idle) (calls : a.thread = some t)
    (taken : step cfg s a = some s') (busy : jobOf (s'.threads t) = some job) :
    Begins cfg s t a job := by
  cases a with
  | submitPostOnlyLimit t' id symbol side qty price reduceOnly =>
    obtain rfl : t' = t := Option.some.inj calls
    obtain ⟨order, scales, rfl⟩ := begins_of_beginSubmit idle taken busy
    exact .limit scales
  | submitReduceOnlyMarket t' id symbol side qty =>
    obtain rfl : t' = t := Option.some.inj calls
    obtain ⟨order, scales, rfl⟩ := begins_of_beginSubmit idle taken busy
    exact .market scales
  | cancel t' id symbol =>
    obtain rfl : t' = t := Option.some.inj calls
    simp only [step, beginCancel, idle] at taken
    split at taken
    · obtain rfl := Option.some.inj taken
      exact absurd busy (by simp [idle, jobOf])
    · obtain rfl := Option.some.inj taken
      exact absurd busy (by simp [idle, jobOf])
    · rename_i target
      obtain rfl := Option.some.inj taken
      rw [State.goto_threads, if_pos rfl] at busy
      rw [← Option.some.inj busy]
      exact .cancel target
  | insert t' | lockTx t' | erase t' | finish t' =>
    obtain rfl : t' = t := Option.some.inj calls
    exact absurd taken (by simp [step, idle])
  | sign t' answer =>
    obtain rfl : t' = t := Option.some.inj calls
    exact absurd taken (by simp [step, signTx, idle])
  | send t' answer =>
    obtain rfl : t' = t := Option.some.inj calls
    exact absurd taken (by simp [step, sendTxStep, idle])
  | resync t' reply =>
    obtain rfl : t' = t := Option.some.inj calls
    exact absurd taken (by simp [step, resyncStep, idle])
  | _ => exact absurd calls (by simp [Action.thread])

theorem jobOf_afterResync (job : Job) (failure : Failure) :
    jobOf (afterResync job failure) = some job := by
  cases job with
  | submit sub i =>
    unfold afterResync
    dsimp only
    split <;> rfl
  | cancel id m o => rfl

/-- A busy thread keeps its job until it returns. -/
theorem job_kept (busy : jobOf (s.threads t) = some job) (stays : a ≠ .finish t)
    (taken : step cfg s a = some s') : jobOf (s'.threads t) = some job := by
  by_cases calls : a.thread = some t
  · -- The thread moves to a stage with the same job.
    have moves : ∀ (s' : State) {before after : Stage}, s.threads t = before →
        jobOf after = jobOf before → jobOf ((s'.goto t after).threads t) = some job := by
      intro s' before after at_stage same
      rw [State.goto_threads, if_pos rfl, same, ← at_stage]
      exact busy
    have begun : s.threads t ≠ .idle := by
      intro idle
      rw [idle] at busy
      exact absurd busy (by simp [jobOf])
    cases step_spec taken with
    | refused id failure idle calls' => exact busy
    | cancelReturned result idle => exact busy
    | allocated sub idle calls' whole =>
      rw [Option.some.inj (calls'.symm.trans calls)] at idle
      exact absurd idle begun
    | cancelWaits marketId orderIndex idle =>
      rw [Option.some.inj calls] at idle
      exact absurd idle begun
    | inserted at_stage | lockedTx at_stage | signed at_stage | signFailedSubmit what at_stage
    | signFailedCancel what at_stage | sent at_stage | sendFailed failure at_stage | erased at_stage =>
      obtain rfl := Option.some.inj calls
      exact moves _ at_stage rfl
    | resynced reply at_stage =>
      obtain rfl := Option.some.inj calls
      exact moves _ at_stage (jobOf_afterResync _ _)
    | finished at_stage =>
      obtain rfl := Option.some.inj calls
      exact absurd rfl stays
    | _ => exact absurd calls (by simp [Action.thread])
  · rw [step_threads_of_ne taken calls]
    exact busy

/-- What a busy thread carries is what it carried before, through any run without its return. -/
theorem job_of_run {actions : List Action} (busy : jobOf (s.threads t) = some job)
    (stays : .finish t ∉ actions) (reached : run (step cfg) s actions = some s') :
    jobOf (s'.threads t) = some job := by
  induction actions generalizing s with
  | nil =>
    rw [run_nil] at reached
    exact Option.some.inj reached ▸ busy
  | cons a rest ih =>
    obtain ⟨m, taken, reached⟩ := run_cons_eq_some.mp reached
    have first : a ≠ .finish t := by
      rintro rfl
      exact stays List.mem_cons_self
    exact ih (job_kept busy first taken) (fun member => stays (List.mem_cons_of_mem a member)) reached

/-- What the others do leaves a thread where it is. -/
theorem threads_of_run_aside {actions : List Action} (aside : ∀ b ∈ actions, b.thread ≠ some t)
    (reached : run (step cfg) s actions = some s') : s'.threads t = s.threads t := by
  induction actions generalizing s with
  | nil =>
    rw [run_nil] at reached
    exact Option.some.inj reached ▸ rfl
  | cons a rest ih =>
    obtain ⟨m, taken, reached⟩ := run_cons_eq_some.mp reached
    rw [ih (fun b member => aside b (List.mem_cons_of_mem a member)) reached]
    exact step_threads_of_ne taken (aside a List.mem_cons_self)

theorem finish_returns (taken : step cfg s (.finish t) = some s') : jobOf (s'.threads t) = none := by
  cases step_spec taken with
  | refused id failure idle calls =>
    obtain rfl := Option.some.inj calls
    exact absurd taken (by simp [step, idle])
  | allocated sub idle calls whole =>
    obtain rfl := Option.some.inj calls
    exact absurd taken (by simp [step, idle])
  | finished at_stage => simp [jobOf]

/-- The step lemma: a thread had its job before, or the step begins the call. -/
theorem job_step (taken : step cfg s a = some s') (busy : jobOf (s'.threads t) = some job) :
    jobOf (s.threads t) = some job ∨ Begins cfg s t a job := by
  cases before : jobOf (s.threads t) with
  | none =>
    have idle : s.threads t = .idle := by
      cases stage : s.threads t with
      | idle => rfl
      | _ => exact absurd (stage ▸ before) (by simp [jobOf])
    by_cases calls : a.thread = some t
    · exact Or.inr (begins_of_idle idle calls taken busy)
    · rw [step_threads_of_ne taken calls, before] at busy
      exact absurd busy (by simp)
  | some job' =>
    have stays : a ≠ .finish t := by
      rintro rfl
      rw [finish_returns taken] at busy
      exact absurd busy (by simp)
    exact Or.inl ((job_kept before stays taken).symm.trans busy)

/-- What a step hands to the signer is the job of a thread that holds the tx lock. -/
theorem signs_step (taken : step cfg s a = some s') :
    ∃ events, s'.trace = events ++ s.trace ∧ ∀ request, .signing request ∈ events →
      ∃ t answer job, a = .sign t answer ∧ s.threads t = .locked job ∧
        request = job.signRequest s.nonces.nextNonce := by
  cases step_spec taken with
  | signed at_stage =>
    refine ⟨[_], rfl, fun request told => ?_⟩
    exact ⟨_, _, _, rfl, at_stage, Event.signing.inj (List.mem_singleton.mp told)⟩
  | signFailedSubmit what at_stage =>
    refine ⟨[_, _], rfl, fun request told => ?_⟩
    have signing := List.mem_singleton.mp (List.mem_of_ne_of_mem (by simp) told)
    exact ⟨_, _, _, rfl, at_stage, Event.signing.inj signing⟩
  | signFailedCancel what at_stage =>
    refine ⟨[_], rfl, fun request told => ?_⟩
    exact ⟨_, _, _, rfl, at_stage, Event.signing.inj (List.mem_singleton.mp told)⟩
  | sendFailed failure at_stage failed =>
    rename_i t job nonce answer
    rcases noteReject_eq (s.log (.sent nonce)) job failure with kept | ⟨_, i, _, _, noted⟩
    · refine ⟨[.sent nonce], ?_, by simp⟩
      rw [State.goto_trace, kept]
      rfl
    · refine ⟨[.rejected i, .sent nonce], ?_, by simp⟩
      rw [State.goto_trace, noted]
      rfl
  | finished at_stage =>
    rename_i t job result
    exact ⟨[returnEvent job result], rfl, by cases job <;> simp [returnEvent]⟩
  | refused | inserted | cancelReturned | sent | resynced | took | filled | updated =>
    exact ⟨[_], rfl, by simp⟩
  | _ => exact ⟨[], rfl, by simp⟩

theorem signing_step {request : SignRequest} (taken : step cfg s a = some s')
    (told : .signing request ∈ s'.trace) :
    .signing request ∈ s.trace ∨ ∃ t answer job, a = .sign t answer ∧
      s.threads t = .locked job ∧ request = job.signRequest s.nonces.nextNonce := by
  obtain ⟨events, trace_eq, signs⟩ := signs_step taken
  rw [trace_eq] at told
  rcases List.mem_append.mp told with new | old
  · exact Or.inr (signs request new)
  · exact Or.inl old

variable {first : State} {actions : List Action}

theorem Origin.later (h : Origin cfg first actions t job) (stays : a ≠ .finish t) :
    Origin cfg first (actions ++ [a]) t job := by
  obtain ⟨before, b, middle, s, rfl, busy, reached, begins⟩ := h
  refine ⟨before, b, middle ++ [a], s, by simp, ?_, reached, begins⟩
  intro returned
  rcases List.mem_append.mp returned with early | late
  · exact busy early
  · exact stays (List.mem_singleton.mp late).symm

theorem Signed.later {request : SignRequest} (h : Signed cfg first actions request) (a : Action) :
    Signed cfg first (actions ++ [a]) request := by
  obtain ⟨past, t, answer, after, s, job, rfl, reached, at_stage, request_eq, origin⟩ := h
  exact ⟨past, t, answer, after ++ [a], s, job, by simp, reached, at_stage, request_eq, origin⟩

/-- What the threads carry and what has been signed goes back to an action. -/
structure Traced (cfg : Config) (first : State) (actions : List Action) (s : State) : Prop where
  carried : ∀ t job, jobOf (s.threads t) = some job → Origin cfg first actions t job
  signed : ∀ request, .signing request ∈ s.trace → Signed cfg first actions request

theorem Traced.step (h : Traced cfg first actions s) (reached : run (step cfg) first actions = some s)
    (taken : step cfg s a = some s') : Traced cfg first (actions ++ [a]) s' := by
  constructor
  · intro t job busy
    rcases job_step taken busy with before | begins
    · refine (h.carried t job before).later ?_
      rintro rfl
      rw [finish_returns taken] at busy
      exact absurd busy (by simp)
    · exact ⟨actions, a, [], s, rfl, List.not_mem_nil, reached, begins⟩
  · intro request told
    rcases signing_step taken told with before | ⟨t, answer, job, rfl, at_stage, request_eq⟩
    · exact (h.signed request before).later a
    · have origin := h.carried t job (by rw [at_stage]; rfl)
      exact ⟨actions, t, answer, [], s, job, rfl, reached, at_stage, request_eq, origin⟩

theorem traced_of_run {instruments : Instruments} {counter nonce : Int}
    (reached : run (step cfg) (State.start instruments counter nonce) actions = some s) :
    Traced cfg (State.start instruments counter nonce) actions s := by
  refine run_history (fun past m a m' before traced taken => traced.step before taken) ?_ reached
  constructor
  · intro t job busy
    exact absurd busy (by simp [State.start, jobOf])
  · intro request told
    exact absurd told (by simp [State.start])

end LighterApi.Guarantees.CallOrigins

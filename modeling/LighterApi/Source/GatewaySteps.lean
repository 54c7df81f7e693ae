import LighterApi.Source.GatewayRun

/-!
What one step of the gateway can do, a constructor for each branch, with the guards
under which the branch is taken (`step_spec`), and the read-back lemmas of the state.
-/
namespace LighterApi.Source.GatewayRun
open LighterApi.Source.SendTx LighterApi.Source.Gateway

section Fields

variable (s : State) (t t' : Nat) (stage : Stage) (event : Event)

@[simp] theorem State.goto_threads : (s.goto t stage).threads t' =
    if t' = t then stage else s.threads t' := by
  simp [State.goto, Function.update_apply]

@[simp] theorem State.goto_maps : (s.goto t stage).maps = s.maps := rfl
@[simp] theorem State.goto_counter :
    (s.goto t stage).clientOrderCounter = s.clientOrderCounter := rfl
@[simp] theorem State.goto_nonces : (s.goto t stage).nonces = s.nonces := rfl
@[simp] theorem State.goto_txOwner : (s.goto t stage).txOwner = s.txOwner := rfl
@[simp] theorem State.goto_handler : (s.goto t stage).handler = s.handler := rfl
@[simp] theorem State.goto_trace : (s.goto t stage).trace = s.trace := rfl
@[simp] theorem State.log_maps : (s.log event).maps = s.maps := rfl
@[simp] theorem State.log_counter : (s.log event).clientOrderCounter = s.clientOrderCounter := rfl
@[simp] theorem State.log_nonces : (s.log event).nonces = s.nonces := rfl
@[simp] theorem State.log_txOwner : (s.log event).txOwner = s.txOwner := rfl
@[simp] theorem State.log_threads : (s.log event).threads = s.threads := rfl
@[simp] theorem State.log_handler : (s.log event).handler = s.handler := rfl
@[simp] theorem State.log_trace : (s.log event).trace = event :: s.trace := rfl

variable (job : Job) (failure : Failure)

/-- Recording a verdict changes nothing but the trace. -/
theorem noteReject_eq : noteReject s job failure = s ∨
    ∃ sub i, job = .submit sub i ∧ failure.isGateway = true ∧
      noteReject s job failure = s.log (.rejected i) := by
  cases job with
  | submit sub i =>
    cases gateway : failure.isGateway with
    | true => exact Or.inr ⟨sub, i, rfl, rfl, if_pos gateway⟩
    | false => exact Or.inl (if_neg (by simp [gateway]))
  | cancel id m o => exact Or.inl rfl

@[simp] theorem noteReject_maps : (noteReject s job failure).maps = s.maps := by
  rcases noteReject_eq s job failure with h | ⟨_, _, _, _, h⟩ <;> simp [h]

@[simp] theorem noteReject_counter :
    (noteReject s job failure).clientOrderCounter = s.clientOrderCounter := by
  rcases noteReject_eq s job failure with h | ⟨_, _, _, _, h⟩ <;> simp [h]

@[simp] theorem noteReject_nonces : (noteReject s job failure).nonces = s.nonces := by
  rcases noteReject_eq s job failure with h | ⟨_, _, _, _, h⟩ <;> simp [h]

@[simp] theorem noteReject_txOwner : (noteReject s job failure).txOwner = s.txOwner := by
  rcases noteReject_eq s job failure with h | ⟨_, _, _, _, h⟩ <;> simp [h]

@[simp] theorem noteReject_threads : (noteReject s job failure).threads = s.threads := by
  rcases noteReject_eq s job failure with h | ⟨_, _, _, _, h⟩ <;> simp [h]

@[simp] theorem noteReject_handler : (noteReject s job failure).handler = s.handler := by
  rcases noteReject_eq s job failure with h | ⟨_, _, _, _, h⟩ <;> simp [h]

end Fields

/-- An insertion in a trace that grew by one is the new one or an old one. -/
theorem inserted_cases {i j : Int} {rec rec' : OrderRec} {trace : List Event}
    (member : .inserted j rec ∈ Event.inserted i rec' :: trace) :
    (j = i ∧ rec = rec') ∨ .inserted j rec ∈ trace := by
  rcases List.mem_cons.mp member with new | old
  · exact Or.inl (Event.inserted.inj new)
  · exact Or.inr old

variable {cfg : Config}

/-- The calling thread that takes the step; none for the io thread and the reloads. -/
def Action.thread : Action → Option Nat
  | .submitPostOnlyLimit t .. | .submitReduceOnlyMarket t .. | .insert t | .cancel t .. | .lockTx t
  | .sign t _ | .send t _ | .resync t _ | .erase t | .finish t => some t
  | _ => none

/-- The branches of `step`. -/
inductive Step (cfg : Config) (s : State) : Action → State → Prop where
  | reload (instruments : Instruments) : Step cfg s (.reload instruments) { s with instruments }
  | quote (symbol : String) (quote : Quote) :
      Step cfg s (.quote symbol quote)
        { s with quotes := Function.update s.quotes symbol (some quote) }
  | refused {a : Action} {t : Nat} (id : String) (failure : Failure) (idle : s.threads t = .idle)
      (calls : a.thread = some t) :
      Step cfg s a (s.log (.submitReturned id none (some failure)))
  | allocated {a : Action} {t : Nat} (sub : Submission) (idle : s.threads t = .idle)
      (calls : a.thread = some t)
      (whole : 0 < llround cfg.lib (sub.qty *
        pow10i ((s.instruments.sizeDecimals sub.symbol).getD 0))) :
      Step cfg s a { s.goto t (.allocated sub s.clientOrderCounter) with
        clientOrderCounter := s.clientOrderCounter + 1 }
  | inserted {t : Nat} {sub : Submission} {i : Int} (at_stage : s.threads t = .allocated sub i) :
      Step cfg s (.insert t) { (s.log (.inserted i sub.record)).goto t (.waiting (.submit sub i)) with
        maps := s.maps.insertOrderRec i sub.record }
  | cancelReturned {t : Nat} {id symbol : String} (result : Except Failure Bool)
      (idle : s.threads t = .idle) :
      Step cfg s (.cancel t id symbol) (s.log (.cancelReturned id result))
  | cancelWaits {t : Nat} {id symbol : String} (marketId orderIndex : Int)
      (idle : s.threads t = .idle) :
      Step cfg s (.cancel t id symbol) (s.goto t (.waiting (.cancel id marketId orderIndex)))
  | lockedTx {t : Nat} {job : Job} (at_stage : s.threads t = .waiting job) (free : s.txOwner = none) :
      Step cfg s (.lockTx t) { s.goto t (.locked job) with txOwner := some t }
  | signed {t : Nat} {job : Job} (at_stage : s.threads t = .locked job) :
      Step cfg s (.sign t (.ok ()))
        ((s.log (.signing (job.signRequest s.nonces.nextNonce))).goto t
          (.signed job s.nonces.nextNonce))
  | signFailedSubmit {t : Nat} {sub : Submission} {i : Int} (what : String)
      (at_stage : s.threads t = .locked (.submit sub i)) :
      Step cfg s (.sign t (.error what))
        (((s.log (.signing (Job.signRequest (.submit sub i) s.nonces.nextNonce))).log
          (.rejected i)).goto t (.erasing sub i (signFailure what)))
  | signFailedCancel {t : Nat} {id : String} {m o : Int} (what : String)
      (at_stage : s.threads t = .locked (.cancel id m o)) :
      Step cfg s (.sign t (.error what))
        ((s.log (.signing (Job.signRequest (.cancel id m o) s.nonces.nextNonce))).goto t
          (.leaving (.cancel id m o) (.error (signFailure what))))
  | sent {t : Nat} {job : Job} {nonce : Int} {answer : Answer}
      (at_stage : s.threads t = .signed job nonce)
      (accepted : sendFailure cfg.lib job.name answer = none) :
      Step cfg s (.send t answer)
        { (s.log (.sent nonce)).goto t (.leaving job (.ok true)) with
          nonces := { s.nonces with nextNonce := s.nonces.nextNonce + 1 } }
  | sendFailed {t : Nat} {job : Job} {nonce : Int} {answer : Answer} (failure : Failure)
      (at_stage : s.threads t = .signed job nonce)
      (failed : sendFailure cfg.lib job.name answer = some failure) :
      Step cfg s (.send t answer)
        ((noteReject (s.log (.sent nonce)) job failure).goto t (.failed job failure))
  | resynced {t : Nat} {job : Job} {failure : Failure} (reply : Except String Int)
      (at_stage : s.threads t = .failed job failure) :
      Step cfg s (.resync t reply)
        { (s.log (.resynced reply)).goto t (afterResync job failure) with
          nonces := resyncNonce reply s.nonces }
  | erased {t : Nat} {sub : Submission} {i : Int} {failure : Failure}
      (at_stage : s.threads t = .erasing sub i failure) :
      Step cfg s (.erase t) { s.goto t (.leaving (.submit sub i) (.error failure)) with
        maps := s.maps.eraseOrderRec i sub.clientOrderId }
  | finished {t : Nat} {job : Job} {result : Except Failure Bool}
      (at_stage : s.threads t = .leaving job result) :
      Step cfg s (.finish t) { (s.log (returnEvent job result)).goto t .idle with txOwner := none }
  | delivered (msg : Json) (idle : s.handler = .idle) :
      Step cfg s (.deliver msg)
        { s with handler := if isOrderFeed msg then .orders (flattenOrders msg) else .idle }
  | loopEnded (at_end : s.handler = .orders []) : Step cfg s .takeNext { s with handler := .idle }
  | skipped {order : Json} {rest : List Json} (at_order : s.handler = .orders (order :: rest))
      (ignored : takeOrder cfg.lib s.maps order = none) :
      Step cfg s .takeNext { s with handler := .orders rest }
  | took {order : Json} {rest : List Json} {maps : OrderMaps} {t : Taken}
      (at_order : s.handler = .orders (order :: rest))
      (took : takeOrder cfg.lib s.maps order = some (maps, t)) :
      Step cfg s .takeNext { s.log (.accepted t.clientOrderIndex order) with
        maps, handler := .taken t rest }
  | priced {t : Taken} {rest : List Json} (at_taken : s.handler = .taken t rest) :
      Step cfg s .readPrice
        { s with handler := .priced t (eventPrice cfg.lib s.quotes t.symbol t.order) rest }
  | filled {t : Taken} {price : Rat} {rest : List Json} (at_priced : s.handler = .priced t price rest)
      (callback : cfg.fillCB = true) (new : 0 < t.newFill) :
      Step cfg s .emitFill { s.log (.fill t.clientOrderIndex (fillEvent cfg.lib t price)) with
        handler := .inFill t price rest }
  | fillSkipped {t : Taken} {price : Rat} {rest : List Json}
      (at_priced : s.handler = .priced t price rest)
      (none_due : ¬ (cfg.fillCB = true ∧ t.newFill > 0)) :
      Step cfg s .emitFill { s with handler := .filled t price rest }
  | fillReturned {t : Taken} {price : Rat} {rest : List Json} (throws : Bool)
      (at_fill : s.handler = .inFill t price rest) :
      Step cfg s (.fillReturns throws)
        { s with handler := if throws then .idle else .filled t price rest }
  | updated {t : Taken} {price : Rat} {rest : List Json} (at_filled : s.handler = .filled t price rest)
      (callback : cfg.orderUpdateCB = true) :
      Step cfg s .emitUpdate { s.log (.update t.clientOrderIndex (orderUpdate cfg.lib t price)) with
        handler := .inUpdate t rest }
  | updateSkipped {t : Taken} {price : Rat} {rest : List Json}
      (at_filled : s.handler = .filled t price rest) (unset : ¬ cfg.orderUpdateCB = true) :
      Step cfg s .emitUpdate { s with handler := .updated t rest }
  | updateReturned {t : Taken} {rest : List Json} (throws : Bool)
      (at_update : s.handler = .inUpdate t rest) :
      Step cfg s (.updateReturns throws)
        { s with handler := if throws then .idle else .updated t rest }
  | pruned {t : Taken} {rest : List Json} (at_updated : s.handler = .updated t rest)
      (terminal : isTerminalEvent t.order = true) :
      Step cfg s .prune { s with
        maps := s.maps.eraseOrderRec t.clientOrderIndex t.clientOrderId, handler := .orders rest }
  | kept {t : Taken} {rest : List Json} (at_updated : s.handler = .updated t rest)
      (open_order : ¬ isTerminalEvent t.order = true) :
      Step cfg s .prune { s with handler := .orders rest }

theorem scaleLimit_whole {lib : Externals} {inst : Instruments} {symbol : String} {qty price : Rat}
    {scaled : Scaled} (h : scaleLimit lib inst symbol qty price = .ok scaled) :
    0 < llround lib (qty * pow10i ((inst.sizeDecimals symbol).getD 0)) := by
  unfold scaleLimit at h
  split at h
  · exact absurd h (by simp)
  · dsimp only at h
    split at h
    · exact absurd h (by simp)
    · rename_i whole
      exact not_le.mp whole

theorem scaleMarket_whole {lib : Externals} {inst : Instruments} {quotes : QuoteCache}
    {symbol : String} {side : OrderSide} {qty : Rat} {scaled : Scaled}
    (h : scaleMarket lib inst quotes symbol side qty = .ok scaled) :
    0 < llround lib (qty * pow10i ((inst.sizeDecimals symbol).getD 0)) := by
  unfold scaleMarket at h
  split at h
  · exact absurd h (by simp)
  · dsimp only at h
    split at h
    · exact absurd h (by simp)
    · rename_i whole
      exact not_le.mp whole

theorem beginSubmit_spec {s s' : State} {a : Action} {t : Nat} {kind : SubmitKind} {id symbol : String}
    {side : OrderSide} {qty : Rat} {reduceOnly : Bool} {scaled : Except Failure Scaled}
    (calls : a.thread = some t)
    (whole : ∀ order, scaled = .ok order →
      0 < llround cfg.lib (qty * pow10i ((s.instruments.sizeDecimals symbol).getD 0)))
    (h : beginSubmit s t kind id symbol side qty reduceOnly scaled = some s') :
    Step cfg s a s' := by
  unfold beginSubmit at h
  split at h
  · rename_i idle
    rw [← Option.some.inj h]
    exact .refused id _ idle calls
  · rename_i order idle
    rw [← Option.some.inj h]
    exact .allocated ⟨kind, id, symbol, side, qty, reduceOnly, order⟩ idle calls (whole order rfl)
  · exact absurd h (by simp)

/-- Every step is one of the branches. -/
theorem step_spec {s s' : State} {a : Action} (h : step cfg s a = some s') : Step cfg s a s' := by
  cases a with
  | reload instruments => exact Option.some.inj h ▸ .reload instruments
  | quote symbol quote => exact Option.some.inj h ▸ .quote symbol quote
  | submitPostOnlyLimit t id symbol side qty price reduceOnly =>
    exact beginSubmit_spec rfl (fun _ => scaleLimit_whole) h
  | submitReduceOnlyMarket t id symbol side qty =>
    exact beginSubmit_spec rfl (fun _ => scaleMarket_whole) h
  | insert t =>
    simp only [step] at h
    split at h
    · rename_i at_stage
      exact Option.some.inj h ▸ .inserted at_stage
    · exact absurd h (by simp)
  | cancel t id symbol =>
    simp only [step, beginCancel] at h
    split at h
    · rename_i idle
      split at h
      · exact Option.some.inj h ▸ .cancelReturned _ idle
      · exact Option.some.inj h ▸ .cancelReturned _ idle
      · exact Option.some.inj h ▸ .cancelWaits _ _ idle
    · exact absurd h (by simp)
  | lockTx t =>
    simp only [step] at h
    split at h
    · rename_i at_stage free
      exact Option.some.inj h ▸ .lockedTx at_stage free
    · exact absurd h (by simp)
  | sign t answer =>
    simp only [step, signTx] at h
    split at h
    · rename_i job at_stage
      split at h
      · exact Option.some.inj h ▸ .signed at_stage
      · exact Option.some.inj h ▸ .signFailedSubmit _ at_stage
      · exact Option.some.inj h ▸ .signFailedCancel _ at_stage
    · exact absurd h (by simp)
  | send t answer =>
    simp only [step, sendTxStep] at h
    split at h
    · rename_i job at_stage
      split at h
      · rename_i accepted
        exact Option.some.inj h ▸ .sent at_stage accepted
      · rename_i failure failed
        exact Option.some.inj h ▸ .sendFailed failure at_stage failed
    · exact absurd h (by simp)
  | resync t reply =>
    simp only [step, resyncStep] at h
    split at h
    · rename_i at_stage
      exact Option.some.inj h ▸ .resynced reply at_stage
    · exact absurd h (by simp)
  | erase t =>
    simp only [step] at h
    split at h
    · rename_i at_stage
      exact Option.some.inj h ▸ .erased at_stage
    · exact absurd h (by simp)
  | finish t =>
    simp only [step] at h
    split at h
    · rename_i at_stage
      exact Option.some.inj h ▸ .finished at_stage
    · exact absurd h (by simp)
  | deliver msg =>
    simp only [step] at h
    split at h
    · rename_i idle
      exact Option.some.inj h ▸ .delivered msg idle
    · exact absurd h (by simp)
  | takeNext =>
    simp only [step, takeNextOrder] at h
    split at h
    · rename_i at_end
      exact Option.some.inj h ▸ .loopEnded at_end
    · rename_i at_order
      split at h
      · rename_i ignored
        exact Option.some.inj h ▸ .skipped at_order ignored
      · rename_i took
        exact Option.some.inj h ▸ .took at_order took
    · exact absurd h (by simp)
  | readPrice =>
    simp only [step] at h
    split at h
    · rename_i at_taken
      exact Option.some.inj h ▸ .priced at_taken
    · exact absurd h (by simp)
  | emitFill =>
    simp only [step] at h
    split at h
    · rename_i at_priced
      split at h
      · rename_i due
        exact Option.some.inj h ▸ .filled at_priced due.1 due.2
      · rename_i none_due
        exact Option.some.inj h ▸ .fillSkipped at_priced none_due
    · exact absurd h (by simp)
  | fillReturns throws =>
    simp only [step] at h
    split at h
    · rename_i at_fill
      exact Option.some.inj h ▸ .fillReturned throws at_fill
    · exact absurd h (by simp)
  | emitUpdate =>
    simp only [step] at h
    split at h
    · rename_i at_filled
      split at h
      · rename_i callback
        exact Option.some.inj h ▸ .updated at_filled callback
      · rename_i unset
        exact Option.some.inj h ▸ .updateSkipped at_filled unset
    · exact absurd h (by simp)
  | updateReturns throws =>
    simp only [step] at h
    split at h
    · rename_i at_update
      exact Option.some.inj h ▸ .updateReturned throws at_update
    · exact absurd h (by simp)
  | prune =>
    simp only [step] at h
    split at h
    · rename_i at_updated
      split at h
      · rename_i terminal
        exact Option.some.inj h ▸ .pruned at_updated terminal
      · rename_i open_order
        exact Option.some.inj h ▸ .kept at_updated open_order
    · exact absurd h (by simp)

/-- A step leaves the other calling threads where they are. -/
theorem step_threads_of_ne {s s' : State} {a : Action} {t : Nat} (h : step cfg s a = some s')
    (other : a.thread ≠ some t) : s'.threads t = s.threads t := by
  have stays : ∀ (s : State) {t' : Nat} {stage : Stage}, some t' ≠ some t →
      (s.goto t' stage).threads t = s.threads t := by
    intro s t' stage differs
    rw [State.goto_threads, if_neg]
    intro here
    exact differs (here ▸ rfl)
  cases step_spec h with
  | allocated sub idle calls whole => exact stays s (calls ▸ other)
  | inserted at_stage => exact stays (s.log _) other
  | cancelWaits marketId orderIndex idle => exact stays s other
  | lockedTx at_stage free => exact stays s other
  | signed at_stage => exact stays (s.log _) other
  | signFailedSubmit what at_stage => exact stays ((s.log _).log _) other
  | signFailedCancel what at_stage => exact stays (s.log _) other
  | sent at_stage accepted => exact stays (s.log _) other
  | sendFailed failure at_stage failed =>
    rw [stays (noteReject _ _ _) other, noteReject_threads]
    rfl
  | resynced reply at_stage => exact stays (s.log _) other
  | erased at_stage => exact stays s other
  | finished at_stage => exact stays (s.log _) other
  | _ => rfl

end LighterApi.Source.GatewayRun

import LighterApi.Guarantees.OrderIndices
import LighterApi.Library.TwoWay

/-!
# The order maps are mutually inverse

`ordersByIndex` and `clientIdToIndex` agree in both directions as long as a submit
inserts its record when its client id leads nowhere, and a record is erased when its
client id leads to that record or nowhere (`orderly`). The erasures go by client id alone,
so a resubmission made before the previous order is pruned loses its mapping
(`resubmit_unmaps`), and a cancel then reports a resting order as gone.
-/
namespace LighterApi.Guarantees.OrderMaps
open LighterApi.Library.Transition LighterApi.Library.TwoWay
open LighterApi.Source LighterApi.Source.SendTx LighterApi.Source.Gateway
open LighterApi.Source.GatewayRun
open LighterApi.Guarantees.OrderIndices

/-! ## The property -/

abbrev MapsInverse (maps : OrderMaps) : Prop :=
  Inverse OrderRec.clientOrderId maps.ordersByIndex maps.clientIdToIndex

/-- The order under the index has had a definitive reject or a terminal event. -/
def Dead (trace : List Event) (i : Int) : Prop :=
  .rejected i ∈ trace ∨ ∃ order, .accepted i order ∈ trace ∧ isTerminalEvent order = true

/-- Orders that are not dead have a record, and `cancel` does not miss it. -/
def CancelFinds (s : State) : Prop :=
  ∀ i rec, .inserted i rec ∈ s.trace → ¬ Dead s.trace i →
    (∃ r, s.maps.ordersByIndex i = some r) ∧ cancelTarget s.maps rec.clientOrderId ≠ .ok none

/-- The client id leads to the index or nowhere. -/
def leadsOnlyTo (maps : OrderMaps) (id : String) (i : Int) : Bool :=
  maps.clientIdToIndex id == none || maps.clientIdToIndex id == some i

/-- An insertion meets an unused client id, and an erasure a client id that leads to
the erased record or nowhere. -/
def orderly (s : State) : Action → Bool
  | .insert t =>
    match s.threads t with
    | .allocated sub _ => s.maps.clientIdToIndex sub.clientOrderId == none
    | _ => true
  | .erase t =>
    match s.threads t with
    | .erasing sub i _ => leadsOnlyTo s.maps sub.clientOrderId i
    | _ => true
  | .prune =>
    match s.handler with
    | .updated t _ => !isTerminalEvent t.order ||
        leadsOnlyTo s.maps t.clientOrderId t.clientOrderIndex
    | _ => true
  | _ => true

/-- Every step of the run is orderly. -/
abbrev Orderly (cfg : Config) : State → List Action → Prop :=
  Meets (step cfg) fun s a => orderly s a = true

/-! ## Every orderly step keeps it -/

variable {cfg : Config} {s s' : State} {a : Action}

/-- What is erased is the order of the call or of the event, dead, under its own id. -/
theorem erases_spec {i : Int} {id : String} (carried : Carried s) (owner : Erases s a i id) :
    Dead s.trace i ∧ ∃ rec, .inserted i rec ∈ s.trace ∧ rec.clientOrderId = id := by
  rcases owner with ⟨t, sub, failure, _, at_stage, rfl⟩ | ⟨t, rest, _, at_updated, terminal, rfl, rfl⟩
  · have ok : StageOk s.trace (.erasing sub i failure) := at_stage ▸ carried.stages t
    exact ⟨Or.inl ok.2, sub.record, ok.1, rfl⟩
  · have ok : TakenOk s.trace t := by
      have h := carried.handler
      rw [at_updated] at h
      exact h
    obtain ⟨accepted, rec, inserted, id_eq⟩ := ok
    exact ⟨Or.inr ⟨t.order, accepted, terminal⟩, rec, inserted, id_eq.symm⟩

/-- An orderly erasure finds the id leading to the erased record or nowhere. -/
theorem erases_own {i : Int} {id : String} (owner : Erases s a i id) (in_order : orderly s a = true) :
    ∀ j, s.maps.clientIdToIndex id = some j → j = i := by
  have own : leadsOnlyTo s.maps id i = true := by
    rcases owner with
      ⟨t, sub, failure, rfl, at_stage, rfl⟩ | ⟨t, rest, rfl, at_updated, terminal, rfl, rfl⟩
    · simpa only [orderly, at_stage] using in_order
    · simpa only [orderly, at_updated, terminal, Bool.not_true, Bool.false_or] using in_order
  intro j mapped
  rcases Bool.or_eq_true_iff.mp own with nowhere | here
  · rw [eq_of_beq nowhere] at mapped
    exact absurd mapped (by simp)
  · rw [eq_of_beq here] at mapped
    exact (Option.some.inj mapped).symm

theorem mapsInverse_step (indexed : Indexed s) (carried : Carried s) (h : MapsInverse s.maps)
    (in_order : orderly s a = true) (taken : step cfg s a = some s') : MapsInverse s'.maps := by
  cases step_kind taken with
  | plain plain => exact plain.maps ▸ h
  | allocate t sub whole => exact h
  | insert at_stage =>
    rename_i t sub i
    have fresh : s.maps.ordersByIndex i = none := by
      rw [Option.eq_none_iff_forall_ne_some]
      intro rec stored
      obtain ⟨rec', inserted, _⟩ := indexed.stored i rec stored
      exact indexed.alloc_new t sub i at_stage rec' inserted
    have unused : s.maps.clientIdToIndex sub.clientOrderId = none := by
      simpa only [orderly, at_stage, beq_iff_eq] using in_order
    exact (h.insert_iff fresh sub.record).mpr unused
  | accept at_order took =>
    obtain ⟨rec, rec', stored, rfl, same, _⟩ := takeOrder_spec took
    exact h.set stored same.1
  | pay at_priced callback new => exact h
  | erase owner plain =>
    rename_i i id
    obtain ⟨_, rec, inserted, id_eq⟩ := erases_spec carried owner
    have named : ∀ r, s.maps.ordersByIndex i = some r → r.clientOrderId = id := by
      intro r stored
      obtain ⟨rec', inserted', same⟩ := indexed.stored i r stored
      rw [same.1, indexed.once i rec' rec inserted' inserted, id_eq]
    rw [plain.maps]
    exact (h.erase_iff named).mpr (erases_own owner in_order)

/-! ## Records last until the order is dead -/

def Stored (s : State) : Prop :=
  ∀ i rec, .inserted i rec ∈ s.trace → ¬ Dead s.trace i →
    ∃ r, s.maps.ordersByIndex i = some r ∧ r.clientOrderId = rec.clientOrderId

theorem Dead.mono {trace trace' : List Event} (grows : ∀ e ∈ trace, e ∈ trace') {i : Int}
    (dead : Dead trace i) : Dead trace' i := by
  rcases dead with rejected | ⟨order, accepted, terminal⟩
  · exact Or.inl (grows _ rejected)
  · exact Or.inr ⟨order, grows _ accepted, terminal⟩

theorem stored_step (indexed : Indexed s) (carried : Carried s) (h : Stored s) (taken : step cfg s a = some s') :
    Stored s' := by
  have grows := step_grows taken
  intro i rec inserted alive
  have alive_before : ¬ Dead s.trace i := fun dead => alive (dead.mono grows)
  cases step_kind taken with
  | plain plain =>
    rw [plain.maps]
    exact h i rec (plain.old inserted id) alive_before
  | allocate t sub whole => exact h i rec inserted alive_before
  | insert at_stage =>
    rename_i t sub j
    rw [OrderMaps.insert_ordersByIndex]
    rcases List.mem_cons.mp inserted with new | old
    · obtain ⟨rfl, rfl⟩ := Event.inserted.inj new
      exact ⟨sub.record, if_pos rfl, rfl⟩
    · have other : i ≠ j := by
        intro here
        exact indexed.alloc_new t sub j at_stage rec (here ▸ old)
      rw [if_neg other]
      exact h i rec old alive_before
  | accept at_order took =>
    obtain ⟨r, r', stored, rfl, same, _⟩ := takeOrder_spec took
    obtain ⟨r₀, stored₀, id_eq⟩ := h i rec (List.mem_of_ne_of_mem (by simp) inserted) alive_before
    rw [OrderMaps.set_ordersByIndex]
    split
    · rename_i here
      rw [here, stored] at stored₀
      exact ⟨r', rfl, same.1.trans (Option.some.inj stored₀ ▸ id_eq)⟩
    · exact ⟨r₀, stored₀, id_eq⟩
  | pay at_priced callback new =>
    exact h i rec (List.mem_of_ne_of_mem (by simp) inserted) alive_before
  | erase owner plain =>
    rename_i j name
    obtain ⟨dead, _⟩ := erases_spec carried owner
    rw [plain.maps, OrderMaps.erase_ordersByIndex, if_neg]
    · exact h i rec (plain.old inserted id) alive_before
    · intro here
      exact alive_before (here ▸ dead)

/-- A live order is mapped, so `cancel` finds its record. -/
theorem cancelFinds (inverse : MapsInverse s.maps) (stored : Stored s) : CancelFinds s := by
  intro i rec inserted alive
  obtain ⟨r, record, id_eq⟩ := stored i rec inserted alive
  have mapped := inverse.mapped i r record
  rw [id_eq] at mapped
  refine ⟨⟨r, record⟩, ?_⟩
  unfold cancelTarget
  rw [mapped]
  dsimp only
  rw [record]
  dsimp only
  split <;> simp

/-- In every run of orderly steps the maps are mutually inverse in the state reached, and
`cancel` finds every order that is not dead. -/
theorem maps_inverse_of_orderly {instruments : Instruments} {counter nonce : Int}
    {actions : List Action}
    (in_order : Orderly cfg (State.start instruments counter nonce) actions)
    (reached : run (step cfg) (State.start instruments counter nonce) actions = some s) :
    MapsInverse s.maps ∧ CancelFinds s := by
  obtain ⟨_, _, inverse, stored⟩ : Indexed s ∧ Carried s ∧ MapsInverse s.maps ∧ Stored s := by
    apply run_invariant_of_meets
      (I := fun s => Indexed s ∧ Carried s ∧ MapsInverse s.maps ∧ Stored s) _ _ in_order reached
    · intro s a s' ⟨indexed, carried, inverse, stored⟩ in_order taken
      exact ⟨indexed.step taken, carried.step indexed taken,
        mapsInverse_step indexed carried inverse in_order taken,
        stored_step indexed carried stored taken⟩
    · exact ⟨indexed_start instruments counter nonce, carried_start instruments counter nonce,
        inverse_empty, fun _ _ inserted => absurd inserted List.not_mem_nil⟩
  exact ⟨inverse, cancelFinds inverse stored⟩

/-- The client id of an order that was filled and pruned is used again. -/
def reuseRun : List Action :=
  submitted 0 "x" ++ [.deliver (ordersJson [orderJson 1 "filled" 1])] ++ handled true ++
    [.takeNext] ++ submitted 0 "x"

theorem maps_inverse_of_orderly_sample : ∃ s,
    run (step sampleConfig) (State.start sampleInstruments 1 5) reuseRun = some s ∧
      s.maps.clientIdToIndex "x" = some 2 ∧ MapsInverse s.maps ∧ CancelFinds s := by
  have in_order : Orderly sampleConfig (State.start sampleInstruments 1 5) reuseRun := by
    decide +kernel
  obtain ⟨s, reached, mapped⟩ : ∃ s,
      run (step sampleConfig) (State.start sampleInstruments 1 5) reuseRun = some s ∧
        s.maps.clientIdToIndex "x" = some 2 :=
    exists_run (by decide +kernel)
  exact ⟨s, reached, mapped, maps_inverse_of_orderly in_order reached⟩

/-! ## A disciplined caller breaks it -/

/-- The callers were told that the order under the index is dead: a terminal update, or a
submit that threw a `GatewayError`. -/
def toldDead (trace : List Event) (i : Int) : Bool :=
  trace.any fun
    | .update j update => j == i && update.state.isTerminal
    | .submitReturned _ (some j) (some failure) => j == i && failure.isGateway
    | _ => false

/-- Every order inserted under the client id was told dead. -/
def allToldDead (trace : List Event) (id : String) : Bool :=
  trace.all fun
    | .inserted i rec => rec.clientOrderId != id || toldDead trace i
    | _ => true

/-- A client id is reused only once every earlier order under it was told dead. -/
def Disciplined (s : State) : Action → Prop
  | .submitPostOnlyLimit _ id .. | .submitReduceOnlyMarket _ id .. =>
    allToldDead s.trace id = true ∧
      ∀ t sub i, s.threads t = .allocated sub i → sub.clientOrderId ≠ id
  | _ => True

/-- The thread is inside a submit. -/
def Submitting : Stage → Prop
  | .idle => False
  | .allocated _ _ | .erasing _ _ _ => True
  | .waiting job | .locked job | .signed job _ | .failed job _ | .leaving job _ =>
    ∃ sub i, job = .submit sub i

/-- No submit is in flight and no message is being handled. -/
def Quiet (s : State) : Prop := (∀ t, ¬ Submitting (s.threads t)) ∧ s.handler = .idle

/-- The property holds in every quiet state that disciplined callers can reach. -/
def WhenQuiet (P : State → Prop) : Prop :=
  ∀ (cfg : Config) (instruments : Instruments) (counter nonce : Int) (actions : List Action)
    (s : State), Meets (step cfg) Disciplined (State.start instruments counter nonce) actions →
    run (step cfg) (State.start instruments counter nonce) actions = some s → Quiet s → P s

/-- The update callback is told that order 1 is filled and resubmits under its client id;
the prune that follows the callback takes the mapping of order 2. -/
def resubmitRun : List Action :=
  submitted 0 "x" ++ [.deliver (ordersJson [orderJson 1 "filled" 1]), .takeNext, .readPrice,
    .emitFill, .fillReturns false, .emitUpdate] ++ submitted 0 "x" ++
    [.updateReturns false, .prune, .takeNext]

def isIdle : Stage → Bool
  | .idle => true
  | _ => false

theorem eq_idle {stage : Stage} (h : isIdle stage = true) : stage = .idle := by
  cases stage with
  | idle => rfl
  | _ => exact absurd h (by simp [isIdle])

/-- Only thread 0 calls, one call at a time, and it reuses only client ids told dead. -/
def oneCaller (s : State) (a : Action) : Bool :=
  (a.thread == none || a.thread == some 0) &&
    match a with
    | .submitPostOnlyLimit _ id .. | .submitReduceOnlyMarket _ id .. =>
      allToldDead s.trace id && isIdle (s.threads 0)
    | _ => true

theorem disciplined_of_oneCaller (others : ∀ t, t ≠ 0 → s.threads t = .idle)
    (one : oneCaller s a = true) : Disciplined s a := by
  have all_idle : isIdle (s.threads 0) = true → ∀ t, s.threads t = .idle := by
    intro here t
    by_cases zero : t = 0
    · exact zero ▸ eq_idle here
    · exact others t zero
  unfold oneCaller at one
  cases a with
  | submitPostOnlyLimit t id symbol side qty price reduceOnly =>
    simp only [Bool.and_eq_true] at one
    exact ⟨one.2.1, fun t sub i at_stage => absurd (all_idle one.2.2 t ▸ at_stage) (by simp)⟩
  | submitReduceOnlyMarket t id symbol side qty =>
    simp only [Bool.and_eq_true] at one
    exact ⟨one.2.1, fun t sub i at_stage => absurd (all_idle one.2.2 t ▸ at_stage) (by simp)⟩
  | _ => exact trivial

theorem others_idle_step (others : ∀ t, t ≠ 0 → s.threads t = .idle) (one : oneCaller s a = true)
    (taken : step cfg s a = some s') : ∀ t, t ≠ 0 → s'.threads t = .idle := by
  intro t other
  rw [step_threads_of_ne taken, others t other]
  have caller := (Bool.and_eq_true_iff.mp one).1
  rcases Bool.or_eq_true_iff.mp caller with none_calls | zero_calls
  · rw [eq_of_beq none_calls]
    simp
  · rw [eq_of_beq zero_calls]
    intro same
    exact other (Option.some.inj same).symm

/-- What is left of `resubmitRun`. -/
structure Unmapped (s : State) : Prop where
  still : isIdle (s.threads 0) = true ∧ (s.handler matches .idle) = true
  unmapped : s.maps.clientIdToIndex "x" = none
  stored : (s.maps.ordersByIndex 2).any (fun rec => rec.clientOrderId == "x") = true
  inserted : s.trace.any (fun | .inserted 2 rec => rec.clientOrderId == "x" | _ => false) = true
  alive : s.trace.all (fun | .rejected 2 => false | .accepted 2 _ => false | _ => true) = true

instance : DecidablePred Unmapped := fun _ =>
  decidable_of_iff (_ ∧ _ ∧ _ ∧ _ ∧ _)
    ⟨fun ⟨a, b, c, d, e⟩ => ⟨a, b, c, d, e⟩, fun ⟨a, b, c, d, e⟩ => ⟨a, b, c, d, e⟩⟩

/-- A resting order has a record and no mapping, and `cancel` finds no record of it. -/
theorem resubmit_unmaps :
    ¬ WhenQuiet (fun s => MapsInverse s.maps) ∧ ¬ WhenQuiet CancelFinds := by
  have one : Meets (step sampleConfig) (fun s a => oneCaller s a = true)
      (State.start sampleInstruments 1 5) resubmitRun := by
    decide +kernel
  obtain ⟨s, reached, left⟩ : ∃ s,
      run (step sampleConfig) (State.start sampleInstruments 1 5) resubmitRun = some s ∧ Unmapped s :=
    exists_run (by decide +kernel)
  have disciplined := one.of_invariant (I := fun s => ∀ t, t ≠ 0 → s.threads t = .idle)
    (fun _ _ _ others one taken => others_idle_step others one taken)
    (fun _ _ others one => disciplined_of_oneCaller others one) (fun _ _ => rfl)
  have others := run_invariant_of_meets (I := fun s => ∀ t, t ≠ 0 → s.threads t = .idle)
    (fun _ _ _ others one taken => others_idle_step others one taken) (fun _ _ => rfl) one reached
  have quiet : Quiet s := by
    constructor
    · intro t inside
      have idle : s.threads t = .idle := by
        by_cases zero : t = 0
        · exact zero ▸ eq_idle left.still.1
        · exact others t zero
      rw [idle] at inside
      exact inside
    · have still := left.still.2
      cases handler : s.handler with
      | idle => rfl
      | _ => rw [handler] at still; exact absurd still (by simp)
  constructor
  · intro claim
    obtain ⟨rec, stored, id_eq⟩ := (Option.any_eq_true _ _).mp left.stored
    have mapped := (claim _ _ _ _ _ s disciplined reached quiet).mapped 2 rec stored
    rw [eq_of_beq id_eq, left.unmapped] at mapped
    exact absurd mapped (by simp)
  · intro claim
    obtain ⟨e, member, id_eq⟩ := List.any_eq_true.mp left.inserted
    have alive : ¬ Dead s.trace 2 := by
      rintro (rejected | ⟨order, accepted, _⟩)
      · exact absurd (List.all_eq_true.mp left.alive _ rejected) (by simp)
      · exact absurd (List.all_eq_true.mp left.alive _ accepted) (by simp)
    split at id_eq
    · rename_i rec
      have found := (claim _ _ _ _ _ s disciplined reached quiet 2 rec member alive).2
      rw [eq_of_beq id_eq] at found
      apply found
      unfold cancelTarget
      rw [left.unmapped]
    · exact absurd id_eq (by simp)

end LighterApi.Guarantees.OrderMaps

import LighterApi.Guarantees.CallOrigins
import LighterApi.Guarantees.OrderIndices

/-!
# The venue index of an order is learned once

The first accepted event that names a venue index for an order fixes it: `learned` reads
it off the trace, and a stored record holds exactly that (`Learns`). So it never changes,
and an event that names another one is passed over. A signing step gives the signer the
target its own call looked up in the record, which is the learned index and the market of
the order that call named (`SignsOwn`).
-/
namespace LighterApi.Guarantees.VenueIndex
open LighterApi.Library.Transition
open LighterApi.Source LighterApi.Source.SendTx LighterApi.Source.Gateway
open LighterApi.Source.GatewayRun
open LighterApi.Guarantees.OrderIndices LighterApi.Guarantees.CallOrigins

/-- The venue index an accepted event of order `i` names. -/
def venueIndex (i : Int) : Event → Option Int
  | .accepted j order =>
    if j = i ∧ 0 ≤ readInt order "order_index" then some (readInt order "order_index") else none
  | _ => none

/-- The first venue index named for order `i`. -/
def learned (i : Int) : List Event → Option Int
  | [] => none
  | e :: earlier => (learned i earlier).or (venueIndex i e)

/-! ## What the trace tells -/

section Learned

variable {i v : Int} {trace : List Event}

theorem learned_later (later : List Event) (first : learned i trace = some v) :
    learned i (later ++ trace) = some v := by
  induction later with
  | nil => exact first
  | cons e rest ih => rw [List.cons_append, learned, ih, Option.some_or]

theorem learned_aside {e : Event} (aside : venueIndex i e = none) :
    learned i (e :: trace) = learned i trace := by
  rw [learned, aside, Option.or_none]

theorem learned_asides {events : List Event} (asides : ∀ e ∈ events, venueIndex i e = none) :
    learned i (events ++ trace) = learned i trace := by
  induction events with
  | nil => rfl
  | cons e rest ih =>
    rw [List.cons_append, learned_aside (asides e List.mem_cons_self)]
    exact ih fun e' member => asides e' (List.mem_cons_of_mem e member)

theorem venueIndex_nonneg {e : Event} (named : venueIndex i e = some v) : 0 ≤ v := by
  cases e with
  | accepted j order =>
    simp only [venueIndex] at named
    split at named
    · rename_i here
      exact Option.some.inj named ▸ here.2
    · exact absurd named (by simp)
  | _ => exact absurd named (by simp [venueIndex])

theorem learned_nonneg (first : learned i trace = some v) : 0 ≤ v := by
  induction trace with
  | nil => exact absurd first (by simp [learned])
  | cons e earlier ih =>
    rw [learned] at first
    rcases Option.or_eq_some_iff.mp first with before | ⟨_, here⟩
    · exact ih before
    · exact venueIndex_nonneg here

theorem learned_eq_none (unknown : ∀ order, .accepted i order ∉ trace) : learned i trace = none := by
  have asides : ∀ e ∈ trace, venueIndex i e = none := by
    intro e member
    cases e with
    | accepted j order =>
      apply if_neg
      rintro ⟨rfl, _⟩
      exact unknown order member
    | _ => rfl
  rw [← List.append_nil trace, learned_asides asides]
  rfl

theorem venueIndex_neutral {e : Event} (neutral : Neutral e) : venueIndex i e = none := by
  cases e with
  | accepted j order => exact absurd neutral id
  | _ => rfl

end Learned

/-! ## The locked section of the handler -/

theorem bindOrderIndex_orderIndex {rec bound : OrderRec} {w : Int}
    (h : bindOrderIndex rec w = some bound) :
    (w < 0 ∧ bound.orderIndex = rec.orderIndex) ∨
      (0 ≤ w ∧ bound.orderIndex = w ∧ (rec.orderIndex < 0 ∨ rec.orderIndex = w)) := by
  unfold bindOrderIndex at h
  split at h
  · rename_i unnamed
    exact Or.inl ⟨unnamed, Option.some.inj h ▸ rfl⟩
  · rename_i names
    refine Or.inr ⟨not_lt.mp names, ?_⟩
    split at h
    · rename_i unbound
      exact ⟨Option.some.inj h ▸ rfl, Or.inl unbound⟩
    · split at h
      · exact absurd h (by simp)
      · rename_i same
        obtain rfl := Option.some.inj h
        exact ⟨not_not.mp same, Or.inr (not_not.mp same)⟩

theorem creditFill_orderIndex (rec : OrderRec) (cumFilled : Rat) :
    (creditFill rec cumFilled).1.orderIndex = rec.orderIndex := by
  unfold creditFill
  split <;> rfl

/-- An accepted event leaves the index of its record, or names the index it has from then on. -/
theorem takeOrder_binds {lib : Externals} {maps maps' : OrderMaps} {order : Json} {t : Taken}
    (took : takeOrder lib maps order = some (maps', t)) :
    ∃ rec rec', maps.ordersByIndex t.clientOrderIndex = some rec ∧
      maps' = maps.setOrderRec t.clientOrderIndex rec' ∧
      ((readInt order "order_index" < 0 ∧ rec'.orderIndex = rec.orderIndex) ∨
        (0 ≤ readInt order "order_index" ∧ rec'.orderIndex = readInt order "order_index" ∧
          (rec.orderIndex < 0 ∨ rec.orderIndex = readInt order "order_index"))) := by
  unfold takeOrder at took
  dsimp only at took
  split at took
  · exact absurd took (by simp)
  · split at took
    · exact absurd took (by simp)
    · rename_i rec stored
      split at took
      · exact absurd took (by simp)
      · rename_i bound bound_eq
        simp only [Option.some.injEq, Prod.mk.injEq] at took
        obtain ⟨maps_eq, rfl⟩ := took
        refine ⟨rec, _, stored, maps_eq.symm, ?_⟩
        rw [creditFill_orderIndex]
        exact bindOrderIndex_orderIndex bound_eq

/-- An event that names another index than the record's is passed over. -/
theorem takeOrder_foreign {lib : Externals} {maps : OrderMaps} {order : Json}
    (names : 0 ≤ readInt order "order_index")
    (foreign : ∀ rec, maps.ordersByIndex (readInt order "client_order_index") = some rec →
      0 ≤ rec.orderIndex ∧ rec.orderIndex ≠ readInt order "order_index") :
    takeOrder lib maps order = none := by
  unfold takeOrder
  dsimp only
  split
  · rfl
  · split
    · rfl
    · rename_i rec stored
      obtain ⟨bound, differs⟩ := foreign rec stored
      have ignored : bindOrderIndex rec (readInt order "order_index") = none := by
        unfold bindOrderIndex
        rw [if_neg (not_lt.mpr names), if_neg (not_lt.mpr bound), if_pos differs]
      rw [ignored]

/-! ## The records hold what the trace tells -/

variable {cfg : Config} {s s' : State}

structure Learns (s : State) : Prop where
  index : ∀ i rec, s.maps.ordersByIndex i = some rec →
    rec.orderIndex = (learned i s.trace).getD (-1)
  named : ∀ id i, s.maps.clientIdToIndex id = some i →
    ∃ rec, .inserted i rec ∈ s.trace ∧ rec.clientOrderId = id

theorem Learns.of_plain (h : Learns s) (plain : Plain cfg s s') : Learns s' := by
  obtain ⟨events, trace_eq, neutral⟩ := plain.events
  constructor
  · intro i rec stored
    rw [plain.maps] at stored
    rw [trace_eq, learned_asides fun e member => venueIndex_neutral (neutral e member)]
    exact h.index i rec stored
  · intro id i leads
    rw [plain.maps] at leads
    obtain ⟨rec, inserted, same⟩ := h.named id i leads
    exact ⟨rec, plain.grows _ inserted, same⟩

theorem Learns.erase (h : Learns s) (i : Int) (id : String) :
    Learns { s with maps := s.maps.eraseOrderRec i id } := by
  constructor
  · intro j rec stored
    exact h.index j rec (OrderMaps.stored_of_erase stored)
  · intro id' j leads
    rw [OrderMaps.erase_clientIdToIndex] at leads
    split at leads
    · exact absurd leads (by simp)
    · exact h.named id' j leads

/-- Nothing has been told of a new order. -/
theorem Learns.insert (h : Learns s) (indexed : Indexed s) {t : Nat} {sub : Submission} {i : Int}
    (at_stage : s.threads t = .allocated sub i) :
    Learns { (s.log (.inserted i sub.record)).goto t (.waiting (.submit sub i)) with
      maps := s.maps.insertOrderRec i sub.record } := by
  have unknown : learned i s.trace = none := by
    apply learned_eq_none
    intro order accepted
    obtain ⟨rec, inserted⟩ := indexed.accepted i order accepted
    exact indexed.alloc_new t sub i at_stage rec inserted
  constructor
  · intro j rec stored
    rw [State.goto_trace, State.log_trace, learned_aside rfl]
    rw [OrderMaps.insert_ordersByIndex] at stored
    split at stored
    · rename_i here
      rw [here, unknown, ← Option.some.inj stored]
      rfl
    · exact h.index j rec stored
  · intro id j leads
    rw [OrderMaps.insert_clientIdToIndex] at leads
    split at leads
    · rename_i here
      rw [← Option.some.inj leads, here]
      exact ⟨sub.record, List.mem_cons_self, rfl⟩
    · obtain ⟨rec, inserted, names⟩ := h.named id j leads
      exact ⟨rec, List.mem_cons_of_mem _ inserted, names⟩

theorem Learns.accept (h : Learns s) {order : Json} {rest : List Json} {maps : OrderMaps} {t : Taken}
    (took : takeOrder cfg.lib s.maps order = some (maps, t)) :
    Learns { s.log (.accepted t.clientOrderIndex order) with maps, handler := .taken t rest } := by
  obtain ⟨rec, rec', stored, rfl, binds⟩ := takeOrder_binds took
  constructor
  · intro j now is_stored
    rw [OrderMaps.set_ordersByIndex] at is_stored
    split at is_stored
    · rename_i here
      rw [← Option.some.inj is_stored, here, State.log_trace, learned]
      have before := h.index _ rec stored
      cases known : learned t.clientOrderIndex s.trace with
      | some v =>
        rw [known] at before
        change rec.orderIndex = v at before
        have nonneg := learned_nonneg known
        change rec'.orderIndex = v
        omega
      | none =>
        rw [known] at before
        change rec.orderIndex = -1 at before
        rcases binds with ⟨unnamed, kept⟩ | ⟨names, bound, _⟩
        · have silent : venueIndex t.clientOrderIndex (.accepted t.clientOrderIndex order) = none :=
            if_neg fun both => absurd both.2 (not_le.mpr unnamed)
          rw [silent, kept, before]
          rfl
        · have tells : venueIndex t.clientOrderIndex (.accepted t.clientOrderIndex order) =
              some (readInt order "order_index") := if_pos ⟨rfl, names⟩
          rw [tells, bound]
          rfl
    · rename_i other
      have aside : venueIndex j (.accepted t.clientOrderIndex order) = none :=
        if_neg fun both => other both.1.symm
      rw [State.log_trace, learned_aside aside]
      exact h.index j now is_stored
  · intro id j leads
    obtain ⟨first, inserted, names⟩ := h.named id j leads
    exact ⟨first, List.mem_cons_of_mem _ inserted, names⟩

/-- The step lemma. -/
theorem Learns.step {a : Action} (indexed : Indexed s) (h : Learns s)
    (taken : step cfg s a = some s') : Learns s' := by
  cases step_kind taken with
  | plain plain => exact h.of_plain plain
  | allocate t sub whole => exact ⟨h.index, h.named⟩
  | insert at_stage => exact h.insert indexed at_stage
  | accept at_order took => exact h.accept took
  | pay at_priced callback new =>
    constructor
    · intro i rec stored
      rw [State.log_trace, learned_aside rfl]
      exact h.index i rec stored
    · intro id i leads
      obtain ⟨rec, inserted, names⟩ := h.named id i leads
      exact ⟨rec, List.mem_cons_of_mem _ inserted, names⟩
  | erase owner plain => exact (h.erase _ _).of_plain plain

theorem learns_of_run {instruments : Instruments} {counter nonce : Int} {actions : List Action}
    (reached : run (step cfg) (State.start instruments counter nonce) actions = some s) :
    Indexed s ∧ Learns s := by
  refine run_invariant (I := fun s => Indexed s ∧ Learns s) ?_
    ⟨indexed_start instruments counter nonce, ?_⟩ reached
  · intro s a s' before taken
    exact ⟨before.1.step taken, before.2.step before.1 taken⟩
  · constructor <;> simp [State.start, OrderMaps.empty]

/-- A step adds to what is recorded. -/
theorem step_extends {a : Action} (taken : step cfg s a = some s') : s.trace <:+ s'.trace := by
  cases step_kind taken with
  | plain plain | erase _ plain =>
    obtain ⟨events, trace_eq, _⟩ := plain.events
    exact ⟨events, trace_eq.symm⟩
  | allocate t sub whole => exact List.suffix_rfl
  | insert at_stage => exact List.suffix_cons _ _
  | accept at_order took => exact List.suffix_cons _ _
  | pay at_priced callback new => exact List.suffix_cons _ _

theorem learned_run {actions : List Action} {i v : Int} (first : learned i s.trace = some v)
    (reached : run (step cfg) s actions = some s') : learned i s'.trace = some v := by
  refine run_invariant (I := fun s => learned i s.trace = some v) ?_ first reached
  intro s a s' known taken
  obtain ⟨events, trace_eq⟩ := step_extends taken
  exact trace_eq ▸ learned_later events known

/-- Order `i` has venue index `v` here: its record holds it, and an event that names
another one only moves the loop on. -/
structure Fixed (cfg : Config) (s : State) (i v : Int) : Prop where
  holds : ∀ rec, s.maps.ordersByIndex i = some rec → rec.orderIndex = v
  inert : ∀ order rest, s.handler = .orders (order :: rest) →
    readInt order "client_order_index" = i → 0 ≤ readInt order "order_index" →
    readInt order "order_index" ≠ v → step cfg s .takeNext = some { s with handler := .orders rest }

theorem Learns.fixed (h : Learns s) {i v : Int} (first : learned i s.trace = some v) :
    Fixed cfg s i v := by
  have holds : ∀ rec, s.maps.ordersByIndex i = some rec → rec.orderIndex = v := by
    intro rec stored
    rw [h.index i rec stored, first]
    rfl
  refine ⟨holds, ?_⟩
  intro order rest at_order here names differs
  have ignored : takeOrder cfg.lib s.maps order = none := by
    apply takeOrder_foreign names
    intro rec stored
    rw [here] at stored
    rw [holds rec stored]
    exact ⟨learned_nonneg first, differs.symm⟩
  simp only [GatewayRun.step, takeNextOrder, at_order, ignored]

/-! ## Cancels -/

theorem cancelTarget_spec {maps : OrderMaps} {id : String} {marketId orderIndex : Int}
    (target : cancelTarget maps id = .ok (some (marketId, orderIndex))) :
    ∃ i rec, maps.clientIdToIndex id = some i ∧ maps.ordersByIndex i = some rec ∧
      0 ≤ rec.orderIndex ∧ marketId = rec.marketId ∧ orderIndex = rec.orderIndex := by
  unfold cancelTarget at target
  split at target
  · exact absurd target (by simp)
  · rename_i i leads
    split at target
    · exact absurd target (by simp)
    · rename_i rec stored
      split at target
      · exact absurd target (by simp)
      · rename_i bound
        simp only [Except.ok.injEq, Option.some.injEq, Prod.mk.injEq] at target
        exact ⟨i, rec, leads, stored, not_lt.mp bound, target.1.symm, target.2.symm⟩

/-- The cancel call thread `t` is in found the order its client id named, and these are that
order's market and the venue index learned for it. -/
def OwnCancel (cfg : Config) (first : State) (past : List Action) (t : Nat)
    (marketId orderIndex : Int) : Prop :=
  ∃ before id symbol middle s i rec,
    past = before ++ .cancel t id symbol :: middle ∧ .finish t ∉ middle ∧
    run (step cfg) first before = some s ∧ s.threads t = .idle ∧
    s.maps.clientIdToIndex id = some i ∧ s.maps.ordersByIndex i ≠ none ∧
    .inserted i rec ∈ s.trace ∧ rec.clientOrderId = id ∧
    marketId = rec.marketId ∧ learned i s.trace = some orderIndex ∧ 0 ≤ orderIndex

/-- Whatever cancel the step gives the signer, it is a signing step of a thread in the cancel
call for that very order, with the next nonce. -/
def SignsOwn (cfg : Config) (first : State) (past : List Action) (m : State) (a : Action)
    (m' : State) : Prop :=
  ∃ events, m'.trace = events ++ m.trace ∧
    ∀ marketId orderIndex n, .signing (.cancel marketId orderIndex n) ∈ events →
      ∃ t answer, a = .sign t answer ∧ n = m.nonces.nextNonce ∧
        OwnCancel cfg first past t marketId orderIndex

variable {instruments : Instruments} {counter nonce : Int} {actions : List Action}

theorem idle_of_cancel {t : Nat} {id symbol : String}
    (taken : step cfg s (.cancel t id symbol) = some s') : s.threads t = .idle := by
  cases stage : s.threads t with
  | idle => rfl
  | _ => exact absurd taken (by simp [step, beginCancel, stage])

/-- The target of a cancel call is the order's own. -/
theorem target_own
    (reached : run (step cfg) (State.start instruments counter nonce) actions = some s)
    {id : String} {marketId orderIndex : Int}
    (target : cancelTarget s.maps id = .ok (some (marketId, orderIndex))) :
    ∃ i rec, s.maps.clientIdToIndex id = some i ∧ s.maps.ordersByIndex i ≠ none ∧
      .inserted i rec ∈ s.trace ∧ rec.clientOrderId = id ∧
      marketId = rec.marketId ∧ learned i s.trace = some orderIndex ∧ 0 ≤ orderIndex := by
  obtain ⟨indexed, learns⟩ := learns_of_run reached
  obtain ⟨i, rec, leads, stored, bound, rfl, rfl⟩ := cancelTarget_spec target
  obtain ⟨first, inserted, same⟩ := indexed.stored i rec stored
  obtain ⟨named, inserted', names⟩ := learns.named id i leads
  obtain rfl := indexed.once i first named inserted inserted'
  have index := learns.index i rec stored
  have known : learned i s.trace = some rec.orderIndex := by
    cases known : learned i s.trace with
    | some v =>
      rw [known] at index
      exact congrArg some index.symm
    | none =>
      rw [known] at index
      exact absurd bound (by rw [index]; decide)
  exact ⟨i, first, leads, by simp [stored], inserted, names, same.2.2.1, known, bound⟩

theorem signs_own {past : List Action} {m m' : State} {a : Action}
    (reached : run (step cfg) (State.start instruments counter nonce) past = some m)
    (taken : step cfg m a = some m') :
    SignsOwn cfg (State.start instruments counter nonce) past m a m' := by
  obtain ⟨events, trace_eq, signs⟩ := signs_step taken
  refine ⟨events, trace_eq, fun marketId orderIndex n told => ?_⟩
  obtain ⟨t, answer, job, rfl, at_stage, request_eq⟩ := signs _ told
  have origin := (traced_of_run reached).carried t job (by rw [at_stage]; rfl)
  obtain ⟨before, b, middle, s₀, rfl, busy, reached₀, begins⟩ := origin
  cases begins with
  | limit scales => exact absurd request_eq (by simp [Job.signRequest, Submission.signRequest])
  | market scales => exact absurd request_eq (by simp [Job.signRequest, Submission.signRequest])
  | @cancel id symbol marketId' orderIndex' target =>
    obtain ⟨rfl, rfl, nonce_eq⟩ := SignRequest.cancel.inj request_eq
    obtain ⟨i, rec, own⟩ := target_own reached₀ target
    obtain ⟨s₁, began, onward⟩ := run_append_eq_some.mp reached
    obtain rfl := Option.some.inj (reached₀.symm.trans began)
    obtain ⟨s₂, called, _⟩ := run_cons_eq_some.mp onward
    exact ⟨t, answer, rfl, nonce_eq,
      before, id, symbol, middle, s₀, i, rec, rfl, busy, reached₀, idle_of_cancel called, own⟩

/-- Once learned, the venue index of an order is fixed in every later state, and every
step gives the signer only cancels of the order its call named, by the order's own market
and index. -/
theorem venue_index_learned_once
    (reached : run (step cfg) (State.start instruments counter nonce) actions = some s) :
    (∀ i v, learned i s.trace = some v → ∀ later s', run (step cfg) s later = some s' →
      learned i s'.trace = some v ∧ Fixed cfg s' i v) ∧
    ∀ a s', step cfg s a = some s' →
      SignsOwn cfg (State.start instruments counter nonce) actions s a s' := by
  constructor
  · intro i v first later s' reached'
    have whole : run (step cfg) (State.start instruments counter nonce) (actions ++ later) =
        some s' := run_append_eq_some.mpr ⟨s, reached, reached'⟩
    have known := learned_run first reached'
    exact ⟨known, (learns_of_run whole).2.fixed known⟩
  · intro a s' taken
    exact signs_own reached taken

/-- The event that names the index of a second order, and one of an earlier run that names
another. -/
def secondJson : Json :=
  .obj [("client_order_index", .int 2), ("order_index", .str "901"), ("status", .str "open")]

def foreignJson : Json :=
  .obj [("client_order_index", .int 2), ("order_index", .str "77"), ("status", .str "open")]

/-- One of two orders is cancelled, then the other is about to be when the event of an
earlier run arrives. -/
def foreignRun : List Action :=
  submitted 0 "a" ++ submitted 0 "b" ++
    [.deliver (ordersJson [orderJson 1 "open" 0, secondJson])] ++ handled false ++ handled false ++
    [.takeNext, .cancel 0 "a" "ETH", .lockTx 0, .sign 0 (.ok ()), .send 0 (.http 200 acceptBody),
      .finish 0, .cancel 0 "b" "ETH", .lockTx 0, .deliver (ordersJson [foreignJson])]

/-- The cancels handed to the signer, latest first. -/
def signedCancels (trace : List Event) : List (Int × Int × Int) :=
  trace.filterMap fun
    | .signing (.cancel marketId orderIndex n) => some (marketId, orderIndex, n)
    | _ => none

theorem mem_signedCancels {trace : List Event} {marketId orderIndex n : Int} :
    (marketId, orderIndex, n) ∈ signedCancels trace ↔
      .signing (.cancel marketId orderIndex n) ∈ trace := by
  constructor
  · intro member
    obtain ⟨e, told, is_cancel⟩ := List.mem_filterMap.mp member
    split at is_cancel
    · obtain ⟨rfl, rfl, rfl⟩ : _ = marketId ∧ _ = orderIndex ∧ _ = n := by simpa using is_cancel
      exact told
    · exact absurd is_cancel (by simp)
  · intro told
    exact List.mem_filterMap.mpr ⟨_, told, rfl⟩

theorem venue_index_learned_once_sample : ∃ s s',
    run (step sampleConfig) (State.start sampleInstruments 1 5) foreignRun = some s ∧
      learned 2 s.trace = some 901 ∧ Fixed sampleConfig s 2 901 ∧
      step sampleConfig s (.sign 0 (.ok ())) = some s' ∧
      OwnCancel sampleConfig (State.start sampleInstruments 1 5) foreignRun 0 0 901 := by
  obtain ⟨s, reached, known, before, now⟩ : ∃ s,
      run (step sampleConfig) (State.start sampleInstruments 1 5) foreignRun = some s ∧
        learned 2 s.trace = some 901 ∧ signedCancels s.trace = [(0, 900, 7)] ∧
        (step sampleConfig s (.sign 0 (.ok ()))).map (fun s' => signedCancels s'.trace) =
          some [(0, 901, 8), (0, 900, 7)] :=
    exists_run (by decide +kernel)
  obtain ⟨s', taken, cancels⟩ := Option.map_eq_some_iff.mp now
  obtain ⟨fixed, own⟩ := venue_index_learned_once reached
  obtain ⟨events, trace_eq, signs⟩ := own _ s' taken
  have signed : .signing (.cancel 0 901 8) ∈ s'.trace :=
    mem_signedCancels.mp (cancels ▸ List.mem_cons_self)
  have fresh : .signing (.cancel 0 901 8) ∉ s.trace := by
    intro old
    exact absurd (mem_signedCancels.mpr old) (by rw [before]; decide)
  rw [trace_eq] at signed
  obtain ⟨t, answer, same, _, own⟩ :=
    signs 0 901 8 ((List.mem_append.mp signed).resolve_right fresh)
  obtain ⟨rfl, _⟩ := Action.sign.inj same
  exact ⟨s, s', reached, known, (fixed 2 901 known [] s rfl).2, taken, own⟩

end LighterApi.Guarantees.VenueIndex

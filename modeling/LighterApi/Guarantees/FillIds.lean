import LighterApi.Guarantees.OrderIndices

/-!
# Fill ids are unique

A fill is reported when the credited amount of its order rises, under an id made of the
client order index and the raw text of the amount. The text determines the amount, so
two fills of one order, whose amounts differ, carry different texts; and an index never
contains the separator, so the ids of different orders differ at once. The invariant
keeps, for every reported fill and for the one still to be reported, the text it is named
by and how its amount compares with the credited one.
-/
namespace LighterApi.Guarantees.FillIds
open LighterApi.Library.Transition LighterApi.Library.Infix
open LighterApi.Source LighterApi.Source.SendTx LighterApi.Source.Gateway
open LighterApi.Source.GatewayRun
open LighterApi.Guarantees.OrderIndices

/-- A number and the string equal to its dump are the same double. -/
structure DumpsNumbers (lib : Externals) : Prop where
  int : ∀ n, toDouble lib (.str (lib.dump (.int n))) = toDouble lib (.int n)
  num : ∀ q, toDouble lib (.str (lib.dump (.num q))) = toDouble lib (.num q)

/-- The fills reported so far, latest first. -/
def reported (trace : List Event) : List FillEvent :=
  trace.filterMap fun
    | .fill _ fill => some fill
    | _ => none

/-! ## Ids and amounts -/

def fillId (i : Int) (key : String) : String := toString i ++ "-" ++ key

/-- The credited amount that the raw text of an event stands for. -/
def amountOf (lib : Externals) (submittedQty : Rat) (key : String) : Rat :=
  clampFill submittedQty (toDouble lib (.str key))

theorem minus_notMem_decimal {i : Int} (nonneg : 0 ≤ i) : '-' ∉ (toString i).toList := by
  obtain ⟨n, rfl⟩ := Int.eq_ofNat_of_zero_le nonneg
  intro member
  exact absurd (mem_decimal_nat (n := n) member) (by decide)

theorem fillId_inj {i j : Int} {key key' : String} (nonneg : 0 ≤ i) (nonneg' : 0 ≤ j)
    (same : fillId i key = fillId j key') : i = j ∧ key = key' := by
  have joined : ∀ (i : Int) (key : String),
      (fillId i key).toList = (toString i).toList ++ '-' :: key.toList := by
    intro i key
    unfold fillId
    rw [String.toList_append, String.toList_append, List.append_assoc]
    rfl
  have texts := congrArg String.toList same
  rw [joined, joined] at texts
  obtain ⟨index, raw⟩ :=
    append_sep_inj (minus_notMem_decimal nonneg) (minus_notMem_decimal nonneg') texts
  exact ⟨decimal_inj index, String.toList_inj.mp raw⟩

/-- An amount that is not zero is the one its raw text stands for. -/
theorem readStr_of_key {lib : Externals} (dumps : DumpsNumbers lib) {order : Json}
    (credits : readStr lib order "filled_base_amount" ≠ 0) :
    readStr lib order "filled_base_amount" = toDouble lib (.str (cumFilledKey lib order)) := by
  unfold readStr cumFilledKey at *
  cases found : order.find "filled_base_amount" with
  | none =>
    rw [found] at credits
    exact absurd rfl credits
  | some v =>
    rw [found] at credits
    cases v with
    | str s => rfl
    | int n => exact (dumps.int n).symm
    | num q => exact (dumps.num q).symm
    | null => exact absurd rfl credits
    | bool b => exact absurd rfl credits
    | arr items => exact absurd rfl credits
    | obj members => exact absurd rfl credits

theorem clampFill_zero (submittedQty : Rat) : clampFill submittedQty 0 = 0 := by
  unfold clampFill
  apply if_neg
  rintro ⟨positive, above⟩
  linarith

/-- A credited amount that is positive is the one its raw text stands for. -/
theorem amountOf_key {lib : Externals} (dumps : DumpsNumbers lib) {submittedQty : Rat} {order : Json}
    (positive : 0 < clampFill submittedQty (readStr lib order "filled_base_amount")) :
    clampFill submittedQty (readStr lib order "filled_base_amount") =
      amountOf lib submittedQty (cumFilledKey lib order) := by
  unfold amountOf
  rw [← readStr_of_key dumps]
  intro zero
  rw [zero, clampFill_zero] at positive
  exact absurd positive (lt_irrefl 0)

theorem takeOrder_index_nonneg {lib : Externals} {maps maps' : OrderMaps} {order : Json} {t : Taken}
    (took : takeOrder lib maps order = some (maps', t)) : 0 ≤ t.clientOrderIndex := by
  unfold takeOrder at took
  dsimp only at took
  split at took
  · exact absurd took (by simp)
  · rename_i nonneg
    split at took
    · exact absurd took (by simp)
    · split at took
      · exact absurd took (by simp)
      · simp only [Option.some.injEq, Prod.mk.injEq] at took
        rw [← took.2]
        exact not_lt.mp nonneg

/-! ## The invariant -/

variable {cfg : Config}

/-- A fill that is credited and not reported yet. -/
def Pending (handler : Handler) (t : Taken) : Prop :=
  0 < t.newFill ∧ ((∃ rest, handler = .taken t rest) ∨ ∃ price rest, handler = .priced t price rest)

/-- The fill is named by a text whose amount has been credited to its order. -/
def Named (cfg : Config) (s : State) (i : Int) (key : String) : Prop :=
  0 ≤ i ∧ ∃ rec, .inserted i rec ∈ s.trace ∧
    ∀ stored, s.maps.ordersByIndex i = some stored →
      amountOf cfg.lib rec.submittedQty key ≤ stored.cumFilledBase

/-- The text's amount is above those of the fills reported under the same index. -/
def Above (cfg : Config) (s : State) (i : Int) (key : String) : Prop :=
  ∀ rec fill key', .inserted i rec ∈ s.trace → .fill i fill ∈ s.trace → fill.fillId = fillId i key' →
    amountOf cfg.lib rec.submittedQty key' < amountOf cfg.lib rec.submittedQty key

structure Stamped (cfg : Config) (s : State) : Prop where
  grown : ∀ i rec, s.maps.ordersByIndex i = some rec → 0 ≤ rec.cumFilledBase
  told : ∀ i fill, .fill i fill ∈ s.trace → ∃ key, fill.fillId = fillId i key ∧ Named cfg s i key
  pending : ∀ t, Pending s.handler t →
    Named cfg s t.clientOrderIndex (cumFilledKey cfg.lib t.order) ∧
      Above cfg s t.clientOrderIndex (cumFilledKey cfg.lib t.order)
  apart : ((reported s.trace).map FillEvent.fillId).Nodup

/-- A fill waits to be reported after a step only if it waited before, or if its event has
just been accepted. -/
theorem pending_step {s s' : State} {a : Action} {t : Taken} (taken : step cfg s a = some s')
    (pending : Pending s'.handler t) :
    Pending s.handler t ∨ s'.trace = .accepted t.clientOrderIndex t.order :: s.trace := by
  obtain ⟨pays, where_⟩ := pending
  cases step_spec taken with
  | took at_order took =>
    obtain ⟨_, _, _, _, _, _, _, _, _, rfl⟩ := takeOrder_spec took
    rcases where_ with ⟨rest, here⟩ | ⟨price, rest, here⟩
    · rw [(Handler.taken.inj here).1]
      exact Or.inr rfl
    · exact absurd here (by simp)
  | priced at_taken =>
    rcases where_ with ⟨rest, here⟩ | ⟨price, rest, here⟩
    · exact absurd here (by simp)
    · rw [(Handler.priced.inj here).1] at at_taken
      exact Or.inl ⟨pays, Or.inl ⟨_, at_taken⟩⟩
  | sendFailed failure at_stage failed =>
    rw [State.goto_handler, noteReject_handler] at where_
    exact Or.inl ⟨pays, where_⟩
  | delivered msg idle =>
    dsimp only at where_
    split at where_ <;> simp at where_
  | fillReturned throws at_fill => cases throws <;> simp at where_
  | updateReturned throws at_update => cases throws <;> simp at where_
  | reload | quote | refused | allocated | inserted | cancelReturned | cancelWaits | lockedTx | signed
  | signFailedSubmit | signFailedCancel | sent | resynced | erased | finished =>
    exact Or.inl ⟨pays, where_⟩
  | loopEnded | skipped | filled | fillSkipped | updated | updateSkipped | pruned | kept =>
    simp at where_

theorem reported_append {events trace : List Event} (neutral : ∀ e ∈ events, Neutral e) :
    reported (events ++ trace) = reported trace := by
  unfold reported
  rw [List.filterMap_append, List.filterMap_eq_nil_iff.mpr, List.nil_append]
  intro e member
  cases e with
  | fill j fill => exact absurd (neutral _ member) id
  | _ => rfl

theorem mem_reported {trace : List Event} {fill : FillEvent} (member : fill ∈ reported trace) :
    ∃ i, .fill i fill ∈ trace := by
  obtain ⟨e, in_trace, is_fill⟩ := List.mem_filterMap.mp member
  cases e with
  | fill j fill' =>
    rw [← Option.some.inj is_fill]
    exact ⟨j, in_trace⟩
  | _ => exact absurd is_fill (by simp)

/-- What is credited to an order known before is not less after the step. -/
def Kept (s s' : State) : Prop :=
  ∀ i rec₀, .inserted i rec₀ ∈ s.trace → ∀ rec, s'.maps.ordersByIndex i = some rec →
    ∃ before, s.maps.ordersByIndex i = some before ∧ before.cumFilledBase ≤ rec.cumFilledBase

theorem Named.mono {s s' : State} {i : Int} {key : String} (h : Named cfg s i key)
    (grows : ∀ e ∈ s.trace, e ∈ s'.trace) (kept : Kept s s') : Named cfg s' i key := by
  obtain ⟨nonneg, rec, inserted, credited⟩ := h
  refine ⟨nonneg, rec, grows _ inserted, fun stored is_stored => ?_⟩
  obtain ⟨before, was_stored, le⟩ := kept i rec inserted stored is_stored
  exact (credited before was_stored).trans le

/-- A step that reports no fill and credits none. -/
theorem Stamped.carry {s s' : State} (h : Stamped cfg s) (grows : ∀ e ∈ s.trace, e ∈ s'.trace)
    (kept : Kept s s') (grown : ∀ i rec, s'.maps.ordersByIndex i = some rec → 0 ≤ rec.cumFilledBase)
    (back : ∀ i rec₀ rec, .inserted i rec₀ ∈ s.trace → .inserted i rec ∈ s'.trace →
      .inserted i rec ∈ s.trace)
    (same : reported s'.trace = reported s.trace)
    (old : ∀ i fill, .fill i fill ∈ s'.trace → .fill i fill ∈ s.trace)
    (waits : ∀ t, Pending s'.handler t → Pending s.handler t) : Stamped cfg s' := by
  refine ⟨grown, ?_, ?_, ?_⟩
  · intro i fill told
    obtain ⟨key, named, known⟩ := h.told i fill (old i fill told)
    exact ⟨key, named, known.mono grows kept⟩
  · intro t pending
    obtain ⟨known, above⟩ := h.pending t (waits t pending)
    refine ⟨known.mono grows kept, fun rec fill key' inserted told named => ?_⟩
    obtain ⟨_, rec₀, inserted₀, _⟩ := known
    exact above rec fill key' (back _ rec₀ rec inserted₀ inserted) (old _ fill told) named
  · rw [same]
    exact h.apart

theorem Stamped.of_plain {s s' : State} (h : Stamped cfg s) (plain : Plain cfg s s')
    (waits : ∀ t, Pending s'.handler t → Pending s.handler t) : Stamped cfg s' := by
  obtain ⟨events, trace_eq, neutral⟩ := plain.events
  refine h.carry plain.grows ?_ ?_ ?_ ?_ ?_ waits
  · intro i rec₀ _ rec stored
    exact ⟨rec, plain.maps ▸ stored, le_rfl⟩
  · intro i rec stored
    exact h.grown i rec (plain.maps ▸ stored)
  · intro i rec₀ rec _ inserted
    exact plain.old inserted id
  · rw [trace_eq, reported_append neutral]
  · intro i fill told
    exact plain.old told id

theorem Stamped.erase {s : State} (h : Stamped cfg s) (i : Int) (id : String) :
    Stamped cfg { s with maps := s.maps.eraseOrderRec i id } := by
  refine h.carry (fun _ member => member) ?_ ?_ (fun _ _ _ _ inserted => inserted) rfl
    (fun _ _ told => told) (fun _ pending => pending)
  · intro j rec₀ _ rec stored
    exact ⟨rec, OrderMaps.stored_of_erase stored, le_rfl⟩
  · intro j rec stored
    exact h.grown j rec (OrderMaps.stored_of_erase stored)

/-- A new order has an index of its own and nothing credited. -/
theorem Stamped.insert {s : State} (indexed : Indexed s) (h : Stamped cfg s) {t : Nat}
    {sub : Submission} {i : Int} (at_stage : s.threads t = .allocated sub i) :
    Stamped cfg { (s.log (.inserted i sub.record)).goto t (.waiting (.submit sub i)) with
      maps := s.maps.insertOrderRec i sub.record } := by
  have fresh := indexed.alloc_new t sub i at_stage
  refine h.carry (fun _ member => List.mem_cons_of_mem _ member) ?_ ?_ ?_ rfl ?_
    (fun _ pending => pending)
  · intro j rec₀ known rec stored
    have other : j ≠ i := by
      rintro rfl
      exact fresh rec₀ known
    rw [OrderMaps.insert_ordersByIndex, if_neg other] at stored
    exact ⟨rec, stored, le_rfl⟩
  · intro j rec stored
    rw [OrderMaps.insert_ordersByIndex] at stored
    split at stored
    · rw [← Option.some.inj stored]
      exact le_rfl
    · exact h.grown j rec stored
  · intro j rec₀ rec known inserted
    rcases inserted_cases inserted with ⟨here, _⟩ | old
    · rw [here] at known
      exact absurd known (fresh rec₀)
    · exact old
  · intro j fill told
    exact List.mem_of_ne_of_mem (by simp) told

/-- An accepted event that raises the credited amount stands above everything reported for
its order. -/
theorem Stamped.accept (dumps : DumpsNumbers cfg.lib) {s : State} (indexed : Indexed s)
    (h : Stamped cfg s) {order : Json} {rest : List Json} {maps : OrderMaps} {t : Taken}
    (took : takeOrder cfg.lib s.maps order = some (maps, t)) :
    Stamped cfg { s.log (.accepted t.clientOrderIndex order) with
      maps, handler := .taken t rest } := by
  have nonneg := takeOrder_index_nonneg took
  obtain ⟨rec, rec', stored, rfl, _, fill_eq, new_eq, _, _, rfl⟩ := takeOrder_spec took
  obtain ⟨first, inserted, same⟩ := indexed.stored _ rec stored
  have grows : ∀ e ∈ s.trace, e ∈ Event.accepted t.clientOrderIndex t.order :: s.trace :=
    fun e member => List.mem_cons_of_mem _ member
  have back : ∀ {e : Event}, e ∈ Event.accepted t.clientOrderIndex t.order :: s.trace →
      e ≠ .accepted t.clientOrderIndex t.order → e ∈ s.trace :=
    fun member other => List.mem_of_ne_of_mem other member
  have kept : Kept s { s.log (.accepted t.clientOrderIndex t.order) with
      maps := s.maps.setOrderRec t.clientOrderIndex rec', handler := .taken t rest } := by
    intro i rec₀ _ now is_stored
    rw [OrderMaps.set_ordersByIndex] at is_stored
    split at is_stored
    · rename_i here
      rw [← Option.some.inj is_stored, here, fill_eq]
      exact ⟨rec, stored, le_max_left _ _⟩
    · exact ⟨now, is_stored, le_rfl⟩
  refine ⟨?_, ?_, ?_, h.apart⟩
  · intro i now is_stored
    rw [OrderMaps.set_ordersByIndex] at is_stored
    split at is_stored
    · rw [← Option.some.inj is_stored, fill_eq]
      exact (h.grown _ rec stored).trans (le_max_left _ _)
    · exact h.grown i now is_stored
  · intro i fill told
    obtain ⟨key, named, known⟩ := h.told i fill (back told (by simp))
    exact ⟨key, named, known.mono grows kept⟩
  · rintro t' ⟨pays, where_⟩
    have here : t = t' := by
      rcases where_ with ⟨rest', here⟩ | ⟨price, rest', here⟩
      · exact (Handler.taken.inj here).1
      · exact absurd here (by simp)
    subst here
    -- The amount of the event is the credited one now, and it was less before.
    have credit : rec.cumFilledBase < clampFill rec.submittedQty
        (readStr cfg.lib t.order "filled_base_amount") := by
      by_contra low
      rw [fill_eq, max_eq_left (not_lt.mp low), sub_self] at new_eq
      rw [new_eq] at pays
      exact absurd pays (lt_irrefl 0)
    have amount := amountOf_key dumps ((h.grown _ rec stored).trans_lt credit)
    rw [amount] at credit fill_eq
    rw [max_eq_right credit.le] at fill_eq
    constructor
    · refine ⟨nonneg, first, grows _ inserted, fun now is_stored => ?_⟩
      rw [OrderMaps.set_ordersByIndex, if_pos rfl] at is_stored
      rw [← Option.some.inj is_stored, fill_eq, same.2.2.2]
    · intro rec₀ fill key' inserted₀ told named
      obtain ⟨key, named', nonneg', first', inserted', reached⟩ :=
        h.told _ fill (back told (by simp))
      have same_key := (fillId_inj nonneg nonneg' (named.symm.trans named')).2
      have one := indexed.once _ rec₀ first (back inserted₀ (by simp)) inserted
      have one' := indexed.once _ first' first inserted' inserted
      rw [one, same_key, ← same.2.2.2]
      rw [one', ← same.2.2.2] at reached
      exact (reached rec stored).trans_lt credit

/-- The fill that is reported has an id of its own. -/
theorem Stamped.pay {s : State} (h : Stamped cfg s) {t : Taken} {price : Rat} {rest : List Json}
    (at_priced : s.handler = .priced t price rest) (new : 0 < t.newFill) :
    Stamped cfg { s.log (.fill t.clientOrderIndex (fillEvent cfg.lib t price)) with
      handler := .inFill t price rest } := by
  obtain ⟨known, above⟩ := h.pending t ⟨new, Or.inr ⟨price, rest, at_priced⟩⟩
  have grows : ∀ e ∈ s.trace,
      e ∈ Event.fill t.clientOrderIndex (fillEvent cfg.lib t price) :: s.trace :=
    fun e member => List.mem_cons_of_mem _ member
  have kept : Kept s { s.log (.fill t.clientOrderIndex (fillEvent cfg.lib t price)) with
      handler := .inFill t price rest } := fun _ _ _ rec stored => ⟨rec, stored, le_rfl⟩
  refine ⟨h.grown, ?_, ?_, ?_⟩
  · intro i fill told
    rcases List.mem_cons.mp told with new_fill | old
    · obtain ⟨rfl, rfl⟩ := Event.fill.inj new_fill
      exact ⟨cumFilledKey cfg.lib t.order, rfl, known.mono grows kept⟩
    · obtain ⟨key, named, known'⟩ := h.told i fill old
      exact ⟨key, named, known'.mono grows kept⟩
  · rintro t' ⟨_, where_⟩
    rcases where_ with ⟨rest', here⟩ | ⟨price', rest', here⟩ <;> exact absurd here (by simp)
  · change ((fillEvent cfg.lib t price :: reported s.trace).map FillEvent.fillId).Nodup
    rw [List.map_cons, List.nodup_cons]
    refine ⟨fun member => ?_, h.apart⟩
    obtain ⟨fill, in_reported, same_id⟩ := List.mem_map.mp member
    obtain ⟨i, told⟩ := mem_reported in_reported
    obtain ⟨key, named, nonneg, rec, inserted, _⟩ := h.told i fill told
    have ids : fillId i key = fillId t.clientOrderIndex (cumFilledKey cfg.lib t.order) :=
      named.symm.trans same_id
    obtain ⟨rfl, rfl⟩ := fillId_inj nonneg known.1 ids
    exact absurd (above rec fill _ inserted told named) (lt_irrefl _)

/-- The step lemma. -/
theorem Stamped.step (dumps : DumpsNumbers cfg.lib) {s s' : State} {a : Action} (indexed : Indexed s)
    (h : Stamped cfg s) (taken : step cfg s a = some s') : Stamped cfg s' := by
  have waits := fun t => pending_step (t := t) taken
  cases step_kind taken with
  | plain plain =>
    exact h.of_plain plain fun t pending => (waits t pending).resolve_right (plain.silent id)
  | allocate t sub whole =>
    exact h.carry (fun _ member => member) (fun _ _ _ rec stored => ⟨rec, stored, le_rfl⟩) h.grown
      (fun _ _ _ _ inserted => inserted) rfl (fun _ _ told => told) (fun _ pending => pending)
  | insert at_stage => exact h.insert indexed at_stage
  | accept at_order took => exact h.accept dumps indexed took
  | pay at_priced callback new => exact h.pay at_priced new
  | erase owner plain =>
    exact (h.erase _ _).of_plain plain fun t pending =>
      (waits t pending).resolve_right (plain.silent id)

theorem stamped_start (instruments : Instruments) (counter nonce : Int) :
    Stamped cfg (State.start instruments counter nonce) := by
  refine ⟨?_, ?_, ?_, List.nodup_nil⟩
  · intro i rec stored
    exact absurd stored (by simp [State.start, OrderMaps.empty])
  · intro i fill told
    exact absurd told (by simp [State.start])
  · rintro t ⟨_, where_⟩
    rcases where_ with ⟨rest, here⟩ | ⟨price, rest, here⟩ <;>
      exact absurd here (by simp [State.start])

/-- In every run the fills reported have different ids. -/
theorem fill_ids_nodup (dumps : DumpsNumbers cfg.lib) {instruments : Instruments}
    {counter nonce : Int} {actions : List Action} {s : State}
    (reached : run (step cfg) (State.start instruments counter nonce) actions = some s) :
    ((reported s.trace).map FillEvent.fillId).Nodup := by
  have kept : Indexed s ∧ Stamped cfg s := by
    refine run_invariant (I := fun s => Indexed s ∧ Stamped cfg s) ?_
      ⟨indexed_start instruments counter nonce, stamped_start instruments counter nonce⟩ reached
    intro s a s' before taken
    exact ⟨before.1.step taken, before.2.step dumps before.1 taken⟩
  exact kept.2.apart

/-! ## A sample venue that sends whole numbers -/

/-- Integers in decimals, other numbers as fractions. -/
def numberText : Json → String
  | .int n => toString n
  | .num q => toString q.num ++ "/" ++ toString q.den
  | _ => ""

def textNumber (text : String) : Option Rat :=
  match behind ['/'] text.toList with
  | none => (strtol text).map fun n : Int => (n : Rat)
  | some den => (strtol text).map fun n : Int => (n : Rat) / (digitsValue den : Rat)

theorem slash_notMem_decimal (n : Int) : '/' ∉ (toString n).toList := by
  intro member
  rcases mem_decimal member with digit | minus
  · exact absurd digit (by decide)
  · exact absurd minus (by decide)

theorem behind_of_notMem {x : Char} {marker text : List Char} (absent : x ∉ text) :
    behind (x :: marker) text = none := by
  induction text with
  | nil => rfl
  | cons c rest ih =>
    have differs : ¬ (x :: marker) <+: c :: rest := by
      intro start
      exact absent ((List.cons_prefix_cons.mp start).1 ▸ List.mem_cons_self)
    rw [behind, if_neg differs]
    exact ih fun member => absent (List.mem_cons_of_mem c member)

theorem textNumber_int (n : Int) : textNumber (toString n) = some (n : Rat) := by
  have read : strtol (String.ofList ((toString n).toList ++ [])) = some n :=
    strtol_decimal n (by simp)
  rw [List.append_nil, String.ofList_toList] at read
  unfold textNumber
  rw [behind_of_notMem (slash_notMem_decimal n), read]
  rfl

theorem textNumber_num (q : Rat) :
    textNumber (toString q.num ++ "/" ++ toString q.den) = some q := by
  have text : (toString q.num ++ "/" ++ toString q.den).toList =
      (toString q.num).toList ++ '/' :: ([] ++ (toString q.den).toList) := by
    rw [String.toList_append, String.toList_append, List.append_assoc]
    rfl
  have stops : ∀ c ∈ ('/' :: ([] ++ (toString q.den).toList)).head?, c.isDigit = false := by simp
  have read := strtol_decimal q.num stops
  rw [← text, String.ofList_toList] at read
  unfold textNumber
  rw [text, behind_of_head_notMem _ (slash_notMem_decimal q.num), read]
  dsimp only [Option.map_some]
  rw [digitsValue_decimal, Rat.num_div_den]

def wholeConfig : Config where
  lib := { sampleConfig.lib with dump := numberText, stod := textNumber }
  fillCB := true
  orderUpdateCB := true

theorem wholeConfig_dumps : DumpsNumbers wholeConfig.lib where
  int n := by
    change (textNumber (toString n)).getD 0 = n
    rw [textNumber_int]
    rfl
  num q := by
    change (textNumber (toString q.num ++ "/" ++ toString q.den)).getD 0 = q
    rw [textNumber_num]
    rfl

def wholeJson (filled : Int) : Json :=
  .obj [("client_order_index", .int 1), ("filled_base_amount", .int filled),
    ("order_index", .int 900), ("status", .str "open")]

/-- One unit of two is reported, reported again, and then the other. -/
def wholeRun : List Action :=
  [.submitPostOnlyLimit 0 "a" "ETH" .Buy 2 7 false, .insert 0,
    .deliver (ordersJson [wholeJson 1, wholeJson 1, wholeJson 2])] ++
    handled true ++ handled false ++ handled true

theorem fill_ids_nodup_sample : ∃ s,
    run (step wholeConfig) (State.start sampleInstruments 1 5) wholeRun = some s ∧
      (reported s.trace).map FillEvent.fillId = ["1-2", "1-1"] ∧
      ((reported s.trace).map FillEvent.fillId).Nodup := by
  obtain ⟨s, reached, ids⟩ : ∃ s,
      run (step wholeConfig) (State.start sampleInstruments 1 5) wholeRun = some s ∧
        (reported s.trace).map FillEvent.fillId = ["1-2", "1-1"] :=
    exists_run (by decide +kernel)
  exact ⟨s, reached, ids, fill_ids_nodup wholeConfig_dumps reached⟩

end LighterApi.Guarantees.FillIds

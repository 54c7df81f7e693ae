import LighterApi.Guarantees.RejectDelivery
import LighterApi.Guarantees.VenueAnswers

/-!
# When a submit drops its order record

A submit erases its record and throws a `GatewayError` when signing fails or when it
reads a definitive reject out of the answer. The answers it reads correctly are given by
`Definitive`, in terms of their own fields. The plain exception is an HTTP-200 body without
a `code`: the default code zero is taken for a reject, although nothing is known about the
transaction.
-/
namespace LighterApi.Guarantees.Verdict
open LighterApi.Source LighterApi.Source.SendTx LighterApi.Source.Gateway
open LighterApi.Guarantees.RejectDelivery LighterApi.Guarantees.VenueAnswers

variable (lib : Externals)

/-- The record stays: later events of the order are attributed to it. -/
def Attributed (maps : OrderMaps) (i : Int) (id : String) : Prop :=
  ∀ rec order, maps.ordersByIndex i = some rec → rec.clientOrderId = id → 0 ≤ i →
    readInt order "client_order_index" = i →
    (bindOrderIndex rec (readInt order "order_index")).isSome = true →
    ∃ maps' taken, takeOrder lib maps order = some (maps', taken) ∧
      taken.clientOrderIndex = i ∧ taken.clientOrderId = id

/-- The record is erased and a `GatewayError` thrown exactly when signing failed or the
answer carries a code other than 200; otherwise both maps are as before, and an answer
without a code leaves by a plain exception. -/
def DropsOnVerdict (kind : SubmitKind) (i : Int) (id : String) (signed : Except String Unit)
    (answer : Answer) : Prop :=
  ∀ reply g,
    let outcome := submitLocked lib kind i id signed answer reply g
    ((∃ what, signed = .error what) ∨ Rejects lib answer →
      (∃ reject text, outcome.1 = .error (.gateway reject text)) ∧
        outcome.2.maps = g.maps.eraseOrderRec i id) ∧
    (¬ ((∃ what, signed = .error what) ∨ Rejects lib answer) →
      (¬ ∃ reject text, outcome.1 = .error (.gateway reject text)) ∧
        outcome.2.maps = g.maps ∧ Attributed lib outcome.2.maps i id ∧
        (codeOf lib answer = none → ∃ what, outcome.1 = .error (.plain what)))

/-- The answers whose verdict is read correctly. The text of a transport or a parse error
names no reject; the code of an HTTP error is not cut to 200; an HTTP-200 body with fields
of the right types has an integer code that is not cut to 200 either, and one with a field
of the wrong type is turned into a text that names a reject just when the body is one. -/
def Definitive (answer : Answer) : Prop :=
  match answer with
  | .transport what => ¬ NamesReject lib what
  | .http status body =>
    if status ≠ 200 then ∀ code, codeOf lib answer = some code → toInt32 code = 200 → code = 200
    else
      match lib.parse body with
      | .error what => ¬ NamesReject lib what
      | .ok json =>
        match unreadable lib json with
        | some what => NamesReject lib what ↔ Rejects lib answer
        | none => ∃ code, codeOf lib answer = some code ∧ (toInt32 code = 200 → code = 200)

variable {lib} {answer : Answer}

theorem attributed (maps : OrderMaps) (i : Int) (id : String) : Attributed lib maps i id := by
  intro rec order stored named nonneg index bound
  obtain ⟨bound, bound_eq⟩ := Option.isSome_iff_exists.mp bound
  have same : bound.clientOrderId = rec.clientOrderId := by
    unfold bindOrderIndex at bound_eq
    split at bound_eq
    · rw [← Option.some.inj bound_eq]
    · split at bound_eq
      · rw [← Option.some.inj bound_eq]
      · split at bound_eq
        · exact absurd bound_eq (by simp)
        · rw [← Option.some.inj bound_eq]
  unfold takeOrder
  rw [index]
  simp only [stored, bound_eq, if_neg (not_lt.mpr nonneg)]
  exact ⟨_, _, rfl, rfl, same.trans named⟩

/-- The three ways a sent transaction ends. -/
inductive Ending where
  | accepted | rejected | unknown
  deriving DecidableEq

def ending : Option Failure → Ending
  | none => .accepted
  | some (.gateway _ _) => .rejected
  | some (.plain _) => .unknown

/-- After a good signature the property says how the transaction has to end. -/
theorem dropsOnVerdict_ok_iff (kind : SubmitKind) (i : Int) (id : String) :
    DropsOnVerdict lib kind i id (.ok ()) answer ↔
      (ending (sendFailure lib kind.name answer) = .rejected ↔ Rejects lib answer) ∧
        (codeOf lib answer = none → ending (sendFailure lib kind.name answer) = .unknown) := by
  have state : Nonempty Locked := ⟨⟨.empty, ⟨0, 0⟩⟩⟩
  have uncoded : codeOf lib answer = none → ¬ Rejects lib answer := by
    rintro none_code ⟨code, some_code, _⟩
    rw [none_code] at some_code
    exact absurd some_code (by simp)
  unfold DropsOnVerdict submitLocked sendSigned
  cases failure : sendFailure lib kind.name answer with
  | none =>
    by_cases rejects : Rejects lib answer
    · simp [rejects, ending]
    · simp [rejects, ending, attributed]
  | some f =>
    cases f with
    | gateway reject text =>
      by_cases rejects : Rejects lib answer
      · have coded : codeOf lib answer ≠ none := fun h => uncoded h rejects
        simp [rejects, ending, Failure.isGateway, coded]
      · simp [rejects, ending, Failure.isGateway]
    | plain what =>
      by_cases rejects : Rejects lib answer
      · simp [rejects, ending, Failure.isGateway]
      · simp [rejects, ending, Failure.isGateway, attributed]

/-- A failed signature drops the record and says so. -/
theorem dropsOnVerdict_error (kind : SubmitKind) (i : Int) (id what : String) :
    DropsOnVerdict lib kind i id (.error what) answer := by
  intro reply g
  exact ⟨fun _ => ⟨⟨_, _, rfl⟩, rfl⟩, fun none_of => absurd (Or.inl ⟨what, rfl⟩) none_of⟩

theorem ending_of_error {text : String} (thrown : sendTx lib answer = .error text) (what : String) :
    (NamesReject lib text → ending (sendFailure lib what answer) = .rejected) ∧
      (¬ NamesReject lib text → ending (sendFailure lib what answer) = .unknown) := by
  rw [← parseVenueReject_ne_none_iff]
  unfold sendFailure
  rw [thrown]
  dsimp only
  cases parseVenueReject lib text <;> simp [ending]

theorem ending_of_ok {result : SendTxResult} (returned : sendTx lib answer = .ok result)
    (what : String) :
    ending (sendFailure lib what answer) = if result.code = 200 then .accepted else .rejected := by
  unfold sendFailure
  rw [returned]
  by_cases accepted : result.code = 200 <;> simp [accepted, ending]

/-- Without a code the transaction must end unknown, and then nothing rejects it. -/
theorem uncoded_iff {text : String} (uncoded : codeOf lib answer = none)
    (thrown : sendTx lib answer = .error text) (what : String) :
    ((ending (sendFailure lib what answer) = .rejected ↔ Rejects lib answer) ∧
        (codeOf lib answer = none → ending (sendFailure lib what answer) = .unknown)) ↔
      ¬ NamesReject lib text := by
  have nothing : ¬ Rejects lib answer := by
    rintro ⟨code, some_code, _⟩
    rw [uncoded] at some_code
    exact absurd some_code (by simp)
  obtain ⟨rejected, unknown⟩ := ending_of_error thrown what
  by_cases named : NamesReject lib text
  · simp [rejected named, named, nothing]
  · simp [unknown named, named, nothing]

/-- A thrown text is a verdict when it names a reject. -/
theorem thrown_iff {text : String} (thrown : sendTx lib answer = .error text) (what : String) :
    ((ending (sendFailure lib what answer) = .rejected ↔ Rejects lib answer) ∧
        (codeOf lib answer = none → ending (sendFailure lib what answer) = .unknown)) ↔
      (NamesReject lib text ↔ Rejects lib answer) := by
  obtain ⟨rejected, unknown⟩ := ending_of_error thrown what
  by_cases named : NamesReject lib text
  · simp only [rejected named, named, true_iff, reduceCtorEq, imp_false, and_iff_left_iff_imp]
    rintro ⟨code, coded, _⟩ uncoded
    exact absurd (coded.symm.trans uncoded) (by simp)
  · simp [unknown named, named]

/-- A returned result is a verdict when the code it comes from is a success just when it is
read as one. -/
theorem returned_iff (reads : lib.ReadsInts) {body : String} {json : Json}
    (parsed : lib.parse body = .ok json) (readable : unreadable lib json = none) (what : String) :
    ((ending (sendFailure lib what (.http 200 body)) = .rejected ↔
          Rejects lib (.http 200 body)) ∧
        (codeOf lib (.http 200 body) = none →
          ending (sendFailure lib what (.http 200 body)) = .unknown)) ↔
      ∃ code, codeOf lib (.http 200 body) = some code ∧ (toInt32 code = 200 → code = 200) := by
  have said : envelope lib (.http 200 body) = some json := by
    unfold envelope
    dsimp only
    rw [parsed]
    exact if_pos ⟨rfl, readable⟩
  obtain ⟨result, returned, read⟩ := sendTx_of_envelope said
  have coded_eq : codeOf lib (.http 200 body) = (json.find "code").bind Json.asInteger := by
    unfold codeOf
    dsimp only
    rw [parsed]
  rw [ending_of_ok returned]
  cases coded : codeOf lib (.http 200 body) with
  | none => by_cases accepted : result.code = 200 <;> simp [accepted]
  | some code =>
    rw [reads.int_cut json "code" code 0 (asInteger_eq_some (coded_eq.symm.trans coded))] at read
    rw [← Except.ok.inj read]
    have fits : toInt32 200 = 200 := by decide
    by_cases accepted : toInt32 code = 200
    · by_cases good : code = 200 <;> simp [accepted, good, fits, Rejects, coded]
    · have other : code ≠ 200 := by
        rintro rfl
        exact accepted fits
      simp [accepted, other, Rejects, coded]

/-- An HTTP error is parsed back to its body, so only a code that is cut to 200 can mislead. -/
theorem httpError_iff {status : Nat} {body : String} (failed : status ≠ 200) (what : String) :
    ((ending (sendFailure lib what (.http status body)) = .rejected ↔
          Rejects lib (.http status body)) ∧
        (codeOf lib (.http status body) = none →
          ending (sendFailure lib what (.http status body)) = .unknown)) ↔
      ∀ code, codeOf lib (.http status body) = some code → toInt32 code = 200 → code = 200 := by
  have thrown : sendTx lib (.http status body) = .error (httpErrorText status body) := by
    simp [sendTx, checkTransport, failed, bind, Except.bind]
  have named : NamesReject lib (httpErrorText status body) ↔
      ∃ code, codeOf lib (.http status body) = some code ∧ toInt32 code ≠ 200 := by
    unfold NamesReject codeOf
    rw [substrAfter_httpErrorText]
    dsimp only
    cases parsed : lib.parse body <;> simp [parsed]
  rw [thrown_iff thrown, named]
  unfold Rejects
  have fits : toInt32 200 = 200 := by decide
  constructor
  · rintro same code coded cut
    by_contra other
    obtain ⟨code', coded', uncut⟩ := same.mpr ⟨code, coded, other⟩
    obtain rfl := Option.some.inj (coded.symm.trans coded')
    exact uncut cut
  · intro sound
    constructor
    · rintro ⟨code, coded, uncut⟩
      refine ⟨code, coded, ?_⟩
      rintro rfl
      exact uncut fits
    · rintro ⟨code, coded, other⟩
      exact ⟨code, coded, fun cut => other (sound code coded cut)⟩

/-- A submit drops its record on a verdict and only then, just when signing failed or
the answer's verdict is one that is read correctly. -/
theorem dropsOnVerdict_iff (lib : Externals) (reads : lib.ReadsInts) (kind : SubmitKind) (i : Int)
    (id : String) (signed : Except String Unit) (answer : Answer) :
    DropsOnVerdict lib kind i id signed answer ↔ (signed = .ok () → Definitive lib answer) := by
  cases signed with
  | error what => simp [dropsOnVerdict_error]
  | ok u =>
    rw [dropsOnVerdict_ok_iff]
    simp only [forall_true_left]
    cases answer with
    | transport what => exact uncoded_iff rfl rfl kind.name
    | http status body =>
      unfold Definitive
      dsimp only
      by_cases failed : status ≠ 200
      · rw [if_pos failed]
        exact httpError_iff failed kind.name
      · rw [if_neg failed]
        have ok : status = 200 := not_not.mp failed
        subst ok
        cases parsed : lib.parse body with
        | error what =>
          have uncoded : codeOf lib (.http 200 body) = none := by simp [codeOf, parsed]
          have thrown : sendTx lib (.http 200 body) = .error what := by
            simp [sendTx, checkTransport, parsed, bind, Except.bind]
          exact uncoded_iff uncoded thrown kind.name
        | ok json =>
          cases readable : unreadable lib json with
          | some what =>
            have thrown : sendTx lib (.http 200 body) = .error what := by
              simp only [sendTx, checkTransport, ne_eq, not_true, if_false, parsed, bind, Except.bind]
              exact fromJson_eq_error_iff.mpr readable
            simp only [readable]
            exact thrown_iff thrown kind.name
          | none =>
            simp only [readable]
            exact returned_iff reads parsed readable kind.name

/-! ## Two HTTP-200 bodies -/

/-- A body with a code of the right size is read correctly. -/
theorem dropsOnVerdict_iff_sample :
    DropsOnVerdict (oneBody throttleBody (rejectJson 23000 "Too Many Requests!"))
      .submitPostOnlyLimit 1 "x" (.ok ()) (.http 200 throttleBody) := by
  apply (dropsOnVerdict_iff _ (oneBody_readsInts _ _) _ _ _ _ _).mpr
  rintro -
  unfold Definitive
  dsimp only
  rw [if_neg (by decide), oneBody_parses]
  exact ⟨23000, by decide, by decide⟩

def ackBody : String := "\x7b\"message\":\"ok\"\x7d"

def ackJson : Json := .obj [("message", .str "ok")]

/-- An HTTP-200 object without a code: unknown outcome, yet the record is dropped. -/
theorem uncoded_answer_drops :
    ¬ DropsOnVerdict (oneBody ackBody ackJson) .submitPostOnlyLimit 1 "x" (.ok ())
      (.http 200 ackBody) := by
  rw [dropsOnVerdict_ok_iff]
  rintro ⟨_, unknown⟩
  exact absurd (unknown (by decide)) (by decide)

end LighterApi.Guarantees.Verdict

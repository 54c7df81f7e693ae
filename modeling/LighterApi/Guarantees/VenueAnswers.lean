import LighterApi.Source.SendTx

/-!
# What the venue says in its answer

A transaction is answered by a code, in an HTTP-200 body or in the body of an HTTP error,
or not at all. What an answer says is read off its own fields here, so that the gateway's
reading of it can be compared with it: `sendSigned` reports success for an answer that says
200 and for one whose code has the low 32 bits of 200 (`sendFailure_eq_none_iff`), and it
finds a reject in an exception text exactly when the text names one
(`parseVenueReject_ne_none_iff`).
-/
namespace LighterApi.Guarantees.VenueAnswers
open LighterApi.Source LighterApi.Source.SendTx

variable (lib : Externals)

/-- The integer code of the answer, if its body is an object with one. -/
def codeOf : Answer → Option Int
  | .transport _ => none
  | .http _ body =>
    match lib.parse body with
    | .error _ => none
    | .ok json => (json.find "code").bind Json.asInteger

/-- The answer carries an integer code other than 200. -/
def Rejects (answer : Answer) : Prop := ∃ code, codeOf lib answer = some code ∧ code ≠ 200

/-- Behind the first `msg: ` of the text stands an object with an integer code whose low
32 bits are not those of 200. -/
def NamesReject (text : String) : Prop :=
  ∃ body json code, substrAfter text "msg: " = some body ∧ lib.parse body = .ok json ∧
    (json.find "code").bind Json.asInteger = some code ∧ toInt32 code ≠ 200

/-- The exception of the first of the three fields that has the wrong type. -/
def unreadable (json : Json) : Option String :=
  match lib.readInt32 json "code" 0, lib.readText json "message" "",
    lib.readText json "tx_hash" "" with
  | .error what, _, _ => some what
  | .ok _, .error what, _ => some what
  | .ok _, .ok _, .error what => some what
  | .ok _, .ok _, .ok _ => none

/-- The JSON of an HTTP-200 answer whose fields have their types. -/
def envelope : Answer → Option Json
  | .transport _ => none
  | .http status body =>
    match lib.parse body with
    | .error _ => none
    | .ok json => if status = 200 ∧ unreadable lib json = none then some json else none

/-- The answer says 200. -/
def acknowledges (answer : Answer) : Bool :=
  match envelope lib answer with
  | none => false
  | some json =>
    match (json.find "code").bind Json.asInteger with
    | some code => code = 200
    | none => (lib.readInt32 json "code" 0).toOption = some 200

/-- The answer says another code, with the low 32 bits of 200. -/
def wraps (answer : Answer) : Bool :=
  match envelope lib answer with
  | none => false
  | some json =>
    match (json.find "code").bind Json.asInteger with
    | some code => code ≠ 200 && toInt32 code = 200
    | none => false

variable {lib} {answer : Answer} {json : Json} {text : String}

theorem asInteger_eq_some {v : Option Json} {n : Int} (h : v.bind Json.asInteger = some n) :
    v = some (.int n) := by
  obtain ⟨json, rfl, integer⟩ := Option.bind_eq_some_iff.mp h
  cases json with
  | int m => exact congrArg (fun m => some (Json.int m)) (Option.some.inj integer)
  | _ => exact absurd integer (by simp [Json.asInteger])

/-! ## Reading the answer -/

theorem fromJson_eq_error_iff :
    SendTxResult.fromJson lib json = .error text ↔ unreadable lib json = some text := by
  unfold SendTxResult.fromJson unreadable
  cases lib.readInt32 json "code" 0 with
  | error what => simp [bind, Except.bind]
  | ok code =>
    cases lib.readText json "message" "" with
    | error what => simp [bind, Except.bind]
    | ok message =>
      cases lib.readText json "tx_hash" "" with
      | error what => simp [bind, Except.bind]
      | ok hash => simp [bind, Except.bind, pure, Except.pure]

/-- Fields of the right types are handed on. -/
theorem fromJson_of_readable (readable : unreadable lib json = none) :
    ∃ result, SendTxResult.fromJson lib json = .ok result ∧
      lib.readInt32 json "code" 0 = .ok result.code := by
  unfold unreadable at readable
  unfold SendTxResult.fromJson
  cases code_read : lib.readInt32 json "code" 0 with
  | error what => simp [code_read] at readable
  | ok code =>
    cases message_read : lib.readText json "message" "" with
    | error what => simp [code_read, message_read] at readable
    | ok message =>
      cases hash_read : lib.readText json "tx_hash" "" with
      | error what => simp [code_read, message_read, hash_read] at readable
      | ok hash => exact ⟨⟨code, message, hash⟩, rfl, rfl⟩

theorem sendTx_of_envelope (said : envelope lib answer = some json) :
    ∃ result, sendTx lib answer = .ok result ∧ lib.readInt32 json "code" 0 = .ok result.code := by
  cases answer with
  | transport what => exact absurd said (by simp [envelope])
  | http status body =>
    unfold envelope at said
    dsimp only at said
    cases parsed : lib.parse body with
    | error what => simp [parsed] at said
    | ok json' =>
      rw [parsed] at said
      dsimp only at said
      split at said
      · rename_i fine
        obtain rfl := Option.some.inj said
        obtain ⟨result, read, code⟩ := fromJson_of_readable fine.2
        refine ⟨result, ?_, code⟩
        unfold sendTx checkTransport
        simp only [fine.1, ne_eq, not_true, if_false, bind, Except.bind, parsed]
        exact read
      · exact absurd said (by simp)

theorem sendTx_of_no_envelope (none_said : envelope lib answer = none) :
    ∃ text, sendTx lib answer = .error text := by
  cases answer with
  | transport what => exact ⟨what, rfl⟩
  | http status body =>
    unfold sendTx checkTransport
    by_cases ok : status = 200
    · subst ok
      unfold envelope at none_said
      dsimp only at none_said
      cases parsed : lib.parse body with
      | error what => exact ⟨what, by simp [bind, Except.bind, parsed]⟩
      | ok json =>
        rw [parsed] at none_said
        simp only [true_and, ite_eq_right_iff, reduceCtorEq, imp_false] at none_said
        obtain ⟨text, thrown⟩ := Option.ne_none_iff_exists'.mp none_said
        refine ⟨text, ?_⟩
        simp only [ne_eq, not_true, if_false, bind, Except.bind, parsed]
        exact fromJson_eq_error_iff.mpr thrown
    · exact ⟨httpErrorText status body, by simp [bind, Except.bind, ok]⟩

/-- The gateway takes a transaction for sent when the answer says 200 or a code that is read
as 200. -/
theorem sendFailure_eq_none_iff (reads : lib.ReadsInts) (what : String) :
    sendFailure lib what answer = none ↔ acknowledges lib answer = true ∨ wraps lib answer = true := by
  unfold sendFailure acknowledges wraps
  cases said : envelope lib answer with
  | none =>
    obtain ⟨text, thrown⟩ := sendTx_of_no_envelope said
    rw [thrown]
    dsimp only
    cases parseVenueReject lib text <;> simp
  | some json =>
    obtain ⟨result, returned, read⟩ := sendTx_of_envelope said
    rw [returned]
    dsimp only
    cases coded : (json.find "code").bind Json.asInteger with
    | none =>
      rw [read]
      by_cases good : result.code = 200 <;> simp [good, Except.toOption]
    | some code =>
      rw [reads.int_cut json "code" code 0 (asInteger_eq_some coded)] at read
      rw [← Except.ok.inj read]
      have fits : toInt32 200 = 200 := by decide
      by_cases good : toInt32 code = 200
      · by_cases same : code = 200 <;> simp [good, same, fits]
      · have other : code ≠ 200 := by
          rintro rfl
          exact good fits
        simp [good, other]

theorem code_of_wraps (misread : wraps lib answer = true) :
    ∃ body code, answer = .http 200 body ∧ codeOf lib answer = some code ∧ code ≠ 200 ∧
      toInt32 code = 200 := by
  cases answer with
  | transport what => exact absurd misread (by simp [wraps, envelope])
  | http status body =>
    unfold wraps envelope at misread
    unfold codeOf
    dsimp only at misread ⊢
    cases parsed : lib.parse body with
    | error what => simp [parsed] at misread
    | ok json =>
      rw [parsed] at misread
      dsimp only at misread ⊢
      split at misread
      · exact absurd misread (by simp)
      · rename_i json' fine
        obtain ⟨⟨rfl, _⟩, rfl⟩ : (status = 200 ∧ unreadable lib json = none) ∧ json = json' := by
          simpa using fine
        split at misread
        · rename_i code coded
          rw [Bool.and_eq_true, decide_eq_true_eq, decide_eq_true_eq] at misread
          exact ⟨body, code, rfl, coded, misread⟩
        · exact absurd misread (by simp)

/-! ## Reading an exception text -/

theorem parseVenueReject_ne_none_iff :
    parseVenueReject lib text ≠ none ↔ NamesReject lib text := by
  unfold parseVenueReject NamesReject
  cases substrAfter text "msg: " with
  | none => simp
  | some body =>
    dsimp only
    cases parsed : lib.parse body with
    | error what => simp [parsed]
    | ok json =>
      dsimp only
      cases coded : (json.find "code").bind Json.asInteger with
      | none => simp [parsed, coded]
      | some code => by_cases read : toInt32 code = 200 <;> simp [parsed, coded, read]

end LighterApi.Guarantees.VenueAnswers

import LighterApi.Source.Gateway

/-!
# One reject, two deliveries

The venue delivers a reject `{"code": c, "message": m}` in an HTTP-200 body or in the
body of an HTTP error. Both deliveries resync the nonce, drop the same record and give
the same text. The kind is read off the message alone in the first case and off
`c` followed by `m` in the second, so the kinds can differ when a code the classifier
searches for stands in `c` but not in `m`.
-/
namespace LighterApi.Guarantees.RejectDelivery
open LighterApi.Source LighterApi.Source.SendTx LighterApi.Source.Gateway LighterApi.Library.Infix

variable (lib : Externals)

def rejectJson (code : Int) (message : String) : Json :=
  .obj [("code", .int code), ("message", .str message)]

/-- A call that has signed its transaction. -/
inductive Call where
  | submit (kind : SubmitKind) (clientOrderIndex : Int) (clientOrderId : String)
  | cancel

/-- What the call makes of the answer to its transaction. -/
def Call.handle (call : Call) (answer : Answer) (reply : Except String Int) (g : Locked) :
    Except Failure Bool × Locked :=
  match call with
  | submit kind i id =>
    let (result, after) := submitLocked lib kind i id (.ok ()) answer reply g
    (result.map fun _ => true, after)
  | cancel => cancelLocked lib (.ok ()) answer reply g

/-- For every call the two deliveries have the same outcome (kind, text, return value),
the same maps and the same counter, and the nonce is resynced. -/
def SameHandling (status : Nat) (body : String) : Prop :=
  ∀ (call : Call) (reply : Except String Int) (g : Locked),
    call.handle lib (.http 200 body) reply g = call.handle lib (.http status body) reply g ∧
      (call.handle lib (.http status body) reply g).2.nonces = resyncNonce reply g.nonces

/-- The code adds nothing to what the classifier finds in the message: the message
already settles the kind, or the code contains none of the three codes searched for. -/
def CodeAddsNothing (code : Int) (message : String) : Prop :=
  let m := toLower message
  let c := toString code
  (finds m "post" && finds m "only") = true ∨
    (finds m "23000" || finds m "volume quota") = true ∨
      finds c "23000" = false ∧
        ((finds m "21706" || finds m "21740") = true ∨
          finds c "21706" = false ∧ finds c "21740" = false)

/-! ## Searching the joined text -/

/-- The characters of a rendered code lie before the letters. -/
theorem lt_of_digit {c : Char} (h : c.isDigit = true ∨ c = '-') : c.val.toNat < 65 := by
  rcases h with digit | rfl
  · simp only [Char.isDigit, Bool.and_eq_true, decide_eq_true_eq, UInt32.le_iff_toNat_le] at digit
    have nine : '9'.val.toNat = 57 := rfl
    omega
  · decide

theorem toLower_of_digit {c : Char} (h : c.isDigit = true ∨ c = '-') : c.toLower = c := by
  have low := lt_of_digit h
  have other : ¬ (c.val ≥ 'A'.val ∧ c.val ≤ 'Z'.val) := by
    intro upper
    have first := UInt32.le_iff_toNat_le.mp upper.1
    have a : 'A'.val.toNat = 65 := rfl
    omega
  unfold Char.toLower
  rw [dif_neg other]

theorem toLower_reasonText (code : Int) (message : String) :
    (toLower (reasonText code message)).toList =
      (toString code).toList ++ ' ' :: (toLower message).toList := by
  have digits : (toString code).toList.map Char.toLower = (toString code).toList := by
    conv_rhs => rw [← List.map_id (toString code).toList]
    exact List.map_congr_left fun c member => toLower_of_digit (mem_decimal member)
  unfold reasonText
  rw [toLower_toList, toLower_toList, String.toList_append, String.toList_append, List.map_append,
    List.map_append, digits, List.append_assoc]
  rfl

/-- A pattern without a blank is in the code or in the message. -/
theorem finds_reasonText (code : Int) (message pattern : String)
    (solid : ' ' ∉ pattern.toList) :
    finds (toLower (reasonText code message)) pattern =
      (finds (toString code) pattern || finds (toLower message) pattern) := by
  rw [Bool.eq_iff_iff, Bool.or_eq_true, finds_iff, finds_iff, finds_iff, toLower_reasonText]
  exact infix_append_sep_iff solid

/-- A pattern that starts with a letter is in the message. -/
theorem finds_reasonText_of_head (code : Int) (message pattern : String) {x : Char}
    {rest : List Char} (head : pattern.toList = x :: rest) (letter : 65 ≤ x.val.toNat) :
    finds (toLower (reasonText code message)) pattern = finds (toLower message) pattern := by
  rw [Bool.eq_iff_iff, finds_iff, finds_iff, toLower_reasonText, head, List.append_cons]
  apply infix_append_iff_of_head
  intro member
  rcases List.mem_append.mp member with digit | blank
  · have low := lt_of_digit (mem_decimal digit)
    omega
  · rw [List.mem_singleton.mp blank] at letter
    exact absurd letter (by decide)

/-! ## The two kinds -/

/-- The classifier's last three tests: neither throttled nor permanent. -/
def laterKind (r : String) : RejectKind :=
  if finds r "nonce" then .Hard
  else if finds r "margin" || finds r "balance" || finds r "insufficient" then .Hard
  else if finds r "min" && (finds r "base" || finds r "size" || finds r "amount") then .MinNotional
  else .Hard

theorem laterKind_cases (r : String) : laterKind r = .Hard ∨ laterKind r = .MinNotional := by
  unfold laterKind
  split
  · exact Or.inl rfl
  · split
    · exact Or.inl rfl
    · split
      · exact Or.inr rfl
      · exact Or.inl rfl

/-- The decision table of the classifier. -/
def decideKind (crossed throttled permanent permanent' : Bool) (later : RejectKind) : RejectKind :=
  if crossed then .BenignPostOnlyCross
  else if throttled then .Throttled
  else if permanent then .Permanent
  else if permanent' then .Permanent
  else later

theorem classifyReject_message (message : String) :
    classifyReject message =
      decideKind (finds (toLower message) "post" && finds (toLower message) "only")
        (finds (toLower message) "23000" || finds (toLower message) "volume quota")
        (finds (toLower message) "21706") (finds (toLower message) "21740")
        (laterKind (toLower message)) := rfl

theorem laterKind_reasonText (code : Int) (message : String) :
    laterKind (toLower (reasonText code message)) = laterKind (toLower message) := by
  unfold laterKind
  rw [finds_reasonText_of_head code message "nonce" rfl (by decide),
    finds_reasonText_of_head code message "margin" rfl (by decide),
    finds_reasonText_of_head code message "balance" rfl (by decide),
    finds_reasonText_of_head code message "insufficient" rfl (by decide),
    finds_reasonText_of_head code message "min" rfl (by decide),
    finds_reasonText_of_head code message "base" rfl (by decide),
    finds_reasonText_of_head code message "size" rfl (by decide),
    finds_reasonText_of_head code message "amount" rfl (by decide)]

theorem classifyReject_reasonText (code : Int) (message : String) :
    classifyReject (reasonText code message) =
      decideKind (finds (toLower message) "post" && finds (toLower message) "only")
        (finds (toString code) "23000" ||
          (finds (toLower message) "23000" || finds (toLower message) "volume quota"))
        (finds (toString code) "21706" || finds (toLower message) "21706")
        (finds (toString code) "21740" || finds (toLower message) "21740")
        (laterKind (toLower message)) := by
  rw [classifyReject_message, laterKind_reasonText,
    finds_reasonText_of_head code message "post" rfl (by decide),
    finds_reasonText_of_head code message "only" rfl (by decide),
    finds_reasonText_of_head code message "volume quota" rfl (by decide),
    finds_reasonText code message "23000" (by decide),
    finds_reasonText code message "21706" (by decide),
    finds_reasonText code message "21740" (by decide), Bool.or_assoc]

theorem kinds_agree_iff (code : Int) (message : String) :
    classifyReject message = classifyReject (reasonText code message) ↔
      CodeAddsNothing code message := by
  rw [classifyReject_message, classifyReject_reasonText]
  unfold CodeAddsNothing
  dsimp only
  generalize (finds (toLower message) "post" && finds (toLower message) "only") = crossed
  generalize (finds (toLower message) "23000" || finds (toLower message) "volume quota") = throttled
  generalize finds (toLower message) "21706" = permanent
  generalize finds (toLower message) "21740" = permanent'
  have other := laterKind_cases (toLower message)
  generalize laterKind (toLower message) = later at other ⊢
  unfold decideKind
  cases crossed with
  | true => simp
  | false =>
    cases throttled with
    | true => simp
    | false =>
      cases finds (toString code) "23000" with
      | true => rcases other with rfl | rfl <;> cases permanent <;> cases permanent' <;> simp
      | false =>
        rcases other with rfl | rfl <;> cases permanent <;> cases permanent' <;>
          cases finds (toString code) "21706" <;> cases finds (toString code) "21740" <;> simp

/-! ## The two deliveries -/

variable {lib} {code : Int} {message body : String}

theorem sendFailure_ok (reads : lib.ReadsValues)
    (parses : lib.parse body = .ok (rejectJson code message))
    (fits : -(2 ^ 31) ≤ code ∧ code < 2 ^ 31) (reject : code ≠ 200) (what : String) :
    sendFailure lib what (.http 200 body) =
      some (.gateway (classifyReject message) (codeText what code message)) := by
  have code_read : lib.readInt32 (rejectJson code message) "code" 0 = .ok code :=
    reads.int_present _ _ _ _ rfl fits
  have message_read : lib.readText (rejectJson code message) "message" "" = .ok message :=
    reads.text_present _ _ _ _ rfl
  have hash_read : lib.readText (rejectJson code message) "tx_hash" "" = .ok "" :=
    reads.text_missing _ _ _ rfl
  have result : sendTx lib (.http 200 body) = .ok ⟨code, message, ""⟩ := by
    unfold sendTx checkTransport SendTxResult.fromJson
    simp only [ne_eq, not_true, if_false, bind, Except.bind, parses, code_read, message_read,
      hash_read, pure, Except.pure]
  unfold sendFailure
  rw [result]
  exact if_pos reject

/-- An HTTP error with an integer code in its body: the code is read as an `int`, and one
that reads as 200 is no verdict. -/
theorem sendFailure_httpError_read {json : Json} (parses : lib.parse body = .ok json)
    (coded : (json.find "code").bind Json.asInteger = some code)
    (messaged : ((json.find "message").bind Json.asString).getD "" = message) {status : Nat}
    (failed : status ≠ 200) (what : String) :
    sendFailure lib what (.http status body) =
      if toInt32 code = 200 then some (.plain (httpErrorText status body))
      else some (.gateway (classifyReject (reasonText (toInt32 code) message))
        (codeText what (toInt32 code) message)) := by
  have transport : checkTransport (.http status body) = .error (httpErrorText status body) :=
    if_pos failed
  have result : sendTx lib (.http status body) = .error (httpErrorText status body) := by
    unfold sendTx
    rw [transport]
    rfl
  have verdict : parseVenueReject lib (httpErrorText status body) =
      if toInt32 code = 200 then none else some (toInt32 code, message) := by
    unfold parseVenueReject
    rw [substrAfter_httpErrorText]
    dsimp only
    rw [parses]
    dsimp only
    rw [coded, messaged]
  unfold sendFailure
  rw [result]
  dsimp only
  rw [verdict]
  by_cases read : toInt32 code = 200
  · rw [if_pos read, if_pos read]
  · rw [if_neg read, if_neg read]

theorem sendFailure_httpError (parses : lib.parse body = .ok (rejectJson code message))
    (fits : -(2 ^ 31) ≤ code ∧ code < 2 ^ 31) (reject : code ≠ 200) {status : Nat}
    (failed : status ≠ 200) (what : String) :
    sendFailure lib what (.http status body) =
      some (.gateway (classifyReject (reasonText code message)) (codeText what code message)) := by
  have read : sendFailure lib what (.http status body) = if toInt32 code = 200 then
      some (.plain (httpErrorText status body))
      else some (.gateway (classifyReject (reasonText (toInt32 code) message))
        (codeText what (toInt32 code) message)) :=
    sendFailure_httpError_read parses rfl rfl failed what
  rw [toInt32_of_fits fits.1 fits.2, if_neg reject] at read
  exact read

/-- A reject delivered either way is handled by its classified error. -/
theorem handle_of_gateway {call : Call} {answer : Answer} {kind : RejectKind}
    {text : String → String} (failure : ∀ what, sendFailure lib what answer = some (.gateway kind (text what)))
    (reply : Except String Int) (g : Locked) :
    call.handle lib answer reply g =
      match call with
      | .submit submit i id => (.error (.gateway kind (text submit.name)),
          ⟨g.maps.eraseOrderRec i id, resyncNonce reply g.nonces⟩)
      | .cancel => (cancelVerdict (.gateway kind (text "cancel")),
          { g with nonces := resyncNonce reply g.nonces }) := by
  cases call with
  | submit submit i id =>
    simp only [Call.handle, submitLocked, sendSigned, failure, Failure.isGateway, if_true, Except.map]
  | cancel => simp only [Call.handle, cancelLocked, sendSigned, failure]

theorem sameHandling_iff_kinds (reads : lib.ReadsValues)
    (parses : lib.parse body = .ok (rejectJson code message))
    (fits : -(2 ^ 31) ≤ code ∧ code < 2 ^ 31) (reject : code ≠ 200) {status : Nat}
    (failed : status ≠ 200) :
    SameHandling lib status body ↔
      classifyReject message = classifyReject (reasonText code message) := by
  have direct := sendFailure_ok reads parses fits reject
  have wrapped := sendFailure_httpError parses fits reject failed
  constructor
  · intro same
    have submits := (same (.submit .submitPostOnlyLimit 0 "") (.error "") ⟨.empty, ⟨0, 0⟩⟩).1
    rw [handle_of_gateway direct, handle_of_gateway wrapped] at submits
    have errors := congrArg Prod.fst submits
    simp only [Except.error.injEq, Failure.gateway.injEq, and_true] at errors
    exact errors
  · intro agree call reply g
    rw [handle_of_gateway direct, handle_of_gateway wrapped, agree]
    refine ⟨rfl, ?_⟩
    cases call <;> rfl

/-- The two deliveries of a reject are handled alike just when the code adds nothing to
the message. -/
theorem reject_delivery_iff (lib : Externals) (code : Int) (message body : String) (status : Nat)
    (reads : lib.ReadsValues) (parses : lib.parse body = .ok (rejectJson code message))
    (fits : -(2 ^ 31) ≤ code ∧ code < 2 ^ 31) (reject : code ≠ 200) (failed : status ≠ 200) :
    SameHandling lib status body ↔ CodeAddsNothing code message := by
  rw [sameHandling_iff_kinds reads parses fits reject failed]
  exact kinds_agree_iff code message

/-- A parser that knows one body, and `readValue` as documented. -/
def oneBody (body : String) (json : Json) : Externals where
  parse text := if text = body then .ok json else .error "[json.exception.parse_error.101]"
  dump _ := ""
  readInt32 json key target :=
    match json.find key with
    | some (.int n) => .ok (toInt32 n)
    | some _ => .error "[json.exception.type_error.302]"
    | none => .ok target
  readText json key target :=
    match json.find key with
    | some (.str s) => .ok s
    | some _ => .error "[json.exception.type_error.302]"
    | none => .ok target
  stod _ := none
  nonFiniteLevel side _ := side
  llroundOverflow _ := -(2 ^ 63)
  showDouble _ := ""
  sane _ := true

theorem oneBody_readsValues (body : String) (json : Json) : (oneBody body json).ReadsValues where
  int_present json key n target found fits := by
    simp only [oneBody, found, toInt32_of_fits fits.1 fits.2]
  text_present json key s target found := by simp only [oneBody, found]
  int_missing members key target missing := by simp only [oneBody, missing]
  text_missing members key target missing := by simp only [oneBody, missing]

theorem oneBody_readsInts (body : String) (json : Json) : (oneBody body json).ReadsInts where
  toReadsValues := oneBody_readsValues body json
  int_cut json key n target found := by simp only [oneBody, found]

theorem oneBody_parses (body : String) (json : Json) : (oneBody body json).parse body = .ok json :=
  if_pos rfl

def sizeBody : String :=
  "\x7b\"code\":21706,\"message\":\"invalid order base or quote amount (21706)\"\x7d"

def sizeMessage : String := "invalid order base or quote amount (21706)"

/-- A reject whose message names its code is handled alike. -/
theorem reject_delivery_iff_sample :
    SameHandling (oneBody sizeBody (rejectJson 21706 sizeMessage)) 400 sizeBody := by
  apply (reject_delivery_iff _ 21706 sizeMessage sizeBody 400 (oneBody_readsValues _ _)
    (oneBody_parses _ _) (by decide) (by decide) (by decide)).mpr
  unfold CodeAddsNothing finds
  simp only [toLower_toList]
  decide +kernel

def throttleBody : String := "\x7b\"code\":23000,\"message\":\"Too Many Requests!\"\x7d"

/-- The rate limit's own reject: throttled behind an HTTP 429, hard in an HTTP-200 body. -/
theorem throttle_delivery_differs :
    ¬ SameHandling (oneBody throttleBody (rejectJson 23000 "Too Many Requests!")) 429
      throttleBody := by
  rw [sameHandling_iff_kinds (oneBody_readsValues _ _) (oneBody_parses _ _) (by decide)
    (by decide) (by decide), kinds_agree_iff]
  unfold CodeAddsNothing finds
  simp only [toLower_toList]
  decide +kernel

end LighterApi.Guarantees.RejectDelivery

import LighterApi.Guarantees.RejectDelivery
import LighterApi.Guarantees.VenueAnswers

/-!
# Verdicts read off free text

The classifier finds the venue's codes by searching the rendered code and the message
for their digits, and `cancel` finds out that an order is gone by searching the text of
the exception. Digits inside another code or inside the message count as the code
itself, and a message that speaks of the nonce or of the quota can also say "already".
Both rules are right exactly when no such overlap occurs.
-/
namespace LighterApi.Guarantees.RejectTexts
open LighterApi.Source LighterApi.Source.SendTx LighterApi.Source.Gateway LighterApi.Library.Infix
open LighterApi.Guarantees.RejectDelivery LighterApi.Guarantees.VenueAnswers

/-! ## Kinds that belong to a code -/

def postOnly (message : String) : Bool :=
  finds (toLower message) "post" && finds (toLower message) "only"

def volumeQuota (message : String) : Bool := finds (toLower message) "volume quota"

/-- The kind that the numeric code and the quota decide. -/
def KindByCode (code : Int) (message : String) (kind : RejectKind) : Prop :=
  postOnly message = false →
    (kind = .Throttled ↔ code = 23000 ∨ volumeQuota message = true) ∧
    (kind = .Permanent ↔ (code = 21706 ∨ code = 21740) ∧ kind ≠ .Throttled)

/-- The digits stand in the code as it is rendered, or in the message. -/
def digitsIn (code : Int) (message digits : String) : Bool :=
  finds (toString (toInt32 code)) digits || finds (toLower message) digits

/-- The digits of the three codes stand only where the code itself is meant: 23000 in a
throttling reject, the other two there or in a reject with one of their codes. -/
def CodesStandAlone (code : Int) (message : String) : Prop :=
  toInt32 code = 200 ∨ postOnly message = true ∨
    ((digitsIn code message "23000" = true → code = 23000 ∨ volumeQuota message = true) ∧
      (digitsIn code message "21706" = true ∨ digitsIn code message "21740" = true →
        (code = 23000 ∨ volumeQuota message = true) ∨ code = 21706 ∨ code = 21740))

theorem decideKind_throttled_iff {crossed throttled permanent permanent' : Bool}
    {later : RejectKind} (other : later = .Hard ∨ later = .MinNotional) (uncrossed : crossed = false) :
    decideKind crossed throttled permanent permanent' later = .Throttled ↔ throttled = true := by
  subst uncrossed
  rcases other with rfl | rfl <;> cases throttled <;> cases permanent <;> cases permanent' <;>
    simp [decideKind]

theorem decideKind_permanent_iff {crossed throttled permanent permanent' : Bool}
    {later : RejectKind} (other : later = .Hard ∨ later = .MinNotional) (uncrossed : crossed = false) :
    decideKind crossed throttled permanent permanent' later = .Permanent ↔
      throttled = false ∧ (permanent = true ∨ permanent' = true) := by
  subst uncrossed
  rcases other with rfl | rfl <;> cases throttled <;> cases permanent <;> cases permanent' <;>
    simp [decideKind]

/-- Each code holds its own digits. -/
theorem digitsIn_own (message : String) :
    digitsIn 23000 message "23000" = true ∧ digitsIn 21706 message "21706" = true ∧
      digitsIn 21740 message "21740" = true := by
  have rendered : finds (toString (toInt32 23000)) "23000" = true ∧
      finds (toString (toInt32 21706)) "21706" = true ∧
      finds (toString (toInt32 21740)) "21740" = true := by
    decide +kernel
  unfold digitsIn
  rw [rendered.1, rendered.2.1, rendered.2.2]
  exact ⟨rfl, rfl, rfl⟩

/-- The kinds as the classifier decides them from the joined text. -/
theorem classifyReject_kinds (code : Int) {message : String} (uncrossed : postOnly message = false) :
    (classifyReject (reasonText (toInt32 code) message) = .Throttled ↔
      digitsIn code message "23000" = true ∨ volumeQuota message = true) ∧
    (classifyReject (reasonText (toInt32 code) message) = .Permanent ↔
      ¬ (digitsIn code message "23000" = true ∨ volumeQuota message = true) ∧
        (digitsIn code message "21706" = true ∨ digitsIn code message "21740" = true)) := by
  have later := laterKind_cases (toLower message)
  unfold postOnly at uncrossed
  rw [classifyReject_reasonText, decideKind_throttled_iff later uncrossed,
    decideKind_permanent_iff later uncrossed, ← Bool.or_assoc]
  unfold digitsIn volumeQuota
  constructor
  · rw [Bool.or_eq_true]
  · rw [← Bool.not_eq_true, Bool.or_eq_true]

theorem kindByCode_iff {code : Int} {message : String} (verdict : toInt32 code ≠ 200) :
    KindByCode code message (classifyReject (reasonText (toInt32 code) message)) ↔
      CodesStandAlone code message := by
  unfold KindByCode CodesStandAlone
  cases crossed : postOnly message with
  | true => simp
  | false =>
    obtain ⟨throttled, permanent⟩ := classifyReject_kinds code crossed
    obtain ⟨own, own', own''⟩ := digitsIn_own message
    have own_throttled : code = 23000 → digitsIn code message "23000" = true := by
      rintro rfl
      exact own
    have own_permanent : code = 21706 ∨ code = 21740 →
        digitsIn code message "21706" = true ∨ digitsIn code message "21740" = true := by
      rintro (rfl | rfl)
      · exact Or.inl own'
      · exact Or.inr own''
    simp only [forall_true_left, verdict, reduceCtorEq, false_or, ne_eq]
    rw [permanent, throttled]
    constructor
    · rintro ⟨by_code, by_codes⟩
      refine ⟨fun digits => by_code.mp (Or.inl digits), fun digits => ?_⟩
      by_cases quota : digitsIn code message "23000" = true ∨ volumeQuota message = true
      · exact Or.inl (by_code.mp quota)
      · exact Or.inr (by_codes.mp ⟨quota, digits⟩).1
    · rintro ⟨alone, alone'⟩
      have by_code : digitsIn code message "23000" = true ∨ volumeQuota message = true ↔
          code = 23000 ∨ volumeQuota message = true := by
        constructor
        · rintro (digits | quota)
          · exact alone digits
          · exact Or.inr quota
        · rintro (here | quota)
          · exact Or.inl (own_throttled here)
          · exact Or.inr quota
      refine ⟨by_code, ?_⟩
      rw [by_code]
      constructor
      · rintro ⟨calm, digits⟩
        exact ⟨(alone' digits).resolve_left calm, calm⟩
      · rintro ⟨codes, calm⟩
        exact ⟨calm, own_permanent codes⟩

/-- A reject in the body of an HTTP error gets the kind of its code exactly when the
digits of the codes stand alone. -/
theorem reject_kind_iff (lib : Externals) (code : Int) (message body what : String) (json : Json)
    (status : Nat) (parses : lib.parse body = .ok json)
    (coded : (json.find "code").bind Json.asInteger = some code)
    (messaged : ((json.find "message").bind Json.asString).getD "" = message)
    (failed : status ≠ 200) :
    (∀ kind text, sendFailure lib what (.http status body) = some (.gateway kind text) →
        KindByCode code message kind) ↔ CodesStandAlone code message := by
  rw [sendFailure_httpError_read parses coded messaged failed]
  by_cases read : toInt32 code = 200
  · simp [read, CodesStandAlone]
  · rw [if_neg read, ← kindByCode_iff read]
    constructor
    · intro all
      exact all _ _ rfl
    · intro decided kind text sent
      rw [← (Failure.gateway.inj (Option.some.inj sent)).1]
      exact decided

def nonceBody : String := "\x7b\"code\":21104,\"message\":\"invalid nonce: expected 230001\"\x7d"

/-- A throttling reject that names its code. -/
theorem reject_kind_iff_sample : ∃ kind text,
    sendFailure (oneBody throttleBody (rejectJson 23000 "Too Many Requests!")) "cancel"
      (.http 429 throttleBody) = some (.gateway kind text) ∧
      KindByCode 23000 "Too Many Requests!" kind := by
  have sent := sendFailure_httpError (oneBody_parses throttleBody (rejectJson 23000 "Too Many Requests!"))
    (by decide) (by decide) (show 429 ≠ 200 by decide) "cancel"
  refine ⟨_, _, sent, (reject_kind_iff _ 23000 "Too Many Requests!" throttleBody "cancel" _ 429
    (oneBody_parses _ _) rfl rfl (by decide)).mpr ?_ _ _ sent⟩
  exact Or.inr (Or.inr ⟨fun _ => Or.inl rfl, fun _ => Or.inl (Or.inl rfl)⟩)

/-- The nonce a reject asks for is read as the code of the rate limit. -/
theorem nonce_read_as_quota : ¬ ∀ (lib : Externals) (code : Int) (message body what : String)
    (json : Json) (status : Nat), lib.parse body = .ok json →
    (json.find "code").bind Json.asInteger = some code →
    ((json.find "message").bind Json.asString).getD "" = message → status ≠ 200 →
    ∀ kind text, sendFailure lib what (.http status body) = some (.gateway kind text) →
      KindByCode code message kind := by
  intro always
  have read : toInt32 21104 ≠ 200 := by
    decide
  have decided := always (oneBody nonceBody (rejectJson 21104 "invalid nonce: expected 230001"))
    21104 "invalid nonce: expected 230001" nonceBody "cancel" _ 400 (oneBody_parses _ _) rfl rfl
    (by decide) _ _ (sendFailure_httpError (oneBody_parses _ _) (by decide) (by decide) (by decide) _)
  have alone := (kindByCode_iff read).mp decided
  revert alone
  unfold CodesStandAlone digitsIn postOnly volumeQuota finds
  simp only [toLower_toList]
  decide +kernel

/-! ## Verdicts that an order is gone -/

/-- The member is a text, or there is none and the text is empty. -/
def IsText (json : Json) (key text : String) : Prop :=
  json.find key = some (.str text) ∨ json.find key = none ∧ text = ""

/-- A reject in the body of a response: an object with an integer code other than 200 and a
message. Behind an HTTP error a message that is no text counts as none. -/
inductive Delivered (lib : Externals) : Nat → String → Int → String → Prop where
  | envelope {body message hash : String} {json : Json} {code : Int}
      (parses : lib.parse body = .ok json) (coded : json.find "code" = some (.int code))
      (messaged : IsText json "message" message) (hashed : IsText json "tx_hash" hash)
      (reject : code ≠ 200) : Delivered lib 200 body code message
  | httpError {body message : String} {json : Json} {code : Int} {status : Nat}
      (failed : status ≠ 200) (parses : lib.parse body = .ok json)
      (coded : json.find "code" = some (.int code))
      (messaged : ((json.find "message").bind Json.asString).getD "" = message)
      (reject : code ≠ 200) : Delivered lib status body code message

/-- The text that is classified: the message, behind an HTTP error with the code in front. -/
def classified (status : Nat) (code : Int) (message : String) : String :=
  if status = 200 then message else reasonText (toInt32 code) message

/-- One of the classifier's tests finds a cause in the text. -/
def namesCause (reason : String) : Bool :=
  let r := toLower reason
  (finds r "post" && finds r "only") || (finds r "23000" || finds r "volume quota") ||
    finds r "21706" || finds r "21740" || finds r "nonce" ||
    (finds r "margin" || finds r "balance" || finds r "insufficient") ||
    (finds r "min" && (finds r "base" || finds r "size" || finds r "amount"))

/-- The reject is about something else than whether the order exists. -/
def Unrelated (status : Nat) (code : Int) (message : String) : Prop :=
  code = 23000 ∨ volumeQuota message = true ∨ finds (toLower message) "nonce" = true ∨
    namesCause (classified status code message) = true

/-- One of the phrases for an order that is gone. -/
def saysGone (message : String) : Bool :=
  ["not found", "not exist", "already", "inactive"].any fun phrase => finds (toLower message) phrase

/-- After this response `cancel` returns false only on a verdict about the order, and
throws a `GatewayError` on every other one. -/
def GoneOnlyOnVerdict (lib : Externals) (status : Nat) (body : String) (code : Int)
    (message : String) : Prop :=
  ∀ reply g, let result := (cancelLocked lib (.ok ()) (.http status body) reply g).1
    (result = .ok false → ¬ Unrelated status code message) ∧
      (Unrelated status code message → ∃ kind text, result = .error (.gateway kind text))

section

variable {lib : Externals} {status : Nat} {body : String} {code : Int} {message : String}

theorem readText_of_isText (reads : lib.ReadsInts) {json : Json} {key text : String}
    (coded : json.find "code" = some (.int code)) (said : IsText json key text) :
    lib.readText json key "" = .ok text := by
  rcases said with present | ⟨missing, rfl⟩
  · exact reads.text_present json key text "" present
  · cases json with
    | obj members => exact reads.text_missing members key "" missing
    | _ => exact absurd coded (by simp [Json.find])

/-- What `sendSigned` makes of a reject. A code that is cut to 200 is none. -/
theorem Delivered.sendFailure_eq (delivered : Delivered lib status body code message)
    (reads : lib.ReadsInts) (what : String) : sendFailure lib what (.http status body) =
      if toInt32 code = 200 then
        if status = 200 then none else some (.plain (httpErrorText status body))
      else some (.gateway (classifyReject (classified status code message))
        (codeText what (toInt32 code) message)) := by
  cases delivered with
  | @envelope _ _ hash json _ parses coded messaged hashed reject =>
    have returned : sendTx lib (.http 200 body) = .ok ⟨toInt32 code, message, hash⟩ := by
      unfold sendTx checkTransport SendTxResult.fromJson
      simp only [ne_eq, not_true, if_false, bind, Except.bind, parses,
        reads.int_cut json "code" code 0 coded, readText_of_isText reads coded messaged,
        readText_of_isText reads coded hashed, pure, Except.pure]
    unfold sendFailure
    rw [returned]
    by_cases cut : toInt32 code = 200 <;> simp [cut, classified]
  | httpError failed parses coded messaged reject =>
    rw [sendFailure_httpError_read parses (by rw [coded]; rfl) messaged failed, if_neg failed]
    unfold classified
    rw [if_neg failed]

theorem toLower_codeText : (toLower (codeText "cancel" code message)).toList =
    "cancel:".toList ++ ' ' :: ("code".toList ++ ' ' :: ((toString code).toList ++
      ' ' :: (toLower message).toList)) := by
  have rest := toLower_reasonText code message
  have start : codeText "cancel" code message = "cancel: code " ++ reasonText code message := by
    apply String.toList_inj.mp
    unfold codeText reasonText
    simp only [String.toList_append, List.append_assoc]
    rfl
  rw [toLower_toList] at rest
  rw [start, toLower_toList, String.toList_append, List.map_append, rest]
  rfl

/-- A letter is nowhere in a rendered code. -/
theorem letter_notMem_digits {x : Char} (letter : 65 ≤ x.val.toNat) :
    x ∉ (toString code).toList := by
  intro member
  have low := lt_of_digit (mem_decimal member)
  omega

/-- A word that is not in front of the message is searched for in the message. -/
theorem finds_codeText_word (pattern : String) (x : Char) (solid : ' ' ∉ pattern.toList)
    (member : x ∈ pattern.toList) (letter : 65 ≤ x.val.toNat)
    (front : ¬ pattern.toList <:+: "cancel:".toList) (front' : ¬ pattern.toList <:+: "code".toList) :
    finds (toLower (codeText "cancel" code message)) pattern = finds (toLower message) pattern := by
  have digits : ¬ pattern.toList <:+: (toString code).toList :=
    fun found => letter_notMem_digits letter (found.subset member)
  rw [Bool.eq_iff_iff, finds_iff, finds_iff, toLower_codeText, infix_append_sep_iff solid,
    infix_append_sep_iff solid, infix_append_sep_iff solid]
  simp only [front, front', digits, false_or]

/-- Two words with a blank between them, the first of them not in front of a blank there. -/
theorem finds_codeText_words (pattern : String) {first second : List Char} (x : Char)
    (words : pattern.toList = first ++ ' ' :: second) (solid : ' ' ∉ first) (member : x ∈ first)
    (letter : 65 ≤ x.val.toNat) (front : ¬ first <:+ "cancel:".toList)
    (front' : ¬ first <:+ "code".toList) :
    finds (toLower (codeText "cancel" code message)) pattern = finds (toLower message) pattern := by
  have blank : ' ' ∉ (toString code).toList := by
    intro here
    rcases mem_decimal here with digit | minus
    · exact absurd digit (by decide)
    · exact absurd minus (by decide)
  have digits : ¬ first <:+ (toString code).toList :=
    fun found => letter_notMem_digits letter (found.subset member)
  rw [Bool.eq_iff_iff, finds_iff, finds_iff, toLower_codeText, words,
    infix_across_sep_iff solid (by decide), infix_across_sep_iff solid (by decide),
    infix_across_sep_iff solid blank]
  simp only [front, front', digits, false_and, false_or]

/-- What stands in front of the message never says that an order is gone. -/
theorem isOrderGoneReason_codeText :
    isOrderGoneReason (codeText "cancel" code message) = isOrderGoneReason message := by
  unfold isOrderGoneReason
  dsimp only
  have found : "not found".toList = ['n', 'o', 't'] ++ ' ' :: "found".toList := rfl
  have exists_ : "not exist".toList = ['n', 'o', 't'] ++ ' ' :: "exist".toList := rfl
  rw [finds_codeText_words "not found" 't' found (by decide) (by decide) (by decide) (by decide)
      (by decide),
    finds_codeText_words "not exist" 't' exists_ (by decide) (by decide) (by decide) (by decide)
      (by decide),
    finds_codeText_word "already" 'a' (by decide) (by decide) (by decide) (by decide) (by decide),
    finds_codeText_word "inactive" 'i' (by decide) (by decide) (by decide) (by decide) (by decide)]

theorem isOrderGoneReason_eq : isOrderGoneReason message = saysGone message := by
  simp only [isOrderGoneReason, saysGone, List.any_cons, List.any_nil, Bool.or_false, Bool.or_assoc]

/-- No NUL stands in front of the message. -/
theorem cText_codeText :
    cText (codeText "cancel" code message) = codeText "cancel" code (cText message) := by
  have label_plain : ("cancel: code ".toList.all fun c => decide (c ≠ '\x00')) = true := by decide
  have plain : ∀ c ∈ "cancel: code ".toList ++ ((toString code).toList ++ [' ']),
      (decide (c ≠ '\x00')) = true := by
    intro c member
    rcases List.mem_append.mp member with label | member
    · exact List.all_eq_true.mp label_plain c label
    · rcases List.mem_append.mp member with digit | blank
      · rw [decide_eq_true_eq]
        rintro rfl
        rcases mem_decimal digit with digit | minus
        · exact absurd digit (by decide)
        · exact absurd minus (by decide)
      · rw [List.mem_singleton.mp blank]
        decide
  have text : ∀ m : String, (codeText "cancel" code m).toList =
      ("cancel: code ".toList ++ ((toString code).toList ++ [' '])) ++ m.toList := by
    intro m
    unfold codeText
    simp only [String.toList_append, List.append_assoc]
    rfl
  have rest : message.toList.takeWhile (fun c => decide (c ≠ '\x00')) = (cText message).toList := by
    unfold cText
    rw [String.toList_ofList]
  change String.ofList ((codeText "cancel" code message).toList.takeWhile _) = _
  rw [text, List.takeWhile_append_of_pos plain, rest, ← text, String.ofList_toList]

/-- What `cancel` makes of a reject whose code is not cut to 200. -/
theorem Delivered.cancel_eq (delivered : Delivered lib status body code message)
    (reads : lib.ReadsInts) (uncut : toInt32 code ≠ 200) (reply : Except String Int) (g : Locked) :
    (cancelLocked lib (.ok ()) (.http status body) reply g).1 =
      if saysGone (cText message) then .ok false
      else .error (.gateway (classifyReject (classified status code message))
        (codeText "cancel" (toInt32 code) message)) := by
  unfold cancelLocked sendSigned
  simp only [delivered.sendFailure_eq reads, if_neg uncut]
  unfold cancelVerdict
  dsimp only
  rw [cText_codeText, isOrderGoneReason_codeText, isOrderGoneReason_eq]

/-- One whose code is cut to 200 is taken for success, or for a transport failure. -/
theorem Delivered.cancel_eq_of_cut (delivered : Delivered lib status body code message)
    (reads : lib.ReadsInts) (cut : toInt32 code = 200) (reply : Except String Int) (g : Locked) :
    (cancelLocked lib (.ok ()) (.http status body) reply g).1 =
      if status = 200 then .ok true
      else .error (.gateway .Hard
        ("Lighter cancel transport failure: " ++ cText (httpErrorText status body))) := by
  unfold cancelLocked sendSigned
  simp only [delivered.sendFailure_eq reads, if_pos cut]
  by_cases direct : status = 200
  · simp only [if_pos direct]
  · simp only [if_neg direct, cancelVerdict]

/-- The rule holds exactly when no unrelated reject says that an order is gone, before the
first NUL of its message, or comes in an HTTP-200 body with a code that is cut to 200. -/
theorem cancel_gone_iff (lib : Externals) (reads : lib.ReadsInts) (status : Nat) (body : String)
    (code : Int) (message : String) (delivered : Delivered lib status body code message) :
    GoneOnlyOnVerdict lib status body code message ↔
      (Unrelated status code message →
        if toInt32 code = 200 then status ≠ 200 else saysGone (cText message) = false) := by
  by_cases cut : toInt32 code = 200
  · rw [if_pos cut]
    have returned := delivered.cancel_eq_of_cut reads cut
    constructor
    · rintro rule unrelated direct
      have thrown := (rule (.error "") ⟨.empty, ⟨0, 0⟩⟩).2 unrelated
      rw [returned, if_pos direct] at thrown
      exact absurd thrown (by simp)
    · intro apart reply g
      dsimp only
      rw [returned]
      by_cases direct : status = 200
      · have related : ¬ Unrelated status code message := fun unrelated => apart unrelated direct
        rw [if_pos direct]
        exact ⟨fun _ => related, fun unrelated => absurd unrelated related⟩
      · rw [if_neg direct]
        exact ⟨fun gone => absurd gone (by simp), fun _ => ⟨_, _, rfl⟩⟩
  · rw [if_neg cut]
    have returned := delivered.cancel_eq reads cut
    constructor
    · intro rule unrelated
      by_contra said
      have gone := returned (.error "") ⟨.empty, ⟨0, 0⟩⟩
      rw [if_pos (Bool.not_eq_false _ ▸ said)] at gone
      exact (rule _ _).1 gone unrelated
    · intro apart reply g
      dsimp only
      rw [returned]
      by_cases gone : saysGone (cText message) = true
      · have related : ¬ Unrelated status code message := by
          intro unrelated
          exact absurd (gone.symm.trans (apart unrelated)) (by decide)
        exact ⟨fun _ => related, fun unrelated => absurd unrelated related⟩
      · rw [if_neg gone]
        exact ⟨fun returned => absurd returned (by simp), fun _ => ⟨_, _, rfl⟩⟩

end

def filledMessage : String := "order already filled"

def usedMessage : String := "invalid nonce: 41 already used"

def messageBody (message : String) : String :=
  "\x7b\"code\":21104,\"message\":\"" ++ message ++ "\"\x7d"

theorem delivered_message (message : String) :
    Delivered (oneBody (messageBody message) (rejectJson 21104 message)) 400 (messageBody message)
      21104 message :=
  .httpError (by decide) (oneBody_parses _ _) rfl rfl (by decide)

/-- A verdict about the order: it is gone. -/
theorem cancel_gone_iff_sample :
    GoneOnlyOnVerdict (oneBody (messageBody filledMessage) (rejectJson 21104 filledMessage)) 400
      (messageBody filledMessage) 21104 filledMessage := by
  apply (cancel_gone_iff _ (oneBody_readsInts _ _) _ _ _ _ (delivered_message filledMessage)).mpr
  unfold Unrelated namesCause volumeQuota classified finds
  simp only [toLower_toList]
  decide +kernel

/-- A used nonce is taken for a gone order, although the order still rests. -/
theorem used_nonce_reads_gone : ¬ ∀ (lib : Externals), lib.ReadsInts → ∀ (status : Nat)
    (body : String) (code : Int) (message : String), Delivered lib status body code message →
      GoneOnlyOnVerdict lib status body code message := by
  intro always
  have rule := always _ (oneBody_readsInts _ _) _ _ _ _ (delivered_message usedMessage)
  have gone : saysGone (cText usedMessage) = true := by
    unfold saysGone finds
    simp only [toLower_toList]
    decide +kernel
  have nonce : finds (toLower usedMessage) "nonce" = true := by
    unfold finds
    simp only [toLower_toList]
    decide +kernel
  have returned := (delivered_message usedMessage).cancel_eq (oneBody_readsInts _ _) (by decide)
    (.error "") ⟨.empty, ⟨0, 0⟩⟩
  rw [if_pos gone] at returned
  exact (rule _ _).1 returned (Or.inr (Or.inr (Or.inl nonce)))

end LighterApi.Guarantees.RejectTexts

import LighterApi.Source.Json

/-!
Sending one signed transaction and reading the venue's verdict:
lighter_rest_client.cpp:81-87,421-435, lighter_models.cpp:120-124 and
lighter_execution_gateway.cpp:108-150,255-261,300-355. The HTTP exchange is an
answer given by the environment. The refresh of the auth token, which reads and
writes none of this, is left out.
-/
namespace LighterApi.Source.SendTx

/-- What came back of the HTTP exchange: the exception of the HTTP layer, or a response. -/
inductive Answer where
  | transport (what : String)
  | http (status : Nat) (body : String)
  deriving DecidableEq, Repr

def httpErrorText (status : Nat) (body : String) : String :=
  "Lighter HTTP error, code " ++ toString status ++ ", msg: " ++ body

def checkTransport : Answer → Except String String
  | .transport what => .error what
  | .http status body => if status ≠ 200 then .error (httpErrorText status body) else .ok body

structure SendTxResult where
  code : Int := 0
  message : String := ""
  txHash : String := ""
  deriving DecidableEq, Repr

variable (lib : Externals)

/-- Each field keeps its default when its key is missing. -/
def SendTxResult.fromJson (json : Json) : Except String SendTxResult := do
  let code ← lib.readInt32 json "code" 0
  let message ← lib.readText json "message" ""
  let txHash ← lib.readText json "tx_hash" ""
  return ⟨code, message, txHash⟩

def sendTx (answer : Answer) : Except String SendTxResult := do
  let body ← checkTransport answer
  let json ← lib.parse body
  SendTxResult.fromJson lib json

/-! ## Classification -/

inductive RejectKind where
  | Hard | BenignPostOnlyCross | Throttled | Permanent | MinNotional
  deriving DecidableEq, Repr

def classifyReject (reason : String) : RejectKind :=
  let r := toLower reason
  if finds r "post" && finds r "only" then .BenignPostOnlyCross
  else if finds r "23000" || finds r "volume quota" then .Throttled
  else if finds r "21706" then .Permanent
  else if finds r "21740" then .Permanent
  else if finds r "nonce" then .Hard
  else if finds r "margin" || finds r "balance" || finds r "insufficient" then .Hard
  else if finds r "min" && (finds r "base" || finds r "size" || finds r "amount") then .MinNotional
  else .Hard

def isOrderGoneReason (reason : String) : Bool :=
  let r := toLower reason
  finds r "not found" || finds r "not exist" || finds r "already" || finds r "inactive"

/-- The code and the message of a definitive reject embedded in an exception text. What
`what()` cuts off does not matter: the JSON parser takes a NUL for the end of its input. -/
def parseVenueReject (text : String) : Option (Int × String) :=
  match substrAfter text "msg: " with
  | none => none
  | some body =>
    match lib.parse body with
    | .error _ => none
    | .ok json =>
      match (json.find "code").bind Json.asInteger with
      | none => none
      | some code =>
        if toInt32 code = 200 then none
        else some (toInt32 code, ((json.find "message").bind Json.asString).getD "")

/-! ## Sending -/

/-- The exception that leaves a call: a classified `GatewayError` or a plain one. -/
inductive Failure where
  | gateway (kind : RejectKind) (text : String)
  | plain (what : String)
  deriving DecidableEq, Repr

def Failure.what : Failure → String
  | gateway _ text => text
  | plain what => what

/-- `GatewayError` is the only exception type the callers tell apart. -/
def Failure.isGateway : Failure → Bool
  | gateway _ _ => true
  | plain _ => false

def codeText (what : String) (code : Int) (message : String) : String :=
  what ++ ": code " ++ toString code ++ " " ++ message

/-- The text an HTTP-error reject is classified by. -/
def reasonText (code : Int) (message : String) : String := toString code ++ " " ++ message

/-- The exception with which `sendSigned` answers the exchange, if any. -/
def sendFailure (what : String) (answer : Answer) : Option Failure :=
  match sendTx lib answer with
  | .error text =>
    match parseVenueReject lib text with
    | some (code, message) =>
      some (.gateway (classifyReject (reasonText code message)) (codeText what code message))
    | none => some (.plain text)
  | .ok result =>
    if result.code ≠ 200 then
      some (.gateway (classifyReject result.message) (codeText what result.code result.message))
    else none

/-- The nonce counter, without the 64 bits of the source's, and the number of resyncs tried
so far. -/
structure Nonces where
  nextNonce : Int
  resyncs : Nat := 0
  deriving DecidableEq, Repr

/-- A failed request is logged and leaves the counter as it is. -/
def resyncNonce (reply : Except String Int) (nonces : Nonces) : Nonces :=
  match reply with
  | .ok nonce => ⟨nonce, nonces.resyncs + 1⟩
  | .error _ => { nonces with resyncs := nonces.resyncs + 1 }

/-- `sendSigned`: the nonce is resynced on every failure and counted up on success. -/
def sendSigned (what : String) (answer : Answer) (reply : Except String Int) (nonces : Nonces) :
    Option Failure × Nonces :=
  match sendFailure lib what answer with
  | some failure => (some failure, resyncNonce reply nonces)
  | none => (none, { nonces with nextNonce := nonces.nextNonce + 1 })

/-! ## The marker of an HTTP error -/

theorem behind_of_head_notMem {x : Char} {marker front : List Char} (rest : List Char)
    (absent : x ∉ front) :
    behind (x :: marker) (front ++ x :: (marker ++ rest)) = some rest := by
  induction front with
  | nil =>
    have start : x :: marker <+: x :: (marker ++ rest) := List.prefix_append (x :: marker) rest
    rw [List.nil_append, behind, if_pos start]
    simp
  | cons c front ih =>
    have differs : x ≠ c := fun same => absent (by simp [same])
    rw [List.cons_append, behind, if_neg]
    · exact ih fun member => absent (List.mem_cons_of_mem c member)
    · intro start
      exact differs (List.cons_prefix_cons.mp start).1

/-- The text of an HTTP error gives back the body: no `m` precedes the marker. -/
theorem substrAfter_httpErrorText (status : Nat) (body : String) :
    substrAfter (httpErrorText status body) "msg: " = some body := by
  have absent : 'm' ∉ "Lighter HTTP error, code ".toList ++ (toString status).toList ++
      [',', ' '] := by
    intro member
    rw [List.mem_append, List.mem_append] at member
    rcases member with (label | digits) | comma
    · exact absurd label (by decide)
    · exact absurd (mem_decimal_nat digits) (by decide)
    · exact absurd comma (by decide)
  have text : (httpErrorText status body).toList =
      ("Lighter HTTP error, code ".toList ++ (toString status).toList ++ [',', ' ']) ++
        'm' :: (['s', 'g', ':', ' '] ++ body.toList) := by
    unfold httpErrorText
    rw [String.toList_append, String.toList_append, String.toList_append, List.append_assoc,
      List.append_assoc, List.append_assoc, List.append_assoc]
    rfl
  have found := @behind_of_head_notMem 'm' ['s', 'g', ':', ' '] _ body.toList absent
  unfold substrAfter
  rw [text]
  change (behind ['m', 's', 'g', ':', ' '] _).map String.ofList = _
  rw [found, Option.map_some, String.ofList_toList]

end LighterApi.Source.SendTx

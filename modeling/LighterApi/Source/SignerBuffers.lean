import LighterApi.Library.HandedBuffers
import LighterApi.Source.Signer
import Mathlib.Data.List.ReduceOption

/-!
The buffers behind the answers of the native signer: lighter_signer.cpp:18-35,54-81,94-158.
A response is returned by value, and its strings are pointers to buffers that the library
allocated for the caller. Every function here goes on from the return of the native call
to its own return or throw, one `takeString` after another. The calls of one signer are
serialised by its mutex; `generateApiKey` and the calls of another signer are not.
-/
namespace LighterApi.Source.SignerBuffers
open LighterApi.Library.HandedBuffers

/-- A `char *`: its address with the text behind it, or null. -/
abbrev CString := Option (Nat × String)

namespace CString

def pointer (s : CString) : Option Nat := s.map Prod.fst

/-- The text `takeString` makes of it. -/
def text (s : CString) : String := (s.map Prod.snd).getD ""

end CString

structure StrOrErr where
  str : CString
  err : CString

structure SignedTxResponse where
  txType : Nat
  txInfo : CString
  txHash : CString
  messageToSign : CString
  err : CString

structure ApiKeyResponse where
  privateKey : CString
  publicKey : CString
  err : CString

/-- What the functions of the wrapper return. -/
inductive Value where
  | client
  | text (s : String)
  | signedTx (txType : Nat) (txInfo txHash : String)
  | apiKeyPair (privateKey publicKey : String)
  deriving DecidableEq, Repr

abbrev Wrapper := Code String (Except String Value)

/-- Copy and `Free`; a null pointer is an empty string. -/
def takeString (ptr : CString) (next : String → Wrapper) : Wrapper :=
  .take ptr.pointer fun out => next (out.getD "")

/-- Throw on an error text, or return. -/
def checked (what err : String) (value : Value) : Except String Value :=
  if err ≠ "" then .error ("Lighter " ++ what ++ ": " ++ err) else .ok value

def takeSigned (resp : SignedTxResponse) (what : String) : Wrapper :=
  takeString resp.txInfo fun txInfo =>
  takeString resp.txHash fun txHash =>
  takeString resp.messageToSign fun _ =>
  takeString resp.err fun err =>
  .done (checked what err (.signedTx resp.txType txInfo txHash))

def generateApiKey (resp : ApiKeyResponse) : Wrapper :=
  takeString resp.privateKey fun priv =>
  takeString resp.publicKey fun pub =>
  takeString resp.err fun err =>
  .done (checked "GenerateAPIKey" err (.apiKeyPair priv pub))

/-- The constructor of `LighterSigner`. -/
def createClient (err : CString) : Wrapper :=
  takeString err fun errStr => .done (checked "CreateClient" errStr .client)

/-- The text is the venue's error, and is returned. -/
def checkClient (text : CString) : Wrapper :=
  takeString text fun out => .done (.ok (.text out))

def signCreateOrder (resp : SignedTxResponse) : Wrapper := takeSigned resp "SignCreateOrder"

def signCancelOrder (resp : SignedTxResponse) : Wrapper := takeSigned resp "SignCancelOrder"

def signCancelAllOrders (resp : SignedTxResponse) : Wrapper := takeSigned resp "SignCancelAllOrders"

def createAuthToken (resp : StrOrErr) : Wrapper :=
  takeString resp.str fun token =>
  takeString resp.err fun err =>
  .done (checked "CreateAuthToken" err (.text token))

/-- A native call that has returned. -/
inductive Response where
  | createClient (err : CString)
  | checkClient (text : CString)
  | signCreateOrder (resp : SignedTxResponse)
  | signCancelOrder (resp : SignedTxResponse)
  | signCancelAllOrders (resp : SignedTxResponse)
  | createAuthToken (resp : StrOrErr)
  | generateApiKey (resp : ApiKeyResponse)

namespace Response

/-- The pointers of a response. -/
def strings : Response → List CString
  | .createClient err => [err]
  | .checkClient text => [text]
  | .signCreateOrder resp | .signCancelOrder resp | .signCancelAllOrders resp =>
    [resp.txInfo, resp.txHash, resp.messageToSign, resp.err]
  | .createAuthToken resp => [resp.str, resp.err]
  | .generateApiKey resp => [resp.privateKey, resp.publicKey, resp.err]

def wrapper : Response → Wrapper
  | .createClient err => SignerBuffers.createClient err
  | .checkClient text => SignerBuffers.checkClient text
  | .signCreateOrder resp => SignerBuffers.signCreateOrder resp
  | .signCancelOrder resp => SignerBuffers.signCancelOrder resp
  | .signCancelAllOrders resp => SignerBuffers.signCancelAllOrders resp
  | .createAuthToken resp => SignerBuffers.createAuthToken resp
  | .generateApiKey resp => SignerBuffers.generateApiKey resp

/-- The buffers are those its pointers lead to. -/
def call (response : Response) : Call String (Except String Value) where
  buffers := response.strings.reduceOption
  code := response.wrapper

end Response

end LighterApi.Source.SignerBuffers

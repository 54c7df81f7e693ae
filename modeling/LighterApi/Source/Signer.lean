import LighterApi.Source.Gateway

/-!
The wrapper around the native signer: lighter_signer.cpp:18-158 and lighter_signer.h:28-49,78-119.
The library behind the C ABI is not in the source tree: what it is asked is data, and what
it answers is given. A null string is an empty one.
-/
namespace LighterApi.Source.Signer
open LighterApi.Source.Gateway

/-- `StrOrErr` -/
structure StrOrErr where
  str : String
  err : String
  deriving DecidableEq, Repr

/-- The calls into the native library, with the arguments in the order of the ABI. -/
inductive NativeCall where
  | createClient (url privateKey : String) (chainId apiKeyIndex accountIndex : Int)
  | checkClient (apiKeyIndex accountIndex : Int)
  | signCreateOrder (marketIndex clientOrderIndex baseAmount price isAsk orderType timeInForce
      reduceOnly triggerPrice orderExpiry integratorAccountIndex integratorTakerFee
      integratorMakerFee skipNonce nonce apiKeyIndex accountIndex : Int)
  | signCancelOrder (marketIndex orderIndex skipNonce nonce apiKeyIndex accountIndex : Int)
  | createAuthToken (deadline apiKeyIndex accountIndex : Int)
  deriving DecidableEq, Repr

/-- The account a call is made for: the last argument of each. -/
def NativeCall.accountIndex : NativeCall → Int
  | createClient _ _ _ _ accountIndex | checkClient _ accountIndex
  | signCreateOrder _ _ _ _ _ _ _ _ _ _ _ _ _ _ _ _ accountIndex
  | signCancelOrder _ _ _ _ _ accountIndex | createAuthToken _ _ accountIndex => accountIndex

/-- What the library answers while the gateway is constructed: the error text of
`CreateClient`, empty when it accepts the key, and a token. -/
structure NativeLib where
  createClient : String → String → Int → Int → Int → String
  createAuthToken : Int → Int → Int → StrOrErr

def chainIdForUrl (url : String) : Int :=
  if finds url "mainnet" || finds url "api" then 304 else 300

/-- The bit pattern of a `std::uint32_t` as an `int`. -/
def asSignedBits (v : Int) : Int := toInt32 v

/-- The bits give the unsigned number back. -/
theorem asSignedBits_emod {v : Int} (nonneg : 0 ≤ v) (fits : v ≤ uint32Max) :
    asSignedBits v % 2 ^ 32 = v := by
  unfold uint32Max at fits
  calc asSignedBits v % 2 ^ 32
      = v.bmod (2 ^ 32) % ((2 ^ 32 : Nat) : Int) := by norm_num [asSignedBits, toInt32]
    _ = v % ((2 ^ 32 : Nat) : Int) := Int.bmod_emod
    _ = v := Int.emod_eq_of_lt nonneg (by omega)

def orderTypeValue : Gateway.OrderType → Int
  | .Limit => 0
  | .Market => 1

def timeInForceValue : Gateway.TimeInForce → Int
  | .ImmediateOrCancel => 0
  | .PostOnly => 2

def skipNonceOff : Int := 0

def nilTriggerPrice : Int := 0

structure LighterSigner where
  apiKeyIndex : Int
  accountIndex : Int
  chainId : Int
  deriving DecidableEq, Repr

namespace LighterSigner

/-- The key without a leading `0x`. -/
def trimKey (apiPrivateKey : String) : String :=
  if startsWith apiPrivateKey "0x" then String.ofList (apiPrivateKey.toList.drop 2)
  else apiPrivateKey

/-- The constructor registers the client, or throws. -/
def create (lib : NativeLib) (url apiPrivateKey : String) (apiKeyIndex accountIndex : Int) :
    Except String LighterSigner :=
  let signer := ⟨apiKeyIndex, accountIndex, chainIdForUrl url⟩
  let err := lib.createClient url (trimKey apiPrivateKey) signer.chainId signer.apiKeyIndex
    signer.accountIndex
  if err ≠ "" then .error ("Lighter CreateClient: " ++ err) else .ok signer

variable (signer : LighterSigner)

def createClientCall (url apiPrivateKey : String) : NativeCall :=
  .createClient url (trimKey apiPrivateKey) signer.chainId signer.apiKeyIndex signer.accountIndex

def checkClientCall : NativeCall := .checkClient signer.apiKeyIndex signer.accountIndex

def createAuthTokenCall (deadlineUnix : Int) : NativeCall :=
  .createAuthToken deadlineUnix signer.apiKeyIndex signer.accountIndex

/-- The call behind `signCreateOrder` and `signCancelOrder`. -/
def signCall : SignRequest → NativeCall
  | .create marketId clientOrderIndex baseAmount price isAsk type tif reduceOnly nonce
      orderExpiry =>
    .signCreateOrder marketId clientOrderIndex baseAmount (asSignedBits price)
      (if isAsk then 1 else 0) (orderTypeValue type) (timeInForceValue tif)
      (if reduceOnly then 1 else 0) (asSignedBits nilTriggerPrice) orderExpiry 0 0 0 skipNonceOff
      nonce signer.apiKeyIndex signer.accountIndex
  | .cancel marketId orderIndex nonce =>
    .signCancelOrder marketId orderIndex skipNonceOff nonce signer.apiKeyIndex signer.accountIndex

/-- Every call of a signer is made for its own account. -/
@[simp] theorem signCall_accountIndex (request : SignRequest) :
    (signer.signCall request).accountIndex = signer.accountIndex := by
  cases request with
  | create => rfl
  | cancel => rfl

end LighterSigner

/-- `createAuthToken`: the token, or the exception. -/
def takeToken (resp : StrOrErr) : Except String String :=
  if resp.err ≠ "" then .error ("Lighter CreateAuthToken: " ++ resp.err) else .ok resp.str

/-- A signer that was created is the one asked for. -/
theorem LighterSigner.create_eq_ok {lib : NativeLib} {url apiPrivateKey : String}
    {apiKeyIndex accountIndex : Int} {signer : LighterSigner}
    (created : LighterSigner.create lib url apiPrivateKey apiKeyIndex accountIndex = .ok signer) :
    signer = ⟨apiKeyIndex, accountIndex, chainIdForUrl url⟩ := by
  unfold LighterSigner.create at created
  dsimp only at created
  split at created
  · cases created
  · exact (Except.ok.inj created).symm

end LighterApi.Source.Signer

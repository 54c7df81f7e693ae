import Mathlib.Data.List.Basic

/-!
The body of `sendTx`, as bytes: lighter_rest_client.cpp:33-46,421-423. Strings are byte
strings here, each element read as an unsigned char; `isalnum` is that of the C locale.
-/
namespace LighterApi.Source.FormBody

/-- The bytes of an ASCII text. -/
def ascii (text : String) : List UInt8 := text.toList.map fun c => UInt8.ofNat c.toNat

def isalnum (c : UInt8) : Bool :=
  (0x30 ≤ c.toNat && c.toNat ≤ 0x39) || (0x41 ≤ c.toNat && c.toNat ≤ 0x5A) ||
    (0x61 ≤ c.toNat && c.toNat ≤ 0x7A)

/-- `{:02X}`: upper-case hexadecimal digits, filled up with zeros to two. -/
def hex02X (n : Nat) : List UInt8 :=
  ((Nat.toDigits 16 n).map fun d => UInt8.ofNat d.toUpper.toNat).leftpad 2 0x30

/-- RFC 3986 unreserved set kept literal. -/
def keepsLiteral (c : UInt8) : Bool :=
  isalnum c || c = 0x2D || c = 0x5F || c = 0x2E || c = 0x7E

def urlEncode (s : List UInt8) : List UInt8 :=
  s.foldl (fun out c => if keepsLiteral c then out ++ [c] else out ++ ascii "%" ++ hex02X c.toNat) []

/-- `fmt::format("tx_type={}&tx_info={}", ...)`. -/
def sendTxBody (txType : UInt8) (txInfo : List UInt8) : List UInt8 :=
  ascii "tx_type=" ++ ascii (toString txType.toNat) ++ ascii "&tx_info=" ++ urlEncode txInfo

end LighterApi.Source.FormBody

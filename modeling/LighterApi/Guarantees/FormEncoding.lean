import LighterApi.Library.FormData
import LighterApi.Source.FormBody
import LighterApi.Source.Text

/-!
# The form of a transaction

The body of `sendTx` is the form of two fields, with the unreserved bytes literal. None
of the bytes with a meaning in a form is unreserved, so whoever reads the form gets the
type and the signed payload back, byte for byte.
-/
namespace LighterApi.Guarantees.FormEncoding
open LighterApi.Library LighterApi.Source LighterApi.Source.FormBody

/-- RFC 3986: letters, digits, and `-`, `.`, `_`, `~`. -/
def Unreserved (b : UInt8) : Prop :=
  (0x41 ≤ b.toNat ∧ b.toNat ≤ 0x5A) ∨ (0x61 ≤ b.toNat ∧ b.toNat ≤ 0x7A) ∨
    (0x30 ≤ b.toNat ∧ b.toNat ≤ 0x39) ∨ b = 0x2D ∨ b = 0x2E ∨ b = 0x5F ∨ b = 0x7E

theorem unreserved_of_literal {b : UInt8} (kept : keepsLiteral b = true) : Unreserved b := by
  unfold keepsLiteral isalnum at kept
  simp only [Bool.or_eq_true, Bool.and_eq_true, decide_eq_true_eq] at kept
  unfold Unreserved
  rcases kept with (((((digit | upper) | lower) | same) | same) | same) | same
  · exact .inr (.inr (.inl digit))
  · exact .inl upper
  · exact .inr (.inl lower)
  all_goals simp [same]

theorem safe_keepsLiteral : FormData.Safe keepsLiteral :=
  ⟨by decide, by decide, by decide, by decide⟩

/-- Two digits, whatever the byte. -/
theorem hex02X_eq : ∀ n < 256,
    hex02X n = [FormData.hexDigit (n / 16), FormData.hexDigit (n % 16)] := by
  decide +kernel

/-- The loop escapes byte by byte. -/
theorem urlEncode_eq (s : List UInt8) : urlEncode s = FormData.encode keepsLiteral s := by
  have appended : ∀ out : List UInt8, s.foldl (fun out c => if keepsLiteral c then out ++ [c]
      else out ++ ascii "%" ++ hex02X c.toNat) out = out ++ FormData.encode keepsLiteral s := by
    induction s with
    | nil =>
      intro out
      exact (List.append_nil out).symm
    | cons c rest ih =>
      intro out
      rw [List.foldl_cons, ih]
      unfold FormData.encode
      rw [List.flatMap_cons, FormData.encodeByte]
      split
      · rw [List.append_assoc]
      · rw [hex02X_eq c.toNat c.toNat_lt, List.append_assoc, List.append_assoc]
        rfl
  exact appended []

theorem encode_of_literal {bytes : List UInt8} (kept : ∀ b ∈ bytes, keepsLiteral b = true) :
    FormData.encode keepsLiteral bytes = bytes := by
  induction bytes with
  | nil => rfl
  | cons b rest ih =>
    unfold FormData.encode at ih ⊢
    rw [List.flatMap_cons, FormData.encodeByte, if_pos (kept b List.mem_cons_self),
      ih fun c member => kept c (List.mem_cons_of_mem _ member)]
    rfl

/-- The decimal of a type is digits. -/
theorem decimal_literal (n : Nat) : ∀ b ∈ ascii (toString n), keepsLiteral b = true := by
  intro b member
  obtain ⟨c, inside, rfl⟩ := List.mem_map.mp member
  have digit := mem_decimal_nat inside
  obtain ⟨low, high⟩ : 48 ≤ c.toNat ∧ c.toNat ≤ 57 := Char.isDigit_iff_toNat.mp digit
  have value : (UInt8.ofNat c.toNat).toNat = c.toNat := by
    rw [UInt8.toNat_ofNat']
    omega
  unfold keepsLiteral isalnum
  rw [value]
  simp [low, high]

/-- The body is a form. -/
theorem sendTxBody_eq (txType : UInt8) (txInfo : List UInt8) :
    sendTxBody txType txInfo = FormData.form keepsLiteral
      [(ascii "tx_type", ascii (toString txType.toNat)), (ascii "tx_info", txInfo)] := by
  have name : FormData.encode keepsLiteral (ascii "tx_type") = ascii "tx_type" :=
    encode_of_literal (by decide +kernel)
  have name' : FormData.encode keepsLiteral (ascii "tx_info") = ascii "tx_info" :=
    encode_of_literal (by decide +kernel)
  have opening : ascii "tx_type=" = ascii "tx_type" ++ [FormData.equals] := by decide
  have joint : ascii "&tx_info=" = FormData.ampersand :: ascii "tx_info" ++ [FormData.equals] := by
    decide
  have decimal := encode_of_literal (decimal_literal txType.toNat)
  unfold sendTxBody FormData.form FormData.field
  rw [urlEncode_eq, opening, joint, List.map_cons, List.map_singleton]
  dsimp only
  rw [name, name', decimal]
  simp [List.intercalate]

/-- Reading the body gives the decimal type and the payload, the output of `urlEncode` is
made of unreserved bytes and escapes, and different payloads are encoded differently. -/
theorem form_lossless :
    (∀ txType txInfo, FormData.parse (sendTxBody txType txInfo) =
      [(ascii "tx_type", ascii (toString txType.toNat)), (ascii "tx_info", txInfo)]) ∧
    (∀ s, FormData.Encoded Unreserved (urlEncode s)) ∧ Function.Injective urlEncode := by
  refine ⟨fun txType txInfo => ?_, fun s => ?_, fun s s' same => ?_⟩
  · rw [sendTxBody_eq, FormData.parse_form safe_keepsLiteral]
  · rw [urlEncode_eq]
    exact FormData.encoded_encode (fun _ kept => unreserved_of_literal kept) s
  · rw [urlEncode_eq, urlEncode_eq] at same
    exact FormData.encode_injective safe_keepsLiteral.percent same

example : urlEncode [0x61, 0x25, 0x26, 0x00, 0xE9, 0x7E] = ascii "a%25%26%00%E9~" := by
  decide +kernel

end LighterApi.Guarantees.FormEncoding

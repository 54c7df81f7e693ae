import Mathlib.Data.List.Basic

/-!
# Forms, percent-encoded

The fields of a form as bytes: `&` between the fields, `=` between a name and its value,
and in both every byte that is not literal as `%` and two hexadecimal digits. Reading is
not tied to an encoder: it splits at `&`, then at the first `=`, takes `+` for a blank
and `%` with two digits for a byte. When none of the four is literal, reading a form gives
its fields back (`parse_form`).
-/

namespace LighterApi.Library.FormData

def percent : UInt8 := 0x25
def ampersand : UInt8 := 0x26
def plus : UInt8 := 0x2B
def equals : UInt8 := 0x3D
def blank : UInt8 := 0x20

def hexDigit (n : Nat) : UInt8 := if n < 10 then UInt8.ofNat (0x30 + n) else UInt8.ofNat (0x37 + n)

def hexValue (b : UInt8) : Option Nat :=
  if 0x30 ≤ b.toNat ∧ b.toNat ≤ 0x39 then some (b.toNat - 0x30)
  else if 0x41 ≤ b.toNat ∧ b.toNat ≤ 0x46 then some (b.toNat - 0x37)
  else if 0x61 ≤ b.toNat ∧ b.toNat ≤ 0x66 then some (b.toNat - 0x57)
  else none

/-! ## Writing -/

variable (literal : UInt8 → Bool)

def encodeByte (b : UInt8) : List UInt8 :=
  if literal b then [b] else [percent, hexDigit (b.toNat / 16), hexDigit (b.toNat % 16)]

def encode (bytes : List UInt8) : List UInt8 := bytes.flatMap (encodeByte literal)

def field (f : List UInt8 × List UInt8) : List UInt8 :=
  encode literal f.1 ++ equals :: encode literal f.2

def form (fields : List (List UInt8 × List UInt8)) : List UInt8 :=
  [ampersand].intercalate (fields.map (field literal))

/-- Bytes of a set, and escapes. -/
inductive Encoded (allowed : UInt8 → Prop) : List UInt8 → Prop where
  | nil : Encoded allowed []
  | byte {b : UInt8} {rest : List UInt8} (member : allowed b) (h : Encoded allowed rest) :
      Encoded allowed (b :: rest)
  | escape {high low : UInt8} {rest : List UInt8} (first : (hexValue high).isSome = true)
      (second : (hexValue low).isSome = true) (h : Encoded allowed rest) :
      Encoded allowed (percent :: high :: low :: rest)

/-! ## Reading -/

/-- An escape that is cut short or has no two digits stands for itself. -/
def percentDecode : List UInt8 → List UInt8
  | b :: high :: low :: rest =>
    if b = percent then
      match hexValue high, hexValue low with
      | some h, some l => UInt8.ofNat (16 * h + l) :: percentDecode rest
      | _, _ => b :: percentDecode (high :: low :: rest)
    else b :: percentDecode (high :: low :: rest)
  | bytes => bytes

def decode (bytes : List UInt8) : List UInt8 :=
  percentDecode (bytes.map fun b => if b = plus then blank else b)

/-- A field without `=` is a name. -/
def parseField (bytes : List UInt8) : List UInt8 × List UInt8 :=
  (decode (bytes.takeWhile (· ≠ equals)), decode (bytes.dropWhile (· ≠ equals)).tail)

def parse (bytes : List UInt8) : List (List UInt8 × List UInt8) :=
  ((bytes.splitOn ampersand).filter (· ≠ [])).map parseField

/-! ## Bytes -/

theorem hexValue_hexDigit : ∀ n < 16, hexValue (hexDigit n) = some n := by decide

theorem hexDigit_isSome {n : Nat} (small : n < 16) : (hexValue (hexDigit n)).isSome = true := by
  rw [hexValue_hexDigit n small]
  rfl

theorem percentDecode_escape (b : UInt8) (rest : List UInt8) :
    percentDecode (percent :: hexDigit (b.toNat / 16) :: hexDigit (b.toNat % 16) :: rest) =
      b :: percentDecode rest := by
  have bound := b.toNat_lt
  have high := hexValue_hexDigit (b.toNat / 16) (by omega)
  have low := hexValue_hexDigit (b.toNat % 16) (by omega)
  have whole : 16 * (b.toNat / 16) + b.toNat % 16 = b.toNat := by omega
  rw [percentDecode, if_pos rfl, high, low]
  dsimp only
  rw [whole, UInt8.ofNat_toNat]

theorem percentDecode_other {b : UInt8} (other : b ≠ percent) (rest : List UInt8) :
    percentDecode (b :: rest) = b :: percentDecode rest := by
  cases rest with
  | nil => rfl
  | cons high rest =>
    cases rest with
    | nil => rfl
    | cons low rest => rw [percentDecode, if_neg other]

variable {literal} {b : UInt8}

/-- An encoded byte is the byte itself, or an escape. -/
theorem mem_encodeByte {c : UInt8} (member : c ∈ encodeByte literal b) :
    literal c = true ∨ c = percent ∨ (hexValue c).isSome = true := by
  have bound := b.toNat_lt
  unfold encodeByte at member
  split at member
  · rename_i kept
    rw [List.mem_singleton.mp member]
    exact .inl kept
  · simp only [List.mem_cons, List.not_mem_nil, or_false] at member
    rcases member with rfl | rfl | rfl
    · exact .inr (.inl rfl)
    · exact .inr (.inr (hexDigit_isSome (by omega)))
    · exact .inr (.inr (hexDigit_isSome (by omega)))

/-- What is neither literal nor part of an escape does not occur. -/
theorem notMem_encode {c : UInt8} (kept : literal c = false) (other : c ≠ percent)
    (no_digit : hexValue c = none) (bytes : List UInt8) : c ∉ encode literal bytes := by
  intro member
  obtain ⟨b, _, inside⟩ := List.mem_flatMap.mp member
  rcases mem_encodeByte inside with allowed | here | digit
  · exact absurd (allowed.symm.trans kept) (by decide)
  · exact other here
  · rw [no_digit] at digit
    exact absurd digit (by decide)

theorem encoded_encode {allowed : UInt8 → Prop} (allows : ∀ b, literal b = true → allowed b)
    (bytes : List UInt8) : Encoded allowed (encode literal bytes) := by
  induction bytes with
  | nil => exact .nil
  | cons b rest ih =>
    have bound := b.toNat_lt
    unfold encode at ih ⊢
    rw [List.flatMap_cons]
    cases kept : literal b with
    | true =>
      rw [encodeByte, if_pos kept]
      exact .byte (allows b kept) ih
    | false =>
      rw [encodeByte, if_neg (by simp [kept])]
      exact .escape (hexDigit_isSome (by omega)) (hexDigit_isSome (by omega)) ih

/-! ## The round trip -/

/-- The four bytes that mean something in a form are escaped. -/
structure Safe (literal : UInt8 → Bool) : Prop where
  percent : literal percent = false
  ampersand : literal ampersand = false
  plus : literal plus = false
  equals : literal equals = false

theorem percentDecode_encode (kept : literal percent = false) (bytes : List UInt8) :
    percentDecode (encode literal bytes) = bytes := by
  induction bytes with
  | nil => rfl
  | cons b rest ih =>
    unfold encode at ih ⊢
    rw [List.flatMap_cons]
    cases allowed : literal b with
    | true =>
      have other : b ≠ percent := by
        rintro rfl
        exact absurd (allowed.symm.trans kept) (by decide)
      rw [encodeByte, if_pos allowed, List.singleton_append, percentDecode_other other, ih]
    | false =>
      rw [encodeByte, if_neg (by simp [allowed]), List.cons_append, List.cons_append,
        List.singleton_append, percentDecode_escape, ih]

theorem decode_encode (safe : Safe literal) (bytes : List UInt8) :
    decode (encode literal bytes) = bytes := by
  have no_plus := notMem_encode safe.plus (by decide) (by decide) bytes
  have same : (encode literal bytes).map (fun b => if b = plus then blank else b) =
      encode literal bytes := by
    rw [List.map_congr_left (g := id), List.map_id]
    intro b member
    rw [if_neg]
    · rfl
    · rintro rfl
      exact no_plus member
  rw [decode, same, percentDecode_encode safe.percent]

/-- Without a reserved byte left, encoding is injective. -/
theorem encode_injective (kept : literal percent = false) : Function.Injective (encode literal) :=
  Function.LeftInverse.injective (percentDecode_encode kept)

theorem parseField_field (safe : Safe literal) (f : List UInt8 × List UInt8) :
    parseField (field literal f) = f := by
  have no_equals := notMem_encode safe.equals (by decide) (by decide) f.1
  have before : ∀ b ∈ encode literal f.1, decide (b ≠ equals) = true := by
    intro b member
    rw [decide_eq_true_iff]
    rintro rfl
    exact no_equals member
  unfold parseField field
  rw [List.takeWhile_append_of_pos before, List.dropWhile_append_of_pos before,
    List.takeWhile_cons_of_neg (by decide), List.dropWhile_cons_of_neg (by decide),
    List.append_nil, List.tail_cons, decode_encode safe, decode_encode safe]

/-- Reading a form gives its fields. -/
theorem parse_form (safe : Safe literal) (fields : List (List UInt8 × List UInt8)) :
    parse (form literal fields) = fields := by
  unfold parse form
  cases fields with
  | nil => rfl
  | cons first rest =>
    have apart : ∀ f ∈ (first :: rest).map (field literal), ampersand ∉ f := by
      intro f member
      obtain ⟨pair, _, rfl⟩ := List.mem_map.mp member
      have absent := notMem_encode safe.ampersand (by decide) (by decide)
      simp only [field, List.mem_append, List.mem_cons, not_or]
      exact ⟨absent _, by decide, absent _⟩
    have filled : ∀ f ∈ (first :: rest).map (field literal), decide (f ≠ []) = true := by
      intro f member
      obtain ⟨pair, _, rfl⟩ := List.mem_map.mp member
      simp [field]
    rw [List.splitOn_intercalate _ apart (by simp), List.filter_eq_self.mpr filled, List.map_map,
      List.map_congr_left (g := id), List.map_id]
    intro pair _
    exact parseField_field safe pair

end LighterApi.Library.FormData

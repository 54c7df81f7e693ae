import Mathlib.Algebra.Ring.Int.Defs
import Mathlib.Algebra.Ring.Nat
import LighterApi.Library.Infix

/-!
The string operations the connector leans on: `find(...) != npos`, the text
behind the first occurrence of a marker, `std::tolower` over a string, and the
prefix-accepting integer parsers `std::stoll` and `std::stoi`. `what()` hands back the text
of an exception up to its first NUL byte. Lower-casing acts on the ASCII letters only, as in
the C locale.
-/
namespace LighterApi.Source

/-- `text.find(pattern) != std::string::npos` -/
def finds (text pattern : String) : Bool :=
  decide (pattern.toList <:+: text.toList)

/-- `text.starts_with(start)` -/
def startsWith (text start : String) : Bool :=
  decide (start.toList <+: text.toList)

def toLower (s : String) : String :=
  String.ofList (s.toList.map Char.toLower)

/-- What follows the first occurrence of the marker. -/
def behind (marker : List Char) : List Char → Option (List Char)
  | [] => if marker <+: [] then some [] else none
  | c :: rest =>
    if marker <+: c :: rest then some ((c :: rest).drop marker.length) else behind marker rest

/-- `text.substr(text.find(marker) + marker.size())`, when the marker occurs. -/
def substrAfter (text marker : String) : Option String :=
  (behind marker.toList text.toList).map String.ofList

/-- The text as a C string: up to its first NUL. -/
def cText (s : String) : String := String.ofList (s.toList.takeWhile fun c => c ≠ '\x00')

def isSpace (c : Char) : Bool :=
  c = ' ' || c = '\t' || c = '\n' || c = '\x0b' || c = '\x0c' || c = '\x0d'

def digitsValue (digits : List Char) : Nat :=
  digits.foldl (fun n d => 10 * n + (d.toNat - '0'.toNat)) 0

/-- Leading blanks, an optional sign, then the longest run of digits; what follows
the digits is ignored. No digit at all is an error. -/
def strtol (s : String) : Option Int :=
  let body := s.toList.dropWhile isSpace
  let (negative, rest) := match body with
    | '-' :: rest => (true, rest)
    | '+' :: rest => (false, rest)
    | rest => (false, rest)
  let digits := rest.takeWhile Char.isDigit
  if digits = [] then none
  else some (if negative then -(digitsValue digits : Int) else (digitsValue digits : Int))

/-- `std::stoll`; none is a thrown `invalid_argument` or `out_of_range`. -/
def stoll (s : String) : Option Int :=
  (strtol s).filter fun n => decide (-(2 ^ 63) ≤ n ∧ n < 2 ^ 63)

/-- `std::stoi` -/
def stoi (s : String) : Option Int :=
  (strtol s).filter fun n => decide (-(2 ^ 31) ≤ n ∧ n < 2 ^ 31)

example : stoi " +12x" = some 12 ∧ stoi "x1" = none ∧ stoi "2147483648" = none := by decide

/-- The texts `std::stod` reads as an infinity or a NaN: leading blanks, an optional sign,
then `inf` or `nan` in either case. -/
def readsNonFinite (s : String) : Bool :=
  let body := s.toList.dropWhile isSpace
  let word := match body with
    | '-' :: rest => rest
    | '+' :: rest => rest
    | rest => rest
  let start := (word.take 3).map Char.toLower
  start = ['i', 'n', 'f'] || start = ['n', 'a', 'n']

example : readsNonFinite " -Infinity" ∧ readsNonFinite "nan(7)" ∧ ¬ readsNonFinite "1.5" := by
  decide

/-- `static_cast<std::int32_t>` of a 64-bit value: the low 32 bits, read as signed. -/
def toInt32 (n : Int) : Int := Int.bmod n (2 ^ 32)

/-- The conversion to `std::int64_t` of an integer JSON number. -/
def toInt64 (n : Int) : Int := Int.bmod n (2 ^ 64)

theorem toInt32_of_fits {n : Int} (lo : -(2 ^ 31) ≤ n) (hi : n < 2 ^ 31) : toInt32 n = n := by
  unfold toInt32
  rw [Int.bmod_eq_of_le] <;> omega

theorem toInt64_of_fits {n : Int} (lo : -(2 ^ 63) ≤ n) (hi : n < 2 ^ 63) : toInt64 n = n := by
  unfold toInt64
  rw [Int.bmod_eq_of_le] <;> omega

/-- A sum just behind the last 64-bit integer comes out negative. -/
theorem toInt64_of_overflow {n : Int} (lo : 2 ^ 63 ≤ n) (hi : n < 2 ^ 64) :
    toInt64 n = n - 2 ^ 64 := by
  unfold toInt64
  rw [← Int.sub_bmod_right n (2 ^ 64), Int.bmod_eq_of_le] <;> omega

theorem toInt32_eq_iff (n : Int) : toInt32 n = n ↔ -(2 ^ 31) ≤ n ∧ n < 2 ^ 31 := by
  refine ⟨fun same => ?_, fun fits => toInt32_of_fits fits.1 fits.2⟩
  unfold toInt32 at same
  have lower := @Int.le_bmod n (2 ^ 32) (by decide)
  have upper := @Int.bmod_lt n (2 ^ 32) (by decide)
  omega

theorem finds_iff (text pattern : String) :
    finds text pattern = true ↔ pattern.toList <:+: text.toList := by
  simp [finds]

@[simp] theorem toLower_toList (s : String) : (toLower s).toList = s.toList.map Char.toLower := by
  simp [toLower]

/-! ## Decimal rendering -/

/-- A rendered natural number consists of digits. -/
theorem mem_decimal_nat {n : Nat} {c : Char} (h : c ∈ (toString n).toList) : c.isDigit = true := by
  change c ∈ (Nat.repr n).toList at h
  rw [Nat.repr, String.toList_ofList] at h
  exact Nat.isDigit_of_mem_toDigits (by decide) (by decide) h

/-- A rendered integer consists of digits and possibly a sign. -/
theorem mem_decimal {n : Int} {c : Char} (h : c ∈ (toString n).toList) :
    c.isDigit = true ∨ c = '-' := by
  cases n with
  | ofNat m => exact Or.inl (mem_decimal_nat (n := m) h)
  | negSucc m =>
    have split : (toString (Int.negSucc m)).toList = '-' :: (toString (m + 1)).toList := by
      change ("-" ++ Nat.repr (m + 1)).toList = _
      rw [String.toList_append]
      rfl
    rw [split] at h
    rcases List.mem_cons.mp h with rfl | h
    · exact Or.inr rfl
    · exact Or.inl (mem_decimal_nat h)

/-- The digits of a rendered number give it back. -/
theorem digitsValue_decimal (n : Nat) : digitsValue (toString n).toList = n := by
  change digitsValue (Nat.repr n).toList = n
  rw [Nat.repr, String.toList_ofList]
  exact (Nat.ofDigitChars_eq_foldl (b := 10)).symm.trans (by simp)

theorem isSpace_of_isDigit {c : Char} (digit : c.isDigit = true) : isSpace c = false := by
  by_contra space
  have blank : isSpace c = true := by simpa using space
  simp only [isSpace, Bool.or_eq_true, decide_eq_true_eq] at blank
  rcases blank with ((((rfl | rfl) | rfl) | rfl) | rfl) | rfl <;> exact absurd digit (by decide)

/-- The longest run of digits, whatever follows it. -/
theorem takeWhile_digits {digits rest : List Char} (all : ∀ c ∈ digits, c.isDigit = true)
    (stops : ∀ c ∈ rest.head?, c.isDigit = false) :
    (digits ++ rest).takeWhile Char.isDigit = digits := by
  rw [List.takeWhile_append_of_pos all]
  cases rest with
  | nil => simp
  | cons c rest =>
    have stop := stops c rfl
    rw [List.takeWhile_cons, stop]
    simp

/-- A run of digits is read to its end, with a sign or without one. -/
theorem strtol_digits {digits rest : List Char} (some_digit : digits ≠ [])
    (all : ∀ c ∈ digits, c.isDigit = true) (stops : ∀ c ∈ rest.head?, c.isDigit = false) :
    strtol (String.ofList (digits ++ rest)) = some (digitsValue digits : Int) ∧
      strtol (String.ofList ('-' :: (digits ++ rest))) = some (-(digitsValue digits : Int)) := by
  have run := takeWhile_digits all stops
  constructor
  · cases digits with
    | nil => exact absurd rfl some_digit
    | cons d tail =>
      have digit := all d List.mem_cons_self
      have start : (String.ofList (d :: tail ++ rest)).toList.dropWhile isSpace =
          d :: (tail ++ rest) := by
        rw [String.toList_ofList, List.cons_append, List.dropWhile_cons, isSpace_of_isDigit digit]
        rfl
      unfold strtol
      rw [start]
      dsimp only
      split
      · rename_i minus
        rw [(List.cons.inj minus).1] at digit
        exact absurd digit (by decide)
      · rename_i plus
        rw [(List.cons.inj plus).1] at digit
        exact absurd digit (by decide)
      · dsimp only
        rw [← List.cons_append, run, if_neg some_digit]
        rfl
  · have start : (String.ofList ('-' :: (digits ++ rest))).toList.dropWhile isSpace =
        '-' :: (digits ++ rest) := by
      rw [String.toList_ofList]
      rfl
    unfold strtol
    rw [start]
    change (if (digits ++ rest).takeWhile Char.isDigit = [] then none
      else some (-(digitsValue ((digits ++ rest).takeWhile Char.isDigit) : Int))) = _
    rw [run, if_neg some_digit]

/-- `std::stoll` of a rendered integer, whatever follows it. -/
theorem strtol_decimal (n : Int) {rest : List Char} (stops : ∀ c ∈ rest.head?, c.isDigit = false) :
    strtol (String.ofList ((toString n).toList ++ rest)) = some n := by
  have digits : ∀ m : Nat, (toString m).toList ≠ [] ∧ ∀ c ∈ (toString m).toList, c.isDigit = true := by
    intro m
    refine ⟨?_, fun c member => mem_decimal_nat member⟩
    change (Nat.repr m).toList ≠ []
    rw [Nat.repr, String.toList_ofList]
    exact Nat.toDigits_ne_nil
  cases n with
  | ofNat m =>
    have read := (strtol_digits (digits m).1 (digits m).2 stops).1
    rw [digitsValue_decimal] at read
    exact read
  | negSucc m =>
    have read := (strtol_digits (digits (m + 1)).1 (digits (m + 1)).2 stops).2
    rw [digitsValue_decimal] at read
    have rendered : (toString (Int.negSucc m)).toList = '-' :: (toString (m + 1)).toList := by
      change ("-" ++ Nat.repr (m + 1)).toList = _
      rw [String.toList_append]
      rfl
    rw [rendered, List.cons_append, read]
    rfl

/-- Two integers that are rendered alike are the same. -/
theorem decimal_inj {m n : Int} (same : (toString m).toList = (toString n).toList) : m = n := by
  have read : ∀ k : Int, strtol (String.ofList ((toString k).toList ++ [])) = some k :=
    fun k => strtol_decimal k (by simp)
  have both := read m
  rw [same, read n] at both
  exact (Option.some.inj both).symm

end LighterApi.Source

import Mathlib.Data.Rat.Defs
import Mathlib.Algebra.Order.Ring.Unbundled.Rat
import LighterApi.Source.Text

/-!
JSON values as the connector sees them after `nlohmann::json::parse`, with the
accessors it calls, and the parts of the program that live outside the repository.
Objects keep their members in the order in which the library iterates them, one
member a key. Doubles are exact rationals; the conversion of a decimal text to a
double is a parameter, like everything else that is not in the source tree.
-/
namespace LighterApi.Source

inductive Json where
  | null
  | bool (b : Bool)
  | int (n : Int)
  | num (q : Rat)
  | str (s : String)
  | arr (items : List Json)
  | obj (members : List (String × Json))
  deriving Repr, Inhabited

namespace Json

/-- `json.find(key)`: on anything but an object the key is not found. -/
def find (json : Json) (key : String) : Option Json :=
  match json with
  | obj members => (members.find? fun m => m.1 == key).map Prod.snd
  | _ => none

/-- `json.value(key, fallback)`; none is the `type_error` thrown on a non-object. -/
def value (json : Json) (key : String) (fallback : Json) : Option Json :=
  match json with
  | obj _ => some ((json.find key).getD fallback)
  | _ => none

def isObject : Json → Bool
  | obj _ => true
  | _ => false

def asString : Json → Option String
  | str s => some s
  | _ => none

/-- `is_number_integer()` and the stored integer. -/
def asInteger : Json → Option Int
  | int n => some n
  | _ => none

/-- A text that reads as an infinity or a NaN; JSON numbers are always finite. -/
def nonFinite : Json → Bool
  | str s => readsNonFinite s
  | _ => false

/-- `is_array()` and the elements. -/
def asArray : Json → Option (List Json)
  | arr items => some items
  | _ => none

@[simp] theorem find_obj_nil (key : String) : (obj []).find key = none := rfl

@[simp] theorem find_obj_cons (name key : String) (v : Json) (rest : List (String × Json)) :
    (obj ((name, v) :: rest)).find key = if name == key then some v else (obj rest).find key := by
  simp only [find, List.find?_cons]
  cases name == key <;> rfl

end Json

/-- The text under a key, or the empty text. -/
def textOf (json : Json) (key : String) : String :=
  ((json.find key).bind Json.asString).getD ""

/-- Best bid and ask of an instrument. -/
structure Quote where
  bid : Rat
  ask : Rat
  receivedAt : Nat
  deriving DecidableEq, Repr

/-- What the connector calls and the repository does not contain: the JSON parser and
serialiser, the two instances of `readValue` (key, value so far; an error is its
exception), the text-to-double conversion, what `llround` returns when the rounded
value does not fit, the rendering of a double, and `Quote::sane`. An infinity or a NaN
is no rational: what `stod` gives for a text that reads as one is left open, and so is
`nonFiniteLevel`, what the side of a book holds after a level with such a price or size. -/
structure Externals where
  parse : String → Except String Json
  dump : Json → String
  readInt32 : Json → String → Int → Except String Int
  readText : Json → String → String → Except String String
  stod : String → Option Rat
  nonFiniteLevel : List (Rat × Rat) → Json → List (Rat × Rat)
  llroundOverflow : Rat → Int
  showDouble : Rat → String
  sane : Quote → Bool

/-- `readValue` copies a present field of the right type and leaves its target alone
when an object has no such key. -/
structure Externals.ReadsValues (lib : Externals) : Prop where
  int_present : ∀ json key n target, json.find key = some (.int n) →
    -(2 ^ 31) ≤ n ∧ n < 2 ^ 31 → lib.readInt32 json key target = .ok n
  text_present : ∀ json key s target, json.find key = some (.str s) →
    lib.readText json key target = .ok s
  int_missing : ∀ members key target, (Json.obj members).find key = none →
    lib.readInt32 (.obj members) key target = .ok target
  text_missing : ∀ members key target, (Json.obj members).find key = none →
    lib.readText (.obj members) key target = .ok target

/-- It reads any integer as an `int`, by its low 32 bits. -/
structure Externals.ReadsInts (lib : Externals) : Prop extends lib.ReadsValues where
  int_cut : ∀ json key n target, json.find key = some (.int n) →
    lib.readInt32 json key target = .ok (toInt32 n)

variable (lib : Externals)

/-- The double behind a JSON value that is a string or a number. -/
def toDouble (v : Json) : Rat :=
  match v with
  | .str s => (lib.stod s).getD 0
  | .int n => n
  | .num q => q
  | _ => 0

/-- `readStr`: a missing member, or one that is no number, reads as zero. -/
def readStr (json : Json) (key : String) : Rat :=
  match json.find key with
  | some v => toDouble lib v
  | none => 0

/-- `P::readInt` with its default fallback. Integers arrive as numbers or as strings. -/
def readInt (json : Json) (key : String) : Int :=
  match json.find key with
  | some (.int n) => toInt64 n
  | some (.str s) => (stoll s).getD (-1)
  | _ => -1

end LighterApi.Source

import Mathlib.Data.Nat.Notation
import Mathlib.Data.Char

/-!
# The grammar of JSON

A JSON text denotes a value. The grammar is stated as relations between a text and what it
denotes, one rule per production, and is independent of any way to parse it. A string is
first a list of units: characters, which stand for themselves or are written with a simple
escape, and code units of UTF-16, which are written with four hexadecimal digits. Code units
that form no surrogate pair are read as the replacement character.
-/

namespace ControlPlane

/-- A JSON value. A number keeps its literal, and an object keeps its members in order, with
repeated names. -/
inductive Json
  | null
  | bool (b : Bool)
  | num (literal : List Char)
  | str (s : String)
  | arr (elems : List Json)
  | obj (members : List (String × Json))

namespace Json

/-- Insignificant white space. -/
def isBlank (c : Char) : Bool := c = ' ' ∨ c = '\t' ∨ c = '\n' ∨ c = '\r'

/-- The text is white space. -/
def Blank (t : List Char) : Prop := ∀ c ∈ t, isBlank c = true

/-- A unit of a string. -/
inductive StrUnit
  | char (c : Char)
  | code (n : ℕ)
  deriving DecidableEq

/-- The first code unit of a surrogate pair. -/
def isHigh (n : ℕ) : Bool := 0xD800 ≤ n ∧ n < 0xDC00

/-- The second code unit of a surrogate pair. -/
def isLow (n : ℕ) : Bool := 0xDC00 ≤ n ∧ n < 0xE000

/-- The character of a code unit that is in no surrogate pair. -/
def codeChar (n : ℕ) : Char := if isHigh n ∨ isLow n then '\ufffd' else Char.ofNat n

/-- The characters that units stand for. -/
def decode : List StrUnit → List Char
  | [] => []
  | .char c :: us => c :: decode us
  | .code hi :: .code lo :: us =>
      if isHigh hi ∧ isLow lo then
        Char.ofNat (0x10000 + (hi - 0xD800) * 0x400 + (lo - 0xDC00)) :: decode us
      else codeChar hi :: decode (.code lo :: us)
  | .code n :: us => codeChar n :: decode us

/-- The string that units stand for. -/
def text (us : List StrUnit) : String := String.ofList (decode us)

/-- The characters that stand for themselves in a string. -/
def isPlain (c : Char) : Bool := 0x20 ≤ c.toNat ∧ c ≠ '"' ∧ c ≠ '\\'

/-- The character behind a simple escape. -/
def unescape : Char → Option Char
  | '"' => some '"'
  | '\\' => some '\\'
  | '/' => some '/'
  | 'b' => some '\x08'
  | 'f' => some '\x0c'
  | 'n' => some '\n'
  | 'r' => some '\r'
  | 't' => some '\t'
  | _ => none

/-- The value of a hexadecimal digit. -/
def hexValue (c : Char) : Option ℕ :=
  if c.isDigit then some (c.toNat - '0'.toNat)
  else if 'a' ≤ c ∧ c ≤ 'f' then some (c.toNat - 'a'.toNat + 10)
  else if 'A' ≤ c ∧ c ≤ 'F' then some (c.toNat - 'A'.toNat + 10)
  else none

/-- The code unit with four hexadecimal digits. -/
def hexCode (a b c d : Char) : Option ℕ := do
  let a ← hexValue a
  let b ← hexValue b
  let c ← hexValue c
  let d ← hexValue d
  return 0x1000 * a + 0x100 * b + 0x10 * c + d

/-- What stands between the quotation marks of a string. -/
inductive Chars : List Char → List StrUnit → Prop
  | nil : Chars [] []
  | plain {c : Char} {t : List Char} {us : List StrUnit} : isPlain c = true → Chars t us →
      Chars (c :: t) (.char c :: us)
  | escape {e c : Char} {t : List Char} {us : List StrUnit} : unescape e = some c → Chars t us →
      Chars ('\\' :: e :: t) (.char c :: us)
  | code {a b c d : Char} {n : ℕ} {t : List Char} {us : List StrUnit} :
      hexCode a b c d = some n → Chars t us →
      Chars ('\\' :: 'u' :: a :: b :: c :: d :: t) (.code n :: us)

/-- A non-empty text of digits. -/
def Digits (ds : List Char) : Prop := ds ≠ [] ∧ ∀ c ∈ ds, c.isDigit = true

/-- The integer part of a number, without a leading zero. -/
def Whole (ds : List Char) : Prop := ds = ['0'] ∨ Digits ds ∧ ds.head? ≠ some '0'

/-- The fraction of a number. -/
def Fraction (t : List Char) : Prop := t = [] ∨ ∃ ds, Digits ds ∧ t = '.' :: ds

/-- The exponent of a number. -/
def Exponent (t : List Char) : Prop :=
  t = [] ∨ ∃ e sign ds, (e = 'e' ∨ e = 'E') ∧ (sign = [] ∨ sign = ['+'] ∨ sign = ['-']) ∧
    Digits ds ∧ t = e :: sign ++ ds

/-- The literal of a number. -/
def Number (t : List Char) : Prop :=
  ∃ sign whole fraction exponent, (sign = [] ∨ sign = ['-']) ∧ Whole whole ∧
    Fraction fraction ∧ Exponent exponent ∧ t = sign ++ whole ++ fraction ++ exponent

section Lists

variable {α : Type*}

/-- A non-empty list of elements, each with white space around it. -/
inductive Elements (G : List Char → α → Prop) : List Char → List α → Prop
  | last {a t b : List Char} {v : α} : Blank a → G t v → Blank b → Elements G (a ++ t ++ b) [v]
  | cons {a t b rest : List Char} {v : α} {vs : List α} : Blank a → G t v → Blank b →
      Elements G rest vs → Elements G (a ++ t ++ b ++ ',' :: rest) (v :: vs)

/-- A member of an object: its name, a colon and its value. -/
inductive Member (G : List Char → α → Prop) : List Char → String × α → Prop
  | intro {k a b t : List Char} {us : List StrUnit} {v : α} : Chars k us → Blank a → Blank b →
      G t v → Member G ('"' :: k ++ '"' :: a ++ ':' :: b ++ t) (text us, v)

end Lists

/-- The value that a text without white space around it denotes. -/
inductive Value : List Char → Json → Prop
  | null : Value "null".toList .null
  | bool (b : Bool) : Value (toString b).toList (.bool b)
  | num {t : List Char} : Number t → Value t (.num t)
  | str {t : List Char} {us : List StrUnit} : Chars t us → Value ('"' :: t ++ ['"']) (.str (text us))
  | emptyArr {t : List Char} : Blank t → Value ('[' :: t ++ [']']) (.arr [])
  | arr {t : List Char} {vs : List Json} : Elements Value t vs → Value ('[' :: t ++ [']']) (.arr vs)
  | emptyObj {t : List Char} : Blank t → Value ('{' :: t ++ ['}']) (.obj [])
  | obj {t : List Char} {ms : List (String × Json)} : Elements (Member Value) t ms →
      Value ('{' :: t ++ ['}']) (.obj ms)

/-- The value that a JSON text denotes. -/
def Denotes (t : List Char) (v : Json) : Prop :=
  ∃ a core b, Blank a ∧ Value core v ∧ Blank b ∧ t = a ++ core ++ b

end Json

end ControlPlane

import ControlPlane.Json.Parser
import ControlPlane.Text

/-!
# Decoding JSON into typed data

A decoder for typed data does more than to parse: it bounds the nesting, refuses numbers that
a target cannot hold, matches the names of members to the fields of a structure without
regard to case, leaves a field alone when its member is null, and can keep the text of a value
as it stands in the input.
-/

namespace ControlPlane.Json

/-- The levels of arrays and objects that a decoder accepts. -/
def maxNestingDepth : ℕ := 10000

/-- The exponent of a number literal. Its digits are read up to a bound that no finite number
of double precision reaches. -/
def exponentValue (t : List Char) : ℤ :=
  let read := fun ds : List Char =>
    ds.foldl (fun e c => if e < 10000 then 10 * e + Text.digitValue c else e) 0
  match t with
  | '+' :: ds => read ds
  | '-' :: ds => -read ds
  | ds => read ds

/-- The number is rounded to an infinity of double precision: it is not below the middle
between the largest finite number and the next power of two. -/
def overflowsFloat64 (literal : List Char) : Bool :=
  let unsigned := literal.dropWhile (· == '-')
  let isExponent := fun c : Char => c == 'e' || c == 'E'
  let mantissa := unsigned.takeWhile fun c => !isExponent c
  let whole := mantissa.takeWhile (· != '.')
  let fraction := (mantissa.dropWhile (· != '.')).drop 1
  let digits := Text.decimal (whole ++ fraction)
  let scale := exponentValue ((unsigned.dropWhile fun c => !isExponent c).drop 1) - fraction.length
  if 0 ≤ scale then 2 ^ 1024 - 2 ^ 970 ≤ digits * 10 ^ scale.toNat
  else (2 ^ 1024 - 2 ^ 970) * 10 ^ (-scale).toNat ≤ digits

mutual

/-- Some number in the value is too large for double precision. -/
def overflows : Json → Bool
  | .num literal => overflowsFloat64 literal
  | .arr vs => anyOverflows vs
  | .obj ms => anyMemberOverflows ms
  | .null | .bool _ | .str _ => false

def anyOverflows : List Json → Bool
  | [] => false
  | v :: vs => overflows v || anyOverflows vs

def anyMemberOverflows : List (String × Json) → Bool
  | [] => false
  | m :: ms => overflows m.2 || anyMemberOverflows ms

end

/-- Decode a whole text without a target type. -/
def unmarshal (l : List Char) : Option Json :=
  (parse maxNestingDepth l).bind fun v => if v.overflows then none else some v

theorem unmarshal_sound {l : List Char} {v : Json} (h : unmarshal l = some v) : Denotes l v := by
  obtain ⟨u, hparse, hfits⟩ := Option.bind_eq_some_iff.mp h
  split_ifs at hfits
  cases hfits
  exact parse_sound hparse

/-- Read a value together with its text. -/
def rawValue (d : ℕ) : Reader (Json × String) := fun l =>
  (value d l).map fun r => ((r.1, String.ofList (l.take (l.length - r.2.length))), r.2)

/-- Decode into a field that holds a string. -/
def decodeString (old : String) : Json → Option String
  | .str s => some s
  | .null => some old
  | _ => none

/-- Decode into a field that holds an integer of 64 bits. -/
def decodeInt (old : ℤ) : Json → Option ℤ
  | .num literal => Text.parseInt literal
  | .null => some old
  | _ => none

/-- The name of a member without regard to case. The long s and the Kelvin sign are the only
other characters that fold to letters of ASCII. -/
def foldName (name : String) : String :=
  String.ofList (name.toList.map fun c =>
    if c = '\u017f' then 's' else if c = '\u212a' then 'k' else c.toLower)

/-- Decode the first value of a text into a structure, member by member. What follows the value
is not read; `complete` says whether the text ends where the input does. -/
def decodeStruct {σ : Type*} (assign : σ → String × Json × String → Option σ) (init : σ)
    (complete : Bool) (l : List Char) : Option σ :=
  match skipBlank l with
  | '{' :: rest =>
      (list (member (rawValue (maxNestingDepth - 1))) '}' rest).bind fun r =>
        r.1.foldlM assign init
  | 'n' :: 'u' :: 'l' :: 'l' :: rest => if rest = [] ∧ !complete then none else some init
  | _ => none

end ControlPlane.Json

import ControlPlane.Json.Completeness

/-!
# Writing JSON

The encoder writes a value without white space and escapes every control character of a
string, as well as the characters that HTML and JavaScript give a meaning to. What it writes
denotes the value by the grammar, so every parser that accepts the grammar reads it back, and
it has no line breaks, so it can stand in a format of lines.
-/

namespace ControlPlane.Json

/-- The lower-case hexadecimal digit of a number below sixteen. -/
def hexDigit (n : ℕ) : Char :=
  if n < 10 then Char.ofNat ('0'.toNat + n) else Char.ofNat ('a'.toNat + (n - 10))

/-- The four hexadecimal digits of a code unit. -/
def hexDigits (n : ℕ) : List Char :=
  [hexDigit (n / 0x1000), hexDigit (n / 0x100 % 16), hexDigit (n / 0x10 % 16), hexDigit (n % 16)]

/-- The letter of the simple escape with which a character is written. -/
def escapeLetter : Char → Option Char
  | '"' => some '"'
  | '\\' => some '\\'
  | '\x08' => some 'b'
  | '\x0c' => some 'f'
  | '\n' => some 'n'
  | '\r' => some 'r'
  | '\t' => some 't'
  | _ => none

/-- The character is written with its code unless it has a simple escape. -/
def needsCode (c : Char) : Bool :=
  c.toNat < 0x20 ∨ c = '<' ∨ c = '>' ∨ c = '&' ∨ c = '\u2028' ∨ c = '\u2029'

/-- A character inside a string. -/
def escape (c : Char) : List Char :=
  match escapeLetter c with
  | some e => ['\\', e]
  | none => if needsCode c then '\\' :: 'u' :: hexDigits c.toNat else [c]

/-- A string with its quotation marks. -/
def quoted (s : String) : List Char := '"' :: s.toList.flatMap escape ++ ['"']

mutual

/-- The text of a value. -/
def encode : Json → List Char
  | .null => "null".toList
  | .bool b => (toString b).toList
  | .num literal => literal
  | .str s => quoted s
  | .arr vs => '[' :: encodeElements vs ++ [']']
  | .obj ms => '{' :: encodeMembers ms ++ ['}']

/-- The elements of an array, separated by commas. -/
def encodeElements : List Json → List Char
  | [] => []
  | [v] => encode v
  | v :: vs => encode v ++ ',' :: encodeElements vs

/-- The members of an object, separated by commas. -/
def encodeMembers : List (String × Json) → List Char
  | [] => []
  | [(k, v)] => quoted k ++ ':' :: encode v
  | (k, v) :: ms => quoted k ++ ':' :: encode v ++ ',' :: encodeMembers ms

end

mutual

/-- The literals of the numbers in the value are numbers of the grammar. -/
def Numeric : Json → Prop
  | .num literal => Number literal
  | .arr vs => AllNumeric vs
  | .obj ms => MembersNumeric ms
  | .null | .bool _ | .str _ => True

/-- The same for the elements of an array. -/
def AllNumeric : List Json → Prop
  | [] => True
  | v :: vs => Numeric v ∧ AllNumeric vs

/-- The same for the members of an object. -/
def MembersNumeric : List (String × Json) → Prop
  | [] => True
  | (_, v) :: ms => Numeric v ∧ MembersNumeric ms

end

section Strings

/-- The unit that an encoded character is read as. -/
def unitOf (c : Char) : StrUnit :=
  if escapeLetter c = none ∧ needsCode c = true then .code c.toNat else .char c

/-- A digit is read as the number that it was written for. -/
theorem hexValue_hexDigit {n : ℕ} (h : n < 16) : hexValue (hexDigit n) = some n := by
  have hall : ∀ n : Fin 16, hexValue (hexDigit n) = some n.val := by decide
  exact hall ⟨n, h⟩

/-- Four digits are read as the code unit that they were written for. -/
theorem hexCode_hexDigits {n : ℕ} (h : n < 0x10000) :
    hexCode (hexDigit (n / 0x1000)) (hexDigit (n / 0x100 % 16)) (hexDigit (n / 0x10 % 16))
      (hexDigit (n % 16)) = some n := by
  have hfirst : n / 0x1000 < 16 := by omega
  have hsum : 0x1000 * (n / 0x1000) + 0x100 * (n / 0x100 % 16) + 0x10 * (n / 0x10 % 16) +
      n % 16 = n := by omega
  simp only [hexCode, hexValue_hexDigit hfirst, hexValue_hexDigit (Nat.mod_lt _ (by decide)),
    Option.bind_eq_bind, Option.bind_some, Option.pure_def, hsum]

/-- A simple escape is read as the character that it was written for. -/
theorem unescape_escapeLetter {c e : Char} (h : escapeLetter c = some e) :
    unescape e = some c := by
  unfold escapeLetter at h
  split at h <;> cases h <;> rfl

/-- A character that is written as it is may stand in a string. -/
theorem isPlain_of_escape {c : Char} (hletter : escapeLetter c = none)
    (hcode : needsCode c = false) : isPlain c = true := by
  have hquote : c ≠ '"' := by
    rintro rfl
    cases hletter
  have hslash : c ≠ '\\' := by
    rintro rfl
    cases hletter
  simp only [needsCode, decide_eq_false_iff_not, not_or] at hcode
  simp [isPlain, hquote, hslash, Nat.not_lt.mp hcode.1]

/-- What is written with its code lies below the surrogates. -/
theorem toNat_lt_of_needsCode {c : Char} (h : needsCode c = true) :
    c.toNat < 0xD800 := by
  simp only [needsCode, decide_eq_true_eq] at h
  rcases h with h | rfl | rfl | rfl | rfl | rfl
  · omega
  all_goals decide

/-- One more character at the front of a string. -/
theorem Chars.escaped (c : Char) {t : List Char} {us : List StrUnit} (h : Chars t us) :
    Chars (Json.escape c ++ t) (unitOf c :: us) := by
  unfold Json.escape unitOf
  cases hletter : escapeLetter c with
  | some e =>
    simp only [reduceCtorEq, false_and, if_false]
    exact .escape (unescape_escapeLetter hletter) h
  | none =>
    cases hcode : needsCode c with
    | false =>
      simp only [Bool.false_eq_true, and_false, if_false]
      exact .plain (isPlain_of_escape hletter hcode) h
    | true =>
      simp only [and_self, if_true]
      have hlt := toNat_lt_of_needsCode hcode
      exact .code (hexCode_hexDigits (by omega)) h

/-- The escaped characters are those of a string. -/
theorem chars_flatMap_escape (cs : List Char) :
    Chars (cs.flatMap Json.escape) (cs.map unitOf) := by
  induction cs with
  | nil => exact .nil
  | cons c cs ih => exact ih.escaped c

/-- The code of a character stands for the character. -/
theorem codeChar_of_needsCode {c : Char} (h : needsCode c = true) : codeChar c.toNat = c := by
  have hlt := toNat_lt_of_needsCode h
  have hhigh : isHigh c.toNat = false := by
    simp only [isHigh, decide_eq_false_iff_not]
    omega
  have hlow : isLow c.toNat = false := by
    simp only [isLow, decide_eq_false_iff_not]
    omega
  simp [codeChar, hhigh, hlow]

/-- No character is written as half of a surrogate pair, so the units are read one by one. -/
theorem decode_map_unitOf (cs : List Char) : decode (cs.map unitOf) = cs := by
  induction cs with
  | nil => rfl
  | cons c cs ih =>
    rw [List.map_cons, unitOf]
    split_ifs with hc
    · have hhigh : isHigh c.toNat = false := by
        have hlt := toNat_lt_of_needsCode hc.2
        simp only [isHigh, decide_eq_false_iff_not]
        omega
      have hone : ∀ us, decode (.code c.toNat :: us) = codeChar c.toNat :: decode us := by
        intro us
        rcases us with _ | ⟨_ | n, us⟩
        · rfl
        · rfl
        · simp [decode, hhigh]
      rw [hone, codeChar_of_needsCode hc.2, ih]
    · rw [decode, ih]

/-- The string that is read is the one that was written. -/
theorem text_map_unitOf (s : String) : text (s.toList.map unitOf) = s := by
  rw [text, decode_map_unitOf, String.ofList_toList]

end Strings

section Values

/-- No white space is white space. -/
theorem Blank.nil : Blank [] := fun _ hc => absurd hc List.not_mem_nil

/-- One element, without white space around it. -/
theorem Elements.single {α : Type*} {G : List Char → α → Prop} {t : List Char} {v : α}
    (h : G t v) : Elements G t [v] := by
  have hlast : Elements G ([] ++ t ++ []) [v] := .last .nil h .nil
  rwa [List.nil_append, List.append_nil] at hlast

/-- One element more at the front. -/
theorem Elements.more {α : Type*} {G : List Char → α → Prop} {t rest : List Char} {v : α}
    {vs : List α} (h : G t v) (hrest : Elements G rest vs) :
    Elements G (t ++ ',' :: rest) (v :: vs) := by
  have hcons : Elements G ([] ++ t ++ [] ++ ',' :: rest) (v :: vs) := .cons .nil h .nil hrest
  rwa [List.nil_append, List.append_nil] at hcons

/-- A member with an escaped key, without white space around the colon. -/
theorem Member.quoted {α : Type*} {G : List Char → α → Prop} {t : List Char} {v : α} (k : String)
    (h : G t v) : Member G (Json.quoted k ++ ':' :: t) (k, v) := by
  have hmember : Member G _ (text (k.toList.map unitOf), v) :=
    .intro (chars_flatMap_escape k.toList) .nil .nil h
  rw [text_map_unitOf] at hmember
  simpa [Json.quoted] using hmember

mutual

/-- What the encoder writes denotes the value. -/
theorem value_encode : ∀ v : Json, Numeric v → Value (encode v) v
  | .null, _ => .null
  | .bool b, _ => .bool b
  | .num _, h => .num h
  | .str s, _ => by
    have hstr := Value.str (chars_flatMap_escape s.toList)
    rwa [text_map_unitOf] at hstr
  | .arr [], _ => .emptyArr .nil
  | .arr (v :: vs), h => .arr (elements_encode (v :: vs) (List.cons_ne_nil v vs) h)
  | .obj [], _ => .emptyObj .nil
  | .obj (m :: ms), h => .obj (members_encode (m :: ms) (List.cons_ne_nil m ms) h)

/-- The elements that are written denote those of the array. -/
theorem elements_encode :
    ∀ vs : List Json, vs ≠ [] → AllNumeric vs → Elements Value (encodeElements vs) vs
  | [], hne, _ => absurd rfl hne
  | [v], _, h => .single (value_encode v h.1)
  | v :: w :: vs, _, h =>
    .more (value_encode v h.1) (elements_encode (w :: vs) (List.cons_ne_nil w vs) h.2)

/-- The members that are written denote those of the object. -/
theorem members_encode :
    ∀ ms : List (String × Json), ms ≠ [] → MembersNumeric ms →
      Elements (Member Value) (encodeMembers ms) ms
  | [], hne, _ => absurd rfl hne
  | [(k, v)], _, h => .single (.quoted k (value_encode v h.1))
  | (k, v) :: m :: ms, _, h =>
    .more (.quoted k (value_encode v h.1))
      (members_encode (m :: ms) (List.cons_ne_nil m ms) h.2)

end

/-- The parser reads back what the encoder wrote. -/
theorem parse_encode {v : Json} {d : ℕ} (h : Numeric v) (hdepth : depth v ≤ d) :
    parse d (encode v) = some v :=
  parse_complete ⟨[], encode v, [], .nil, value_encode v h, .nil, by simp⟩ hdepth

end Values

section Printing

/-- The text has no control characters. -/
def Printable (t : List Char) : Prop := ∀ c ∈ t, 0x20 ≤ c.toNat

/-- Texts can be put together. -/
theorem Printable.append {t u : List Char} (ht : Printable t) (hu : Printable u) :
    Printable (t ++ u) := by
  intro c hc
  rcases List.mem_append.mp hc with hc | hc
  · exact ht c hc
  · exact hu c hc

/-- So can a character and a text. -/
theorem Printable.cons {c : Char} {t : List Char} (hc : 0x20 ≤ c.toNat) (ht : Printable t) :
    Printable (c :: t) := by
  intro d hd
  rcases List.mem_cons.mp hd with rfl | hd
  · exact hc
  · exact ht d hd

/-- The empty text has no characters. -/
theorem Printable.nil : Printable [] := fun _ hc => absurd hc List.not_mem_nil

/-- So can a text and its brackets or quotation marks. -/
theorem enclosed_printable {t : List Char} {first last : Char} (hfirst : 0x20 ≤ first.toNat)
    (ht : Printable t) (hlast : 0x20 ≤ last.toNat) : Printable (first :: t ++ [last]) :=
  (ht.cons hfirst).append (.cons hlast .nil)

/-- Digits are no control characters. -/
theorem printable_of_isDigit {t : List Char} (h : ∀ c ∈ t, c.isDigit = true) : Printable t := by
  intro c hc
  have hdigit := h c hc
  simp only [Char.isDigit, Bool.and_eq_true, decide_eq_true_eq] at hdigit
  have hle : ('0' : Char).toNat ≤ c.toNat := hdigit.1
  exact le_trans (by decide) hle

/-- The literal of a number has no control characters. -/
theorem Number.printable {t : List Char} (h : Number t) : Printable t := by
  obtain ⟨sign, whole, fraction, exponent, hsign, hwhole, hfraction, hexponent, rfl⟩ := h
  have hsign : Printable sign := by
    rcases hsign with rfl | rfl
    · exact .nil
    · exact .cons (by decide) .nil
  have hwhole : Printable whole := by
    rcases hwhole with rfl | ⟨hdigits, -⟩
    · exact .cons (by decide) .nil
    · exact printable_of_isDigit hdigits.2
  have hfraction : Printable fraction := by
    rcases hfraction with rfl | ⟨ds, hdigits, rfl⟩
    · exact .nil
    · exact .cons (by decide) (printable_of_isDigit hdigits.2)
  have hexponent : Printable exponent := by
    rcases hexponent with rfl | ⟨e, sign', ds, he, hsign', hdigits, rfl⟩
    · exact .nil
    · have hletter : 0x20 ≤ e.toNat := by rcases he with rfl | rfl <;> decide
      have hsign' : Printable sign' := by
        rcases hsign' with rfl | rfl | rfl
        · exact .nil
        · exact .cons (by decide) .nil
        · exact .cons (by decide) .nil
      exact (hsign'.cons hletter).append (printable_of_isDigit hdigits.2)
  exact ((hsign.append hwhole).append hfraction).append hexponent

/-- Nor has a hexadecimal digit. -/
theorem hexDigit_printable {n : ℕ} (h : n < 16) : 0x20 ≤ (hexDigit n).toNat := by
  have hall : ∀ n : Fin 16, 0x20 ≤ (hexDigit n).toNat := by decide
  exact hall ⟨n, h⟩

/-- A control character is written with a simple escape or with its code. -/
theorem escape_printable (c : Char) : Printable (escape c) := by
  unfold escape
  split
  · rename_i e hletter
    have he : 0x20 ≤ e.toNat := by
      unfold escapeLetter at hletter
      split at hletter <;> cases hletter <;> decide
    exact .cons (by decide) (.cons he .nil)
  · split_ifs with hcode
    · have hlt := toNat_lt_of_needsCode hcode
      have hdigit : ∀ n : ℕ, 0x20 ≤ (hexDigit (n % 16)).toNat := fun n =>
        hexDigit_printable (Nat.mod_lt n (by decide))
      have hfirst : 0x20 ≤ (hexDigit (c.toNat / 0x1000)).toNat :=
        hexDigit_printable (by omega)
      refine .cons (by decide) (.cons (by decide) (.cons hfirst ?_))
      exact .cons (hdigit _) (.cons (hdigit _) (.cons (hdigit _) .nil))
    · have hc : ¬c.toNat < 0x20 := by
        simp only [needsCode, decide_eq_true_eq, not_or] at hcode
        exact hcode.1
      exact .cons (Nat.not_lt.mp hc) .nil

/-- A string that is written has no control characters. -/
theorem quoted_printable (s : String) : Printable (quoted s) := by
  have hbody : Printable (s.toList.flatMap escape) := by
    intro c hc
    obtain ⟨d, -, hd⟩ := List.mem_flatMap.mp hc
    exact escape_printable d c hd
  exact enclosed_printable (by decide) hbody (by decide)

/-- Nor has a member. -/
theorem member_printable (k : String) {t : List Char} (ht : Printable t) :
    Printable (quoted k ++ ':' :: t) :=
  (quoted_printable k).append (ht.cons (by decide))

mutual

/-- The encoder writes no control characters, hence no line breaks. -/
theorem encode_printable : ∀ v : Json, Numeric v → Printable (encode v)
  | .null, _ => by simp [encode, Printable]
  | .bool b, _ => by cases b <;> simp [encode, Printable, toString]
  | .num _, h => Number.printable h
  | .str s, _ => quoted_printable s
  | .arr vs, h => enclosed_printable (by decide) (elements_printable vs h) (by decide)
  | .obj ms, h => enclosed_printable (by decide) (members_printable ms h) (by decide)

/-- Nor have the elements of an array. -/
theorem elements_printable : ∀ vs : List Json, AllNumeric vs → Printable (encodeElements vs)
  | [], _ => .nil
  | [v], h => encode_printable v h.1
  | v :: w :: vs, h =>
    (encode_printable v h.1).append ((elements_printable (w :: vs) h.2).cons (by decide))

/-- Nor have the members of an object. -/
theorem members_printable :
    ∀ ms : List (String × Json), MembersNumeric ms → Printable (encodeMembers ms)
  | [], _ => .nil
  | [(k, v)], h => member_printable k (encode_printable v h.1)
  | (k, v) :: m :: ms, h =>
    (member_printable k (encode_printable v h.1)).append
      ((members_printable (m :: ms) h.2).cons (by decide))

end

end Printing

end ControlPlane.Json

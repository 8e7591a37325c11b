import ControlPlane.Json.Grammar
import Mathlib.Data.List.TakeWhile

/-!
# A parser for JSON

The parser reads a value from the front of a text and returns it with the rest of the text.
Arrays and objects consume a budget of nesting levels, so the parser is structural in the
budget. Each reader is sound for a relation of the grammar: what it consumed stands in the
relation to what it returned.
-/

namespace ControlPlane.Json

variable {α β : Type*}

/-- A reader of texts returns what it read and the rest of the text. -/
abbrev Reader (α : Type*) := List Char → Option (α × List Char)

/-- What the reader consumes is related by `G` to what it returns. -/
def Sound (f : Reader α) (G : List Char → α → Prop) : Prop :=
  ∀ l v rest, f l = some (v, rest) → ∃ t, l = t ++ rest ∧ G t v

/-- Skip white space. -/
def skipBlank (l : List Char) : List Char := l.dropWhile isBlank

/-- Read a non-empty text of digits. -/
def digits : Reader (List Char) := fun l =>
  if l.takeWhile Char.isDigit = [] then none
  else some (l.takeWhile Char.isDigit, l.dropWhile Char.isDigit)

/-- Read the integer part of a number. -/
def whole : Reader (List Char) := fun l =>
  match l with
  | '0' :: rest => some (['0'], rest)
  | l => digits l

/-- Read a fraction, if there is one. -/
def fraction : Reader (List Char) := fun l =>
  match l with
  | '.' :: rest => (digits rest).map fun r => ('.' :: r.1, r.2)
  | l => some ([], l)

/-- Read the sign of an exponent and its digits. -/
def signedDigits : Reader (List Char) := fun l =>
  match l with
  | '+' :: rest => (digits rest).map fun r => ('+' :: r.1, r.2)
  | '-' :: rest => (digits rest).map fun r => ('-' :: r.1, r.2)
  | l => digits l

/-- Read an exponent, if there is one. -/
def exponent : Reader (List Char) := fun l =>
  match l with
  | 'e' :: rest => (signedDigits rest).map fun r => ('e' :: r.1, r.2)
  | 'E' :: rest => (signedDigits rest).map fun r => ('E' :: r.1, r.2)
  | l => some ([], l)

/-- Read a number without a sign. -/
def magnitude : Reader (List Char) := fun l =>
  (whole l).bind fun w => (fraction w.2).bind fun f => (exponent f.2).map fun e =>
    (w.1 ++ f.1 ++ e.1, e.2)

/-- Read the literal of a number. -/
def number : Reader (List Char) := fun l =>
  match l with
  | '-' :: rest => (magnitude rest).map fun r => ('-' :: r.1, r.2)
  | l => magnitude l

/-- Read a string after its opening quotation mark. -/
def chars : Reader (List StrUnit)
  | [] => none
  | '"' :: rest => some ([], rest)
  | '\\' :: 'u' :: a :: b :: c :: d :: rest =>
      (hexCode a b c d).bind fun n => (chars rest).map fun r => (.code n :: r.1, r.2)
  | '\\' :: e :: rest =>
      (unescape e).bind fun c => (chars rest).map fun r => (.char c :: r.1, r.2)
  | c :: rest =>
      if isPlain c then (chars rest).map fun r => (.char c :: r.1, r.2) else none

/-- Read a value that is neither an array nor an object. -/
def scalar : Reader Json := fun l =>
  match l with
  | 'n' :: 'u' :: 'l' :: 'l' :: rest => some (.null, rest)
  | 't' :: 'r' :: 'u' :: 'e' :: rest => some (.bool true, rest)
  | 'f' :: 'a' :: 'l' :: 's' :: 'e' :: rest => some (.bool false, rest)
  | '"' :: rest => (chars rest).map fun r => (.str (text r.1), r.2)
  | l => (number l).map fun r => (.num r.1, r.2)

/-- Read at most `n` elements up to the closing character. -/
def elements (item : Reader α) (close : Char) : ℕ → Reader (List α)
  | 0, _ => none
  | n + 1, l =>
      (item (skipBlank l)).bind fun r =>
        match skipBlank r.2 with
        | ',' :: rest => (elements item close n rest).map fun r' => (r.1 :: r'.1, r'.2)
        | c :: rest => if c = close then some ([r.1], rest) else none
        | [] => none

/-- Read a list of elements, which may be empty, up to the closing character. -/
def list (item : Reader α) (close : Char) : Reader (List α) := fun l =>
  match skipBlank l with
  | c :: rest => if c = close then some ([], rest) else elements item close l.length l
  | [] => none

/-- Read a member of an object. -/
def member (item : Reader α) : Reader (String × α) := fun l =>
  match l with
  | '"' :: rest =>
      (chars rest).bind fun k =>
        match skipBlank k.2 with
        | ':' :: rest => (item (skipBlank rest)).map fun r => ((text k.1, r.1), r.2)
        | _ => none
  | _ => none

/-- Read a value with at most `d` levels of arrays and objects. -/
def value : ℕ → Reader Json
  | 0 => scalar
  | d + 1 => fun l =>
      match l with
      | '[' :: rest => (list (value d) ']' rest).map fun r => (.arr r.1, r.2)
      | '{' :: rest => (list (member (value d)) '}' rest).map fun r => (.obj r.1, r.2)
      | l => scalar l

/-- The value of a whole text. -/
def parse (depth : ℕ) (l : List Char) : Option Json :=
  (value depth (skipBlank l)).bind fun r => if skipBlank r.2 = [] then some r.1 else none

section Soundness

/-- What is skipped is white space. -/
theorem exists_blank (l : List Char) : ∃ w, Blank w ∧ l = w ++ skipBlank l :=
  ⟨l.takeWhile isBlank, fun _ hc => List.mem_takeWhile_imp hc,
    List.takeWhile_append_dropWhile.symm⟩

/-- A reader behind a fixed first character. -/
theorem Sound.cons {f : Reader α} {G : List Char → α → Prop} {g : α → β} (h : Sound f G) (c : Char)
    {l rest : List Char} {v : β}
    (hl : (f l).map (fun r => (g r.1, r.2)) = some (v, rest)) :
    ∃ t u, c :: l = c :: t ++ rest ∧ G t u ∧ v = g u := by
  obtain ⟨⟨u, rest'⟩, hf, heq⟩ := Option.map_eq_some_iff.mp hl
  cases heq
  obtain ⟨t, rfl, hG⟩ := h l u rest' hf
  exact ⟨t, u, rfl, hG, rfl⟩

/-- What is read as digits are digits. -/
theorem digits_sound : Sound digits fun t ds => ds = t ∧ Digits t := by
  intro l v rest hl
  unfold digits at hl
  split_ifs at hl with hnil
  cases hl
  refine ⟨l.takeWhile Char.isDigit, List.takeWhile_append_dropWhile.symm, rfl, hnil, ?_⟩
  exact fun c hc => List.mem_takeWhile_imp hc

/-- What is read as a whole part has no leading zero. -/
theorem whole_sound : Sound whole fun t ds => ds = t ∧ Whole t := by
  intro l v rest hl
  unfold whole at hl
  split at hl
  · cases hl
    exact ⟨['0'], rfl, rfl, Or.inl rfl⟩
  · rename_i hzero
    obtain ⟨t, rfl, rfl, hdigits⟩ := digits_sound l v rest hl
    refine ⟨v, rfl, rfl, Or.inr ⟨hdigits, ?_⟩⟩
    intro hhead
    obtain ⟨ds, rfl⟩ := List.head?_eq_some_iff.mp hhead
    exact hzero (ds ++ rest) rfl

/-- What is read as a fraction is one, or nothing is read. -/
theorem fraction_sound : Sound fraction fun t ds => ds = t ∧ Fraction t := by
  intro l v rest hl
  unfold fraction at hl
  split at hl
  · obtain ⟨t, u, ht, ⟨rfl, hdigits⟩, rfl⟩ := digits_sound.cons '.' hl
    exact ⟨'.' :: u, ht, rfl, Or.inr ⟨u, hdigits, rfl⟩⟩
  · cases hl
    exact ⟨[], rfl, rfl, Or.inl rfl⟩

/-- What is read as digits with a sign has at most one sign. -/
theorem signedDigits_sound : Sound signedDigits fun t ds => ds = t ∧ ∃ sign ds,
    (sign = [] ∨ sign = ['+'] ∨ sign = ['-']) ∧ Digits ds ∧ t = sign ++ ds := by
  intro l v rest hl
  unfold signedDigits at hl
  split at hl
  · obtain ⟨t, u, ht, ⟨rfl, hdigits⟩, rfl⟩ := digits_sound.cons '+' hl
    exact ⟨'+' :: u, ht, rfl, ['+'], u, by simp, hdigits, rfl⟩
  · obtain ⟨t, u, ht, ⟨rfl, hdigits⟩, rfl⟩ := digits_sound.cons '-' hl
    exact ⟨'-' :: u, ht, rfl, ['-'], u, by simp, hdigits, rfl⟩
  · obtain ⟨t, rfl, rfl, hdigits⟩ := digits_sound l v rest hl
    exact ⟨v, rfl, rfl, [], v, by simp, hdigits, rfl⟩

/-- What is read as an exponent is one, or nothing is read. -/
theorem exponent_sound : Sound exponent fun t ds => ds = t ∧ Exponent t := by
  intro l v rest hl
  unfold exponent at hl
  split at hl
  · obtain ⟨t, u, ht, ⟨rfl, sign, ds, hsign, hdigits, rfl⟩, rfl⟩ := signedDigits_sound.cons 'e' hl
    exact ⟨'e' :: (sign ++ ds), ht, rfl, Or.inr ⟨'e', sign, ds, by simp, hsign, hdigits, rfl⟩⟩
  · obtain ⟨t, u, ht, ⟨rfl, sign, ds, hsign, hdigits, rfl⟩, rfl⟩ := signedDigits_sound.cons 'E' hl
    exact ⟨'E' :: (sign ++ ds), ht, rfl, Or.inr ⟨'E', sign, ds, by simp, hsign, hdigits, rfl⟩⟩
  · cases hl
    exact ⟨[], rfl, rfl, Or.inl rfl⟩

/-- What is read as a magnitude has the three parts of a number. -/
theorem magnitude_sound : Sound magnitude fun t v => v = t ∧ ∃ whole fraction exponent,
    Whole whole ∧ Fraction fraction ∧ Exponent exponent ∧ t = whole ++ fraction ++ exponent := by
  intro l v rest hl
  obtain ⟨⟨w, l₁⟩, hw, hl₁⟩ := Option.bind_eq_some_iff.mp hl
  obtain ⟨⟨f, l₂⟩, hf, hl₂⟩ := Option.bind_eq_some_iff.mp hl₁
  obtain ⟨⟨e, l₃⟩, he, heq⟩ := Option.map_eq_some_iff.mp hl₂
  cases heq
  obtain ⟨w', rfl, rfl, hwhole⟩ := whole_sound l w l₁ hw
  obtain ⟨f', rfl, rfl, hfraction⟩ := fraction_sound l₁ f l₂ hf
  obtain ⟨e', rfl, rfl, hexponent⟩ := exponent_sound l₂ e l₃ he
  exact ⟨w ++ f ++ e, by simp, rfl, w, f, e, hwhole, hfraction, hexponent, rfl⟩

/-- What is read as a number is the literal of one. -/
theorem number_sound : Sound number fun t v => v = t ∧ Number t := by
  intro l v rest hl
  unfold number at hl
  split at hl
  · obtain ⟨t, u, ht, ⟨rfl, w, f, e, hw, hf, he, rfl⟩, rfl⟩ := magnitude_sound.cons '-' hl
    exact ⟨'-' :: (w ++ f ++ e), ht, rfl, ['-'], w, f, e, Or.inr rfl, hw, hf, he, by simp⟩
  · obtain ⟨t, rfl, rfl, w, f, e, hw, hf, he, heq⟩ := magnitude_sound l v rest hl
    exact ⟨v, rfl, rfl, [], w, f, e, Or.inl rfl, hw, hf, he, by simpa using heq⟩

/-- A string is read up to its closing quotation mark. -/
theorem chars_sound : Sound chars fun t us => ∃ body, t = body ++ ['"'] ∧ Chars body us := by
  intro l
  fun_induction chars l with
  | case1 => simp
  | case2 rest' =>
    intro v rest hl
    cases hl
    exact ⟨['"'], rfl, [], rfl, .nil⟩
  | case3 a b c d rest' ih =>
    intro v rest hl
    obtain ⟨n, hn, hl⟩ := Option.bind_eq_some_iff.mp hl
    obtain ⟨⟨us, l⟩, hus, heq⟩ := Option.map_eq_some_iff.mp hl
    cases heq
    obtain ⟨t, rfl, body, rfl, hchars⟩ := ih us l hus
    exact ⟨_, rfl, '\\' :: 'u' :: a :: b :: c :: d :: body, rfl, .code hn hchars⟩
  | case4 e rest' hcode ih =>
    intro v rest hl
    obtain ⟨c, hc, hl⟩ := Option.bind_eq_some_iff.mp hl
    obtain ⟨⟨us, l⟩, hus, heq⟩ := Option.map_eq_some_iff.mp hl
    cases heq
    obtain ⟨t, rfl, body, rfl, hchars⟩ := ih us l hus
    exact ⟨_, rfl, '\\' :: e :: body, rfl, .escape hc hchars⟩
  | case5 c rest' _ _ _ hplain ih =>
    intro v rest hl
    obtain ⟨⟨us, l⟩, hus, heq⟩ := Option.map_eq_some_iff.mp hl
    cases heq
    obtain ⟨t, rfl, body, rfl, hchars⟩ := ih us l hus
    exact ⟨_, rfl, c :: body, rfl, .plain hplain hchars⟩
  | case6 => simp

/-- What is read as a scalar is one of the four kinds of values without brackets. -/
theorem scalar_sound : Sound scalar Value := by
  intro l v rest hl
  unfold scalar at hl
  split at hl
  · cases hl
    exact ⟨_, rfl, .null⟩
  · cases hl
    exact ⟨"true".toList, rfl, .bool true⟩
  · cases hl
    exact ⟨"false".toList, rfl, .bool false⟩
  · obtain ⟨t, us, ht, ⟨body, rfl, hchars⟩, rfl⟩ :=
      chars_sound.cons (g := fun us => Json.str (text us)) '"' hl
    exact ⟨_, ht, .str hchars⟩
  · obtain ⟨⟨u, rest'⟩, hu, heq⟩ := Option.map_eq_some_iff.mp hl
    cases heq
    obtain ⟨t, rfl, rfl, hnumber⟩ := number_sound l u rest' hu
    exact ⟨u, rfl, .num hnumber⟩

section Lists

variable {item : Reader α} {G : List Char → α → Prop} {close : Char}

/-- What is read as elements is a list of them with its closing bracket. -/
theorem elements_sound (h : Sound item G) (n : ℕ) : Sound (elements item close n)
    fun t vs => ∃ body, t = body ++ [close] ∧ Elements G body vs := by
  induction n with
  | zero =>
    intro l v rest hl
    cases hl
  | succ n ih =>
    intro l v rest hl
    obtain ⟨⟨x, l₁⟩, hx, hl⟩ := Option.bind_eq_some_iff.mp hl
    obtain ⟨a, ha, hl₀⟩ := exists_blank l
    obtain ⟨b, hb, hl₁⟩ := exists_blank l₁
    obtain ⟨t, ht, hG⟩ := h _ x l₁ hx
    rw [ht, hl₁] at hl₀
    split at hl
    · rename_i l₂ hcomma
      obtain ⟨⟨vs, l₃⟩, hvs, heq⟩ := Option.map_eq_some_iff.mp hl
      cases heq
      obtain ⟨s, rfl, body, rfl, hbody⟩ := ih l₂ vs l₃ hvs
      rw [hcomma] at hl₀
      exact ⟨a ++ t ++ b ++ ',' :: body ++ [close], by simp [hl₀], _, rfl, .cons ha hG hb hbody⟩
    · rename_i c l₂ _ hclose
      split_ifs at hl with heq
      cases hl
      rw [hclose, heq] at hl₀
      exact ⟨a ++ t ++ b ++ [close], by simp [hl₀], _, rfl, .last ha hG hb⟩
    · cases hl

/-- What is read as a list is a list, or white space, with its closing bracket. -/
theorem list_sound (h : Sound item G) : Sound (list item close)
    fun t vs => ∃ body, t = body ++ [close] ∧ (vs = [] ∧ Blank body ∨ Elements G body vs) := by
  intro l v rest hl
  obtain ⟨a, ha, hl₀⟩ := exists_blank l
  unfold list at hl
  split at hl
  · rename_i c l₁ hskip
    split_ifs at hl with heq
    · cases hl
      rw [hskip, heq] at hl₀
      exact ⟨a ++ [close], by simp [hl₀], a, rfl, Or.inl ⟨rfl, ha⟩⟩
    · obtain ⟨t, ht, body, hbody, helements⟩ := elements_sound h _ l v rest hl
      exact ⟨t, ht, body, hbody, Or.inr helements⟩
  · cases hl

/-- What is read as a member is a key, a colon and a value. -/
theorem member_sound (h : Sound item G) : Sound (member item) (Member G) := by
  intro l v rest hl
  unfold member at hl
  split at hl
  · obtain ⟨⟨us, l₁⟩, hus, hvalue⟩ := Option.bind_eq_some_iff.mp hl
    obtain ⟨t, rfl, k, rfl, hchars⟩ := chars_sound _ us l₁ hus
    obtain ⟨a, ha, hl₁⟩ := exists_blank l₁
    split at hvalue
    · rename_i l₂ hcolon
      obtain ⟨⟨x, l₃⟩, hx, heq⟩ := Option.map_eq_some_iff.mp hvalue
      cases heq
      obtain ⟨b, hb, hl₂⟩ := exists_blank l₂
      obtain ⟨t, ht, hG⟩ := h _ x l₃ hx
      rw [hcolon, hl₂, ht] at hl₁
      exact ⟨'"' :: k ++ '"' :: a ++ ':' :: b ++ t, by simp [hl₁], .intro hchars ha hb hG⟩
    · cases hvalue
  · cases hl

end Lists

/-- What the parser reads as a value denotes that value. -/
theorem value_sound (d : ℕ) : Sound (value d) Value := by
  induction d with
  | zero => exact scalar_sound
  | succ d ih =>
    intro l v rest hl
    simp only [value] at hl
    split at hl
    · obtain ⟨t, vs, ht, ⟨body, rfl, hbody⟩, rfl⟩ := (list_sound ih).cons '[' hl
      refine ⟨_, ht, ?_⟩
      rcases hbody with ⟨rfl, hblank⟩ | helements
      · exact .emptyArr hblank
      · exact .arr helements
    · obtain ⟨t, ms, ht, ⟨body, rfl, hbody⟩, rfl⟩ := (list_sound (member_sound ih)).cons '{' hl
      refine ⟨_, ht, ?_⟩
      rcases hbody with ⟨rfl, hblank⟩ | helements
      · exact .emptyObj hblank
      · exact .obj helements
    · exact scalar_sound l v rest hl

/-- The parser accepts only JSON texts, and returns what they denote. -/
theorem parse_sound {d : ℕ} {l : List Char} {v : Json} (h : parse d l = some v) :
    Denotes l v := by
  obtain ⟨⟨u, rest⟩, hu, hend⟩ := Option.bind_eq_some_iff.mp h
  split_ifs at hend with hblank
  cases hend
  obtain ⟨a, ha, hl⟩ := exists_blank l
  obtain ⟨b, hb, hrest⟩ := exists_blank rest
  obtain ⟨core, hcore, hvalue⟩ := value_sound d _ u rest hu
  refine ⟨a, core, b, ha, hvalue, hb, ?_⟩
  rw [hl, hcore, hrest, hblank]
  simp

end Soundness

end ControlPlane.Json

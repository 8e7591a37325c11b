import ControlPlane.Json.Parser

/-!
# Every JSON text is parsed

The parser accepts every text of the grammar whose value is not nested deeper than its budget,
and returns the value that the text denotes. A reader is complete when it consumes exactly a
text of its relation, provided that what follows cannot continue the text: only the literal of
a number can be continued, and a value is followed by white space, by punctuation or by the
end. A text therefore denotes at most one value.
-/

namespace ControlPlane.Json

variable {α : Type*}

/-- No character of the kind `p` comes next. -/
def Avoids (p : Char → Bool) (rest : List Char) : Prop := ∀ c ∈ rest.head?, p c = false

/-- The reader consumes every text of `G` that is followed by something that `F` allows. -/
def Complete (f : Reader α) (G : List Char → α → Prop) (F : List Char → Prop) : Prop :=
  ∀ t v rest, G t v → F rest → f (t ++ rest) = some (v, rest)

/-- Nothing comes next at the end. -/
theorem Avoids.nil (p : Char → Bool) : Avoids p [] := fun c hc => by cases hc

/-- What comes next is the first character. -/
theorem Avoids.cons {p : Char → Bool} {c : Char} {rest : List Char} (h : p c = false) :
    Avoids p (c :: rest) := by
  intro c' hc'
  cases hc'
  exact h

/-- What is not of a kind is not of a narrower one. -/
theorem Avoids.mono {p q : Char → Bool} {rest : List Char} (h : Avoids q rest)
    (hpq : ∀ c, p c = true → q c = true) : Avoids p rest := by
  intro c hc
  cases hp : p c with
  | false => rfl
  | true =>
    have hq := hpq c hp
    rw [h c hc] at hq
    cases hq

/-- A maximal run of characters of a kind ends where the next one is not of the kind. -/
theorem takeWhile_append_of_avoids {p : Char → Bool} {t rest : List Char}
    (ht : ∀ c ∈ t, p c = true) (hrest : Avoids p rest) : (t ++ rest).takeWhile p = t := by
  rw [List.takeWhile_append_of_pos ht]
  cases rest with
  | nil => simp
  | cons c rest => simp [hrest c rfl]

/-- What follows such a run is left. -/
theorem dropWhile_append_of_avoids {p : Char → Bool} {t rest : List Char}
    (ht : ∀ c ∈ t, p c = true) (hrest : Avoids p rest) : (t ++ rest).dropWhile p = rest := by
  rw [List.dropWhile_append_of_pos ht]
  cases rest with
  | nil => rfl
  | cons c rest => simp [hrest c rfl]

section Numbers

/-- Digits are read up to the first character that is none. -/
theorem digits_complete : Complete digits (fun t ds => ds = t ∧ Digits t)
    (Avoids Char.isDigit) := by
  rintro t v rest ⟨rfl, hne, hdigits⟩ hrest
  unfold digits
  rw [takeWhile_append_of_avoids hdigits hrest, dropWhile_append_of_avoids hdigits hrest,
    if_neg hne]

/-- A leading zero stands alone, so no digit follows what is read. -/
theorem whole_complete : Complete whole (fun t ds => ds = t ∧ Whole t) (Avoids Char.isDigit) := by
  rintro t v rest ⟨rfl, rfl | ⟨hdigits, hzero⟩⟩ hrest
  · rfl
  · unfold whole
    split
    · rename_i l heq
      obtain ⟨c, ds, rfl⟩ := List.exists_cons_of_ne_nil hdigits.1
      rw [List.cons_append, List.cons.injEq] at heq
      exact absurd (congrArg some heq.1) hzero
    · exact digits_complete v v rest ⟨rfl, hdigits⟩ hrest

/-- The character can continue the literal of a number. -/
def continuesNumber (c : Char) : Bool := c.isDigit || c == '.' || c == 'e' || c == 'E'

/-- A digit continues a number. -/
theorem Avoids.digit {rest : List Char} (h : Avoids continuesNumber rest) :
    Avoids Char.isDigit rest := h.mono fun c hc => by simp [continuesNumber, hc]

/-- A fraction is read, and a missing one if no point comes next. -/
theorem fraction_complete : Complete fraction (fun t ds => ds = t ∧ Fraction t)
    fun rest => Avoids Char.isDigit rest ∧ Avoids (· == '.') rest := by
  rintro t v rest ⟨rfl, rfl | ⟨ds, hdigits, rfl⟩⟩ ⟨hrest, hpoint⟩
  · unfold fraction
    split
    · rename_i l heq
      rw [List.nil_append] at heq
      exact absurd (hpoint '.' (by simp [heq])) (by decide)
    · rfl
  · simp [fraction, digits_complete ds ds rest ⟨rfl, hdigits⟩ hrest]

/-- Digits start with a digit. -/
theorem Digits.head {ds : List Char} (h : Digits ds) :
    ∃ c t, ds = c :: t ∧ c.isDigit = true := by
  obtain ⟨c, t, rfl⟩ := List.exists_cons_of_ne_nil h.1
  exact ⟨c, t, rfl, h.2 c List.mem_cons_self⟩

/-- A sign is optional. -/
theorem signedDigits_complete {sign ds rest : List Char}
    (hsign : sign = [] ∨ sign = ['+'] ∨ sign = ['-']) (hdigits : Digits ds)
    (hrest : Avoids Char.isDigit rest) :
    signedDigits (sign ++ ds ++ rest) = some (sign ++ ds, rest) := by
  have hread := digits_complete ds ds rest ⟨rfl, hdigits⟩ hrest
  rcases hsign with rfl | rfl | rfl
  · obtain ⟨c, t, rfl, hc⟩ := hdigits.head
    have hplus : c ≠ '+' := by rintro rfl; cases hc
    have hminus : c ≠ '-' := by rintro rfl; cases hc
    simpa [signedDigits, hplus, hminus] using hread
  · simp [signedDigits, hread]
  · simp [signedDigits, hread]

/-- An exponent is read, and a missing one if nothing comes next that continues a number. -/
theorem exponent_complete : Complete exponent (fun t e => e = t ∧ Exponent t)
    (Avoids continuesNumber) := by
  rintro t v rest ⟨rfl, rfl | ⟨e, sign, ds, he, hsign, hdigits, rfl⟩⟩ hrest
  · unfold exponent
    split
    · rename_i l heq
      rw [List.nil_append] at heq
      exact absurd (hrest 'e' (by simp [heq])) (by decide)
    · rename_i l heq
      rw [List.nil_append] at heq
      exact absurd (hrest 'E' (by simp [heq])) (by decide)
    · rfl
  · have hread := signedDigits_complete hsign hdigits hrest.digit
    rcases he with rfl | rfl <;> simpa [exponent] using hread

/-- None of the three parts can run into the next one. -/
theorem magnitude_complete {whole fraction exponent rest : List Char} (hwhole : Whole whole)
    (hfraction : Fraction fraction) (hexponent : Exponent exponent)
    (hrest : Avoids continuesNumber rest) :
    magnitude (whole ++ fraction ++ exponent ++ rest) =
      some (whole ++ fraction ++ exponent, rest) := by
  have hafter : Avoids Char.isDigit (exponent ++ rest) ∧ Avoids (· == '.') (exponent ++ rest) := by
    rcases hexponent with rfl | ⟨e, sign, ds, he, -, -, rfl⟩
    · exact ⟨hrest.digit, hrest.mono fun c hc => by simp_all [continuesNumber]⟩
    · rcases he with rfl | rfl <;> exact ⟨.cons (by decide), .cons (by decide)⟩
  have hwholeRest : Avoids Char.isDigit (fraction ++ (exponent ++ rest)) := by
    rcases hfraction with rfl | ⟨ds, -, rfl⟩
    · exact hafter.1
    · exact .cons (by decide)
  have hw := whole_complete whole whole _ ⟨rfl, hwhole⟩ hwholeRest
  have hf := fraction_complete fraction fraction _ ⟨rfl, hfraction⟩ hafter
  have he := exponent_complete exponent exponent rest ⟨rfl, hexponent⟩ hrest
  simp only [List.append_assoc] at hw ⊢
  simp [magnitude, hw, hf, he]

/-- A whole part starts with a digit. -/
theorem Whole.head {ds : List Char} (h : Whole ds) : ∃ c t, ds = c :: t ∧ c.isDigit = true := by
  rcases h with rfl | ⟨hdigits, -⟩
  · exact ⟨'0', [], rfl, rfl⟩
  · exact hdigits.head

/-- The literal of a number is read as a whole. -/
theorem number_complete : Complete number (fun t v => v = t ∧ Number t)
    (Avoids continuesNumber) := by
  rintro t v rest ⟨rfl, sign, whole, fraction, exponent, hsign, hwhole, hf, he, rfl⟩ hrest
  have hread := magnitude_complete hwhole hf he hrest
  rcases hsign with rfl | rfl
  · obtain ⟨c, w, rfl, hc⟩ := hwhole.head
    have hminus : c ≠ '-' := by rintro rfl; cases hc
    simpa [number, hminus] using hread
  · simpa [number] using hread

/-- A number starts with a digit or a minus sign. -/
theorem Number.head {t : List Char} (h : Number t) :
    ∃ c l, t = c :: l ∧ (c.isDigit = true ∨ c = '-') := by
  obtain ⟨sign, whole, fraction, exponent, hsign, hwhole, -, -, rfl⟩ := h
  obtain ⟨c, w, rfl, hc⟩ := hwhole.head
  rcases hsign with rfl | rfl
  · exact ⟨c, _, rfl, Or.inl hc⟩
  · exact ⟨'-', _, rfl, Or.inr rfl⟩

end Numbers

/-- The characters of a string are read up to its closing quotation mark. -/
theorem chars_complete {t rest : List Char} {us : List StrUnit} (h : Chars t us) :
    chars (t ++ '"' :: rest) = some (us, rest) := by
  induction h with
  | nil => rfl
  | plain hplain _ ih =>
    rename_i c t us _
    have hc : c ≠ '"' ∧ c ≠ '\\' := by
      simp only [isPlain, decide_eq_true_eq] at hplain
      exact hplain.2
    simp [chars, hc, hplain, ih]
  | escape hescape _ ih =>
    rename_i e c t us _
    have he : e ≠ 'u' := by
      rintro rfl
      cases hescape
    simp [chars, he, hescape, ih]
  | code hcode _ ih => simp [chars, hcode, ih]

/-- White space is skipped up to the first other character. -/
theorem skipBlank_append {a rest : List Char} (ha : Blank a) (hrest : Avoids isBlank rest) :
    skipBlank (a ++ rest) = rest := dropWhile_append_of_avoids ha hrest

section Lists

variable {item : Reader α} {G : List Char → α → Prop} {close : Char}

/-- White space does not continue a number, and neither does what follows it. -/
theorem Avoids.blank_append {b rest : List Char} (hb : Blank b)
    (hrest : Avoids continuesNumber rest) : Avoids continuesNumber (b ++ rest) := by
  cases b with
  | nil => exact hrest
  | cons x b =>
    refine .cons ?_
    have hx := hb x List.mem_cons_self
    simp only [isBlank, decide_eq_true_eq] at hx
    rcases hx with rfl | rfl | rfl | rfl <;> decide

/-- A list has at least one character for each element, which bounds the rounds of its reader. -/
theorem Elements.length_le (hstart : ∀ t v, G t v → t ≠ []) {t : List Char} {vs : List α}
    (h : Elements G t vs) : vs.length ≤ t.length := by
  induction h with
  | last _ hG _ =>
    have := List.length_pos_iff.mpr (hstart _ _ hG)
    simp only [List.length_append, List.length_singleton]
    omega
  | cons _ hG _ _ ih =>
    have := List.length_pos_iff.mpr (hstart _ _ hG)
    simp only [List.length_append, List.length_cons]
    omega

/-- The first character of a list is that of its first element, after white space. -/
theorem Elements.head {t : List Char} {vs : List α} (h : Elements G t vs) :
    ∃ a s v l, Blank a ∧ G s v ∧ t = a ++ s ++ l := by
  cases h with
  | last ha hG hb => exact ⟨_, _, _, _, ha, hG, rfl⟩
  | cons ha hG hb hrest => exact ⟨_, _, _, _, ha, hG, by rw [List.append_assoc]⟩

variable (hitem : Complete item G (Avoids continuesNumber))
  (hstart : ∀ t v, G t v → ∃ c l, t = c :: l ∧ isBlank c = false ∧ c ≠ close)
  (hclose : isBlank close = false ∧ continuesNumber close = false ∧ close ≠ ',')

include hitem hstart hclose

omit hclose in
/-- An element is read after white space. -/
theorem item_complete {a t rest : List Char} {v : α} (ha : Blank a) (hG : G t v)
    (hrest : Avoids continuesNumber rest) :
    item (skipBlank (a ++ (t ++ rest))) = some (v, rest) := by
  obtain ⟨c, l, rfl, hc, -⟩ := hstart t v hG
  have hskip : skipBlank (a ++ (c :: l ++ rest)) = c :: l ++ rest := skipBlank_append ha (.cons hc)
  rw [hskip]
  exact hitem (c :: l) v rest hG hrest

/-- The elements are read one after the other, up to the closing bracket. -/
theorem elements_complete {t : List Char} {vs : List α} (h : Elements G t vs) {n : ℕ}
    (hn : vs.length ≤ n) (rest : List Char) :
    elements item close n (t ++ close :: rest) = some (vs, rest) := by
  induction h generalizing n with
  | last ha hG hb =>
    rename_i a t b v
    obtain ⟨n, rfl⟩ := Nat.exists_eq_add_one_of_ne_zero (Nat.one_le_iff_ne_zero.mp hn)
    have hfollow : Avoids continuesNumber (b ++ close :: rest) :=
      .blank_append hb (.cons hclose.2.1)
    have hread := item_complete hitem hstart ha hG hfollow
    have hend : skipBlank (b ++ close :: rest) = close :: rest :=
      skipBlank_append hb (.cons hclose.1)
    simp [elements, hread, hend, hclose.2.2]
  | cons ha hG hb _ ih =>
    rename_i a t b more v vs _
    obtain ⟨n, rfl⟩ := Nat.exists_eq_add_one_of_ne_zero (Nat.ne_zero_of_lt hn)
    have hfollow : Avoids continuesNumber (b ++ ',' :: (more ++ close :: rest)) :=
      .blank_append hb (.cons (by decide))
    have hread := item_complete hitem hstart ha hG hfollow
    have hend : skipBlank (b ++ ',' :: (more ++ close :: rest)) = ',' :: (more ++ close :: rest) :=
      skipBlank_append hb (.cons (by decide))
    simp [elements, hread, hend, ih (Nat.le_of_succ_le_succ hn)]

/-- A list is read with its closing bracket, and so is an empty one. -/
theorem list_complete {t : List Char} {vs : List α} (h : vs = [] ∧ Blank t ∨ Elements G t vs)
    (rest : List Char) : list item close (t ++ close :: rest) = some (vs, rest) := by
  rcases h with ⟨rfl, hblank⟩ | helements
  · simp [list, skipBlank_append hblank (.cons hclose.1)]
  · have hne : ∀ t v, G t v → t ≠ [] := by
      intro t v hG
      obtain ⟨c, l, rfl, -⟩ := hstart t v hG
      simp
    have hn : vs.length ≤ (t ++ close :: rest).length := by
      have := helements.length_le hne
      rw [List.length_append]
      omega
    have hread := elements_complete hitem hstart hclose helements hn rest
    obtain ⟨a, s, v, l, ha, hG, rfl⟩ := helements.head
    obtain ⟨c, s, rfl, hc, hopen⟩ := hstart s v hG
    have hskip : skipBlank (a ++ c :: (s ++ (l ++ close :: rest))) =
        c :: (s ++ (l ++ close :: rest)) := skipBlank_append ha (.cons hc)
    simp only [List.append_assoc, List.cons_append] at hread ⊢
    simp only [list, hskip, if_neg hopen]
    exact hread

end Lists

/-- A member is read if its value is. -/
theorem member_complete {item : Reader α} {G : List Char → α → Prop}
    (hitem : Complete item G (Avoids continuesNumber))
    (hstart : ∀ t v, G t v → ∃ c l, t = c :: l ∧ isBlank c = false) :
    Complete (member item) (Member G) (Avoids continuesNumber) := by
  rintro t v rest ⟨hchars, ha, hb, hG⟩ hrest
  rename_i k a b t us v
  obtain ⟨c, l, rfl, hc⟩ := hstart t v hG
  have hkey : chars (k ++ '"' :: (a ++ ':' :: (b ++ (c :: l ++ rest)))) =
      some (us, a ++ ':' :: (b ++ (c :: l ++ rest))) := chars_complete hchars
  have hcolon : skipBlank (a ++ ':' :: (b ++ (c :: l ++ rest))) = ':' :: (b ++ (c :: l ++ rest)) :=
    skipBlank_append ha (.cons (by decide))
  have hvalue : skipBlank (b ++ (c :: l ++ rest)) = c :: l ++ rest :=
    skipBlank_append hb (.cons hc)
  have hread := hitem _ v rest hG hrest
  simp only [List.append_assoc, List.cons_append] at hkey hcolon hvalue hread ⊢
  simp [member, hkey, hcolon, hvalue, hread]

mutual

/-- The levels of arrays and objects of a value. -/
def depth : Json → ℕ
  | .arr vs => depths vs + 1
  | .obj ms => memberDepths ms + 1
  | .null | .bool _ | .num _ | .str _ => 0

/-- The most levels of the values in a list. -/
def depths : List Json → ℕ
  | [] => 0
  | v :: vs => max (depth v) (depths vs)

/-- The most levels of the values of some members. -/
def memberDepths : List (String × Json) → ℕ
  | [] => 0
  | m :: ms => max (depth m.2) (memberDepths ms)

end

/-- The elements of a list satisfy what all its values satisfy. -/
theorem Elements.and {G : List Char → α → Prop} {P : α → Prop} {t : List Char} {vs : List α}
    (h : Elements G t vs) (hP : ∀ v ∈ vs, P v) : Elements (fun t v => G t v ∧ P v) t vs := by
  induction h with
  | last ha hG hb => exact .last ha ⟨hG, hP _ List.mem_cons_self⟩ hb
  | cons ha hG hb _ ih =>
    exact .cons ha ⟨hG, hP _ List.mem_cons_self⟩ hb
      (ih fun v hv => hP v (List.mem_cons_of_mem _ hv))

/-- A value in a list has at most the levels of the list. -/
theorem depth_le_depths {v : Json} {vs : List Json} (h : v ∈ vs) : depth v ≤ depths vs := by
  induction vs with
  | nil => cases h
  | cons u vs ih =>
    simp only [depths]
    rcases List.mem_cons.mp h with rfl | h
    · exact le_max_left _ _
    · exact (ih h).trans (le_max_right _ _)

/-- The value of a member has at most the levels of the members. -/
theorem depth_le_memberDepths {m : String × Json} {ms : List (String × Json)} (h : m ∈ ms) :
    depth m.2 ≤ memberDepths ms := by
  induction ms with
  | nil => cases h
  | cons u ms ih =>
    simp only [memberDepths]
    rcases List.mem_cons.mp h with rfl | h
    · exact le_max_left _ _
    · exact (ih h).trans (le_max_right _ _)

/-- No value starts with white space or with the end of an array. -/
theorem Value.head {t : List Char} {v : Json} (h : Value t v) :
    ∃ c l, t = c :: l ∧ isBlank c = false ∧ c ≠ ']' := by
  cases h with
  | num hnumber =>
    obtain ⟨c, l, rfl, hc⟩ := hnumber.head
    refine ⟨c, l, rfl, ?_, ?_⟩
    · rcases hc with hc | rfl
      · by_contra hblank
        simp only [isBlank, Bool.not_eq_false, decide_eq_true_eq] at hblank
        rcases hblank with rfl | rfl | rfl | rfl <;> cases hc
      · decide
    · rintro rfl
      rcases hc with hc | hc <;> cases hc
  | bool b => cases b <;> exact ⟨_, _, rfl, by decide, by decide⟩
  | _ => exact ⟨_, _, rfl, by decide, by decide⟩

/-- Only brackets open another level. -/
theorem value_eq_scalar {c : Char} {l : List Char} (d : ℕ) (harr : c ≠ '[') (hobj : c ≠ '{') :
    value d (c :: l) = scalar (c :: l) := by
  cases d <;> simp [value, harr, hobj]

/-- A number is read at any depth. -/
theorem value_num {t rest : List Char} (h : Number t) (hrest : Avoids continuesNumber rest)
    (d : ℕ) : value d (t ++ rest) = some (.num t, rest) := by
  have hread := number_complete t t rest ⟨rfl, h⟩ hrest
  obtain ⟨c, l, rfl, hc⟩ := h.head
  have hne : ∀ x, x.isDigit = false → x ≠ '-' → c ≠ x := by
    rintro x hdigit hminus rfl
    rcases hc with hc | hc
    · rw [hdigit] at hc
      cases hc
    · exact hminus hc
  rw [List.cons_append, value_eq_scalar d (hne _ (by decide) (by decide))
    (hne _ (by decide) (by decide))]
  have hn := hne 'n' (by decide) (by decide)
  have ht := hne 't' (by decide) (by decide)
  have hf := hne 'f' (by decide) (by decide)
  have hq := hne '"' (by decide) (by decide)
  rw [List.cons_append] at hread
  simp [scalar, hn, ht, hf, hq, hread]

/-- A value that is neither an array nor an object is read at any depth. -/
theorem value_complete_scalar {t rest : List Char} {v : Json} (h : Value t v)
    (hdepth : depth v = 0) (hrest : Avoids continuesNumber rest) (d : ℕ) :
    value d (t ++ rest) = some (v, rest) := by
  cases h with
  | null => exact value_eq_scalar d (by decide) (by decide)
  | bool b => cases b <;> exact value_eq_scalar d (by decide) (by decide)
  | num hnumber => exact value_num hnumber hrest d
  | str hchars =>
    rename_i t us
    have hread : chars (t ++ '"' :: rest) = some (us, rest) := chars_complete hchars
    rw [List.cons_append, List.cons_append, List.append_assoc,
      value_eq_scalar d (by decide) (by decide)]
    simp [scalar, hread]
  | emptyArr _ => simp [depth] at hdepth
  | arr _ => simp [depth] at hdepth
  | emptyObj _ => simp [depth] at hdepth
  | obj _ => simp [depth] at hdepth

section Nesting

variable {d : ℕ}
  (ih : Complete (value d) (fun t v => Value t v ∧ depth v ≤ d) (Avoids continuesNumber))

include ih

/-- An array is read if its elements are, one level further inside. -/
theorem value_complete_arr {t : List Char} {vs : List Json}
    (h : vs = [] ∧ Blank t ∨ Elements Value t vs) (hdepth : depths vs ≤ d) (rest : List Char) :
    value (d + 1) ('[' :: t ++ [']'] ++ rest) = some (.arr vs, rest) := by
  have helements := h.imp_right fun h => h.and fun v hv => (depth_le_depths hv).trans hdepth
  have hstart : ∀ t v, Value t v ∧ depth v ≤ d →
      ∃ c l, t = c :: l ∧ isBlank c = false ∧ c ≠ ']' := fun t v h => h.1.head
  simp [value, list_complete ih hstart (by decide) helements rest]

/-- An object is read if the values of its members are, one level further inside. -/
theorem value_complete_obj {t : List Char} {ms : List (String × Json)}
    (h : ms = [] ∧ Blank t ∨ Elements (Member Value) t ms) (hdepth : memberDepths ms ≤ d)
    (rest : List Char) : value (d + 1) ('{' :: t ++ ['}'] ++ rest) = some (.obj ms, rest) := by
  have helements := h.imp_right fun h =>
    h.and fun m hm => (depth_le_memberDepths hm).trans hdepth
  have hstart : ∀ (t : List Char) (m : String × Json), Member Value t m ∧ depth m.2 ≤ d →
      ∃ c l, t = c :: l ∧ isBlank c = false ∧ c ≠ '}' := by
    rintro t m ⟨⟨-, -, -, -⟩, -⟩
    exact ⟨_, _, rfl, by decide, by decide⟩
  have hmember : Complete (member (value d)) (fun t m => Member Value t m ∧ depth m.2 ≤ d)
      (Avoids continuesNumber) := by
    rintro t m rest ⟨⟨hchars, ha, hb, hvalue⟩, hdepth⟩ hrest
    refine member_complete ih (fun t v h => ?_) _ _ rest
      (.intro hchars ha hb ⟨hvalue, hdepth⟩) hrest
    obtain ⟨c, l, heq, hc, -⟩ := h.1.head
    exact ⟨c, l, heq, hc⟩
  simp [value, list_complete hmember hstart (by decide) helements rest]

end Nesting

/-- The parser reads every value that is not nested too deeply. -/
theorem value_complete (d : ℕ) : Complete (value d) (fun t v => Value t v ∧ depth v ≤ d)
    (Avoids continuesNumber) := by
  induction d with
  | zero =>
    rintro t v rest ⟨hvalue, hdepth⟩ hrest
    exact value_complete_scalar hvalue (Nat.le_zero.mp hdepth) hrest 0
  | succ d ih =>
    rintro t v rest ⟨hvalue, hdepth⟩ hrest
    cases hvalue with
    | emptyArr hblank =>
      exact value_complete_arr ih (Or.inl ⟨rfl, hblank⟩) (by simp [depths]) rest
    | arr helements =>
      exact value_complete_arr ih (Or.inr helements) (by simpa [depth] using hdepth) rest
    | emptyObj hblank =>
      exact value_complete_obj ih (Or.inl ⟨rfl, hblank⟩) (by simp [memberDepths]) rest
    | obj helements =>
      exact value_complete_obj ih (Or.inr helements) (by simpa [depth] using hdepth) rest
    | null => exact value_complete_scalar .null rfl hrest _
    | bool b => exact value_complete_scalar (.bool b) rfl hrest _
    | num hnumber => exact value_complete_scalar (.num hnumber) rfl hrest _
    | str hchars => exact value_complete_scalar (.str hchars) rfl hrest _

/-- The parser accepts every JSON text whose value is not nested too deeply. -/
theorem parse_complete {d : ℕ} {l : List Char} {v : Json} (h : Denotes l v) (hdepth : depth v ≤ d) :
    parse d l = some v := by
  obtain ⟨a, core, b, ha, hvalue, hb, rfl⟩ := h
  obtain ⟨c, t, rfl, hc, -⟩ := hvalue.head
  have hskip : skipBlank (a ++ (c :: t ++ b)) = c :: t ++ b := skipBlank_append ha (.cons hc)
  have hend : skipBlank b = [] := by
    rw [← List.append_nil b]
    exact skipBlank_append hb (.nil isBlank)
  have hfollow : Avoids continuesNumber b := by
    rw [← List.append_nil b]
    exact .blank_append hb (.nil continuesNumber)
  have hread := value_complete d _ v b ⟨hvalue, hdepth⟩ hfollow
  rw [List.append_assoc]
  simp only [parse, hskip, hread, Option.bind_some, hend, if_true]

/-- A text denotes at most one value. -/
theorem Denotes.unique {l : List Char} {v w : Json} (hv : Denotes l v) (hw : Denotes l w) :
    v = w := by
  have hparse := parse_complete hv (le_max_left (depth v) (depth w))
  rw [parse_complete hw (le_max_right _ _)] at hparse
  exact (Option.some.inj hparse).symm

end ControlPlane.Json

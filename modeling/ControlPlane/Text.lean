import Mathlib.Data.List.DropRight
import Mathlib.Algebra.Order.Ring.Int

/-!
# Separated and padded texts

Lists are read as texts: cut at separators, trimmed of padding at both ends, and read as
decimal numbers. Padding never contains a separator, so trimming a text before it is split
changes only the padding of its pieces, and trimming the pieces afterwards makes the first
trim invisible. The same holds for a text that is cut at its first separator.
-/

namespace ControlPlane.Text

section Padding

variable {α : Type*} {p : α → Bool}

/-- Remove the padding `p` from both ends. -/
def trim (p : α → Bool) (l : List α) : List α := (l.dropWhile p).rdropWhile p

/-- More padding at the end changes nothing. -/
theorem rdropWhile_append_of_pos {l w : List α} (hw : ∀ x ∈ w, p x = true) :
    (l ++ w).rdropWhile p = l.rdropWhile p := by
  unfold List.rdropWhile
  rw [List.reverse_append, List.dropWhile_append_of_pos]
  simpa using hw

/-- Dropping from the end stops at an element that is no padding. -/
theorem rdropWhile_append_of_neg {l w : List α} {x : α} (hx : p x = false) :
    (l ++ x :: w).rdropWhile p = l ++ x :: w.rdropWhile p := by
  unfold List.rdropWhile
  rw [List.reverse_append, List.reverse_cons, List.append_assoc, List.dropWhile_append]
  split_ifs with hempty
  · rw [List.isEmpty_iff] at hempty
    simp [hempty, hx]
  · simp

/-- Dropping from the front stops there as well. -/
theorem dropWhile_append_of_neg {l w : List α} {x : α} (hx : p x = false) :
    (l ++ x :: w).dropWhile p = l.dropWhile p ++ x :: w := by
  rw [List.dropWhile_append]
  split_ifs with hempty
  · rw [List.isEmpty_iff] at hempty
    simp [hempty, hx]
  · rfl

/-- What is trimmed may stand in front. -/
theorem trim_append_left {l w : List α} (hw : ∀ x ∈ w, p x = true) :
    trim p (w ++ l) = trim p l := by
  unfold trim
  rw [List.dropWhile_append_of_pos hw]

/-- What is trimmed may stand at the end. -/
theorem trim_append_right {l w : List α} (hw : ∀ x ∈ w, p x = true) :
    trim p (l ++ w) = trim p l := by
  have hblank : w.dropWhile p = [] := List.dropWhile_eq_nil_iff.mpr hw
  unfold trim
  rw [List.dropWhile_append]
  split_ifs with hempty
  · rw [List.isEmpty_iff] at hempty
    rw [hempty, hblank]
  · exact rdropWhile_append_of_pos hw

@[simp] theorem trim_dropWhile (l : List α) : trim p (l.dropWhile p) = trim p l := by
  unfold trim
  rw [List.dropWhile_idempotent]

@[simp] theorem trim_rdropWhile (l : List α) : trim p (l.rdropWhile p) = trim p l := by
  have hpad : ∀ x ∈ l.rtakeWhile p, p x = true := fun x hx => List.mem_rtakeWhile_imp hx
  rw [← trim_append_right hpad, List.rdropWhile_append_rtakeWhile]

/-- Trimming twice is trimming once. -/
@[simp] theorem trim_trim (l : List α) : trim p (trim p l) = trim p l := by
  conv_lhs => rw [trim.eq_def p l]
  rw [trim_rdropWhile, trim_dropWhile]

/-- A text is its trimmed core between padding. -/
theorem exists_padding (p : α → Bool) (l : List α) : ∃ w w', l = w ++ trim p l ++ w' ∧
    (∀ x ∈ w, p x = true) ∧ ∀ x ∈ w', p x = true := by
  refine ⟨l.takeWhile p, (l.dropWhile p).rtakeWhile p, ?_, ?_, ?_⟩
  · unfold trim
    rw [List.append_assoc, List.rdropWhile_append_rtakeWhile, List.takeWhile_append_dropWhile]
  · exact fun x hx => List.mem_takeWhile_imp hx
  · exact fun x hx => List.mem_rtakeWhile_imp hx

/-- A text without padding is its own core. -/
theorem trim_of_neg {l : List α} (h : ∀ x ∈ l, p x = false) : trim p l = l := by
  have hdrop : l.dropWhile p = l := by
    rw [List.dropWhile_eq_self_iff]
    intro hl
    simp [h]
  unfold trim
  rw [hdrop, List.rdropWhile_eq_self_iff]
  intro hl
  simp [h _ (List.getLast_mem hl)]

theorem notMem_of_pos {sep : α} {w : List α} (hsep : p sep = false) (hw : ∀ x ∈ w, p x = true) :
    sep ∉ w := by
  intro hmem
  rw [hw sep hmem] at hsep
  cases hsep

end Padding

section Separators

variable {α : Type*} [DecidableEq α] {p : α → Bool} {sep : α}

theorem splitOn_of_notMem {l : List α} (h : sep ∉ l) : l.splitOn sep = [l] :=
  List.splitOnP_eq_singleton fun x hx => by
    have hne : x ≠ sep := fun heq => h (heq ▸ hx)
    simpa using hne

theorem splitOn_append_sep (a b : List α) :
    (a ++ sep :: b).splitOn sep = a.splitOn sep ++ b.splitOn sep :=
  List.splitOnP_append_cons a b (by simp)

theorem splitOn_append_cons {a : List α} (b : List α) (h : sep ∉ a) :
    (a ++ sep :: b).splitOn sep = a :: b.splitOn sep := by
  rw [splitOn_append_sep, splitOn_of_notMem h, List.singleton_append]

/-- The first piece of a text begins as the text does. -/
theorem splitOn_cons_of_ne {x : α} (l : List α) (h : x ≠ sep) :
    ∃ part parts, (x :: l).splitOn sep = (x :: part) :: parts := by
  by_cases hmem : sep ∈ l
  · obtain ⟨a, b, rfl, ha⟩ := List.eq_append_cons_of_mem hmem
    have hxa : sep ∉ x :: a := by simp [ha, h.symm]
    exact ⟨a, b.splitOn sep, splitOn_append_cons b hxa⟩
  · have hxl : sep ∉ x :: l := by simp [hmem, h.symm]
    exact ⟨l, [], splitOn_of_notMem hxl⟩

omit [DecidableEq α] in
/-- A character that stands in no piece does not stand in the joined text either. -/
theorem notMem_intercalate {c : α} {ls : List (List α)} (hne : c ≠ sep) (h : ∀ l ∈ ls, c ∉ l) :
    c ∉ [sep].intercalate ls := by
  induction ls with
  | nil => exact List.not_mem_nil
  | cons l ls ih =>
    have hrest := ih fun l' hl' => h l' (List.mem_cons_of_mem l hl')
    have hl := h l List.mem_cons_self
    cases ls with
    | nil => simpa using hl
    | cons l' ls =>
      rw [List.intercalate_cons_cons]
      simp [hl, hrest, hne]

/-- Induction over the pieces of a text. -/
theorem pieces_induction {P : List α → Prop} (sep : α) (hlast : ∀ l, sep ∉ l → P l)
    (hcons : ∀ a b, sep ∉ a → P b → P (a ++ sep :: b)) (l : List α) : P l := by
  induction hlen : l.length using Nat.strong_induction_on generalizing l with
  | _ n ih =>
    by_cases hmem : sep ∈ l
    · obtain ⟨a, b, rfl, ha⟩ := List.eq_append_cons_of_mem hmem
      refine hcons a b ha (ih b.length ?_ b rfl)
      simp only [List.length_append, List.length_cons] at hlen
      omega
    · exact hlast l hmem

/-- Padding in front of a text does not show in its trimmed pieces. -/
theorem map_trim_splitOn_append_left {w : List α} (l : List α) (hsep : p sep = false)
    (hw : ∀ x ∈ w, p x = true) :
    ((w ++ l).splitOn sep).map (trim p) = (l.splitOn sep).map (trim p) := by
  have hnotMem := notMem_of_pos hsep hw
  by_cases hmem : sep ∈ l
  · obtain ⟨a, b, rfl, ha⟩ := List.eq_append_cons_of_mem hmem
    have hwa : sep ∉ w ++ a := by simp [hnotMem, ha]
    rw [← List.append_assoc, splitOn_append_cons b hwa, splitOn_append_cons b ha, List.map_cons,
      List.map_cons, trim_append_left hw]
  · have hwl : sep ∉ w ++ l := by simp [hnotMem, hmem]
    rw [splitOn_of_notMem hwl, splitOn_of_notMem hmem, List.map_singleton, List.map_singleton,
      trim_append_left hw]

/-- Padding after a text does not show in its trimmed pieces. -/
theorem map_trim_splitOn_append_right {w : List α} (l : List α) (hsep : p sep = false)
    (hw : ∀ x ∈ w, p x = true) :
    ((l ++ w).splitOn sep).map (trim p) = (l.splitOn sep).map (trim p) := by
  have hnotMem := notMem_of_pos hsep hw
  induction l using pieces_induction sep with
  | hlast l hl =>
    have hlw : sep ∉ l ++ w := by simp [hnotMem, hl]
    rw [splitOn_of_notMem hlw, splitOn_of_notMem hl, List.map_singleton, List.map_singleton,
      trim_append_right hw]
  | hcons a b ha ih =>
    rw [List.append_assoc, List.cons_append, splitOn_append_cons _ ha, splitOn_append_cons _ ha,
      List.map_cons, List.map_cons, ih]

/-- Trimming a text before it is split does not show in its trimmed pieces. -/
theorem map_trim_splitOn_trim (l : List α) (hsep : p sep = false) :
    ((trim p l).splitOn sep).map (trim p) = (l.splitOn sep).map (trim p) := by
  obtain ⟨w, w', hl, hw, hw'⟩ := exists_padding p l
  conv_rhs => rw [hl]
  rw [map_trim_splitOn_append_right _ hsep hw', map_trim_splitOn_append_left _ hsep hw]

/-- What stands before and after the first separator. -/
def cut (sep : α) (l : List α) : Option (List α × List α) :=
  match l.dropWhile (· != sep) with
  | [] => none
  | _ :: b => some (l.takeWhile (· != sep), b)

theorem cut_of_notMem {l : List α} (h : sep ∉ l) : cut sep l = none := by
  have hdrop : l.dropWhile (· != sep) = [] := by
    rw [List.dropWhile_eq_nil_iff]
    intro x hx
    have hne : x ≠ sep := fun heq => h (heq ▸ hx)
    simpa using hne
  unfold cut
  rw [hdrop]

theorem cut_append_cons {a : List α} (b : List α) (h : sep ∉ a) :
    cut sep (a ++ sep :: b) = some (a, b) := by
  have ha : ∀ x ∈ a, (x != sep) = true := by
    intro x hx
    have hne : x ≠ sep := fun heq => h (heq ▸ hx)
    simpa using hne
  have hdrop : (a ++ sep :: b).dropWhile (· != sep) = sep :: b := by
    rw [List.dropWhile_append_of_pos ha]
    simp
  have htake : (a ++ sep :: b).takeWhile (· != sep) = a := by
    rw [List.takeWhile_append_of_pos ha]
    simp
  unfold cut
  rw [hdrop, htake]

theorem cut_eq_some {l a b : List α} : cut sep l = some (a, b) ↔ l = a ++ sep :: b ∧ sep ∉ a := by
  constructor
  · intro h
    by_cases hmem : sep ∈ l
    · obtain ⟨a', b', rfl, ha⟩ := List.eq_append_cons_of_mem hmem
      rw [cut_append_cons b' ha] at h
      cases h
      exact ⟨rfl, ha⟩
    · rw [cut_of_notMem hmem] at h
      cases h
  · rintro ⟨rfl, ha⟩
    exact cut_append_cons b ha

/-- Cutting a trimmed text gives the parts of the text without its outer padding. -/
theorem cut_trim (l : List α) (hsep : p sep = false) :
    cut sep (trim p l) =
      (cut sep l).map fun parts => (parts.1.dropWhile p, parts.2.rdropWhile p) := by
  by_cases hmem : sep ∈ l
  · obtain ⟨a, b, rfl, ha⟩ := List.eq_append_cons_of_mem hmem
    have ha' : sep ∉ a.dropWhile p := fun h => ha ((List.dropWhile_suffix p).subset h)
    rw [cut_append_cons b ha, trim, dropWhile_append_of_neg hsep, rdropWhile_append_of_neg hsep,
      cut_append_cons _ ha', Option.map_some]
  · have htrim : sep ∉ trim p l := by
      intro h
      exact hmem ((List.dropWhile_suffix p).subset ((List.rdropWhile_prefix p _).subset h))
    rw [cut_of_notMem hmem, cut_of_notMem htrim, Option.map_none]

end Separators

/-- The white space of Unicode. -/
def isSpace (c : Char) : Bool :=
  c.toNat ∈ [9, 10, 11, 12, 13, 32, 0x85, 0xA0, 0x1680, 0x2028, 0x2029, 0x202F, 0x205F, 0x3000] ∨
    (0x2000 ≤ c.toNat ∧ c.toNat ≤ 0x200A)

/-- The value of a decimal digit. -/
def digitValue (c : Char) : ℕ := c.toNat - '0'.toNat

/-- The number with the given decimal digits. -/
def decimal (ds : List Char) : ℕ := ds.foldl (fun n c => 10 * n + digitValue c) 0

/-- The number that a non-empty text of decimal digits stands for. -/
def digits (l : List Char) : Option ℕ :=
  if l ≠ [] ∧ l.all Char.isDigit then some (decimal l) else none

/-- The decimal number, with an optional sign, that a text stands for, if it fits into a
signed integer of 64 bits. -/
def parseInt (l : List Char) : Option ℤ :=
  match l with
  | '-' :: ds => (digits ds).bind fun n => if n ≤ 2 ^ 63 then some (-n) else none
  | '+' :: ds => (digits ds).bind fun n => if n < 2 ^ 63 then some n else none
  | ds => (digits ds).bind fun n => if n < 2 ^ 63 then some n else none

example : parseInt "-12".toList = some (-12) := by decide

example : parseInt "9223372036854775808".toList = none := by decide

theorem isSpace_of_isDigit {c : Char} (h : c.isDigit = true) : isSpace c = false := by
  have hbounds : 48 ≤ c.toNat ∧ c.toNat ≤ 57 := by
    simpa [Char.isDigit, UInt32.le_iff_toNat_le] using h
  have h8 : ¬0x2000 ≤ c.toNat := by omega
  simp [isSpace]
  omega

theorem decimal_toDigits (n : ℕ) : decimal (Nat.toDigits 10 n) = n :=
  Nat.ofDigitChars_toDigits (by decide) (by decide)

theorem digits_repr (n : ℕ) : digits n.repr.toList = some n := by
  have hdigits : (Nat.toDigits 10 n).all Char.isDigit = true :=
    List.all_eq_true.mpr fun c hc => Nat.isDigit_of_mem_toDigits (by decide) (by decide) hc
  unfold digits
  rw [Nat.toList_repr, if_pos ⟨Nat.toDigits_ne_nil, hdigits⟩, decimal_toDigits]

theorem isDigit_of_mem_toString {n : ℤ} (hn : 0 ≤ n) {c : Char} (h : c ∈ (toString n).toList) :
    c.isDigit = true := by
  obtain ⟨m, rfl⟩ := Int.eq_ofNat_of_zero_le hn
  have hmem : c ∈ m.repr.toList := h
  rw [Nat.toList_repr] at hmem
  exact Nat.isDigit_of_mem_toDigits (by decide) (by decide) hmem

/-- A text of digits has no sign. -/
theorem parseInt_of_isDigit {l : List Char} (h : ∀ c ∈ l, c.isDigit = true) :
    parseInt l = (digits l).bind fun n => if n < 2 ^ 63 then some (n : ℤ) else none := by
  unfold parseInt
  split
  · exact absurd (h '-' List.mem_cons_self) (by decide)
  · exact absurd (h '+' List.mem_cons_self) (by decide)
  · rfl

/-- A rendered number is read back. -/
theorem parseInt_toString {n : ℤ} (hn : 0 ≤ n) (hfits : n < 2 ^ 63) :
    parseInt (toString n).toList = some n := by
  rw [parseInt_of_isDigit fun c hc => isDigit_of_mem_toString hn hc]
  obtain ⟨m, rfl⟩ := Int.eq_ofNat_of_zero_le hn
  have hdigits : digits (toString (m : ℤ)).toList = some m := digits_repr m
  have hm : m < 2 ^ 63 := by exact_mod_cast hfits
  rw [hdigits, Option.bind_some, if_pos hm]

end ControlPlane.Text

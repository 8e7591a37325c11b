import Mathlib.Order.Lattice
import Mathlib.Data.Prod.Lex
import Mathlib.Data.List.Perm.Subperm

/-!
# Finite tables kept in the order of their keys

A wide-column partition stores its rows in the order of their clustering key. The
table below carries that order as a field, so a bounded read is a prefix of the
row list and never needs a separate sortedness hypothesis. Lookup after an
insertion or a deletion is described by one equation each. A table whose order
nobody reads is a partial function, with the same case distinctions.
-/

namespace ControlPlane

variable {K V : Type*} [LinearOrder K]

/-- A finite table whose rows are strictly increasing in their keys. -/
structure Clustered (K V : Type*) [LinearOrder K] where
  /-- The rows, in clustering order. -/
  rows : List (K × V)
  /-- Keys increase strictly, so no key occurs twice. -/
  sorted : rows.Pairwise fun a b => a.1 < b.1
  deriving DecidableEq

namespace Clustered

/-- Look a key up in a list of rows. -/
def lookup (k : K) : List (K × V) → Option V
  | [] => none
  | row :: rows => if k = row.1 then some row.2 else lookup k rows

/-- Insert a row at its place in the clustering order, overwriting an equal key. -/
def place (k : K) (v : V) : List (K × V) → List (K × V)
  | [] => [(k, v)]
  | row :: rows =>
      if k < row.1 then (k, v) :: row :: rows
      else if k = row.1 then (k, v) :: rows
      else row :: place k v rows

/-- A placed key is the new key or an old one. -/
theorem mem_place {k : K} {v : V} {rows : List (K × V)} {row : K × V}
    (h : row ∈ place k v rows) : row = (k, v) ∨ row ∈ rows := by
  induction rows with
  | nil => simpa [place] using h
  | cons head rows ih =>
    simp only [place] at h
    split_ifs at h with hlt heq
    · simpa using h
    · rcases List.mem_cons.mp h with h | h
      · exact Or.inl h
      · exact Or.inr (List.mem_cons_of_mem _ h)
    · rcases List.mem_cons.mp h with rfl | h
      · exact Or.inr List.mem_cons_self
      · exact (ih h).imp_right (List.mem_cons_of_mem _)

/-- Placing a row keeps the keys strictly increasing. -/
theorem place_sorted {k : K} {v : V} {rows : List (K × V)}
    (h : rows.Pairwise fun a b => a.1 < b.1) :
    (place k v rows).Pairwise fun a b => a.1 < b.1 := by
  induction rows with
  | nil => simp [place]
  | cons head rows ih =>
    obtain ⟨hhead, htail⟩ := List.pairwise_cons.mp h
    simp only [place]
    split_ifs with hlt heq
    · refine List.pairwise_cons.mpr ⟨?_, h⟩
      intro row hrow
      rcases List.mem_cons.mp hrow with rfl | hrow
      · exact hlt
      · exact hlt.trans (hhead row hrow)
    · exact List.pairwise_cons.mpr ⟨fun row hrow => heq ▸ hhead row hrow, htail⟩
    · refine List.pairwise_cons.mpr ⟨?_, ih htail⟩
      intro row hrow
      rcases mem_place hrow with rfl | hrow
      · exact lt_of_le_of_ne (not_lt.mp hlt) (Ne.symm heq)
      · exact hhead row hrow

/-- The table without rows. -/
def empty : Clustered K V := ⟨[], List.Pairwise.nil⟩

/-- The value stored under a key. -/
def get (t : Clustered K V) (k : K) : Option V := lookup k t.rows

/-- Insert or overwrite one row. -/
def put (t : Clustered K V) (k : K) (v : V) : Clustered K V :=
  ⟨place k v t.rows, place_sorted t.sorted⟩

/-- Delete the row under a key, if there is one. -/
def erase (t : Clustered K V) (k : K) : Clustered K V :=
  ⟨t.rows.filter fun row => row.1 ≠ k, t.sorted.filter _⟩

/-- Delete the rows that fail a test. -/
def keep (t : Clustered K V) (p : K × V → Bool) : Clustered K V :=
  ⟨t.rows.filter p, t.sorted.filter _⟩

/-- The first `n` rows in clustering order, as a bounded read returns them. -/
def page (t : Clustered K V) (n : ℕ) : List (K × V) := t.rows.take n

@[simp] theorem get_empty (k : K) : (empty : Clustered K V).get k = none := rfl

/-- Looking up after an insertion into a list of rows. -/
theorem lookup_place (k k' : K) (v : V) (rows : List (K × V)) :
    lookup k' (place k v rows) = if k' = k then some v else lookup k' rows := by
  induction rows with
  | nil => simp [place, lookup]
  | cons head rows ih =>
    by_cases hlt : k < head.1
    · simp [place, hlt, lookup]
    · by_cases heq : k = head.1
      · subst heq
        by_cases hk : k' = head.1 <;> simp [place, lookup, hk]
      · by_cases hk : k' = head.1
        · have hne : k' ≠ k := fun h => heq (h.symm.trans hk)
          simp [place, hlt, heq, lookup, hk, Ne.symm heq]
        · simp [place, hlt, heq, lookup, hk, ih]

/-- Looking up after the deletion of a key from a list of rows. -/
theorem lookup_filter (k k' : K) (rows : List (K × V)) :
    lookup k' (rows.filter fun row => row.1 ≠ k) = if k' = k then none else lookup k' rows := by
  induction rows with
  | nil => simp [lookup]
  | cons head rows ih =>
    by_cases hhead : head.1 = k
    · rw [List.filter_cons_of_neg (by simpa using hhead), ih]
      by_cases hk : k' = k
      · simp [hk]
      · simp [lookup, hk, hhead]
    · rw [List.filter_cons_of_pos (by simpa using hhead), lookup, lookup, ih]
      by_cases hk : k' = k
      · subst hk
        simp [Ne.symm hhead]
      · simp [hk]

@[simp] theorem get_put (t : Clustered K V) (k k' : K) (v : V) :
    (t.put k v).get k' = if k' = k then some v else t.get k' := lookup_place k k' v t.rows

@[simp] theorem get_erase (t : Clustered K V) (k k' : K) :
    (t.erase k).get k' = if k' = k then none else t.get k' := lookup_filter k k' t.rows

/-- A row found after an insertion is the new one or was there before. -/
theorem get_put_cases {t : Clustered K V} {k k' : K} {v v' : V} (h : (t.put k v).get k' = some v') :
    (k' = k ∧ v' = v) ∨ (k' ≠ k ∧ t.get k' = some v') := by
  rw [get_put] at h
  split_ifs at h with hk
  · exact Or.inl ⟨hk, (Option.some.inj h).symm⟩
  · exact Or.inr ⟨hk, h⟩

/-- A row found after a deletion was there before, under another key. -/
theorem get_erase_cases {t : Clustered K V} {k k' : K} {v : V} (h : (t.erase k).get k' = some v) :
    k' ≠ k ∧ t.get k' = some v := by
  rw [get_erase] at h
  split_ifs at h with hk
  exact ⟨hk, h⟩

/-- Looking up a row of a sorted list finds exactly that row. -/
theorem lookup_of_mem {rows : List (K × V)} (hsorted : rows.Pairwise fun a b => a.1 < b.1)
    {row : K × V} (h : row ∈ rows) : lookup row.1 rows = some row.2 := by
  induction rows with
  | nil => cases h
  | cons head rows ih =>
    obtain ⟨hhead, htail⟩ := List.pairwise_cons.mp hsorted
    rcases List.mem_cons.mp h with rfl | h
    · simp [lookup]
    · rw [lookup, if_neg (hhead row h).ne', ih htail h]

/-- A successful lookup names a row. -/
theorem mem_of_lookup {rows : List (K × V)} {k : K} {v : V} (h : lookup k rows = some v) :
    (k, v) ∈ rows := by
  induction rows with
  | nil => cases h
  | cons head rows ih =>
    rw [lookup] at h
    split_ifs at h with hk
    · cases h
      subst hk
      exact List.mem_cons_self
    · exact List.mem_cons_of_mem _ (ih h)

/-- The rows of a table are exactly its key-value pairs. -/
theorem mem_rows {t : Clustered K V} {row : K × V} : row ∈ t.rows ↔ t.get row.1 = some row.2 :=
  ⟨lookup_of_mem t.sorted, mem_of_lookup⟩

/-- A row is found after a deletion by a test if it passes the test. -/
theorem get_keep {t : Clustered K V} {p : K × V → Bool} {k : K} {v : V} :
    (t.keep p).get k = some v ↔ t.get k = some v ∧ p (k, v) = true := by
  have hkeep : (k, v) ∈ (t.keep p).rows ↔ (k, v) ∈ t.rows ∧ p (k, v) = true := List.mem_filter
  rwa [mem_rows, mem_rows] at hkeep

/-- Tables in which every key has the same value are equal. -/
theorem ext_get {t t' : Clustered K V} (h : ∀ k, t.get k = t'.get k) : t = t' := by
  have hnodup : ∀ u : Clustered K V, u.rows.Nodup := fun u =>
    u.sorted.imp fun hlt heq => hlt.ne (congrArg Prod.fst heq)
  have hperm : t.rows.Perm t'.rows := by
    refine (List.perm_ext_iff_of_nodup (hnodup t) (hnodup t')).mpr fun row => ?_
    rw [mem_rows, mem_rows, h]
  have hrows : t.rows = t'.rows :=
    hperm.eq_of_pairwise (fun a b _ _ hab hba => absurd hab hba.not_gt) t.sorted t'.sorted
  cases t
  cases t'
  cases hrows
  rfl

/-- Storing the value that a key has changes nothing. -/
theorem put_of_get {t : Clustered K V} {k : K} {v : V} (h : t.get k = some v) : t.put k v = t := by
  refine ext_get fun k' => ?_
  rw [get_put]
  split_ifs with hk
  · rw [hk, h]
  · rfl

/-- Deleting a row that was inserted under a new key restores the table. -/
theorem erase_put_of_none {t : Clustered K V} {k : K} (v : V) (h : t.get k = none) :
    (t.put k v).erase k = t := by
  refine ext_get fun k' => ?_
  rw [get_erase]
  split_ifs with hk
  · rw [hk, h]
  · rw [get_put, if_neg hk]

/-- A row returned by a bounded read is stored in the table. -/
theorem get_of_mem_page {t : Clustered K V} {n : ℕ} {row : K × V} (h : row ∈ t.page n) :
    t.get row.1 = some row.2 :=
  mem_rows.mp (List.mem_of_mem_take h)

/-- The keys that a bounded read returns are distinct. -/
theorem nodup_page_keys (t : Clustered K V) (n : ℕ) : ((t.page n).map Prod.fst).Nodup := by
  refine List.Pairwise.map Prod.fst ?_ (t.sorted.sublist (List.take_sublist n t.rows))
  exact fun a b hlt => hlt.ne

/-- A bounded read with enough places returns every row. -/
theorem mem_page_of_le {t : Clustered K V} {n : ℕ} (hn : t.rows.length ≤ n) {k : K} {v : V}
    (h : t.get k = some v) : (k, v) ∈ t.page n := by
  rw [page, List.take_of_length_le hn]
  exact mem_rows.mpr h

/-- Rows that pass a test which earlier rows pass whenever later ones do come first. -/
theorem filter_append_filter_not {rows : List (K × V)} {p : K × V → Bool}
    (hsorted : rows.Pairwise fun a b => a.1 < b.1)
    (hp : ∀ a b : K × V, a.1 < b.1 → p b = true → p a = true) :
    rows.filter p ++ rows.filter (fun row => !p row) = rows := by
  induction rows with
  | nil => rfl
  | cons head rows ih =>
    obtain ⟨hhead, htail⟩ := List.pairwise_cons.mp hsorted
    have hrest := ih htail
    cases hpass : p head with
    | true => simpa [List.filter_cons, hpass] using hrest
    | false =>
      -- once a row fails, every later row does
      have hnone : rows.filter p = [] := by
        refine List.filter_eq_nil_iff.mpr fun row hrow hpasses => ?_
        rw [hp head row (hhead row hrow) hpasses] at hpass
        cases hpass
      rw [hnone, List.nil_append] at hrest
      simp [hpass, hnone, hrest]

/-- Of the first `n` rows, those that pass such a test are the first of all that do. -/
theorem filter_page (t : Clustered K V) (n : ℕ) {p : K × V → Bool}
    (hp : ∀ a b : K × V, a.1 < b.1 → p b = true → p a = true) :
    (t.page n).filter p = (t.rows.filter p).take n := by
  rw [page, ← filter_append_filter_not t.sorted hp, List.take_append, List.filter_append]
  have hpass : ((t.rows.filter p).take n).filter p = (t.rows.filter p).take n :=
    List.filter_eq_self.mpr fun row hrow => (List.mem_filter.mp (List.mem_of_mem_take hrow)).2
  have hfail : ((t.rows.filter fun row => !p row).take (n - (t.rows.filter p).length)).filter p =
      [] := by
    refine List.filter_eq_nil_iff.mpr fun row hrow => ?_
    simpa using (List.mem_filter.mp (List.mem_of_mem_take hrow)).2
  rw [hpass, hfail, List.append_nil, filter_append_filter_not t.sorted hp]

/-- The first rows are the first that pass such a test, as far as there are any. -/
theorem take_filter (t : Clustered K V) {n : ℕ} {p : K × V → Bool}
    (hp : ∀ a b : K × V, a.1 < b.1 → p b = true → p a = true)
    (hn : n ≤ (t.rows.filter p).length) : (t.rows.filter p).take n = t.rows.take n := by
  conv_rhs => rw [← filter_append_filter_not t.sorted hp]
  exact (List.take_append_of_le_length hn).symm

/-- Without its first rows a table has fewer rows that pass such a test. -/
theorem filter_drop (t : Clustered K V) {n : ℕ} {p : K × V → Bool}
    (hp : ∀ a b : K × V, a.1 < b.1 → p b = true → p a = true)
    (hn : n ≤ (t.rows.filter p).length) : (t.rows.drop n).filter p = (t.rows.filter p).drop n := by
  have hsplit : t.rows.take n ++ t.rows.drop n = t.rows := List.take_append_drop n t.rows
  have htake : (t.rows.take n).filter p = t.rows.take n := by
    rw [← take_filter t hp hn]
    exact List.filter_eq_self.mpr fun row hrow => (List.mem_filter.mp (List.mem_of_mem_take hrow)).2
  have hfilter : t.rows.take n ++ (t.rows.drop n).filter p = t.rows.filter p := by
    conv_rhs => rw [← hsplit, List.filter_append, htake]
  rw [← take_filter t hp hn] at hfilter
  exact List.append_cancel_left (hfilter.trans (List.take_append_drop n _).symm)

/-- Delete the rows under several keys. -/
def eraseAll (t : Clustered K V) (ks : List K) : Clustered K V := ks.foldl erase t

theorem rows_eraseAll (t : Clustered K V) (ks : List K) :
    (t.eraseAll ks).rows = t.rows.filter fun row => row.1 ∉ ks := by
  induction ks generalizing t with
  | nil => exact (List.filter_eq_self.mpr fun row _ => by simp).symm
  | cons k ks ih =>
    have hstep : t.eraseAll (k :: ks) = (t.erase k).eraseAll ks := rfl
    rw [hstep, ih, erase, List.filter_filter]
    refine List.filter_congr fun row _ => ?_
    simp [Bool.and_comm]

/-- A row is found after several deletions if its key is none of the deleted ones. -/
theorem get_eraseAll {t : Clustered K V} {ks : List K} {k : K} {v : V} :
    (t.eraseAll ks).get k = some v ↔ t.get k = some v ∧ k ∉ ks := by
  have herase : (k, v) ∈ (t.eraseAll ks).rows ↔ (k, v) ∈ t.rows ∧ k ∉ ks := by
    rw [rows_eraseAll, List.mem_filter, decide_eq_true_eq]
  rwa [mem_rows, mem_rows] at herase

/-- Deleting the first rows leaves the others. -/
theorem rows_eraseAll_take (t : Clustered K V) (n : ℕ) :
    (t.eraseAll ((t.rows.take n).map Prod.fst)).rows = t.rows.drop n := by
  have hsorted := t.sorted
  rw [← List.take_append_drop n t.rows, List.pairwise_append] at hsorted
  obtain ⟨-, -, hlt⟩ := hsorted
  rw [rows_eraseAll]
  conv_lhs => rw [← List.take_append_drop n t.rows, List.filter_append]
  have hfirst : (t.rows.take n).filter (fun row => row.1 ∉ (t.rows.take n).map Prod.fst) = [] := by
    refine List.filter_eq_nil_iff.mpr fun row hrow => ?_
    have hmem : row.1 ∈ (t.rows.take n).map Prod.fst := List.mem_map_of_mem hrow
    simpa using hmem
  have hrest : (t.rows.drop n).filter (fun row => row.1 ∉ (t.rows.take n).map Prod.fst) =
      t.rows.drop n := by
    refine List.filter_eq_self.mpr fun row hrow => decide_eq_true fun hmem => ?_
    obtain ⟨first, hfirst, heq⟩ := List.mem_map.mp hmem
    exact (hlt first hfirst row hrow).ne heq
  rw [List.take_append_drop, hfirst, hrest, List.nil_append]

/-- A key that is smaller than all keys of a sorted list is not found in it. -/
theorem lookup_eq_none_of_lt {k : K} {rows : List (K × V)} (h : ∀ row ∈ rows, k < row.1) :
    lookup k rows = none := by
  induction rows with
  | nil => rfl
  | cons head rows ih =>
    have hhead : k ≠ head.1 := (h head List.mem_cons_self).ne
    rw [lookup, if_neg hhead]
    exact ih fun row hrow => h row (List.mem_cons_of_mem _ hrow)

/-- The number of rows whose value passes a test. -/
def count (t : Clustered K V) (f : V → Bool) : ℕ := t.rows.countP fun row => f row.2

/-- Placing a row counts it instead of the one that it replaces. -/
theorem countP_place (f : K × V → Bool) (k : K) (v : V) {rows : List (K × V)}
    (hsorted : rows.Pairwise fun a b => a.1 < b.1) :
    (place k v rows).countP f + ((lookup k rows).any fun u => f (k, u)).toNat =
      rows.countP f + (f (k, v)).toNat := by
  induction rows with
  | nil => cases hv : f (k, v) <;> simp [place, lookup, hv]
  | cons head rows ih =>
    obtain ⟨hhead, htail⟩ := List.pairwise_cons.mp hsorted
    by_cases hlt : k < head.1
    · have hnone : lookup k (head :: rows) = none := by
        refine lookup_eq_none_of_lt ?_
        intro row hrow
        rcases List.mem_cons.mp hrow with rfl | hrow
        · exact hlt
        · exact hlt.trans (hhead row hrow)
      rw [place, if_pos hlt, hnone]
      cases hv : f (k, v) <;> simp [hv]
    · by_cases heq : k = head.1
      · subst heq
        rw [place, if_neg hlt, if_pos rfl, lookup, if_pos rfl]
        cases hv : f (head.1, v) <;> cases hh : f head <;> simp [hv, hh]
      · rw [place, if_neg hlt, if_neg heq, lookup, if_neg heq, List.countP_cons, List.countP_cons]
        have := ih htail
        omega

/-- Removing a row no longer counts it. -/
theorem countP_filter_ne (f : K × V → Bool) (k : K) {rows : List (K × V)}
    (hsorted : rows.Pairwise fun a b => a.1 < b.1) :
    (rows.filter fun row => row.1 ≠ k).countP f +
      ((lookup k rows).any fun u => f (k, u)).toNat = rows.countP f := by
  induction rows with
  | nil => simp [lookup]
  | cons head rows ih =>
    obtain ⟨hhead, htail⟩ := List.pairwise_cons.mp hsorted
    have hrest := ih htail
    by_cases heq : head.1 = k
    · subst heq
      have hnone : lookup head.1 rows = none :=
        lookup_eq_none_of_lt fun row hrow => hhead row hrow
      rw [hnone] at hrest
      rw [List.filter_cons_of_neg (by simp), lookup, if_pos rfl, List.countP_cons]
      cases hh : f head <;> simp [hh] at hrest ⊢ <;> exact hrest
    · rw [List.filter_cons_of_pos (by simpa using heq), lookup, if_neg (Ne.symm heq),
        List.countP_cons, List.countP_cons]
      omega

/-- Inserting a row counts its value instead of the one it overwrites. -/
theorem count_put (t : Clustered K V) (f : V → Bool) (k : K) (v : V) :
    (t.put k v).count f + ((t.get k).any f).toNat = t.count f + (f v).toNat :=
  countP_place (fun row => f row.2) k v t.sorted

/-- Deleting a row no longer counts its value. -/
theorem count_erase (t : Clustered K V) (f : V → Bool) (k : K) :
    (t.erase k).count f + ((t.get k).any f).toNat = t.count f :=
  countP_filter_ne (fun row => f row.2) k t.sorted

theorem count_true (t : Clustered K V) : t.count (fun _ => true) = t.rows.length := by
  rw [count, List.countP_true]

/-- A new key adds a row. -/
theorem length_put_of_none {t : Clustered K V} {k : K} (v : V) (h : t.get k = none) :
    (t.put k v).rows.length = t.rows.length + 1 := by
  have hcount := count_put t (fun _ => true) k v
  rw [h, count_true, count_true] at hcount
  exact hcount

/-- A known key keeps the number of rows. -/
theorem length_put_of_some {t : Clustered K V} {k : K} {u : V} (v : V) (h : t.get k = some u) :
    (t.put k v).rows.length = t.rows.length := by
  have hcount := count_put t (fun _ => true) k v
  rw [h, count_true, count_true] at hcount
  exact Nat.add_right_cancel hcount

theorem length_erase_of_some {t : Clustered K V} {k : K} {u : V} (h : t.get k = some u) :
    (t.erase k).rows.length + 1 = t.rows.length := by
  have hcount := count_erase t (fun _ => true) k
  rw [h, count_true, count_true] at hcount
  exact hcount

/-- The count is zero exactly when no value passes the test. -/
theorem count_eq_zero {t : Clustered K V} {f : V → Bool} :
    t.count f = 0 ↔ ∀ k v, t.get k = some v → f v = false := by
  rw [count, List.countP_eq_zero]
  constructor
  · intro h k v hv
    simpa using h (k, v) (mem_rows.mpr hv)
  · intro h row hrow
    simpa using h row.1 row.2 (mem_rows.mp hrow)

/-- A table counts at most as many values as another in which each of their keys has a value that
counts. -/
theorem count_le_count {W : Type*} {t : Clustered K V} {u : Clustered K W} {f : V → Bool}
    {g : W → Bool} (h : ∀ k v, t.get k = some v → f v = true → ∃ w, u.get k = some w ∧ g w = true) :
    t.count f ≤ u.count g := by
  have hnodup : ((t.rows.filter fun row => f row.2).map Prod.fst).Nodup :=
    (t.sorted.filter _).map Prod.fst fun a b hlt => hlt.ne
  have hsubset : (t.rows.filter fun row => f row.2).map Prod.fst ⊆
      (u.rows.filter fun row => g row.2).map Prod.fst := by
    intro k hk
    obtain ⟨row, hrow, rfl⟩ := List.mem_map.mp hk
    obtain ⟨hmem, hf⟩ := List.mem_filter.mp hrow
    obtain ⟨w, hw, hg⟩ := h row.1 row.2 (mem_rows.mp hmem) hf
    exact List.mem_map.mpr ⟨(row.1, w), List.mem_filter.mpr ⟨mem_rows.mpr hw, hg⟩, rfl⟩
  have hle := (List.Nodup.subperm hnodup hsubset).length_le
  rwa [List.length_map, List.length_map, ← List.countP_eq_length_filter,
    ← List.countP_eq_length_filter] at hle

/-- The rows from the last key to the first. -/
theorem pairwise_reverse (t : Clustered K V) :
    t.rows.reverse.Pairwise fun a b => b.1 < a.1 :=
  List.pairwise_reverse.mpr t.sorted

/-- A row is among the last `n`, or these are `n` and have larger keys. -/
theorem mem_last (t : Clustered K V) (n : ℕ) {row : K × V} (h : row ∈ t.rows) :
    row ∈ t.rows.reverse.take n ∨
      ((t.rows.reverse.take n).length = n ∧ ∀ r ∈ t.rows.reverse.take n, row.1 < r.1) := by
  have hsplit := List.take_append_drop n t.rows.reverse
  have hmem : row ∈ t.rows.reverse.take n ++ t.rows.reverse.drop n := by
    rw [hsplit]
    exact List.mem_reverse.mpr h
  rcases List.mem_append.mp hmem with htake | hdrop
  · exact Or.inl htake
  · refine Or.inr ⟨?_, ?_⟩
    · have hlength : n < t.rows.reverse.length := by
        by_contra hle
        rw [List.drop_eq_nil_of_le (Nat.not_lt.mp hle)] at hdrop
        cases hdrop
      rw [List.length_take, Nat.min_eq_left hlength.le]
    · have hpairs := t.pairwise_reverse
      rw [← hsplit] at hpairs
      intro r hr
      exact (List.pairwise_append.mp hpairs).2.2 r hr row hdrop

end Clustered

section Update

variable {A B : Type*} [DecidableEq A] {f : A → Option B} {k k' : A} {v v' : B}

/-- A row found after an upsert is the new one or was there before. -/
theorem update_some_cases (h : Function.update f k (some v) k' = some v') :
    (k' = k ∧ v' = v) ∨ (k' ≠ k ∧ f k' = some v') := by
  by_cases hk : k' = k
  · rw [hk, Function.update_self] at h
    exact Or.inl ⟨hk, (Option.some.inj h).symm⟩
  · rw [Function.update_of_ne hk] at h
    exact Or.inr ⟨hk, h⟩

/-- A row found after a deletion was there before, under another key. -/
theorem update_none_cases (h : Function.update f k none k' = some v') :
    k' ≠ k ∧ f k' = some v' := by
  by_cases hk : k' = k
  · rw [hk, Function.update_self] at h
    cases h
  · rw [Function.update_of_ne hk] at h
    exact ⟨hk, h⟩

/-- An upsert leaves no key without a row that had one. -/
theorem exists_update_some (v : B) (h : ∃ u, f k' = some u) :
    ∃ u, Function.update f k (some v) k' = some u := by
  by_cases hk : k' = k
  · exact ⟨v, by rw [hk, Function.update_self]⟩
  · rwa [Function.update_of_ne hk]

end Update

end ControlPlane

import ControlPlane.Store.KeyExpiry
import ControlPlane.Store.Payloads
import ControlPlane.Store.Serial

/-!
# What a cleanup removes

`CleanupExpired` reads a bounded number of index rows and filters them by their creation
time afterwards. The index is ordered by that time, so the rows that pass are the oldest of
all expired ones. When operations do not overlap, keys and index rows correspond one to one,
and deleting the keys by name deletes exactly those of the selected rows. Repeated cleanups
with one cutoff therefore come to an end.
-/

namespace ControlPlane

open Transition

/-- The stream and the key of an index row. -/
def keyOf (row : CreatedKey) : String × String := ofLex (ofLex row).2

/-- The index rows with a creation time before a cutoff, oldest first. -/
def Store.keysBefore (db : Store) (before : Time) : List (CreatedKey × UUID) :=
  db.idempotencyByCreated.rows.filter fun row => decide (ofTimestamp (ofLex row.1).1 < before)

/-- The batches that `CleanupExpired` executes for the keys it selected. -/
def Store.deleteKeys (db : Store) (keys : List CreatedKey) : Store :=
  keys.foldl (fun db row =>
    db.deleteKey (ofLex row).1 (ofLex (ofLex row).2).1 (ofLex (ofLex row).2).2) db

/-- Keys and index rows correspond one to one. -/
structure Store.Matched (db : Store) : Prop where
  keyed : ∀ stream key,
    (∃ row, db.idempotencyKeys (stream, key) = some row) ↔ ∃ t, db.IndexedAt stream key t
  once : ∀ stream key t t', db.IndexedAt stream key t → db.IndexedAt stream key t' → t = t'

/-- The second database is the first without its `n` oldest expired index rows and their
keys. -/
structure Store.Swept (db db' : Store) (before : Time) (n : ℕ) : Prop where
  oldest : db.idempotencyByCreated.rows.take n = (db.keysBefore before).take n
  index : db'.idempotencyByCreated.rows = db.idempotencyByCreated.rows.drop n
  keys : ∀ k, db'.idempotencyKeys k =
    if k ∈ ((db.keysBefore before).take n).map (fun row => keyOf row.1) then none
    else db.idempotencyKeys k
  matched : db'.Matched

section Selection

variable {db : Store} {before : Time} {args : CleanupArgs} {n : ℕ}

/-- Earlier index rows were created no later. -/
theorem created_before {a b : CreatedKey × UUID} (hlt : a.1 < b.1)
    (hb : decide (ofTimestamp (ofLex b.1).1 < before) = true) :
    decide (ofTimestamp (ofLex a.1).1 < before) = true := by
  have hle : (ofLex a.1).1 ≤ (ofLex b.1).1 := by
    rcases Prod.Lex.lt_iff.mp hlt with hlt | ⟨heq, -⟩
    · exact hlt.le
    · exact heq.le
  have hofTimestamp : ofTimestamp (ofLex a.1).1 ≤ ofTimestamp (ofLex b.1).1 :=
    Int.mul_le_mul_of_nonneg_right hle (by decide)
  exact decide_eq_true (lt_of_le_of_lt hofTimestamp (of_decide_eq_true hb))

/-- The rows that a cleanup selects are the oldest of all expired ones. -/
theorem Store.expiredKeys_eq (db : Store) (args : CleanupArgs) : db.expiredKeys args =
    ((db.keysBefore args.idempotencyBefore).take (cleanupLimit args.limit)).map Prod.fst := by
  rw [Store.expiredKeys, Store.keysBefore, List.filter_map,
    ← Clustered.filter_page _ _ fun a b hlt hb => created_before hlt hb]
  rfl

theorem Store.take_keysBefore (hn : n ≤ (db.keysBefore before).length) :
    (db.keysBefore before).take n = db.idempotencyByCreated.rows.take n :=
  Clustered.take_filter _ (fun _ _ hlt hb => created_before hlt hb) hn

/-- After a sweep the expired rows that it left are still expired. -/
theorem Store.Swept.keysBefore {db' : Store} (h : db.Swept db' before n)
    (hn : n ≤ (db.keysBefore before).length) :
    db'.keysBefore before = (db.keysBefore before).drop n := by
  rw [Store.keysBefore, h.index]
  exact Clustered.filter_drop _ (fun _ _ hlt hb => created_before hlt hb) hn

end Selection

section Deletion

variable {db db' : Store} {keys : List CreatedKey} {stream key : String} {t : Timestamp}

theorem Store.deleteKeys_index (db : Store) (keys : List CreatedKey) :
    (db.deleteKeys keys).idempotencyByCreated = db.idempotencyByCreated.eraseAll keys := by
  induction keys generalizing db with
  | nil => rfl
  | cons row keys ih => exact ih _

theorem Store.deleteKeys_keys (db : Store) (keys : List CreatedKey) (k : String × String) :
    (db.deleteKeys keys).idempotencyKeys k =
      if k ∈ keys.map keyOf then none else db.idempotencyKeys k := by
  induction keys generalizing db with
  | nil => rfl
  | cons row keys ih =>
    have hstep : db.deleteKeys (row :: keys) = (db.deleteKey (ofLex row).1
      (ofLex (ofLex row).2).1 (ofLex (ofLex row).2).2).deleteKeys keys := rfl
    have hrow : (db.deleteKey (ofLex row).1 (ofLex (ofLex row).2).1
        (ofLex (ofLex row).2).2).idempotencyKeys =
          Function.update db.idempotencyKeys (keyOf row) none := rfl
    rw [hstep, ih, hrow, List.map_cons]
    by_cases hk : k = keyOf row
    · simp [hk]
    · rw [Function.update_of_ne hk]
      refine if_congr ?_ rfl rfl
      rw [List.mem_cons, or_iff_right hk]

theorem Store.deleteKeys_indexedAt : (db.deleteKeys keys).IndexedAt stream key t ↔
    db.IndexedAt stream key t ∧ toLex (t, toLex (stream, key)) ∉ keys := by
  simp only [Store.IndexedAt, Store.deleteKeys_index, Clustered.get_eraseAll, exists_and_right]

/-- The correspondence is a matter of the two tables. -/
theorem Store.Matched.congr (h : db.Matched) (hkeys : db'.idempotencyKeys = db.idempotencyKeys)
    (hindex : db'.idempotencyByCreated = db.idempotencyByCreated) : db'.Matched := by
  constructor
  · intro stream key
    simpa only [Store.IndexedAt, hkeys, hindex] using h.keyed stream key
  · intro stream key t t'
    simpa only [Store.IndexedAt, hindex] using h.once stream key t t'

/-- Deleting index rows with their keys keeps the correspondence: the key of a row that stays
is not the key of one that goes, as it has one row only. -/
theorem Store.Matched.deleteKeys (h : db.Matched)
    (hkeys : ∀ row ∈ keys, ∃ id, db.idempotencyByCreated.get row = some id) :
    (db.deleteKeys keys).Matched := by
  have howner : ∀ row ∈ keys, ∀ t, db.IndexedAt (keyOf row).1 (keyOf row).2 t →
      toLex (t, toLex (keyOf row)) = row := by
    intro row hrow t ht
    have hindexed : db.IndexedAt (keyOf row).1 (keyOf row).2 (ofLex row).1 := hkeys row hrow
    rw [h.once _ _ _ _ ht hindexed]
    rfl
  constructor
  · intro stream key
    simp only [Store.deleteKeys_indexedAt, Store.deleteKeys_keys]
    constructor
    · rintro ⟨row, hrow⟩
      split_ifs at hrow with hdeleted
      obtain ⟨t, ht⟩ := (h.keyed stream key).mp ⟨row, hrow⟩
      exact ⟨t, ht, fun hmem => hdeleted (List.mem_map.mpr ⟨_, hmem, rfl⟩)⟩
    · rintro ⟨t, ht, hkept⟩
      have hdeleted : (stream, key) ∉ keys.map keyOf := by
        intro hmem
        obtain ⟨row, hrow, heq⟩ := List.mem_map.mp hmem
        have hsame := howner row hrow t (by rw [heq]; exact ht)
        rw [heq] at hsame
        exact hkept (hsame ▸ hrow)
      rw [if_neg hdeleted]
      exact (h.keyed stream key).mpr ⟨t, ht⟩
  · intro stream key t t' ht ht'
    exact h.once stream key t t' (Store.deleteKeys_indexedAt.mp ht).1
      (Store.deleteKeys_indexedAt.mp ht').1

/-- After the insertion of an index row its key is indexed at the new time as well. -/
theorem Store.insertKeyIndex_indexedAt {stream' key' : String} {t' : Timestamp} {id : UUID} :
    (db.insertKeyIndex t stream key id).IndexedAt stream' key' t' ↔
      ((stream', key') = (stream, key) ∧ t' = t) ∨ db.IndexedAt stream' key' t' := by
  refine ⟨Store.IndexedAt.of_insertKeyIndex, ?_⟩
  rintro (⟨hkey, rfl⟩ | ⟨id', hid'⟩)
  · obtain ⟨rfl, rfl⟩ := Prod.mk.inj hkey
    exact ⟨id, by simp [Store.insertKeyIndex]⟩
  · by_cases heq : toLex (t', toLex (stream', key')) = toLex (t, toLex (stream, key))
    · exact ⟨id, by simp [Store.insertKeyIndex, heq]⟩
    · refine ⟨id', ?_⟩
      rw [Store.insertKeyIndex, Clustered.get_put, if_neg heq]
      exact hid'

/-- A key that was free gets one index row. -/
theorem Store.Matched.insertKey (h : db.Matched) {row : KeyRow} {id : UUID}
    (hnone : db.idempotencyKeys (stream, key) = none) :
    ((db.insertKey stream key row).insertKeyIndex t stream key id).Matched := by
  have hfree : ∀ t', ¬db.IndexedAt stream key t' := by
    intro t' ht'
    obtain ⟨row', hrow'⟩ := (h.keyed stream key).mpr ⟨t', ht'⟩
    rw [hnone] at hrow'
    cases hrow'
  have hindexed : ∀ stream' key' t',
      ((db.insertKey stream key row).insertKeyIndex t stream key id).IndexedAt stream' key' t' ↔
        ((stream', key') = (stream, key) ∧ t' = t) ∨ db.IndexedAt stream' key' t' :=
    fun _ _ _ => Store.insertKeyIndex_indexedAt
  constructor
  · intro stream' key'
    simp only [hindexed]
    by_cases heq : (stream', key') = (stream, key)
    · obtain ⟨rfl, rfl⟩ := Prod.mk.inj heq
      exact ⟨fun _ => ⟨t, Or.inl ⟨rfl, rfl⟩⟩, fun _ => ⟨row, Function.update_self _ _ _⟩⟩
    · have hsame : ((db.insertKey stream key row).insertKeyIndex t stream key id).idempotencyKeys
          (stream', key') = db.idempotencyKeys (stream', key') := Function.update_of_ne heq _ _
      rw [hsame, h.keyed stream' key']
      simp only [heq, false_and, false_or]
  · intro stream' key' t₁ t₂ h₁ h₂
    rw [hindexed] at h₁ h₂
    rcases h₁ with ⟨hkey₁, rfl⟩ | h₁ <;> rcases h₂ with ⟨hkey₂, rfl⟩ | h₂
    · rfl
    · obtain ⟨rfl, rfl⟩ := Prod.mk.inj hkey₁
      exact absurd h₂ (hfree t₂)
    · obtain ⟨rfl, rfl⟩ := Prod.mk.inj hkey₂
      exact absurd h₁ (hfree t₁)
    · exact h.once _ _ _ _ h₁ h₂

end Deletion

section Loops

variable {db db' : Store} {envs : List Env} {r : Result} {c : Call}

/-- The loop over the selected keys deletes each of them and goes on to the dead letters. -/
theorem cleanupKeys_complete (args : CleanupArgs) (keys : List CreatedKey) (i : ℕ)
    (envs : List Env) (db : Store) (h : keys.length ≤ envs.length) :
    (cleanupKeys args keys i).complete envs db =
      (Call.cleanupLettersSelect args (i + keys.length)).complete (envs.drop keys.length)
        (db.deleteKeys keys) := by
  induction keys generalizing i envs db with
  | nil => rfl
  | cons row keys ih =>
    cases envs with
    | nil => cases h
    | cons env envs =>
      have hlength : keys.length ≤ envs.length := Nat.le_of_succ_le_succ h
      have hcount : i + (row :: keys).length = i + 1 + keys.length := by
        rw [List.length_cons]
        omega
      rw [hcount]
      exact (Call.complete_cons _ env envs db).trans (ih (i + 1) envs _ hlength)

/-- The loop over the selected dead letters returns how many there were. -/
theorem cleanupLetters_complete (keys : List EventKey) (i d : ℕ) (envs : List Env) (db : Store)
    (h : keys.length ≤ envs.length) :
    ∃ db', (cleanupLetters keys i d).complete envs db =
      some (db', .cleaned i (d + keys.length)) := by
  induction keys generalizing d envs db with
  | nil => exact ⟨db, rfl⟩
  | cons row keys ih =>
    cases envs with
    | nil => cases h
    | cons env envs =>
      have hlength : keys.length ≤ envs.length := Nat.le_of_succ_le_succ h
      obtain ⟨db', hrest⟩ := ih (d + 1) envs (db.deleteDeadLetter (ofLex row).1 (ofLex row).2)
        hlength
      have hcount : d + (row :: keys).length = d + 1 + keys.length := by
        rw [List.length_cons]
        omega
      rw [hcount]
      exact ⟨db', (Call.complete_cons _ env envs db).trans hrest⟩

/-- The statements that write the idempotency tables, or are followed by one. -/
def Call.writesKeys : Call → Bool
  | .appendKey _ _ | .appendIndex _ _ | .cleanupKeysSelect _ | .cleanupKeysDelete _ _ _ _ => true
  | _ => false

theorem Call.exec_keys (hc : c.writesKeys = false) (env : Env) (db : Store) :
    (c.exec env db).1.idempotencyKeys = db.idempotencyKeys ∧
      (c.exec env db).1.idempotencyByCreated = db.idempotencyByCreated := by
  have hm := c.exec_mutation env db
  generalize (c.exec env db).1 = db' at hm ⊢
  cases hm with
  | insertKey => cases hc
  | insertKeyIndex => cases hc
  | deleteKey => cases hc
  | _ => exact ⟨rfl, rfl⟩

theorem Call.exec_writesKeys {d : Call} {env : Env} (hc : c.writesKeys = false)
    (h : (c.exec env db).2 = .call d) : d.writesKeys = false := by
  cases Call.exec_leads h with
  | appendIndex => cases hc
  | cleanup hcleaning _ =>
    have hnext : c.next .ok env db = .call d := h
    have hsweeps := Call.next_sweeps hcleaning hnext
    cases hsweeps with
    | firstKey => cases hc
    | nextKey => cases hc
    | _ => rfl
  | _ => rfl

/-- An operation without such statements leaves the idempotency tables as they were. -/
theorem Call.complete_keys (hc : c.writesKeys = false)
    (h : c.complete envs db = some (db', r)) :
    db'.idempotencyKeys = db.idempotencyKeys ∧
      db'.idempotencyByCreated = db.idempotencyByCreated := by
  refine Call.complete_invariant
    (I := fun db₁ c => c.writesKeys = false ∧ db₁.idempotencyKeys = db.idempotencyKeys ∧
      db₁.idempotencyByCreated = db.idempotencyByCreated)
    (P := fun db₁ _ => db₁.idempotencyKeys = db.idempotencyKeys ∧
      db₁.idempotencyByCreated = db.idempotencyByCreated) ?_ ?_ ⟨hc, rfl, rfl⟩ h
  · rintro db₁ c₁ env d ⟨hc₁, hkeys, hindex⟩ hd
    obtain ⟨hkeys₁, hindex₁⟩ := Call.exec_keys hc₁ env db₁
    exact ⟨Call.exec_writesKeys hc₁ hd, hkeys₁.trans hkeys, hindex₁.trans hindex⟩
  · rintro db₁ c₁ env r₁ ⟨hc₁, hkeys, hindex⟩ -
    obtain ⟨hkeys₁, hindex₁⟩ := Call.exec_keys hc₁ env db₁
    exact ⟨hkeys₁.trans hkeys, hindex₁.trans hindex⟩

/-- A cleanup returns, and leaves of the idempotency tables what the batches for the selected
keys leave. -/
theorem Op.cleanup_complete (args : CleanupArgs) (now : Time) (db : Store)
    (h : 2 + 2 * cleanupLimit args.limit ≤ envs.length) :
    ∃ db' m, ((Op.cleanup args).begin now).complete envs db =
        some (db', .cleaned (db.expiredKeys args).length m) ∧
      db'.idempotencyKeys = (db.deleteKeys (db.expiredKeys args)).idempotencyKeys ∧
      db'.idempotencyByCreated =
        (db.deleteKeys (db.expiredKeys args)).idempotencyByCreated := by
  have hkeys : (db.expiredKeys args).length ≤ cleanupLimit args.limit := by
    rw [Store.expiredKeys_eq, List.length_map]
    exact List.length_take_le _ _
  cases envs with
  | nil => simp at h
  | cons env envs =>
    rw [List.length_cons] at h
    have hselect : ((Op.cleanup args).begin now).complete (env :: envs) db =
        (Call.cleanupLettersSelect args (db.expiredKeys args).length).complete
          (envs.drop (db.expiredKeys args).length) (db.deleteKeys (db.expiredKeys args)) := by
      refine (Call.complete_cons _ env envs db).trans ?_
      refine (cleanupKeys_complete args (db.expiredKeys args) 0 envs db (by omega)).trans ?_
      rw [Nat.zero_add]
    have hleft := List.length_drop (i := (db.expiredKeys args).length) (l := envs)
    generalize envs.drop (db.expiredKeys args).length = rest at hselect hleft
    cases rest with
    | nil =>
      rw [List.length_nil] at hleft
      omega
    | cons env' rest =>
      rw [List.length_cons] at hleft
      have hletters : ((db.deleteKeys (db.expiredKeys args)).expiredLetters args).length ≤
          cleanupLimit args.limit := by
        refine (List.length_filter_le _ _).trans ?_
        rw [List.length_map]
        exact List.length_take_le _ _
      obtain ⟨db', hdone⟩ := cleanupLetters_complete
        ((db.deleteKeys (db.expiredKeys args)).expiredLetters args) (db.expiredKeys args).length 0
        rest (db.deleteKeys (db.expiredKeys args)) (by omega)
      have hcomplete := (Call.complete_cons (.cleanupLettersSelect args _) env' rest
        (db.deleteKeys (db.expiredKeys args))).trans hdone
      exact ⟨db', _, hselect.trans hcomplete, Call.complete_keys rfl hcomplete⟩

end Loops

section Correspondence

variable {db db' : Store} {envs : List Env} {r : Result} {now : Time} {args : CleanupArgs}
  {before : Time} {limit : ℤ}

/-- The rows that a cleanup selects are in the index. -/
theorem Store.get_of_mem_expiredKeys {row : CreatedKey} (h : row ∈ db.expiredKeys args) :
    ∃ id, db.idempotencyByCreated.get row = some id := by
  obtain ⟨entry, hentry, rfl⟩ := List.mem_map.mp (List.mem_of_mem_filter h)
  exact ⟨entry.2, Clustered.get_of_mem_page hentry⟩

/-- A cleanup removes the oldest expired rows and their keys. -/
theorem Op.cleanup_swept (h : db.Matched) (args : CleanupArgs) (now : Time)
    (henvs : 2 + 2 * cleanupLimit args.limit ≤ envs.length) :
    ∃ db' m, ((Op.cleanup args).begin now).complete envs db = some (db',
        .cleaned (min (cleanupLimit args.limit) (db.keysBefore args.idempotencyBefore).length) m) ∧
      db.Swept db' args.idempotencyBefore
        (min (cleanupLimit args.limit) (db.keysBefore args.idempotencyBefore).length) := by
  obtain ⟨db', m, hcomplete, hkeys, hindex⟩ := Op.cleanup_complete args now db henvs
  have htake : (db.keysBefore args.idempotencyBefore).take (cleanupLimit args.limit) =
      (db.keysBefore args.idempotencyBefore).take
        (min (cleanupLimit args.limit) (db.keysBefore args.idempotencyBefore).length) :=
    List.take_eq_take_min
  have hmatched : db'.Matched :=
    (h.deleteKeys fun row hrow => Store.get_of_mem_expiredKeys hrow).congr hkeys hindex
  rw [Store.expiredKeys_eq, htake] at hcomplete hkeys hindex
  generalize hn : min (cleanupLimit args.limit) (db.keysBefore args.idempotencyBefore).length = n
    at hcomplete hkeys hindex ⊢
  have hle : n ≤ (db.keysBefore args.idempotencyBefore).length := hn ▸ Nat.min_le_right _ _
  have holdest := Store.take_keysBefore hle
  rw [List.length_map, List.length_take_of_le hle] at hcomplete
  refine ⟨db', m, hcomplete, ⟨holdest.symm, ?_, ?_, hmatched⟩⟩
  · rw [hindex, Store.deleteKeys_index, holdest, Clustered.rows_eraseAll_take]
  · intro k
    rw [hkeys, Store.deleteKeys_keys, List.map_map]
    rfl

/-- An append whose key is taken writes neither table. -/
theorem Op.append_taken_keys {ev : EventRecord} {newID : UUID} {row : KeyRow}
    (hkey : ev.idempotencyKey ≠ "")
    (hrow : db.idempotencyKeys (streamOrDefault ev.stream, ev.idempotencyKey) = some row)
    (h : ((Op.append ev newID).begin now).complete envs db = some (db', r)) :
    db'.idempotencyKeys = db.idempotencyKeys ∧
      db'.idempotencyByCreated = db.idempotencyByCreated := by
  obtain ⟨e, rest, rfl, ⟨-, rfl, -⟩ | ⟨-, hlookup⟩⟩ := Op.append_taken_cases hkey hrow h
  · exact ⟨rfl, rfl⟩
  · exact Call.complete_keys rfl hlookup

/-- Complete operations keep the correspondence of keys and index rows. -/
theorem Store.Matched.complete (h : db.Matched) {op : Op}
    (hcomplete : (op.begin now).complete envs db = some (db', r)) : db'.Matched := by
  have hother : (op.begin now).writesKeys = false → db'.Matched := by
    intro hwrites
    obtain ⟨hkeys, hindex⟩ := Call.complete_keys hwrites hcomplete
    exact h.congr hkeys hindex
  cases op with
  | append ev newID =>
    by_cases hkey : ev.idempotencyKey = ""
    · exact hother (by rw [Op.begin, if_pos hkey]; rfl)
    · cases hrow : db.idempotencyKeys (streamOrDefault ev.stream, ev.idempotencyKey) with
      | none =>
        obtain ⟨-, row, t, rfl⟩ := Op.append_of_free hkey hrow hcomplete
        exact (h.insertKey hrow).congr rfl rfl
      | some row =>
        obtain ⟨hkeys, hindex⟩ := Op.append_taken_keys hkey hrow hcomplete
        exact h.congr hkeys hindex
  | cleanup args =>
    -- with more environments than any cleanup needs the result is the same
    have hmore := Call.complete_append hcomplete
      (List.replicate (2 + 2 * cleanupLimit args.limit) ⟨now, 0, .row⟩)
    have henough : 2 + 2 * cleanupLimit args.limit ≤ (envs ++
        List.replicate (2 + 2 * cleanupLimit args.limit) (⟨now, 0, .row⟩ : Env)).length := by
      rw [List.length_append, List.length_replicate]
      omega
    obtain ⟨db₁, m, hdone, hswept⟩ := Op.cleanup_swept h args now henough
    rw [hmore] at hdone
    cases hdone
    exact hswept.matched
  | _ => exact hother rfl

theorem Store.matched_empty : Store.empty.Matched where
  keyed := by
    intro stream key
    constructor
    · rintro ⟨row, hrow⟩
      cases hrow
    · rintro ⟨t, id, hid⟩
      cases hid
  once := by
    rintro stream key t t' ⟨id, hid⟩
    cases hid

/-- When operations do not overlap, keys and index rows correspond one to one. -/
theorem Serial.Reachable.matched {s : Serial} (h : s.Reachable) : s.db.Matched := by
  obtain ⟨clock, hrun⟩ := h
  refine hrun.invariant (I := fun s => s.db.Matched) Store.matched_empty ?_
  intro a x b ha _ hstep
  obtain ⟨-, r, hcomplete⟩ := Serial.step_cases hstep
  exact ha.complete hcomplete

end Correspondence

section Completeness

variable {db : Store} {before : Time} {limit : ℤ} {x : Execution} {xs : List Execution}

/-- A cleanup with this cutoff and limit, with an environment for every statement it can
issue. -/
def Execution.Cleans (x : Execution) (before : Time) (limit : ℤ) : Prop :=
  ∃ args, x.op = .cleanup args ∧ args.idempotencyBefore = before ∧ args.limit = limit ∧
    2 + 2 * limit.toNat ≤ x.envs.length

/-- Execute several operations one after another. -/
def Store.execute (db : Store) : List Execution → Option Store
  | [] => some db
  | x :: xs => ((x.op.begin x.start).complete x.envs db).bind fun out => Store.execute out.1 xs

theorem Store.Matched.cleans (h : db.Matched) (hlimit : 1 ≤ limit) (hx : x.Cleans before limit) :
    ∃ db' m, (x.op.begin x.start).complete x.envs db =
        some (db', .cleaned (min limit.toNat (db.keysBefore before).length) m) ∧
      db.Swept db' before (min limit.toNat (db.keysBefore before).length) := by
  obtain ⟨args, hop, rfl, rfl, henvs⟩ := hx
  have hclamp : cleanupLimit args.limit = args.limit.toNat := if_neg (by omega)
  rw [hop, ← hclamp]
  exact Op.cleanup_swept h args x.start (by rw [hclamp]; exact henvs)

/-- Every cleanup takes as many expired rows as its limit allows. -/
theorem Store.Matched.execute_cleans (h : db.Matched) (hlimit : 1 ≤ limit)
    (hxs : ∀ x ∈ xs, x.Cleans before limit) :
    ∃ db', db.execute xs = some db' ∧
      (db'.keysBefore before).length = (db.keysBefore before).length - xs.length * limit.toNat := by
  induction xs generalizing db with
  | nil => exact ⟨db, rfl, by simp⟩
  | cons x xs ih =>
    obtain ⟨db₁, m, hcomplete, hswept⟩ := h.cleans hlimit (hxs x List.mem_cons_self)
    obtain ⟨db', hrest, hlength⟩ :=
      ih hswept.matched fun y hy => hxs y (List.mem_cons_of_mem x hy)
    refine ⟨db', by rw [Store.execute, hcomplete]; exact hrest, ?_⟩
    rw [hlength, hswept.keysBefore (Nat.min_le_right _ _), List.length_drop, List.length_cons,
      Nat.succ_mul]
    omega

end Completeness

/-- **Cleanup is exact and complete.** When operations do not overlap, a cleanup with a limit
of at least one removes the oldest expired index rows, as many as its limit allows, with
exactly their keys, and returns their number. As many cleanups as it takes to remove all
expired rows at that rate leave none. -/
theorem cleanup_exact_and_complete {s : Serial} {limit : ℤ} (h : s.Reachable) (hlimit : 1 ≤ limit)
    (before : Time) : s.db.Matched ∧
    (∀ x : Execution, x.Cleans before limit → ∃ db' m,
      (x.op.begin x.start).complete x.envs s.db =
          some (db', .cleaned (min limit.toNat (s.db.keysBefore before).length) m) ∧
        s.db.Swept db' before (min limit.toNat (s.db.keysBefore before).length)) ∧
    ∀ xs : List Execution, (∀ x ∈ xs, x.Cleans before limit) →
      ((s.db.keysBefore before).length + limit.toNat - 1) / limit.toNat ≤ xs.length →
      ∃ db', s.db.execute xs = some db' ∧ db'.keysBefore before = [] := by
  refine ⟨h.matched, fun x hx => h.matched.cleans hlimit hx, ?_⟩
  intro xs hxs hlength
  obtain ⟨db', hdone, hleft⟩ := h.matched.execute_cleans hlimit hxs
  refine ⟨db', hdone, List.eq_nil_of_length_eq_zero (hleft.trans ?_)⟩
  have hpos : 0 < limit.toNat := by omega
  have hcover : (s.db.keysBefore before).length + limit.toNat - 1 <
      (xs.length + 1) * limit.toNat := (Nat.div_lt_iff_lt_mul hpos).mp (Nat.lt_succ_of_le hlength)
  rw [Nat.succ_mul] at hcover
  omega

/-- An order with its own key, appended at the given time. -/
def keyedOrder (key : String) (newID : UUID) (now : Time) : Execution :=
  ⟨.append { orderCreated with idempotencyKey := key } newID, now,
    List.replicate 3 ⟨now, 0, .row⟩⟩

/-- A cleanup of one key of before the seventh millisecond. -/
def cleanupOne : Execution :=
  ⟨.cleanup ⟨7000000, 0, 1⟩, 9000000, List.replicate 4 ⟨9000000, 0, .row⟩⟩

/-- Two of three keys have expired: a cleanup of one key removes the older of them, and a second
one the other. -/
theorem cleanup_exact_and_complete_orders : ∃ (s : Serial) (db₁ db₂ : Store) (m : ℕ),
    s.Reachable ∧ s.db.idempotencyByCreated.rows.length = 3 ∧
    (s.db.keysBefore 7000000).length = 2 ∧
    (cleanupOne.op.begin cleanupOne.start).complete cleanupOne.envs s.db =
      some (db₁, .cleaned 1 m) ∧ s.db.Swept db₁ 7000000 1 ∧
    s.db.execute [cleanupOne, cleanupOne] = some db₂ ∧ db₂.keysBefore 7000000 = [] := by
  obtain ⟨s, hs, htest⟩ := Serial.Reachable.of_play 5000000
    [keyedOrder "order-A1001-v1" 1 5000000, keyedOrder "order-A1002-v1" 2 6000000,
      keyedOrder "order-A1003-v1" 3 8000000]
    (fun s => decide (s.db.idempotencyByCreated.rows.length = 3) &&
      decide ((s.db.keysBefore 7000000).length = 2)) (by decide +kernel)
  rw [Bool.and_eq_true, decide_eq_true_eq, decide_eq_true_eq] at htest
  obtain ⟨hthree, htwo⟩ := htest
  have hcleans : cleanupOne.Cleans 7000000 1 := ⟨_, rfl, rfl, rfl, by decide⟩
  obtain ⟨-, hexact, hcomplete⟩ := cleanup_exact_and_complete hs (le_refl 1) 7000000
  obtain ⟨db₁, m, hfirst, hswept⟩ := hexact cleanupOne hcleans
  rw [htwo] at hfirst hswept
  obtain ⟨db₂, hdone, hnone⟩ := hcomplete [cleanupOne, cleanupOne]
    (fun x hx => by
      have hone : x = cleanupOne := by simpa using hx
      exact hone ▸ hcleans) (by rw [htwo]; decide)
  exact ⟨s, db₁, db₂, m, hs, hthree, htwo, hfirst, hswept, hdone, hnone⟩

end ControlPlane

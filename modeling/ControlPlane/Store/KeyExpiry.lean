import ControlPlane.Store.KeyBacking
import Mathlib.Data.List.Pairwise

/-!
# The lifetime of an idempotency key

`CleanupExpired` reads the index of creation times first and deletes the keys it found
there afterwards, one batch for each, by stream and key alone. Between the two another
cleanup can delete the key and a client can create it again; the batch then deletes the
new key. As long as every batch finds the index row that it was read from, a key is
deleted only after its own time has come.
-/

namespace ControlPlane

open Transition

/-- An applied conditional insert of an idempotency key: what it stored, and when. -/
structure KeyGrant where
  stream : String
  key : String
  eventId : UUID
  createdAt : Timestamp
  applied : Time
  deriving DecidableEq

/-- The idempotency key that a step inserts. -/
def System.grants (s : System) : Label → List KeyGrant
  | .exec p report env =>
      match s.callOf p with
      | some (.appendKey ev newID) =>
          if report ≠ .refused ∧ s.db.idempotencyKeys (ev.stream, ev.idempotencyKey) = none then
            [⟨ev.stream, ev.idempotencyKey, newID, toTimestamp env.now, s.clock⟩]
          else []
      | _ => []
  | _ => []

/-- Every cleanup starts with a cutoff that lies a whole lifetime back. -/
def cleansAfter (ttl : Duration) (s : System) : Label → Bool
  | .start _ (.cleanup args) => decide (args.idempotencyBefore ≤ s.clock - ttl)
  | _ => true

/-- A batch of `CleanupExpired` that deletes a key takes effect only while the index row
from which the key was read is still there. -/
def deletesIndexed (s : System) : Label → Bool
  | .exec p report _ =>
      match s.callOf p with
      | some (.cleanupKeysDelete _ row _ _) =>
          decide (report = .refused) || (s.db.idempotencyByCreated.get row).isSome
      | _ => true
  | _ => true

/-- The side condition of runs in which keys live for their whole lifetime. -/
def respectsLifetime (ttl : Duration) (s : System) (l : Label) : Prop :=
  cleansAfter ttl s l = true ∧ deletesIndexed s l = true

/-- The keys that a cleanup is going to delete are older than its cutoff, which lies a
whole lifetime back. -/
def Call.CutsOff (bound : Time) : Call → Prop
  | .cleanupKeysSelect args => args.idempotencyBefore ≤ bound
  | .cleanupKeysDelete args row rest _ => args.idempotencyBefore ≤ bound ∧
      ∀ key ∈ row :: rest, ofTimestamp (ofLex key).1 < args.idempotencyBefore
  | _ => True

/-- The key is in place, and was created no later than `t`. -/
def Store.KeyedBy (db : Store) (stream key : String) (t : Timestamp) : Prop :=
  ∃ row, db.idempotencyKeys (stream, key) = some row ∧ row.createdAt ≤ t

/-- The key has an index row under the creation time `t`. -/
def Store.IndexedAt (db : Store) (stream key : String) (t : Timestamp) : Prop :=
  ∃ id, db.idempotencyByCreated.get (toLex (t, toLex (stream, key))) = some id

/-- The key that the call inserted and under which it will insert its event. -/
def Call.granted : Call → Option (EventRecord × UUID)
  | .appendIndex ev newID => some (ev, newID)
  | .appendBatch ev newID => if ev.idempotencyKey = "" then none else some (ev, newID)
  | _ => none

/-- The log contains the grant of the key under which the event is filed. -/
def GrantedFor (log : List KeyGrant) (ev : EventRecord) (id : UUID) : Prop :=
  ∃ g ∈ log, g.stream = ev.stream ∧ g.key = ev.idempotencyKey ∧ g.eventId = id

/-- Keys, their index rows and their grants belong together. A key has at most one index
row; as long as the row is still to be written, the append that writes it is alone. A
grant outlives its key only after a whole lifetime. -/
structure System.Keyring (ttl : Duration) (s : System) (log : List KeyGrant) : Prop where
  cutoff : ∀ p c, s.callOf p = some c → c.CutsOff (s.clock - ttl)
  indexed : ∀ stream key t, s.db.IndexedAt stream key t → s.db.KeyedBy stream key t
  indexedOnce : ∀ stream key t t', s.db.IndexedAt stream key t → s.db.IndexedAt stream key t' →
    t = t'
  pending : ∀ p ev newID since, s.slots.get p = some (.running (.appendIndex ev newID) since) →
    s.db.KeyedBy ev.stream ev.idempotencyKey (toTimestamp since) ∧
      ∀ t, ¬s.db.IndexedAt ev.stream ev.idempotencyKey t
  pendingOnce : ∀ p q ev ev' id id', s.callOf p = some (.appendIndex ev id) →
    s.callOf q = some (.appendIndex ev' id') → ev.stream = ev'.stream →
    ev.idempotencyKey = ev'.idempotencyKey → p = q
  lived : ∀ g ∈ log, ofTimestamp g.createdAt + ttl ≤ s.clock ∨
    ∃ row, s.db.idempotencyKeys (g.stream, g.key) = some row ∧ row.createdAt = g.createdAt
  apart : log.Pairwise fun later earlier => later.stream = earlier.stream →
    later.key = earlier.key → ofTimestamp earlier.createdAt + ttl ≤ later.applied
  holders : ∀ p c ev id, s.callOf p = some c → c.granted = some (ev, id) → GrantedFor log ev id
  inserted : ∀ ev id, (ev, id) ∈ s.inserted → ev.idempotencyKey ≠ "" → GrantedFor log ev id

section Cutoff

variable {c d : Call} {bound bound' : Time}

theorem Call.CutsOff.mono (h : c.CutsOff bound) (hle : bound ≤ bound') : c.CutsOff bound' := by
  cases c with
  | cleanupKeysSelect args => exact le_trans h hle
  | cleanupKeysDelete args row rest n => exact ⟨h.1.trans hle, h.2⟩
  | _ => trivial

theorem Call.cutsOff_of_not_cleaning (h : c.cleaning = false) : c.CutsOff bound := by
  cases c with
  | cleanupKeysSelect args => cases h
  | cleanupKeysDelete args row rest n => cases h
  | _ => trivial

/-- Every next statement of a cleanup deletes keys that are older than the cutoff. -/
theorem Call.CutsOff.next {report : Report} {env : Env} {db : Store} (h : c.CutsOff bound)
    (hd : c.next report env db = .call d) : d.CutsOff bound := by
  by_cases hc : c.cleaning = true
  · cases Call.next_sweeps hc hd with
    | firstKey hrows =>
      refine ⟨h, ?_⟩
      intro key hkey
      rw [← hrows] at hkey
      exact of_decide_eq_true (List.mem_filter.mp hkey).2
    | nextKey => exact ⟨h.1, fun key hkey => h.2 key (List.mem_cons_of_mem _ hkey)⟩
    | _ => trivial
  · rw [Bool.not_eq_true] at hc
    exact Call.cutsOff_of_not_cleaning ((Call.next_leads hd).cleaning hc)

end Cutoff

section Tables

variable {db : Store} {stream key stream' key' : String} {t t' : Timestamp} {id : UUID}

theorem Store.KeyedBy.mono (h : db.KeyedBy stream key t) (hle : t ≤ t') :
    db.KeyedBy stream key t' := by
  obtain ⟨row, hrow, hcreated⟩ := h
  exact ⟨row, hrow, hcreated.trans hle⟩

/-- A conditional insert that applies leaves every other key as it was. -/
theorem Store.KeyedBy.insertKey (h : db.KeyedBy stream key t) {row : KeyRow}
    (hnone : db.idempotencyKeys (stream', key') = none) :
    (db.insertKey stream' key' row).KeyedBy stream key t := by
  obtain ⟨old, hold, hcreated⟩ := h
  have hne : (stream, key) ≠ (stream', key') := fun heq => by
    rw [heq, hnone] at hold
    cases hold
  exact ⟨old, by simpa [Store.insertKey, Function.update_of_ne hne] using hold, hcreated⟩

/-- The index row of a key is the new one or was there before. -/
theorem Store.IndexedAt.of_insertKeyIndex
    (h : (db.insertKeyIndex t' stream' key' id).IndexedAt stream key t) :
    ((stream, key) = (stream', key') ∧ t = t') ∨ db.IndexedAt stream key t := by
  obtain ⟨id', hid⟩ := h
  rcases Clustered.get_put_cases hid with ⟨hkey, -⟩ | ⟨-, hold⟩
  · simp only [EmbeddingLike.apply_eq_iff_eq, Prod.mk.injEq] at hkey
    exact Or.inl ⟨Prod.ext hkey.2.1 hkey.2.2, hkey.1⟩
  · exact Or.inr ⟨id', hold⟩

/-- What a deletion leaves of the index was there before, under another key or time. -/
theorem Store.IndexedAt.of_deleteKey (h : (db.deleteKey t' stream' key').IndexedAt stream key t) :
    ¬((stream, key) = (stream', key') ∧ t = t') ∧ db.IndexedAt stream key t := by
  obtain ⟨id', hid⟩ := h
  obtain ⟨hne, hold⟩ := Clustered.get_erase_cases hid
  refine ⟨?_, id', hold⟩
  rintro ⟨hkey, rfl⟩
  simp only [Prod.mk.injEq] at hkey
  exact hne (by rw [hkey.1, hkey.2])

end Tables

section Statements

variable {s : System} {c d : Call} {report : Report} {env : Env} {db : Store} {ev : EventRecord}
  {id newID : UUID}

/-- What a statement does to the idempotency keys and their index. -/
theorem Call.effect_keys (c : Call) (report : Report) (env : Env) (db : Store) :
    ((c.effect report env db).idempotencyKeys = db.idempotencyKeys ∧
      (c.effect report env db).idempotencyByCreated = db.idempotencyByCreated) ∨
    (∃ ev newID, c = .appendKey ev newID ∧ report ≠ .refused ∧
      db.idempotencyKeys (ev.stream, ev.idempotencyKey) = none ∧
      c.effect report env db = db.insertKey ev.stream ev.idempotencyKey
        ⟨newID, sha256Hex ev.payload, toTimestamp env.now⟩) ∨
    (∃ ev newID, c = .appendIndex ev newID ∧ report ≠ .refused ∧ c.effect report env db =
      db.insertKeyIndex (toTimestamp env.now) ev.stream ev.idempotencyKey newID) ∨
    ∃ args row rest n, c = .cleanupKeysDelete args row rest n ∧ report ≠ .refused ∧
      c.effect report env db =
        db.deleteKey (ofLex row).1 (ofLex (ofLex row).2).1 (ofLex (ofLex row).2).2 := by
  rcases c.effect_mutation report env db with ⟨-, heq⟩ | ⟨hreport, hm⟩
  · rw [heq]
    exact Or.inl ⟨rfl, rfl⟩
  · generalize c.effect report env db = db' at hm ⊢
    cases hm with
    | insertKey hnone => exact Or.inr (Or.inl ⟨_, _, rfl, hreport, hnone, rfl⟩)
    | insertKeyIndex => exact Or.inr (Or.inr (Or.inl ⟨_, _, rfl, hreport, rfl⟩))
    | deleteKey => exact Or.inr (Or.inr (Or.inr ⟨_, _, _, _, rfl, hreport, rfl⟩))
    | _ => exact Or.inl ⟨rfl, rfl⟩

/-- Only an append whose conditional insert applied goes on to write the index row. -/
theorem Call.next_appendIndex (h : c.next report env db = .call (.appendIndex ev newID)) :
    c = .appendKey ev newID ∧ report = .ok ∧
      db.idempotencyKeys (ev.stream, ev.idempotencyKey) = none := by
  have hreport : report = .ok := by
    by_contra hne
    rw [Call.next, if_neg hne] at h
    cases Call.onError_leads env db h with
    | appendIndex hnone => cases h
    | cleanup hc hd => cases hd
  cases Call.next_leads h with
  | appendIndex hnone => exact ⟨rfl, hreport, hnone⟩
  | cleanup hc hd => cases hd

/-- A call that holds a key held it before its statement or just inserted it. -/
theorem Call.granted_next (h : c.next report env db = .call d) (hd : d.granted = some (ev, id)) :
    c.granted = some (ev, id) ∨ (c = .appendKey ev id ∧ report = .ok ∧
      db.idempotencyKeys (ev.stream, ev.idempotencyKey) = none) := by
  cases d with
  | appendIndex ev' newID =>
    cases hd
    exact Or.inr (Call.next_appendIndex h)
  | appendBatch ev' newID =>
    simp only [Call.granted] at hd
    split_ifs at hd
    cases hd
    cases Call.next_leads h with
    | appendBatch => exact Or.inl rfl
    | cleanup hc hd => cases hd
  | _ => cases hd

/-- The grant of a step is the one of an applied conditional insert. -/
theorem System.mem_grants {p : ℕ} {g : KeyGrant} (hcall : s.callOf p = some c)
    (h : g ∈ s.grants (.exec p report env)) : ∃ ev newID, c = .appendKey ev newID ∧
      s.db.idempotencyKeys (ev.stream, ev.idempotencyKey) = none ∧ report ≠ .refused ∧
      g = ⟨ev.stream, ev.idempotencyKey, newID, toTimestamp env.now, s.clock⟩ := by
  simp only [System.grants, hcall] at h
  split at h
  · rename_i ev newID hc
    split_ifs at h with hguard
    · rw [List.mem_singleton] at h
      exact ⟨ev, newID, Option.some.inj hc, hguard.2, hguard.1, h⟩
    · cases h
  · cases h

/-- An applied conditional insert is logged. -/
theorem System.grants_appendKey {p : ℕ} (hcall : s.callOf p = some (.appendKey ev newID))
    (hreport : report ≠ .refused)
    (hnone : s.db.idempotencyKeys (ev.stream, ev.idempotencyKey) = none) :
    s.grants (.exec p report env) =
      [⟨ev.stream, ev.idempotencyKey, newID, toTimestamp env.now, s.clock⟩] := by
  simp [System.grants, hcall, hreport, hnone]

end Statements

theorem GrantedFor.mono {log : List KeyGrant} {ev : EventRecord} {id : UUID}
    (h : GrantedFor log ev id) (new : List KeyGrant) : GrantedFor (new ++ log) ev id := by
  obtain ⟨g, hg, hfiled⟩ := h
  exact ⟨g, List.mem_append_right new hg, hfiled⟩

section Perform

variable {ttl : Duration} {s : System} {log : List KeyGrant} {p : ℕ} {c : Call} {since : Time}
  {report : Report} {env : Env}

/-- The batch that deletes a key finds the index row of the key. -/
theorem deletesIndexed_indexed {args : CleanupArgs} {row : CreatedKey} {rest : List CreatedKey}
    {n : ℕ} (hok : deletesIndexed s (.exec p report env) = true)
    (hcall : s.callOf p = some (.cleanupKeysDelete args row rest n)) (hreport : report ≠ .refused) :
    s.db.IndexedAt (ofLex (ofLex row).2).1 (ofLex (ofLex row).2).2 (ofLex row).1 := by
  simp only [deletesIndexed, hcall, Bool.or_eq_true, decide_eq_true_eq] at hok
  exact Option.isSome_iff_exists.mp (hok.resolve_left hreport)

/-- A key stays in place during a statement, except that the batch of a cleanup deletes
it when it finds the index row of the key. -/
theorem System.Keyring.keeps_key (h : s.Keyring ttl log) (hcall : s.callOf p = some c)
    (hok : deletesIndexed s (.exec p report env) = true) {stream key : String} {row : KeyRow}
    (hrow : s.db.idempotencyKeys (stream, key) = some row) :
    (c.effect report env s.db).idempotencyKeys (stream, key) = some row ∨
      ∃ args t rest n, c = .cleanupKeysDelete args (toLex (t, toLex (stream, key))) rest n ∧
        report ≠ .refused ∧ s.db.IndexedAt stream key t ∧ row.createdAt ≤ t := by
  rcases c.effect_keys report env s.db with ⟨hkeys, -⟩ | ⟨ev, newID, rfl, -, hnone, heq⟩ |
    ⟨ev, newID, rfl, -, heq⟩ | ⟨args, old, rest, n, rfl, hreport, heq⟩
  · rw [hkeys]
    exact Or.inl hrow
  · have hne : (stream, key) ≠ (ev.stream, ev.idempotencyKey) := fun heq' => by
      rw [heq', hnone] at hrow
      cases hrow
    left
    rw [heq]
    simpa [Store.insertKey, Function.update_of_ne hne] using hrow
  · rw [heq]
    exact Or.inl hrow
  · by_cases hkey : (stream, key) = ((ofLex (ofLex old).2).1, (ofLex (ofLex old).2).2)
    · have hindexed := deletesIndexed_indexed hok hcall hreport
      obtain ⟨rfl, rfl⟩ := Prod.mk.inj hkey
      obtain ⟨row', hrow', hcreated⟩ := h.indexed _ _ _ hindexed
      rw [hrow, Option.some.injEq] at hrow'
      subst hrow'
      exact Or.inr ⟨args, (ofLex old).1, rest, n, rfl, hreport, hindexed, hcreated⟩
    · left
      rw [heq]
      simpa [Store.deleteKey, Function.update_of_ne hkey] using hrow

/-- The index rows after a statement: the acting append wrote its own, a cleanup deleted
the one it found, and all others are as before. -/
theorem Call.effect_index {db : Store} {stream key : String} {t : Timestamp}
    (hindexed : (c.effect report env db).IndexedAt stream key t) :
    (∃ ev newID, c = .appendIndex ev newID ∧ stream = ev.stream ∧ key = ev.idempotencyKey ∧
      t = toTimestamp env.now) ∨
    (db.IndexedAt stream key t ∧ (report ≠ .refused → ∀ args rest n,
      c ≠ .cleanupKeysDelete args (toLex (t, toLex (stream, key))) rest n)) := by
  rcases c.effect_keys report env db with ⟨-, hindex⟩ | ⟨ev, newID, rfl, -, -, heq⟩ |
    ⟨ev, newID, rfl, -, heq⟩ | ⟨args, old, rest, n, rfl, -, heq⟩
  · right
    refine ⟨by rwa [Store.IndexedAt, hindex] at hindexed, ?_⟩
    rintro hreport args rest n rfl
    rw [Call.effect, if_neg hreport] at hindex hindexed
    obtain ⟨id, hid⟩ := hindexed
    exact (Clustered.get_erase_cases hid).1 rfl
  · rw [heq] at hindexed
    exact Or.inr ⟨hindexed, fun _ _ _ _ => by simp⟩
  · rw [heq] at hindexed
    rcases hindexed.of_insertKeyIndex with ⟨hkey, htime⟩ | hold
    · obtain ⟨hstream, hkey⟩ := Prod.mk.inj hkey
      exact Or.inl ⟨ev, newID, rfl, hstream, hkey, htime⟩
    · exact Or.inr ⟨hold, fun _ _ _ _ => by simp⟩
  · rw [heq] at hindexed
    obtain ⟨hne, hold⟩ := hindexed.of_deleteKey
    refine Or.inr ⟨hold, ?_⟩
    rintro - args' rest' n' hc
    cases hc
    exact hne ⟨rfl, rfl⟩

/-- An index row belongs to a key that is in place, also after the statement that writes or
deletes it. -/
theorem System.Keyring.perform_indexed (h : s.Keyring ttl log)
    (hslot : s.slots.get p = some (.running c since)) (hsince : since ≤ env.now)
    (hok : deletesIndexed s (.exec p report env) = true) {stream key : String} {t : Timestamp}
    (hindexed : (c.effect report env s.db).IndexedAt stream key t) :
    (c.effect report env s.db).KeyedBy stream key t := by
  have hcall := System.callOf_of_running hslot
  rcases Call.effect_index hindexed with ⟨ev, newID, rfl, rfl, rfl, rfl⟩ | ⟨hold, hkept⟩
  · obtain ⟨hkeyed, -⟩ := h.pending p ev newID since hslot
    obtain ⟨row, hrow, hcreated⟩ := hkeyed.mono (toTimestamp_mono hsince)
    rcases h.keeps_key hcall hok hrow with hrow' | ⟨args, t, rest, n, hc, -⟩
    · exact ⟨row, hrow', hcreated⟩
    · cases hc
  · obtain ⟨row, hrow, hcreated⟩ := h.indexed stream key t hold
    rcases h.keeps_key hcall hok hrow with hrow' | ⟨args, t', rest, n, hc, hreport, ht', -⟩
    · exact ⟨row, hrow', hcreated⟩
    · cases h.indexedOnce stream key t t' hold ht'
      exact absurd hc (hkept hreport args rest n)

/-- The append that writes an index row finds none for its key. -/
theorem System.Keyring.perform_indexedOnce (h : s.Keyring ttl log)
    (hslot : s.slots.get p = some (.running c since)) {stream key : String} {t t' : Timestamp}
    (ht : (c.effect report env s.db).IndexedAt stream key t)
    (ht' : (c.effect report env s.db).IndexedAt stream key t') : t = t' := by
  rcases Call.effect_index ht with ⟨ev, newID, rfl, rfl, rfl, rfl⟩ | ⟨hold, -⟩
  · rcases Call.effect_index ht' with ⟨ev', newID', hc, -, -, rfl⟩ | ⟨hold, -⟩
    · rfl
    · exact absurd hold ((h.pending p ev newID since hslot).2 t')
  · rcases Call.effect_index ht' with ⟨ev, newID, rfl, rfl, rfl, rfl⟩ | ⟨hold', -⟩
    · exact absurd hold ((h.pending p ev newID since hslot).2 t)
    · exact h.indexedOnce stream key t t' hold hold'

/-- An append that has yet to write its index row has its key in place, and the key has no
index row. -/
theorem System.Keyring.perform_pending (h : s.Keyring ttl log)
    (hslot : s.slots.get p = some (.running c since)) (hnow : env.now ≤ s.clock)
    (hok : deletesIndexed s (.exec p report env) = true) {q : ℕ} {ev : EventRecord} {newID : UUID}
    {since' : Time}
    (hq : (s.perform p c report env).slots.get q = some (.running (.appendIndex ev newID) since')) :
    (c.effect report env s.db).KeyedBy ev.stream ev.idempotencyKey (toTimestamp since') ∧
      ∀ t, ¬(c.effect report env s.db).IndexedAt ev.stream ev.idempotencyKey t := by
  have hcall := System.callOf_of_running hslot
  rcases System.running_perform_cases hq with ⟨-, hnext, rfl⟩ | ⟨hqp, hold⟩
  · obtain ⟨rfl, rfl, hnone⟩ := Call.next_appendIndex hnext
    constructor
    · refine ⟨⟨newID, sha256Hex ev.payload, toTimestamp env.now⟩, ?_, toTimestamp_mono hnow⟩
      simp [Call.effect, Call.exec, hnone, Store.insertKey]
    · intro t ht
      rcases Call.effect_index ht with ⟨ev', newID', hc, -⟩ | ⟨hold, -⟩
      · cases hc
      · obtain ⟨row, hrow, -⟩ := h.indexed _ _ t hold
        rw [hnone] at hrow
        cases hrow
  · obtain ⟨⟨row, hrow, hcreated⟩, hnot⟩ := h.pending q ev newID since' hold
    constructor
    · rcases h.keeps_key hcall hok hrow with hrow' | ⟨args, t, rest, n, -, -, ht, -⟩
      · exact ⟨row, hrow', hcreated⟩
      · exact absurd ht (hnot t)
    · intro t ht
      rcases Call.effect_index ht with ⟨ev', newID', rfl, hstream, hkey, -⟩ | ⟨hold', -⟩
      · exact hqp (h.pendingOnce q p ev ev' newID newID' (System.callOf_of_running hold) hcall
          hstream hkey)
      · exact hnot t hold'

/-- An append inserts its key only if no other append has the key in place and its index row
still to write. -/
theorem System.Keyring.not_pending_of_next (h : s.Keyring ttl log) {q : ℕ} {ev ev' : EventRecord}
    {id id' : UUID} (hnext : c.next report env s.db = .call (.appendIndex ev id))
    (hstream : ev.stream = ev'.stream) (hkey : ev.idempotencyKey = ev'.idempotencyKey) :
    s.callOf q ≠ some (.appendIndex ev' id') := by
  intro hq
  obtain ⟨since', hq⟩ := System.callOf_eq_some.mp hq
  obtain ⟨⟨row, hrow, -⟩, -⟩ := h.pending q ev' id' since' hq
  obtain ⟨-, -, hnone⟩ := Call.next_appendIndex hnext
  rw [hstream, hkey, hrow] at hnone
  cases hnone

theorem System.Keyring.perform_pendingOnce (h : s.Keyring ttl log) {q q' : ℕ}
    {ev ev' : EventRecord} {id id' : UUID}
    (hq : (s.perform p c report env).callOf q = some (.appendIndex ev id))
    (hq' : (s.perform p c report env).callOf q' = some (.appendIndex ev' id'))
    (hstream : ev.stream = ev'.stream) (hkey : ev.idempotencyKey = ev'.idempotencyKey) :
    q = q' := by
  rcases System.callOf_perform_cases hq with ⟨rfl, hnext⟩ | ⟨-, hold⟩
  · rcases System.callOf_perform_cases hq' with ⟨rfl, -⟩ | ⟨-, hold'⟩
    · rfl
    · exact absurd hold' (h.not_pending_of_next hnext hstream hkey)
  · rcases System.callOf_perform_cases hq' with ⟨rfl, hnext'⟩ | ⟨-, hold'⟩
    · exact absurd hold (h.not_pending_of_next hnext' hstream.symm hkey.symm)
    · exact h.pendingOnce q q' ev ev' id id' hold hold' hstream hkey

/-- A granted key is in place, or was deleted after its lifetime. -/
theorem System.Keyring.perform_lived (h : s.Keyring ttl log) (hcall : s.callOf p = some c)
    (hok : deletesIndexed s (.exec p report env) = true) {g : KeyGrant}
    (hg : g ∈ s.grants (.exec p report env) ++ log) : ofTimestamp g.createdAt + ttl ≤ s.clock ∨
    ∃ row, (c.effect report env s.db).idempotencyKeys (g.stream, g.key) = some row ∧
      row.createdAt = g.createdAt := by
  rcases List.mem_append.mp hg with hnew | hold
  · obtain ⟨ev, newID, rfl, hnone, hreport, rfl⟩ := System.mem_grants hcall hnew
    right
    refine ⟨⟨newID, sha256Hex ev.payload, toTimestamp env.now⟩, ?_, rfl⟩
    simp [Call.effect, Call.exec, hnone, hreport, Store.insertKey]
  · rcases h.lived g hold with hlived | ⟨row, hrow, hcreated⟩
    · exact Or.inl hlived
    · rcases h.keeps_key hcall hok hrow with hrow' | ⟨args, t, rest, n, rfl, -, -, ht⟩
      · exact Or.inr ⟨row, hrow', hcreated⟩
      · left
        obtain ⟨hbound, hrows⟩ := h.cutoff p _ hcall
        have hlt : ofTimestamp t < args.idempotencyBefore := hrows _ List.mem_cons_self
        have hle : ofTimestamp g.createdAt ≤ ofTimestamp t := by
          rw [ofTimestamp_le, toTimestamp_ofTimestamp, ← hcreated]
          exact ht
        exact Int.add_le_of_le_sub_right ((hle.trans hlt.le).trans hbound)

/-- A key is granted again only after the lifetime of every earlier grant. -/
theorem System.Keyring.perform_apart (h : s.Keyring ttl log) (hcall : s.callOf p = some c) :
    (s.grants (.exec p report env) ++ log).Pairwise fun later earlier =>
      later.stream = earlier.stream → later.key = earlier.key →
      ofTimestamp earlier.createdAt + ttl ≤ later.applied := by
  refine List.pairwise_append.mpr ⟨?_, h.apart, ?_⟩
  · simp only [System.grants, hcall]
    split
    · split_ifs <;> simp
    · exact List.Pairwise.nil
  · intro g hg earlier hearlier hstream hkey
    obtain ⟨ev, newID, -, hnone, -, rfl⟩ := System.mem_grants hcall hg
    rcases h.lived earlier hearlier with hlived | ⟨row, hrow, -⟩
    · exact hlived
    · rw [← hstream, ← hkey, hnone] at hrow
      cases hrow

/-- A statement of a run in which every deletion finds its index row keeps keys, index
rows and grants together. -/
theorem System.Keyring.perform (h : s.Keyring ttl log)
    (hslot : s.slots.get p = some (.running c since)) (hsince : since ≤ env.now)
    (hnow : env.now ≤ s.clock) (hok : deletesIndexed s (.exec p report env) = true) :
    (s.perform p c report env).Keyring ttl (s.grants (.exec p report env) ++ log) := by
  have hcall := System.callOf_of_running hslot
  constructor
  case cutoff =>
    intro q d hd
    rcases System.callOf_perform_cases hd with ⟨-, hd⟩ | ⟨-, hd⟩
    · exact (h.cutoff p c hcall).next hd
    · exact h.cutoff q d hd
  case indexed => exact fun stream key t => h.perform_indexed hslot hsince hok
  case indexedOnce => exact fun stream key t t' => h.perform_indexedOnce hslot
  case pending => exact fun q ev newID since' => h.perform_pending hslot hnow hok
  case pendingOnce => exact fun q q' ev ev' id id' => h.perform_pendingOnce
  case lived => exact fun g => h.perform_lived hcall hok
  case apart => exact h.perform_apart hcall
  case holders =>
    intro q d ev id hd hheld
    rcases System.callOf_perform_cases hd with ⟨rfl, hnext⟩ | ⟨-, hd⟩
    · rcases Call.granted_next hnext hheld with hheld | ⟨rfl, rfl, hnone⟩
      · exact (h.holders _ c ev id hcall hheld).mono _
      · rw [System.grants_appendKey hcall (by decide) hnone]
        exact ⟨_, List.mem_cons_self, rfl, rfl, rfl⟩
    · exact (h.holders q d ev id hd hheld).mono _
  case inserted =>
    intro ev id hmem hkey
    rcases List.mem_append.mp hmem with hmem | hmem
    · obtain ⟨rfl, -⟩ := Call.mem_inserts hmem
      exact (h.holders p _ ev id hcall (if_neg hkey)).mono _
    · exact (h.inserted ev id hmem hkey).mono _

end Perform

/-- No operation starts in the middle of an append. -/
theorem Op.begin_granted (op : Op) (now : Time) : (op.begin now).granted = none ∧
    ∀ ev id, op.begin now ≠ .appendIndex ev id := by
  cases op with
  | append ev newID =>
    simp only [Op.begin]
    split_ifs with hkey
    · exact ⟨if_pos hkey, by simp⟩
    · exact ⟨rfl, by simp⟩
  | _ => exact ⟨rfl, by simp [Op.begin]⟩

/-- A cleanup starts with a cutoff that lies a whole lifetime back. -/
theorem Op.begin_cutsOff {ttl : Duration} {s : System} {p : ℕ} {op : Op}
    (hok : cleansAfter ttl s (.start p op) = true) :
    (op.begin s.clock).CutsOff (s.clock - ttl) := by
  cases op with
  | cleanup args =>
    have hcutoff : args.idempotencyBefore ≤ s.clock - ttl := of_decide_eq_true hok
    exact hcutoff
  | append ev newID =>
    simp only [Op.begin]
    split_ifs <;> trivial
  | _ => trivial

/-- Every step of such a run keeps keys, index rows and grants together. -/
theorem System.Keyring.step {ttl : Duration} {s s' : System} {log : List KeyGrant} {l : Label}
    (h : s.Keyring ttl log) (hok : respectsLifetime ttl s l) (hstep : s.Steps l s') :
    s'.Keyring ttl (s.grants l ++ log) := by
  obtain ⟨hcleans, hdeletes⟩ := hok
  cases hstep with
  | tick hclock =>
    rename_i now
    refine ⟨?_, h.indexed, h.indexedOnce, h.pending, h.pendingOnce, ?_, h.apart, h.holders,
      h.inserted⟩
    · intro p c hc
      exact (h.cutoff p c hc).mono (by simpa using hclock)
    · intro g hg
      exact (h.lived g hg).imp_left fun hlived => hlived.trans hclock
  | start hidle hfresh =>
    rename_i p op
    have hold : ∀ q ev id, (s.launch p op).callOf q = some (.appendIndex ev id) →
        s.callOf q = some (.appendIndex ev id) := by
      intro q ev id hq
      rcases System.callOf_launch_cases hq with ⟨-, hbegin⟩ | ⟨-, hq⟩
      · exact absurd hbegin.symm ((op.begin_granted s.clock).2 ev id)
      · exact hq
    refine ⟨?_, h.indexed, h.indexedOnce, ?_, ?_, h.lived, h.apart, ?_, h.inserted⟩
    · intro q c hc
      rcases System.callOf_launch_cases hc with ⟨-, rfl⟩ | ⟨-, hc⟩
      · exact Op.begin_cutsOff hcleans
      · exact h.cutoff q c hc
    · intro q ev newID since hq
      rcases Clustered.get_put_cases hq with ⟨-, hslot⟩ | ⟨-, hq⟩
      · simp only [Slot.running.injEq] at hslot
        exact absurd hslot.1.symm ((op.begin_granted s.clock).2 ev newID)
      · exact h.pending q ev newID since hq
    · intro q q' ev ev' id id' hq hq'
      exact h.pendingOnce q q' ev ev' id id' (hold q ev id hq) (hold q' ev' id' hq')
    · intro q c ev id hc hheld
      rcases System.callOf_launch_cases hc with ⟨-, rfl⟩ | ⟨-, hc⟩
      · rw [(op.begin_granted s.clock).1] at hheld
        cases hheld
      · exact h.holders q c ev id hc hheld
  | exec hslot hsince hnow => exact h.perform hslot hsince hnow hdeletes
  | crash hslot =>
    refine ⟨?_, h.indexed, h.indexedOnce, ?_, ?_, h.lived, h.apart, ?_, h.inserted⟩
    · exact fun q c hc => h.cutoff q c (System.callOf_of_crash hc).2
    · exact fun q ev newID since hq => h.pending q ev newID since (Clustered.get_erase_cases hq).2
    · exact fun q q' ev ev' id id' hq hq' => h.pendingOnce q q' ev ev' id id'
        (System.callOf_of_crash hq).2 (System.callOf_of_crash hq').2
    · exact fun q c ev id hc => h.holders q c ev id (System.callOf_of_crash hc).2

theorem System.keyring_init (ttl : Duration) (clock : Time) :
    (System.init clock).Keyring ttl [] := by
  refine ⟨?_, ?_, ?_, ?_, ?_, ?_, List.Pairwise.nil, ?_, ?_⟩
  · exact fun p c hc => by cases hc
  · exact fun stream key t ht => by cases ht.choose_spec
  · exact fun stream key t t' ht => by cases ht.choose_spec
  · exact fun p ev newID since hp => by cases hp
  · exact fun p q ev ev' id id' hp => by cases hp
  · exact fun g hg => by cases hg
  · exact fun p c ev id hc => by cases hc
  · exact fun ev id hmem => by cases hmem

/-- Two grants of one key lie a whole lifetime apart, whichever came first. -/
def KeyGrant.Apart (ttl : Duration) (g g' : KeyGrant) : Prop :=
  g.stream = g'.stream → g.key = g'.key →
    ofTimestamp g.createdAt + ttl ≤ g'.applied ∨ ofTimestamp g'.createdAt + ttl ≤ g.applied

instance (ttl : Duration) : Std.Symm (KeyGrant.Apart ttl) where
  symm _ _ h hstream hkey := (h hstream.symm hkey.symm).symm

theorem System.Keyring.grants_apart {ttl : Duration} {s : System} {log : List KeyGrant}
    (h : s.Keyring ttl log) {g g' : KeyGrant} (hg : g ∈ log) (hg' : g' ∈ log) (hne : g ≠ g') :
    g.Apart ttl g' := by
  have hapart : log.Pairwise (KeyGrant.Apart ttl) :=
    h.apart.imp fun hearlier hstream hkey => Or.inr (hearlier hstream hkey)
  exact hapart.forall hg hg' hne

/-- **A key lives for its whole TTL.** Consider every interleaving in which each cleanup
uses a cutoff a whole lifetime before its start and each of its batches finds the index
row that it was read from. A key disappears only by a batch of a cleanup whose cutoff is
after the key's own creation time; and when two events are inserted under one stream and
key, the key of one had been created a whole lifetime before the other's was inserted. -/
theorem key_lives_for_ttl {ttl : Duration} {clock : Time} {s : System} {log : List KeyGrant}
    (hrun : Run (logged System.step System.grants) (fun a l => respectsLifetime ttl a.1 l)
      (System.init clock, []) (s, log)) :
    (∀ l s' stream key row, respectsLifetime ttl s l → s.step l = some s' →
      s.db.idempotencyKeys (stream, key) = some row →
      s'.db.idempotencyKeys (stream, key) = none →
      ∃ p report env args key' rest n, l = .exec p report env ∧
        s.callOf p = some (.cleanupKeysDelete args key' rest n) ∧
        ofTimestamp row.createdAt < args.idempotencyBefore) ∧
    ∀ ev ev' id id', (ev, id) ∈ s.inserted → (ev', id') ∈ s.inserted → id ≠ id' →
      ev.stream = ev'.stream → ev.idempotencyKey = ev'.idempotencyKey → ev.idempotencyKey ≠ "" →
      ∃ g ∈ log, ∃ g' ∈ log, g.eventId = id ∧ g'.eventId = id' ∧
        (ofTimestamp g.createdAt + ttl ≤ g'.applied ∨ ofTimestamp g'.createdAt + ttl ≤ g.applied) := by
  have hring : s.Keyring ttl log := by
    refine hrun.logged_invariant (System.keyring_init ttl clock) ?_
    intro a log l b ha hok hab
    exact ha.step hok (System.step_cases hab)
  constructor
  · intro l s' stream key row hok hstep hrow hnone
    have hkept : ∀ {db : Store}, db = s.db → db.idempotencyKeys (stream, key) ≠ none := by
      rintro db rfl hgone
      rw [hrow] at hgone
      cases hgone
    cases System.step_cases hstep with
    | tick hclock => exact absurd hnone (hkept rfl)
    | start hidle hfresh => exact absurd hnone (hkept rfl)
    | crash hslot => exact absurd hnone (hkept rfl)
    | exec hslot hsince hnow =>
      rename_i p report env c since
      have hcall := System.callOf_of_running hslot
      rcases hring.keeps_key hcall hok.2 hrow with hrow' | ⟨args, t, rest, n, rfl, -, -, ht⟩
      · exact absurd hnone (by simp [System.perform, hrow'])
      · refine ⟨p, report, env, args, _, rest, n, rfl, hcall, ?_⟩
        have hlt := (hring.cutoff p _ hcall).2 _ List.mem_cons_self
        refine lt_of_le_of_lt ?_ hlt
        rw [ofTimestamp_le]
        simpa using ht
  · intro ev ev' id id' hins hins' hne hstream hkey hkeyed
    obtain ⟨g, hg, hgs, hgk, rfl⟩ := hring.inserted ev id hins hkeyed
    obtain ⟨g', hg', hgs', hgk', rfl⟩ := hring.inserted ev' id' hins' (hkey ▸ hkeyed)
    refine ⟨g, hg, g', hg', rfl, rfl, ?_⟩
    apply hring.grants_apart hg hg' (fun heq => hne (by rw [heq]))
    · rw [hgs, hgs', hstream]
    · rw [hgk, hgk', hkey]

/-- The keys of the examples live for one hour. -/
def keyTTL : Duration := 3600000000000

/-- The instant at which the key of the first order has expired. -/
def orderExpired : Time := 3600006000000

/-- A cleanup whose cutoff lies one lifetime back. -/
def expiredCleanup : Op := .cleanup ⟨orderExpired - keyTTL, orderExpired - keyTTL, 200⟩

/-- An order is appended and expires. One cleanup has selected its key when another one
deletes the key; a client then appends the order again under the same key. -/
def keyRecreated : List Label :=
  .start 0 (.append orderCreated 1) :: execs 0 3 5000000 ++
    [.tick orderExpired, .start 1 expiredCleanup] ++ execs 1 1 orderExpired ++
    .start 2 expiredCleanup :: execs 2 3 orderExpired ++
    .start 3 (.append orderCreated 2) :: execs 3 3 orderExpired

/-- The steps of runs that consist of appends and cleanups, each with a cutoff one
lifetime back. -/
def appendsOrCleans (s : System) : Label → Bool
  | .start _ (.append _ _) => true
  | .start p (.cleanup args) => cleansAfter keyTTL s (.start p (.cleanup args))
  | .start _ _ => false
  | _ => true

/-- The order expires, a cleanup deletes its key, and the order is appended again. -/
theorem key_lives_for_ttl_orders : ∃ (s : System) (log : List KeyGrant),
    s.inserted = [(orderCreated, 2), (orderCreated, 1)] ∧
    ∃ g ∈ log, ∃ g' ∈ log, g.eventId = 2 ∧ g'.eventId = 1 ∧
      (ofTimestamp g.createdAt + keyTTL ≤ g'.applied ∨
        ofTimestamp g'.createdAt + keyTTL ≤ g.applied) := by
  have hcheck : ∀ (a : System × List KeyGrant) (l : Label),
      (cleansAfter keyTTL a.1 l && deletesIndexed a.1 l) = true → respectsLifetime keyTTL a.1 l :=
    fun a l h => by simpa [respectsLifetime] using h
  have hplay : (play (logged System.step System.grants)
      (fun a l => cleansAfter keyTTL a.1 l && deletesIndexed a.1 l) (System.init 5000000, [])
      keyRecreated).any (fun a => decide
        (a.1.inserted = [(orderCreated, 2), (orderCreated, 1)])) = true := by decide
  obtain ⟨⟨s, log⟩, hrun, htest⟩ := Run.exists_of_play hcheck hplay
  have hins : s.inserted = [(orderCreated, 2), (orderCreated, 1)] := of_decide_eq_true htest
  exact ⟨s, log, hins, (key_lives_for_ttl hrun).2 orderCreated orderCreated 2 1 (by simp [hins])
    (by simp [hins]) (by decide) rfl rfl (by decide)⟩

/-- The grant of the order's key to an append that used it at the instant `now`. -/
def orderGrant (id : UUID) (now : Time) : KeyGrant :=
  ⟨"orders", "order-A1001-v1", id, toTimestamp now, now⟩

/-- The first cleanup executes the batch for the key that it had selected. It deletes the
key that the client just created, and another append at the same instant inserts another
event under the same key. -/
theorem stale_cleanup_deletes_new_key : ∃ a b c : System × List KeyGrant,
    Run (logged System.step System.grants) (fun a l => appendsOrCleans a.1 l = true)
      (System.init 5000000, []) a ∧
    (∃ args row rest n keyRow, a.1.callOf 1 = some (.cleanupKeysDelete args row rest n) ∧
      a.1.db.idempotencyKeys ("orders", "order-A1001-v1") = some keyRow ∧
      ¬ofTimestamp keyRow.createdAt < args.idempotencyBefore) ∧
    logged System.step System.grants a (.exec 1 .ok { now := orderExpired }) = some b ∧
    b.1.db.idempotencyKeys ("orders", "order-A1001-v1") = none ∧
    Run (logged System.step System.grants) (fun a l => appendsOrCleans a.1 l = true) b c ∧
    c.1.inserted = [(orderCreated, 3), (orderCreated, 2), (orderCreated, 1)] ∧
    c.2 = [orderGrant 3 orderExpired, orderGrant 2 orderExpired, orderGrant 1 5000000] := by
  have hplay : (play (logged System.step System.grants) (fun a l => appendsOrCleans a.1 l)
      (System.init 5000000, []) keyRecreated).any (fun a =>
        decide (a.1.callOf 1 = some (.cleanupKeysDelete
          ⟨orderExpired - keyTTL, orderExpired - keyTTL, 200⟩
          (toLex (5, toLex ("orders", "order-A1001-v1"))) [] 0)) &&
        decide (a.1.db.idempotencyKeys ("orders", "order-A1001-v1") =
          some ⟨2, sha256Hex "A-1001", 3600006⟩) &&
        (logged System.step System.grants a (.exec 1 .ok { now := orderExpired })).any fun b =>
          (b.1.db.idempotencyKeys ("orders", "order-A1001-v1")).isNone &&
          (play (logged System.step System.grants) (fun a l => appendsOrCleans a.1 l) b
            (.start 4 (.append orderCreated 3) :: execs 4 3 orderExpired)).any fun c =>
              decide (c.1.inserted = [(orderCreated, 3), (orderCreated, 2), (orderCreated, 1)]) &&
              decide (c.2 = [orderGrant 3 orderExpired, orderGrant 2 orderExpired,
                orderGrant 1 5000000])) = true := by decide
  obtain ⟨a, hrun, htest⟩ := Run.exists_of_play (fun _ _ h => h) hplay
  simp only [Bool.and_eq_true, decide_eq_true_eq, Option.any_eq_true] at htest
  obtain ⟨⟨hcall, hkey⟩, b, hstep, hgone, hthird⟩ := htest
  obtain ⟨c, hplay', hinserted, hlog⟩ := hthird
  have hrun' : Run (logged System.step System.grants)
      (fun a l => appendsOrCleans a.1 l = true) b c := Run.of_play (fun _ _ h => h) hplay'
  exact ⟨a, b, c, hrun, ⟨_, _, _, _, _, hcall, hkey, by decide⟩, hstep,
    Option.isNone_iff_eq_none.mp hgone, hrun', hinserted, hlog⟩

end ControlPlane

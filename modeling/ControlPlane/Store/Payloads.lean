import ControlPlane.Store.KeyBacking
import ControlPlane.Store.Retry

/-!
# Payload hashes

The conditional insert of an idempotency key stores a hash of the payload with the key, so
that a request that reuses the key for another payload can be told from a retry. The hash of
a key row is the hash of the event that is inserted for it, in every run. No statement reads
it, so that a driver that delivered the stored row would have a request with another payload
answered as a retry. The documented driver never does: a request whose key is taken gets an
error, and what an append returns is its own event.
-/

namespace ControlPlane

open Transition

/-- The hash of a key row is that of the event inserted under its identifier, and of the event
that a call in progress is about to insert under it. -/
structure System.Hashed (s : System) : Prop where
  drawn : ∀ k row, s.db.idempotencyKeys k = some row → row.eventId ∈ s.generated
  inserted : ∀ k row ev, s.db.idempotencyKeys k = some row → (ev, row.eventId) ∈ s.inserted →
    row.payloadHash = sha256Hex ev.payload
  pending : ∀ k row p c ev, s.db.idempotencyKeys k = some row → s.callOf p = some c →
    c.newID? = some row.eventId → c.event = some ev → row.payloadHash = sha256Hex ev.payload

/-- An append works on one event until it inserts it. -/
theorem Call.Leads.event {env : Env} {db : Store} {c d : Call} {id : UUID}
    (h : Call.Leads env db c d) (hid : d.newID? = some id) : d.event = c.event := by
  cases h with
  | appendIndex => rfl
  | appendBatch => rfl
  | cleanup _ hcleaning => cases d <;> simp [Call.newID?, Call.cleaning] at hid hcleaning
  | _ => cases hid

section Invariant

variable {s : System} {p : ℕ}

theorem System.hashed_init (clock : Time) : (System.init clock).Hashed where
  drawn := by intro k row h; cases h
  inserted := by intro k row ev h; cases h
  pending := by intro k row p c ev h; cases h

/-- The identifier of a new operation is in no key row. -/
theorem System.Hashed.launch (h : s.Hashed) {op : Op} (hfresh : ∀ id ∈ op.draws, id ∉ s.generated) :
    (s.launch p op).Hashed where
  drawn := fun k row hrow => List.mem_append_right _ (h.drawn k row hrow)
  inserted := h.inserted
  pending := by
    intro k row q c ev hrow hc hid hev
    rcases System.callOf_launch_cases hc with ⟨-, rfl⟩ | ⟨-, hc⟩
    · exact absurd (h.drawn k row hrow) (hfresh _ (Op.begin_newID hid))
    · exact h.pending k row q c ev hrow hc hid hev

/-- A statement keeps the hashes: a new key row has the hash of its own call's event, under an
identifier that no other call and no inserted event has. -/
theorem System.Hashed.perform (h : s.Hashed) (ht : s.Traced) {c : Call} {since : Time}
    {report : Report} {env : Env} (hslot : s.slots.get p = some (.running c since)) :
    (s.perform p c report env).Hashed := by
  have hcall := System.callOf_of_running hslot
  constructor
  · intro k row hrow
    rcases Call.effect_idempotencyKeys hrow with hold | ⟨-, ev, newID, rfl, rfl, -⟩
    · exact h.drawn k row hold
    · exact (ht.fresh p _ newID hcall rfl).1
  · intro k row ev hrow hins
    rcases Call.effect_idempotencyKeys hrow with hold | ⟨-, ev', newID, rfl, rfl, -⟩
    · rcases List.mem_append.mp hins with hnew | hins
      · obtain ⟨rfl, -⟩ := Call.mem_inserts hnew
        exact h.pending k row p _ ev hold hcall rfl rfl
      · exact h.inserted k row ev hold hins
    · exact absurd (List.mem_map.mpr ⟨_, hins, rfl⟩) (ht.fresh p _ newID hcall rfl).2
  · intro k row q d ev hrow hd hid hev
    rcases System.callOf_perform_cases hd with ⟨-, hnext⟩ | ⟨hq, hother⟩
    · have hleads := Call.next_leads hnext
      have hcid := (hleads.newID hid).1
      rw [hleads.event hid] at hev
      rcases Call.effect_idempotencyKeys hrow with hold | ⟨-, ev', newID, rfl, rfl, -⟩
      · exact h.pending k row p c ev hold hcall hcid hev
      · cases hev
        rfl
    · rcases Call.effect_idempotencyKeys hrow with hold | ⟨-, ev', newID, rfl, rfl, -⟩
      · exact h.pending k row q d ev hold hother hid hev
      · exact absurd (ht.owner q p d _ newID hother hcall hid rfl) hq

/-- The hashes are right in every state that a run of the store reaches. -/
theorem System.Reachable.hashed {ok : System → Label → Prop} (h : s.Reachable ok) : s.Hashed := by
  refine (h.invariant (I := fun s => s.Traced ∧ s.Hashed) ?_ ?_).2
  · exact fun clock => ⟨System.traced_init clock, System.hashed_init clock⟩
  · rintro a l b ⟨ht, hh⟩ - hstep
    refine ⟨ht.step hstep, ?_⟩
    cases hstep with
    | tick hclock => exact ⟨hh.drawn, hh.inserted, hh.pending⟩
    | start hidle hfresh => exact hh.launch hfresh
    | exec hslot hsince hnow => exact hh.perform ht hslot
    | crash hslot =>
      exact ⟨hh.drawn, hh.inserted, fun k row q d ev hrow hd =>
        hh.pending k row q d ev hrow (System.callOf_of_crash hd).2⟩

end Invariant

/-- A duplicate answers a request with the payload of the stored event: the hash of the request
is the one stored with its key, and the payload is that of the event the key names. -/
def Store.AnswersSame (db : Store) (ev : EventRecord) (r : Result) : Prop :=
  ∀ res, r = .appended res → res.duplicate = true →
    ∃ row event, db.idempotencyKeys (streamOrDefault ev.stream, ev.idempotencyKey) = some row ∧
      row.payloadHash = sha256Hex ev.payload ∧
      db.eventsById row.eventId = some event ∧ event.payload = ev.payload

/-- The key of the request is stored with the hash of another payload, its event is stored as
well, and the driver delivers the stored row to the conditional insert. -/
def Store.Reused (db : Store) (ev : EventRecord) (envs : List Env) : Prop :=
  ∃ row event, db.idempotencyKeys (streamOrDefault ev.stream, ev.idempotencyKey) = some row ∧
    row.payloadHash ≠ sha256Hex ev.payload ∧ db.eventsById row.eventId = some event ∧
    ∃ env ∈ envs.head?, env.scan = .row

section Duplicates

variable {db db' : Store} {ev : EventRecord} {newID : UUID} {now : Time} {envs : List Env}
  {r : Result} {row : KeyRow} {event : EventRow}

/-- An append whose key is free inserts the key, its index row and the event, and returns no
duplicate. -/
theorem Op.append_of_free (hkey : ev.idempotencyKey ≠ "")
    (hnone : db.idempotencyKeys (streamOrDefault ev.stream, ev.idempotencyKey) = none)
    (h : ((Op.append ev newID).begin now).complete envs db = some (db', r)) :
    r = .appended ⟨{ ev.normalize now with id := newID }, false, false⟩ ∧
      ∃ row t, db' = (((db.insertKey (streamOrDefault ev.stream) ev.idempotencyKey row).insertKeyIndex
        t (streamOrDefault ev.stream) ev.idempotencyKey newID).insertEvent (ev.normalize now)
          newID) := by
  have hnone' : db.idempotencyKeys ((ev.normalize now).stream, (ev.normalize now).idempotencyKey) =
      none := hnone
  rw [Op.begin, if_neg hkey] at h
  rcases envs with _ | ⟨e₁, _ | ⟨e₂, _ | ⟨e₃, rest⟩⟩⟩
  all_goals simp only [Call.complete, Call.exec, hnone', reduceCtorEq] at h
  cases h
  exact ⟨rfl, _, _, rfl⟩

/-- An append whose key is taken fails at once, or goes on to look up the stored event. -/
theorem Op.append_taken_cases (hkey : ev.idempotencyKey ≠ "")
    (hrow : db.idempotencyKeys (streamOrDefault ev.stream, ev.idempotencyKey) = some row)
    (h : ((Op.append ev newID).begin now).complete envs db = some (db', r)) :
    ∃ e rest, envs = e :: rest ∧ ((e.scan = .mismatch ∧ db' = db ∧ r = .failed) ∨
      (e.scan = .row ∧ (Call.appendLookup (ev.normalize now) row.eventId).complete rest db =
        some (db', r))) := by
  have hrow' : db.idempotencyKeys ((ev.normalize now).stream, (ev.normalize now).idempotencyKey) =
      some row := hrow
  rw [Op.begin, if_neg hkey] at h
  cases envs with
  | nil => cases h
  | cons e rest =>
    refine ⟨e, rest, rfl, ?_⟩
    cases hscan : e.scan with
    | mismatch =>
      simp only [Call.complete, Call.exec, hrow', hscan] at h
      cases h
      exact Or.inl ⟨rfl, rfl, rfl⟩
    | row =>
      simp only [Call.complete, Call.exec, hrow', hscan] at h
      exact Or.inr ⟨rfl, h⟩

/-- An append whose key is taken returns an event only if it is stored and the driver delivers
the row of the key. -/
theorem Op.append_of_taken {res : AppendResult} (hkey : ev.idempotencyKey ≠ "")
    (hrow : db.idempotencyKeys (streamOrDefault ev.stream, ev.idempotencyKey) = some row)
    (h : ((Op.append ev newID).begin now).complete envs db = some (db', .appended res)) :
    (∃ event, db.eventsById row.eventId = some event) ∧ ∃ env ∈ envs.head?, env.scan = .row := by
  obtain ⟨e, rest, rfl, ⟨-, -, hfailed⟩ | ⟨hscan, hlookup⟩⟩ := Op.append_taken_cases hkey hrow h
  · cases hfailed
  · refine ⟨?_, e, rfl, hscan⟩
    cases rest with
    | nil => cases hlookup
    | cons e₂ rest =>
      cases hevent : db.eventsById row.eventId with
      | some event => exact ⟨event, rfl⟩
      | none =>
        simp only [Call.complete, Call.exec, hevent] at hlookup
        cases hlookup

/-- An append whose key is taken by a stored event returns that event as a duplicate, whatever
its payload. -/
theorem Op.append_duplicate {out : OutboxRow} (hkey : ev.idempotencyKey ≠ "")
    (hrow : db.idempotencyKeys (streamOrDefault ev.stream, ev.idempotencyKey) = some row)
    (hevent : db.eventsById row.eventId = some event)
    (hout : db.outboxEvents row.eventId = some out)
    (hscan : ∃ env ∈ envs.head?, env.scan = .row)
    (h : ((Op.append ev newID).begin now).complete envs db = some (db', r)) :
    ∃ res, r = .appended res ∧ res.duplicate = true ∧ res.event.payload = event.payload := by
  obtain ⟨env, henv, hscan⟩ := hscan
  obtain ⟨e, rest, rfl, ⟨hmismatch, -⟩ | ⟨-, hlookup⟩⟩ := Op.append_taken_cases hkey hrow h
  · cases henv
    rw [hscan] at hmismatch
    cases hmismatch
  · rcases rest with _ | ⟨e₂, _ | ⟨e₃, rest⟩⟩
    all_goals simp only [Call.complete, Call.exec, hevent, hout, reduceCtorEq] at hlookup
    cases hlookup
    exact ⟨_, rfl, rfl, rfl⟩

end Duplicates

/-- For any driver: a request under an idempotency key that is answered as a duplicate has the
payload of the stored event, exactly if its key is not one that is stored with the hash of another
payload. -/
theorem duplicate_same_payload_iff {s : System} {ev : EventRecord} {newID : UUID} {now : Time}
    {envs : List Env} {db' : Store} {r : Result} (h : s.Reachable anyStep)
    (hkey : ev.idempotencyKey ≠ "")
    (hreturns : ((Op.append ev newID).begin now).complete envs s.db = some (db', r)) :
    s.db.AnswersSame ev r ↔ ¬s.db.Reused ev envs := by
  constructor
  · rintro hsame ⟨row, event, hrow, hhash, hevent, hscan⟩
    obtain ⟨ev₀, hins, -⟩ := h.traced.store.byId _ _ hevent
    obtain ⟨-, out, hout⟩ := h.traced.store.present ev₀ _ hins
    obtain ⟨res, rfl, hdup, -⟩ := Op.append_duplicate hkey hrow hevent hout hscan hreturns
    obtain ⟨row', -, hrow', hhash', -⟩ := hsame res rfl hdup
    rw [hrow] at hrow'
    cases hrow'
    exact hhash hhash'
  · rintro hreused res rfl hdup
    cases hrow : s.db.idempotencyKeys (streamOrDefault ev.stream, ev.idempotencyKey) with
    | none =>
      obtain ⟨hnew, -⟩ := Op.append_of_free hkey hrow hreturns
      cases hnew
      cases hdup
    | some row =>
      obtain ⟨⟨event, hevent⟩, hscan⟩ := Op.append_of_taken hkey hrow hreturns
      have hhash : row.payloadHash = sha256Hex ev.payload := by
        by_contra hne
        exact hreused ⟨row, event, hrow, hne, hevent, hscan⟩
      obtain ⟨ev₀, hins, hcontent, -⟩ := h.traced.store.byId _ _ hevent
      have hpayload := (h.hashed.inserted _ row ev₀ hrow hins).symm.trans hhash
      have hstored : ev₀.payload = event.payload :=
        congrArg (fun content : Content => content.payload) hcontent
      exact ⟨row, event, rfl, hhash, hevent, hstored.symm.trans (congrArg Digest.data hpayload)⟩

/-- The statements of an append that finds its key taken. -/
def Call.answersRetry : Call → Bool
  | .appendLookup _ _ | .appendPublished _ _ => true
  | _ => false

/-- With the documented driver no append comes to the branch that answers a retry, and what an
append returned is the event that it was called with. -/
structure System.Unanswered (s : System) : Prop where
  calls : ∀ p c, s.callOf p = some c → c.answersRetry = false
  returned : ∀ ev res, (ev, res) ∈ s.returns →
    res.duplicate = false ∧ res.event.toContent = ev.toContent

section Documented

variable {s : System} {p : ℕ} {c d : Call} {report : Report} {env : Env} {db : Store}

theorem Op.begin_answersRetry (op : Op) (now : Time) : (op.begin now).answersRetry = false := by
  cases op with
  | append ev newID =>
    rw [Op.begin]
    split_ifs <;> rfl
  | _ => rfl

/-- The conditional insert of a key that is taken fails, as its scan does. -/
theorem Call.next_answersRetry (hc : c.answersRetry = false)
    (hscan : ∀ scan, c.casScan = some scan → env.scan = scan)
    (hnext : c.next report env db = .call d) : d.answersRetry = false := by
  cases Call.next_leads hnext with
  | appendLookup hrow =>
    have hmismatch : env.scan = .mismatch := hscan _ rfl
    unfold Call.next at hnext
    split_ifs at hnext
    · simp [Call.exec, hrow, hmismatch] at hnext
    · cases hnext
  | appendPublished => cases hc
  | cleanup _ hcleaning => cases d <;> simp [Call.cleaning] at hcleaning <;> rfl
  | _ => rfl

/-- A statement answers no retry. -/
theorem System.Unanswered.perform (h : s.Unanswered) (hcall : s.callOf p = some c)
    (hscan : ∀ scan, c.casScan = some scan → env.scan = scan) :
    (s.perform p c report env).Unanswered where
  calls := by
    intro q d hd
    rcases System.callOf_perform_cases hd with ⟨-, hnext⟩ | ⟨-, hother⟩
    · exact Call.next_answersRetry (h.calls p c hcall) hscan hnext
    · exact h.calls q d hother
  returned := by
    intro ev res hres
    rcases List.mem_append.mp hres with hnew | hres
    · rcases Call.mem_reports hnew with ⟨newID, rfl, -, rfl⟩ | ⟨existing, published, rfl, -⟩
      · exact ⟨rfl, rfl⟩
      · cases h.calls p _ hcall
    · exact h.returned ev res hres

theorem System.Reachable.unanswered (h : s.Reachable fun s l => documentedScan s l = true) :
    s.Unanswered := by
  refine h.invariant (fun clock => ⟨fun p c hc => ?_, fun ev res hres => ?_⟩) ?_
  · cases hc
  · cases hres
  · intro a l b ha hscan hstep
    cases hstep with
    | tick hclock => exact ⟨ha.calls, ha.returned⟩
    | start hidle hfresh =>
      refine ⟨fun q d hd => ?_, ha.returned⟩
      rcases System.callOf_launch_cases hd with ⟨-, rfl⟩ | ⟨-, hother⟩
      · exact Op.begin_answersRetry _ _
      · exact ha.calls q d hother
    | exec hslot hsince hnow =>
      have hcall := System.callOf_of_running hslot
      refine ha.perform hcall fun scan hcas => ?_
      simpa [documentedScan, hcall, hcas] using hscan
    | crash hslot =>
      exact ⟨fun q d hd => ha.calls q d (System.callOf_of_crash hd).2, ha.returned⟩

end Documented

/-- **No payload is swallowed.** With the documented driver, in any interleaving, an append that
has returned without an error has its own payload stored under the identifier that it returned, and
it is answered as a duplicate only with the payload and the hash that are stored with its key. A
request under a key that is taken, whatever its payload, gets an error and changes nothing. -/
theorem payload_not_swallowed {s : System} (h : s.Reachable fun s l => documentedScan s l = true) :
    (∀ ev res, (ev, res) ∈ s.returns → s.db.AnswersSame ev (.appended res) ∧
      ∃ event, s.db.eventsById res.event.id = some event ∧ event.payload = ev.payload) ∧
    ∀ (ev : EventRecord) (newID : UUID) (now : Time) (env : Env) (envs : List Env) (db' : Store)
      (r : Result), ev.idempotencyKey ≠ "" →
      ((Op.append ev newID).begin now).casScan = some env.scan →
      ((Op.append ev newID).begin now).complete (env :: envs) s.db = some (db', r) →
      s.db.AnswersSame ev r ∧ ∀ row, s.db.idempotencyKeys
        (streamOrDefault ev.stream, ev.idempotencyKey) = some row → db' = s.db ∧ r = .failed := by
  have hany : s.Reachable anyStep := by
    obtain ⟨clock, hrun⟩ := h
    exact ⟨clock, hrun.any⟩
  refine ⟨fun ev res hres => ?_, fun ev newID now env envs db' r hkey hscan hreturns => ?_⟩
  · obtain ⟨hnew, hcontent⟩ := h.unanswered.returned ev res hres
    obtain ⟨⟨event, hevent, hstored, -⟩, -⟩ := hany.traced.stored_of_returned hres
    refine ⟨?_, event, hevent, ?_⟩
    · rintro res' hres' hdup
      cases hres'
      rw [hnew] at hdup
      cases hdup
    · exact congrArg (fun content : Content => content.payload) (hstored.trans hcontent)
  · have hmismatch : env.scan = .mismatch := by
      rw [Op.begin, if_neg hkey] at hscan
      exact (Option.some.inj hscan).symm
    refine ⟨(duplicate_same_payload_iff hany hkey hreturns).mpr ?_, fun row hrow => ?_⟩
    · rintro ⟨-, -, -, -, -, env', henv', hdelivered⟩
      cases henv'
      rw [hmismatch] at hdelivered
      cases hdelivered
    · obtain ⟨e, rest, heq, ⟨-, hdb, hfailed⟩ | ⟨hdelivered, -⟩⟩ :=
        Op.append_taken_cases hkey hrow hreturns
      · exact ⟨hdb, hfailed⟩
      · cases heq
        rw [hmismatch] at hdelivered
        cases hdelivered

/-- The order of the first request, with another payload. -/
def orderChanged : EventRecord := { orderCreated with payload := "A-1002" }

/-- The first order is stored; a request under its key with another payload gets an error. -/
theorem payload_not_swallowed_orders : ∃ (s : System) (event : EventRow),
    s.Reachable (fun s l => documentedScan s l = true) ∧
    (orderCreated, orderResult) ∈ s.returns ∧
    s.db.eventsById 1 = some event ∧ event.payload = "A-1001" ∧
    ((Op.append orderChanged 2).begin 6000000).complete [⟨6000000, 0, .mismatch⟩] s.db =
      some (s.db, .failed) := by
  obtain ⟨s, hs, htest⟩ := System.Reachable.of_play (fun s l => documentedScan s l = true)
    documentedScan (fun _ _ h => h) 5000000 orderAppended
    (fun s => decide (s.returns = [(orderCreated, orderResult)]) &&
      decide (s.db.idempotencyKeys ("orders", "order-A1001-v1") =
        some ⟨1, sha256Hex "A-1001", 5⟩) &&
      (((Op.append orderChanged 2).begin 6000000).complete [⟨6000000, 0, .mismatch⟩] s.db).isSome)
    (by decide)
  simp only [Bool.and_eq_true, decide_eq_true_eq] at htest
  obtain ⟨⟨hreturned, hrow⟩, hreturns⟩ := htest
  have hmem : (orderCreated, orderResult) ∈ s.returns := by simp [hreturned]
  obtain ⟨-, event, hevent, hpayload⟩ := (payload_not_swallowed hs).1 _ _ hmem
  obtain ⟨⟨db', r⟩, hcomplete⟩ := Option.isSome_iff_exists.mp hreturns
  obtain ⟨-, hfails⟩ := (payload_not_swallowed hs).2 orderChanged 2 6000000 _ _ db' r (by decide)
    rfl hcomplete
  obtain ⟨rfl, rfl⟩ := hfails _ hrow
  exact ⟨s, event, hs, hmem, hevent, hpayload, hcomplete⟩

end ControlPlane

import ControlPlane.Store.Idempotency

/-!
# Idempotency keys without an event

The key row is committed before the event that it names, in a statement of its
own. An append that ends between the two leaves a key that no retry gets past.
This file proves that nothing else does: as long as no append is cut short there,
every key is backed by a stored event whenever no append is in flight.
-/

namespace ControlPlane

open Transition

/-- No append is between its first and its last statement. -/
def System.NoAppend (s : System) : Prop := ∀ p c, s.callOf p = some c → c.event = none

/-- Every idempotency key refers to an event that is present in `events_by_id` and
in `outbox_events`. -/
def Store.KeysBacked (db : Store) : Prop :=
  ∀ k row, db.idempotencyKeys k = some row →
    (∃ event, db.eventsById row.eventId = some event) ∧
    ∃ outbox, db.outboxEvents row.eventId = some outbox

/-- A keyed append executed alone, whose statements all succeed, returns an event. -/
def Store.RetriesReturn (db : Store) : Prop :=
  ∀ (ev : EventRecord) (newID : UUID) (now : Time) (envs : List Env), ev.idempotencyKey ≠ "" →
    3 ≤ envs.length → (∀ env ∈ envs, env.scan = .row) →
    ∃ db' res, ((Op.append ev newID).begin now).complete envs db = some (db', .appended res)

/-- The call has inserted its idempotency key and not yet its event. -/
def Call.holdsKey : Call → Bool
  | .appendIndex _ _ => true
  | .appendBatch ev _ => decide (ev.idempotencyKey ≠ "")
  | _ => false

/-- The step does not end an append between the insertion of its key and the
insertion of its event: no failure, no lost acknowledgement and no crash there. -/
def finishesAppends (s : System) : Label → Bool
  | .exec p report _ =>
      match s.callOf p with
      | some (.appendKey ev _) =>
          (s.db.idempotencyKeys (ev.stream, ev.idempotencyKey)).isSome || decide (report ≠ .lost)
      | some (.appendIndex _ _) => decide (report = .ok)
      | some (.appendBatch ev _) => decide (ev.idempotencyKey = "") || decide (report ≠ .refused)
      | _ => true
  | .crash p => (s.callOf p).all fun c => !c.holdsKey
  | _ => true

/-- The keyed statements of an append belong to an event with a key. -/
def Call.HasKey : Call → Prop
  | .appendKey ev _ | .appendIndex ev _ => ev.idempotencyKey ≠ ""
  | _ => True

/-- Every key names an inserted event or belongs to a call that will insert it. -/
structure System.KeysOwned (s : System) : Prop where
  hasKey : ∀ p c, s.callOf p = some c → c.HasKey
  owned : ∀ k row, s.db.idempotencyKeys k = some row → row.eventId ∈ s.inserted.map Prod.snd ∨
    ∃ p c, s.callOf p = some c ∧ c.holdsKey = true ∧ c.newID? = some row.eventId

/-- A key row in place after a statement was there before or was just inserted. -/
theorem Call.Mutation.idempotencyKeys_cases {env : Env} {db db' : Store} {c : Call}
    {k : String × String} {row : KeyRow} (hm : Call.Mutation env db c db')
    (hrow : db'.idempotencyKeys k = some row) : db.idempotencyKeys k = some row ∨
      ∃ ev newID, c = .appendKey ev newID ∧
        row = ⟨newID, sha256Hex ev.payload, toTimestamp env.now⟩ ∧
        db.idempotencyKeys (ev.stream, ev.idempotencyKey) = none := by
  cases hm with
  | insertKey hnone =>
    rename_i ev newID
    rcases update_some_cases hrow with ⟨-, hnew⟩ | ⟨-, hold⟩
    · exact Or.inr ⟨ev, newID, rfl, hnew, hnone⟩
    · exact Or.inl hold
  | deleteKey => exact Or.inl (update_none_cases hrow).2
  | _ => exact Or.inl hrow

/-- The same for the effect of a statement, under any report of the driver. -/
theorem Call.effect_idempotencyKeys {report : Report} {env : Env} {db : Store} {c : Call}
    {k : String × String} {row : KeyRow}
    (hrow : (c.effect report env db).idempotencyKeys k = some row) :
    db.idempotencyKeys k = some row ∨ (report ≠ .refused ∧ ∃ ev newID, c = .appendKey ev newID ∧
      row = ⟨newID, sha256Hex ev.payload, toTimestamp env.now⟩ ∧
      db.idempotencyKeys (ev.stream, ev.idempotencyKey) = none) := by
  rcases c.effect_mutation report env db with ⟨-, heq⟩ | ⟨hreport, hm⟩
  · rw [heq] at hrow
    exact Or.inl hrow
  · exact (hm.idempotencyKeys_cases hrow).imp_right fun hnew => ⟨hreport, hnew⟩

theorem Call.Leads.hasKey {env : Env} {db : Store} {c d : Call} (h : Call.Leads env db c d)
    (hc : c.HasKey) : d.HasKey := by
  cases h with
  | appendIndex => exact hc
  | cleanup _ hcleaning => cases d <;> trivial
  | _ => trivial

/-- A call that holds a key and is not cut short either inserts its event or goes
on holding the key. -/
theorem Call.holdsKey_next {s : System} {p : ℕ} {c : Call} {report : Report} {env : Env} {id : UUID}
    (hcall : s.callOf p = some c) (hkey : c.HasKey) (hheld : c.holdsKey = true)
    (hid : c.newID? = some id) (hok : finishesAppends s (.exec p report env) = true) :
    id ∈ (c.inserts report).map Prod.snd ∨
      ∃ d, c.next report env s.db = .call d ∧ d.holdsKey = true ∧ d.newID? = some id := by
  simp only [finishesAppends, hcall] at hok
  cases c with
  | appendIndex ev newID =>
    have hreport : report = .ok := of_decide_eq_true hok
    subst hreport
    exact Or.inr ⟨.appendBatch ev newID, rfl, decide_eq_true hkey, hid⟩
  | appendBatch ev newID =>
    have hreport : report ≠ .refused := by
      simpa [of_decide_eq_true hheld] using hok
    left
    rw [Call.inserts_of_ne_refused hreport]
    simpa [Call.inserts, Call.newID?, eq_comm] using hid
  | _ => cases hheld

/-- Executing a statement keeps every key owned, unless it cuts an append short. -/
theorem System.KeysOwned.perform {s : System} (h : s.KeysOwned) {p : ℕ} {c : Call} {since : Time}
    {report : Report} {env : Env} (hslot : s.slots.get p = some (.running c since))
    (hok : finishesAppends s (.exec p report env) = true) : (s.perform p c report env).KeysOwned := by
  have hcall := System.callOf_of_running hslot
  have hkey := h.hasKey p c hcall
  constructor
  · intro q d hd
    rcases System.callOf_perform_cases hd with ⟨-, hd⟩ | ⟨-, hd⟩
    · exact (Call.next_leads hd).hasKey hkey
    · exact h.hasKey q d hd
  · intro k row hrow
    rcases Call.effect_idempotencyKeys hrow with hold | ⟨hreport, ev, newID, rfl, rfl, hnone⟩
    · rcases h.owned k row hold with hins | hduty
      · left
        simp only [System.perform, List.map_append, List.mem_append]
        exact Or.inr hins
      · refine (System.duty_perform hcall hduty fun hheld =>
          Call.holdsKey_next hcall hkey hheld.1 hheld.2 hok).imp_left ?_
        intro hins
        simp only [System.perform, List.map_append, List.mem_append]
        exact Or.inl hins
    · right
      have hlost : report ≠ .lost := by
        simpa [finishesAppends, hcall, hnone] using hok
      have hnext : (Call.appendKey ev newID).next report env s.db =
          .call (.appendIndex ev newID) := by
        simp [Call.next, Report.eq_ok hlost hreport, Call.exec, hnone]
      exact ⟨p, _, System.callOf_perform_next hnext, rfl, rfl⟩

/-- Every key stays owned in a run that cuts no append short. -/
theorem System.Reachable.keysOwned {s : System} (h : s.Reachable fun s l => finishesAppends s l) :
    s.KeysOwned := by
  refine h.invariant ?_ ?_
  · intro clock
    constructor
    · exact fun p c hc => by cases hc
    · exact fun k row hrow => by cases hrow
  · intro a l b ha hok hstep
    cases hstep with
    | tick hclock => exact ⟨ha.hasKey, ha.owned⟩
    | start hidle hfresh =>
      rename_i p op
      constructor
      · intro q c hc
        rcases System.callOf_launch_cases hc with ⟨-, rfl⟩ | ⟨-, hc⟩
        · cases op with
          | append ev newID =>
            simp only [Op.begin]
            split_ifs with hkey
            · trivial
            · exact hkey
          | _ => trivial
        · exact ha.hasKey q c hc
      · exact fun k row hrow => (ha.owned k row hrow).imp_right (System.duty_launch hidle)
    | exec hslot hsince hnow => exact ha.perform hslot hok
    | crash hslot =>
      rename_i p c since
      refine ⟨fun q d hd => ha.hasKey q d (System.callOf_of_crash hd).2, ?_⟩
      intro k row hrow
      rcases ha.owned k row hrow with hins | hduty
      · exact Or.inl hins
      · refine System.duty_crash hduty fun d hd hheld => absurd hok ?_
        simp [finishesAppends, hd, hheld.1]

/-- When every key is backed by an event, a keyed append returns one. -/
theorem Store.KeysBacked.retriesReturn {db : Store} (h : db.KeysBacked) : db.RetriesReturn := by
  intro ev newID now envs hkey hlength hscan
  match envs, hlength, hscan with
  | e₁ :: e₂ :: e₃ :: rest, _, hscan =>
    have hscan₁ : e₁.scan = .row := hscan e₁ (by simp)
    have hkey' : (ev.normalize now).idempotencyKey = ev.idempotencyKey := rfl
    rw [Op.begin, if_neg hkey]
    cases hrow : db.idempotencyKeys ((ev.normalize now).stream, ev.idempotencyKey) with
    | none => simp [Call.complete, Call.exec, hkey', hrow]
    | some row =>
      obtain ⟨⟨event, hevent⟩, outbox, houtbox⟩ := h _ row hrow
      simp [Call.complete, Call.exec, hkey', hrow, hscan₁, hevent, houtbox]

/-- **Idempotency keys are not poisoned by completed appends.** In every run that
ends no append between its key and its event, whenever no append is in flight
every key refers to a stored event, and a retry returns an event. -/
theorem keys_backed_of_finished_appends {s : System} (h : s.Reachable fun s l => finishesAppends s l)
    (hidle : s.NoAppend) : s.db.KeysBacked ∧ s.db.RetriesReturn := by
  have hbacked : s.db.KeysBacked := by
    intro k row hrow
    rcases h.keysOwned.owned k row hrow with hins | ⟨p, c, hc, hheld, -⟩
    · obtain ⟨⟨ev, id⟩, hev, rfl⟩ := List.mem_map.mp hins
      exact h.traced.store.present ev _ hev
    · have hevent := hidle p c hc
      cases c with
      | appendIndex ev newID => cases hevent
      | appendBatch ev newID => cases hevent
      | _ => cases hheld
  exact ⟨hbacked, hbacked.retriesReturn⟩

/-- An append that fails before its key insert and is retried returns its event. -/
theorem keys_backed_of_finished_appends_orders : ∃ s : System,
    (s.Reachable fun s l => finishesAppends s l) ∧ s.NoAppend ∧
    (∃ row, s.db.idempotencyKeys ("orders", "order-A1001-v1") = some row) ∧
    s.db.KeysBacked ∧ s.db.RetriesReturn := by
  obtain ⟨s, hs, htest⟩ := System.Reachable.of_play (fun s l => finishesAppends s l)
    finishesAppends (fun _ _ h => h) 5000000
    (.start 0 (.append orderCreated 1) :: .exec 0 .refused ⟨5000000, 0, .row⟩ ::
      .start 1 (.append orderCreated 2) :: execs 1 3 5000000)
    (fun s => s.slots.rows.all (fun row => row.2.idle) &&
      (s.db.idempotencyKeys ("orders", "order-A1001-v1")).isSome) (by decide)
  rw [Bool.and_eq_true] at htest
  have hidle : s.NoAppend := fun p c hc => by
    rw [s.quiescent_of_slots htest.1 p] at hc
    cases hc
  exact ⟨s, hs, hidle, Option.isSome_iff_exists.mp htest.2, keys_backed_of_finished_appends hs hidle⟩

/-- The steps of runs that consist of appends alone. -/
def appendsOnly (_ : System) : Label → Bool
  | .start _ (.append _ _) => true
  | .start _ _ => false
  | _ => true

/-- A key whose event is missing makes every retry under it fail: the conditional
insert does not apply, and the event is not found. -/
theorem Store.retry_fails {db : Store} {ev : EventRecord} {newID : UUID} {now : Time}
    {row : KeyRow} {e₁ e₂ : Env} {rest : List Env} (hkey : ev.idempotencyKey ≠ "")
    (hrow : db.idempotencyKeys (streamOrDefault ev.stream, ev.idempotencyKey) = some row)
    (hnone : db.eventsById row.eventId = none) (hscan : e₁.scan = .row) :
    ((Op.append ev newID).begin now).complete (e₁ :: e₂ :: rest) db = some (db, .failed) := by
  have hrow' : db.idempotencyKeys ((ev.normalize now).stream, (ev.normalize now).idempotencyKey) =
      some row := hrow
  rw [Op.begin, if_neg hkey]
  simp [Call.complete, Call.exec, hrow', hscan, hnone]

/-- A node crashes right after inserting a key. The key is left without an event,
and every retry under it fails because the event is not found. -/
theorem crashed_append_poisons_key : ∃ s : System, (s.Reachable fun s l => appendsOnly s l) ∧
    s.Quiescent ∧ ¬s.db.KeysBacked ∧
    ((Op.append orderCreated 2).begin 6000000).complete (List.replicate 3 { now := 6000000 }) s.db =
      some (s.db, .failed) ∧ ¬s.db.RetriesReturn := by
  obtain ⟨s, hs, htest⟩ := System.Reachable.of_play (fun s l => appendsOnly s l)
    appendsOnly (fun _ _ h => h) 5000000
    [.start 0 (.append orderCreated 1), .exec 0 .ok ⟨5000000, 0, .row⟩, .crash 0]
    (fun s => s.slots.rows.all (fun row => row.2.idle) &&
      decide (s.db.idempotencyKeys ("orders", "order-A1001-v1") =
        some ⟨1, sha256Hex "A-1001", 5⟩) && (s.db.eventsById 1).isNone) (by decide)
  simp only [Bool.and_eq_true, decide_eq_true_eq, Option.isNone_iff_eq_none] at htest
  obtain ⟨⟨hslots, hkey⟩, hnone⟩ := htest
  have hretry : ((Op.append orderCreated 2).begin 6000000).complete
      (List.replicate 3 { now := 6000000 }) s.db = some (s.db, .failed) :=
    Store.retry_fails (by decide) hkey hnone rfl
  refine ⟨s, hs, s.quiescent_of_slots hslots, ?_, hretry, ?_⟩
  · intro hbacked
    obtain ⟨⟨event, hevent⟩, -⟩ := hbacked _ _ hkey
    rw [hnone] at hevent
    cases hevent
  · intro hreturn
    obtain ⟨db', res, hres⟩ := hreturn orderCreated 2 6000000
      (List.replicate 3 { now := 6000000 }) (by decide) (by decide) (by decide)
    rw [hretry] at hres
    cases hres

end ControlPlane

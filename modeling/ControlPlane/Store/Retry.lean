import ControlPlane.Store.Idempotency

/-!
# Retries under an idempotency key

A retried append finds its key taken and has to return the event of the first call.
Whether it gets that far is decided by the driver: a conditional insert that was not
applied returns `[applied]` and then every column of the table, and `ScanCAS` fails
unless it was given one destination for each column. The append gives it one
destination for the five columns of `idempotency_keys`.
-/

namespace ControlPlane

open Transition

/-- How `ScanCAS` reports the row of a conditional insert that was not applied. It adds
a destination for the column `[applied]`, which precedes the columns of the table. -/
def scanCAS (destinations : ℕ) (columns : List String) : CasScan :=
  if destinations + 1 = ("[applied]" :: columns).length then .row else .mismatch

/-- The columns of `idempotency_keys`. -/
def idempotencyKeysColumns : List String :=
  ["stream", "idempotency_key", "event_id", "payload_hash", "created_at"]

/-- The columns of `inbox_consumed`. -/
def inboxConsumedColumns : List String := ["consumer", "message_id", "consumed_at"]

/-- What the driver reports to a conditional insert that was not applied:
`ScanCAS(&existingID)` for an idempotency key, `ScanCAS(&consumedAt)` for an inbox
message. -/
def Call.casScan : Call → Option CasScan
  | .appendKey _ _ => some (scanCAS 1 idempotencyKeysColumns)
  | .inboxInsert _ _ => some (scanCAS 1 inboxConsumedColumns)
  | _ => none

/-- The step respects the documented behaviour of `ScanCAS`. -/
def documentedScan (s : System) : Label → Bool
  | .exec p _ env => (s.callOf p).all fun c => c.casScan.all fun scan => decide (env.scan = scan)
  | _ => true

/-- The publish state of the event in `outbox_events`, if it is there. -/
def Store.publishState? (db : Store) (id : UUID) : Option PublishState :=
  (db.outboxEvents id).map fun row => row.publishState

/-- The step does not let `CleanupExpired` delete the key row of this stream and key. -/
def sparesKey (stream key : String) (s : System) : Label → Bool
  | .exec p report _ =>
      match s.callOf p with
      | some (.cleanupKeysDelete _ row _ _) =>
          decide (report = .refused) || decide (ofLex (ofLex row).2 ≠ (stream, key))
      | _ => true
  | _ => true

/-- A key row stays in place as long as `CleanupExpired` does not delete it. -/
theorem Store.KeyNames.step {s s' : System} {l : Label} {ev : EventRecord} {id : UUID}
    (h : s.db.KeyNames ev id) (hspares : sparesKey ev.stream ev.idempotencyKey s l = true)
    (hstep : s.Steps l s') : s'.db.KeyNames ev id := by
  cases hstep with
  | tick hclock => exact h
  | start hidle hfresh => exact h
  | crash hslot => exact h
  | exec hslot hsince hnow =>
    rename_i p report env c since
    refine Call.effect_keeps (P := fun db => db.KeyNames ev id) h ?_
    intro hreport db' hm
    obtain ⟨row, hrow, hid⟩ := h
    cases hm with
    | insertKey hnone =>
      have hne : (ev.stream, ev.idempotencyKey) ≠ _ := fun heq => by
        rw [heq, hnone] at hrow
        cases hrow
      exact ⟨row, by simpa [Store.insertKey, Function.update_of_ne hne] using hrow, hid⟩
    | deleteKey =>
      rename_i args key rest deleted
      simp only [sparesKey, System.callOf_of_running hslot, Bool.or_eq_true,
        decide_eq_true_eq] at hspares
      have hne : (ev.stream, ev.idempotencyKey) ≠ ofLex (ofLex key).2 :=
        (hspares.resolve_left hreport).symm
      exact ⟨row, by simpa [Store.deleteKey, Function.update_of_ne hne] using hrow, hid⟩
    | _ => exact ⟨row, hrow, hid⟩

section Retry

variable {s : System} {ev retry : EventRecord} {res : AppendResult} {newID : UUID} {now : Time}

/-- A returned event is stored with the columns of the first call's event. -/
theorem System.Traced.stored_of_returned (h : s.Traced) (hreturned : (ev, res) ∈ s.returns) :
    (∃ row, s.db.eventsById res.event.id = some row ∧ row.toContent = res.event.toContent ∧
      row.occurredAt = toTimestamp res.event.occurredAt) ∧
    ∃ out, s.db.outboxEvents res.event.id = some out := by
  have hevent := h.returned ev res hreturned
  obtain ⟨ev₀, hins, -⟩ := id hevent
  obtain ⟨⟨row, hrow⟩, hout⟩ := h.store.present ev₀ _ hins
  exact ⟨⟨row, hrow, Recorded.unique h.nodup (h.store.byId _ row hrow) hevent⟩, hout⟩

/-- A retry starts with the conditional insert of the key of the first call. -/
theorem Op.begin_retry (hkey : ev.idempotencyKey ≠ "")
    (hretry : retry.idempotencyKey = ev.idempotencyKey) :
    (Op.append retry newID).begin now = .appendKey (retry.normalize now) newID := by
  rw [Op.begin, if_neg (hretry ▸ hkey)]

/-- What the first statement of a retry does while the key of the first call is in place. -/
theorem Call.exec_retry (hkept : s.db.KeyNames ev res.event.id)
    (hstream : streamOrDefault retry.stream = ev.stream)
    (hretry : retry.idempotencyKey = ev.idempotencyKey) (env : Env) :
    (Call.appendKey (retry.normalize now) newID).exec env s.db = (s.db, match env.scan with
      | .mismatch => .done .failed
      | .row => .call (.appendLookup (retry.normalize now) res.event.id)) := by
  obtain ⟨row, hrow, hid⟩ := hkept
  have hrow' : s.db.idempotencyKeys
      ((retry.normalize now).stream, (retry.normalize now).idempotencyKey) = some row := by
    rw [← hrow, ← hretry, ← hstream]
    rfl
  cases hscan : env.scan <;> simp [Call.exec, hrow', hscan, hid]

/-- The retry returns the first call's event as a duplicate, with its publication state,
and changes no table. -/
def Store.AnswersRetry (db : Store) (first retry : EventRecord) (newID : UUID) (now : Time)
    (envs : List Env) : Prop :=
  ∃ res, ((Op.append retry newID).begin now).complete envs db = some (db, .appended res) ∧
    res.duplicate = true ∧ res.event.id = first.id ∧ res.event.toContent = first.toContent ∧
    res.event.occurredAt = first.occurredAt ∧ res.event.idempotencyKey = first.idempotencyKey ∧
    res.published = decide (db.publishState? first.id = some .published)

end Retry

/-- **No retry is answered.** An append under a key returned an event, and the key row that
names the event was not deleted since. An append with the same stream and key, executed
alone against the documented driver, fails at its first statement, although the event is
still stored. -/
theorem retry_never_answered {s₀ s : System} {ev retry : EventRecord} {res : AppendResult}
    {newID : UUID} {now : Time} (h : s₀.Reachable fun s l => documentedScan s l = true)
    (hnamed : s₀.db.KeyNames ev res.event.id)
    (hrun : Run System.step (fun s l => documentedScan s l = true ∧
      sparesKey ev.stream ev.idempotencyKey s l = true) s₀ s)
    (hreturned : (ev, res) ∈ s.returns) (hkey : ev.idempotencyKey ≠ "")
    (hstream : streamOrDefault retry.stream = ev.stream)
    (hretry : retry.idempotencyKey = ev.idempotencyKey) {env : Env} {envs : List Env}
    (hscan : ((Op.append retry newID).begin now).casScan = some env.scan) :
    ((Op.append retry newID).begin now).complete (env :: envs) s.db = some (s.db, .failed) ∧
      ¬s.db.AnswersRetry res.event retry newID now (env :: envs) ∧
      ∃ row, s.db.eventsById res.event.id = some row ∧ row.toContent = res.event.toContent := by
  have hkept : s.db.KeyNames ev res.event.id := by
    refine hrun.invariant (I := fun s => s.db.KeyNames ev res.event.id) hnamed ?_
    intro a l b ha hok hab
    exact ha.step hok.2 (System.step_cases hab)
  have hfailed : ((Op.append retry newID).begin now).complete (env :: envs) s.db =
      some (s.db, .failed) := by
    rw [Op.begin_retry hkey hretry] at hscan ⊢
    have hmismatch : env.scan = .mismatch := (Option.some.inj hscan).symm
    simp only [Call.complete, Call.exec_retry hkept hstream hretry, hmismatch]
  refine ⟨hfailed, ?_, ?_⟩
  · rintro ⟨res', hres', -⟩
    rw [hfailed] at hres'
    cases hres'
  · obtain ⟨clock, hrun₀⟩ := h
    have hreach : s.Reachable anyStep := ⟨clock, hrun₀.any.trans hrun.any⟩
    obtain ⟨⟨row, hrow, hcontent, -⟩, -⟩ := hreach.traced.stored_of_returned hreturned
    exact ⟨row, hrow, hcontent⟩

/-- A client appends an order. The driver acknowledges the three statements. -/
def orderAppended : List Label :=
  .start 0 (.append orderCreated 1) :: List.replicate 3 (.exec 0 .ok ⟨5000000, 0, .mismatch⟩)

/-- What the client of the first append got back. -/
def orderResult : AppendResult := ⟨{ orderCreated with id := 1 }, false, false⟩

/-- The steps that mark the order as published. -/
def orderMarked : List Label :=
  .start 1 (.mark 1 "SHIRO_EVENTS:1") :: List.replicate 2 (.exec 1 .ok { now := 5000000 })

/-- The order is appended and marked as published, and the append is retried. -/
theorem retry_never_answered_orders : ∃ s : System,
    (orderCreated, orderResult) ∈ s.returns ∧ s.db.publishState? 1 = some .published ∧
    ((Op.append orderCreated 2).begin 6000000).complete [⟨6000000, 0, .mismatch⟩] s.db =
      some (s.db, .failed) := by
  obtain ⟨s₀, hs₀, htest⟩ := System.Reachable.of_play (fun s l => documentedScan s l = true)
    documentedScan (fun _ _ h => h) 5000000 orderAppended
    (fun s₀ => decide (s₀.db.idempotencyKeys ("orders", "order-A1001-v1") =
        some ⟨1, sha256Hex "A-1001", 5⟩) &&
      (play System.step (fun s l => documentedScan s l && sparesKey "orders" "order-A1001-v1" s l)
        s₀ orderMarked).any fun s : System => decide (s.returns = [(orderCreated, orderResult)]) &&
          decide (s.db.publishState? 1 = some .published)) (by decide)
  rw [Bool.and_eq_true, decide_eq_true_eq] at htest
  have hcheck : ∀ (s : System) (l : Label),
      (documentedScan s l && sparesKey "orders" "order-A1001-v1" s l) = true →
      documentedScan s l = true ∧ sparesKey "orders" "order-A1001-v1" s l = true :=
    fun _ _ h => by simpa using h
  obtain ⟨s, hrun, htest'⟩ := Run.exists_of_play hcheck htest.2
  simp only [Bool.and_eq_true, decide_eq_true_eq] at htest'
  have hreturned : (orderCreated, orderResult) ∈ s.returns := by simp [htest'.1]
  have hnamed : s₀.db.KeyNames orderCreated orderResult.event.id := ⟨_, htest.1, rfl⟩
  exact ⟨s, hreturned, htest'.2,
    (retry_never_answered hs₀ hnamed hrun hreturned (by decide) rfl rfl rfl).1⟩

/-- The client that appended the order repeats its request. It gets an error instead of
the order. -/
theorem repeated_append_fails : ∃ s : System,
    s.Reachable (fun s l => documentedScan s l = true ∧ withoutCleanup s l) ∧ s.Quiescent ∧
    (orderCreated, orderResult) ∈ s.returns ∧
    ((Op.append orderCreated 2).begin 6000000).complete
      (List.replicate 3 ⟨6000000, 0, .mismatch⟩) s.db = some (s.db, .failed) := by
  obtain ⟨s, hs, htest⟩ := System.Reachable.of_play
    (fun s l => documentedScan s l = true ∧ withoutCleanup s l)
    (fun s l => documentedScan s l && !l.startsCleanup)
    (fun _ _ h => by simpa [withoutCleanup] using h) 5000000 orderAppended
    (fun s => s.slots.rows.all (fun row => row.2.idle) &&
      decide (s.returns = [(orderCreated, orderResult)]) &&
      decide (s.db.idempotencyKeys ("orders", "order-A1001-v1") =
        some ⟨1, sha256Hex "A-1001", 5⟩)) (by decide)
  simp only [Bool.and_eq_true, decide_eq_true_eq] at htest
  obtain ⟨⟨hslots, hreturns⟩, hkey⟩ := htest
  refine ⟨s, hs, s.quiescent_of_slots hslots, by simp [hreturns], ?_⟩
  have hnames : s.db.KeyNames orderCreated orderResult.event.id := ⟨_, hkey, rfl⟩
  have hbegin : (Op.append orderCreated 2).begin 6000000 =
      .appendKey (orderCreated.normalize 6000000) 2 := Op.begin_retry (by decide) rfl
  rw [hbegin, List.replicate_succ, Call.complete, Call.exec_retry hnames rfl rfl]

end ControlPlane

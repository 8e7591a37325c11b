import ControlPlane.Store.RelayScan

/-!
# Quarantine and replay

`RecordOutboxFailure` copies a quarantined event from its outbox row into the two dead-letter
tables, under the time of the failure, and `ReplayDeadLetter` writes it back from there, with
the time it occurred read from the outbox row once more. The two undo each other: every table
but the retry states is as before, and the retry state lets the relay take the event again.
-/

namespace ControlPlane

open Transition

section Replay

variable {db : Store} {id : UUID} {row : OutboxRow} {letter : DeadLetter} {quarantinedAt : Timestamp}

/-- The retry state that a replay leaves. -/
def Store.replayedState (db : Store) (id : UUID) (retryCount : ℤ) (now : Timestamp) : RetryRow :=
  { (db.outboxRetryState id).getD RetryRow.null with
    quarantined := false, quarantinedAt := toTimestamp unixEpoch, retryCount,
    nextAttemptAt := now, lastError := "", leaseOwner := "",
    leaseUntil := some (toTimestamp unixEpoch) }

/-- Replaying a dead letter that was just inserted for a pending event leaves only the retry
state of the event changed. -/
theorem Store.replay_insertDeadLetter (hrow : db.outboxEvents id = some row)
    (hpending : row.publishState = .pending)
    (hindex : db.outboxByState.get (toLex (row.occurredAt, id)) = some row.toContent)
    (hbyId : db.deadLettersById id = none)
    (hbyTime : db.deadLettersByTime.get (toLex (quarantinedAt, id)) = none)
    (hcontent : letter.toContent = row.toContent) (now : Timestamp) :
    (db.insertDeadLetter id quarantinedAt letter).replay id
        { toDeadLetter := letter, quarantinedAt } now row.occurredAt =
      { db with
        outboxRetryState := Function.update db.outboxRetryState id
          (some (db.replayedState id letter.retryCount now)) } := by
  have hupsert : (db.insertDeadLetter id quarantinedAt letter).upsertPending id letter.toContent
      row.occurredAt = row := by
    simp only [Store.upsertPending, Store.insertDeadLetter, hrow, Option.getD_some, hcontent,
      ← hpending]
  have hevents : Function.update db.outboxEvents id (some row) = db.outboxEvents := by
    rw [← hrow, Function.update_eq_self]
  have hstate : db.outboxByState.put (toLex (row.occurredAt, id)) letter.toContent =
      db.outboxByState := Clustered.put_of_get (by rw [hindex, hcontent])
  have hletters : (db.deadLettersByTime.put (toLex (quarantinedAt, id)) letter).erase
      (toLex (quarantinedAt, id)) = db.deadLettersByTime := Clustered.erase_put_of_none letter hbyTime
  have hletter : Function.update (Function.update db.deadLettersById id
      (some { toDeadLetter := letter, quarantinedAt })) id none = db.deadLettersById := by
    rw [Function.update_idem, ← hbyId, Function.update_eq_self]
  rw [Store.replay, hupsert]
  simp only [Store.insertDeadLetter, hevents, hstate, hletters, hletter]
  rfl

/-- So does replaying it after the failure that inserted it. -/
theorem Store.replay_setFailure (hrow : db.outboxEvents id = some row)
    (hpending : row.publishState = .pending)
    (hindex : db.outboxByState.get (toLex (row.occurredAt, id)) = some row.toContent)
    (hbyId : db.deadLettersById id = none)
    (hbyTime : db.deadLettersByTime.get (toLex (quarantinedAt, id)) = none)
    (hcontent : letter.toContent = row.toContent) (now : Timestamp) (retryCount : ℤ)
    (nextAttempt : Timestamp) (lastError : String) (quarantined : Bool) (failedAt first : Timestamp) :
    ((db.setFailure id retryCount nextAttempt lastError quarantined failedAt
        first).insertDeadLetter id quarantinedAt letter).replay id
          { toDeadLetter := letter, quarantinedAt } now row.occurredAt =
      { db with
        outboxRetryState := Function.update db.outboxRetryState id
          (some ((db.setFailure id retryCount nextAttempt lastError quarantined failedAt
            first).replayedState id letter.retryCount now)) } := by
  refine (Store.replay_insertDeadLetter ?_ hpending ?_ ?_ ?_ hcontent now).trans ?_
  · exact hrow
  · exact hindex
  · exact hbyId
  · exact hbyTime
  · simp only [Store.setFailure, Function.update_idem]

/-- A replay of a stored event, executed to its end. -/
theorem complete_replay {letter : DeadLetterById} (hletter : db.deadLettersById id = some letter)
    (hrow : db.outboxEvents id = some row) (now : Time) (e₁ e₂ e₃ : Env) :
    (Op.begin now (.replay id)).complete [e₁, e₂, e₃] db =
      some (db.replay id letter (toTimestamp e₂.now) row.occurredAt, .replayed) := by
  have hread : (Call.replayRead id).exec e₁ db = (db, .call (.replayOccurred id letter)) := by
    simp only [Call.exec, hletter]
  have hoccurred : (Call.replayOccurred id letter).exec e₂ db =
      (db, .call (.replayBatch id letter e₂.now (ofTimestamp row.occurredAt))) := by
    simp only [Call.exec, hrow]
  have hbatch : (Call.replayBatch id letter e₂.now (ofTimestamp row.occurredAt)).exec e₃ db =
      (db.replay id letter (toTimestamp e₂.now) row.occurredAt, .done .replayed) := by
    rw [Call.exec, toTimestamp_ofTimestamp]
  rw [Op.begin, Call.complete_cons, hread, Next.complete, Call.complete_cons, hoccurred,
    Next.complete, Call.complete_cons, hbatch]
  rfl

/-- Without a dead letter a replay fails and changes nothing. -/
theorem complete_replay_missing (hbyId : db.deadLettersById id = none) (now : Time) (e : Env) :
    (Op.begin now (.replay id)).complete [e] db = some (db, .failed) := by
  have hread : (Call.replayRead id).exec e db = (db, .done .failed) := by
    simp only [Call.exec, hbyId]
  rw [Op.begin, Call.complete_cons, hread]
  rfl

/-- After a replay the relay may take the event at once. -/
theorem Store.due_replayed (retryCount : ℤ) {now : Time} (hnow : unixEpoch ≤ now)
    (hstate : ∃ old, db.outboxRetryState id =
      some (Store.replayedState old id retryCount (toTimestamp now))) : db.due now id = true := by
  obtain ⟨old, hstate⟩ := hstate
  have hattempt : ofTimestamp (toTimestamp now) ≤ now := ofTimestamp_le.mpr (le_refl _)
  have hlease : ofTimestamp (toTimestamp unixEpoch) ≤ now := hnow
  simp [Store.due, hstate, Store.replayedState, hattempt, hlease]

end Replay

/-- **Quarantine and replay are a round trip.** In every reachable state, for every pending
event without dead letters, a failure that reaches the quarantine threshold and a replay right
after it return without an error. Together they change the retry state of the event and
nothing else; the event is then not quarantined, its lease is free and its next attempt not in
the future, so that the relay may take it. A second replay fails and changes nothing. -/
theorem quarantine_replay_round_trip {s : System} {args : FailureArgs} {row : OutboxRow}
    (h : s.Reachable anyStep) (hrow : s.db.outboxEvents args.eventID = some row)
    (hpending : row.publishState = .pending) (hbyId : s.db.deadLettersById args.eventID = none)
    (hbyTime : ∀ t, s.db.deadLettersByTime.get (toLex (t, args.eventID)) = none)
    (hq : args.quarantines ((s.db.loadRetryState args.eventID).retryCount + 1) = true)
    (now now' now'' : Time) (e₁ e₂ e₃ e₄ f₁ f₂ f₃ g : Env) : ∃ db₁ db₂ retry,
    (Op.begin now (.recordFailure args)).complete [e₁, e₂, e₃, e₄] s.db =
      some (db₁, .recorded true ((s.db.loadRetryState args.eventID).retryCount + 1)) ∧
    (Op.begin now' (.replay args.eventID)).complete [f₁, f₂, f₃] db₁ = some (db₂, .replayed) ∧
    db₂ = { s.db with
      outboxRetryState := Function.update s.db.outboxRetryState args.eventID (some retry) } ∧
    retry.quarantined = false ∧ retry.leaseUntil = some (toTimestamp unixEpoch) ∧
    ofTimestamp retry.nextAttemptAt ≤ f₂.now ∧
    (unixEpoch ≤ f₂.now →
      (toLex (row.occurredAt, args.eventID), row.toContent) ∈ db₂.eligible f₂.now) ∧
    (Op.begin now'' (.replay args.eventID)).complete [g] db₂ = some (db₂, .failed) := by
  obtain ⟨retry, hretry⟩ := h.leasable.pending _ row hrow hpending
  have hcount : (s.db.loadRetryState args.eventID).retryCount = retry.retryCount := by
    simp only [Store.loadRetryState, hretry]
  rw [hcount] at hq ⊢
  have hindex : s.db.outboxByState.get (toLex (row.occurredAt, args.eventID)) =
      some row.toContent := (h.traced.store.index _ _).mpr ⟨row, hrow, hpending, rfl, rfl⟩
  have hfail := complete_quarantine args now e₁ e₂ e₃ e₄ hretry hrow hq
  refine ⟨_, _, _, hfail, (complete_replay ?_ ?_ now' f₁ f₂ f₃).trans
    (congrArg (fun db => some (db, Result.replayed)) (Store.replay_setFailure hrow hpending hindex
      hbyId (hbyTime _) rfl _ _ _ _ _ _ _)), rfl, rfl, rfl, ofTimestamp_le.mpr (le_refl _), ?_, ?_⟩
  · exact Function.update_self _ _ _
  · exact hrow
  · intro hnow
    refine List.mem_filter.mpr ⟨Clustered.mem_rows.mpr hindex, ?_⟩
    exact Store.due_replayed _ hnow ⟨_, Function.update_self _ _ _⟩
  · refine complete_replay_missing ?_ now'' g
    exact hbyId

/-- An order is quarantined by its first failure in the sixth millisecond and replayed in the
seventh; the relay may take it then. -/
theorem quarantine_replay_round_trip_order : ∃ (s : System) (db₁ db₂ : Store),
    s.Reachable anyStep ∧
    (Op.begin 6000000 (.recordFailure (poison 1))).complete
      [⟨6000000, 0, .row⟩, ⟨6000000, 0, .row⟩, ⟨6000000, 0, .row⟩, ⟨6000000, 0, .row⟩] s.db =
        some (db₁, .recorded true 1) ∧
    (Op.begin 7000000 (.replay 1)).complete
      [⟨7000000, 0, .row⟩, ⟨7000000, 0, .row⟩, ⟨7000000, 0, .row⟩] db₁ = some (db₂, .replayed) ∧
    db₂.outboxEvents = s.db.outboxEvents ∧ db₂.deadLettersByTime = s.db.deadLettersByTime ∧
    ∃ row ∈ db₂.eligible 7000000, (ofLex row.1).2 = 1 := by
  obtain ⟨s, hs, htest⟩ := System.Reachable.of_play anyStep (fun _ _ => true)
    (fun _ _ _ => trivial) 5000000 (.start 1 (.append plainOrder 1) :: execs 1 1 5000000)
    (fun s => (s.db.outboxEvents 1).any (fun row : OutboxRow => decide (row.publishState = .pending)) &&
      (s.db.deadLettersById 1).isNone && s.db.deadLettersByTime.rows.isEmpty &&
      decide ((s.db.loadRetryState 1).retryCount = 0)) (by decide)
  simp only [Bool.and_eq_true, Option.any_eq_true, decide_eq_true_eq, Option.isNone_iff_eq_none,
    List.isEmpty_iff] at htest
  obtain ⟨⟨⟨⟨row, hrow, hpending⟩, hbyId⟩, hbyTime⟩, hcount⟩ := htest
  have houtbox : s.db.outboxEvents (poison 1).eventID = some row := hrow
  have hnone : ∀ t, s.db.deadLettersByTime.get (toLex (t, 1)) = none := by
    intro t
    rw [Clustered.get, hbyTime]
    rfl
  have hq : (poison 1).quarantines ((s.db.loadRetryState 1).retryCount + 1) = true := by
    rw [hcount]
    rfl
  obtain ⟨db₁, db₂, retry, hfail, hreplay, hsame, -, -, -, hdue, -⟩ :=
    quarantine_replay_round_trip hs houtbox hpending hbyId hnone hq 6000000 7000000 7000000
      ⟨6000000, 0, .row⟩ ⟨6000000, 0, .row⟩ ⟨6000000, 0, .row⟩ ⟨6000000, 0, .row⟩
      ⟨7000000, 0, .row⟩ ⟨7000000, 0, .row⟩ ⟨7000000, 0, .row⟩ ⟨7000000, 0, .row⟩
  have hone : (s.db.loadRetryState (poison 1).eventID).retryCount + 1 = 1 :=
    congrArg (fun n : ℤ => n + 1) hcount
  rw [hone] at hfail
  refine ⟨s, db₁, db₂, hs, hfail, hreplay, ?_, ?_, _, hdue (by decide), rfl⟩
  · rw [hsame]
  · rw [hsame]

end ControlPlane

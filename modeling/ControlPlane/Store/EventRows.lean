import ControlPlane.Store.Statements

/-!
# The rows of one event

The relay decides by three rows of an event: its row in `outbox_events`, its retry
state and its dead letter. For a fixed event, a statement leaves these rows alone
or is one of seven statements about that event. Invariants about single events are
proved by cases on `Touches`. Where only the retry count and the quarantine flag
matter, `Call.effect_retryMark` computes them after any statement.
-/

namespace ControlPlane

/-- What the statement of a call does to the outbox row, the retry state and the
dead letter of the event `id`. -/
inductive Call.Touches (env : Env) (db : Store) (id : UUID) (db' : Store) : Call → Prop
  | untouched {c : Call} : db'.outboxEvents id = db.outboxEvents id →
      db'.outboxRetryState id = db.outboxRetryState id →
      db'.deadLettersById id = db.deadLettersById id → Touches env db id db' c
  | inserted {ev : EventRecord} {row : OutboxRow} {retry : RetryRow} :
      db'.outboxEvents id = some row → row.publishState = .pending →
      db'.outboxRetryState id = some retry → retry.quarantined = false →
      retry.leaseUntil = some (toTimestamp unixEpoch) → Touches env db id db' (.appendBatch ev id)
  | marked {brokerMessageID : String} {occurredAt : Time} {row : OutboxRow} :
      db'.outboxEvents id = some row → row.publishState = .published →
      row.brokerMessageId = brokerMessageID → db'.outboxRetryState id = none →
      Touches env db id db' (.markBatch id brokerMessageID occurredAt)
  | leased {owner : String} {leaseDuration : Duration} {old : RetryRow} {u : Timestamp} :
      db'.outboxEvents id = db.outboxEvents id → db.outboxRetryState id = some old →
      old.leaseUntil = some u → u < toTimestamp env.now →
      db'.outboxRetryState id = some { old with
        leaseOwner := owner, leaseUntil := some (toTimestamp (env.now + leaseDuration)) } →
      db'.deadLettersById id = db.deadLettersById id →
      Touches env db id db' (.leaseUpdate id owner leaseDuration)
  | failed {args : FailureArgs} {retryCount : ℤ} {firstFailed : Time} {retry : RetryRow} :
      args.eventID = id → db'.outboxEvents id = db.outboxEvents id →
      db'.outboxRetryState id = some retry → retry.quarantined = args.quarantines retryCount →
      retry.leaseUntil = some (toTimestamp unixEpoch) →
      Touches env db id db' (.failureUpdate args retryCount firstFailed)
  | buried {args : FailureArgs} {retryCount : ℤ} {now : Time} {content : Content}
      {letter : DeadLetterById} : args.eventID = id →
      db'.outboxEvents id = db.outboxEvents id →
      db'.outboxRetryState id = db.outboxRetryState id →
      db'.deadLettersById id = some letter →
      Touches env db id db' (.failureBatch args retryCount now content)
  | replayed {letter : DeadLetterById} {now occurredAt : Time} {row : OutboxRow}
      {retry : RetryRow} : db'.outboxEvents id = some row → row.publishState = .pending →
      db'.outboxRetryState id = some retry → retry.quarantined = false →
      retry.nextAttemptAt = toTimestamp now →
      retry.leaseUntil = some (toTimestamp unixEpoch) →
      Touches env db id db' (.replayBatch id letter now occurredAt)
  | discarded {row : EventKey} {rest : List EventKey} {idemDeleted dlDeleted : ℕ} :
      db'.outboxEvents id = db.outboxEvents id →
      db'.outboxRetryState id = db.outboxRetryState id →
      Touches env db id db' (.cleanupLettersDelete row rest idemDeleted dlDeleted)

/-- A lease is free exactly when the retry state holds a lease that has run out. -/
theorem Store.leaseFree_iff {db : Store} {id : UUID} {now : Timestamp} :
    db.leaseFree id now = true ↔ ∃ retry u, db.outboxRetryState id = some retry ∧
      retry.leaseUntil = some u ∧ u < now := by
  unfold Store.leaseFree
  split
  · rename_i hretry
    simp [hretry]
  · rename_i hretry
    constructor
    · intro h
      cases h
    · rintro ⟨retry, u, hsome, hlease, -⟩
      cases retry
      cases hlease
      exact absurd hsome (hretry _ _ _ _ _ _ _ _)

/-- Every change that a statement makes touches the rows of an event in one of the
listed ways. -/
theorem Call.Mutation.touches {env : Env} {db db' : Store} {c : Call}
    (hm : Call.Mutation env db c db') (id : UUID) : Call.Touches env db id db' c := by
  cases hm with
  | insertEvent =>
    rename_i ev newID
    by_cases hid : id = newID
    · subst hid
      exact .inserted (Function.update_self ..) rfl (Function.update_self ..) rfl rfl
    · exact .untouched (Function.update_of_ne hid ..) (Function.update_of_ne hid ..) rfl
  | markPublished =>
    rename_i marked brokerMessageID occurredAt
    by_cases hid : id = marked
    · subst hid
      exact .marked (Function.update_self ..) rfl rfl (Function.update_self ..)
    · exact .untouched (Function.update_of_ne hid ..) (Function.update_of_ne hid ..) rfl
  | setLease hfree =>
    rename_i leased owner leaseDuration
    by_cases hid : id = leased
    · subst hid
      obtain ⟨retry, u, hretry, hu, hlt⟩ := Store.leaseFree_iff.mp hfree
      refine .leased rfl hretry hu hlt ?_ rfl
      simp [Store.setLease, hretry]
    · exact .untouched rfl (Function.update_of_ne hid ..) rfl
  | setFailure =>
    rename_i args retryCount firstFailed
    by_cases hid : id = args.eventID
    · subst hid
      exact .failed rfl rfl (Function.update_self ..) rfl rfl
    · exact .untouched rfl (Function.update_of_ne hid ..) rfl
  | insertDeadLetter =>
    rename_i args retryCount now content
    by_cases hid : id = args.eventID
    · subst hid
      exact .buried rfl rfl rfl (Function.update_self ..)
    · exact .untouched rfl rfl (Function.update_of_ne hid ..)
  | replay =>
    rename_i replayed letter now occurredAt
    by_cases hid : id = replayed
    · subst hid
      exact .replayed (Function.update_self ..) rfl (Function.update_self ..) rfl rfl rfl
    · exact .untouched (Function.update_of_ne hid ..) (Function.update_of_ne hid ..)
        (Function.update_of_ne hid ..)
  | deleteDeadLetter => exact .discarded rfl rfl
  | _ => exact .untouched rfl rfl rfl

/-- The retry count and the quarantine flag that `loadRetryState` reads for an event. -/
def Store.retryMark (db : Store) (id : UUID) : ℤ × Bool :=
  ((db.loadRetryState id).retryCount, (db.loadRetryState id).quarantined)

/-- The retry count and the quarantine flag that the statement of a call writes for an
event. A deleted retry state reads as no failures. -/
def Call.retryWrite (id : UUID) : Call → Option (ℤ × Bool)
  | .appendBatch _ newID => if newID = id then some (0, false) else none
  | .markBatch marked _ _ => if marked = id then some (0, false) else none
  | .failureUpdate args retryCount _ =>
      if args.eventID = id then some (retryCount, args.quarantines retryCount) else none
  | .replayBatch replayed letter _ _ =>
      if replayed = id then some (letter.retryCount, false) else none
  | _ => none

theorem Store.retryMark_congr {db db' : Store} {id : UUID}
    (h : db'.outboxRetryState id = db.outboxRetryState id) :
    db'.retryMark id = db.retryMark id := by
  simp only [Store.retryMark, Store.loadRetryState, h]

theorem Store.retryMark_of_row {db : Store} {id : UUID} {row : RetryRow}
    (h : db.outboxRetryState id = some row) : db.retryMark id = (row.retryCount, row.quarantined) := by
  simp only [Store.retryMark, Store.loadRetryState, h]

/-- Statements that write no retry count leave count and flag as they were, a renewed
lease included. -/
theorem Call.Mutation.retryMark {env : Env} {db db' : Store} {c : Call} {id : UUID}
    (hm : Call.Mutation env db c db') (hc : c.retryWrite id = none) :
    db'.retryMark id = db.retryMark id := by
  cases hm.touches id with
  | untouched _ hretry => exact Store.retryMark_congr hretry
  | leased _ hold _ _ hretry =>
    rw [Store.retryMark_of_row hretry, Store.retryMark_of_row hold]
  | buried _ _ hretry => exact Store.retryMark_congr hretry
  | discarded _ hretry => exact Store.retryMark_congr hretry
  | inserted => simp [Call.retryWrite] at hc
  | marked => simp [Call.retryWrite] at hc
  | failed hid => simp [Call.retryWrite, hid] at hc
  | replayed => simp [Call.retryWrite] at hc

/-- The retry count and the quarantine flag of an event after a statement. -/
theorem Call.exec_retryMark (c : Call) (env : Env) (db : Store) (id : UUID) :
    (c.exec env db).1.retryMark id = (c.retryWrite id).getD (db.retryMark id) := by
  cases hw : c.retryWrite id with
  | none => exact (c.exec_mutation env db).retryMark hw
  | some mark =>
    cases c with
    | appendBatch ev newID =>
      simp only [Call.retryWrite, Option.ite_none_right_eq_some, Option.some.injEq] at hw
      obtain ⟨rfl, rfl⟩ := hw
      simp [Call.exec, Store.insertEvent, Store.retryMark, Store.loadRetryState]
    | markBatch marked brokerMessageID occurredAt =>
      simp only [Call.retryWrite, Option.ite_none_right_eq_some, Option.some.injEq] at hw
      obtain ⟨rfl, rfl⟩ := hw
      simp [Call.exec, Store.markPublished, Store.retryMark, Store.loadRetryState]
    | failureUpdate args retryCount firstFailed =>
      simp only [Call.retryWrite, Option.ite_none_right_eq_some, Option.some.injEq] at hw
      obtain ⟨rfl, rfl⟩ := hw
      simp [Call.exec, Store.setFailure, Store.retryMark, Store.loadRetryState]
    | replayBatch replayed letter now occurredAt =>
      simp only [Call.retryWrite, Option.ite_none_right_eq_some, Option.some.injEq] at hw
      obtain ⟨rfl, rfl⟩ := hw
      simp [Call.exec, Store.replay, Store.retryMark, Store.loadRetryState]
    | _ => cases hw

/-- The same under any report of the driver. -/
theorem Call.effect_retryMark (c : Call) (report : Report) (env : Env) (db : Store) (id : UUID) :
    (c.effect report env db).retryMark id = if report = .refused then db.retryMark id
      else (c.retryWrite id).getD (db.retryMark id) := by
  unfold Call.effect
  split_ifs
  · rfl
  · exact c.exec_retryMark env db id

/-- `RecordOutboxFailure` goes on to write one more than the count it read. -/
theorem Call.exec_failureRead (args : FailureArgs) (env : Env) (db : Store) :
    ∃ firstFailed, (Call.failureRead args).exec env db =
      (db, .call (.failureUpdate args ((db.retryMark args.eventID).1 + 1) firstFailed)) := by
  cases hrow : db.outboxRetryState args.eventID with
  | none => exact ⟨zeroTime, by simp [Call.exec, hrow, Store.retryMark, Store.loadRetryState]⟩
  | some row =>
    refine ⟨ofTimestamp row.firstFailedAt, ?_⟩
    rw [Store.retryMark_of_row hrow]
    simp [Call.exec, hrow]

end ControlPlane

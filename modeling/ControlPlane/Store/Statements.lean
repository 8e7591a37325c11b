import ControlPlane.Store.System

/-!
# What one statement can do

Two inversion principles describe `Call.exec` once and for all. `Mutation` lists
the ways in which a statement changes the database, and `Leads` the ways in which
an operation goes on to its next statement. Every invariant below is proved by
cases on these relations, so the bodies of the operations are unfolded only here.
-/

namespace ControlPlane

/-- The changes that the statement of a call makes to the database, with the
conditions under which it makes them. -/
inductive Call.Mutation (env : Env) (db : Store) : Call → Store → Prop
  | read {c : Call} : c.inserts .ok = [] → Mutation env db c db
  | insertKey {ev : EventRecord} {newID : UUID} :
      db.idempotencyKeys (ev.stream, ev.idempotencyKey) = none →
      Mutation env db (.appendKey ev newID) (db.insertKey ev.stream ev.idempotencyKey
        ⟨newID, sha256Hex ev.payload, toTimestamp env.now⟩)
  | insertKeyIndex {ev : EventRecord} {newID : UUID} : Mutation env db (.appendIndex ev newID)
      (db.insertKeyIndex (toTimestamp env.now) ev.stream ev.idempotencyKey newID)
  | insertEvent {ev : EventRecord} {newID : UUID} :
      Mutation env db (.appendBatch ev newID) (db.insertEvent ev newID)
  | markPublished {id : UUID} {brokerMessageID : String} {occurredAt : Time} :
      Mutation env db (.markBatch id brokerMessageID occurredAt)
        (db.markPublished id brokerMessageID (toTimestamp env.now) (toTimestamp occurredAt))
  | insertInbox {consumer messageID : String} : db.inboxConsumed (consumer, messageID) = none →
      Mutation env db (.inboxInsert consumer messageID)
        (db.insertInbox consumer messageID (toTimestamp env.now))
  | setLease {id : UUID} {owner : String} {leaseDuration : Duration} :
      db.leaseFree id (toTimestamp env.now) = true →
      Mutation env db (.leaseUpdate id owner leaseDuration)
        (db.setLease id owner (toTimestamp (env.now + leaseDuration)))
  | setFailure {args : FailureArgs} {retryCount : ℤ} {firstFailed : Time} :
      Mutation env db (.failureUpdate args retryCount firstFailed)
        (db.setFailure args.eventID retryCount
          (toTimestamp (env.now + args.wait retryCount env.draw)) args.lastError
          (args.quarantines retryCount) (toTimestamp env.now)
          (toTimestamp (if firstFailed = zeroTime then env.now else firstFailed)))
  | insertDeadLetter {args : FailureArgs} {retryCount : ℤ} {now : Time} {content : Content} :
      Mutation env db (.failureBatch args retryCount now content)
        (db.insertDeadLetter args.eventID (toTimestamp now)
          { toContent := content, retryCount, lastError := args.lastError })
  | replay {id : UUID} {letter : DeadLetterById} {now occurredAt : Time} :
      Mutation env db (.replayBatch id letter now occurredAt)
        (db.replay id letter (toTimestamp now) (toTimestamp occurredAt))
  | deleteKey {args : CleanupArgs} {row : CreatedKey} {rest : List CreatedKey} {deleted : ℕ} :
      Mutation env db (.cleanupKeysDelete args row rest deleted)
        (db.deleteKey (ofLex row).1 (ofLex (ofLex row).2).1 (ofLex (ofLex row).2).2)
  | deleteDeadLetter {row : EventKey} {rest : List EventKey} {idemDeleted dlDeleted : ℕ} :
      Mutation env db (.cleanupLettersDelete row rest idemDeleted dlDeleted)
        (db.deleteDeadLetter (ofLex row).1 (ofLex row).2)

/-- Executing a statement performs one of the listed changes. -/
theorem Call.exec_mutation (c : Call) (env : Env) (db : Store) :
    Call.Mutation env db c (c.exec env db).1 := by
  cases c with
  | appendKey ev newID =>
    simp only [Call.exec]
    split
    · rename_i hkey
      exact .insertKey hkey
    · split <;> exact .read rfl
  | appendIndex ev newID => exact .insertKeyIndex
  | appendBatch ev newID => exact .insertEvent
  | markBatch id brokerMessageID occurredAt => exact .markPublished
  | inboxInsert consumer messageID =>
    simp only [Call.exec]
    split
    · rename_i hkey
      exact .insertInbox hkey
    · split <;> exact .read rfl
  | leaseUpdate id owner leaseDuration =>
    simp only [Call.exec]
    split
    · rename_i hfree
      exact .setLease hfree
    · exact .read rfl
  | failureUpdate args retryCount firstFailed => exact .setFailure
  | failureBatch args retryCount now content => exact .insertDeadLetter
  | replayBatch id letter now occurredAt => exact .replay
  | cleanupKeysDelete args row rest deleted => exact .deleteKey
  | cleanupLettersDelete row rest idemDeleted dlDeleted => exact .deleteDeadLetter
  | appendLookup ev existingID => simp only [Call.exec]; split <;> exact .read rfl
  | appendPublished ev existing => simp only [Call.exec]; split <;> exact .read rfl
  | markRead id brokerMessageID => simp only [Call.exec]; split <;> exact .read rfl
  | failureRead args => simp only [Call.exec]; split <;> exact .read rfl
  | failureLookup args retryCount now => simp only [Call.exec]; split <;> exact .read rfl
  | replayRead id => simp only [Call.exec]; split <;> exact .read rfl
  | replayOccurred id letter => simp only [Call.exec]; split <;> exact .read rfl
  | pendingJudge limit row view rest out =>
    simp only [Call.exec]
    split
    · exact .read rfl
    · split <;> exact .read rfl
  | _ => exact .read rfl

/-- The ways in which an operation goes on to another statement. -/
inductive Call.Leads (env : Env) (db : Store) : Call → Call → Prop
  | appendIndex {ev : EventRecord} {newID : UUID} :
      db.idempotencyKeys (ev.stream, ev.idempotencyKey) = none →
      Leads env db (.appendKey ev newID) (.appendIndex ev newID)
  | appendLookup {ev : EventRecord} {newID : UUID} {row : KeyRow} :
      db.idempotencyKeys (ev.stream, ev.idempotencyKey) = some row →
      Leads env db (.appendKey ev newID) (.appendLookup ev row.eventId)
  | appendPublished {ev : EventRecord} {existingID : UUID} {row : EventRow} :
      db.eventsById existingID = some row →
      Leads env db (.appendLookup ev existingID) (.appendPublished ev
        { toContent := row.toContent, id := existingID, idempotencyKey := ev.idempotencyKey,
          occurredAt := ofTimestamp row.occurredAt })
  | appendBatch {ev : EventRecord} {newID : UUID} :
      Leads env db (.appendIndex ev newID) (.appendBatch ev newID)
  | markBatch {id : UUID} {brokerMessageID : String} {row : OutboxRow} :
      db.outboxEvents id = some row → Leads env db (.markRead id brokerMessageID)
        (.markBatch id brokerMessageID (ofTimestamp row.occurredAt))
  | pendingFirst {limit : ℤ} {row : PendingRow} {rest : List PendingRow} :
      db.outboxByState.page (fetchLimit (pendingLimit limit)) = row :: rest →
      Leads env db (.pendingSelect limit) (.pendingLoad (pendingLimit limit) row rest [])
  | pendingJudge {limit : ℕ} {row : PendingRow} {rest : List PendingRow}
      {out : List EventRecord} : Leads env db (.pendingLoad limit row rest out)
        (.pendingJudge limit row (db.loadRetryState (ofLex row.1).2) rest out)
  | pendingSkip {limit : ℕ} {row row' : PendingRow} {rest : List PendingRow}
      {out : List EventRecord} : Leads env db (.pendingLoad limit row (row' :: rest) out)
        (.pendingLoad limit row' rest out)
  | pendingReject {limit : ℕ} {row row' : PendingRow} {view : RetryView}
      {rest : List PendingRow} {out : List EventRecord} : view.skipped env.now = true →
      Leads env db (.pendingJudge limit row view (row' :: rest) out)
        (.pendingLoad limit row' rest out)
  | pendingAccept {limit : ℕ} {row row' : PendingRow} {view : RetryView}
      {rest : List PendingRow} {out : List EventRecord} : view.skipped env.now = false →
      Leads env db (.pendingJudge limit row view (row' :: rest) out)
        (.pendingLoad limit row' rest (out ++ [pendingRecord row view.retryCount]))
  | failureFirst {args : FailureArgs} : db.outboxRetryState args.eventID = none →
      Leads env db (.failureRead args) (.failureUpdate args (0 + 1) zeroTime)
  | failureAgain {args : FailureArgs} {row : RetryRow} :
      db.outboxRetryState args.eventID = some row → Leads env db (.failureRead args)
        (.failureUpdate args (row.retryCount + 1) (ofTimestamp row.firstFailedAt))
  | failureLookup {args : FailureArgs} {retryCount : ℤ} {firstFailed : Time} :
      args.quarantines retryCount = true →
      Leads env db (.failureUpdate args retryCount firstFailed)
        (.failureLookup args retryCount env.now)
  | failureBatch {args : FailureArgs} {retryCount : ℤ} {now : Time} {row : OutboxRow} :
      db.outboxEvents args.eventID = some row → Leads env db (.failureLookup args retryCount now)
        (.failureBatch args retryCount now row.toContent)
  | replayOccurred {id : UUID} {letter : DeadLetterById} : db.deadLettersById id = some letter →
      Leads env db (.replayRead id) (.replayOccurred id letter)
  | replayMissing {id : UUID} {letter : DeadLetterById} : db.outboxEvents id = none →
      Leads env db (.replayOccurred id letter) (.replayBatch id letter env.now env.now)
  | replayBatch {id : UUID} {letter : DeadLetterById} {row : OutboxRow} :
      db.outboxEvents id = some row → Leads env db (.replayOccurred id letter)
        (.replayBatch id letter env.now (ofTimestamp row.occurredAt))
  | cleanup {c d : Call} : c.cleaning = true → d.cleaning = true → Leads env db c d

private theorem scanPending_call {limit : ℕ} {rows : List PendingRow} {out : List EventRecord}
    {d : Call} (h : scanPending limit rows out = .call d) :
    ∃ row rest, rows = row :: rest ∧ d = .pendingLoad limit row rest out := by
  cases rows with
  | nil => simp [scanPending] at h
  | cons row rest =>
    simp only [scanPending, Next.call.injEq] at h
    exact ⟨row, rest, rfl, h.symm⟩

private theorem cleanupKeys_cleaning {args : CleanupArgs} {rows : List CreatedKey} {n : ℕ}
    {d : Call} (h : cleanupKeys args rows n = .call d) : d.cleaning = true := by
  cases rows <;> (simp only [cleanupKeys, Next.call.injEq] at h; subst h; rfl)

private theorem cleanupLetters_cleaning {rows : List EventKey} {m n : ℕ} {d : Call}
    (h : cleanupLetters rows m n = .call d) : d.cleaning = true := by
  cases rows with
  | nil => simp [cleanupLetters] at h
  | cons row rest =>
    simp only [cleanupLetters, Next.call.injEq] at h
    subst h
    rfl

/-- An executed statement is followed by one of the listed statements. -/
theorem Call.exec_leads {c d : Call} {env : Env} {db : Store}
    (h : (c.exec env db).2 = .call d) : Call.Leads env db c d := by
  cases c with
  | appendKey ev newID =>
    simp only [Call.exec] at h
    split at h
    · rename_i hkey
      cases h
      exact .appendIndex hkey
    · rename_i row hkey
      split at h
      · cases h
      · cases h
        exact .appendLookup hkey
  | appendLookup ev existingID =>
    simp only [Call.exec] at h
    split at h
    · cases h
    · rename_i row hrow
      cases h
      exact .appendPublished hrow
  | appendPublished ev existing =>
    simp only [Call.exec] at h
    split at h <;> cases h
  | appendIndex ev newID =>
    cases h
    exact .appendBatch
  | appendBatch ev newID => cases h
  | markRead id brokerMessageID =>
    simp only [Call.exec] at h
    split at h
    · cases h
    · rename_i row hrow
      cases h
      exact .markBatch hrow
  | markBatch id brokerMessageID occurredAt => cases h
  | pendingSelect limit =>
    obtain ⟨row, rest, hrows, rfl⟩ := scanPending_call h
    exact .pendingFirst hrows
  | pendingLoad limit row rest out =>
    cases h
    exact .pendingJudge
  | pendingJudge limit row view rest out =>
    simp only [Call.exec] at h
    split at h
    · rename_i hskip
      obtain ⟨row', rest', rfl, rfl⟩ := scanPending_call h
      exact .pendingReject hskip
    · rename_i hskip
      split at h
      · cases h
      · obtain ⟨row', rest', rfl, rfl⟩ := scanPending_call h
        exact .pendingAccept (by simpa using hskip)
  | inboxInsert consumer messageID =>
    simp only [Call.exec] at h
    split at h
    · cases h
    · split at h <;> cases h
  | recentSelect stream limit => cases h
  | leaseUpdate id owner leaseDuration =>
    simp only [Call.exec] at h
    split at h <;> cases h
  | failureRead args =>
    simp only [Call.exec] at h
    split at h
    · rename_i hrow
      cases h
      exact .failureFirst hrow
    · rename_i row hrow
      cases h
      exact .failureAgain hrow
  | failureUpdate args retryCount firstFailed =>
    simp only [Call.exec] at h
    split at h
    · rename_i hq
      cases h
      exact .failureLookup hq
    · cases h
  | failureLookup args retryCount now =>
    simp only [Call.exec] at h
    split at h
    · cases h
    · rename_i row hrow
      cases h
      exact .failureBatch hrow
  | failureBatch args retryCount now content => cases h
  | lettersSelect limit => cases h
  | replayRead id =>
    simp only [Call.exec] at h
    split at h
    · cases h
    · rename_i letter hletter
      cases h
      exact .replayOccurred hletter
  | replayOccurred id letter =>
    simp only [Call.exec] at h
    split at h
    · rename_i hrow
      cases h
      exact .replayMissing hrow
    · rename_i row hrow
      cases h
      exact .replayBatch hrow
  | replayBatch id letter now occurredAt => cases h
  | cleanupKeysSelect args => exact .cleanup rfl (cleanupKeys_cleaning h)
  | cleanupKeysDelete args row rest deleted => exact .cleanup rfl (cleanupKeys_cleaning h)
  | cleanupLettersSelect args deleted => exact .cleanup rfl (cleanupLetters_cleaning h)
  | cleanupLettersDelete row rest m n => exact .cleanup rfl (cleanupLetters_cleaning h)

/-- A statement that ended in an error is followed by one of the listed statements. -/
theorem Call.onError_leads {c d : Call} (env : Env) (db : Store) (h : c.onError = .call d) :
    Call.Leads env db c d := by
  cases c with
  | pendingLoad limit row rest out =>
    obtain ⟨row', rest', rfl, rfl⟩ := scanPending_call h
    exact .pendingSkip
  | cleanupKeysDelete args row rest deleted => exact .cleanup rfl (cleanupKeys_cleaning h)
  | cleanupLettersDelete row rest m n => exact .cleanup rfl (cleanupLetters_cleaning h)
  | _ => cases h

/-- Whatever the driver reports, an operation goes on in one of the listed ways. -/
theorem Call.next_leads {c d : Call} {report : Report} {env : Env} {db : Store}
    (h : c.next report env db = .call d) : Call.Leads env db c d := by
  unfold Call.next at h
  split_ifs at h with hok
  · exact Call.exec_leads h
  · exact Call.onError_leads env db h

/-- The index rows that `CleanupExpired` selects for deletion. -/
def Store.expiredKeys (db : Store) (args : CleanupArgs) : List CreatedKey :=
  ((db.idempotencyByCreated.page (cleanupLimit args.limit)).map Prod.fst).filter fun key =>
    decide (ofTimestamp (ofLex key).1 < args.idempotencyBefore)

/-- The dead letters that `CleanupExpired` selects for deletion. -/
def Store.expiredLetters (db : Store) (args : CleanupArgs) : List EventKey :=
  ((db.deadLettersByTime.page (cleanupLimit args.limit)).map Prod.fst).filter fun key =>
    decide (ofTimestamp (ofLex key).1 < args.deadLetterBefore)

/-- The ways in which `CleanupExpired` goes on to another statement. -/
inductive Call.Sweeps (db : Store) : Call → Call → Prop
  | firstKey {args : CleanupArgs} {row : CreatedKey} {rest : List CreatedKey} :
      db.expiredKeys args = row :: rest →
      Sweeps db (.cleanupKeysSelect args) (.cleanupKeysDelete args row rest 0)
  | noKey {args : CleanupArgs} :
      Sweeps db (.cleanupKeysSelect args) (.cleanupLettersSelect args 0)
  | nextKey {args : CleanupArgs} {row row' : CreatedKey} {rest : List CreatedKey} {m n : ℕ} :
      Sweeps db (.cleanupKeysDelete args row (row' :: rest) m)
        (.cleanupKeysDelete args row' rest n)
  | lastKey {args : CleanupArgs} {row : CreatedKey} {m n : ℕ} :
      Sweeps db (.cleanupKeysDelete args row [] m) (.cleanupLettersSelect args n)
  | firstLetter {args : CleanupArgs} {row : EventKey} {rest : List EventKey} {m : ℕ} :
      db.expiredLetters args = row :: rest →
      Sweeps db (.cleanupLettersSelect args m) (.cleanupLettersDelete row rest m 0)
  | nextLetter {row row' : EventKey} {rest : List EventKey} {m n n' : ℕ} :
      Sweeps db (.cleanupLettersDelete row (row' :: rest) m n)
        (.cleanupLettersDelete row' rest m n')

/-- Whatever the driver reports, a cleanup goes on in one of the listed ways. -/
theorem Call.next_sweeps {c d : Call} {report : Report} {env : Env} {db : Store}
    (hc : c.cleaning = true) (h : c.next report env db = .call d) : Call.Sweeps db c d := by
  have hnext : (c.exec env db).2 = .call d ∨ c.onError = .call d := by
    unfold Call.next at h
    split_ifs at h
    · exact Or.inl h
    · exact Or.inr h
  cases c with
  | cleanupKeysSelect args =>
    rcases hnext with hexec | herror
    · have hrows : cleanupKeys args (db.expiredKeys args) 0 = .call d := hexec
      cases hsel : db.expiredKeys args with
      | nil =>
        rw [hsel] at hrows
        cases hrows
        exact .noKey
      | cons row rest =>
        rw [hsel] at hrows
        cases hrows
        exact .firstKey hsel
    · cases herror
  | cleanupKeysDelete args row rest m =>
    cases rest with
    | nil =>
      rcases hnext with hexec | herror
      · cases hexec
        exact .lastKey
      · cases herror
        exact .lastKey
    | cons row' rest =>
      rcases hnext with hexec | herror
      · cases hexec
        exact .nextKey
      · cases herror
        exact .nextKey
  | cleanupLettersSelect args m =>
    rcases hnext with hexec | herror
    · have hrows : cleanupLetters (db.expiredLetters args) m 0 = .call d := hexec
      cases hsel : db.expiredLetters args with
      | nil =>
        rw [hsel] at hrows
        cases hrows
      | cons row rest =>
        rw [hsel] at hrows
        cases hrows
        exact .firstLetter hsel
    · cases herror
  | cleanupLettersDelete row rest m n =>
    cases rest with
    | nil =>
      rcases hnext with hexec | herror
      · cases hexec
      · cases herror
    | cons row' rest =>
      rcases hnext with hexec | herror
      · cases hexec
        exact .nextLetter
      · cases herror
        exact .nextLetter
  | _ => cases hc

/-- Results that neither carry an event to be published nor grant a lease. -/
def Result.silent : Result → Bool
  | .appended _ | .pending _ | .leased true => false
  | _ => true

/-- The ways in which an operation returns a result that is not silent. -/
inductive Call.Returns (env : Env) (db : Store) : Call → Result → Prop
  | inserted {ev : EventRecord} {newID : UUID} : Returns env db (.appendBatch ev newID)
      (.appended ⟨{ ev with id := newID }, false, false⟩)
  | found {ev existing : EventRecord} {row : OutboxRow} :
      db.outboxEvents existing.id = some row → Returns env db (.appendPublished ev existing)
        (.appended ⟨existing, true, decide (row.publishState = .published)⟩)
  | pendingNone {limit : ℤ} : Returns env db (.pendingSelect limit) (.pending [])
  | pendingSkip {limit : ℕ} {row : PendingRow} {out : List EventRecord} :
      Returns env db (.pendingLoad limit row [] out) (.pending out)
  | pendingReject {limit : ℕ} {row : PendingRow} {view : RetryView} {out : List EventRecord} :
      Returns env db (.pendingJudge limit row view [] out) (.pending out)
  | pendingAccept {limit : ℕ} {row : PendingRow} {view : RetryView} {rest : List PendingRow}
      {out : List EventRecord} : view.skipped env.now = false →
      Returns env db (.pendingJudge limit row view rest out)
        (.pending (out ++ [pendingRecord row view.retryCount]))
  | leased {id : UUID} {owner : String} {leaseDuration : Duration} :
      db.leaseFree id (toTimestamp env.now) = true →
      Returns env db (.leaseUpdate id owner leaseDuration) (.leased true)
  | silent {c : Call} {r : Result} : r.silent = true → Returns env db c r

private theorem scanPending_done {limit : ℕ} {rows : List PendingRow} {out : List EventRecord}
    {r : Result} (h : scanPending limit rows out = .done r) : rows = [] ∧ r = .pending out := by
  cases rows with
  | nil =>
    simp only [scanPending, Next.done.injEq] at h
    exact ⟨rfl, h.symm⟩
  | cons row rest => simp [scanPending] at h

private theorem cleanupKeys_done {args : CleanupArgs} {rows : List CreatedKey} {n : ℕ}
    {r : Result} : cleanupKeys args rows n ≠ .done r := by
  cases rows <;> simp [cleanupKeys]

private theorem cleanupLetters_done {rows : List EventKey} {m n : ℕ} {r : Result}
    (h : cleanupLetters rows m n = .done r) : r.silent = true := by
  cases rows with
  | nil =>
    simp only [cleanupLetters, Next.done.injEq] at h
    subst h
    rfl
  | cons row rest => simp [cleanupLetters] at h

/-- An executed statement returns in one of the listed ways. -/
theorem Call.exec_returns {c : Call} {r : Result} {env : Env} {db : Store}
    (h : (c.exec env db).2 = .done r) : Call.Returns env db c r := by
  cases c with
  | appendPublished ev existing =>
    simp only [Call.exec] at h
    split at h
    · cases h
      exact .silent rfl
    · rename_i row hrow
      cases h
      exact .found hrow
  | appendBatch ev newID =>
    cases h
    exact .inserted
  | pendingSelect limit =>
    obtain ⟨-, rfl⟩ := scanPending_done h
    exact .pendingNone
  | pendingJudge limit row view rest out =>
    simp only [Call.exec] at h
    split at h
    · obtain ⟨rfl, rfl⟩ := scanPending_done h
      exact .pendingReject
    · rename_i hskip
      have hskip' : view.skipped env.now = false := by simpa using hskip
      split at h
      · cases h
        exact .pendingAccept hskip'
      · obtain ⟨rfl, rfl⟩ := scanPending_done h
        exact .pendingAccept hskip'
  | leaseUpdate id owner leaseDuration =>
    simp only [Call.exec] at h
    split at h
    · rename_i hfree
      cases h
      exact .leased hfree
    · cases h
      exact .silent rfl
  | cleanupKeysSelect args => exact absurd h cleanupKeys_done
  | cleanupKeysDelete args row rest deleted => exact absurd h cleanupKeys_done
  | cleanupLettersSelect args deleted => exact .silent (cleanupLetters_done h)
  | cleanupLettersDelete row rest m n => exact .silent (cleanupLetters_done h)
  | _ =>
    simp only [Call.exec] at h
    (repeat' split at h) <;> cases h <;> exact .silent rfl

/-- A statement that ended in an error returns in one of the listed ways. -/
theorem Call.onError_returns {c : Call} {r : Result} (env : Env) (db : Store)
    (h : c.onError = .done r) : Call.Returns env db c r := by
  cases c with
  | pendingLoad limit row rest out =>
    obtain ⟨rfl, rfl⟩ := scanPending_done h
    exact .pendingSkip
  | cleanupKeysDelete args row rest deleted => exact absurd h cleanupKeys_done
  | cleanupLettersDelete row rest m n => exact .silent (cleanupLetters_done h)
  | _ => cases h; exact .silent rfl

/-- Whatever the driver reports, an operation returns in one of the listed ways. -/
theorem Call.next_returns {c : Call} {r : Result} {report : Report} {env : Env} {db : Store}
    (h : c.next report env db = .done r) : Call.Returns env db c r := by
  unfold Call.next at h
  split_ifs at h with hok
  · exact Call.exec_returns h
  · exact Call.onError_returns env db h

/-- Without the driver's acknowledgement an operation neither returns an appended
event nor obtains a lease. -/
theorem Call.onError_ne {c : Call} {r : Result} (h : c.onError = .done r) :
    (∀ res, r ≠ .appended res) ∧ r ≠ .leased true := by
  cases c with
  | pendingLoad limit row rest out =>
    obtain ⟨-, rfl⟩ := scanPending_done h
    simp
  | cleanupKeysDelete args row rest deleted => exact absurd h cleanupKeys_done
  | cleanupLettersDelete row rest m n =>
    have hsilent := cleanupLetters_done h
    constructor
    · rintro res rfl
      cases hsilent
    · rintro rfl
      cases hsilent
  | _ => cases h; simp

/-- An append that returns without an error was acknowledged by the driver. -/
theorem Call.report_of_appended {c : Call} {report : Report} {env : Env} {db : Store}
    {res : AppendResult} (h : c.next report env db = .done (.appended res)) : report = .ok := by
  unfold Call.next at h
  split_ifs at h with hok
  · exact hok
  · exact absurd rfl ((Call.onError_ne h).1 res)

/-- A refused statement changes nothing, any other one performs a listed change. -/
theorem Call.effect_mutation (c : Call) (report : Report) (env : Env) (db : Store) :
    (report = .refused ∧ c.effect report env db = db) ∨
      (report ≠ .refused ∧ Call.Mutation env db c (c.effect report env db)) := by
  unfold Call.effect
  by_cases h : report = .refused
  · exact Or.inl ⟨h, by rw [if_pos h]⟩
  · right
    refine ⟨h, ?_⟩
    rw [if_neg h]
    exact c.exec_mutation env db

/-- What holds of the database before a statement and after every change that the
statement can make holds after the statement. -/
theorem Call.effect_keeps {P : Store → Prop} {c : Call} {report : Report} {env : Env} {db : Store}
    (h : P db) (hm : report ≠ .refused → ∀ db', Call.Mutation env db c db' → P db') :
    P (c.effect report env db) := by
  rcases c.effect_mutation report env db with ⟨-, heq⟩ | ⟨hreport, hmutation⟩
  · rwa [heq]
  · exact hm hreport _ hmutation

end ControlPlane

import ControlPlane.Store.Tables

/-!
# The store operations, statement by statement

Each operation of `cassstore` is a sequence of database statements with local
computation between them. A `Call` is the point that an operation has reached:
the statement it is about to issue, with the local variables that later code
reads. `Call.exec` performs that statement and the local code up to the next
one; `Call.onError` is what the operation does when the driver reports an error
for the statement instead.
-/

namespace ControlPlane

/-- How `ScanCAS` reports a conditional insert that was not applied: it delivers
the stored identifier, or it fails because the columns of the returned row do not
match the scan destinations. -/
inductive CasScan
  | row
  | mismatch
  deriving DecidableEq

/-- What the environment supplies to one statement: the value that `time.Now`
returned to the code preparing it, the value of `rand.Intn` before reduction, and
the report of a conditional insert that was not applied. -/
structure Env where
  now : Time
  draw : ℕ := 0
  scan : CasScan := .row
  deriving DecidableEq

/-- The arguments of `RecordOutboxFailure`. -/
structure FailureArgs where
  eventID : UUID
  lastError : String
  baseBackoff : Duration
  maxBackoff : Duration
  jitterPercent : ℤ
  quarantineAfter : ℤ
  deriving DecidableEq

/-- The arguments of `CleanupExpired`. -/
structure CleanupArgs where
  idempotencyBefore : Time
  deadLetterBefore : Time
  limit : ℤ
  deriving DecidableEq

/-- The four values that `loadRetryState` returns. -/
structure RetryView where
  retryCount : ℤ
  nextAttemptAt : Time
  quarantined : Bool
  leaseUntil : Time
  deriving DecidableEq

/-- One row scanned from the partition `pending` of `outbox_by_state`. -/
abbrev PendingRow := EventKey × Content

/-- The operations that a client of the store can call. `append` carries the
identifier that `gocql.TimeUUID` produces for the call. -/
inductive Op
  | append (event : EventRecord) (newID : UUID)
  | mark (eventID : UUID) (brokerMessageID : String)
  | pending (limit : ℤ)
  | claimInbox (consumer messageID : String)
  | recent (stream : String) (limit : ℤ)
  | claimLease (eventID : UUID) (owner : String) (leaseDuration : Duration)
  | recordFailure (args : FailureArgs)
  | listLetters (limit : ℤ)
  | replay (eventID : UUID)
  | cleanup (args : CleanupArgs)
  deriving DecidableEq

/-- An operation in progress, named after the statement it issues next. -/
inductive Call
  | appendKey (ev : EventRecord) (newID : UUID)
  | appendLookup (ev : EventRecord) (existingID : UUID)
  | appendPublished (ev existing : EventRecord)
  | appendIndex (ev : EventRecord) (newID : UUID)
  | appendBatch (ev : EventRecord) (newID : UUID)
  | markRead (id : UUID) (brokerMessageID : String)
  | markBatch (id : UUID) (brokerMessageID : String) (occurredAt : Time)
  | pendingSelect (limit : ℤ)
  | pendingLoad (limit : ℕ) (row : PendingRow) (rest : List PendingRow) (out : List EventRecord)
  | pendingJudge (limit : ℕ) (row : PendingRow) (view : RetryView) (rest : List PendingRow)
      (out : List EventRecord)
  | inboxInsert (consumer messageID : String)
  | recentSelect (stream : String) (limit : ℤ)
  | leaseUpdate (id : UUID) (owner : String) (leaseDuration : Duration)
  | failureRead (args : FailureArgs)
  | failureUpdate (args : FailureArgs) (retryCount : ℤ) (firstFailed : Time)
  | failureLookup (args : FailureArgs) (retryCount : ℤ) (now : Time)
  | failureBatch (args : FailureArgs) (retryCount : ℤ) (now : Time) (content : Content)
  | lettersSelect (limit : ℤ)
  | replayRead (id : UUID)
  | replayOccurred (id : UUID) (letter : DeadLetterById)
  | replayBatch (id : UUID) (letter : DeadLetterById) (now occurredAt : Time)
  | cleanupKeysSelect (args : CleanupArgs)
  | cleanupKeysDelete (args : CleanupArgs) (row : CreatedKey) (rest : List CreatedKey)
      (idemDeleted : ℕ)
  | cleanupLettersSelect (args : CleanupArgs) (idemDeleted : ℕ)
  | cleanupLettersDelete (row : EventKey) (rest : List EventKey) (idemDeleted dlDeleted : ℕ)
  deriving DecidableEq

/-- The statements of `CleanupExpired`. -/
def Call.cleaning : Call → Bool
  | .cleanupKeysSelect _ | .cleanupKeysDelete _ _ _ _ | .cleanupLettersSelect _ _
  | .cleanupLettersDelete _ _ _ _ => true
  | _ => false

/-- What an operation returns. `failed` is an error without further results;
`unrecorded` is the error return of `RecordOutboxFailure`, which also reports its
quarantine decision and retry count. -/
inductive Result
  | appended (res : AppendResult)
  | marked
  | pending (events : List EventRecord)
  | claimedInbox (applied : Bool)
  | recent (events : List EventRecord)
  | leased (applied : Bool)
  | recorded (quarantined : Bool) (retryCount : ℤ)
  | unrecorded (quarantined : Bool) (retryCount : ℤ)
  | letters (events : List EventRecord)
  | replayed
  | cleaned (idemDeleted dlDeleted : ℕ)
  | failed
  deriving DecidableEq

/-- Whether a store operation returned an error. -/
def Result.isError : Result → Bool
  | .failed | .unrecorded _ _ => true
  | _ => false

/-- After a statement an operation issues another one or returns. -/
inductive Next
  | call (c : Call)
  | done (r : Result)
  deriving DecidableEq

/-- The stream under which an append files its event. -/
def streamOrDefault (stream : String) : String := if stream = "" then "default" else stream

/-- The event that `AppendEventExactlyOnce` works on after filling in defaults. -/
def EventRecord.normalize (ev : EventRecord) (now : Time) : EventRecord :=
  { ev with
    stream := streamOrDefault ev.stream
    occurredAt := if ev.occurredAt = zeroTime then now else ev.occurredAt }

/-- The clamped `limit` of `PendingOutboxEvents`. -/
def pendingLimit (limit : ℤ) : ℕ :=
  if limit ≤ 0 then 100 else if 2000 < limit then 2000 else limit.toNat

/-- The number of rows that `PendingOutboxEvents` reads to fill `limit` places. -/
def fetchLimit (limit : ℕ) : ℕ := if limit * 5 < 100 then 100 else limit * 5

/-- The clamped `limit` of `RecentEvents`. -/
def recentLimit (limit : ℤ) : ℕ :=
  if limit ≤ 0 then 50 else if 500 < limit then 500 else limit.toNat

/-- The defaulted `limit` of `ListDeadLetters`. -/
def lettersLimit (limit : ℤ) : ℕ := if limit ≤ 0 then 50 else limit.toNat

/-- The defaulted `limit` of `CleanupExpired`. -/
def cleanupLimit (limit : ℤ) : ℕ := if limit ≤ 0 then 200 else limit.toNat

/-- The loop of `RecordOutboxFailure` that doubles the wait up to its maximum. -/
def doubleWait (maxBackoff : Duration) : ℕ → Duration → Duration
  | 0, wait => wait
  | n + 1, wait =>
      if maxBackoff ≤ wait * 2 then maxBackoff else doubleWait maxBackoff n (wait * 2)

/-- The random jitter of `RecordOutboxFailure`, for any model of `rand.Intn`. -/
def jitterBy {m : Type → Type} [Monad m] (intn : ℤ → m ℤ) (wait : Duration) (jitterPercent : ℤ) :
    m Duration :=
  if 0 < jitterPercent then
    let jitterRange := ((wait.tdiv 1000000) * jitterPercent).tdiv 100
    if 0 < jitterRange then do
      let delta := (← intn (jitterRange * 2 + 1)) - jitterRange
      let wait := wait + delta * 1000000
      return if wait < 10 * 1000000 then 10 * 1000000 else wait
    else return wait
  else return wait

/-- The wait after the random jitter, where `rand.Intn` reduces the draw. -/
def jitterWait (wait : Duration) (jitterPercent : ℤ) (draw : ℕ) : Duration :=
  Id.run (jitterBy (fun n => pure (draw % n)) wait jitterPercent)

/-- The wait before the next attempt, given the incremented retry count. -/
def FailureArgs.wait (args : FailureArgs) (retryCount : ℤ) (draw : ℕ) : Duration :=
  jitterWait (doubleWait args.maxBackoff (retryCount - 1).toNat args.baseBackoff)
    args.jitterPercent draw

/-- Whether a failure with this incremented retry count quarantines the event. -/
def FailureArgs.quarantines (args : FailureArgs) (retryCount : ℤ) : Bool :=
  decide (args.quarantineAfter ≤ retryCount)

/-- The row read of `loadRetryState`, with its defaults for a missing row. -/
def Store.loadRetryState (db : Store) (id : UUID) : RetryView :=
  match db.outboxRetryState id with
  | none => ⟨0, unixEpoch, false, unixEpoch⟩
  | some row =>
      { retryCount := row.retryCount
        nextAttemptAt := ofTimestamp row.nextAttemptAt
        quarantined := row.quarantined
        leaseUntil := (row.leaseUntil.map ofTimestamp).getD zeroTime }

/-- The test with which `PendingOutboxEvents` skips an event. -/
def RetryView.skipped (view : RetryView) (now : Time) : Bool :=
  view.quarantined || decide (now < view.nextAttemptAt) || decide (now < view.leaseUntil)

/-- The record that `PendingOutboxEvents` returns for a scanned row. -/
def pendingRecord (row : PendingRow) (retryCount : ℤ) : EventRecord :=
  { toContent := row.2
    id := (ofLex row.1).2
    occurredAt := ofTimestamp (ofLex row.1).1
    retryCount }

/-- The record that `RecentEvents` returns for a scanned row. -/
def recentRecord (stream : String) (row : EventKey × Body) : EventRecord :=
  { toBody := row.2, stream, id := (ofLex row.1).2, occurredAt := ofTimestamp (ofLex row.1).1 }

/-- The record that `ListDeadLetters` returns for a scanned row. -/
def letterRecord (row : EventKey × DeadLetter) : EventRecord :=
  { toContent := row.2.toContent
    id := (ofLex row.1).2
    occurredAt := zeroTime
    retryCount := row.2.retryCount
    lastError := row.2.lastError
    quarantinedAt := ofTimestamp (ofLex row.1).1 }

/-- The head of the scan loop of `PendingOutboxEvents`. -/
def scanPending (limit : ℕ) (rows : List PendingRow) (out : List EventRecord) : Next :=
  match rows with
  | [] => .done (.pending out)
  | row :: rest => .call (.pendingLoad limit row rest out)

/-- The head of the key-deletion loop of `CleanupExpired`. -/
def cleanupKeys (args : CleanupArgs) (rows : List CreatedKey) (idemDeleted : ℕ) : Next :=
  match rows with
  | [] => .call (.cleanupLettersSelect args idemDeleted)
  | row :: rest => .call (.cleanupKeysDelete args row rest idemDeleted)

/-- The head of the dead-letter deletion loop of `CleanupExpired`. -/
def cleanupLetters (rows : List EventKey) (idemDeleted dlDeleted : ℕ) : Next :=
  match rows with
  | [] => .done (.cleaned idemDeleted dlDeleted)
  | row :: rest => .call (.cleanupLettersDelete row rest idemDeleted dlDeleted)

/-- The call that an operation starts as, given the time at which it starts. -/
def Op.begin (now : Time) : Op → Call
  | .append ev newID =>
      if ev.idempotencyKey = "" then .appendBatch (ev.normalize now) newID
      else .appendKey (ev.normalize now) newID
  | .mark id brokerMessageID => .markRead id brokerMessageID
  | .pending limit => .pendingSelect limit
  | .claimInbox consumer messageID => .inboxInsert consumer messageID
  | .recent stream limit => .recentSelect stream limit
  | .claimLease id owner leaseDuration => .leaseUpdate id owner leaseDuration
  | .recordFailure args => .failureRead args
  | .listLetters limit => .lettersSelect limit
  | .replay id => .replayRead id
  | .cleanup args => .cleanupKeysSelect args

/-- The identifiers that an operation draws from `gocql.TimeUUID`. -/
def Op.draws : Op → List UUID
  | .append _ newID => [newID]
  | _ => []

/-- Execute the next statement of an operation and the local code after it. -/
def Call.exec (env : Env) (db : Store) : Call → Store × Next
  | .appendKey ev newID =>
      match db.idempotencyKeys (ev.stream, ev.idempotencyKey) with
      | none =>
          (db.insertKey ev.stream ev.idempotencyKey
            ⟨newID, sha256Hex ev.payload, toTimestamp env.now⟩, .call (.appendIndex ev newID))
      | some row =>
          match env.scan with
          | .mismatch => (db, .done .failed)
          | .row => (db, .call (.appendLookup ev row.eventId))
  | .appendLookup ev existingID =>
      match db.eventsById existingID with
      | none => (db, .done .failed)
      | some row =>
          (db, .call (.appendPublished ev
            { toContent := row.toContent, id := existingID, idempotencyKey := ev.idempotencyKey,
              occurredAt := ofTimestamp row.occurredAt }))
  | .appendPublished _ existing =>
      match db.outboxEvents existing.id with
      | none => (db, .done .failed)
      | some row =>
          (db, .done (.appended ⟨existing, true, decide (row.publishState = .published)⟩))
  | .appendIndex ev newID =>
      (db.insertKeyIndex (toTimestamp env.now) ev.stream ev.idempotencyKey newID,
        .call (.appendBatch ev newID))
  | .appendBatch ev newID =>
      (db.insertEvent ev newID, .done (.appended ⟨{ ev with id := newID }, false, false⟩))
  | .markRead id brokerMessageID =>
      match db.outboxEvents id with
      | none => (db, .done .failed)
      | some row => (db, .call (.markBatch id brokerMessageID (ofTimestamp row.occurredAt)))
  | .markBatch id brokerMessageID occurredAt =>
      (db.markPublished id brokerMessageID (toTimestamp env.now) (toTimestamp occurredAt),
        .done .marked)
  | .pendingSelect limit =>
      (db, scanPending (pendingLimit limit) (db.outboxByState.page (fetchLimit (pendingLimit limit)))
        [])
  | .pendingLoad limit row rest out =>
      (db, .call (.pendingJudge limit row (db.loadRetryState (ofLex row.1).2) rest out))
  | .pendingJudge limit row view rest out =>
      if view.skipped env.now then (db, scanPending limit rest out)
      else
        let out := out ++ [pendingRecord row view.retryCount]
        if limit ≤ out.length then (db, .done (.pending out)) else (db, scanPending limit rest out)
  | .inboxInsert consumer messageID =>
      match db.inboxConsumed (consumer, messageID) with
      | none =>
          (db.insertInbox consumer messageID (toTimestamp env.now), .done (.claimedInbox true))
      | some _ =>
          match env.scan with
          | .mismatch => (db, .done .failed)
          | .row => (db, .done (.claimedInbox false))
  | .recentSelect stream limit =>
      (db, .done (.recent (((db.eventsByStream stream).rows.reverse.take (recentLimit limit)).map
        (recentRecord stream))))
  | .leaseUpdate id owner leaseDuration =>
      if db.leaseFree id (toTimestamp env.now) then
        (db.setLease id owner (toTimestamp (env.now + leaseDuration)), .done (.leased true))
      else (db, .done (.leased false))
  | .failureRead args =>
      match db.outboxRetryState args.eventID with
      | none => (db, .call (.failureUpdate args (0 + 1) zeroTime))
      | some row =>
          (db, .call (.failureUpdate args (row.retryCount + 1) (ofTimestamp row.firstFailedAt)))
  | .failureUpdate args retryCount firstFailed =>
      (db.setFailure args.eventID retryCount
          (toTimestamp (env.now + args.wait retryCount env.draw)) args.lastError
          (args.quarantines retryCount) (toTimestamp env.now)
          (toTimestamp (if firstFailed = zeroTime then env.now else firstFailed)),
        if args.quarantines retryCount then .call (.failureLookup args retryCount env.now)
        else .done (.recorded false retryCount))
  | .failureLookup args retryCount now =>
      match db.outboxEvents args.eventID with
      | none => (db, .done (.unrecorded true retryCount))
      | some row => (db, .call (.failureBatch args retryCount now row.toContent))
  | .failureBatch args retryCount now content =>
      (db.insertDeadLetter args.eventID (toTimestamp now)
          { toContent := content, retryCount, lastError := args.lastError },
        .done (.recorded true retryCount))
  | .lettersSelect limit =>
      (db, .done (.letters ((db.deadLettersByTime.page (lettersLimit limit)).map letterRecord)))
  | .replayRead id =>
      match db.deadLettersById id with
      | none => (db, .done .failed)
      | some letter => (db, .call (.replayOccurred id letter))
  | .replayOccurred id letter =>
      match db.outboxEvents id with
      | none => (db, .call (.replayBatch id letter env.now env.now))
      | some row => (db, .call (.replayBatch id letter env.now (ofTimestamp row.occurredAt)))
  | .replayBatch id letter now occurredAt =>
      (db.replay id letter (toTimestamp now) (toTimestamp occurredAt), .done .replayed)
  | .cleanupKeysSelect args =>
      (db, cleanupKeys args (((db.idempotencyByCreated.page (cleanupLimit args.limit)).map
        Prod.fst).filter fun key => decide (ofTimestamp (ofLex key).1 < args.idempotencyBefore)) 0)
  | .cleanupKeysDelete args row rest idemDeleted =>
      (db.deleteKey (ofLex row).1 (ofLex (ofLex row).2).1 (ofLex (ofLex row).2).2,
        cleanupKeys args rest (idemDeleted + 1))
  | .cleanupLettersSelect args idemDeleted =>
      (db, cleanupLetters (((db.deadLettersByTime.page (cleanupLimit args.limit)).map
        Prod.fst).filter fun key => decide (ofTimestamp (ofLex key).1 < args.deadLetterBefore))
        idemDeleted 0)
  | .cleanupLettersDelete row rest idemDeleted dlDeleted =>
      (db.deleteDeadLetter (ofLex row).1 (ofLex row).2,
        cleanupLetters rest idemDeleted (dlDeleted + 1))

/-- The rest of an operation executed alone, each statement in its own environment.
There is no result when the environments run out before the operation returns. -/
def Call.complete : List Env → Store → Call → Option (Store × Result)
  | [], _, _ => none
  | env :: envs, db, c =>
      match c.exec env db with
      | (db', .done r) => some (db', r)
      | (db', .call d) => d.complete envs db'

/-- What an operation does when the driver reports an error for its statement.
The relay scan skips a row whose retry state it cannot load, `CleanupExpired`
goes on to its next row, and every other operation returns the error. -/
def Call.onError : Call → Next
  | .pendingLoad limit _ rest out => scanPending limit rest out
  | .failureRead _ => .done (.unrecorded false 0)
  | .failureUpdate _ retryCount _ => .done (.unrecorded false retryCount)
  | .failureLookup _ retryCount _ => .done (.unrecorded true retryCount)
  | .failureBatch _ retryCount _ _ => .done (.unrecorded true retryCount)
  | .cleanupKeysDelete args _ rest idemDeleted => cleanupKeys args rest idemDeleted
  | .cleanupLettersDelete _ rest idemDeleted dlDeleted => cleanupLetters rest idemDeleted dlDeleted
  | _ => .done .failed

end ControlPlane

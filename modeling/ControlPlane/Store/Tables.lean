import ControlPlane.Clustered
import Mathlib.Order.Interval.Set.Defs
import Mathlib.Logic.Function.Basic
import Mathlib.Data.String.Basic

/-!
# The tables of the Cassandra event store

The ten tables of `cassstore` and the mutations that its statements perform on
them. Columns follow the schema created by `Start`. A column that a row never
received reads back as the zero value of the Go variable it is scanned into, so
rows hold that value; `lease_until` alone is optional, since the database itself
compares it. A logged batch is one mutation.
-/

namespace ControlPlane

/-- Instants of `time.Time`, in nanoseconds since the Unix epoch. -/
abbrev Time := ℤ

/-- Values of `time.Duration`, in nanoseconds. -/
abbrev Duration := ℤ

/-- Values of a CQL `timestamp` column, in milliseconds since the Unix epoch. -/
abbrev Timestamp := ℤ

/-- Time UUIDs, ordered as the database orders them. The text form that the code
passes between layers identifies a UUID, so the same type stands for both. -/
abbrev UUID := ℕ

/-- The driver stores an instant with millisecond precision. -/
def toTimestamp (t : Time) : Timestamp := t / 1000000

/-- The instant read back from a `timestamp` column. -/
def ofTimestamp (t : Timestamp) : Time := t * 1000000

/-- The zero `time.Time`, to which the driver scans an absent timestamp. -/
def zeroTime : Time := -62135596800000000000

/-- `time.Unix(0, 0)`, which the code writes for a lease that nobody holds. -/
def unixEpoch : Time := 0

@[simp] theorem toTimestamp_ofTimestamp (t : Timestamp) : toTimestamp (ofTimestamp t) = t := by
  simp [toTimestamp, ofTimestamp]

/-- Storing instants keeps their order. -/
theorem toTimestamp_mono {t t' : Time} (h : t ≤ t') : toTimestamp t ≤ toTimestamp t' :=
  Int.ediv_le_ediv (by decide) h

/-- A stored instant is not after `t` exactly when it is not after `t` as stored. -/
theorem ofTimestamp_le {t : Timestamp} {t' : Time} : ofTimestamp t ≤ t' ↔ t ≤ toTimestamp t' :=
  (Int.le_ediv_iff_mul_le (by decide)).symm

/-- A digest of a payload. SHA-256 is taken to be injective, so a digest is known
by the data it was computed from. -/
structure Digest where
  /-- The hashed data. -/
  data : String
  deriving DecidableEq

/-- `sha256Hex`. -/
def sha256Hex (data : String) : Digest := ⟨data⟩

/-- What an event says, apart from the stream it belongs to. -/
structure Body where
  subject : String
  eventType : String
  payload : String
  deriving DecidableEq

/-- The four text columns that every copy of an event carries. -/
structure Content extends Body where
  stream : String
  deriving DecidableEq

/-- `modules.EventRecord`. The identifier is unset until the event is appended. -/
structure EventRecord extends Content where
  id : UUID := 0
  idempotencyKey : String := ""
  occurredAt : Time
  retryCount : ℤ := 0
  lastError : String := ""
  quarantinedAt : Time := zeroTime
  deriving DecidableEq

/-- `modules.AppendResult`. -/
structure AppendResult where
  event : EventRecord
  duplicate : Bool
  published : Bool
  deriving DecidableEq

/-- The two values of `publish_state`. -/
inductive PublishState
  | pending
  | published
  deriving DecidableEq

/-- A row of `events_by_id`. -/
structure EventRow extends Content where
  occurredAt : Timestamp
  deriving DecidableEq

/-- A row of `idempotency_keys`. -/
structure KeyRow where
  eventId : UUID
  payloadHash : Digest
  createdAt : Timestamp
  deriving DecidableEq

/-- A row of `outbox_events`. -/
structure OutboxRow extends Content where
  occurredAt : Timestamp
  publishState : PublishState
  publishedAt : Timestamp
  brokerMessageId : String
  deriving DecidableEq

/-- A row of `outbox_retry_state`. -/
structure RetryRow where
  retryCount : ℤ
  nextAttemptAt : Timestamp
  lastError : String
  leaseOwner : String
  leaseUntil : Option Timestamp
  quarantined : Bool
  quarantinedAt : Timestamp
  firstFailedAt : Timestamp
  deriving DecidableEq

/-- A row of `dead_letters_by_time`. -/
structure DeadLetter extends Content where
  retryCount : ℤ
  lastError : String
  deriving DecidableEq

/-- A row of `dead_letters_by_id`. -/
structure DeadLetterById extends DeadLetter where
  quarantinedAt : Timestamp
  deriving DecidableEq

/-- The row that an upsert of `outbox_events` starts from when there is none. -/
def OutboxRow.null : OutboxRow where
  subject := ""
  eventType := ""
  payload := ""
  stream := ""
  occurredAt := toTimestamp zeroTime
  publishState := .pending
  publishedAt := toTimestamp zeroTime
  brokerMessageId := ""

/-- The row that an upsert of `outbox_retry_state` starts from when there is none. -/
def RetryRow.null : RetryRow where
  retryCount := 0
  nextAttemptAt := toTimestamp zeroTime
  lastError := ""
  leaseOwner := ""
  leaseUntil := none
  quarantined := false
  quarantinedAt := toTimestamp zeroTime
  firstFailedAt := toTimestamp zeroTime

/-- The clustering key shared by the time-ordered partitions of events. -/
abbrev EventKey := Timestamp ×ₗ UUID

/-- The clustering key of `idempotency_by_created`. -/
abbrev CreatedKey := Timestamp ×ₗ String ×ₗ String

/-- The state of the database. Of `outbox_by_state` only the partition `pending`
occurs in any statement, and of the bucketed tables only the bucket `all`. -/
structure Store where
  eventsByStream : String → Clustered EventKey Body
  eventsById : UUID → Option EventRow
  idempotencyKeys : String × String → Option KeyRow
  idempotencyByCreated : Clustered CreatedKey UUID
  outboxEvents : UUID → Option OutboxRow
  outboxRetryState : UUID → Option RetryRow
  outboxByState : Clustered EventKey Content
  inboxConsumed : String × String → Option Timestamp
  deadLettersByTime : Clustered EventKey DeadLetter
  deadLettersById : UUID → Option DeadLetterById

/-- The tables right after `Start` created them. -/
def Store.empty : Store where
  eventsByStream := fun _ => .empty
  eventsById := fun _ => none
  idempotencyKeys := fun _ => none
  idempotencyByCreated := .empty
  outboxEvents := fun _ => none
  outboxRetryState := fun _ => none
  outboxByState := .empty
  inboxConsumed := fun _ => none
  deadLettersByTime := .empty
  deadLettersById := fun _ => none

namespace Store

variable (db : Store)

/-- The applied `INSERT INTO idempotency_keys ... IF NOT EXISTS`. -/
def insertKey (stream key : String) (row : KeyRow) : Store :=
  { db with idempotencyKeys := Function.update db.idempotencyKeys (stream, key) (some row) }

/-- `INSERT INTO idempotency_by_created`. -/
def insertKeyIndex (createdAt : Timestamp) (stream key : String) (id : UUID) : Store :=
  { db with
    idempotencyByCreated := db.idempotencyByCreated.put
      (toLex (createdAt, toLex (stream, key))) id }

/-- `INSERT INTO outbox_events`, which leaves `published_at` and
`broker_message_id` of an existing row as they are. -/
def upsertPending (id : UUID) (content : Content) (occurredAt : Timestamp) : OutboxRow :=
  { (db.outboxEvents id).getD OutboxRow.null with
    toContent := content, occurredAt, publishState := .pending }

/-- The logged batch of `AppendEventExactlyOnce`. -/
def insertEvent (ev : EventRecord) (id : UUID) : Store :=
  let occurredAt := toTimestamp ev.occurredAt
  { db with
    eventsByStream := Function.update db.eventsByStream ev.stream
      ((db.eventsByStream ev.stream).put (toLex (occurredAt, id)) ev.toBody)
    eventsById := Function.update db.eventsById id
      (some { toContent := ev.toContent, occurredAt })
    outboxEvents := Function.update db.outboxEvents id
      (some (db.upsertPending id ev.toContent occurredAt))
    outboxByState := db.outboxByState.put (toLex (occurredAt, id)) ev.toContent
    outboxRetryState := Function.update db.outboxRetryState id
      (some { (db.outboxRetryState id).getD RetryRow.null with
        retryCount := 0, nextAttemptAt := occurredAt, lastError := "", leaseOwner := "",
        leaseUntil := some (toTimestamp unixEpoch), quarantined := false }) }

/-- The logged batch of `MarkOutboxPublished`. -/
def markPublished (id : UUID) (brokerMessageID : String) (publishedAt occurredAt : Timestamp) :
    Store :=
  { db with
    outboxEvents := Function.update db.outboxEvents id
      (some { (db.outboxEvents id).getD OutboxRow.null with
        publishState := .published, publishedAt, brokerMessageId := brokerMessageID })
    outboxByState := db.outboxByState.erase (toLex (occurredAt, id))
    outboxRetryState := Function.update db.outboxRetryState id none }

/-- Whether `UPDATE outbox_retry_state ... IF lease_until < ?` applies. -/
def leaseFree (id : UUID) (now : Timestamp) : Bool :=
  match db.outboxRetryState id with
  | some { leaseUntil := some u, .. } => decide (u < now)
  | _ => false

/-- The applied `UPDATE outbox_retry_state SET lease_owner = ?, lease_until = ?`. -/
def setLease (id : UUID) (owner : String) (leaseUntil : Timestamp) : Store :=
  { db with
    outboxRetryState := Function.update db.outboxRetryState id
      (some { (db.outboxRetryState id).getD RetryRow.null with
        leaseOwner := owner, leaseUntil := some leaseUntil }) }

/-- The `UPDATE outbox_retry_state` of `RecordOutboxFailure`. -/
def setFailure (id : UUID) (retryCount : ℤ) (nextAttempt : Timestamp) (lastError : String)
    (quarantined : Bool) (now firstFailed : Timestamp) : Store :=
  { db with
    outboxRetryState := Function.update db.outboxRetryState id
      (some {
        retryCount, nextAttemptAt := nextAttempt, lastError, leaseOwner := "",
        leaseUntil := some (toTimestamp unixEpoch), quarantined, quarantinedAt := now,
        firstFailedAt := firstFailed }) }

/-- The logged batch of `RecordOutboxFailure`. -/
def insertDeadLetter (id : UUID) (quarantinedAt : Timestamp) (letter : DeadLetter) : Store :=
  { db with
    deadLettersByTime := db.deadLettersByTime.put (toLex (quarantinedAt, id)) letter
    deadLettersById := Function.update db.deadLettersById id
      (some { toDeadLetter := letter, quarantinedAt }) }

/-- The logged batch of `ReplayDeadLetter`. -/
def replay (id : UUID) (letter : DeadLetterById) (now occurredAt : Timestamp) : Store :=
  { db with
    outboxEvents := Function.update db.outboxEvents id
      (some (db.upsertPending id letter.toContent occurredAt))
    outboxByState := db.outboxByState.put (toLex (occurredAt, id)) letter.toContent
    outboxRetryState := Function.update db.outboxRetryState id
      (some { (db.outboxRetryState id).getD RetryRow.null with
        quarantined := false, quarantinedAt := toTimestamp unixEpoch,
        retryCount := letter.retryCount, nextAttemptAt := now, lastError := "", leaseOwner := "",
        leaseUntil := some (toTimestamp unixEpoch) })
    deadLettersByTime := db.deadLettersByTime.erase (toLex (letter.quarantinedAt, id))
    deadLettersById := Function.update db.deadLettersById id none }

/-- The logged batch that `CleanupExpired` executes for one idempotency key. -/
def deleteKey (createdAt : Timestamp) (stream key : String) : Store :=
  { db with
    idempotencyKeys := Function.update db.idempotencyKeys (stream, key) none
    idempotencyByCreated :=
      db.idempotencyByCreated.erase (toLex (createdAt, toLex (stream, key))) }

/-- The logged batch that `CleanupExpired` executes for one dead letter. -/
def deleteDeadLetter (quarantinedAt : Timestamp) (id : UUID) : Store :=
  { db with
    deadLettersByTime := db.deadLettersByTime.erase (toLex (quarantinedAt, id))
    deadLettersById := Function.update db.deadLettersById id none }

/-- The applied `INSERT INTO inbox_consumed ... IF NOT EXISTS`. -/
def insertInbox (consumer messageID : String) (consumedAt : Timestamp) : Store :=
  { db with
    inboxConsumed := Function.update db.inboxConsumed (consumer, messageID) (some consumedAt) }

end Store

end ControlPlane

import ControlPlane.Store.Calls
import ControlPlane.App.Breaker

/-!
# The processes of a node

A publish request, a relay batch, a replay, a cleanup run and a delivered message
are processes of a node. A process is a program counter with the local variables
that later code reads; between two of its steps it waits for a store operation, for
the bus or for its retry timer. `Pc.resume` is the code that runs when a store
operation returns, `Job.attemptFailed` the code that runs when an attempt to publish
fails. What a process does next is an `Action`.
-/

namespace ControlPlane

/-- The fields of `config.Config` that these processes read. -/
structure Config where
  nodeID : String
  publishRetryMax : ℤ
  publishRetryBackoffMs : ℤ
  publishRetryMaxBackoffMs : ℤ
  outboxRelayBatchSize : ℤ
  outboxLeaseMs : ℤ
  outboxBackoffBaseMs : ℤ
  outboxBackoffMaxMs : ℤ
  outboxBackoffJitterPct : ℤ
  outboxQuarantineAfter : ℤ
  idempotencyTTLHours : ℤ
  deadLetterTTLHours : ℤ
  cleanupBatchSize : ℤ
  circuitFailureThreshold : ℤ
  circuitOpenMs : ℤ
  circuitHalfOpenSuccesses : ℤ
  deriving DecidableEq

/-- A number of milliseconds as a duration. -/
def milliseconds (n : ℤ) : Duration := n * 1000000

/-- A number of hours as a duration. -/
def hours (n : ℤ) : Duration := n * 3600000000000

namespace Config

variable (cfg : Config)

/-- The number of attempts of `publishWithRetry`. -/
def publishAttempts : ℕ := if cfg.publishRetryMax ≤ 0 then 1 else cfg.publishRetryMax.toNat

/-- The wait of `publishWithRetry` after its first attempt. -/
def publishBackoff : Duration :=
  if cfg.publishRetryBackoffMs ≤ 0 then milliseconds 150 else milliseconds cfg.publishRetryBackoffMs

/-- The longest wait of `publishWithRetry`. -/
def publishMaxBackoff : Duration :=
  if cfg.publishRetryMaxBackoffMs ≤ 0 then milliseconds 3000
  else milliseconds cfg.publishRetryMaxBackoffMs

/-- The lease duration with which `claimOutboxLease` calls the store. -/
def leaseDuration : Duration := milliseconds (max 1000 cfg.outboxLeaseMs)

/-- The arguments with which `recordOutboxFailure` calls the store. -/
def failureArgs (eventID : UUID) (publishErr : String) : FailureArgs where
  eventID := eventID
  lastError := publishErr
  baseBackoff := milliseconds (max 50 cfg.outboxBackoffBaseMs)
  maxBackoff := milliseconds (max 200 cfg.outboxBackoffMaxMs)
  jitterPercent := max 0 cfg.outboxBackoffJitterPct
  quarantineAfter := max 1 cfg.outboxQuarantineAfter

/-- The arguments with which `runCleanupLoop` calls the store. -/
def cleanupArgs (now : Time) : CleanupArgs where
  idempotencyBefore := now - hours (max 1 cfg.idempotencyTTLHours)
  deadLetterBefore := now - hours (max 1 cfg.deadLetterTTLHours)
  limit := max 1 cfg.cleanupBatchSize

/-- The breaker that `New` creates for the bus and for the store. -/
def breaker : Breaker :=
  newCircuitBreaker (max 1 cfg.circuitFailureThreshold)
    (milliseconds (max 1000 cfg.circuitOpenMs)) (max 1 cfg.circuitHalfOpenSuccesses)

end Config

/-- `publishRequest`, the decoded body of `POST /events`. -/
structure PublishRequest where
  stream : String := ""
  subject : String := ""
  eventType : String := ""
  schemaVersion : ℤ := 0
  idempotencyKey : String := ""
  payload : String := ""
  deriving DecidableEq

/-- The defaults that `handlePublishEvent` fills in, given the value of the header
`Idempotency-Key`. -/
def PublishRequest.withDefaults (req : PublishRequest) (header : String) : PublishRequest :=
  let stream := if req.stream = "" then "default" else req.stream
  { stream
    subject := if req.subject = "" then "events." ++ stream else req.subject
    eventType := if req.eventType = "" then "event" else req.eventType
    schemaVersion := if req.schemaVersion ≤ 0 then 1 else req.schemaVersion
    idempotencyKey := if req.idempotencyKey = "" then header else req.idempotencyKey
    payload := if req.payload = "" then "\x7b\x7d" else req.payload }

/-- The event that `handlePublishEvent` appends. -/
def PublishRequest.event (req : PublishRequest) (now : Time) : EventRecord where
  idempotencyKey := req.idempotencyKey
  stream := req.stream
  subject := req.subject
  eventType := req.eventType
  payload := req.payload
  occurredAt := now

/-- What a bus message carries. -/
structure Message where
  subject : String
  data : String
  messageID : UUID
  deriving DecidableEq

/-- What `bus.Publish` returns: the identifier that the broker assigned, or an error. -/
inductive Outcome
  | ok (brokerID : String)
  | error (err : String)
  deriving DecidableEq

/-- An event being published, for a request that waits for an answer or for a relay
batch with further events. -/
inductive Job
  | request (result : AppendResult)
  | relay (evt : EventRecord) (rest : List EventRecord)
  deriving DecidableEq

/-- The event that a job publishes. -/
def Job.event : Job → EventRecord
  | .request result => result.event
  | .relay evt _ => evt

/-- The message that a job publishes. -/
def Job.message (job : Job) : Message where
  subject := job.event.subject
  data := job.event.payload
  messageID := job.event.id

/-- The loop variables of `publishWithRetry`. -/
structure Attempt where
  number : ℕ
  wait : Duration
  deriving DecidableEq

/-- What a process is waiting for or about to do. -/
inductive Pc
  | appending
  | listing
  | claiming (evt : EventRecord) (rest : List EventRecord)
  | publishing (job : Job) (attempt : Attempt)
  | sent (job : Job) (attempt : Attempt)
  | waiting (job : Job) (attempt : Attempt) (due : Time)
  | recording (job : Job) (err : String)
  | marking (job : Job)
  | replaying (id : UUID)
  | cleaning
  | consuming (consumer messageID : String)
  | querying
  | browsing
  deriving DecidableEq

/-- The store operation that the process waits for is guarded by `storeBreaker`. -/
def Pc.guarded : Pc → Bool
  | .appending | .listing | .marking _ | .consuming _ _ | .querying => true
  | _ => false

/-- The answers to `POST /events` and to `POST /deadletters/replay` that the processes
write. -/
inductive Response
  | stored (event : EventRecord) (duplicate : Bool)
  | queued (id : UUID) (quarantined : Bool) (retryCount : ℤ) (err : String)
  | storeError
  | outboxError
  | replayed (id : UUID)
  | replayError
  deriving DecidableEq

/-- The status code of an answer. -/
def Response.status : Response → ℕ
  | .stored _ duplicate => if duplicate then 200 else 201
  | .queued _ _ _ _ => 202
  | .storeError | .outboxError => 500
  | .replayed _ => 200
  | .replayError => 500

/-- The event that an answer to `POST /events` names. -/
def Response.publishedID : Response → Option UUID
  | .stored event _ => some event.id
  | .queued id _ _ _ => some id
  | _ => none

/-- What a process does that others can observe: it calls `bus.Publish`, receives the
outcome, writes an answer or writes a message to a stream consumer. -/
inductive Occurrence
  | sent (msg : Message)
  | acked (msg : Message) (outcome : Outcome)
  | responded (resp : Response)
  | delivered (consumer messageID : String)
  deriving DecidableEq

/-- What a process does next: start a store operation, go on locally, or end. -/
inductive Action
  | call (op : Op) (pc : Pc)
  | goto (pc : Pc)
  | finish (out : Option Occurrence)
  deriving DecidableEq

/-- The first attempt of `publishWithRetry`. -/
def Config.firstAttempt (cfg : Config) : Attempt := ⟨1, cfg.publishBackoff⟩

/-- The head of the loop of `relayOutboxBatch`, which claims the next event. -/
def relayNext (cfg : Config) : List EventRecord → Action
  | [] => .finish none
  | evt :: rest => .call (.claimLease evt.id cfg.nodeID cfg.leaseDuration) (.claiming evt rest)

/-- The call of `recordOutboxFailure` after `publishWithRetry` failed. -/
def Job.recordFailure (cfg : Config) (job : Job) (err : String) : Action :=
  .call (.recordFailure (cfg.failureArgs job.event.id err)) (.recording job err)

/-- What `publishWithRetry` does after a failed attempt: give up or wait. -/
def Job.attemptFailed (cfg : Config) (now : Time) (job : Job) (attempt : Attempt) (err : String) :
    Action :=
  if attempt.number = cfg.publishAttempts then job.recordFailure cfg err
  else .goto (.waiting job ⟨attempt.number + 1, min (attempt.wait * 2) cfg.publishMaxBackoff⟩
    (now + attempt.wait))

/-- After a failed attempt the failure is recorded or the same job waits. -/
theorem Job.attemptFailed_cases (cfg : Config) (now : Time) (job : Job) (attempt : Attempt)
    (err : String) : job.attemptFailed cfg now attempt err = job.recordFailure cfg err ∨
    ∃ next wake, job.attemptFailed cfg now attempt err = .goto (.waiting job next wake) := by
  unfold Job.attemptFailed
  split_ifs
  · exact Or.inl rfl
  · exact Or.inr ⟨_, _, rfl⟩

/-- What follows `recordOutboxFailure`. -/
def Job.afterFailure (cfg : Config) (err : String) (quarantined : Bool) (retries : ℤ) : Job → Action
  | .request result => .finish (some (.responded (.queued result.event.id quarantined retries err)))
  | .relay _ rest => relayNext cfg rest

/-- What follows `storeMarkOutboxPublished`. -/
def Job.afterMark (cfg : Config) (marked : Bool) : Job → Action
  | .request result =>
      .finish (some (.responded
        (if marked then .stored result.event result.duplicate else .outboxError)))
  | .relay _ rest => relayNext cfg rest

/-- The code that runs when the store operation of a process returns. A process that
waits for the bus or for its timer has no such code. -/
def Pc.resume (cfg : Config) (pc : Pc) (r : Result) : Option Action :=
  match pc, r with
  | .appending, .appended result =>
      if result.published then
        some (.finish (some (.responded (.stored result.event result.duplicate))))
      else some (.goto (.publishing (.request result) cfg.firstAttempt))
  | .appending, _ => some (.finish (some (.responded .storeError)))
  | .listing, .pending events => some (relayNext cfg events)
  | .listing, _ => some (.finish none)
  | .claiming evt rest, .leased true => some (.goto (.publishing (.relay evt rest) cfg.firstAttempt))
  | .claiming _ rest, _ => some (relayNext cfg rest)
  | .recording job err, .recorded quarantined retries =>
      some (job.afterFailure cfg err quarantined retries)
  | .recording job err, .unrecorded _ retries => some (job.afterFailure cfg err false retries)
  | .recording job err, _ => some (job.afterFailure cfg err false 0)
  | .marking job, .marked => some (job.afterMark cfg true)
  | .marking job, _ => some (job.afterMark cfg false)
  | .replaying id, .replayed => some (.finish (some (.responded (.replayed id))))
  | .replaying _, _ => some (.finish (some (.responded .replayError)))
  | .consuming consumer messageID, .claimedInbox true =>
      some (.finish (some (.delivered consumer messageID)))
  | .consuming _ _, _ => some (.finish none)
  | .cleaning, _ | .querying, _ | .browsing, _ => some (.finish none)
  | .publishing _ _, _ | .sent _ _, _ | .waiting _ _ _, _ => none

/-- The kinds of actions with which a process goes on after a store operation: it
answers its request, delivers the message that it claimed, goes on with the relay batch,
makes a first attempt to publish, or ends. -/
inductive Pc.Resumes (cfg : Config) : Pc → Result → Action → Prop
  | answer {pc : Pc} {r : Result} {resp : Response} :
      Resumes cfg pc r (.finish (some (.responded resp)))
  | deliver {consumer messageID : String} :
      Resumes cfg (.consuming consumer messageID) (.claimedInbox true)
        (.finish (some (.delivered consumer messageID)))
  | relay {pc : Pc} {r : Result} {events : List EventRecord} :
      Resumes cfg pc r (relayNext cfg events)
  | first {pc : Pc} {r : Result} {job : Job} :
      Resumes cfg pc r (.goto (.publishing job cfg.firstAttempt))
  | finish {pc : Pc} {r : Result} : Resumes cfg pc r (.finish none)

theorem Job.afterFailure_resumes {cfg : Config} {pc : Pc} {r : Result} (job : Job) (err : String)
    (quarantined : Bool) (retries : ℤ) :
    Pc.Resumes cfg pc r (job.afterFailure cfg err quarantined retries) := by
  cases job with
  | request result => exact .answer
  | relay evt rest => exact .relay

theorem Job.afterMark_resumes {cfg : Config} {pc : Pc} {r : Result} (job : Job) (marked : Bool) :
    Pc.Resumes cfg pc r (job.afterMark cfg marked) := by
  cases job with
  | request result => exact .answer
  | relay evt rest => exact .relay

/-- A process goes on in one of the listed ways. -/
theorem Pc.resume_cases {cfg : Config} {pc : Pc} {r : Result} {action : Action}
    (h : pc.resume cfg r = some action) : Pc.Resumes cfg pc r action := by
  unfold Pc.resume at h
  split at h
  · split_ifs at h
    · cases h
      exact .answer
    · cases h
      exact .first
  all_goals first
    | (cases h; exact .answer)
    | (cases h; exact .deliver)
    | (cases h; exact .finish)
    | (cases h; exact .first)
    | (cases h; exact .relay)
    | (cases h; exact Job.afterFailure_resumes _ _ _ _)
    | (cases h; exact Job.afterMark_resumes _ _)
    | cases h

/-- What a node can start: a publish request that passed validation, a relay batch, a
replay, a cleanup run, the handling of one bus message for a stream consumer, and the
two listings. -/
inductive Task
  | publish (req : PublishRequest) (header : String) (newID : UUID)
  | relay
  | replay (id : UUID)
  | cleanup
  | consume (consumer messageID : String)
  | recent (stream : String) (limit : ℤ)
  | letters (limit : ℤ)
  deriving DecidableEq

/-- The first action of a task. -/
def Task.action (cfg : Config) (now : Time) : Task → Action
  | .publish req header newID =>
      .call (.append ((req.withDefaults header).event now) newID) .appending
  | .relay => .call (.pending (max 1 cfg.outboxRelayBatchSize)) .listing
  | .replay id => .call (.replay id) (.replaying id)
  | .cleanup => .call (.cleanup (cfg.cleanupArgs now)) .cleaning
  | .consume consumer messageID =>
      if messageID = "" then .finish (some (.delivered consumer messageID))
      else .call (.claimInbox consumer messageID) (.consuming consumer messageID)
  | .recent stream limit => .call (.recent stream limit) .querying
  | .letters limit => .call (.listLetters limit) .browsing

/-- The error with which a cancelled context ends a wait. -/
inductive CtxError
  | canceled
  | deadlineExceeded
  deriving DecidableEq

/-- The text of the error. -/
def CtxError.text : CtxError → String
  | .canceled => "context canceled"
  | .deadlineExceeded => "context deadline exceeded"

end ControlPlane

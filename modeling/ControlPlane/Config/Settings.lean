import ControlPlane.Config.Rules
import ControlPlane.App.Processes

/-!
# The configuration

`FromEnv` fills the configuration from the environment and `Validate` collects what is wrong
with it. The fields that the processes use are those of `Config`; the others are read by
`Validate` and by the checks that a request passes before it becomes a process.
-/

namespace ControlPlane

/-- `config.Config`, with the fields that are read in this development. -/
structure Settings extends Config where
  httpReadTimeoutMs : ℤ
  httpReadHeaderTimeoutMs : ℤ
  httpWriteTimeoutMs : ℤ
  httpIdleTimeoutMs : ℤ
  httpShutdownTimeoutMs : ℤ
  httpRequestTimeoutMs : ℤ
  maxConcurrentRequests : ℤ
  maxConcurrentPublishes : ℤ
  maxConcurrentQueries : ℤ
  schemaVersionRules : String → Option VersionRange
  schemaRequiredFields : String → Option (List String)
  eventTypeRegistry : List String
  rejectUnknownEventTypes : Bool
  corsEnabled : Bool
  corsAllowedMethods : List String
  corsAllowedHeaders : List String
  rateLimitRPS : ℤ
  rateLimitBurst : ℤ
  rateLimitMaxIPs : ℤ
  rateLimitIPTTLSeconds : ℤ
  maxRequestBodyBytes : ℤ
  requireLeaderForWrites : Bool

namespace Settings

def fromEnv (env : Environment) : Settings where
  httpReadTimeoutMs := intOr env "HTTP_READ_TIMEOUT_MS" 10000
  httpReadHeaderTimeoutMs := intOr env "HTTP_READ_HEADER_TIMEOUT_MS" 3000
  httpWriteTimeoutMs := intOr env "HTTP_WRITE_TIMEOUT_MS" 15000
  httpIdleTimeoutMs := intOr env "HTTP_IDLE_TIMEOUT_MS" 60000
  httpShutdownTimeoutMs := intOr env "HTTP_SHUTDOWN_TIMEOUT_MS" 10000
  httpRequestTimeoutMs := intOr env "HTTP_REQUEST_TIMEOUT_MS" 8000
  maxConcurrentRequests := intOr env "MAX_CONCURRENT_REQUESTS" 500
  maxConcurrentPublishes := intOr env "MAX_CONCURRENT_PUBLISHES" 200
  maxConcurrentQueries := intOr env "MAX_CONCURRENT_QUERIES" 300
  circuitFailureThreshold := intOr env "CIRCUIT_FAILURE_THRESHOLD" 5
  circuitOpenMs := intOr env "CIRCUIT_OPEN_MS" 15000
  circuitHalfOpenSuccesses := intOr env "CIRCUIT_HALF_OPEN_SUCCESSES" 2
  outboxLeaseMs := intOr env "OUTBOX_LEASE_MS" 15000
  outboxBackoffBaseMs := intOr env "OUTBOX_BACKOFF_BASE_MS" 500
  outboxBackoffMaxMs := intOr env "OUTBOX_BACKOFF_MAX_MS" 30000
  outboxBackoffJitterPct := intOr env "OUTBOX_BACKOFF_JITTER_PCT" 25
  outboxQuarantineAfter := intOr env "OUTBOX_QUARANTINE_AFTER" 12
  cleanupBatchSize := intOr env "CLEANUP_BATCH_SIZE" 200
  idempotencyTTLHours := intOr env "IDEMPOTENCY_TTL_HOURS" (24 * 14)
  deadLetterTTLHours := intOr env "DEAD_LETTER_TTL_HOURS" (24 * 30)
  schemaVersionRules := parseSchemaVersionRules env "EVENT_SCHEMA_VERSION_RULES"
  schemaRequiredFields := parseRequiredFieldRules env "EVENT_SCHEMA_REQUIRED_FIELDS"
  eventTypeRegistry := splitOr env "EVENT_TYPE_REGISTRY" ""
  rejectUnknownEventTypes := boolOr env "REJECT_UNKNOWN_EVENT_TYPES" false
  nodeID := envOr env "NODE_ID" (hostOr env "node-1")
  corsEnabled := boolOr env "CORS_ENABLED" false
  corsAllowedMethods := splitOr env "CORS_ALLOWED_METHODS" "GET,POST,OPTIONS"
  corsAllowedHeaders := splitOr env "CORS_ALLOWED_HEADERS"
    "Authorization,Content-Type,Idempotency-Key,X-Request-Id"
  publishRetryMax := intOr env "PUBLISH_RETRY_MAX" 4
  publishRetryBackoffMs := intOr env "PUBLISH_RETRY_BACKOFF_MS" 150
  publishRetryMaxBackoffMs := intOr env "PUBLISH_RETRY_MAX_BACKOFF_MS" 3000
  outboxRelayBatchSize := intOr env "OUTBOX_RELAY_BATCH_SIZE" 100
  rateLimitRPS := intOr env "RATE_LIMIT_RPS" 60
  rateLimitBurst := intOr env "RATE_LIMIT_BURST" 120
  rateLimitMaxIPs := intOr env "RATE_LIMIT_MAX_IPS" 10000
  rateLimitIPTTLSeconds := intOr env "RATE_LIMIT_IP_TTL_SECONDS" 900
  maxRequestBodyBytes := int64Or env "MAX_REQUEST_BODY_BYTES" (2 ^ 20)
  requireLeaderForWrites := boolOr env "REQUIRE_LEADER_FOR_WRITES" false

variable (c : Settings)

/-- The complaint about a variable that must be positive. -/
def positive (value : ℤ) (key : String) : List String :=
  if value ≤ 0 then [key ++ " must be > 0"] else []

/-- The complaint that is made when a condition holds. -/
def complain (wrong : Prop) [Decidable wrong] (text : String) : List String :=
  if wrong then [text] else []

/-- What `Validate` collects. -/
def problems : List String :=
  positive c.httpReadTimeoutMs "HTTP_READ_TIMEOUT_MS" ++
  positive c.httpReadHeaderTimeoutMs "HTTP_READ_HEADER_TIMEOUT_MS" ++
  positive c.httpWriteTimeoutMs "HTTP_WRITE_TIMEOUT_MS" ++
  positive c.httpIdleTimeoutMs "HTTP_IDLE_TIMEOUT_MS" ++
  positive c.httpRequestTimeoutMs "HTTP_REQUEST_TIMEOUT_MS" ++
  positive c.httpShutdownTimeoutMs "HTTP_SHUTDOWN_TIMEOUT_MS" ++
  positive c.maxConcurrentRequests "MAX_CONCURRENT_REQUESTS" ++
  positive c.maxConcurrentPublishes "MAX_CONCURRENT_PUBLISHES" ++
  positive c.maxConcurrentQueries "MAX_CONCURRENT_QUERIES" ++
  positive c.publishRetryMax "PUBLISH_RETRY_MAX" ++
  positive c.outboxBackoffBaseMs "OUTBOX_BACKOFF_BASE_MS" ++
  positive c.outboxBackoffMaxMs "OUTBOX_BACKOFF_MAX_MS" ++
  complain (c.outboxBackoffMaxMs < c.outboxBackoffBaseMs)
    "OUTBOX_BACKOFF_BASE_MS must be <= OUTBOX_BACKOFF_MAX_MS" ++
  positive c.outboxQuarantineAfter "OUTBOX_QUARANTINE_AFTER" ++
  positive c.maxRequestBodyBytes "MAX_REQUEST_BODY_BYTES" ++
  positive c.rateLimitRPS "RATE_LIMIT_RPS" ++
  positive c.rateLimitBurst "RATE_LIMIT_BURST" ++
  positive c.rateLimitMaxIPs "RATE_LIMIT_MAX_IPS" ++
  positive c.rateLimitIPTTLSeconds "RATE_LIMIT_IP_TTL_SECONDS" ++
  complain (c.corsEnabled ∧ c.corsAllowedMethods = [])
    "CORS_ALLOWED_METHODS must be non-empty when CORS_ENABLED=true" ++
  complain (c.corsEnabled ∧ c.corsAllowedHeaders = [])
    "CORS_ALLOWED_HEADERS must be non-empty when CORS_ENABLED=true" ++
  complain (c.rejectUnknownEventTypes ∧ c.eventTypeRegistry = [])
    "EVENT_TYPE_REGISTRY must be set when REJECT_UNKNOWN_EVENT_TYPES=true"

/-- The error of `Validate`, if there is one. -/
def validate : Option String :=
  if c.problems = [] then none
  else some ("invalid configuration: " ++ "; ".intercalate c.problems)

/-- The event types that `New` registers. -/
def eventTypes : List String :=
  ((c.eventTypeRegistry.map fun e => trimSpace e.toList).filter (· ≠ [])).map String.ofList

end Settings

section Validation

variable {c : Settings}

theorem Settings.validate_eq_none : c.validate = none ↔ c.problems = [] := by
  unfold Settings.validate
  split_ifs with h <;> simp [h]

theorem Settings.complain_eq_nil {wrong : Prop} [Decidable wrong] {text : String}
    (h : Settings.complain wrong text = []) : ¬wrong := by
  unfold Settings.complain at h
  split_ifs at h with hwrong
  exact hwrong

/-- A valid configuration that rejects unknown event types registers some. -/
theorem Settings.registry_of_validate (h : c.validate = none)
    (hreject : c.rejectUnknownEventTypes = true) : c.eventTypeRegistry ≠ [] := by
  have hproblems := Settings.validate_eq_none.mp h
  unfold Settings.problems at hproblems
  have hlast := Settings.complain_eq_nil (List.append_eq_nil_iff.mp hproblems).2
  exact fun hnil => hlast ⟨hreject, hnil⟩

/-- `New` trims what was trimmed when the registry was read: it registers the entries of the
registry. -/
theorem Settings.eventTypes_fromEnv (env : Environment) :
    (Settings.fromEnv env).eventTypes = (Settings.fromEnv env).eventTypeRegistry := by
  have htrimmed : ∀ e ∈ splitOr env "EVENT_TYPE_REGISTRY" "",
      trimSpace e.toList = e.toList ∧ e.toList ≠ [] := by
    intro e he
    obtain ⟨piece, -, hne, rfl⟩ := mem_nonBlank.mp he
    rw [String.toList_ofList]
    exact ⟨Text.trim_trim piece, hne⟩
  change (((splitOr env "EVENT_TYPE_REGISTRY" "").map fun e => trimSpace e.toList).filter
    (· ≠ [])).map String.ofList = splitOr env "EVENT_TYPE_REGISTRY" ""
  generalize splitOr env "EVENT_TYPE_REGISTRY" "" = registry at htrimmed
  induction registry with
  | nil => rfl
  | cons e registry ih =>
    obtain ⟨htrim, hne⟩ := htrimmed e List.mem_cons_self
    have hrest := ih fun e' he' => htrimmed e' (List.mem_cons_of_mem e he')
    rw [List.map_cons, htrim, List.filter_cons_of_pos (by simpa using hne), List.map_cons, hrest,
      String.ofList_toList]

end Validation

end ControlPlane

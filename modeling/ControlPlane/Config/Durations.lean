import ControlPlane.Config.Server

/-!
# Durations computed from the configuration

A duration is a clamped integer of the configuration times a unit, computed in 64 bits.
`Validate` bounds the integers from below only, so a product may wrap. The durations that
the server computes are listed here with the functions that compute them; within the
bounds at which no product wraps, they are the durations that the processes use.
-/

namespace ControlPlane

/-- The value that arithmetic in 64 bits gives instead of the exact one. -/
def wrap64 (x : ℤ) : ℤ := (x + 9223372036854775808) % 18446744073709551616 - 9223372036854775808

/-- The largest integer of 64 bits. -/
def maxInt64 : ℤ := 9223372036854775807

/-- Arithmetic is exact exactly on the integers of 64 bits. -/
theorem wrap64_eq_self {x : ℤ} : wrap64 x = x ↔ -maxInt64 - 1 ≤ x ∧ x ≤ maxInt64 := by
  unfold wrap64 maxInt64
  omega

def millisecond : Duration := 1000000

def second : Duration := 1000000000

def hour : Duration := 3600000000000

/-- The expression `time.Duration(factor) * unit`. -/
structure Product where
  factor : ℤ
  unit : Duration

namespace Product

variable (p : Product)

def exact : ℤ := p.factor * p.unit

/-- The duration that the expression evaluates to. -/
def duration : Duration := wrap64 p.exact

/-- The shift that `-time.Duration(factor) * unit` evaluates to. -/
def negated : Duration := wrap64 (-p.factor * p.unit)

/-- The factor is at most the number of units in the longest duration. -/
def Fits : Prop := p.factor ≤ maxInt64 / p.unit

variable {p}

theorem fits_iff (hunit : 0 < p.unit) : p.Fits ↔ p.exact ≤ maxInt64 :=
  Int.le_ediv_iff_mul_le hunit

/-- A positive product is computed exactly exactly if it fits. -/
theorem duration_eq_exact (hunit : 0 < p.unit) (hfactor : 0 < p.factor) :
    p.duration = p.exact ↔ p.Fits := by
  have hpos : 0 < p.exact := Int.mul_pos hfactor hunit
  have hmax : (0 : ℤ) ≤ maxInt64 := by decide
  rw [duration, wrap64_eq_self, fits_iff hunit]
  constructor
  · exact fun h => h.2
  · exact fun h => ⟨by omega, h⟩

/-- The negated product of a product that fits is exact as well. -/
theorem negated_eq (hunit : 0 < p.unit) (hfactor : 0 < p.factor) (hfits : p.Fits) :
    p.negated = -p.exact := by
  have hpos : 0 < p.exact := Int.mul_pos hfactor hunit
  have hle := (fits_iff hunit).mp hfits
  have hneg : -p.factor * p.unit = -p.exact := Int.neg_mul ..
  rw [negated, hneg, wrap64_eq_self]
  constructor <;> omega

end Product

namespace ServerSettings

variable (c : ServerSettings)

/-- `New`: how long the limiter remembers an address. -/
def limiterTTL : Product := ⟨max 60 c.rateLimitIPTTLSeconds, second⟩

/-- `New`: how long an address is blocked after failed authentications. -/
def authBlock : Product := ⟨max 1 c.authFailureBlockSeconds, second⟩

/-- `New`: how long the breakers stay open. -/
def circuitOpen : Product := ⟨max 1000 c.circuitOpenMs, millisecond⟩

/-- `Run`: the timeouts of the server. -/
def readTimeout : Product := ⟨max 1 c.httpReadTimeoutMs, millisecond⟩

def readHeaderTimeout : Product := ⟨max 1 c.httpReadHeaderTimeoutMs, millisecond⟩

def writeTimeout : Product := ⟨max 1 c.httpWriteTimeoutMs, millisecond⟩

def idleTimeout : Product := ⟨max 1 c.httpIdleTimeoutMs, millisecond⟩

def shutdownTimeout : Product := ⟨max 1 c.httpShutdownTimeoutMs, millisecond⟩

/-- `withRequestTimeout`, which `Run` calls. -/
def requestTimeout : Product := ⟨max 1 c.httpRequestTimeoutMs, millisecond⟩

/-- `startModuleWithRetry`: the first wait. -/
def startWait : Product := ⟨max 100 c.moduleStartRetryBackoffMs, millisecond⟩

/-- `claimOutboxLease`. -/
def lease : Product := ⟨max 1000 c.outboxLeaseMs, millisecond⟩

/-- `recordOutboxFailure`: the first and the longest wait. -/
def backoffBase : Product := ⟨max 50 c.outboxBackoffBaseMs, millisecond⟩

def backoffMax : Product := ⟨max 200 c.outboxBackoffMaxMs, millisecond⟩

/-- `runOutboxRelay`: the interval of the ticker. -/
def relayInterval : Product := ⟨max 250 c.outboxRelayIntervalMs, millisecond⟩

/-- `runCleanupLoop`: the interval of the ticker and the two lifetimes. -/
def cleanupInterval : Product := ⟨max 1000 c.cleanupIntervalMs, millisecond⟩

def idempotencyTTL : Product := ⟨max 1 c.idempotencyTTLHours, hour⟩

def deadLetterTTL : Product := ⟨max 1 c.deadLetterTTLHours, hour⟩

/-- The cutoffs that `runCleanupLoop` passes to `CleanupExpired`. -/
def idemBefore (now : Time) : Time := now + c.idempotencyTTL.negated

def dlBefore (now : Time) : Time := now + c.deadLetterTTL.negated

/-- The products that the server computes as durations. -/
def products : List Product :=
  [c.limiterTTL, c.authBlock, c.circuitOpen, c.readTimeout, c.readHeaderTimeout, c.writeTimeout,
    c.idleTimeout, c.shutdownTimeout, c.requestTimeout, c.startWait, c.lease, c.backoffBase,
    c.backoffMax, c.relayInterval, c.cleanupInterval, c.idempotencyTTL, c.deadLetterTTL]

/-- No duration of the configuration wraps: every product is exact and positive, the cutoffs
of the cleanup are at least an hour in the past, the tickers have positive intervals, and the
longest wait of the outbox is not shorter than the first. -/
structure Unwrapped : Prop where
  exact : ∀ p ∈ c.products, p.duration = p.exact ∧ 0 < p.duration
  idempotency : ∀ now, c.idemBefore now ≤ now - hour
  deadLetters : ∀ now, c.dlBefore now ≤ now - hour
  tickers : 0 < c.relayInterval.duration ∧ 0 < c.cleanupInterval.duration
  backoff : c.backoffBase.duration ≤ c.backoffMax.duration

variable {c}

/-- The clamps keep every factor positive, and every unit is. -/
theorem pos_of_mem_products {p : Product} (h : p ∈ c.products) : 0 < p.unit ∧ 0 < p.factor := by
  have hclamp : ∀ (k : ℕ) (value : ℤ), 0 < k → 0 < max (k : ℤ) value := fun k value hk =>
    lt_max_of_lt_left (by exact_mod_cast hk)
  have hunits : 0 < second ∧ 0 < millisecond ∧ 0 < hour := by decide
  simp only [products, List.mem_cons, List.not_mem_nil, or_false] at h
  rcases h with rfl | rfl | rfl | rfl | rfl | rfl | rfl | rfl | rfl | rfl | rfl | rfl | rfl | rfl |
    rfl | rfl | rfl
  all_goals
    refine ⟨?_, hclamp _ _ (by decide)⟩
    first | exact hunits.1 | exact hunits.2.1 | exact hunits.2.2

/-- Every product that fits is computed exactly and is positive. -/
theorem duration_of_fits {p : Product} (h : p ∈ c.products) (hfits : p.Fits) :
    p.duration = p.exact ∧ 0 < p.duration := by
  obtain ⟨hunit, hfactor⟩ := pos_of_mem_products h
  have hexact := (Product.duration_eq_exact hunit hfactor).mpr hfits
  rw [hexact]
  exact ⟨rfl, Int.mul_pos hfactor hunit⟩

/-- A lifetime that fits puts the cutoff at least an hour into the past. -/
theorem cutoff_of_fits {p : Product} (h : p ∈ c.products) (hhour : p.unit = hour)
    (hfits : p.Fits) (now : Time) : now + p.negated ≤ now - hour := by
  obtain ⟨hunit, hfactor⟩ := pos_of_mem_products h
  have hlong : hour ≤ p.exact := by
    rw [Product.exact, hhour]
    exact le_mul_of_one_le_left (by decide) hfactor
  rw [Product.negated_eq hunit hfactor hfits, ← Int.sub_eq_add_neg]
  exact Int.sub_le_sub_left hlong now

/-- The waits of a valid configuration are ordered, and so are the exact products. -/
theorem backoff_of_validate (h : c.validate = none) : c.backoffBase.exact ≤ c.backoffMax.exact := by
  have hordered : c.outboxBackoffBaseMs ≤ c.outboxBackoffMaxMs := by
    by_contra hwrong
    have hmem : "OUTBOX_BACKOFF_BASE_MS must be <= OUTBOX_BACKOFF_MAX_MS" ∈ c.problems := by
      unfold Settings.problems
      simp only [List.mem_append, Settings.complain, if_pos (not_le.mp hwrong), List.mem_singleton,
        true_or, or_true]
    rw [Settings.validate_eq_none.mp h] at hmem
    exact List.not_mem_nil hmem
  have hclamped : c.backoffBase.factor ≤ c.backoffMax.factor := max_le_max (by decide) hordered
  have hunit : (0 : ℤ) ≤ millisecond := by decide
  exact Int.mul_le_mul_of_nonneg_right hclamped hunit

/-- The durations of a valid configuration do not wrap exactly if every clamped integer is at
most the number of its units in the longest duration, which `Validate` does not check. -/
theorem durations_exact_iff_fit (h : c.validate = none) :
    c.Unwrapped ↔ ∀ p ∈ c.products, p.Fits := by
  constructor
  · intro hunwrapped p hp
    obtain ⟨hunit, hfactor⟩ := pos_of_mem_products hp
    exact (Product.duration_eq_exact hunit hfactor).mp (hunwrapped.exact p hp).1
  · intro hfits
    have hexact : ∀ p ∈ c.products, p.duration = p.exact ∧ 0 < p.duration := fun p hp =>
      duration_of_fits hp (hfits p hp)
    have hidempotency : c.idempotencyTTL ∈ c.products := by simp [products]
    have hletters : c.deadLetterTTL ∈ c.products := by simp [products]
    refine ⟨hexact, ?_, ?_, ⟨?_, ?_⟩, ?_⟩
    · exact cutoff_of_fits hidempotency rfl (hfits _ hidempotency)
    · exact cutoff_of_fits hletters rfl (hfits _ hletters)
    · exact (hexact c.relayInterval (by simp [products])).2
    · exact (hexact c.cleanupInterval (by simp [products])).2
    · rw [(hexact c.backoffBase (by simp [products])).1,
        (hexact c.backoffMax (by simp [products])).1]
      exact backoff_of_validate h

/-- Where no product wraps, the processes use the durations that the server computes. -/
theorem arguments_of_fits (hfits : ∀ p ∈ c.products, p.Fits) (eventID : UUID) (err : String)
    (now : Time) :
    c.leaseDuration = c.lease.duration ∧
      (c.failureArgs eventID err).baseBackoff = c.backoffBase.duration ∧
      (c.failureArgs eventID err).maxBackoff = c.backoffMax.duration ∧
      (c.cleanupArgs now).idempotencyBefore = c.idemBefore now ∧
      (c.cleanupArgs now).deadLetterBefore = c.dlBefore now ∧
      c.breaker = newCircuitBreaker (max 1 c.circuitFailureThreshold) c.circuitOpen.duration
        (max 1 c.circuitHalfOpenSuccesses) := by
  have hexact : ∀ p ∈ c.products, p.exact = p.duration := fun p hp =>
    (duration_of_fits hp (hfits p hp)).1.symm
  have hcutoff : ∀ p ∈ c.products, now - p.exact = now + p.negated := by
    intro p hp
    obtain ⟨hunit, hfactor⟩ := pos_of_mem_products hp
    rw [Product.negated_eq hunit hfactor (hfits p hp)]
    exact Int.sub_eq_add_neg
  have hopen := hexact c.circuitOpen (by simp [products])
  refine ⟨hexact c.lease ?_, hexact c.backoffBase ?_, hexact c.backoffMax ?_,
    hcutoff c.idempotencyTTL ?_, hcutoff c.deadLetterTTL ?_, ?_⟩
  on_goal 6 => rw [← hopen]; rfl
  all_goals simp [products]

/-- The configuration that is read from an empty environment. -/
def defaults : ServerSettings := fromEnv ⟨fun _ => "", none⟩

/-- The defaults are valid, none of their durations wraps, and the processes use them. -/
theorem durations_exact_iff_fit_defaults :
    defaults.validate = none ∧ defaults.Unwrapped ∧
      defaults.leaseDuration = defaults.lease.duration ∧
      ∀ now, (defaults.cleanupArgs now).idempotencyBefore = defaults.idemBefore now ∧
        (defaults.cleanupArgs now).deadLetterBefore = defaults.dlBefore now := by
  have hvalid : defaults.validate = none := by decide +kernel
  have hfits : ∀ p ∈ defaults.products, p.Fits := by
    unfold Product.Fits
    decide +kernel
  have harguments := arguments_of_fits hfits 0 ""
  refine ⟨hvalid, (durations_exact_iff_fit hvalid).mpr hfits, (harguments 0).1, fun now => ?_⟩
  obtain ⟨-, -, -, hidempotency, hletters, -⟩ := harguments now
  exact ⟨hidempotency, hletters⟩

/-- The environment in which only the lifetime of the idempotency keys is set. -/
def keepVeryLong : Environment :=
  ⟨fun key => if key = "IDEMPOTENCY_TTL_HOURS" then "2562048" else "", none⟩

/-- A lifetime of 2562048 hours is accepted; the cutoff it gives is in the future, so that the
cleanup deletes every idempotency key. -/
theorem long_lifetime_wraps :
    (fromEnv keepVeryLong).validate = none ∧ ¬(fromEnv keepVeryLong).Unwrapped ∧
      (fromEnv keepVeryLong).idempotencyTTL.exact = 9223372800000000000 ∧
      (fromEnv keepVeryLong).idempotencyTTL.duration = -9223371273709551616 ∧
      0 < (fromEnv keepVeryLong).idemBefore 0 := by
  have hfuture : 0 < (fromEnv keepVeryLong).idemBefore 0 := by decide +kernel
  refine ⟨by decide +kernel, ?_, by decide +kernel, by decide +kernel, hfuture⟩
  intro h
  have hpast := h.idempotency 0
  exact absurd (hfuture.trans_le hpast) (by decide)

end ServerSettings

end ControlPlane

import ControlPlane.Config.Durations
import ControlPlane.Store.EventRows
import Mathlib.Tactic.Ring

/-!
# The back-off of the outbox

`RecordOutboxFailure` doubles the base wait once for each failure after the first, cuts it at
the maximum, and moves it by a random number of milliseconds within a percentage of it. The
doubled wait has a closed form, the moved one lies in an interval around it, and what is stored
as the next attempt is later than the failure, truncated to milliseconds as it is.
-/

namespace ControlPlane

/-- What the clamps of `recordOutboxFailure` and `Validate` ensure of the arguments. -/
structure FailureArgs.Bounded (args : FailureArgs) : Prop where
  base : 50 * millisecond ≤ args.baseBackoff
  ordered : args.baseBackoff ≤ args.maxBackoff
  percent : 0 ≤ args.jitterPercent

/-- The wait before the jitter, given the incremented retry count. -/
def FailureArgs.plainWait (args : FailureArgs) (retryCount : ℤ) : Duration :=
  doubleWait args.maxBackoff (retryCount - 1).toNat args.baseBackoff

/-- The percentage of the wait, in whole milliseconds. -/
def FailureArgs.jitter (args : FailureArgs) (retryCount : ℤ) : ℤ :=
  args.plainWait retryCount / millisecond * args.jitterPercent / 100

/-- `rand.Intn`: a number below `n` for every draw. It panics if `n` is not positive. -/
def intn (n : ℤ) (draw : ℕ) : Option ℤ := if 0 < n then some (draw % n) else none

/-- The jitter of `RecordOutboxFailure` with the panic that `rand.Intn` may end in. -/
def jitterWaitOrPanic (wait : Duration) (jitterPercent : ℤ) (draw : ℕ) : Option Duration :=
  jitterBy (intn · draw) wait jitterPercent

/-- The random draw is only made with a positive argument. -/
theorem jitterWaitOrPanic_eq (wait : Duration) (jitterPercent : ℤ) (draw : ℕ) :
    jitterWaitOrPanic wait jitterPercent draw = some (jitterWait wait jitterPercent draw) := by
  simp only [jitterWaitOrPanic, jitterWait, jitterBy]
  by_cases hrange : 0 < (wait.tdiv 1000000 * jitterPercent).tdiv 100
  · have hargument : 0 < (wait.tdiv 1000000 * jitterPercent).tdiv 100 * 2 + 1 := by omega
    simp only [intn, if_pos hrange, if_pos hargument]
    split <;> rfl
  · simp only [if_neg hrange, ite_self]
    rfl

/-- The doubling loop with its early exit computes a power of two times the wait, cut at the
maximum. -/
theorem doubleWait_eq_min {maxBackoff wait : ℤ} (n : ℕ) (hpos : 0 < wait) (hle : wait ≤ maxBackoff) :
    doubleWait maxBackoff n wait = min (wait * 2 ^ n) maxBackoff := by
  induction n generalizing wait with
  | zero => simp [doubleWait, hle]
  | succ n ih =>
    have hpow : wait * 2 ^ (n + 1) = wait * 2 * 2 ^ n := by ring
    rw [doubleWait, hpow]
    split_ifs with hmax
    · -- The loop leaves with the maximum, and further doublings stay above it.
      have hgrow : wait * 2 ≤ wait * 2 * 2 ^ n :=
        le_mul_of_one_le_right (by omega) (one_le_pow₀ (by decide))
      exact (min_eq_right (hmax.trans hgrow)).symm
    · have hbelow : wait * 2 < maxBackoff := not_le.mp hmax
      exact ih (by omega) hbelow.le

/-- The jitter moves the wait by a number of milliseconds within the range, down to 10 ms at
most. -/
theorem jitterWait_eq_max {wait jitterPercent : ℤ} (draw : ℕ) (hwait : 10 * 1000000 ≤ wait)
    (hpercent : 0 ≤ jitterPercent) :
    ∃ delta : ℤ, -(wait / 1000000 * jitterPercent / 100) ≤ delta ∧
      delta ≤ wait / 1000000 * jitterPercent / 100 ∧
      jitterWait wait jitterPercent draw = max (10 * 1000000) (wait + delta * 1000000) := by
  have hproduct : 0 ≤ wait / 1000000 * jitterPercent := mul_nonneg (by omega) hpercent
  have hrange : (wait.tdiv 1000000 * jitterPercent).tdiv 100 =
      wait / 1000000 * jitterPercent / 100 := by
    have hms : wait.tdiv 1000000 = wait / 1000000 := Int.tdiv_eq_ediv_of_nonneg (by omega)
    rw [hms, Int.tdiv_eq_ediv_of_nonneg hproduct]
  have hnonneg : 0 ≤ wait / 1000000 * jitterPercent / 100 := by omega
  have hstays : wait = max (10 * 1000000) (wait + 0 * 1000000) := by omega
  simp only [jitterWait, jitterBy, hrange]
  generalize wait / 1000000 * jitterPercent / 100 = r at *
  by_cases hjitter : 0 < jitterPercent ∧ 0 < r
  · obtain ⟨hp, hr⟩ := hjitter
    have hdraw : 0 ≤ (draw : ℤ) % (r * 2 + 1) := Int.emod_nonneg _ (by omega)
    have hdraw' : (draw : ℤ) % (r * 2 + 1) < r * 2 + 1 := Int.emod_lt_of_pos _ (by omega)
    refine ⟨(draw : ℤ) % (r * 2 + 1) - r, by omega, by omega, ?_⟩
    rw [if_pos hp, if_pos hr, pure_bind, Id.run_pure]
    split_ifs with hfloor
    · exact (max_eq_left hfloor.le).symm
    · exact (max_eq_right (not_lt.mp hfloor)).symm
  · refine ⟨0, by omega, hnonneg, ?_⟩
    rw [← hstays]
    by_cases hp : 0 < jitterPercent
    · rw [if_pos hp, if_neg fun hr => hjitter ⟨hp, hr⟩, Id.run_pure]
    · rw [if_neg hp, Id.run_pure]

/-- The interval in which the wait lies after the jitter. -/
theorem jitterWait_bounds {wait jitterPercent : ℤ} (draw : ℕ) (hwait : 10 * 1000000 ≤ wait)
    (hpercent : 0 ≤ jitterPercent) :
    max (10 * 1000000) (wait - wait / 1000000 * jitterPercent / 100 * 1000000) ≤
        jitterWait wait jitterPercent draw ∧
      jitterWait wait jitterPercent draw ≤
        wait + wait / 1000000 * jitterPercent / 100 * 1000000 := by
  obtain ⟨delta, hlow, hhigh, heq⟩ := jitterWait_eq_max draw hwait hpercent
  rw [heq]
  generalize wait / 1000000 * jitterPercent / 100 = r at *
  have hleast : wait - r * 1000000 ≤ wait + delta * 1000000 := by omega
  have hmost : wait + delta * 1000000 ≤ wait + r * 1000000 := by omega
  have hfloor : 10 * 1000000 ≤ wait + r * 1000000 := by omega
  exact ⟨max_le_max_left _ hleast, max_le hfloor hmost⟩

namespace FailureArgs

variable {args : FailureArgs}

/-- The wait before the jitter is the base, doubled for each failure after the first, up to the
maximum. -/
theorem Bounded.plainWait_eq (h : args.Bounded) (c : ℕ) :
    args.plainWait (c + 1) = min (args.baseBackoff * 2 ^ c) args.maxBackoff := by
  have hpos : 0 < args.baseBackoff := lt_of_lt_of_le (by decide) h.base
  have hexponent : ((c : ℤ) + 1 - 1).toNat = c := by omega
  unfold plainWait
  rw [hexponent, doubleWait_eq_min c hpos h.ordered]

theorem Bounded.plainWait_mono (h : args.Bounded) {c d : ℕ} (hcd : c ≤ d) :
    args.plainWait (c + 1) ≤ args.plainWait (d + 1) := by
  have hbase : 0 ≤ args.baseBackoff := le_trans (by decide) h.base
  have hpow : (2 : ℤ) ^ c ≤ 2 ^ d := pow_le_pow_right₀ (by decide) hcd
  rw [h.plainWait_eq, h.plainWait_eq]
  exact min_le_min_right _ (mul_le_mul_of_nonneg_left hpow hbase)

theorem Bounded.le_plainWait (h : args.Bounded) (c : ℕ) :
    50 * millisecond ≤ args.plainWait (c + 1) := by
  have hfirst : args.plainWait ((0 : ℕ) + 1) = args.baseBackoff := by
    rw [h.plainWait_eq, pow_zero, mul_one, min_eq_left h.ordered]
  calc 50 * millisecond ≤ args.baseBackoff := h.base
    _ = args.plainWait ((0 : ℕ) + 1) := hfirst.symm
    _ ≤ args.plainWait (c + 1) := h.plainWait_mono c.zero_le

theorem Bounded.plainWait_le (h : args.Bounded) (c : ℕ) :
    args.plainWait (c + 1) ≤ args.maxBackoff := by
  rw [h.plainWait_eq]
  exact min_le_right _ _

/-- The wait after the jitter lies within the percentage of the wait before it, and is never
below 10 ms. -/
theorem Bounded.wait_bounds (h : args.Bounded) (c draw : ℕ) :
    max (10 * millisecond) (args.plainWait (c + 1) - args.jitter (c + 1) * millisecond) ≤
        args.wait (c + 1) draw ∧
      args.wait (c + 1) draw ≤ args.plainWait (c + 1) + args.jitter (c + 1) * millisecond := by
  have hplain : 10 * millisecond ≤ args.plainWait (c + 1) :=
    le_trans (by decide) (h.le_plainWait c)
  exact jitterWait_bounds draw hplain h.percent

/-- The wait is at most the maximum and the percentage of the maximum. -/
theorem Bounded.wait_le (h : args.Bounded) (c draw : ℕ) :
    100 * args.wait (c + 1) draw ≤ args.maxBackoff * (100 + args.jitterPercent) := by
  have hmax := h.plainWait_le c
  have hpercent := h.percent
  have hwait := (h.wait_bounds c draw).2
  have hjitter : 100 * (args.jitter (c + 1) * millisecond) ≤
      args.plainWait (c + 1) * args.jitterPercent := by
    have hms : args.plainWait (c + 1) / millisecond * millisecond ≤ args.plainWait (c + 1) :=
      Int.ediv_mul_le _ (by decide)
    calc 100 * (args.jitter (c + 1) * millisecond)
        = args.jitter (c + 1) * 100 * millisecond := by ring
      _ ≤ args.plainWait (c + 1) / millisecond * args.jitterPercent * millisecond :=
          mul_le_mul_of_nonneg_right (Int.ediv_mul_le _ (by decide)) (by decide)
      _ = args.plainWait (c + 1) / millisecond * millisecond * args.jitterPercent := by ring
      _ ≤ args.plainWait (c + 1) * args.jitterPercent := mul_le_mul_of_nonneg_right hms hpercent
  calc 100 * args.wait (c + 1) draw
      ≤ 100 * (args.plainWait (c + 1) + args.jitter (c + 1) * millisecond) :=
        mul_le_mul_of_nonneg_left hwait (by decide)
    _ = 100 * args.plainWait (c + 1) + 100 * (args.jitter (c + 1) * millisecond) := by ring
    _ ≤ 100 * args.plainWait (c + 1) + args.plainWait (c + 1) * args.jitterPercent :=
        add_le_add_right hjitter _
    _ = args.plainWait (c + 1) * (100 + args.jitterPercent) := by ring
    _ ≤ args.maxBackoff * (100 + args.jitterPercent) :=
        mul_le_mul_of_nonneg_right hmax (add_nonneg (by decide) hpercent)

/-- A wait of 10 ms or more is not lost when the next attempt is stored in milliseconds. -/
theorem next_attempt_later {now wait : ℤ} (hwait : 10 * 1000000 ≤ wait) :
    now < ofTimestamp (toTimestamp (now + wait)) ∧
      ofTimestamp (toTimestamp (now + wait)) ≤ now + wait := by
  have hstored : now < (now + wait) / 1000000 * 1000000 := by omega
  have htruncated : (now + wait) / 1000000 * 1000000 ≤ now + wait := by omega
  exact ⟨hstored, htruncated⟩

/-- The failure that is recorded after `c` others stores the next attempt in this interval. -/
theorem Bounded.exec_failureUpdate (h : args.Bounded) (c : ℕ) (firstFailed : Time) (env : Env)
    (db : Store) :
    ∃ row, ((Call.failureUpdate args (c + 1) firstFailed).exec env db).1.outboxRetryState
        args.eventID = some row ∧ row.retryCount = c + 1 ∧
      row.nextAttemptAt = toTimestamp (env.now + args.wait (c + 1) env.draw) ∧
      env.now < ofTimestamp row.nextAttemptAt ∧
      100 * (ofTimestamp row.nextAttemptAt - env.now) ≤
        args.maxBackoff * (100 + args.jitterPercent) := by
  have hlow : 10 * millisecond ≤ args.wait (c + 1) env.draw :=
    (le_max_left _ _).trans (h.wait_bounds c env.draw).1
  have hstored : env.now < ofTimestamp (toTimestamp (env.now + args.wait (c + 1) env.draw)) ∧
      ofTimestamp (toTimestamp (env.now + args.wait (c + 1) env.draw)) ≤
        env.now + args.wait (c + 1) env.draw := next_attempt_later hlow
  refine ⟨_, Function.update_self _ _ _, rfl, rfl, hstored.1, ?_⟩
  refine le_trans ?_ (h.wait_le c env.draw)
  exact mul_le_mul_of_nonneg_left (sub_le_iff_le_add'.mpr hstored.2) (by decide)

end FailureArgs

/-- The clamps of `recordOutboxFailure` and the checks of `Validate` bound the arguments. -/
theorem ServerSettings.failureArgs_bounded {c : ServerSettings} (h : c.validate = none)
    (eventID : UUID) (publishErr : String) : (c.failureArgs eventID publishErr).Bounded where
  base := mul_le_mul_of_nonneg_right (le_max_left 50 c.outboxBackoffBaseMs) (by decide)
  ordered := backoff_of_validate h
  percent := le_max_left 0 c.outboxBackoffJitterPct

/-- The law of the back-off: the closed form of the wait before the jitter, which grows with the
number of failures; the interval of the wait after it; no panic of the random draw; and the next
attempt that `RecordOutboxFailure` stores for an event with `c` recorded failures. -/
theorem outbox_backoff_law {args : FailureArgs} (h : args.Bounded) :
    (∀ c : ℕ, args.plainWait (c + 1) = min (args.baseBackoff * 2 ^ c) args.maxBackoff) ∧
    (∀ c d : ℕ, c ≤ d → args.plainWait (c + 1) ≤ args.plainWait (d + 1)) ∧
    (∀ c draw : ℕ,
      max (10 * millisecond) (args.plainWait (c + 1) - args.jitter (c + 1) * millisecond) ≤
          args.wait (c + 1) draw ∧
        args.wait (c + 1) draw ≤ args.plainWait (c + 1) + args.jitter (c + 1) * millisecond) ∧
    (∀ c draw : ℕ, jitterWaitOrPanic (args.plainWait (c + 1)) args.jitterPercent draw =
      some (args.wait (c + 1) draw)) ∧
    ∀ (c : ℕ) (read : Env) (db : Store), (db.retryMark args.eventID).1 = c →
      ∃ firstFailed, (Call.failureRead args).exec read db =
          (db, .call (.failureUpdate args (c + 1) firstFailed)) ∧
        ∀ (env : Env) (db' : Store), ∃ row,
          ((Call.failureUpdate args (c + 1) firstFailed).exec env db').1.outboxRetryState
            args.eventID = some row ∧ row.retryCount = c + 1 ∧
          row.nextAttemptAt = toTimestamp (env.now + args.wait (c + 1) env.draw) ∧
          env.now < ofTimestamp row.nextAttemptAt ∧
          100 * (ofTimestamp row.nextAttemptAt - env.now) ≤
            args.maxBackoff * (100 + args.jitterPercent) := by
  refine ⟨h.plainWait_eq, fun c d => h.plainWait_mono, h.wait_bounds, ?_, ?_⟩
  · exact fun c draw => jitterWaitOrPanic_eq _ _ draw
  · intro c read db hcount
    obtain ⟨firstFailed, hread⟩ := Call.exec_failureRead args read db
    rw [hcount] at hread
    exact ⟨firstFailed, hread, fun env db' => h.exec_failureUpdate c firstFailed env db'⟩

/-- The arguments under the default configuration, where the seventh failure reaches the
maximum of 30 s. -/
theorem outbox_backoff_law_defaults : ∃ args : FailureArgs, args.Bounded ∧
    args = ServerSettings.defaults.failureArgs 1 "nats timeout" ∧
    args.plainWait 6 = 16000 * millisecond ∧ args.plainWait 7 = 30000 * millisecond ∧
    args.wait 7 0 = 22500 * millisecond := by
  have hbounded : (ServerSettings.defaults.failureArgs 1 "nats timeout").Bounded :=
    ServerSettings.failureArgs_bounded (by decide +kernel) 1 "nats timeout"
  obtain ⟨hclosed, -, -, -, -⟩ := outbox_backoff_law hbounded
  refine ⟨_, hbounded, rfl, (hclosed 5).trans ?_, (hclosed 6).trans ?_, ?_⟩
  all_goals decide +kernel

end ControlPlane

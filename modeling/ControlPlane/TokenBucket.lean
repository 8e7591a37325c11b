import Mathlib.Algebra.Order.Ring.Defs
import Mathlib.Tactic.Linarith
import Mathlib.Tactic.Ring

/-!
# Token buckets

A bucket fills at a constant rate up to its burst, and a call is allowed if it can pay its cost
from the bucket. Whatever the state of the bucket and however the calls are spread, the calls
allowed within a span of time cost at most the burst and what flows in meanwhile.
-/

namespace ControlPlane

/-- How fast a bucket fills, how much it holds, and what a call costs. -/
structure BucketRate (K : Type*) where
  rate : K
  burst : K
  cost : K

/-- What is in the bucket, and when it was last looked at. -/
structure Bucket (K : Type*) where
  level : K
  last : K

namespace BucketRate

variable {K : Type*} [CommRing K] [LinearOrder K] (r : BucketRate K)

/-- What is in the bucket at a later time; a time before the last one counts as that. -/
def fill (b : Bucket K) (now : K) : K :=
  min r.burst (b.level + r.rate * (now - min b.last now))

/-- A call at a time. A call that is refused leaves the bucket as it is. -/
def take (b : Bucket K) (now : K) : Bool × Bucket K :=
  if r.cost ≤ r.fill b now then (true, ⟨r.fill b now - r.cost, now⟩) else (false, b)

/-- The answers to calls at the given times, and the bucket they leave. -/
def run (b : Bucket K) : List K → List Bool × Bucket K
  | [] => ([], b)
  | now :: times =>
      let (allowed, b) := r.take b now
      let (answers, b) := run b times
      (allowed :: answers, b)

/-- The rate is not negative, and a call costs something. -/
structure Valid : Prop where
  rate : 0 ≤ r.rate
  cost : 0 < r.cost

variable {r} {b : Bucket K} {now : K} {times : List K}

section Bound

variable [IsStrictOrderedRing K] {start paid : K}

/-- What was paid since `start` and what is in the bucket at any time from `now` on came from the
burst and from what flowed in since. -/
def Covers (r : BucketRate K) (start paid now : K) (b : Bucket K) : Prop :=
  ∀ later, now ≤ later → r.fill b later + paid ≤ r.burst + r.rate * (later - start)

/-- A call that is allowed moves its cost from the bucket to what was paid. -/
theorem Covers.take (h : r.Covers start paid now b) {later : K} (hlater : now ≤ later) :
    r.Covers start (paid + r.cost) later ⟨r.fill b later - r.cost, later⟩ := by
  intro time htime
  have hpaid := h later hlater
  have hfill : r.fill ⟨r.fill b later - r.cost, later⟩ time ≤
      r.fill b later - r.cost + r.rate * (time - min later time) := min_le_right ..
  rw [min_eq_left htime] at hfill
  have hflow : r.rate * (time - later) + r.rate * (later - start) = r.rate * (time - start) := by
    ring
  linarith

omit [IsStrictOrderedRing K] in
theorem Covers.mono (h : r.Covers start paid now b) {later : K} (hlater : now ≤ later) :
    r.Covers start paid later b :=
  fun time htime => h time (hlater.trans htime)

/-- The calls that are allowed in a span of time are paid for. -/
theorem Covers.run (h : r.Covers start paid now b) (hvalid : r.Valid)
    (hsorted : (now :: times).Pairwise (· ≤ ·)) {stop : K} (hstop : ∀ t ∈ times, t ≤ stop)
    (hpaid : paid ≤ r.burst + r.rate * (stop - start)) :
    paid + r.cost * ((r.run b times).1.count true : K) ≤ r.burst + r.rate * (stop - start) := by
  induction times generalizing b now paid with
  | nil => simpa [BucketRate.run] using hpaid
  | cons t times ih =>
    obtain ⟨hnow, htimes⟩ := List.pairwise_cons.mp hsorted
    have ht := hnow t List.mem_cons_self
    have hrest : ∀ t' ∈ times, t' ≤ stop := fun t' ht' => hstop t' (List.mem_cons_of_mem t ht')
    by_cases hpay : r.cost ≤ r.fill b t
    · have hcovers := h t ht
      have hflow : r.rate * (t - start) ≤ r.rate * (stop - start) :=
        mul_le_mul_of_nonneg_left (sub_le_sub_right (hstop t List.mem_cons_self) start) hvalid.rate
      have hrun := ih (h.take ht) htimes hrest (by linarith)
      simp only [BucketRate.run, BucketRate.take, if_pos hpay, List.count_cons_self, Nat.cast_add,
        Nat.cast_one]
      linarith
    · have hrun := ih (h.mono ht) htimes hrest hpaid
      simp only [BucketRate.run, BucketRate.take, if_neg hpay]
      rw [List.count_cons_of_ne (by decide)]
      exact hrun

end Bound

end BucketRate

end ControlPlane

import ControlPlane.App.Breaker
import ControlPlane.Transition

/-!
# The breaker and the history of its calls

A breaker keeps two counters and the time at which it last opened. Here every call it
receives is also logged with the states around it, and the counters are related to the
log: while the breaker is closed, the failures counted are the failures at the end of the
current period; while it is half-open, the successes counted are all the outcomes of the
period; and an open breaker remembers the latest failure of its period, which started
with one.
-/

namespace ControlPlane

open Transition

/-- The operations of a breaker. -/
inductive BreakerOp
  | allow
  | success
  | failure
  deriving DecidableEq

/-- The breaker after an operation at time `now`. -/
def Breaker.after (b : Breaker) (now : Time) : BreakerOp → Breaker
  | .allow => (b.allow now).2
  | .success => b.success
  | .failure => b.failure now

/-- What an operation does to a breaker. -/
inductive Breaker.Moves (b : Breaker) (now : Time) : BreakerOp → Breaker → Prop
  | idle {op : BreakerOp} : (b.state = .closed ∧ op = .allow) ∨
      (b.state = .open ∧ op = .allow ∧ now - b.openedAt < b.openDuration) ∨
      (b.state = .open ∧ op = .success) ∨ (b.state = .halfOpen ∧ op = .allow) →
      Moves b now op b
  | reset : b.state = .closed → Moves b now .success { b with consecutiveFailures := 0 }
  | count : b.state ≠ .halfOpen → b.consecutiveFailures + 1 < b.failureThreshold →
      Moves b now .failure
        { b with consecutiveFailures := b.consecutiveFailures + 1, consecutiveSuccess := 0 }
  | trip : b.failureThreshold ≤ b.consecutiveFailures + 1 ∨ b.state = .halfOpen →
      Moves b now .failure
        { b with
          consecutiveFailures := b.consecutiveFailures + 1
          consecutiveSuccess := 0
          state := .open
          openedAt := now }
  | probe : b.state = .open → b.openDuration ≤ now - b.openedAt →
      Moves b now .allow { b with state := .halfOpen, consecutiveSuccess := 0 }
  | credit : b.state = .halfOpen → b.consecutiveSuccess + 1 < b.halfOpenSuccesses →
      Moves b now .success { b with consecutiveSuccess := b.consecutiveSuccess + 1 }
  | close : b.state = .halfOpen → b.halfOpenSuccesses ≤ b.consecutiveSuccess + 1 →
      Moves b now .success
        { b with state := .closed, consecutiveFailures := 0, consecutiveSuccess := 0 }

/-- Inversion of the operations. -/
theorem Breaker.after_moves (b : Breaker) (now : Time) (op : BreakerOp) :
    b.Moves now op (b.after now op) := by
  cases op with
  | allow =>
    simp only [Breaker.after, Breaker.allow]
    split
    · exact .idle (by simp [*])
    · split_ifs with hdue
      · exact .probe (by assumption) hdue
      · exact .idle (Or.inr (Or.inl ⟨by assumption, rfl, not_le.mp hdue⟩))
    · exact .idle (by simp [*])
  | success =>
    simp only [Breaker.after, Breaker.success]
    split
    · split_ifs with hdue
      · exact .close (by assumption) hdue
      · exact .credit (by assumption) (by omega)
    · exact .reset (by assumption)
    · exact .idle (by simp [*])
  | failure =>
    simp only [Breaker.after, Breaker.failure]
    split_ifs with htrip
    · exact .trip htrip
    · push Not at htrip
      exact .count htrip.2 (by omega)

/-- One call in the life of a breaker, with the states around it. -/
structure BreakerEntry where
  op : BreakerOp
  time : Time
  before : BreakerState
  after : BreakerState
  deriving DecidableEq

/-- A breaker with the log of its calls, the latest first. -/
structure BreakerTrace where
  breaker : Breaker
  log : List BreakerEntry

namespace BreakerTrace

/-- A breaker that was just built. -/
def init (threshold : ℤ) (openDuration : Duration) (halfOpenSuccesses : ℤ) : BreakerTrace :=
  ⟨newCircuitBreaker threshold openDuration halfOpenSuccesses, []⟩

/-- One more call, not earlier than the calls before it. -/
def step (s : BreakerTrace) (call : BreakerOp × Time) : Option BreakerTrace :=
  if ∀ e ∈ s.log, e.time ≤ call.2 then
    let b := s.breaker.after call.2 call.1
    some ⟨b, ⟨call.1, call.2, s.breaker.state, b.state⟩ :: s.log⟩
  else none

/-- The traces of a breaker that was built with the given arguments. -/
def Reachable (threshold : ℤ) (openDuration : Duration) (halfOpenSuccesses : ℤ)
    (s : BreakerTrace) : Prop :=
  Run step anyStep (init threshold openDuration halfOpenSuccesses) s

end BreakerTrace

section Periods

variable (log : List BreakerEntry)

/-- The calls since the breaker last changed its state. -/
def period : List BreakerEntry := log.takeWhile fun e => e.before = e.after

/-- The call that last changed the state of the breaker. -/
def changed : Option BreakerEntry := (log.dropWhile fun e => e.before = e.after).head?

/-- The outcomes recorded since the breaker last changed its state, the latest first. -/
def outcomes : List BreakerOp := ((period log).map BreakerEntry.op).filter (· ≠ .allow)

/-- The time of the latest failure since the breaker last changed its state, the call that
changed it included. -/
def latestFailure : Option Time :=
  ((period log ++ (changed log).toList).find? fun e => e.op = .failure).map BreakerEntry.time

variable {log} {e : BreakerEntry}

theorem outcomes_cons_of_eq (h : e.before = e.after) :
    outcomes (e :: log) = if e.op = .allow then outcomes log else e.op :: outcomes log := by
  unfold outcomes period
  rw [List.takeWhile_cons_of_pos (by simpa using h), List.map_cons]
  split_ifs with hop <;> simp [hop]

theorem outcomes_cons_of_ne (h : e.before ≠ e.after) : outcomes (e :: log) = [] := by
  unfold outcomes period
  rw [List.takeWhile_cons_of_neg (by simpa using h)]
  rfl

theorem changed_cons_of_eq (h : e.before = e.after) : changed (e :: log) = changed log := by
  unfold changed
  rw [List.dropWhile_cons_of_pos (by simpa using h)]

theorem changed_cons_of_ne (h : e.before ≠ e.after) : changed (e :: log) = some e := by
  unfold changed
  rw [List.dropWhile_cons_of_neg (by simpa using h)]
  rfl

theorem mem_of_changed (h : changed log = some e) : e ∈ log :=
  (List.dropWhile_suffix _).subset (List.mem_of_head? h)

theorem latestFailure_cons_of_eq (h : e.before = e.after) (hop : e.op ≠ .failure) :
    latestFailure (e :: log) = latestFailure log := by
  unfold latestFailure period
  rw [List.takeWhile_cons_of_pos (by simpa using h), changed_cons_of_eq h, List.cons_append,
    List.find?_cons_of_neg (by simpa using hop)]

theorem latestFailure_cons_of_failure (hop : e.op = .failure) :
    latestFailure (e :: log) = some e.time := by
  unfold latestFailure period
  by_cases h : e.before = e.after
  · rw [List.takeWhile_cons_of_pos (by simpa using h), List.cons_append,
      List.find?_cons_of_pos (by simpa using hop), Option.map_some]
  · rw [List.takeWhile_cons_of_neg (by simpa using h), changed_cons_of_ne h, List.nil_append,
      Option.toList_some, List.find?_cons_of_pos (by simpa using hop), Option.map_some]

end Periods

/-- The number of failures at the end of a sequence of outcomes. -/
def failureStreak (outcomes : List BreakerOp) : ℕ :=
  (outcomes.takeWhile (· = .failure)).length

/-- The last `n` outcomes are failures exactly if the streak of failures is that long. -/
theorem replicate_failure_le {n : ℕ} {l : List BreakerOp} :
    List.replicate n .failure <+: l ↔ n ≤ failureStreak l := by
  unfold failureStreak
  induction l generalizing n with
  | nil => simp [List.replicate_eq_nil_iff]
  | cons op l ih =>
    cases n with
    | zero => simp
    | succ n =>
      rw [List.replicate_succ, List.cons_prefix_cons, ih]
      by_cases hop : op = .failure
      · simp [hop]
      · simp [hop, Ne.symm hop]

namespace BreakerTrace

/-- The counters of a breaker, read off the log. -/
structure Sound (s : BreakerTrace) : Prop where
  threshold_pos : 0 < s.breaker.failureThreshold
  successes_pos : 0 < s.breaker.halfOpenSuccesses
  below : s.breaker.state = .closed →
    s.breaker.consecutiveFailures < s.breaker.failureThreshold
  streak : s.breaker.state = .closed →
    s.breaker.consecutiveFailures = failureStreak (outcomes s.log)
  above : s.breaker.state ≠ .closed →
    s.breaker.failureThreshold ≤ s.breaker.consecutiveFailures
  latest : s.breaker.state = .open → latestFailure s.log = some s.breaker.openedAt
  opening : s.breaker.state = .open →
    ∃ e, changed s.log = some e ∧ e.op = .failure ∧ e.time ≤ s.breaker.openedAt
  probing : s.breaker.state = .halfOpen →
    ∃ n : ℕ, s.breaker.consecutiveSuccess = n ∧ outcomes s.log = List.replicate n .success
  credit : s.breaker.state = .halfOpen →
    s.breaker.consecutiveSuccess < s.breaker.halfOpenSuccesses

theorem sound_init (threshold : ℤ) (openDuration : Duration) (halfOpenSuccesses : ℤ) :
    (init threshold openDuration halfOpenSuccesses).Sound where
  threshold_pos := lt_of_lt_of_le Int.zero_lt_one (le_max_left 1 threshold)
  successes_pos := lt_of_lt_of_le Int.zero_lt_one (le_max_left 1 halfOpenSuccesses)
  below := fun _ => lt_of_lt_of_le Int.zero_lt_one (le_max_left 1 threshold)
  streak := fun _ => rfl
  above := fun h => absurd rfl h
  latest := fun h => by cases h
  opening := fun h => by cases h
  probing := fun h => by cases h
  credit := fun h => by cases h

section Step

variable {s : BreakerTrace} {op : BreakerOp} {now : Time} {b : Breaker}

/-- The trace after a call that leaves the breaker as it is. -/
theorem Sound.idle (h : s.Sound) (hop : op ≠ .failure)
    (hkept : op = .success → s.breaker.state = .open) :
    Sound ⟨s.breaker, ⟨op, now, s.breaker.state, s.breaker.state⟩ :: s.log⟩ := by
  have houtcomes : s.breaker.state ≠ .open →
      outcomes (⟨op, now, s.breaker.state, s.breaker.state⟩ :: s.log) = outcomes s.log := by
    intro hne
    have hallow : op = .allow := by
      cases op with
      | allow => rfl
      | success => exact absurd (hkept rfl) hne
      | failure => exact absurd rfl hop
    rw [outcomes_cons_of_eq rfl, if_pos hallow]
  refine ⟨h.threshold_pos, h.successes_pos, h.below, ?_, h.above, ?_, ?_, ?_, h.credit⟩
  · intro (hclosed : s.breaker.state = .closed)
    rw [houtcomes (by simp [hclosed])]
    exact h.streak hclosed
  · intro hopen
    rw [latestFailure_cons_of_eq rfl hop]
    exact h.latest hopen
  · intro hopen
    rw [changed_cons_of_eq rfl]
    exact h.opening hopen
  · intro (hhalf : s.breaker.state = .halfOpen)
    rw [houtcomes (by simp [hhalf])]
    exact h.probing hhalf

/-- The trace after a failure that opens the breaker, or finds it open. -/
theorem Sound.trip (h : s.Sound) (hb : b.state = .open) (hopened : b.openedAt = now)
    (hthreshold : b.failureThreshold = s.breaker.failureThreshold)
    (hsuccesses : b.halfOpenSuccesses = s.breaker.halfOpenSuccesses)
    (hfailures : s.breaker.failureThreshold ≤ b.consecutiveFailures)
    (htimes : ∀ e ∈ s.log, e.time ≤ now) :
    Sound ⟨b, ⟨.failure, now, s.breaker.state, b.state⟩ :: s.log⟩ := by
  have hopen : b.state ≠ .closed ∧ b.state ≠ .halfOpen := by simp [hb]
  refine ⟨hthreshold ▸ h.threshold_pos, hsuccesses ▸ h.successes_pos, ?_, ?_, ?_, ?_, ?_, ?_, ?_⟩
  · exact fun hclosed => absurd hclosed hopen.1
  · exact fun hclosed => absurd hclosed hopen.1
  · exact fun _ => hthreshold ▸ hfailures
  · intro _
    rw [latestFailure_cons_of_failure rfl, ← hopened]
  · intro _
    by_cases hsame : s.breaker.state = b.state
    · -- a failure in an open breaker: the call that opened it is still the same
      rw [changed_cons_of_eq hsame]
      obtain ⟨e, he, hop, -⟩ := h.opening (hsame.trans hb)
      exact ⟨e, he, hop, hopened ▸ htimes e (mem_of_changed he)⟩
    · rw [changed_cons_of_ne hsame]
      exact ⟨_, rfl, rfl, hopened.ge⟩
  · exact fun hhalf => absurd hhalf hopen.2
  · exact fun hhalf => absurd hhalf hopen.2

/-- Every call keeps the counters in agreement with the log. -/
theorem Sound.after (h : s.Sound) (hmoves : s.breaker.Moves now op b)
    (htimes : ∀ e ∈ s.log, e.time ≤ now) :
    Sound ⟨b, ⟨op, now, s.breaker.state, b.state⟩ :: s.log⟩ := by
  cases hmoves with
  | idle hidle =>
    refine h.idle ?_ ?_
    · rcases hidle with ⟨-, rfl⟩ | ⟨-, rfl, -⟩ | ⟨-, rfl⟩ | ⟨-, rfl⟩ <;> simp
    · rintro rfl
      simpa using hidle
  | reset hclosed =>
    refine ⟨h.threshold_pos, h.successes_pos, fun _ => h.threshold_pos, ?_, ?_, ?_, ?_, ?_, ?_⟩
    · intro _
      rw [outcomes_cons_of_eq rfl]
      rfl
    all_goals simp [hclosed]
  | count hstate hcount =>
    -- above the threshold a failure opens the breaker, so it was closed
    have hclosed : s.breaker.state = .closed := by
      by_contra hne
      have := h.above hne
      omega
    refine ⟨h.threshold_pos, h.successes_pos, fun _ => hcount, ?_, ?_, ?_, ?_, ?_, ?_⟩
    · intro _
      have hstreak := h.streak hclosed
      rw [outcomes_cons_of_eq rfl]
      simp only [failureStreak] at hstreak ⊢
      simp [hstreak]
    all_goals simp [hclosed]
  | trip htrip =>
    have hfailures : s.breaker.failureThreshold ≤ s.breaker.consecutiveFailures + 1 := by
      rcases htrip with hle | hhalf
      · exact hle
      · have := h.above (by simp [hhalf])
        omega
    exact h.trip rfl rfl rfl rfl hfailures htimes
  | probe hopen hdue =>
    have hne : s.breaker.state ≠ .halfOpen := by simp [hopen]
    refine ⟨h.threshold_pos, h.successes_pos, ?_, ?_, ?_, ?_, ?_, ?_, fun _ => h.successes_pos⟩
    · simp
    · simp
    · exact fun _ => h.above (by simp [hopen])
    · simp
    · simp
    · intro _
      rw [outcomes_cons_of_ne hne]
      exact ⟨0, rfl, rfl⟩
  | credit hhalf hcredit =>
    refine ⟨h.threshold_pos, h.successes_pos, ?_, ?_, fun _ => h.above (by simp [hhalf]), ?_, ?_,
      ?_, fun _ => hcredit⟩
    · simp [hhalf]
    · simp [hhalf]
    · simp [hhalf]
    · simp [hhalf]
    · intro _
      obtain ⟨n, hn, hreplicate⟩ := h.probing hhalf
      refine ⟨n + 1, by simp [hn], ?_⟩
      rw [outcomes_cons_of_eq rfl, hreplicate]
      rfl
  | close hhalf hdue =>
    have hne : s.breaker.state ≠ .closed := by simp [hhalf]
    refine ⟨h.threshold_pos, h.successes_pos, fun _ => h.threshold_pos, ?_, ?_, ?_, ?_, ?_, ?_⟩
    · intro _
      rw [outcomes_cons_of_ne hne]
      rfl
    all_goals simp

end Step

/-- What a step of a trace is. -/
theorem step_eq_some {s s' : BreakerTrace} {op : BreakerOp} {now : Time}
    (h : s.step (op, now) = some s') : (∀ e ∈ s.log, e.time ≤ now) ∧
      s'.breaker = s.breaker.after now op ∧
      s'.log = ⟨op, now, s.breaker.state, s'.breaker.state⟩ :: s.log := by
  simp only [step] at h
  split_ifs at h with htimes
  cases h
  exact ⟨htimes, rfl, rfl⟩

theorem Sound.step {s s' : BreakerTrace} {call : BreakerOp × Time} (h : s.Sound)
    (hstep : s.step call = some s') : s'.Sound := by
  obtain ⟨op, now⟩ := call
  obtain ⟨htimes, hbreaker, hlog⟩ := step_eq_some hstep
  have hmoves := s.breaker.after_moves now op
  rw [← hbreaker] at hmoves
  have hnext := h.after hmoves htimes
  rw [← hlog] at hnext
  exact hnext

section Reachable

variable {threshold : ℤ} {openDuration : Duration} {halfOpenSuccesses : ℤ} {s : BreakerTrace}

theorem Reachable.sound (h : s.Reachable threshold openDuration halfOpenSuccesses) : s.Sound :=
  h.invariant (sound_init _ _ _) fun _ _ _ ha _ hstep => ha.step hstep

/-- The arguments with which a breaker was built stay. -/
theorem Reachable.arguments (h : s.Reachable threshold openDuration halfOpenSuccesses) :
    s.breaker.failureThreshold = max 1 threshold ∧ s.breaker.openDuration = openDuration ∧
      s.breaker.halfOpenSuccesses = max 1 halfOpenSuccesses := by
  refine h.invariant (I := fun s => s.breaker.failureThreshold = max 1 threshold ∧
    s.breaker.openDuration = openDuration ∧
    s.breaker.halfOpenSuccesses = max 1 halfOpenSuccesses) ⟨rfl, rfl, rfl⟩ ?_
  rintro a ⟨op, now⟩ b ha - hstep
  obtain ⟨-, hbreaker, -⟩ := step_eq_some hstep
  have hmoves := a.breaker.after_moves now op
  rw [hbreaker]
  generalize a.breaker.after now op = b' at hmoves
  cases hmoves <;> exact ha

end Reachable

end BreakerTrace

section Semantics

variable {b b' : Breaker} {op : BreakerOp} {now : Time}

/-- A closed breaker opens exactly at the failure that reaches the threshold. -/
theorem Breaker.Moves.leaves_closed (h : b.Moves now op b') (hclosed : b.state = .closed) :
    b'.state ≠ .closed ↔
      op = .failure ∧ b.failureThreshold ≤ b.consecutiveFailures + 1 := by
  cases h with
  | idle hidle =>
    rcases hidle with ⟨-, rfl⟩ | ⟨hopen, -⟩ | ⟨hopen, -⟩ | ⟨hhalf, -⟩ <;> simp_all
  | count _ hcount => simp [hclosed, not_le.mpr hcount]
  | trip htrip => simpa [hclosed] using htrip
  | _ => simp_all

/-- A breaker closes exactly at the success that completes the half-open period. -/
theorem Breaker.Moves.closes (h : b.Moves now op b') :
    b.state ≠ .closed ∧ b'.state = .closed ↔
      b.state = .halfOpen ∧ op = .success ∧ b.halfOpenSuccesses ≤ b.consecutiveSuccess + 1 := by
  cases h with
  | idle hidle =>
    rcases hidle with ⟨hstate, rfl⟩ | ⟨hstate, rfl, -⟩ | ⟨hstate, rfl⟩ | ⟨hstate, rfl⟩ <;>
      simp [hstate]
  | credit hhalf hcredit => simp [hhalf, not_le.mpr hcredit]
  | close hhalf hdue => simp [hhalf, hdue]
  | count hstate _ => simp
  | _ => simp_all

/-- A failure opens a half-open breaker. -/
theorem Breaker.Moves.reopens (h : b.Moves now .failure b') (hhalf : b.state = .halfOpen) :
    b'.state = .open := by
  cases h with
  | idle hidle => simp at hidle
  | count hstate _ => exact absurd hhalf hstate
  | trip _ => rfl

/-- An open breaker that is not yet due stays open and admits nothing. -/
theorem Breaker.Moves.stays_open (h : b.Moves now op b') (hopen : b.state = .open)
    (hearly : now - b.openedAt < b.openDuration) : b'.state = .open := by
  cases h with
  | idle => exact hopen
  | count => exact hopen
  | trip => rfl
  | probe _ hdue => exact absurd hdue (not_le.mpr hearly)
  | _ => simp_all

theorem Breaker.allow_eq_false (hopen : b.state = .open) :
    (b.allow now).1 = false ↔ now - b.openedAt < b.openDuration := by
  unfold Breaker.allow
  rw [hopen]
  dsimp only
  split_ifs with hdue
  · simpa using hdue
  · simpa using hdue

open BreakerTrace

variable {s : BreakerTrace}

/-- A closed breaker opens at the failure that makes its last outcomes failures. -/
theorem BreakerTrace.Sound.opens_iff (h : s.Sound) (hmoves : s.breaker.Moves now op b')
    (hclosed : s.breaker.state = .closed) : b'.state ≠ .closed ↔ op = .failure ∧
      List.replicate s.breaker.failureThreshold.toNat .failure <+: op :: outcomes s.log := by
  have hstreak := h.streak hclosed
  have hreplicate : ∀ n : ℕ, List.replicate n .failure <+: .failure :: outcomes s.log ↔
      n ≤ failureStreak (outcomes s.log) + 1 := by
    intro n
    rw [replicate_failure_le]
    simp [failureStreak]
  rw [hmoves.leaves_closed hclosed, hstreak]
  refine and_congr_right ?_
  rintro rfl
  rw [hreplicate]
  omega

/-- Nothing is admitted within the open time of the failure that opened the breaker. -/
theorem BreakerTrace.Sound.refuses (h : s.Sound) (hmoves : s.breaker.Moves now op b')
    (hopen : s.breaker.state = .open) : ∃ e, changed s.log = some e ∧ e.op = .failure ∧
      (now - e.time < s.breaker.openDuration →
        (s.breaker.allow now).1 = false ∧ b'.state = .open) := by
  obtain ⟨e, he, hop, hle⟩ := h.opening hopen
  refine ⟨e, he, hop, ?_⟩
  intro hearly
  have hearly' : now - s.breaker.openedAt < s.breaker.openDuration :=
    lt_of_le_of_lt (Int.sub_le_sub_left hle now) hearly
  exact ⟨(Breaker.allow_eq_false hopen).mpr hearly', hmoves.stays_open hopen hearly'⟩

/-- The breaker closes at the success that makes all outcomes of a half-open period
successes, as many as it asks for. -/
theorem BreakerTrace.Sound.closes_iff (h : s.Sound) (hmoves : s.breaker.Moves now op b') :
    s.breaker.state ≠ .closed ∧ b'.state = .closed ↔
      s.breaker.state = .halfOpen ∧ op = .success ∧
        op :: outcomes s.log = List.replicate s.breaker.halfOpenSuccesses.toNat .success := by
  rw [hmoves.closes]
  refine and_congr_right ?_
  intro hhalf
  refine and_congr_right ?_
  rintro rfl
  obtain ⟨n, hn, hreplicate⟩ := h.probing hhalf
  have hcredit := h.credit hhalf
  rw [hreplicate, ← List.replicate_succ, List.replicate_inj]
  constructor
  · intro hdue
    exact ⟨by omega, Or.inr rfl⟩
  · rintro ⟨hlen, -⟩
    omega

end Semantics

/-- **Trace semantics of the breaker.** In every trace of calls at non-decreasing times, a
breaker leaves the closed state exactly at a failure that makes the last `max(1, threshold)`
outcomes of the closed period failures. While it is open, `Allow` refuses exactly before
`openDuration` has passed since the latest failure of the period, so nothing moves within
`openDuration` of the failure that opened it. It closes exactly at the
`max(1, halfOpenSuccesses)`-th success of a half-open period, in which no failure occurs,
because a failure opens it again. The failures counted are below the threshold exactly in the
closed state. -/
theorem breaker_trace_semantics {threshold : ℤ} {openDuration : Duration} {halfOpenSuccesses : ℤ}
    {s s' : BreakerTrace} {op : BreakerOp} {now : Time}
    (h : s.Reachable threshold openDuration halfOpenSuccesses)
    (hstep : s.step (op, now) = some s') :
    (s.breaker.state = .closed →
      (s'.breaker.state ≠ .closed ↔ op = .failure ∧
        List.replicate (max 1 threshold).toNat .failure <+: op :: outcomes s.log)) ∧
    (s.breaker.state = .open →
      (∃ T, latestFailure s.log = some T ∧
        ((s.breaker.allow now).1 = false ↔ now - T < openDuration)) ∧
      ∃ e, changed s.log = some e ∧ e.op = .failure ∧ (now - e.time < openDuration →
        (s.breaker.allow now).1 = false ∧ s'.breaker.state = .open)) ∧
    (s.breaker.state ≠ .closed ∧ s'.breaker.state = .closed ↔
      s.breaker.state = .halfOpen ∧ op = .success ∧
        op :: outcomes s.log = List.replicate (max 1 halfOpenSuccesses).toNat .success) ∧
    (s.breaker.state = .halfOpen → op = .failure → s'.breaker.state = .open) ∧
    (s.breaker.state = .closed → s.breaker.consecutiveFailures < max 1 threshold) ∧
    (s.breaker.state ≠ .closed → max 1 threshold ≤ s.breaker.consecutiveFailures) := by
  obtain ⟨hthreshold, hduration, hsuccesses⟩ := h.arguments
  have hsound := h.sound
  obtain ⟨htimes, hbreaker, -⟩ := BreakerTrace.step_eq_some hstep
  have hmoves := s.breaker.after_moves now op
  rw [← hbreaker] at hmoves
  refine ⟨?_, ?_, ?_, ?_, ?_, ?_⟩
  · intro hclosed
    exact hthreshold ▸ hsound.opens_iff hmoves hclosed
  · intro hopen
    rw [← hduration]
    exact ⟨⟨s.breaker.openedAt, hsound.latest hopen, Breaker.allow_eq_false hopen⟩,
      hsound.refuses hmoves hopen⟩
  · rw [← hsuccesses]
    exact hsound.closes_iff hmoves
  · rintro hhalf rfl
    exact hmoves.reopens hhalf
  · intro hclosed
    exact hthreshold ▸ hsound.below hclosed
  · intro hne
    exact hthreshold ▸ hsound.above hne

/-- A breaker with threshold 2: two failures open it, it admits a call after its open time,
and one success closes it. -/
def breakerCalls : List (BreakerOp × Time) :=
  [(.allow, 1), (.failure, 2), (.success, 3), (.failure, 4), (.failure, 5), (.allow, 8),
    (.failure, 9), (.allow, 19)]

/-- The trace ends half-open, above its threshold, and the next success closes the breaker. -/
theorem breaker_trace_semantics_probe : ∃ s s' : BreakerTrace,
    s.Reachable 2 10 1 ∧ s.step (.success, 20) = some s' ∧ s.breaker.state = .halfOpen ∧
    2 ≤ s.breaker.consecutiveFailures ∧ s'.breaker.state = .closed := by
  have hplay : (play BreakerTrace.step (fun _ _ => true) (BreakerTrace.init 2 10 1)
      breakerCalls).any (fun s => s.breaker.state = .halfOpen &&
        (s.step (.success, 20)).any fun s' => s'.breaker.state = .closed) = true := by
    decide
  obtain ⟨s, hrun, htest⟩ := Run.exists_of_play (fun _ _ _ => trivial) hplay
  simp only [Bool.and_eq_true, decide_eq_true_eq, Option.any_eq_true] at htest
  obtain ⟨hhalf, s', hstep, hclosed⟩ := htest
  obtain ⟨-, -, -, -, -, habove⟩ := breaker_trace_semantics hrun hstep
  exact ⟨s, s', hrun, hstep, hhalf, habove (by simp [hhalf]), hclosed⟩

/-- A breaker that is built with threshold 0 is closed with no failure counted, which is not
below 0. -/
theorem zero_threshold_not_below : ∃ s : BreakerTrace, s.Reachable 0 1 1 ∧
    s.breaker.state = .closed ∧ ¬s.breaker.consecutiveFailures < 0 :=
  ⟨_, .refl _, rfl, by decide⟩

end ControlPlane

import ControlPlane.App.BreakerTrace

/-!
# Calls that report to a breaker

Calls run concurrently: each asks the breaker for admission, and an admitted call reports
one outcome at some later time. The breaker does not know which call an outcome belongs
to. Every period between two changes of its state is numbered here, and every call in
flight carries the number of the period in which it was admitted, so that the outcomes of
calls from before the last opening can be told apart.
-/

namespace ControlPlane

open Transition

/-- An outcome, with the periods in which its call was admitted and in which it was
reported. -/
structure CallReport where
  admitted : ℕ
  reported : ℕ
  success : Bool
  deriving DecidableEq

/-- A breaker with the calls in flight. `period` numbers the changes of the breaker's state,
and `opened` is the period that started with the latest opening, 0 before the first one. -/
structure GuardedCalls where
  breaker : Breaker
  clock : Time
  period : ℕ
  opened : ℕ
  flights : Clustered ℕ ℕ
  reports : List CallReport

/-- A call asks for admission, or reports its outcome. -/
inductive CallLabel
  | enter (call : ℕ) (now : Time)
  | report (call : ℕ) (success : Bool) (now : Time)
  deriving DecidableEq

namespace GuardedCalls

/-- No call has asked yet. -/
def init (threshold : ℤ) (openDuration : Duration) (halfOpenSuccesses : ℤ) (clock : Time) :
    GuardedCalls :=
  ⟨newCircuitBreaker threshold openDuration halfOpenSuccesses, clock, 0, 0, .empty, []⟩

variable (s : GuardedCalls)

/-- The number of the period after the breaker became `b`. -/
def periodAfter (b : Breaker) : ℕ := if b.state = s.breaker.state then s.period else s.period + 1

/-- The period of the latest opening after the breaker became `b`. -/
def openedAfter (b : Breaker) : ℕ :=
  if b.state = .open ∧ s.breaker.state ≠ .open then s.period + 1 else s.opened

/-- The breaker becomes `b`, and a new period starts if its state changes. -/
def advance (b : Breaker) (now : Time) : GuardedCalls :=
  { s with breaker := b, clock := now, period := s.periodAfter b, opened := s.openedAfter b }

/-- The operation with which a call reports. -/
def reportOp (success : Bool) : BreakerOp := if success then .success else .failure

/-- A refused call leaves at once. An admitted call reports once. -/
def step : CallLabel → Option GuardedCalls
  | .enter call now =>
      if s.clock ≤ now ∧ s.flights.get call = none then
        let t := s.advance (s.breaker.allow now).2 now
        some (if (s.breaker.allow now).1 then
          { t with flights := s.flights.put call t.period } else t)
      else none
  | .report call success now =>
      match s.flights.get call with
      | some admitted =>
          if s.clock ≤ now then
            some { s.advance (s.breaker.after now (reportOp success)) now with
              flights := s.flights.erase call
              reports := ⟨admitted, s.period, success⟩ :: s.reports }
          else none
      | none => none

/-- The step reports the outcome of a call that was admitted before the breaker last
opened. -/
def late : CallLabel → Bool
  | .enter _ _ => false
  | .report call _ _ => (s.flights.get call).any fun admitted => decide (admitted < s.opened)

/-- A late outcome meets a closed breaker, or is a success that meets an open one. -/
def harmless (l : CallLabel) : Bool :=
  !s.late l || decide (s.breaker.state = .closed) ||
    (match l with
    | .report _ success _ => decide (s.breaker.state = .open) && success
    | .enter _ _ => true)

/-- The successes reported in period `n`. -/
def successesIn (n : ℕ) : ℕ := s.reports.countP fun r => r.success && decide (r.reported = n)

/-- The successes reported in period `n` by calls that were admitted in it. -/
def ownSuccessesIn (n : ℕ) : ℕ :=
  s.reports.countP fun r => r.success && decide (r.reported = n) && decide (r.admitted = n)

/-- What a step does: one operation of the breaker, of a call that enters or reports. -/
inductive Steps (s : GuardedCalls) : CallLabel → GuardedCalls → Prop
  | refused {call : ℕ} {now : Time} {b : Breaker} : s.breaker.Moves now .allow b →
      Steps s (.enter call now) (s.advance b now)
  | admitted {call : ℕ} {now : Time} {b : Breaker} : s.breaker.Moves now .allow b →
      b.state ≠ .open → Steps s (.enter call now)
        { s.advance b now with flights := s.flights.put call (s.periodAfter b) }
  | reported {call admitted : ℕ} {success : Bool} {now : Time} {b : Breaker} :
      s.flights.get call = some admitted → s.breaker.Moves now (reportOp success) b →
      Steps s (.report call success now)
        { s.advance b now with
          flights := s.flights.erase call
          reports := ⟨admitted, s.period, success⟩ :: s.reports }

end GuardedCalls

/-- A breaker that admits a call is not open afterwards. -/
theorem Breaker.allow_not_open {b : Breaker} {now : Time} (h : (b.allow now).1 = true) :
    (b.allow now).2.state ≠ .open := by
  unfold Breaker.allow at h ⊢
  cases hstate : b.state with
  | closed => simp [hstate]
  | halfOpen => simp [hstate]
  | «open» =>
    simp only [hstate] at h ⊢
    split_ifs at h ⊢ with hdue
    simp

namespace GuardedCalls

variable {s s' : GuardedCalls} {l : CallLabel}

/-- Inversion of the step function. -/
theorem step_cases (h : s.step l = some s') : s.Steps l s' := by
  cases l with
  | enter call now =>
    have hmoves := s.breaker.after_moves now .allow
    simp only [step] at h
    split_ifs at h with hfree hallow
    · cases h
      exact .admitted hmoves (Breaker.allow_not_open hallow)
    · cases h
      exact .refused hmoves
  | report call success now =>
    simp only [step] at h
    split at h
    · rename_i admitted hflight
      split_ifs at h
      cases h
      exact .reported hflight (s.breaker.after_moves now _)
    · cases h

section Phases

variable {b : Breaker} {now : Time} {op : BreakerOp}

/-- How the number of the period and that of the latest opening lie to each other. -/
def InPhase (state : BreakerState) (period opened : ℕ) : Prop :=
  match state with
  | .closed => opened = 0 ∨ opened < period
  | .open => opened = period ∧ 0 < opened
  | .halfOpen => period = opened + 1 ∧ 0 < opened

theorem InPhase.advance (h : InPhase s.breaker.state s.period s.opened)
    (hmoves : s.breaker.Moves now op b) :
    InPhase b.state (s.periodAfter b) (s.openedAfter b) := by
  cases hmoves with
  | idle _ => simpa [periodAfter, openedAfter] using h
  | reset hclosed => simpa [periodAfter, openedAfter] using h
  | count hstate _ => simpa [periodAfter, openedAfter] using h
  | trip _ =>
    by_cases hopen : s.breaker.state = .open
    · simpa [periodAfter, openedAfter, hopen] using h
    · simp [periodAfter, openedAfter, hopen, Ne.symm hopen, InPhase]
  | probe hopen _ =>
    simp only [hopen, InPhase] at h
    simp [periodAfter, openedAfter, hopen, InPhase, h.1]
    omega
  | credit hhalf _ => simpa [periodAfter, openedAfter] using h
  | close hhalf _ =>
    simp only [hhalf, InPhase] at h
    simp only [periodAfter, openedAfter, hhalf, InPhase]
    simp
    omega

theorem period_le_periodAfter (s : GuardedCalls) (b : Breaker) : s.period ≤ s.periodAfter b := by
  unfold periodAfter
  split_ifs <;> omega

theorem InPhase.ne_opened {state : BreakerState} {period opened : ℕ}
    (h : InPhase state period opened) (hstate : state ≠ .open) : opened = 0 ∨ period ≠ opened := by
  cases state with
  | closed => exact h.imp id fun hlt => hlt.ne'
  | «open» => exact absurd rfl hstate
  | halfOpen => exact Or.inr (by have := h.1; omega)

end Phases

/-- No call and no report is from a later period than the current one, no call was admitted
in an open period, and a half-open breaker counts the successes of its period. -/
structure Numbered (s : GuardedCalls) : Prop where
  phase : InPhase s.breaker.state s.period s.opened
  flight : ∀ call admitted, s.flights.get call = some admitted →
    admitted ≤ s.period ∧ (s.opened = 0 ∨ admitted ≠ s.opened)
  report : ∀ r ∈ s.reports, r.reported ≤ s.period
  count : s.breaker.state = .halfOpen →
    (s.successesIn s.period : ℤ) = s.breaker.consecutiveSuccess

section Numbering

variable {b : Breaker} {now : Time} {op : BreakerOp}

/-- No report is from the period that just starts. -/
theorem Numbered.countP_succ (h : s.Numbered) (f : CallReport → Bool) :
    (s.reports.countP fun r => f r && decide (r.reported = s.period + 1)) = 0 := by
  rw [List.countP_eq_zero]
  intro r hr
  have hle := h.report r hr
  have hne : r.reported ≠ s.period + 1 := by omega
  simp [hne]

theorem Numbered.flight_advance (h : s.Numbered) {call admitted : ℕ}
    (hflight : s.flights.get call = some admitted) : admitted ≤ s.periodAfter b ∧
      (s.openedAfter b = 0 ∨ admitted ≠ s.openedAfter b) := by
  obtain ⟨hle, hne⟩ := h.flight call admitted hflight
  refine ⟨hle.trans (s.period_le_periodAfter b), ?_⟩
  unfold openedAfter
  split_ifs
  · exact Or.inr (by omega)
  · exact hne

/-- A call that asks for admission reports nothing. -/
theorem Numbered.count_allow (h : s.Numbered) (hmoves : s.breaker.Moves now .allow b)
    (hhalf : b.state = .halfOpen) :
    ((s.advance b now).successesIn (s.periodAfter b) : ℤ) = b.consecutiveSuccess := by
  cases hmoves with
  | idle _ =>
    have hsame : s.periodAfter s.breaker = s.period := if_pos rfl
    rw [hsame]
    exact h.count hhalf
  | probe hopen _ =>
    have hnone := h.countP_succ fun r => r.success
    simp only [successesIn, advance, periodAfter, hopen]
    simpa using hnone

/-- An outcome that leaves the breaker half-open is a success. -/
theorem success_of_halfOpen {b b' : Breaker} {success : Bool}
    (hmoves : b.Moves now (reportOp success) b') (hhalf : b'.state = .halfOpen) :
    success = true := by
  cases success with
  | true => rfl
  | false =>
    cases hmoves with
    | idle hidle => simp [reportOp] at hidle
    | count hstate _ => exact absurd hhalf hstate
    | trip _ => cases hhalf

/-- A success that leaves the breaker half-open is counted. -/
theorem Numbered.count_report (h : s.Numbered) {admitted : ℕ} {success : Bool}
    {flights : Clustered ℕ ℕ} (hmoves : s.breaker.Moves now (reportOp success) b)
    (hhalf : b.state = .halfOpen) :
    ((({ s.advance b now with
        flights, reports := ⟨admitted, s.period, success⟩ :: s.reports } :
        GuardedCalls).successesIn (s.periodAfter b) : ℕ) : ℤ) = b.consecutiveSuccess := by
  obtain rfl := success_of_halfOpen hmoves hhalf
  cases hmoves with
  | idle hidle =>
    rcases hidle with ⟨-, hop⟩ | ⟨-, hop, -⟩ | ⟨hopen, -⟩ | ⟨-, hop⟩
    · cases hop
    · cases hop
    · rw [hhalf] at hopen
      cases hopen
    · cases hop
  | reset hclosed =>
    rw [show s.breaker.state = .halfOpen from hhalf] at hclosed
    cases hclosed
  | credit hstate _ =>
    have hcount := h.count hstate
    simp only [successesIn, periodAfter] at hcount ⊢
    simp [hcount]
  | close _ _ => cases hhalf

theorem Numbered.step (h : s.Numbered) (hstep : s.Steps l s') : s'.Numbered := by
  cases hstep with
  | refused hmoves =>
    refine ⟨h.phase.advance hmoves, ?_, ?_, h.count_allow hmoves⟩
    · exact fun call admitted hflight => h.flight_advance hflight
    · exact fun r hr => (h.report r hr).trans (s.period_le_periodAfter _)
  | admitted hmoves hnot =>
    refine ⟨h.phase.advance hmoves, ?_, ?_, h.count_allow hmoves⟩
    · intro call admitted hflight
      rcases Clustered.get_put_cases hflight with ⟨-, rfl⟩ | ⟨-, hflight⟩
      · exact ⟨le_rfl, (h.phase.advance hmoves).ne_opened hnot⟩
      · exact h.flight_advance hflight
    · exact fun r hr => (h.report r hr).trans (s.period_le_periodAfter _)
  | reported hflight hmoves =>
    refine ⟨h.phase.advance hmoves, ?_, ?_, h.count_report hmoves⟩
    · exact fun call admitted hflight => h.flight_advance (Clustered.get_erase_cases hflight).2
    · intro r hr
      refine le_trans ?_ (s.period_le_periodAfter _)
      rcases List.mem_cons.mp hr with rfl | hr
      · exact le_rfl
      · exact h.report r hr

end Numbering

section Outcomes

/-- The successes that a half-open breaker has counted are of calls admitted in its period. -/
def Owned (s : GuardedCalls) : Prop :=
  s.breaker.state = .halfOpen →
    ∀ r ∈ s.reports, r.success = true → r.reported = s.period → r.admitted = s.period

/-- A call whose outcome meets a half-open breaker and is not late was admitted in the same
period. -/
theorem Numbered.admitted_eq (h : s.Numbered) {call admitted : ℕ} {success : Bool} {now : Time}
    (hhalf : s.breaker.state = .halfOpen) (hflight : s.flights.get call = some admitted)
    (hlate : s.late (.report call success now) = false) : admitted = s.period := by
  obtain ⟨hle, hne⟩ := h.flight call admitted hflight
  have hphase := h.phase
  simp only [hhalf, InPhase] at hphase
  simp only [late, hflight, Option.any_some, decide_eq_false_iff_not, not_lt] at hlate
  omega

/-- Harmless outcomes that meet a half-open breaker are not late. -/
theorem not_late_of_harmless (h : s.harmless l = true) (hhalf : s.breaker.state = .halfOpen) :
    s.late l = false := by
  cases l with
  | enter call now => rfl
  | report call success now =>
    simpa [harmless, hhalf] using h

theorem Owned.step (h : s.Owned) (hnumbered : s.Numbered) (hharmless : s.harmless l = true)
    (hstep : s.Steps l s') : s'.Owned := by
  have hsame : ∀ b : Breaker, b.state = s.breaker.state → s.periodAfter b = s.period :=
    fun b hb => if_pos hb
  have hallow : ∀ {b : Breaker} {now : Time}, s.breaker.Moves now .allow b → b.state = .halfOpen →
      ∀ r ∈ s.reports, r.success = true → r.reported = s.periodAfter b →
        r.admitted = s.periodAfter b := by
    intro b now hmoves hhalf r hr hsuccess hreported
    cases hmoves with
    | idle _ =>
      rw [hsame _ rfl] at hreported ⊢
      exact h hhalf r hr hsuccess hreported
    | probe hopen _ =>
      have hle := hnumbered.report r hr
      simp only [periodAfter, hopen] at hreported
      simp at hreported
      omega
  cases hstep with
  | refused hmoves => exact hallow hmoves
  | admitted hmoves _ => exact hallow hmoves
  | reported hflight hmoves =>
    rename_i call admitted success now b
    intro (hhalf : b.state = .halfOpen)
    -- an outcome that leaves the breaker half-open is a success that it counted
    have hbefore : s.breaker.state = .halfOpen := by
      obtain rfl := success_of_halfOpen hmoves hhalf
      cases hmoves with
      | idle _ => exact hhalf
      | reset _ => exact hhalf
      | credit hstate _ => exact hstate
      | close _ _ => cases hhalf
    have hperiod := hsame b (hhalf.trans hbefore.symm)
    have hadmitted := hnumbered.admitted_eq hbefore hflight
      (not_late_of_harmless hharmless hbefore)
    intro r hr hsuccess hreported
    change r.reported = s.periodAfter b at hreported
    change r.admitted = s.periodAfter b
    rw [hperiod] at hreported ⊢
    rcases List.mem_cons.mp hr with rfl | hr
    · exact hadmitted
    · exact h hbefore r hr hsuccess hreported

/-- If all successes of a period are of its own calls, they count the same. -/
theorem ownSuccessesIn_eq {n : ℕ}
    (h : ∀ r ∈ s.reports, r.success = true → r.reported = n → r.admitted = n) :
    s.ownSuccessesIn n = s.successesIn n := by
  unfold ownSuccessesIn successesIn
  refine List.countP_congr ?_
  intro r hr
  simp only [Bool.and_eq_true, decide_eq_true_eq]
  constructor
  · exact fun hown => hown.1
  · exact fun hcount => ⟨hcount, h r hr hcount.1 hcount.2⟩

/-- A breaker closes at the report of a success that completes what it needs. -/
theorem Steps.closes (h : s.Steps l s') (hnumbered : s.Numbered)
    (hhalf : s.breaker.state = .halfOpen) (hclosed : s'.breaker.state = .closed) :
    s.breaker.halfOpenSuccesses ≤ s'.successesIn s.period ∧
      ∃ call admitted now, l = .report call true now ∧ s.flights.get call = some admitted ∧
        s'.reports = ⟨admitted, s.period, true⟩ :: s.reports := by
  have hcloses : ∀ {b : Breaker} {op : BreakerOp} {now : Time}, s.breaker.Moves now op b →
      b.state = .closed → op = .success ∧
        s.breaker.halfOpenSuccesses ≤ s.breaker.consecutiveSuccess + 1 :=
    fun hmoves hb => (hmoves.closes.mp ⟨by simp [hhalf], hb⟩).2
  cases h with
  | refused hmoves =>
    obtain ⟨hop, -⟩ := hcloses hmoves hclosed
    cases hop
  | admitted hmoves _ =>
    obtain ⟨hop, -⟩ := hcloses hmoves hclosed
    cases hop
  | reported hflight hmoves =>
    rename_i call admitted success now b
    obtain ⟨hop, hdue⟩ := hcloses hmoves hclosed
    cases success with
    | false => cases hop
    | true =>
      refine ⟨?_, call, admitted, now, rfl, hflight, rfl⟩
      have hcount := hnumbered.count hhalf
      simp only [successesIn] at hcount ⊢
      simp [hcount, hdue]

/-- A success that meets an open breaker changes nothing. -/
theorem Steps.open_success {call : ℕ} {now : Time} (h : s.Steps (.report call true now) s')
    (hopen : s.breaker.state = .open) : s'.breaker = s.breaker := by
  have hne : s.breaker.state ≠ .closed ∧ s.breaker.state ≠ .halfOpen := by simp [hopen]
  cases h with
  | reported _ hmoves =>
    cases hmoves with
    | idle _ => rfl
    | reset hclosed => exact absurd hclosed hne.1
    | credit hhalf _ => exact absurd hhalf hne.2
    | close hhalf _ => exact absurd hhalf hne.2

/-- A harmless outcome of a late call meets a closed breaker or changes nothing. -/
theorem Steps.late_harmless (h : s.Steps l s') (hharmless : s.harmless l = true)
    (hlate : s.late l = true) : s.breaker.state = .closed ∨
      (s.breaker.state = .open ∧ s'.breaker = s.breaker) := by
  cases l with
  | enter call now => cases hlate
  | report call success now =>
    simp only [harmless, hlate, Bool.not_true, Bool.false_or, Bool.or_eq_true,
      decide_eq_true_eq, Bool.and_eq_true] at hharmless
    rcases hharmless with hclosed | ⟨hopen, rfl⟩
    · exact Or.inl hclosed
    · exact Or.inr ⟨hopen, h.open_success hopen⟩

/-- The arguments with which the breaker was built stay. -/
theorem Steps.halfOpenSuccesses (h : s.Steps l s') :
    s'.breaker.halfOpenSuccesses = s.breaker.halfOpenSuccesses := by
  have hmoves : ∀ {b : Breaker} {op : BreakerOp} {now : Time}, s.breaker.Moves now op b →
      b.halfOpenSuccesses = s.breaker.halfOpenSuccesses := by
    intro b op now hmoves
    cases hmoves <;> rfl
  cases h with
  | refused h => exact hmoves h
  | admitted h _ => exact hmoves h
  | reported _ h => exact hmoves h

end Outcomes

section Runs

variable {threshold : ℤ} {openDuration : Duration} {halfOpenSuccesses : ℤ} {clock : Time}

theorem numbered_init : (init threshold openDuration halfOpenSuccesses clock).Numbered where
  phase := Or.inl rfl
  flight := fun call admitted hflight => by cases hflight
  report := fun r hr => by cases hr
  count := fun hhalf => by cases hhalf

theorem numbered_of_run {ok : GuardedCalls → CallLabel → Prop}
    (h : Run step ok (init threshold openDuration halfOpenSuccesses clock) s) :
    s.Numbered ∧ s.breaker.halfOpenSuccesses = max 1 halfOpenSuccesses := by
  refine h.invariant (I := fun s => s.Numbered ∧
    s.breaker.halfOpenSuccesses = max 1 halfOpenSuccesses) ⟨numbered_init, rfl⟩ ?_
  intro a l b ha _ hstep
  have hsteps := step_cases hstep
  exact ⟨ha.1.step hsteps, hsteps.halfOpenSuccesses.trans ha.2⟩

theorem owned_of_run (h : Run step (fun s l => s.harmless l = true)
    (init threshold openDuration halfOpenSuccesses clock) s) : s.Owned := by
  refine (h.invariant (I := fun s => s.Numbered ∧ s.Owned) ⟨numbered_init, ?_⟩ ?_).2
  · exact fun hhalf => by cases hhalf
  · intro a l b ha hharmless hstep
    have hsteps := step_cases hstep
    exact ⟨ha.1.step hsteps, ha.2.step ha.1 hharmless hsteps⟩

end Runs

end GuardedCalls

/-- **Outcomes count in the period in which they are reported.** In every run of concurrent
calls a half-open breaker closes only after `max(1, halfOpenSuccesses)` successes reported in
that half-open period, and a success that meets an open breaker changes nothing. In the runs
in which the calls admitted before the last opening report nothing to a half-open breaker and
no failure to an open one, the successes that close it are of calls admitted in the same
half-open period, and no outcome of a call admitted before the last opening closes the
breaker, opens it again or puts off the end of its open time. -/
theorem outcomes_count_when_reported {threshold : ℤ} {openDuration : Duration}
    {halfOpenSuccesses : ℤ} {clock : Time} {s s' : GuardedCalls} {l : CallLabel}
    (h : Run GuardedCalls.step anyStep
      (.init threshold openDuration halfOpenSuccesses clock) s)
    (hstep : s.step l = some s') :
    (s.breaker.state = .halfOpen → s'.breaker.state = .closed →
      max 1 halfOpenSuccesses ≤ s'.successesIn s.period) ∧
    (∀ call now, l = .report call true now → s.breaker.state = .open →
      s'.breaker = s.breaker) ∧
    (Run GuardedCalls.step (fun s l => s.harmless l = true)
        (.init threshold openDuration halfOpenSuccesses clock) s → s.harmless l = true →
      (s.breaker.state = .halfOpen → s'.breaker.state = .closed →
        max 1 halfOpenSuccesses ≤ s'.ownSuccessesIn s.period) ∧
      (s.late l = true → ¬(s.breaker.state ≠ .closed ∧ s'.breaker.state = .closed) ∧
        ¬(s.breaker.state = .halfOpen ∧ s'.breaker.state = .open) ∧
        (s.breaker.state = .open → s'.breaker.openedAt = s.breaker.openedAt))) := by
  have hsteps := GuardedCalls.step_cases hstep
  obtain ⟨hnumbered, hsuccesses⟩ := GuardedCalls.numbered_of_run h
  refine ⟨?_, ?_, ?_⟩
  · intro hhalf hclosed
    rw [← hsuccesses]
    exact (hsteps.closes hnumbered hhalf hclosed).1
  · rintro call now rfl hopen
    exact hsteps.open_success hopen
  · intro hrun hharmless
    have howned := GuardedCalls.owned_of_run hrun
    constructor
    · intro hhalf hclosed
      obtain ⟨hdue, call, admitted, now, rfl, hflight, hreports⟩ :=
        hsteps.closes hnumbered hhalf hclosed
      have hadmitted := hnumbered.admitted_eq hhalf hflight
        (GuardedCalls.not_late_of_harmless hharmless hhalf)
      rw [← hsuccesses, GuardedCalls.ownSuccessesIn_eq]
      · exact hdue
      · intro r hr hsuccess hreported
        rw [hreports] at hr
        rcases List.mem_cons.mp hr with rfl | hr
        · exact hadmitted
        · exact howned hhalf r hr hsuccess hreported
    · intro hlate
      rcases hsteps.late_harmless hharmless hlate with hclosed | ⟨hopen, hkept⟩
      · simp [hclosed]
      · simp [hopen, hkept]

/-- Two calls are admitted, one fails and opens the breaker, and a third call is admitted once
the open time is over. -/
def callsThroughOpening : List CallLabel :=
  [.enter 0 1, .enter 1 1, .report 1 false 2, .enter 2 12]

/-- The success of the third call closes the breaker. -/
theorem outcomes_count_when_reported_probe : ∃ s s' : GuardedCalls,
    s.step (.report 2 true 13) = some s' ∧ s.breaker.state = .halfOpen ∧
    s'.breaker.state = .closed ∧ 1 ≤ s'.ownSuccessesIn s.period := by
  have hplay : (play GuardedCalls.step (fun s l => s.harmless l) (.init 1 10 1 0)
      callsThroughOpening).any (fun s => s.harmless (.report 2 true 13) &&
        decide (s.breaker.state = .halfOpen) && (s.step (.report 2 true 13)).any fun s' =>
          s'.breaker.state = .closed) = true := by
    decide
  have hcheck : ∀ (s : GuardedCalls) (l : CallLabel), s.harmless l = true → s.harmless l = true :=
    fun _ _ h => h
  obtain ⟨s, hrun, htest⟩ := Run.exists_of_play hcheck hplay
  simp only [Bool.and_eq_true, decide_eq_true_eq, Option.any_eq_true] at htest
  obtain ⟨⟨hharmless, hhalf⟩, s', hstep, hclosed⟩ := htest
  obtain ⟨-, -, hown⟩ := outcomes_count_when_reported hrun.any hstep
  have hcount := (hown hrun hharmless).1 hhalf hclosed
  rw [max_self] at hcount
  exact ⟨s, s', hstep, hhalf, hclosed, by exact_mod_cast hcount⟩

/-- The success of the first call, which was admitted before the breaker opened, closes the
half-open breaker although no call admitted in the half-open period has reported. -/
theorem late_success_closes_breaker : ∃ s s' : GuardedCalls,
    Run GuardedCalls.step anyStep (.init 1 10 1 0) s ∧
    s.step (.report 0 true 13) = some s' ∧ s.late (.report 0 true 13) = true ∧
    s.breaker.state = .halfOpen ∧ s'.breaker.state = .closed ∧
    s'.ownSuccessesIn s.period = 0 := by
  have hplay : (play GuardedCalls.step (fun _ _ => true) (.init 1 10 1 0)
      callsThroughOpening).any (fun s => s.late (.report 0 true 13) &&
        decide (s.breaker.state = .halfOpen) && (s.step (.report 0 true 13)).any fun s' =>
          decide (s'.breaker.state = .closed) && decide (s'.ownSuccessesIn s.period = 0)) =
      true := by
    decide
  obtain ⟨s, hrun, htest⟩ := Run.exists_of_play (fun _ _ _ => trivial) hplay
  simp only [Bool.and_eq_true, decide_eq_true_eq, Option.any_eq_true] at htest
  obtain ⟨⟨hlate, hhalf⟩, s', hstep, hclosed, hnone⟩ := htest
  exact ⟨s, s', hrun, hstep, hlate, hhalf, hclosed, hnone⟩

end ControlPlane

import ControlPlane.Retry
import ControlPlane.App.Processes

/-!
# The retry loop of a publication

`publishWithRetry` calls `busPublish` until a call succeeds, its attempts are used up, or its
context is cancelled during a wait. Each call first asks the breaker, which other publications
change at the same time, and reports to it what the bus answered. The loop is an instance of
the general one; its surroundings at each attempt are arbitrary.
-/

namespace ControlPlane

open Retry

/-- What happens around one attempt: what other publications do to the breaker before it is
asked and while the bus is called, the clock at these times, the answer of the bus, and the
error of the context if it is done before the wait after the attempt is over. -/
structure Surroundings where
  others : Breaker → Breaker
  asked : Time
  outcome : Outcome
  meanwhile : Breaker → Breaker
  answered : Time
  cancelled : Option CtxError

/-- What `busPublish` does with the breaker and the bus. -/
inductive BusStep
  | allow (admitted : Bool)
  | publish (msg : Message)
  | success
  | failure
  deriving DecidableEq

/-- A call of `busPublish`: its arguments, its steps in order and what it returns. -/
structure BusCall where
  message : Message
  steps : List BusStep
  result : Outcome
  deriving DecidableEq

/-- The report to the breaker that matches an outcome. -/
def Outcome.report : Outcome → BusStep
  | .ok _ => .success
  | .error _ => .failure

/-- The breaker after the report. -/
def Outcome.settle (b : Breaker) (now : Time) : Outcome → Breaker
  | .ok _ => b.success
  | .error _ => b.failure now

/-- `busPublish`, for an application with or without a bus and a breaker. -/
def busPublish (bus : Bool) (env : Surroundings) (msg : Message) (breaker : Option Breaker) :
    BusCall × Option Breaker :=
  if bus = false then (⟨msg, [], .error "event bus not configured"⟩, breaker)
  else
    match breaker with
    | none => (⟨msg, [.publish msg], env.outcome⟩, none)
    | some b =>
        match (env.others b).allow env.asked with
        | (false, b) => (⟨msg, [.allow false], .error "nats circuit open"⟩, some b)
        | (true, b) =>
            (⟨msg, [.allow true, .publish msg, env.outcome.report], env.outcome⟩,
              some (env.outcome.settle (env.meanwhile b) env.answered))

/-- An outcome as the result of an attempt. -/
def Outcome.toExcept : Outcome → Except String String
  | .ok brokerID => .ok brokerID
  | .error err => .error err

/-- The loop of `publishWithRetry`, for given surroundings of its attempts. -/
def Config.publishLoop (cfg : Config) (bus : Bool) (env : ℕ → Surroundings) (msg : Message) :
    Loop (Option Breaker) BusCall String String Duration where
  attempt n := busPublish bus (env n) msg
  result call := call.result.toExcept
  cancelled n := (env n).cancelled.map CtxError.text
  next wait := min (wait * 2) cfg.publishMaxBackoff

/-- `publishWithRetry`. -/
def Config.publishWithRetry (cfg : Config) (bus : Bool) (breaker : Option Breaker)
    (env : ℕ → Surroundings) (msg : Message) :
    Trace (Option Breaker) BusCall String String Duration :=
  (cfg.publishLoop bus env msg).run (cfg.publishAttempts - 1) 0 cfg.publishBackoff breaker

variable {bus : Bool} {msg : Message}

@[simp] theorem busPublish_message (env : Surroundings) (breaker : Option Breaker) :
    (busPublish bus env msg breaker).1.message = msg := by
  unfold busPublish
  split_ifs
  · rfl
  · cases breaker with
    | none => rfl
    | some b =>
      dsimp only
      split <;> rfl

/-- A call that the breaker admits publishes once and reports the outcome; one that it refuses
does neither. -/
theorem busPublish_of_breaker (env : Surroundings) (b : Breaker) :
    busPublish true env msg (some b) =
      if ((env.others b).allow env.asked).1 then
        (⟨msg, [.allow true, .publish msg, env.outcome.report], env.outcome⟩,
          some (env.outcome.settle (env.meanwhile ((env.others b).allow env.asked).2) env.answered))
      else
        (⟨msg, [.allow false], .error "nats circuit open"⟩,
          some ((env.others b).allow env.asked).2) := by
  unfold busPublish
  rw [if_neg (by decide)]
  dsimp only
  cases hallow : (env.others b).allow env.asked with
  | mk admitted b' => cases admitted <;> rfl

theorem publishAttempts_eq (cfg : Config) :
    (cfg.publishAttempts : ℤ) = max 1 cfg.publishRetryMax ∧ 1 ≤ cfg.publishAttempts := by
  unfold Config.publishAttempts
  split_ifs <;> omega

theorem BusCall.toExcept_eq_ok {call : BusCall} {brokerID : String} :
    call.result.toExcept = .ok brokerID ↔ call.result = .ok brokerID := by
  cases call.result <;> simp [Outcome.toExcept]

/-- The loop keeps its breaker from call to call. -/
theorem stateAt_publishLoop (cfg : Config) (env : ℕ → Surroundings) (msg : Message) (b : Breaker)
    (n : ℕ) :
    ∃ b', (cfg.publishLoop true env msg).stateAt (some b) n = some b' := by
  induction n with
  | zero => exact ⟨b, rfl⟩
  | succ n ih =>
    obtain ⟨b', hb'⟩ := ih
    have hnext : (cfg.publishLoop true env msg).stateAt (some b) (n + 1) =
        (busPublish true (env n) msg (some b')).2 := by
      rw [← hb']
      rfl
    rw [hnext, busPublish_of_breaker]
    split_ifs
    · exact ⟨_, rfl⟩
    · exact ⟨_, rfl⟩

/-- The call of `busPublish` in an attempt, with the breaker that it asks, and what it leaves to
the next attempt. -/
theorem attemptAt_publishLoop (cfg : Config) (env : ℕ → Surroundings) (msg : Message)
    (b : Breaker) (n : ℕ) :
    ∃ b', (cfg.publishLoop true env msg).stateAt (some b) n = some b' ∧
      (cfg.publishLoop true env msg).attemptAt (some b) n =
        (busPublish true (env n) msg (some b')).1 ∧
      (cfg.publishLoop true env msg).stateAt (some b) (n + 1) =
        (busPublish true (env n) msg (some b')).2 := by
  obtain ⟨b', hb'⟩ := stateAt_publishLoop cfg env msg b n
  refine ⟨b', hb', ?_, ?_⟩
  · rw [← hb']
    rfl
  · rw [← hb']
    rfl

/-- The attempt is as the breaker decides: an admitted one publishes once and tells the breaker of
the outcome, a refused one does neither, and the breaker is left as `Success`, `Failure` or the
refusal leaves it. -/
structure Surroundings.Reported (env : Surroundings) (msg : Message) (b : Breaker) (call : BusCall)
    (after : Option Breaker) : Prop where
  refused : ((env.others b).allow env.asked).1 = false →
    call.steps = [.allow false] ∧ call.result = .error "nats circuit open" ∧
      after = some ((env.others b).allow env.asked).2
  succeeded : ∀ id, ((env.others b).allow env.asked).1 = true → env.outcome = .ok id →
    call.steps = [.allow true, .publish msg, .success] ∧ call.result = .ok id ∧
      after = some (env.meanwhile ((env.others b).allow env.asked).2).success
  failed : ∀ err, ((env.others b).allow env.asked).1 = true → env.outcome = .error err →
    call.steps = [.allow true, .publish msg, .failure] ∧ call.result = .error err ∧
      after = some ((env.meanwhile ((env.others b).allow env.asked).2).failure env.answered)

theorem busPublish_reported (env : Surroundings) (msg : Message) (b : Breaker) :
    env.Reported msg b (busPublish true env msg (some b)).1
      (busPublish true env msg (some b)).2 := by
  rw [busPublish_of_breaker]
  refine ⟨fun hrefused => ?_, fun id hadmitted hok => ?_, fun err hadmitted herror => ?_⟩
  · rw [if_neg (by simp [hrefused])]
    exact ⟨rfl, rfl, rfl⟩
  · rw [if_pos hadmitted, hok]
    exact ⟨rfl, rfl, rfl⟩
  · rw [if_pos hadmitted, herror]
    exact ⟨rfl, rfl, rfl⟩

/-- The law of the retry loop, for every configuration, every answer of the bus at each
attempt, every clock, and every state in which the calls find the breaker. -/
theorem retry_loop_law (cfg : Config) (bus : Bool) (breaker : Option Breaker)
    (env : ℕ → Surroundings) (msg : Message) :
    let loop := cfg.publishLoop bus env msg
    let run := cfg.publishWithRetry bus breaker env msg
    (run.attempts.length : ℤ) ≤ max 1 cfg.publishRetryMax ∧
    (∀ call ∈ run.attempts, call.message = msg) ∧
    (∀ id, run.result = .ok id ↔
      ∃ before call, run.attempts = before ++ [call] ∧ call.result = .ok id) ∧
    (∀ before call later, run.attempts = before ++ call :: later →
      (∃ id, call.result = .ok id) → later = []) ∧
    ((∀ i < run.waits.length, (env i).cancelled = none) →
      (∀ k, loop.Succeeds breaker k → (∀ i < k, ¬loop.Succeeds breaker i) →
        (run.attempts.length : ℤ) = min (k + 1 : ℤ) (max 1 cfg.publishRetryMax)) ∧
      ((∀ k, ¬loop.Succeeds breaker k) →
        (run.attempts.length : ℤ) = max 1 cfg.publishRetryMax)) ∧
    run.state = loop.stateAt breaker run.attempts.length ∧
    ∀ b, bus = true → breaker = some b → ∀ i call, run.attempts[i]? = some call →
      ∃ b', loop.stateAt breaker i = some b' ∧
        (env i).Reported msg b' call (loop.stateAt breaker (i + 1)) := by
  intro loop run
  obtain ⟨hattempts, hpos⟩ := publishAttempts_eq cfg
  obtain ⟨m, hm⟩ := loop.exists_stops breaker (cfg.publishAttempts - 1) cfg.publishBackoff
  have hstops : loop.Stops breaker 0 (cfg.publishAttempts - 1) m run := hm
  have hlength := hstops.length_attempts
  have hle := hstops.le_last
  refine ⟨by omega, ?_, ?_, ?_, ?_, ?_, ?_⟩
  · exact hstops.forall_attempts fun n => busPublish_message _ _
  · intro id
    rw [hstops.result_eq_ok_iff_last]
    simp only [loop, Config.publishLoop, BusCall.toExcept_eq_ok]
  · rintro before call later heq ⟨id, hid⟩
    exact hstops.eq_nil_of_success heq (BusCall.toExcept_eq_ok.mpr hid)
  · intro hgoes
    have hwaits : ∀ i < run.waits.length, loop.cancelled i = none := by
      intro i hi
      simp [loop, Config.publishLoop, hgoes i hi]
    refine ⟨fun k hk hbefore => ?_, fun hfails => ?_⟩
    · have hm := hstops.eq_of_first_success hwaits hk hbefore
      omega
    · have hm := (hstops.success_or_last hwaits).resolve_left (hfails m)
      omega
  · rw [hlength]
    exact hstops.state
  · rintro b rfl rfl i call hcall
    obtain ⟨b', hb', hattempt, hnext⟩ := attemptAt_publishLoop cfg env msg b i
    refine ⟨b', hb', ?_⟩
    rw [hstops.getElem?_attempts hcall, hattempt, hnext]
    exact busPublish_reported (env i) msg b'

end ControlPlane

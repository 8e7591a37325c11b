import ControlPlane.App.System
import ControlPlane.App.RetryLoop

/-!
# Processes in the retry loop

A process of the application takes one step of `publishWithRetry` at a time, between steps of
other processes that use the same breaker. The steps that it takes with the breaker and the bus
until it leaves the loop are those of a run of the loop, in the surroundings that the other
processes made: the law of the loop holds of every publication of the application.
-/

namespace ControlPlane

open Retry

/-- The steps that process `p` takes with the breaker and the bus, the latest first. -/
def App.busSteps (p : ℕ) (a : App) : AppLabel → List BusStep
  | .send q =>
      match a.procs.get q with
      | some ⟨node, .publishing job _⟩ =>
          if q ≠ p then []
          else if ((a.nodes node).busBreaker.allow a.store.clock).1 then
            [.publish job.message, .allow true]
          else [.allow false]
      | _ => []
  | .ack q outcome => if q = p then [outcome.report] else []
  | _ => []

/-- The process is in its call of `publishWithRetry`. -/
def Pc.publishes : Pc → Bool
  | .publishing _ _ | .sent _ _ | .waiting _ _ _ => true
  | _ => false

/-- Process `p` is in a call of `publishWithRetry`. -/
def App.publishes (p : ℕ) (a : App) : Bool := (a.procs.get p).any fun proc => proc.pc.publishes

/-- Process `p` is in such a call before the step, and the step does not make it crash. -/
def App.goesOn (p : ℕ) (a : App) (l : AppLabel) : Prop := a.publishes p = true ∧ l ≠ .crash p

namespace Surroundings

/-- The call of `busPublish` in these surroundings. -/
def call (e : Surroundings) (msg : Message) (b : Breaker) : BusCall :=
  (busPublish true e msg (some b)).1

/-- The breaker is found in one state, whatever the loop left behind. -/
def Fixed (e : Surroundings) : Prop := ∃ b', ∀ b, e.others b = b'

/-- The attempt failed and the wait after it ran out. -/
structure Retried (msg : Message) (b : Breaker) (e : Surroundings) : Prop where
  fixed : e.Fixed
  fails : ∃ err, (e.call msg b).result = .error err
  waited : e.cancelled = none

theorem call_eq (e : Surroundings) (msg : Message) (b : Breaker) :
    e.call msg b =
      if ((e.others b).allow e.asked).1 then
        ⟨msg, [.allow true, .publish msg, e.outcome.report], e.outcome⟩
      else ⟨msg, [.allow false], .error "nats circuit open"⟩ := by
  unfold call
  rw [busPublish_of_breaker]
  split_ifs <;> rfl

theorem Fixed.call_congr {e : Surroundings} (h : e.Fixed) (msg : Message) (b b' : Breaker) :
    e.call msg b = e.call msg b' := by
  obtain ⟨b₀, hb₀⟩ := h
  rw [call_eq, call_eq, hb₀, hb₀]

/-- The surroundings of the listed attempts, of which `e` is the last. -/
def listed (es : List Surroundings) (e : Surroundings) (n : ℕ) : Surroundings := es[n]?.getD e

theorem listed_of_lt {es : List Surroundings} (e : Surroundings) {n : ℕ} (hn : n < es.length) :
    listed es e n = es[n] := by
  simp [listed, hn]

theorem listed_length (es : List Surroundings) (e : Surroundings) :
    listed es e es.length = e := by
  simp [listed]

end Surroundings

/-- The attempts of the loop in surroundings that do not depend on what it leaves behind. -/
theorem attemptAt_of_fixed {cfg : Config} {env : ℕ → Surroundings} {msg : Message}
    (b : Breaker) {n : ℕ} (h : (env n).Fixed) :
    (cfg.publishLoop true env msg).attemptAt (some b) n = (env n).call msg b := by
  obtain ⟨b', hb'⟩ := stateAt_publishLoop cfg env msg b n
  have hcall : (cfg.publishLoop true env msg).attemptAt (some b) n = (env n).call msg b' := by
    unfold Loop.attemptAt
    rw [hb']
    rfl
  rw [hcall, h.call_congr msg b' b]

section Listed

open Surroundings

variable {cfg : Config} {msg : Message} {b : Breaker} {es : List Surroundings} {e : Surroundings}

/-- The attempts of the loop in the listed surroundings. -/
theorem attemptAt_listed (hes : ∀ x ∈ es, x.Retried msg b) (he : e.Fixed) {n : ℕ}
    (hn : n ≤ es.length) :
    (cfg.publishLoop true (listed es e) msg).attemptAt (some b) n = (listed es e n).call msg b := by
  refine attemptAt_of_fixed b ?_
  rcases Nat.lt_or_eq_of_le hn with hlt | rfl
  · rw [listed_of_lt e hlt]
    exact (hes _ (List.getElem_mem hlt)).fixed
  · rwa [listed_length]

/-- Attempts of which all but the last were retried, and the last one had a reason not to be,
are a run of the loop. -/
theorem stops_listed (hes : ∀ x ∈ es, x.Retried msg b) (he : e.Fixed)
    (hlength : es.length < cfg.publishAttempts)
    (hreason : (∃ id, (e.call msg b).result = .ok id) ∨ es.length + 1 = cfg.publishAttempts ∨
      e.cancelled ≠ none) :
    (cfg.publishLoop true (listed es e) msg).Stops (some b) 0 (cfg.publishAttempts - 1) es.length
      (cfg.publishWithRetry true (some b) (listed es e) msg) := by
  obtain ⟨m, hm⟩ := (cfg.publishLoop true (listed es e) msg).exists_stops (some b)
    (cfg.publishAttempts - 1) cfg.publishBackoff
  have hstop : m = es.length := by
    refine hm.eq_of_reason (by omega) ?_ ?_
    · intro i hi
      have hretried := hes _ (List.getElem_mem hi)
      rw [← listed_of_lt e hi] at hretried
      obtain ⟨err, herr⟩ := hretried.fails
      refine ⟨?_, ?_⟩
      · rintro ⟨r, hr⟩
        have hok := BusCall.toExcept_eq_ok.mp hr
        rw [attemptAt_listed hes he hi.le, herr] at hok
        cases hok
      · simp [Config.publishLoop, hretried.waited]
    · rcases hreason with ⟨id, hid⟩ | hfull | hcancelled
      · refine .inl ⟨id, BusCall.toExcept_eq_ok.mpr ?_⟩
        rw [attemptAt_listed hes he le_rfl, listed_length, hid]
      · exact .inr (.inl (by omega))
      · refine .inr (.inr ?_)
        simpa [Config.publishLoop, listed_length] using hcancelled
  exact hstop ▸ hm

/-- The calls of that run. -/
theorem attempts_listed (hes : ∀ x ∈ es, x.Retried msg b) (he : e.Fixed)
    (hlength : es.length < cfg.publishAttempts)
    (hreason : (∃ id, (e.call msg b).result = .ok id) ∨ es.length + 1 = cfg.publishAttempts ∨
      e.cancelled ≠ none) :
    (cfg.publishWithRetry true (some b) (listed es e) msg).attempts =
      (es ++ [e]).map (·.call msg b) := by
  have hfront : (List.range es.length).map
      ((cfg.publishLoop true (listed es e) msg).attemptAt (some b)) = es.map (·.call msg b) := by
    refine List.ext_getElem (by simp) fun i hi _ => ?_
    have hlt : i < es.length := by simpa using hi
    simp [attemptAt_listed hes he hlt.le, listed_of_lt e hlt]
  rw [(stops_listed hes he hlength hreason).attempts_eq, hfront,
    attemptAt_listed hes he le_rfl, listed_length, List.map_append, List.map_singleton]

end Listed

/-- The steps of the calls in the given surroundings. -/
def Surroundings.steps (msg : Message) (b : Breaker) (es : List Surroundings) : List BusStep :=
  es.flatMap fun e => (e.call msg b).steps

theorem Surroundings.reverse_steps_append (msg : Message) (b : Breaker) (es : List Surroundings)
    (e : Surroundings) : (steps msg b (es ++ [e])).reverse =
      (e.call msg b).steps.reverse ++ (steps msg b es).reverse := by
  simp [steps]

/-- Where a process stands in `publishWithRetry`, with the steps that it has taken, the latest
first: the attempts before the present one were retried. -/
inductive Publishing (cfg : Config) (job : Job) (b : Breaker) : Pc → List BusStep → Prop
  | publishing {es : List Surroundings} {wait : Duration} :
      (∀ e ∈ es, e.Retried job.message b) → es.length < cfg.publishAttempts →
      Publishing cfg job b (.publishing job ⟨es.length + 1, wait⟩)
        (Surroundings.steps job.message b es).reverse
  | sent {es : List Surroundings} {wait : Duration} {b' : Breaker} {asked : Time} :
      (∀ e ∈ es, e.Retried job.message b) → es.length < cfg.publishAttempts →
      (b'.allow asked).1 = true →
      Publishing cfg job b (.sent job ⟨es.length + 1, wait⟩)
        (.publish job.message :: .allow true :: (Surroundings.steps job.message b es).reverse)
  | waiting {es : List Surroundings} {e : Surroundings} {wait : Duration} {due : Time} :
      (∀ e ∈ es, e.Retried job.message b) → e.Retried job.message b →
      es.length + 1 < cfg.publishAttempts →
      Publishing cfg job b (.waiting job ⟨es.length + 2, wait⟩ due)
        (Surroundings.steps job.message b (es ++ [e])).reverse

theorem Publishing.publishes {cfg : Config} {job : Job} {b : Breaker} {pc : Pc}
    {log : List BusStep} (h : Publishing cfg job b pc log) : pc.publishes = true := by
  cases h <;> rfl

/-- The steps are those of a run of the loop, which ends with a result that the process goes on
with: by the step `l` it learns of the success, or it is about to record the error. -/
def Publishes (cfg : Config) (job : Job) (b : Breaker) (p node : ℕ) (l : AppLabel) (a : App)
    (log : List BusStep) : Prop :=
  ∃ env, log.reverse =
      (cfg.publishWithRetry true (some b) env job.message).attempts.flatMap BusCall.steps ∧
    ((∃ id, l = .ack p (.ok id) ∧
        (cfg.publishWithRetry true (some b) env job.message).result = .ok id) ∨
      ∃ err, a.procs.get p = some ⟨node, .recording job err⟩ ∧
        (cfg.publishWithRetry true (some b) env job.message).result = .error err)

/-- After a step the process is still in the loop, or it has left it with the result of a run. -/
def FollowsLoop (cfg : Config) (job : Job) (b : Breaker) (p node : ℕ) (l : AppLabel) (a : App)
    (log : List BusStep) : Prop :=
  (∃ pc, a.procs.get p = some ⟨node, pc⟩ ∧ Publishing cfg job b pc log) ∨
    a.publishes p = false ∧ Publishes cfg job b p node l a log

section Refinement

variable {cfg : ℕ → Config} {a a' : App} {p node : ℕ} {job : Job} {b b' : Breaker}
  {es : List Surroundings} {e : Surroundings} {wait : Duration} {l : AppLabel} {err : String}

theorem App.publishes_eq_false {proc : Process} (h : a.procs.get p = some proc)
    (hpc : proc.pc.publishes = false) : a.publishes p = false := by
  simp [App.publishes, h, hpc]

/-- An error is recorded by an operation that no breaker guards. -/
theorem App.Proceeds.recordFailure
    (h : a.Proceeds cfg p node (job.recordFailure (cfg node) err) a') :
    a'.procs.get p = some ⟨node, .recording job err⟩ := by
  cases h with
  | unguarded _ hacts =>
    cases hacts
    simp
  | allowed hguarded => simp [Pc.guarded] at hguarded
  | refused hguarded => simp [Pc.guarded] at hguarded

/-- After a success the process is in no call of `publishWithRetry`. -/
theorem App.Proceeds.mark {id : String}
    (h : a.Proceeds cfg p node (.call (.mark job.event.id id) (.marking job)) a') :
    a'.publishes p = false := by
  cases h with
  | unguarded _ hacts =>
    cases hacts
    simp [App.publishes, Pc.publishes]
  | allowed _ _ hacts =>
    cases hacts
    simp [App.publishes, Pc.publishes]
  | refused _ _ hresume hacts =>
    cases job with
    | request result =>
      cases hresume
      cases hacts
      simp [App.publishes]
    | relay evt rest =>
      cases hresume
      cases rest with
      | nil =>
        cases hacts
        simp [App.publishes]
      | cons evt' rest =>
        cases hacts
        simp [App.publishes, Pc.publishes]

/-- The loop ends with the listed attempts, and the process is about to record its error. -/
theorem followsLoop_of_recording (hes : ∀ x ∈ es, x.Retried job.message b) (he : e.Fixed)
    (herr : (e.call job.message b).result = .error err)
    (hlength : es.length < (cfg node).publishAttempts)
    (hreason : es.length + 1 = (cfg node).publishAttempts ∨ e.cancelled ≠ none)
    (hrecording : a.procs.get p = some ⟨node, .recording job
      (if es.length + 1 = (cfg node).publishAttempts then err
        else (e.cancelled.map CtxError.text).getD err)⟩) :
    FollowsLoop (cfg node) job b p node l a
      (Surroundings.steps job.message b (es ++ [e])).reverse := by
  have hstops := stops_listed hes he hlength (.inr hreason)
  have hattempt : ((cfg node).publishLoop true (.listed es e) job.message).result
      (((cfg node).publishLoop true (.listed es e) job.message).attemptAt (some b) es.length) =
        .error err := by
    rw [attemptAt_listed hes he le_rfl, Surroundings.listed_length]
    simp [Config.publishLoop, herr, Outcome.toExcept]
  have hlast : es.length = (cfg node).publishAttempts - 1 ↔
      es.length + 1 = (cfg node).publishAttempts := by omega
  refine .inr ⟨App.publishes_eq_false hrecording rfl, .listed es e, ?_, .inr ⟨_, hrecording, ?_⟩⟩
  · rw [attempts_listed hes he hlength (.inr hreason), List.reverse_reverse, List.flatMap_map]
    rfl
  · rw [hstops.result_of_error hattempt]
    simp only [hlast, Config.publishLoop, Surroundings.listed_length]

/-- A failed attempt is followed by a wait or by the end of the loop. -/
theorem followsLoop_of_failed {now : Time} (hes : ∀ x ∈ es, x.Retried job.message b)
    (he : e.Fixed) (herr : (e.call job.message b).result = .error err)
    (hwaited : e.cancelled = none) (hlength : es.length < (cfg node).publishAttempts)
    (h : a.Proceeds cfg p node
      (job.attemptFailed (cfg node) now ⟨es.length + 1, wait⟩ err) a') :
    FollowsLoop (cfg node) job b p node l a'
      (Surroundings.steps job.message b (es ++ [e])).reverse := by
  unfold Job.attemptFailed at h
  dsimp only at h
  split_ifs at h with hlast
  · refine followsLoop_of_recording hes he herr hlength (.inl hlast) ?_
    rw [if_pos hlast]
    exact h.recordFailure
  · cases h with
    | unguarded _ hacts =>
      cases hacts
      have hroom : es.length + 1 < (cfg node).publishAttempts := by omega
      refine .inl ⟨.waiting job ⟨es.length + 2, min (wait * 2) (cfg node).publishMaxBackoff⟩
        (now + wait), ?_, .waiting hes ⟨he, ⟨err, herr⟩, hwaited⟩ hroom⟩
      rw [Clustered.get_put, if_pos rfl]

/-- The breaker refuses the call. -/
theorem followsLoop_unsent (hes : ∀ x ∈ es, x.Retried job.message b)
    (hlength : es.length < (cfg node).publishAttempts)
    (hproc : a.procs.get p = some ⟨node, .publishing job ⟨es.length + 1, wait⟩⟩)
    (hallow : ((a.nodes node).busBreaker.allow a.store.clock).1 = false)
    (h : (a.setBusBreaker node ((a.nodes node).busBreaker.allow a.store.clock).2).Proceeds cfg p
      node (job.attemptFailed (cfg node) a.store.clock ⟨es.length + 1, wait⟩ "nats circuit open")
      a') :
    FollowsLoop (cfg node) job b p node l a'
      (a.busSteps p (.send p) ++ (Surroundings.steps job.message b es).reverse) := by
  let e : Surroundings :=
    ⟨fun _ => (a.nodes node).busBreaker, a.store.clock, .error "", id, 0, none⟩
  have hcall : e.call job.message b =
      ⟨job.message, [.allow false], .error "nats circuit open"⟩ := by
    rw [Surroundings.call_eq, if_neg (by simp [e, hallow])]
  have hlog : a.busSteps p (.send p) ++ (Surroundings.steps job.message b es).reverse =
      (Surroundings.steps job.message b (es ++ [e])).reverse := by
    rw [Surroundings.reverse_steps_append, hcall]
    simp [App.busSteps, hproc, hallow]
  rw [hlog]
  exact followsLoop_of_failed hes ⟨_, fun _ => rfl⟩ (by rw [hcall]) rfl hlength h

/-- The call of the bus in an attempt that the breaker admitted. -/
def answeredCall (a : App) (node : ℕ) (b' : Breaker) (asked : Time) (outcome : Outcome) :
    Surroundings :=
  ⟨fun _ => b', asked, outcome, fun _ => (a.nodes node).busBreaker, a.store.clock, none⟩

theorem call_answeredCall {asked : Time} (hallow : (b'.allow asked).1 = true) (outcome : Outcome) :
    (answeredCall a node b' asked outcome).call job.message b =
      ⟨job.message, [.allow true, .publish job.message, outcome.report], outcome⟩ := by
  rw [Surroundings.call_eq, answeredCall, if_pos hallow]

theorem log_answeredCall (node : ℕ) {asked : Time} (hallow : (b'.allow asked).1 = true)
    (outcome : Outcome) :
    a.busSteps p (.ack p outcome) ++ (.publish job.message :: .allow true ::
        (Surroundings.steps job.message b es).reverse) =
      (Surroundings.steps job.message b (es ++ [answeredCall a node b' asked outcome])).reverse := by
  rw [Surroundings.reverse_steps_append, call_answeredCall hallow]
  simp [App.busSteps]

/-- The bus accepts the message. -/
theorem followsLoop_acked {asked : Time} {id : String}
    (hes : ∀ x ∈ es, x.Retried job.message b) (hlength : es.length < (cfg node).publishAttempts)
    (hallow : (b'.allow asked).1 = true) (hleft : a'.publishes p = false) :
    FollowsLoop (cfg node) job b p node (.ack p (.ok id)) a'
      (a.busSteps p (.ack p (.ok id)) ++ (.publish job.message :: .allow true ::
        (Surroundings.steps job.message b es).reverse)) := by
  have he : (answeredCall a node b' asked (.ok id)).Fixed := ⟨b', fun _ => rfl⟩
  have hcall : ((answeredCall a node b' asked (.ok id)).call job.message b).result = .ok id := by
    rw [call_answeredCall hallow]
  have hstops := stops_listed hes he hlength (.inl ⟨id, hcall⟩)
  rw [log_answeredCall node hallow]
  refine .inr ⟨hleft, .listed es (answeredCall a node b' asked (.ok id)), ?_, .inl ⟨id, rfl, ?_⟩⟩
  · rw [attempts_listed hes he hlength (.inl ⟨id, hcall⟩), List.reverse_reverse, List.flatMap_map]
    rfl
  · rw [hstops.result_eq_ok_iff, attemptAt_listed hes he le_rfl, Surroundings.listed_length]
    simp [Config.publishLoop, hcall, Outcome.toExcept]

/-- The wait runs out. -/
theorem publishing_of_waiting (hes : ∀ x ∈ es, x.Retried job.message b)
    (he : e.Retried job.message b) (hlength : es.length + 1 < (cfg node).publishAttempts) :
    Publishing (cfg node) job b (.publishing job ⟨es.length + 2, wait⟩)
      (Surroundings.steps job.message b (es ++ [e])).reverse := by
  have hall : ∀ x ∈ es ++ [e], x.Retried job.message b := by
    intro x hx
    rcases List.mem_append.mp hx with hx | hx
    · exact hes x hx
    · exact List.mem_singleton.mp hx ▸ he
  have hnext := @Publishing.publishing (cfg node) job b (es ++ [e]) wait hall
    (by simpa using hlength)
  rwa [List.length_append, List.length_singleton] at hnext

/-- The wait is cancelled. -/
theorem followsLoop_cancel {ctxErr : CtxError} (hes : ∀ x ∈ es, x.Retried job.message b)
    (he : e.Retried job.message b) (hlength : es.length + 1 < (cfg node).publishAttempts)
    (h : a'.procs.get p = some ⟨node, .recording job ctxErr.text⟩) :
    FollowsLoop (cfg node) job b p node l a'
      (Surroundings.steps job.message b (es ++ [e])).reverse := by
  obtain ⟨err, herr⟩ := he.fails
  let e' : Surroundings := { e with cancelled := some ctxErr }
  have hlog : (Surroundings.steps job.message b (es ++ [e])).reverse =
      (Surroundings.steps job.message b (es ++ [e'])).reverse := by
    rw [Surroundings.reverse_steps_append, Surroundings.reverse_steps_append]
    rfl
  rw [hlog]
  refine followsLoop_of_recording (e := e') hes he.fixed herr (by omega) (.inr (by simp [e'])) ?_
  rw [if_neg (by omega)]
  exact h

/-- A step of another process takes none of the steps of this one. -/
theorem App.busSteps_of_ne (h : l.steers ≠ some p) : a.busSteps p l = [] := by
  cases l with
  | send q =>
    have hne : q ≠ p := fun heq => h (congrArg some heq)
    simp only [App.busSteps]
    split
    · rw [if_pos hne]
    · rfl
  | ack q outcome =>
    have hne : q ≠ p := fun heq => h (congrArg some heq)
    simp [App.busSteps, hne]
  | _ => rfl

/-- A step of a process in `publishWithRetry`. -/
theorem Publishing.own_step {pc : Pc} {log : List BusStep}
    (h : Publishing (cfg node) job b pc log) (hproc : a.procs.get p = some ⟨node, pc⟩)
    (hsteers : l.steers = some p) (hcrash : l ≠ .crash p) (hmoves : a.Moves cfg l a') :
    FollowsLoop (cfg node) job b p node l a' (a.busSteps p l ++ log) := by
  cases hmoves with
  | tick hclock => cases hsteers
  | exec hslot hsince hnow => cases hsteers
  | spawn hnone hproceeds =>
    cases hsteers
    cases hproc.symm.trans hnone
  | resume hproc' hslot hresume hproceeds =>
    cases hsteers
    cases hproc.symm.trans hproc'
    cases h <;> cases hresume
  | sent hproc' hallow hacts =>
    cases hsteers
    cases hproc.symm.trans hproc'
    cases h with
    | @publishing es wait hes hlength =>
      cases hacts
      have hsteps : a.busSteps p (.send p) = [.publish job.message, .allow true] := by
        simp [App.busSteps, hproc, hallow]
      rw [hsteps]
      exact .inl ⟨.sent job ⟨es.length + 1, wait⟩, by simp, .sent hes hlength hallow⟩
  | unsent hproc' hallow hproceeds =>
    cases hsteers
    cases hproc.symm.trans hproc'
    cases h with
    | publishing hes hlength => exact followsLoop_unsent hes hlength hproc hallow hproceeds
  | acked hproc' hproceeds =>
    cases hsteers
    cases hproc.symm.trans hproc'
    cases h with
    | sent hes hlength hallow => exact followsLoop_acked hes hlength hallow hproceeds.mark
  | rejected hproc' hproceeds =>
    cases hsteers
    cases hproc.symm.trans hproc'
    cases h with
    | sent hes hlength hallow =>
      rw [log_answeredCall node hallow]
      exact followsLoop_of_failed hes ⟨_, fun _ => rfl⟩ (by rw [call_answeredCall hallow]) rfl
        hlength hproceeds
  | timer hproc' hdue hacts =>
    cases hsteers
    cases hproc.symm.trans hproc'
    cases h with
    | @waiting es e wait due hes he hlength =>
      cases hacts
      exact .inl ⟨.publishing job ⟨es.length + 2, wait⟩, by simp,
        publishing_of_waiting hes he hlength⟩
  | cancel hproc' hproceeds =>
    cases hsteers
    cases hproc.symm.trans hproc'
    cases h with
    | waiting hes he hlength => exact followsLoop_cancel hes he hlength hproceeds.recordFailure
  | crash hstore =>
    cases hsteers
    exact absurd rfl hcrash

/-- One step of the application, seen from a process in `publishWithRetry`. -/
theorem Publishing.step {pc : Pc} {log : List BusStep} (h : Publishing (cfg node) job b pc log)
    (hproc : a.procs.get p = some ⟨node, pc⟩) (hcrash : l ≠ .crash p) (hmoves : a.Moves cfg l a') :
    FollowsLoop (cfg node) job b p node l a' (a.busSteps p l ++ log) := by
  by_cases hsteers : l.steers = some p
  · exact h.own_step hproc hsteers hcrash hmoves
  · rw [App.busSteps_of_ne hsteers]
    exact .inl ⟨pc, (hmoves.procs_of_ne hsteers).trans hproc, h⟩

/-- Whatever the other processes do, a process that makes a first attempt to publish an event and
does not crash leaves `publishWithRetry` with the calls and the result of a run of the loop. -/
theorem publication_runs_loop {c : App} {log : List BusStep}
    (hstart : a.procs.get p = some ⟨node, .publishing job (cfg node).firstAttempt⟩)
    (hrun : Transition.Run (Transition.logged (App.step cfg) (App.busSteps p))
      (fun x l => x.1.goesOn p l) (a, []) (c, log))
    (hlast : c.goesOn p l) (hstep : c.step cfg l = some a') (hleft : a'.publishes p = false) :
    Publishes (cfg node) job b p node l a' (c.busSteps p l ++ log) := by
  have hinvariant : c.publishes p = true → ∃ pc, c.procs.get p = some ⟨node, pc⟩ ∧
      Publishing (cfg node) job b pc log := by
    refine hrun.logged_invariant (I := fun (x : App) log => x.publishes p = true →
      ∃ pc, x.procs.get p = some ⟨node, pc⟩ ∧ Publishing (cfg node) job b pc log) ?_ ?_
    · intro _
      have hpos : 0 < (cfg node).publishAttempts := (publishAttempts_eq (cfg node)).2
      exact ⟨_, hstart, @Publishing.publishing (cfg node) job b [] _ (by simp) hpos⟩
    · rintro x log l y hx ⟨hpublishes, hcrash⟩ hxy hy
      obtain ⟨pc, hproc, hpc⟩ := hx hpublishes
      rcases hpc.step hproc hcrash (App.step_moves hxy) with hstays | ⟨hleaves, -⟩
      · exact hstays
      · rw [hy] at hleaves
        cases hleaves
  obtain ⟨pc, hproc, hpc⟩ := hinvariant hlast.1
  rcases hpc.step hproc hlast.2 (App.step_moves hstep) with ⟨pc', hproc', hpc'⟩ | ⟨-, hpublishes⟩
  · simp [App.publishes, hproc', hpc'.publishes] at hleft
  · exact hpublishes

end Refinement

end ControlPlane

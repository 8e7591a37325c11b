import ControlPlane.Retry
import ControlPlane.Config.Durations
import Mathlib.Data.List.Nodup

/-!
# Starting and stopping modules

`Run` starts the modules in order, each with its own retries, serves requests until the context
is done or the server ends, and then stops the modules in reverse order. It returns early when a
module does not start and when the server fails, and then it stops no module: the modules that
did start are only stopped on the way through the shutdown.
-/

namespace ControlPlane

open Retry

/-- A module, as `Run` meets it: what `Start` returns at each attempt, the error of the context
if it is done before the wait after an attempt is over, and what `Stop` returns. -/
structure Module where
  name : String
  start : ℕ → Option String
  cancelled : ℕ → Option CtxError
  stop : Option String

/-- What `ListenAndServe` returns: `http.ErrServerClosed` or another error. -/
inductive ServeError
  | serverClosed
  | failed (err : String)
  deriving DecidableEq

/-- What `Run` hears first while it serves. -/
inductive Served
  | done
  | returned (err : ServeError)
  deriving DecidableEq

/-- A call of `Start` or `Stop` on the module at a position, with its error. -/
inductive ModuleCall
  | start (i : ℕ) (err : Option String)
  | stop (i : ℕ) (err : Option String)
  deriving DecidableEq

/-- The loop of `startModuleWithRetry`. The wait doubles up to ten seconds. -/
def Module.startLoop (m : Module) : Loop Unit (Option String) String Unit Duration where
  attempt n _ := (m.start n, ())
  result err := err.elim (.ok ()) .error
  cancelled n := (m.cancelled n).map CtxError.text
  next wait := if wait < 10 * second then min (wait * 2) (10 * second) else wait

/-- The positions of the modules whose `Start` returned nil, in that order. -/
def started (calls : List ModuleCall) : List ℕ :=
  calls.filterMap fun
    | .start i none => some i
    | _ => none

/-- The positions of the modules whose `Stop` was called, in that order. -/
def stopped (calls : List ModuleCall) : List ℕ :=
  calls.filterMap fun
    | .stop i _ => some i
    | _ => none

namespace RunSettings

variable (c : RunSettings)

/-- The number of attempts of `startModuleWithRetry`. -/
def startAttempts : ℕ := (max 1 c.moduleStartRetryMax).toNat

def startModuleWithRetry (m : Module) : Trace Unit (Option String) String Unit Duration :=
  m.startLoop.run (c.startAttempts - 1) 0 c.startWait.duration ()

/-- The first loop of `Run`, from position `i` on: the calls that it makes, and the error with
which it returns. -/
def startModules : ℕ → List Module → List ModuleCall × Option String
  | _, [] => ([], none)
  | i, m :: ms =>
      let t := c.startModuleWithRetry m
      let calls := t.attempts.map (.start i)
      match t.result with
      | .error err => (calls, some ("start " ++ m.name ++ ": " ++ err))
      | .ok _ => (calls ++ (startModules (i + 1) ms).1, (startModules (i + 1) ms).2)

/-- The last loop of `Run`. Errors of `Stop` are only logged. -/
def stopModules (ms : List Module) : List ModuleCall :=
  (ms.zipIdx.map fun (m, i) => .stop i m.stop).reverse

/-- `Run`: the calls that it makes to the modules, and the error that it returns. -/
def run (ms : List Module) (served : Served) : List ModuleCall × Option String :=
  match c.startModules 0 ms with
  | (calls, some err) => (calls, some err)
  | (calls, none) =>
      match served with
      | .returned (.failed err) => (calls, some err)
      | .returned .serverClosed | .done => (calls ++ stopModules ms, none)

/-- One of the attempts to start the module succeeds, and no wait before it is cancelled. -/
def ComesUp (m : Module) : Prop :=
  ∃ n < c.startAttempts, m.start n = none ∧ ∀ i < n, m.start i ≠ none ∧ m.cancelled i = none

end RunSettings

/-- Every module that was started is stopped exactly once, no other module is, and the modules
are stopped in the reverse of the order in which they were started. -/
structure StartedStopped (calls : List ModuleCall) : Prop where
  once : ∀ i, (stopped calls).count i = if i ∈ started calls then 1 else 0
  order : stopped calls = (started calls).reverse

section Starting

variable {c : RunSettings} {m : Module} {ms : List Module}

@[simp] theorem started_append (calls calls' : List ModuleCall) :
    started (calls ++ calls') = started calls ++ started calls' := List.filterMap_append

@[simp] theorem stopped_append (calls calls' : List ModuleCall) :
    stopped (calls ++ calls') = stopped calls ++ stopped calls' := List.filterMap_append

@[simp] theorem stopped_map_start (i : ℕ) (errs : List (Option String)) :
    stopped (errs.map (.start i)) = [] := by
  simp [stopped, List.filterMap_map]

theorem succeeds_startLoop {n : ℕ} : m.startLoop.Succeeds () n ↔ m.start n = none := by
  have hattempt : m.startLoop.attemptAt () n = m.start n := rfl
  unfold Loop.Succeeds
  rw [hattempt]
  cases m.start n <;> simp [Module.startLoop]

theorem cancelled_startLoop {n : ℕ} : m.startLoop.cancelled n = none ↔ m.cancelled n = none := by
  simp [Module.startLoop]

variable (c m) in
/-- The attempt after which the retries stop decides whether the module was started. -/
theorem exists_stops_startLoop : ∃ k,
    m.startLoop.Stops () 0 (c.startAttempts - 1) k (c.startModuleWithRetry m) ∧
      ((c.startModuleWithRetry m).result = .ok () ↔ m.start k = none) := by
  obtain ⟨k, hk⟩ := m.startLoop.exists_stops () (c.startAttempts - 1) c.startWait.duration
  have hstops : m.startLoop.Stops () 0 (c.startAttempts - 1) k (c.startModuleWithRetry m) := hk
  refine ⟨k, hstops, ?_⟩
  rw [hstops.result_eq_ok_iff, ← succeeds_startLoop]
  exact ⟨fun h => ⟨(), h⟩, fun ⟨_, h⟩ => h⟩

/-- The retries end with a started module exactly if it comes up. -/
theorem startModuleWithRetry_ok_iff :
    (c.startModuleWithRetry m).result = .ok () ↔ c.ComesUp m := by
  obtain ⟨k, hk, hresult⟩ := exists_stops_startLoop c m
  have hpos : 1 ≤ c.startAttempts := by
    unfold RunSettings.startAttempts
    omega
  rw [hresult]
  constructor
  · intro hstart
    have hle := hk.le_last
    refine ⟨k, by omega, hstart, fun i hi => ?_⟩
    obtain ⟨hfails, hgoes⟩ := hk.retried i (Nat.zero_le i) hi
    exact ⟨fun h => hfails (succeeds_startLoop.mpr h), cancelled_startLoop.mp hgoes⟩
  · rintro ⟨n, hn, hstart, hbefore⟩
    have heq : k = n := by
      refine hk.eq_of_reason (by omega) (fun i hi => ?_) (.inl (succeeds_startLoop.mpr hstart))
      obtain ⟨hfails, hgoes⟩ := hbefore i hi
      exact ⟨fun h => hfails (succeeds_startLoop.mp h), cancelled_startLoop.mpr hgoes⟩
    rw [heq, hstart]

/-- The calls of `Start` on one module start it once if it comes up. -/
theorem started_startModuleWithRetry (i : ℕ) :
    (c.ComesUp m → started ((c.startModuleWithRetry m).attempts.map (.start i)) = [i]) ∧
      (¬c.ComesUp m → started ((c.startModuleWithRetry m).attempts.map (.start i)) = []) := by
  obtain ⟨k, hk, hresult⟩ := exists_stops_startLoop c m
  have hattempts : (c.startModuleWithRetry m).attempts =
      (List.range k).map m.start ++ [m.start k] := hk.attempts_eq
  have hfront : started (((List.range k).map m.start).map (.start i)) = [] := by
    rw [started, List.filterMap_eq_nil_iff]
    intro call hcall
    rw [List.map_map] at hcall
    obtain ⟨n, hn, rfl⟩ := List.mem_map.mp hcall
    have hfails := (hk.retried n (Nat.zero_le n) (List.mem_range.mp hn)).1
    rw [succeeds_startLoop] at hfails
    cases hstart : m.start n with
    | none => exact absurd hstart hfails
    | some err => simp [hstart]
  rw [← startModuleWithRetry_ok_iff, hresult, hattempts, List.map_append, started_append, hfront,
    List.nil_append]
  cases hlast : m.start k with
  | none => simp [started]
  | some err => simp [started]

@[simp] theorem stopped_startModules (i : ℕ) (ms : List Module) :
    stopped (c.startModules i ms).1 = [] := by
  induction ms generalizing i with
  | nil => rfl
  | cons m ms ih =>
    simp only [RunSettings.startModules]
    split
    · exact stopped_map_start i _
    · rw [stopped_append, stopped_map_start, ih, List.append_nil]

/-- If every module comes up, all of them are started in order. -/
theorem startModules_of_all (i : ℕ) (h : ∀ m ∈ ms, c.ComesUp m) :
    (c.startModules i ms).2 = none ∧
      started (c.startModules i ms).1 = List.range' i ms.length := by
  induction ms generalizing i with
  | nil => exact ⟨rfl, rfl⟩
  | cons m ms ih =>
    have hup : c.ComesUp m := h m List.mem_cons_self
    obtain ⟨hrest, hstarted⟩ := ih (i + 1) fun m' hm' => h m' (List.mem_cons_of_mem m hm')
    have hok := startModuleWithRetry_ok_iff.mpr hup
    simp only [RunSettings.startModules, hok]
    refine ⟨hrest, ?_⟩
    rw [started_append, (started_startModuleWithRetry i).1 hup, hstarted, List.length_cons,
      List.range'_succ, List.singleton_append]

/-- A module that does not come up ends the first loop of `Run`. -/
theorem startModules_of_not (i : ℕ) (h : ∃ m ∈ ms, ¬c.ComesUp m) :
    (c.startModules i ms).2 ≠ none := by
  induction ms generalizing i with
  | nil => simp at h
  | cons m ms ih =>
    simp only [RunSettings.startModules]
    split
    · simp
    · rename_i hok
      have hup : c.ComesUp m := startModuleWithRetry_ok_iff.mp hok
      refine ih (i + 1) ?_
      obtain ⟨m', hm', hdown⟩ := h
      rcases List.mem_cons.mp hm' with rfl | hm'
      · exact absurd hup hdown
      · exact ⟨m', hm', hdown⟩

/-- A module is started exactly if the first one comes up. -/
theorem started_startModules_eq_nil (i : ℕ) :
    started (c.startModules i (m :: ms)).1 = [] ↔ ¬c.ComesUp m := by
  have hm := @started_startModuleWithRetry c m i
  by_cases hup : c.ComesUp m
  · have hok := startModuleWithRetry_ok_iff.mpr hup
    simp [RunSettings.startModules, hok, hm.1 hup, hup]
  · simp only [RunSettings.startModules]
    split
    · simp [hm.2 hup, hup]
    · rename_i hok
      exact absurd (startModuleWithRetry_ok_iff.mp hok) hup

@[simp] theorem started_stopModules (ms : List Module) :
    started (RunSettings.stopModules ms) = [] := by
  simp [started, RunSettings.stopModules, List.filterMap_map]

@[simp] theorem stopped_stopModules (ms : List Module) :
    stopped (RunSettings.stopModules ms) = (List.range' 0 ms.length).reverse := by
  have hpositions : stopped (ms.zipIdx.map fun (m, i) => .stop i m.stop) = ms.zipIdx.map Prod.snd := by
    rw [stopped, List.filterMap_map, ← List.filterMap_eq_map]
    rfl
  rw [RunSettings.stopModules, stopped, List.filterMap_reverse, ← stopped, hpositions,
    List.zipIdx_map_snd]

end Starting

/-- Stopping what was started, once each and in reverse order, given that no position was started
twice. -/
theorem StartedStopped.of_nodup {calls : List ModuleCall} (hnodup : (started calls).Nodup)
    (horder : stopped calls = (started calls).reverse) : StartedStopped calls := by
  refine ⟨fun i => ?_, horder⟩
  rw [horder, List.count_reverse]
  split_ifs with hmem
  · exact List.count_eq_one_of_mem hnodup hmem
  · exact List.count_eq_zero_of_not_mem hmem

/-- Without a call of `Stop` nothing may have been started. -/
theorem started_eq_nil_of_stopped {calls : List ModuleCall} (h : StartedStopped calls)
    (hstopped : stopped calls = []) : started calls = [] := by
  have horder := h.order
  rw [hstopped] at horder
  exact List.reverse_eq_nil_iff.mp horder.symm

namespace RunSettings

variable {c : RunSettings} {ms : List Module} {served : Served}

/-- `Run` returns early when a module does not start and when the server fails. -/
theorem run_of_early
    (h : (c.startModules 0 ms).2 ≠ none ∨ ∃ err, served = .returned (.failed err)) :
    (c.run ms served).1 = (c.startModules 0 ms).1 := by
  unfold run
  split
  · rename_i hstart
    rw [hstart]
  · rename_i hstart
    rw [hstart] at h ⊢
    obtain ⟨err, rfl⟩ := h.resolve_left fun hne => hne rfl
    rfl

/-- Otherwise it stops every module. -/
theorem run_of_shutdown (h : (c.startModules 0 ms).2 = none)
    (hserved : ∀ err, served ≠ .returned (.failed err)) :
    (c.run ms served).1 = (c.startModules 0 ms).1 ++ stopModules ms := by
  unfold run
  split
  · rename_i hstart
    rw [hstart] at h
    cases h
  · rename_i hstart
    rw [hstart]
    split
    · exact absurd rfl (hserved _)
    · rfl
    · rfl

/-- If a module was started and everything is stopped, `Run` has come to its last loop. -/
theorem shutdown_of_startedStopped {m : Module} (hup : c.ComesUp m)
    (h : StartedStopped (c.run (m :: ms) served).1) :
    (c.startModules 0 (m :: ms)).2 = none ∧ ∀ err, served ≠ .returned (.failed err) := by
  by_contra hearly
  have hreason : (c.startModules 0 (m :: ms)).2 ≠ none ∨
      ∃ err, served = .returned (.failed err) := by
    by_cases hstart : (c.startModules 0 (m :: ms)).2 = none
    · simpa [hstart] using hearly
    · exact .inl hstart
  rw [run_of_early hreason] at h
  have hnone := started_eq_nil_of_stopped h (stopped_startModules 0 (m :: ms))
  exact (started_startModules_eq_nil 0).mp hnone hup

theorem startedStopped_nil : StartedStopped (c.run [] served).1 := by
  have hcalls : (c.run [] served).1 = [] := by
    cases served with
    | done => rfl
    | returned err => cases err <;> rfl
  rw [hcalls]
  exact .of_nodup List.nodup_nil rfl

/-- `Run` returns before anything is started. -/
theorem startedStopped_of_first {m : Module} (hdown : ¬c.ComesUp m) :
    StartedStopped (c.run (m :: ms) served).1 := by
  have hnone : started (c.startModules 0 (m :: ms)).1 = [] :=
    (started_startModules_eq_nil 0).mpr hdown
  rw [run_of_early (.inl (startModules_of_not 0 ⟨m, List.mem_cons_self, hdown⟩))]
  refine .of_nodup ?_ ?_
  · rw [hnone]
    exact List.nodup_nil
  · rw [hnone, stopped_startModules, List.reverse_nil]

/-- `Run` comes to its last loop with every module started. -/
theorem startedStopped_of_all (hup : ∀ m ∈ ms, c.ComesUp m)
    (hserved : ∀ err, served ≠ .returned (.failed err)) : StartedStopped (c.run ms served).1 := by
  obtain ⟨hstart, hstarted⟩ := startModules_of_all 0 hup
  rw [run_of_shutdown hstart hserved]
  refine .of_nodup ?_ ?_
  · rw [started_append, hstarted, started_stopModules, List.append_nil]
    exact List.nodup_range'
  · rw [stopped_append, started_append, stopped_startModules, stopped_stopModules, hstarted,
      started_stopModules, List.append_nil, List.nil_append]

/-- When `Run` returns, every started module has been stopped exactly if there was no module to
start, the first one did not come up, or all of them came up and the server did not fail. -/
theorem startedStopped_iff (c : RunSettings) (ms : List Module) (served : Served) :
    StartedStopped (c.run ms served).1 ↔
      ms = [] ∨ (∃ m ∈ ms.head?, ¬c.ComesUp m) ∨
        (∀ m ∈ ms, c.ComesUp m) ∧ ∀ err, served ≠ .returned (.failed err) := by
  constructor
  · intro h
    cases ms with
    | nil => exact .inl rfl
    | cons m ms =>
      by_cases hup : c.ComesUp m
      · obtain ⟨hstart, hserved⟩ := shutdown_of_startedStopped hup h
        refine .inr (.inr ⟨fun m' hm' => ?_, hserved⟩)
        by_contra hdown
        exact startModules_of_not 0 ⟨m', hm', hdown⟩ hstart
      · exact .inr (.inl ⟨m, rfl, hup⟩)
  · rintro (rfl | ⟨m, hm, hdown⟩ | ⟨hup, hserved⟩)
    · exact startedStopped_nil
    · cases ms with
      | nil => cases hm
      | cons first ms =>
        cases hm
        exact startedStopped_of_first hdown
    · exact startedStopped_of_all hup hserved

/-- The modules of the program, while the database cannot be reached. -/
def halfStarted : List Module :=
  [⟨"natsbus", fun _ => none, fun _ => none, none⟩,
    ⟨"etcdcoord", fun _ => none, fun _ => none, none⟩,
    ⟨"cassstore", fun _ => some "no hosts available", fun _ => none, none⟩]

/-- `Run` returns the error of the store and leaves the bus and the coordinator running. -/
theorem half_started_not_stopped :
    let c := fromEnv ⟨fun _ => "", none⟩
    c.run halfStarted .done =
        ([.start 0 none, .start 1 none, .start 2 (some "no hosts available"),
          .start 2 (some "no hosts available"), .start 2 (some "no hosts available"),
          .start 2 (some "no hosts available")], some "start cassstore: no hosts available") ∧
      ¬StartedStopped (c.run halfStarted .done).1 := by
  intro c
  have hrun : c.run halfStarted .done =
      ([.start 0 none, .start 1 none, .start 2 (some "no hosts available"),
        .start 2 (some "no hosts available"), .start 2 (some "no hosts available"),
        .start 2 (some "no hosts available")], some "start cassstore: no hosts available") := by
    decide +kernel
  refine ⟨hrun, fun h => ?_⟩
  have horder := h.order
  rw [hrun] at horder
  exact absurd horder (by decide)

end RunSettings

end ControlPlane

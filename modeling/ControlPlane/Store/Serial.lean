import ControlPlane.Store.System

/-!
# Operations executed one after another

The sequential use of the store: every operation runs to its end before the next
one starts, and the driver acknowledges every statement. Each such execution is a
run of the interleaved system with a single client, so whatever holds in all runs
of the system holds between two sequential operations.
-/

namespace ControlPlane

open Transition

/-- The database between two operations, with the time of the last statement and
the identifiers drawn so far. -/
structure Serial where
  db : Store
  clock : Time
  generated : List UUID

/-- One operation from its start to its end, with the environment of each of its
statements. -/
structure Execution where
  op : Op
  start : Time
  envs : List Env
  deriving DecidableEq

/-- The readings of the clock do not go back. -/
def timely : Time → List Env → Bool
  | _, [] => true
  | t, env :: envs => decide (t ≤ env.now) && timely env.now envs

/-- The last reading of the clock. -/
def lastReading : Time → List Env → Time
  | t, [] => t
  | _, env :: envs => lastReading env.now envs

/-- The empty database before the first operation. -/
def Serial.init (clock : Time) : Serial := ⟨.empty, clock, []⟩

/-- Execute one operation from its start to its end. -/
def Serial.step (s : Serial) (x : Execution) : Option Serial :=
  if s.clock ≤ x.start ∧ timely x.start x.envs = true ∧ ∀ id ∈ x.op.draws, id ∉ s.generated then
    ((x.op.begin x.start).complete x.envs s.db).map fun out =>
      ⟨out.1, lastReading x.start x.envs, x.op.draws ++ s.generated⟩
  else none

/-- The states that complete executions reach from an empty database. -/
def Serial.Reachable (s : Serial) : Prop := ∃ clock, Run Serial.step anyStep (Serial.init clock) s

theorem le_lastReading {t : Time} {envs : List Env} (h : timely t envs = true) :
    t ≤ lastReading t envs := by
  induction envs generalizing t with
  | nil => exact le_refl t
  | cons env envs ih =>
    simp only [timely, Bool.and_eq_true, decide_eq_true_eq] at h
    exact h.1.trans (ih h.2)

/-- The rest of an operation, executed alone. -/
def Next.complete (envs : List Env) (db : Store) : Next → Option (Store × Result)
  | .done r => some (db, r)
  | .call c => c.complete envs db

theorem Call.complete_cons (c : Call) (env : Env) (envs : List Env) (db : Store) :
    c.complete (env :: envs) db = (c.exec env db).2.complete envs (c.exec env db).1 := by
  rw [Call.complete]
  rcases c.exec env db with ⟨db', next⟩
  cases next <;> rfl

/-- An operation that returned does not look at further environments. -/
theorem Call.complete_append {c : Call} {envs : List Env} {db db' : Store} {r : Result}
    (h : c.complete envs db = some (db', r)) (more : List Env) :
    c.complete (envs ++ more) db = some (db', r) := by
  induction envs generalizing c db with
  | nil => cases h
  | cons env envs ih =>
    rw [Call.complete_cons] at h
    rw [List.cons_append, Call.complete_cons]
    cases hnext : (c.exec env db).2 with
    | done r' => rwa [hnext] at h
    | call d =>
      rw [hnext] at h
      exact ih h

/-- A relation between the database and the call that every statement passes on to the
next call, or turns into a property of the result, gives the property of the result of
the complete operation. -/
theorem Call.complete_invariant {I : Store → Call → Prop} {P : Store → Result → Prop}
    (hcall : ∀ db c env d, I db c → (c.exec env db).2 = .call d → I (c.exec env db).1 d)
    (hdone : ∀ db c env r, I db c → (c.exec env db).2 = .done r → P (c.exec env db).1 r)
    {envs : List Env} {db db' : Store} {c : Call} {r : Result} (h : I db c)
    (hcomplete : c.complete envs db = some (db', r)) : P db' r := by
  induction envs generalizing db c with
  | nil => cases hcomplete
  | cons env envs ih =>
    simp only [Call.complete] at hcomplete
    have hexec := hcall db c env
    have hresult := hdone db c env
    rcases hout : c.exec env db with ⟨db₁, next⟩
    rw [hout] at hcomplete hexec hresult
    cases next with
    | done r' =>
      obtain ⟨rfl, rfl⟩ : db₁ = db' ∧ r' = r := by simpa using hcomplete
      exact hresult r' h rfl
    | call d => exact ih (hexec d h rfl) hcomplete

/-- The interleaved system is between two operations of a sequential use. -/
structure Serial.Simulates (s : Serial) (t : System) : Prop where
  db : t.db = s.db
  clock : t.clock = s.clock
  generated : t.generated = s.generated
  idle : t.Quiescent

/-- A client of the system that runs alone can complete its call. -/
theorem System.run_complete {c : Call} {envs : List Env} {s : System} {p : ℕ} {since : Time}
    {db : Store} {r : Result} (hslot : s.slots.get p = some (.running c since))
    (hsince : since ≤ s.clock) (halone : ∀ q, q ≠ p → s.callOf q = none)
    (htimely : timely s.clock envs = true) (hdone : c.complete envs s.db = some (db, r)) :
    ∃ t, Run System.step anyStep s t ∧
      Serial.Simulates ⟨db, lastReading s.clock envs, s.generated⟩ t := by
  induction envs generalizing s c since with
  | nil => cases hdone
  | cons env envs ih =>
    simp only [timely, Bool.and_eq_true, decide_eq_true_eq] at htimely
    obtain ⟨hnow, htimely⟩ := htimely
    have htick : s.step (.tick env.now) = some { s with clock := env.now } := if_pos hnow
    have hexec : System.step { s with clock := env.now } (.exec p .ok env) =
        some (System.perform { s with clock := env.now } p c .ok env) := by
      simp [System.step, hslot, hsince.trans hnow]
    have hrun : Run System.step anyStep s
        (System.perform { s with clock := env.now } p c .ok env) :=
      ((Run.refl s).snoc trivial htick).snoc trivial hexec
    have hothers : ∀ q, q ≠ p →
        (System.perform { s with clock := env.now } p c .ok env).callOf q = none := by
      intro q hq
      rw [System.callOf_perform, if_neg hq]
      exact halone q hq
    have hdb : (System.perform { s with clock := env.now } p c .ok env).db = (c.exec env s.db).1 := rfl
    have hnext : c.next .ok env s.db = (c.exec env s.db).2 := rfl
    simp only [Call.complete] at hdone
    rcases hout : c.exec env s.db with ⟨db', next⟩
    rw [hout] at hdone hdb hnext
    cases next with
    | done r' =>
      obtain ⟨rfl, rfl⟩ : db' = db ∧ r' = r := by simpa using hdone
      have hlast : System.step (System.perform { s with clock := env.now } p c .ok env)
          (.tick (lastReading env.now envs)) = some { System.perform { s with clock := env.now }
            p c .ok env with clock := lastReading env.now envs } :=
        if_pos (le_lastReading htimely)
      refine ⟨_, hrun.snoc trivial hlast, ⟨hdb, rfl, rfl, ?_⟩⟩
      intro q
      rw [System.callOf_tick]
      by_cases hq : q = p
      · simp [hq, hnext, Next.call?]
      · exact hothers q hq
    | call d =>
      have hslot' : (System.perform { s with clock := env.now } p c .ok env).slots.get p =
          some (.running d env.now) := by
        simp [System.perform, hnext, Next.slot]
      obtain ⟨t, hrun', ht⟩ := ih hslot' (le_refl _) hothers htimely (by rw [hdb]; exact hdone)
      exact ⟨t, hrun.trans hrun', ht⟩

/-- What one complete execution does. -/
theorem Serial.step_cases {s s' : Serial} {x : Execution} (h : s.step x = some s') :
    (∀ id ∈ x.op.draws, id ∉ s.generated) ∧
      ∃ r, (x.op.begin x.start).complete x.envs s.db = some (s'.db, r) := by
  simp only [Serial.step] at h
  split_ifs at h with hguard
  obtain ⟨⟨db, r⟩, hdone, rfl⟩ := Option.map_eq_some_iff.mp h
  exact ⟨hguard.2.2, r, hdone⟩

/-- A complete execution is a run of the interleaved system. -/
theorem Serial.Simulates.step {s s' : Serial} {t : System} {x : Execution} (h : s.Simulates t)
    (hstep : s.step x = some s') :
    ∃ t', Run System.step anyStep t t' ∧ s'.Simulates t' := by
  simp only [Serial.step] at hstep
  split_ifs at hstep with hguard
  obtain ⟨hstart, htimely, hfresh⟩ := hguard
  obtain ⟨⟨db, r⟩, hdone, rfl⟩ := Option.map_eq_some_iff.mp hstep
  have htick : t.step (.tick x.start) = some { t with clock := x.start } :=
    if_pos (h.clock ▸ hstart)
  have hlaunch : System.step { t with clock := x.start } (.start 0 x.op) =
      some (System.launch { t with clock := x.start } 0 x.op) :=
    if_pos ⟨h.idle 0, h.generated ▸ hfresh⟩
  have hrun : Run System.step anyStep t (System.launch { t with clock := x.start } 0 x.op) :=
    ((Run.refl t).snoc trivial htick).snoc trivial hlaunch
  have hslot : (System.launch { t with clock := x.start } 0 x.op).slots.get 0 =
      some (.running (x.op.begin x.start) x.start) := by
    simp [System.launch]
  have halone : ∀ q, q ≠ 0 → (System.launch { t with clock := x.start } 0 x.op).callOf q = none := by
    intro q hq
    rw [System.callOf_launch, if_neg hq]
    exact h.idle q
  obtain ⟨t', hrun', ht'⟩ := System.run_complete hslot (le_refl _) halone htimely (h.db ▸ hdone)
  refine ⟨t', hrun.trans hrun', ⟨ht'.db, ht'.clock, ?_, ht'.idle⟩⟩
  rw [ht'.generated, System.launch, h.generated]

/-- Sequential use of the store is simulated by the interleaved system. -/
theorem Serial.Reachable.simulates {s : Serial} (h : s.Reachable) :
    ∃ t : System, t.Reachable anyStep ∧ s.Simulates t := by
  obtain ⟨clock, hrun⟩ := h
  have hinit : (Serial.init clock).Simulates (System.init clock) := ⟨rfl, rfl, rfl, fun _ => rfl⟩
  obtain ⟨t, hrun', ht⟩ := hrun.simulate (fun a x b a' ha _ hstep => ha.step hstep) hinit
  exact ⟨t, ⟨clock, hrun'⟩, ht⟩

/-- Sequential use of the store reaches only databases that the interleaved system
reaches with no call in flight. -/
theorem Serial.Reachable.system {s : Serial} (h : s.Reachable) :
    ∃ t : System, t.Reachable anyStep ∧ t.Quiescent ∧ t.db = s.db := by
  obtain ⟨t, ht, hsim⟩ := h.simulates
  exact ⟨t, ht, hsim.idle, hsim.db⟩

/-- One more complete execution leads to a reachable state. -/
theorem Serial.Reachable.next {s t : Serial} {x : Execution} (h : s.Reachable)
    (hstep : s.step x = some t) : t.Reachable := by
  obtain ⟨clock, hrun⟩ := h
  exact ⟨clock, hrun.snoc trivial hstep⟩

/-- A list of executions that leads to a state passing a test shows that such a
state is reachable. -/
theorem Serial.Reachable.of_play (clock : Time) (xs : List Execution) (test : Serial → Bool)
    (h : (play Serial.step (fun _ _ => true) (Serial.init clock) xs).any test = true) :
    ∃ s : Serial, s.Reachable ∧ test s = true := by
  obtain ⟨s, hrun, htest⟩ := Run.exists_of_play (fun _ _ _ => trivial) h
  exact ⟨s, ⟨clock, hrun⟩, htest⟩

end ControlPlane

import ControlPlane.Transition
import ControlPlane.Store.Calls

/-!
# Interleaved store operations

Any number of clients run store operations against one database. A step executes
one statement of one operation, so operations interleave between any two of their
statements. A statement can take effect and be acknowledged, take effect without
its acknowledgement arriving, or not take effect; the operation can also end
between two statements because its node crashes. The clock is shared and never
goes back; a statement is prepared with a reading taken after the operation's
previous statement and no later than its execution.
-/

namespace ControlPlane

open Transition

/-- How the driver's report of a statement relates to its effect. -/
inductive Report
  | ok
  | lost
  | refused
  deriving DecidableEq

theorem Report.eq_ok {report : Report} (hlost : report ≠ .lost) (hrefused : report ≠ .refused) :
    report = .ok := by
  cases report with
  | ok => rfl
  | lost => exact absurd rfl hlost
  | refused => exact absurd rfl hrefused

/-- The state of one client: an operation in progress, with the time of its last
statement, or the result of its last operation. -/
inductive Slot
  | running (call : Call) (since : Time)
  | returned (result : Result)
  deriving DecidableEq

/-- The database together with its clients. `generated`, `inserted` and `returns`
record history: the identifiers drawn so far, the events whose append batch took
effect, and what appends returned, each with the normalized event of the call. -/
structure System where
  db : Store
  clock : Time
  slots : Clustered ℕ Slot
  generated : List UUID
  inserted : List (EventRecord × UUID)
  returns : List (EventRecord × AppendResult)

/-- The steps of the system. -/
inductive Label
  | tick (now : Time)
  | start (p : ℕ) (op : Op)
  | exec (p : ℕ) (report : Report) (env : Env)
  | crash (p : ℕ)
  deriving DecidableEq

/-- The empty database without clients. -/
def System.init (clock : Time) : System := ⟨.empty, clock, .empty, [], [], []⟩

/-- The slot of a client after a statement. -/
def Next.slot (now : Time) : Next → Slot
  | .call c => .running c now
  | .done r => .returned r

/-- The effect of a call's statement under the driver's report. -/
def Call.effect (c : Call) (report : Report) (env : Env) (db : Store) : Store :=
  if report = .refused then db else (c.exec env db).1

/-- How a call goes on under the driver's report of its statement. -/
def Call.next (c : Call) (report : Report) (env : Env) (db : Store) : Next :=
  if report = .ok then (c.exec env db).2 else c.onError

/-- The normalized event of an append in progress. -/
def Call.event : Call → Option EventRecord
  | .appendKey ev _ | .appendLookup ev _ | .appendPublished ev _ | .appendIndex ev _
  | .appendBatch ev _ => some ev
  | _ => none

/-- The event that a call's statement inserts, with its identifier. -/
def Call.inserts (c : Call) (report : Report) : List (EventRecord × UUID) :=
  match c, report with
  | .appendBatch _ _, .refused => []
  | .appendBatch ev newID, _ => [(ev, newID)]
  | _, _ => []

/-- What an append reports when it returns without an error. -/
def Call.reports (c : Call) : Next → List (EventRecord × AppendResult)
  | .done (.appended res) => c.event.toList.map fun ev => (ev, res)
  | _ => []

/-- The state after client `p` executed the statement of its call. -/
def System.perform (s : System) (p : ℕ) (c : Call) (report : Report) (env : Env) : System :=
  { s with
    db := c.effect report env s.db
    slots := s.slots.put p ((c.next report env s.db).slot s.clock)
    inserted := c.inserts report ++ s.inserted
    returns := c.reports (c.next report env s.db) ++ s.returns }

/-- The state after client `p` started an operation. -/
def System.launch (s : System) (p : ℕ) (op : Op) : System :=
  { s with
    slots := s.slots.put p (.running (op.begin s.clock) s.clock)
    generated := op.draws ++ s.generated }

/-- The call that a client is executing. -/
def System.callOf (s : System) (p : ℕ) : Option Call :=
  match s.slots.get p with
  | some (.running c _) => some c
  | _ => none

/-- One step of the system. A client starts an operation when it is running none,
and `gocql.TimeUUID` never repeats an identifier. -/
def System.step (s : System) : Label → Option System
  | .tick now => if s.clock ≤ now then some { s with clock := now } else none
  | .start p op =>
      if s.callOf p = none ∧ ∀ id ∈ op.draws, id ∉ s.generated then some (s.launch p op) else none
  | .exec p report env =>
      match s.slots.get p with
      | some (.running c since) =>
          if since ≤ env.now ∧ env.now ≤ s.clock then some (s.perform p c report env) else none
      | _ => none
  | .crash p =>
      match s.slots.get p with
      | some (.running _ _) => some { s with slots := s.slots.erase p }
      | _ => none

/-- Everything that a step can do, with the guards under which it does it. -/
inductive System.Steps (s : System) : Label → System → Prop
  | tick {now : Time} : s.clock ≤ now → s.Steps (.tick now) { s with clock := now }
  | start {p : ℕ} {op : Op} : s.callOf p = none → (∀ id ∈ op.draws, id ∉ s.generated) →
      s.Steps (.start p op) (s.launch p op)
  | exec {p : ℕ} {report : Report} {env : Env} {c : Call} {since : Time} :
      s.slots.get p = some (.running c since) → since ≤ env.now → env.now ≤ s.clock →
      s.Steps (.exec p report env) (s.perform p c report env)
  | crash {p : ℕ} {c : Call} {since : Time} : s.slots.get p = some (.running c since) →
      s.Steps (.crash p) { s with slots := s.slots.erase p }

/-- Inversion of the step function. -/
theorem System.step_cases {s s' : System} {l : Label} (h : s.step l = some s') : s.Steps l s' := by
  cases l with
  | tick now =>
    simp only [System.step] at h
    split_ifs at h with hclock
    cases h
    exact .tick hclock
  | start p op =>
    simp only [System.step] at h
    split_ifs at h with hguard
    cases h
    exact .start hguard.1 hguard.2
  | exec p report env =>
    simp only [System.step] at h
    split at h
    · rename_i c since hslot
      split_ifs at h with hnow
      cases h
      exact .exec hslot hnow.1 hnow.2
    · cases h
  | crash p =>
    simp only [System.step] at h
    split at h
    · rename_i c since hslot
      cases h
      exact .crash hslot
    · cases h

/-- Whatever a step can do is a step. -/
theorem System.Steps.step_eq {s s' : System} {l : Label} (h : s.Steps l s') :
    s.step l = some s' := by
  cases h with
  | tick hclock => exact if_pos hclock
  | start hidle hfresh => exact if_pos ⟨hidle, hfresh⟩
  | exec hslot hsince hnow => simp only [System.step, hslot, hsince, hnow, and_self, if_true]
  | crash hslot => simp only [System.step, hslot]

/-- Inserted events stay inserted. -/
theorem System.Steps.inserted {s s' : System} {l : Label} (h : s.Steps l s') :
    s.inserted ⊆ s'.inserted := by
  cases h with
  | exec hslot hsince hnow => exact List.subset_append_right _ _
  | _ => exact List.Subset.refl _

/-- No client is executing an operation. -/
def System.Quiescent (s : System) : Prop := ∀ p, s.callOf p = none

/-- The client of the slot is not executing an operation. -/
def Slot.idle : Slot → Bool
  | .running _ _ => false
  | .returned _ => true

/-- The states that runs of the store reach from an empty database, all of whose
steps satisfy `ok`. -/
def System.Reachable (ok : System → Label → Prop) (s : System) : Prop :=
  ∃ clock, Run System.step ok (System.init clock) s

section Slots

variable {s : System} {p q : ℕ} {c d : Call} {report : Report} {env : Env} {op : Op}

/-- A client executes a call exactly when its slot is running it. -/
theorem System.callOf_eq_some : s.callOf p = some c ↔
    ∃ since, s.slots.get p = some (.running c since) := by
  unfold System.callOf
  split
  · rename_i d since hslot
    simp [hslot]
  · rename_i hslot
    constructor
    · intro h
      cases h
    · rintro ⟨since, h⟩
      exact absurd h (hslot c since)

theorem System.callOf_of_running {since : Time} (h : s.slots.get p = some (.running c since)) :
    s.callOf p = some c :=
  System.callOf_eq_some.mpr ⟨since, h⟩

@[simp] theorem System.callOf_tick {now : Time} :
    System.callOf { s with clock := now } q = s.callOf q := rfl

@[simp] theorem System.callOf_launch :
    (s.launch p op).callOf q = if q = p then some (op.begin s.clock) else s.callOf q := by
  unfold System.callOf System.launch
  by_cases h : q = p <;> simp [h]

@[simp] theorem System.callOf_crash :
    System.callOf { s with slots := s.slots.erase p } q = if q = p then none else s.callOf q := by
  unfold System.callOf
  by_cases h : q = p <;> simp [h]

/-- The call, if any, with which an operation goes on. -/
def Next.call? : Next → Option Call
  | .call c => some c
  | .done _ => none

@[simp] theorem System.callOf_perform : (s.perform p c report env).callOf q =
    if q = p then (c.next report env s.db).call? else s.callOf q := by
  unfold System.callOf System.perform
  by_cases h : q = p
  · cases hnext : c.next report env s.db <;> simp [h, Next.slot, Next.call?]
  · simp [h]

theorem System.callOf_perform_next (h : c.next report env s.db = .call d) :
    (s.perform p c report env).callOf p = some d := by
  rw [System.callOf_perform, if_pos rfl, h, Next.call?]

/-- The calls in progress after an operation started. -/
theorem System.callOf_launch_cases (h : (s.launch p op).callOf q = some c) :
    (q = p ∧ c = op.begin s.clock) ∨ (q ≠ p ∧ s.callOf q = some c) := by
  rw [System.callOf_launch] at h
  split_ifs at h with hq
  · exact Or.inl ⟨hq, (Option.some.inj h).symm⟩
  · exact Or.inr ⟨hq, h⟩

/-- A crash only ends calls. -/
theorem System.callOf_of_crash (h : System.callOf { s with slots := s.slots.erase p } q = some c) :
    q ≠ p ∧ s.callOf q = some c := by
  rw [System.callOf_crash] at h
  split_ifs at h with hq
  exact ⟨hq, h⟩

/-- The calls in progress after a statement: the acting client goes on to its next
statement, and every other client is where it was. -/
theorem System.callOf_perform_cases (h : (s.perform p c report env).callOf q = some d) :
    (q = p ∧ c.next report env s.db = .call d) ∨ (q ≠ p ∧ s.callOf q = some d) := by
  rw [System.callOf_perform] at h
  split_ifs at h with hq
  · cases hnext : c.next report env s.db with
    | call e =>
      rw [hnext] at h
      cases h
      exact Or.inl ⟨hq, rfl⟩
    | done r =>
      rw [hnext] at h
      cases h
  · exact Or.inr ⟨hq, h⟩

/-- The operations in progress after a statement, with the time of their last one. -/
theorem System.running_perform_cases {since : Time}
    (h : (s.perform p c report env).slots.get q = some (.running d since)) :
    (q = p ∧ c.next report env s.db = .call d ∧ since = s.clock) ∨
      (q ≠ p ∧ s.slots.get q = some (.running d since)) := by
  rcases Clustered.get_put_cases h with ⟨hq, hslot⟩ | hold
  · cases hnext : c.next report env s.db with
    | call e =>
      rw [hnext, Next.slot, Slot.running.injEq] at hslot
      exact Or.inl ⟨hq, by rw [hslot.1], hslot.2⟩
    | done r =>
      rw [hnext] at hslot
      cases hslot
  · exact Or.inr hold

/-- The results at hand after a statement. -/
theorem System.returned_perform_cases {r : Result}
    (h : (s.perform p c report env).slots.get q = some (.returned r)) :
    (q = p ∧ c.next report env s.db = .done r) ∨
      (q ≠ p ∧ s.slots.get q = some (.returned r)) := by
  rcases Clustered.get_put_cases h with ⟨hq, hslot⟩ | hold
  · cases hnext : c.next report env s.db with
    | call e =>
      rw [hnext] at hslot
      cases hslot
    | done r' =>
      rw [hnext, Next.slot, Slot.returned.injEq] at hslot
      exact Or.inl ⟨hq, by rw [hslot]⟩
  · exact Or.inr hold

/-- The results at hand after an operation started. -/
theorem System.returned_of_launch {r : Result}
    (h : (s.launch p op).slots.get q = some (.returned r)) :
    q ≠ p ∧ s.slots.get q = some (.returned r) := by
  rcases Clustered.get_put_cases h with ⟨-, hnew⟩ | hold
  · cases hnew
  · exact hold

/-- A duty that some call in progress has stays with a call when an operation starts. -/
theorem System.duty_launch {Q : Call → Prop} (hidle : s.callOf p = none)
    (h : ∃ q d, s.callOf q = some d ∧ Q d) : ∃ q d, (s.launch p op).callOf q = some d ∧ Q d := by
  obtain ⟨q, d, hd, hduty⟩ := h
  have hq : q ≠ p := by
    rintro rfl
    rw [hidle] at hd
    cases hd
  refine ⟨q, d, ?_, hduty⟩
  rwa [System.callOf_launch, if_neg hq]

/-- A duty that some call in progress has stays with a call during a statement, or the
acting call fulfils it. -/
theorem System.duty_perform {Q : Call → Prop} {P : Prop} (hcall : s.callOf p = some c)
    (h : ∃ q d, s.callOf q = some d ∧ Q d)
    (hself : Q c → P ∨ ∃ d, c.next report env s.db = .call d ∧ Q d) :
    P ∨ ∃ q d, (s.perform p c report env).callOf q = some d ∧ Q d := by
  obtain ⟨q, d, hd, hduty⟩ := h
  by_cases hq : q = p
  · rw [hq, hcall, Option.some.injEq] at hd
    rw [← hd] at hduty
    refine (hself hduty).imp_right ?_
    rintro ⟨e, he, hduty'⟩
    exact ⟨p, e, System.callOf_perform_next he, hduty'⟩
  · refine Or.inr ⟨q, d, ?_, hduty⟩
    rwa [System.callOf_perform, if_neg hq]

/-- A duty that some call in progress has stays with a call during a crash, or the crash
ends the call that has it. -/
theorem System.duty_crash {Q : Call → Prop} {P : Prop} (h : ∃ q d, s.callOf q = some d ∧ Q d)
    (hself : ∀ d, s.callOf p = some d → Q d → P) :
    P ∨ ∃ q d, System.callOf { s with slots := s.slots.erase p } q = some d ∧ Q d := by
  obtain ⟨q, d, hd, hduty⟩ := h
  by_cases hq : q = p
  · exact Or.inl (hself d (hq ▸ hd) hduty)
  · refine Or.inr ⟨q, d, ?_, hduty⟩
    rwa [System.callOf_crash, if_neg hq]

/-- A test of the call in progress in a slot. -/
def Slot.runs (f : Call → Bool) : Slot → Bool
  | .running c _ => f c
  | .returned _ => false

/-- The number of calls in progress that pass a test. -/
def System.inProgress (s : System) (f : Call → Bool) : ℕ := s.slots.count (Slot.runs f)

theorem System.any_runs (f : Call → Bool) :
    (s.slots.get p).any (Slot.runs f) = (s.callOf p).any f := by
  unfold System.callOf
  split
  · rename_i c since hslot
    simp [hslot, Slot.runs]
  · rename_i hslot
    cases hget : s.slots.get p with
    | none => rfl
    | some slot =>
      cases slot with
      | running c since => exact absurd hget (hslot c since)
      | returned r => rfl

theorem Next.runs_slot (f : Call → Bool) (next : Next) (now : Time) :
    (next.slot now).runs f = next.call?.any f := by
  cases next <;> rfl

/-- Starting an operation counts its first call. -/
theorem System.inProgress_launch (f : Call → Bool) (hidle : s.callOf p = none) :
    (s.launch p op).inProgress f = s.inProgress f + (f (op.begin s.clock)).toNat := by
  have hput := s.slots.count_put (Slot.runs f) p (.running (op.begin s.clock) s.clock)
  rw [System.any_runs, hidle] at hput
  exact hput

/-- A statement counts the next call of the acting client instead of the executed one. -/
theorem System.inProgress_perform (f : Call → Bool) (hcall : s.callOf p = some c)
    (report : Report) (env : Env) :
    (s.perform p c report env).inProgress f + (f c).toNat =
      s.inProgress f + ((c.next report env s.db).call?.any f).toNat := by
  have hput := s.slots.count_put (Slot.runs f) p ((c.next report env s.db).slot s.clock)
  rw [System.any_runs, hcall, Next.runs_slot] at hput
  exact hput

/-- A crash no longer counts the call that it ends. -/
theorem System.inProgress_crash (f : Call → Bool) (hcall : s.callOf p = some c) :
    System.inProgress { s with slots := s.slots.erase p } f + (f c).toNat = s.inProgress f := by
  have herase := s.slots.count_erase (Slot.runs f) p
  rw [System.any_runs, hcall] at herase
  exact herase

/-- No call in progress passes a test exactly when none is counted. -/
theorem System.inProgress_eq_zero {f : Call → Bool} :
    s.inProgress f = 0 ↔ ∀ p c, s.callOf p = some c → f c = false := by
  rw [System.inProgress, Clustered.count_eq_zero]
  constructor
  · intro h p c hc
    obtain ⟨since, hslot⟩ := System.callOf_eq_some.mp hc
    exact h p _ hslot
  · intro h p slot hslot
    cases slot with
    | running c since => exact h p c (System.callOf_of_running hslot)
    | returned r => rfl

end Slots

/-- The finitely many occupied slots decide whether the system is quiescent. -/
theorem System.quiescent_of_slots (s : System) (h : s.slots.rows.all (fun row => row.2.idle) = true) :
    s.Quiescent := by
  intro p
  unfold System.callOf
  split
  · rename_i c since hslot
    have hrow := List.all_eq_true.mp h (p, .running c since) (Clustered.mem_rows.mpr hslot)
    cases hrow
  · rfl

/-- A predicate that holds initially and is kept by every admitted step holds in
every reachable state. -/
theorem System.Reachable.invariant {ok : System → Label → Prop} {I : System → Prop} {s : System}
    (h : s.Reachable ok) (hinit : ∀ clock, I (System.init clock))
    (hstep : ∀ a l b, I a → ok a l → a.Steps l b → I b) : I s := by
  obtain ⟨clock, hrun⟩ := h
  exact hrun.invariant (hinit clock) fun a l b ha hok hab => hstep a l b ha hok (step_cases hab)

/-- A list of labels that leads to a state passing a test shows that such a state
is reachable. -/
theorem System.Reachable.of_play (ok : System → Label → Prop) (check : System → Label → Bool)
    (hcheck : ∀ s l, check s l = true → ok s l) (clock : Time) (ls : List Label)
    (test : System → Bool) (h : (play System.step check (System.init clock) ls).any test = true) :
    ∃ s : System, s.Reachable ok ∧ test s = true := by
  obtain ⟨s, hrun, htest⟩ := Run.exists_of_play hcheck h
  exact ⟨s, ⟨clock, hrun⟩, htest⟩

/-- Forgetting the side condition of a run. -/
theorem System.Reachable.any {ok : System → Label → Prop} {s : System} (h : s.Reachable ok) :
    s.Reachable anyStep := by
  obtain ⟨clock, hrun⟩ := h
  exact ⟨clock, hrun.any⟩

end ControlPlane

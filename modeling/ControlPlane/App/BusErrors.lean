import ControlPlane.App.Soundness
import ControlPlane.App.Publication
import ControlPlane.Store.RetryCounts

/-!
# Failures that the bus reported

A process records a failure of its event when `publishWithRetry` gives up. The failures
that are recorded, in the retry state, in a dead letter or by a call in progress, are
compared with the errors that `bus.Publish` returned for the event. A process whose
attempt the bus rejected owes the store one failure; what is recorded and what is owed
together never exceed the errors of the bus, as long as no first attempt is refused by
the open breaker.
-/

namespace ControlPlane

open Transition

/-- The occurrence is an error that `bus.Publish` returned for the event. -/
def Occurrence.rejects (id : UUID) : Occurrence → Bool
  | .acked msg (.error _) => decide (msg.messageID = id)
  | _ => false

/-- The number of errors that `bus.Publish` returned for the event. -/
def busErrors (id : UUID) (history : List Occurrence) : ℕ :=
  history.countP (Occurrence.rejects id)

/-- The process publishes the event, and an attempt of it failed. -/
def Pc.owes (id : UUID) : Pc → Bool
  | .publishing job attempt | .sent job attempt =>
      decide (job.event.id = id) && decide (1 < attempt.number)
  | .waiting job _ _ => decide (job.event.id = id)
  | _ => false

/-- The failures that processes and calls have yet to record for the event. -/
def App.owed (a : App) (id : UUID) : ℕ :=
  a.procs.count (fun proc => proc.pc.owes id) + a.store.inProgress (Call.counting id)

/-- The errors of the bus that no process and no call has yet to record. -/
def App.credit (a : App) (id : UUID) : ℤ := busErrors id a.history - a.owed id

/-- The step does not let the open bus breaker refuse the first attempt of a
`publishWithRetry`. -/
def admitsFirstAttempt (a : App) : AppLabel → Bool
  | .send p => (a.procs.get p).all fun proc =>
      match proc.pc with
      | .publishing _ attempt =>
          decide (1 < attempt.number) ||
            ((a.nodes proc.node).busBreaker.allow a.store.clock).1
      | _ => true
  | _ => true

/-- What an action leaves to be recorded for the event. -/
def Action.owes (id : UUID) : Action → ℕ
  | .finish _ => 0
  | .goto pc => (pc.owes id).toNat
  | .call op pc => (pc.owes id).toNat +
      match op with
      | .recordFailure args => (decide (args.eventID = id)).toNat
      | _ => 0

section Actions

variable {id : UUID} {cfg : Config}

/-- A process that resumes after a store operation owes nothing: it starts a first
attempt or does not publish. -/
theorem Pc.resume_owes {pc : Pc} {r : Result} {action : Action}
    (h : pc.resume cfg r = some action) : action.owes id = 0 := by
  cases Pc.resume_cases h with
  | relay =>
    rename_i events
    cases events <;> rfl
  | first => simp [Action.owes, Pc.owes, Config.firstAttempt]
  | _ => rfl

theorem Task.action_owes (task : Task) (now : Time) : (task.action cfg now).owes id = 0 := by
  cases task with
  | consume consumer messageID =>
    simp only [Task.action]
    split_ifs <;> rfl
  | _ => rfl

/-- A failed attempt of the event leaves one failure to be recorded. -/
theorem Job.attemptFailed_owes (job : Job) (now : Time) (attempt : Attempt) (err : String) :
    (job.attemptFailed cfg now attempt err).owes id = (decide (job.event.id = id)).toNat := by
  rcases job.attemptFailed_cases cfg now attempt err with heq | ⟨next, wake, heq⟩
  · simp [heq, Job.recordFailure, Action.owes, Pc.owes, Config.failureArgs]
  · simp [heq, Action.owes, Pc.owes]

end Actions

section Credit

variable {id : UUID} {cfg : ℕ → Config} {a b : App} {p node : ℕ} {action : Action}

theorem Op.begin_owes (op : Op) (now : Time) : ((op.begin now).counting id).toNat =
    match op with
    | .recordFailure args => (decide (args.eventID = id)).toNat
    | _ => 0 := by
  cases op with
  | append ev newID =>
    simp only [Op.begin]
    split_ifs <;> rfl
  | _ => rfl

@[simp] theorem App.credit_setBusBreaker (breaker : Breaker) :
    (a.setBusBreaker node breaker).credit id = a.credit id := rfl

@[simp] theorem App.credit_recordStore (r : Result) :
    (a.recordStore node r).credit id = a.credit id := rfl

@[simp] theorem App.credit_log (o : Occurrence) :
    (a.log o).credit id = a.credit id + (o.rejects id).toNat := by
  have herrors : busErrors id (o :: a.history) = busErrors id a.history + (o.rejects id).toNat := by
    cases ho : o.rejects id <;> simp [busErrors, ho]
  simp only [App.credit, App.owed, App.log, herrors]
  omega

/-- An action of a process replaces what the process owed by what the action owes. -/
theorem App.Acts.credit (h : a.Acts p node action b) (id : UUID) :
    a.credit id + ((a.procs.get p).any fun proc => proc.pc.owes id).toNat ≤
      b.credit id + action.owes id := by
  cases h with
  | finish =>
    rename_i out
    have herase := a.procs.count_erase (fun proc => proc.pc.owes id) p
    have herrors : busErrors id a.history ≤ busErrors id (out.toList ++ a.history) := by
      simp [busErrors, List.countP_append]
    simp only [App.credit, App.owed, Action.owes]
    omega
  | goto =>
    rename_i pc
    have hput := a.procs.count_put (fun proc => proc.pc.owes id) p ⟨node, pc⟩
    dsimp only at hput
    simp only [App.credit, App.owed, Action.owes]
    omega
  | call hidle hfresh =>
    rename_i op pc
    have hput := a.procs.count_put (fun proc => proc.pc.owes id) p ⟨node, pc⟩
    have hlaunch : (a.store.launch p op).inProgress (Call.counting id) = _ :=
      System.inProgress_launch (Call.counting id) hidle
    rw [Op.begin_owes] at hlaunch
    dsimp only at hput
    simp only [App.credit, App.owed, Action.owes]
    omega

theorem App.Proceeds.credit (h : a.Proceeds cfg p node action b) (id : UUID) :
    a.credit id + ((a.procs.get p).any fun proc => proc.pc.owes id).toNat ≤
      b.credit id + action.owes id := by
  cases h with
  | unguarded _ hacts => exact hacts.credit id
  | allowed _ _ hacts => exact hacts.credit id
  | refused _ _ hresume hacts =>
    have hcredit := hacts.credit id
    rw [Pc.resume_owes hresume] at hcredit
    refine hcredit.trans ?_
    omega

/-- A statement adds to the credit when it writes a count of the event. -/
theorem App.credit_perform {c : Call} (hcall : a.store.callOf p = some c) (report : Report)
    (env : Env) (id : UUID) : a.credit id + (c.incrementing id).toNat ≤
      App.credit { a with store := a.store.perform p c report env } id := by
  have hsum := System.inProgress_perform (Call.counting id) hcall report env
  have hle : ((c.next report env a.store.db).call?.any (Call.counting id)).toNat +
      (c.incrementing id).toNat ≤ (c.counting id).toNat := by
    by_cases hread : ∀ args, c = .failureRead args → args.eventID ≠ id
    · rw [Call.next_counting hread]
      cases hincr : c.incrementing id with
      | false => simp
      | true => simp [Call.counting_of_incrementing hincr]
    · push Not at hread
      obtain ⟨args, rfl, hid⟩ := hread
      simp only [Call.counting, Call.incrementing, hid, decide_true, Bool.toNat_true,
        Bool.toNat_false, Nat.add_zero]
      exact Bool.toNat_le _
  simp only [App.credit, App.owed]
  omega

/-- A crash lets a process and its call forget what they owe. -/
theorem App.credit_crash {store : System}
    (hstore : store = a.store ∨ a.store.step (.crash p) = some store) (id : UUID) :
    a.credit id ≤ App.credit { a with store, procs := a.procs.erase p } id := by
  have herase := a.procs.count_erase (fun proc => proc.pc.owes id) p
  have hcalls : store.inProgress (Call.counting id) ≤ a.store.inProgress (Call.counting id) := by
    rcases hstore with rfl | hcrash
    · exact le_refl _
    · cases System.step_cases hcrash with
      | crash hslot =>
        have hsum := System.inProgress_crash (Call.counting id) (System.callOf_of_running hslot)
        omega
  simp only [App.credit, App.owed]
  omega

/-- No step lowers the credit: a failure is owed only after an error of the bus. -/
theorem App.Moves.credit {l : AppLabel} (h : a.Moves cfg l b)
    (hok : admitsFirstAttempt a l = true) (id : UUID) : a.credit id ≤ b.credit id := by
  cases h with
  | tick hclock => exact le_refl _
  | exec hslot hsince hnow =>
    rename_i p report env c since
    have hcredit := App.credit_perform (System.callOf_of_running hslot) report env id
    omega
  | spawn hnone hproceeds =>
    have hcredit := hproceeds.credit id
    rw [Task.action_owes] at hcredit
    omega
  | resume hproc hslot hresume hproceeds =>
    have hcredit := hproceeds.credit id
    rw [Pc.resume_owes hresume] at hcredit
    split_ifs at hcredit
    · rw [App.credit_recordStore] at hcredit
      omega
    · omega
  | sent hproc hallowed hacts =>
    have hcredit := hacts.credit id
    rw [App.log_procs, App.setBusBreaker_procs, hproc] at hcredit
    simp only [App.credit_log, App.credit_setBusBreaker, Option.any_some, Pc.owes, Action.owes]
      at hcredit
    omega
  | unsent hproc hrefused hproceeds =>
    rename_i p node job attempt
    have hfirst : 1 < attempt.number := by simpa [admitsFirstAttempt, hproc, hrefused] using hok
    have hcredit := hproceeds.credit id
    rw [App.setBusBreaker_procs, hproc, Job.attemptFailed_owes] at hcredit
    simp only [App.credit_setBusBreaker, Option.any_some, Pc.owes, hfirst, decide_true,
      Bool.and_true] at hcredit
    omega
  | acked hproc hproceeds =>
    have hcredit := hproceeds.credit id
    simp only [App.credit_log, App.credit_setBusBreaker, Action.owes, Pc.owes, Occurrence.rejects,
      Bool.toNat_false] at hcredit
    omega
  | rejected hproc hproceeds =>
    have hcredit := hproceeds.credit id
    rw [Job.attemptFailed_owes] at hcredit
    simp only [App.credit_log, App.credit_setBusBreaker, Occurrence.rejects, Job.message] at hcredit
    omega
  | timer hproc hdue hacts =>
    rename_i p node job attempt due
    have hcredit := hacts.credit id
    rw [hproc] at hcredit
    simp only [Option.any_some, Pc.owes, Action.owes] at hcredit
    have hle : (decide (job.event.id = id) && decide (1 < attempt.number)).toNat ≤
        (decide (job.event.id = id)).toNat := by
      cases decide (job.event.id = id) <;> simp [Bool.toNat_le]
    omega
  | cancel hproc hproceeds =>
    have hcredit := hproceeds.credit id
    rw [hproc] at hcredit
    simp only [Option.any_some, Pc.owes, Action.owes, Job.recordFailure, Config.failureArgs,
      Bool.toNat_false] at hcredit
    omega
  | crash hstore => exact App.credit_crash hstore id

end Credit

/-- The number of failures of the event that a call has read. -/
def Call.claims (id : UUID) : Call → Option ℤ
  | .failureUpdate args n _ => if args.eventID = id then some (n - 1) else none
  | .failureLookup args n _ | .failureBatch args n _ _ =>
      if args.eventID = id then some n else none
  | .replayOccurred replayed letter | .replayBatch replayed letter _ _ =>
      if replayed = id then some letter.retryCount else none
  | _ => none

/-- Wherever the store counts failures of the event, it counts at most `x`. -/
structure System.Backed (id : UUID) (x : ℤ) (s : System) : Prop where
  none : 0 ≤ x
  stored : (s.db.retryMark id).1 ≤ x
  letter : ∀ letter, s.db.deadLettersById id = some letter → letter.retryCount ≤ x
  calls : ∀ p c n, s.callOf p = some c → c.claims id = some n → n ≤ x

section Backed

variable {id : UUID} {x y : ℤ} {s s' : System}

theorem System.Backed.mono (h : s.Backed id x) (hxy : x ≤ y) : s.Backed id y :=
  ⟨h.none.trans hxy, h.stored.trans hxy, fun letter hl => (h.letter letter hl).trans hxy,
    fun p c n hc hn => (h.calls p c n hc hn).trans hxy⟩

theorem Call.claims_of_cleaning {d : Call} (h : d.cleaning = true) : d.claims id = none := by
  cases d <;> first | rfl | cases h

/-- A call claims no more failures than it or its predecessor read, plus the one that
`RecordOutboxFailure` adds. -/
theorem System.Backed.leads (h : s.Backed id x) {p : ℕ} {c d : Call} {env : Env} {n : ℤ}
    (hcall : s.callOf p = some c) (hd : Call.Leads env s.db c d) (hn : d.claims id = some n) :
    n ≤ x + (c.incrementing id).toNat := by
  have hx : x ≤ x + (c.incrementing id).toNat := by omega
  cases hd with
  | failureFirst hrow =>
    simp only [Call.claims, Option.ite_none_right_eq_some, Option.some.injEq] at hn
    have := h.none
    omega
  | failureAgain hrow =>
    simp only [Call.claims, Option.ite_none_right_eq_some, Option.some.injEq] at hn
    obtain ⟨rfl, rfl⟩ := hn
    have hstored := h.stored
    rw [Store.retryMark_of_row hrow] at hstored
    simp only at hstored
    omega
  | failureLookup hq =>
    simp only [Call.claims, Option.ite_none_right_eq_some, Option.some.injEq] at hn
    obtain ⟨hid, rfl⟩ := hn
    have hread := h.calls p _ _ hcall (if_pos hid)
    simp only [Call.incrementing, hid, decide_true, Bool.toNat_true]
    omega
  | failureBatch hrow => exact (h.calls p _ n hcall hn).trans hx
  | replayOccurred hletter =>
    simp only [Call.claims, Option.ite_none_right_eq_some, Option.some.injEq] at hn
    obtain ⟨rfl, rfl⟩ := hn
    exact (h.letter _ hletter).trans hx
  | replayMissing hrow => exact (h.calls p _ n hcall hn).trans hx
  | replayBatch hrow => exact (h.calls p _ n hcall hn).trans hx
  | cleanup hc hclean =>
    rw [Call.claims_of_cleaning hclean] at hn
    cases hn
  | _ => cases hn

/-- A statement stores no more failures than its call claims. -/
theorem System.Backed.retryWrite (h : s.Backed id x) {p : ℕ} {c : Call} {mark : ℤ × Bool}
    (hcall : s.callOf p = some c) (hwrite : c.retryWrite id = some mark) :
    mark.1 ≤ x + (c.incrementing id).toNat := by
  cases c with
  | appendBatch ev newID =>
    simp only [Call.retryWrite, Option.ite_none_right_eq_some, Option.some.injEq] at hwrite
    obtain ⟨-, rfl⟩ := hwrite
    exact h.none.trans (by omega)
  | markBatch marked brokerMessageID occurredAt =>
    simp only [Call.retryWrite, Option.ite_none_right_eq_some, Option.some.injEq] at hwrite
    obtain ⟨-, rfl⟩ := hwrite
    exact h.none.trans (by omega)
  | failureUpdate args n firstFailed =>
    simp only [Call.retryWrite, Option.ite_none_right_eq_some, Option.some.injEq] at hwrite
    obtain ⟨hid, rfl⟩ := hwrite
    have hread := h.calls p _ _ hcall (if_pos hid)
    simp only [Call.incrementing, hid, decide_true, Bool.toNat_true]
    omega
  | replayBatch replayed letter now occurredAt =>
    simp only [Call.retryWrite, Option.ite_none_right_eq_some, Option.some.injEq] at hwrite
    obtain ⟨hid, rfl⟩ := hwrite
    exact (h.calls p _ _ hcall (if_pos hid)).trans (by omega)
  | _ => cases hwrite

/-- A statement keeps the counts backed, by one more failure when it writes one. -/
theorem System.Backed.perform (h : s.Backed id x) {p : ℕ} {c : Call}
    (hcall : s.callOf p = some c) (report : Report) (env : Env) :
    (s.perform p c report env).Backed id (x + (c.incrementing id).toNat) := by
  have hx : x ≤ x + (c.incrementing id).toNat := by omega
  refine ⟨h.none.trans hx, ?_, ?_, ?_⟩
  · have hstored := h.stored.trans hx
    simp only [System.perform, Call.effect_retryMark]
    split_ifs with hreport
    · exact hstored
    · cases hwrite : c.retryWrite id with
      | none => exact hstored
      | some mark => exact h.retryWrite hcall hwrite
  · refine Call.effect_keeps (P := fun db => ∀ letter, db.deadLettersById id = some letter →
      letter.retryCount ≤ _) (fun letter hletter => (h.letter letter hletter).trans hx) ?_
    intro hreport db' hm letter hletter
    cases hm with
    | insertDeadLetter =>
      rcases update_some_cases hletter with ⟨rfl, rfl⟩ | ⟨-, hold⟩
      · exact (h.calls p _ _ hcall (if_pos rfl)).trans hx
      · exact (h.letter letter hold).trans hx
    | replay =>
      exact (h.letter letter (update_none_cases hletter).2).trans hx
    | deleteDeadLetter => exact (h.letter letter (update_none_cases hletter).2).trans hx
    | _ => exact (h.letter letter hletter).trans hx
  · intro q d n hd hn
    rcases System.callOf_perform_cases hd with ⟨-, hnext⟩ | ⟨-, hd⟩
    · exact h.leads hcall (Call.next_leads hnext) hn
    · exact (h.calls q d n hd hn).trans hx

theorem Op.begin_claims (op : Op) (now : Time) : (op.begin now).claims id = none := by
  cases op with
  | append ev newID =>
    simp only [Op.begin]
    split_ifs <;> rfl
  | _ => rfl

theorem System.Backed.launch (h : s.Backed id x) (p : ℕ) (op : Op) :
    (s.launch p op).Backed id x := by
  refine ⟨h.none, h.stored, h.letter, ?_⟩
  intro q c n hc hn
  rcases System.callOf_launch_cases hc with ⟨-, rfl⟩ | ⟨-, hc⟩
  · rw [Op.begin_claims] at hn
    cases hn
  · exact h.calls q c n hc hn

end Backed

/-- In every state that is reached without refusing a first attempt, the store counts at
most as many failures of an event as the bus reported and nobody has yet to record. -/
theorem App.Reachable.backed {cfg : ℕ → Config} {a : App}
    (h : a.Reachable cfg fun a l => admitsFirstAttempt a l = true) (id : UUID) :
    a.store.Backed id (a.credit id) := by
  refine h.invariant_moves (I := fun a => a.store.Backed id (a.credit id)) ?_ ?_
  · intro clock
    refine ⟨le_refl 0, le_refl 0, ?_, ?_⟩
    · exact fun letter hletter => by cases hletter
    · exact fun p c n hc => by cases hc
  · intro a l b _ ha hok hmove
    have hcredit := hmove.credit hok id
    cases hmove.steps with
    | tick hclock => exact ⟨ha.none, ha.stored, ha.letter, ha.calls⟩
    | exec hslot hsince hnow =>
      rename_i p report env c since
      have hcall := System.callOf_of_running hslot
      exact (ha.perform hcall report env).mono (App.credit_perform hcall report env id)
    | act hcause hacts =>
      have hbacked := ha.mono hcredit
      cases hacts with
      | finish => exact hbacked
      | goto => exact hbacked
      | call hidle hfresh => exact hbacked.launch _ _
    | crash hstore =>
      have hbacked := ha.mono hcredit
      rcases hstore with rfl | hcrash
      · exact hbacked
      · cases System.step_cases hcrash with
        | crash hslot =>
          refine ⟨hbacked.none, hbacked.stored, hbacked.letter, ?_⟩
          exact fun q c n hc => hbacked.calls q c n (System.callOf_of_crash hc).2

/-- The history of a later state extends the history of an earlier one. -/
theorem App.history_of_run {cfg : ℕ → Config} {ok : App → AppLabel → Prop} {a b : App}
    (h : Run (App.step cfg) ok a b) : ∃ later, b.history = later ++ a.history := by
  refine h.invariant (I := fun b => ∃ later, b.history = later ++ a.history) ⟨[], rfl⟩ ?_
  rintro b l c ⟨later, hlater⟩ - hbc
  obtain ⟨p, node, new, hnew, -⟩ := (App.step_cases hbc).history
  exact ⟨new ++ later, by rw [hnew, hlater, List.append_assoc]⟩

/-- **Only events the bus itself rejected are quarantined.** In every run in which the open
bus breaker refuses no first attempt of a `publishWithRetry`, consider a call of
`RecordOutboxFailure` that is about to quarantine its event, and any earlier state in which
the event was not yet appended. Since then `bus.Publish` has returned at least as many
errors for this event as the threshold of the call says. -/
theorem quarantine_only_rejected {cfg : ℕ → Config} {a₀ a : App}
    (hreach : a₀.Reachable cfg fun a l => admitsFirstAttempt a l = true)
    (hrun : Run (App.step cfg) (fun a l => admitsFirstAttempt a l = true) a₀ a)
    {p : ℕ} {args : FailureArgs} {n : ℤ} {firstFailed : Time}
    (hnew : ∀ ev, (ev, args.eventID) ∉ a₀.store.inserted)
    (hcall : a.store.callOf p = some (.failureUpdate args n firstFailed))
    (hquarantine : args.quarantines n = true) :
    ∃ later, a.history = later ++ a₀.history ∧
      args.quarantineAfter ≤ busErrors args.eventID later := by
  obtain ⟨clock, hrun₀⟩ := id hreach
  have hreach' : a.Reachable cfg fun a l => admitsFirstAttempt a l = true :=
    ⟨clock, hrun₀.trans hrun⟩
  obtain ⟨later, hlater⟩ := App.history_of_run hrun
  refine ⟨later, hlater, ?_⟩
  have hread := (hreach'.backed args.eventID).calls p _ (n - 1) hcall (if_pos rfl)
  -- the call itself is among those that have yet to record a failure
  have howed : 0 < a.owed args.eventID := by
    have hcounted : a.store.inProgress (Call.counting args.eventID) ≠ 0 := by
      intro hzero
      have hfalse := System.inProgress_eq_zero.mp hzero p _ hcall
      simp [Call.counting] at hfalse
    unfold App.owed
    omega
  have hbefore : busErrors args.eventID a₀.history = 0 := by
    refine List.countP_eq_zero.mpr ?_
    intro o ho hrejects
    cases o with
    | acked msg outcome =>
      obtain ⟨ev, hev⟩ := hreach.acked_known ho
      cases outcome with
      | ok brokerID => cases hrejects
      | error err =>
        have hid : msg.messageID = args.eventID := of_decide_eq_true hrejects
        exact hnew ev (hid ▸ hev)
    | _ => cases hrejects
  have herrors : busErrors args.eventID a.history = busErrors args.eventID later := by
    rw [hlater, busErrors, List.countP_append]
    exact congrArg _ hbefore
  have hthreshold : args.quarantineAfter ≤ n := of_decide_eq_true hquarantine
  unfold App.credit at hread
  rw [herrors] at hread
  omega

/-- The requests of two orders, each with its own key. -/
def orderPublish (p : ℕ) (key : String) (id : UUID) : List AppLabel :=
  .spawn p 0 (.publish orderRequest key id) :: appExecs p 3 5000000 ++ [.resume p, .send p]

/-- The client records a failure of the event that reaches the threshold. -/
def App.quarantines (a : App) (p : ℕ) (id : UUID) : Bool :=
  match a.store.callOf p with
  | some (.failureUpdate args n _) => decide (args.eventID = id) && args.quarantines n
  | _ => false

/-- The bus rejects an order, which is quarantined after one error. -/
theorem quarantine_only_rejected_orders : ∃ (a : App) (p : ℕ) (args : FailureArgs) (n : ℤ)
    (firstFailed : Time), a.store.callOf p = some (.failureUpdate args n firstFailed) ∧
      args.quarantines n = true ∧ ∃ later, a.history = later ++ [] ∧
        args.quarantineAfter ≤ busErrors args.eventID later := by
  have hplay : (play (App.step fun _ => strictConfig) admitsFirstAttempt
      (App.init (fun _ => strictConfig) 5000000) (orderPublish 0 "order-A1001-v1" 1 ++
        .ack 0 (.error "no responders") :: appExecs 0 1 5000000)).any
      (fun a => a.quarantines 0 1) = true := by decide
  obtain ⟨a, hrun, htest⟩ := Run.exists_of_play (fun _ _ h => h) hplay
  unfold App.quarantines at htest
  split at htest
  · rename_i args n firstFailed hcall
    simp only [Bool.and_eq_true, decide_eq_true_eq] at htest
    exact ⟨a, 0, args, n, firstFailed, hcall, htest.2,
      quarantine_only_rejected ⟨5000000, .refl _⟩ hrun (fun ev hev => by cases hev) hcall htest.2⟩
  · cases htest

/-- The occurrence is a call of `bus.Publish` with the event. -/
def Occurrence.sends (id : UUID) : Occurrence → Bool
  | .sent msg => decide (msg.messageID = id)
  | _ => false

/-- The bus rejects one order, and the open breaker refuses the only attempt of another
one. The second order is quarantined although the bus was never called with it. -/
theorem refused_event_quarantined : ∃ a : App, a.Reachable (fun _ => hastyConfig) anyStep ∧
    a.quarantines 1 2 = true ∧ busErrors 2 a.history = 0 ∧
    (∀ msg, .sent msg ∈ a.history → msg.messageID ≠ 2) ∧
    ∃ b : App, a.step (fun _ => hastyConfig) (.exec 1 .ok { now := 5000000 }) = some b ∧
      b.store.db.retryMark 2 = (1, true) := by
  have hplay : (play (App.step fun _ => hastyConfig) (fun _ _ => true)
      (App.init (fun _ => hastyConfig) 5000000) (orderPublish 0 "order-A1001-v1" 1 ++
        .ack 0 (.error "no responders") :: orderPublish 1 "order-A1002-v1" 2 ++
        appExecs 1 1 5000000)).any (fun a => a.quarantines 1 2 &&
          (decide (busErrors 2 a.history = 0) &&
          (a.history.all (fun o => !o.sends 2) &&
          (a.step (fun _ => hastyConfig) (.exec 1 .ok { now := 5000000 })).any fun b =>
            decide (b.store.db.retryMark 2 = (1, true))))) = true := by decide
  obtain ⟨a, hrun, htest⟩ := Run.exists_of_play (fun _ _ _ => trivial) hplay
  simp only [Bool.and_eq_true, decide_eq_true_eq, List.all_eq_true, Option.any_eq_true] at htest
  obtain ⟨hquarantines, herrors, hsent, b, hstep, hmark⟩ := htest
  refine ⟨a, ⟨5000000, hrun⟩, hquarantines, herrors, ?_, b, hstep, hmark⟩
  intro msg hmsg hid
  have hfalse := hsent _ hmsg
  simp [Occurrence.sends, hid] at hfalse

end ControlPlane

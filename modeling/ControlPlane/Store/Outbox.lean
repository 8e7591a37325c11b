import ControlPlane.Store.Idempotency
import ControlPlane.Store.EventRows

/-!
# The outbox

The relay finds events through the pending partition of `outbox_by_state`, skips
those that `outbox_retry_state` marks as quarantined, and an operator finds the
quarantined ones among the dead letters. This file shows that the partition always
agrees with `outbox_events`, and that an accepted event stays published, relayable
or replayable unless a failure is cut short between setting the quarantine flag
and inserting the dead letter.
-/

namespace ControlPlane

open Transition

/-- The event is marked as published. -/
def Store.Published (db : Store) (id : UUID) : Prop :=
  ∃ row, db.outboxEvents id = some row ∧ row.publishState = .published

/-- Whether the event is marked as published. -/
def Store.isPublished (db : Store) (id : UUID) : Bool :=
  (db.outboxEvents id).any fun row => decide (row.publishState = .published)

theorem Store.isPublished_iff {db : Store} {id : UUID} :
    db.isPublished id = true ↔ db.Published id := by
  simp [Store.isPublished, Store.Published, Option.any_eq_true]

/-- **Pending index agreement.** In every reachable state an event has a row in
the pending partition exactly when its outbox row is pending; it has at most one
such row, and the two rows agree on every column. -/
theorem pending_index_agrees {s : System} (h : s.Reachable anyStep) (id : UUID) :
    ((∃ t content, s.db.outboxByState.get (toLex (t, id)) = some content) ↔
      ∃ row, s.db.outboxEvents id = some row ∧ row.publishState = .pending) ∧
    (∀ t t' content content', s.db.outboxByState.get (toLex (t, id)) = some content →
      s.db.outboxByState.get (toLex (t', id)) = some content' → t = t') ∧
    ∀ t content, s.db.outboxByState.get (toLex (t, id)) = some content →
      ∃ row, s.db.outboxEvents id = some row ∧ row.occurredAt = t ∧ row.toContent = content := by
  have hindex : IndexAgrees s.db.outboxEvents s.db.outboxByState := h.traced.store.index
  refine ⟨⟨?_, ?_⟩, ?_, ?_⟩
  · rintro ⟨t, content, hget⟩
    obtain ⟨row, hrow, hpending, -⟩ := (hindex _ content).mp hget
    exact ⟨row, hrow, hpending⟩
  · rintro ⟨row, hrow, hpending⟩
    exact ⟨row.occurredAt, row.toContent, (hindex _ _).mpr ⟨row, hrow, hpending, rfl, rfl⟩⟩
  · intro t t' content content' hget hget'
    obtain ⟨row, hrow, -, htime, -⟩ := (hindex _ content).mp hget
    obtain ⟨row', hrow', -, htime', -⟩ := (hindex _ content').mp hget'
    rw [show (ofLex (toLex (t', id))).2 = (ofLex (toLex (t, id))).2 from rfl, hrow,
      Option.some.injEq] at hrow'
    subst hrow'
    exact htime.symm.trans htime'
  · intro t content hget
    obtain ⟨row, hrow, -, htime, hcontent⟩ := (hindex _ content).mp hget
    exact ⟨row, hrow, htime, hcontent⟩

/-- Two clients append, one event is published and the other one quarantined and
replayed; the index agrees on both. -/
theorem pending_index_agrees_orders : ∃ s : System, s.Reachable anyStep ∧
    s.db.Published 1 ∧
    ((∃ t content, s.db.outboxByState.get (toLex (t, 2)) = some content) ↔
      ∃ row, s.db.outboxEvents 2 = some row ∧ row.publishState = .pending) := by
  obtain ⟨s, hs, htest⟩ := System.Reachable.of_play anyStep (fun _ _ => true)
    (fun _ _ _ => trivial) 5000000
    (.start 0 (.append orderCreated 1) :: execs 0 3 5000000 ++
      .start 0 (.append { orderCreated with idempotencyKey := "" } 2) :: execs 0 1 5000000 ++
      .start 0 (.mark 1 "SHIRO_EVENTS:1") :: execs 0 2 5000000 ++
      .start 0 (.recordFailure ⟨2, "nats timeout", 500000000, 30000000000, 0, 1⟩) ::
        execs 0 4 5000000 ++ .start 0 (.replay 2) :: execs 0 3 5000000)
    (fun s => s.db.isPublished 1) (by decide)
  exact ⟨s, hs, Store.isPublished_iff.mp htest, (pending_index_agrees hs 2).1⟩

/-- The relay can find the event: it has a row in the pending partition, and its
retry state is absent or not quarantined. -/
def Store.Relayable (db : Store) (id : UUID) : Prop :=
  (∃ t content, db.outboxByState.get (toLex (t, id)) = some content) ∧
    ∀ row, db.outboxRetryState id = some row → row.quarantined = false

/-- An operator can replay the event. -/
def Store.Replayable (db : Store) (id : UUID) : Prop := ∃ letter, db.deadLettersById id = some letter

/-- The event is published, not held back, or in the dead-letter queue. -/
def Store.Settled (db : Store) (id : UUID) : Prop :=
  db.Published id ∨ (∀ row, db.outboxRetryState id = some row → row.quarantined = false) ∨
    db.Replayable id

/-- The call has set the quarantine flag of the event and not yet inserted its
dead letter. -/
def Call.quarantining (id : UUID) : Call → Bool
  | .failureLookup args _ _ | .failureBatch args _ _ _ => decide (args.eventID = id)
  | _ => false

/-- Cutting off a failure of this event leaves it published or in the dead-letter
queue. -/
def Store.secured (db : Store) (id : UUID) : Bool :=
  db.isPublished id || (db.deadLettersById id).isSome

/-- The step does not end a failure between setting the quarantine flag of an
event and inserting its dead letter, unless the event is published or already a
dead letter. -/
def finishesQuarantines (s : System) : Label → Bool
  | .exec p report _ =>
      match s.callOf p with
      | some (.failureUpdate args retryCount _) =>
          !args.quarantines retryCount || decide (report ≠ .lost) || s.db.secured args.eventID
      | some (.failureLookup args _ _) => decide (report = .ok) || s.db.secured args.eventID
      | some (.failureBatch args _ _ _) => decide (report ≠ .refused) || s.db.secured args.eventID
      | _ => true
  | .crash p =>
      match s.callOf p with
      | some (.failureLookup args _ _) | some (.failureBatch args _ _ _) => s.db.secured args.eventID
      | _ => true
  | l => !l.startsCleanup

section Settled

variable {db db' : Store} {c : Call} {env : Env} {id : UUID}

theorem Store.secured_iff : db.secured id = true ↔ db.Published id ∨ db.Replayable id := by
  simp [Store.secured, Store.isPublished_iff, Store.Replayable, Option.isSome_iff_exists]

theorem Store.Settled.of_secured (h : db.secured id = true) : db.Settled id := by
  rcases Store.secured_iff.mp h with hp | hr
  · exact Or.inl hp
  · exact Or.inr (Or.inr hr)

/-- A statement of an operation other than cleanup leaves an event settled, unless
it sets the quarantine flag of that event. -/
theorem Store.Settled.mutate (h : db.Settled id) (hm : Call.Mutation env db c db')
    (hc : c.cleaning = false) : db'.Settled id ∨ ∃ args retryCount firstFailed,
      c = .failureUpdate args retryCount firstFailed ∧ args.eventID = id ∧
        args.quarantines retryCount = true := by
  cases hm.touches id with
  | untouched houtbox hretry hletter =>
    left
    simpa only [Store.Settled, Store.Published, Store.Replayable, houtbox, hretry, hletter] using h
  | inserted _ _ hretry hfree _ =>
    refine Or.inl (Or.inr (Or.inl ?_))
    simpa [hretry] using hfree
  | marked hrow hstate _ _ => exact Or.inl (Or.inl ⟨_, hrow, hstate⟩)
  | leased houtbox hold _ _ hretry hletter =>
    left
    simpa [Store.Settled, Store.Published, Store.Replayable, houtbox, hold, hretry, hletter] using h
  | failed hid hsame hretry hq hlease =>
    rename_i args retryCount firstFailed retry
    by_cases hquarantines : args.quarantines retryCount = true
    · exact Or.inr ⟨args, retryCount, firstFailed, rfl, hid, hquarantines⟩
    · refine Or.inl (Or.inr (Or.inl ?_))
      rw [Bool.not_eq_true] at hquarantines
      simpa [hretry, hq] using hquarantines
  | buried _ _ _ hletter => exact Or.inl (Or.inr (Or.inr ⟨_, hletter⟩))
  | replayed _ _ hretry hfree _ _ =>
    refine Or.inl (Or.inr (Or.inl ?_))
    simpa [hretry] using hfree
  | discarded => cases hc

end Settled

/-- Every inserted event is settled or being quarantined by a call in progress. -/
structure System.Kept (s : System) : Prop where
  idle : ∀ p c, s.callOf p = some c → c.cleaning = false
  kept : ∀ ev id, (ev, id) ∈ s.inserted → s.db.Settled id ∨
    ∃ p c, s.callOf p = some c ∧ c.quarantining id = true

/-- A call that is quarantining an event and is not cut short settles the event or
goes on quarantining it. -/
theorem Call.quarantining_next {s : System} {p : ℕ} {c : Call} {report : Report} {env : Env}
    {id : UUID} (hcall : s.callOf p = some c) (hq : c.quarantining id = true)
    (hrow : ∃ row, s.db.outboxEvents id = some row)
    (hok : finishesQuarantines s (.exec p report env) = true) :
    (c.effect report env s.db).Settled id ∨
      ∃ d, c.next report env s.db = .call d ∧ d.quarantining id = true := by
  simp only [finishesQuarantines, hcall] at hok
  cases c with
  | failureLookup args retryCount now =>
    have hid : args.eventID = id := of_decide_eq_true hq
    obtain ⟨row, hrow⟩ := hrow
    rw [← hid] at hrow
    rcases (Bool.or_eq_true _ _).mp hok with hreport | hsecured
    · right
      refine ⟨.failureBatch args retryCount now row.toContent, ?_, hq⟩
      simp [Call.next, of_decide_eq_true hreport, Call.exec, hrow]
    · left
      have heffect : (Call.failureLookup args retryCount now).effect report env s.db = s.db := by
        simp [Call.effect, Call.exec, hrow]
      rw [heffect, ← hid]
      exact .of_secured hsecured
  | failureBatch args retryCount now content =>
    have hid : args.eventID = id := of_decide_eq_true hq
    left
    by_cases hreport : report = .refused
    · have hsecured : s.db.secured args.eventID = true := by simpa [hreport] using hok
      rw [Call.effect, if_pos hreport, ← hid]
      exact .of_secured hsecured
    · rw [Call.effect, if_neg hreport, ← hid]
      exact Or.inr (Or.inr ⟨_, Function.update_self ..⟩)
  | _ => cases hq

/-- Executing a statement keeps every event, unless it cuts a quarantine short. -/
theorem System.Kept.perform {s : System} (h : s.Kept) (htraced : s.Traced) {p : ℕ} {c : Call}
    {since : Time} {report : Report} {env : Env}
    (hslot : s.slots.get p = some (.running c since))
    (hok : finishesQuarantines s (.exec p report env) = true) :
    (s.perform p c report env).Kept := by
  have hcall := System.callOf_of_running hslot
  have hclean := h.idle p c hcall
  have hsettled : ∀ id, s.db.Settled id → (s.perform p c report env).db.Settled id ∨
      ∃ q d, (s.perform p c report env).callOf q = some d ∧ d.quarantining id = true := by
    intro id hid
    rcases c.effect_mutation report env s.db with ⟨-, heq⟩ | ⟨hreport, hm⟩
    · left
      simpa [System.perform, heq] using hid
    · rcases hid.mutate hm hclean with hid | ⟨args, retryCount, firstFailed, rfl, rfl, hq⟩
      · exact Or.inl hid
      · simp only [finishesQuarantines, hcall, hq, Bool.not_true, Bool.false_or,
          Bool.or_eq_true, decide_eq_true_eq] at hok
        rcases hok with hlost | hsecured
        · right
          refine ⟨p, .failureLookup args retryCount env.now, System.callOf_perform_next ?_,
            decide_eq_true rfl⟩
          simp [Call.next, Report.eq_ok hlost hreport, Call.exec, hq]
        · left
          rw [System.perform, Call.effect, if_neg hreport]
          rcases Store.secured_iff.mp hsecured with hp | hr
          · exact Or.inl hp
          · exact Or.inr (Or.inr hr)
  constructor
  · intro q d hd
    rcases System.callOf_perform_cases hd with ⟨-, hd⟩ | ⟨-, hd⟩
    · exact (Call.next_leads hd).cleaning hclean
    · exact h.idle q d hd
  · intro ev id hmem
    rcases List.mem_append.mp hmem with hnew | hold
    · obtain ⟨rfl, hreport⟩ := Call.mem_inserts hnew
      refine Or.inl (Or.inr (Or.inl ?_))
      simp [System.perform, Call.effect, if_neg hreport, Call.exec, Store.insertEvent]
    · rcases h.kept ev id hold with hid | hduty
      · exact hsettled id hid
      · have hrow := (htraced.store.present ev id hold).2
        exact System.duty_perform hcall hduty fun hq => Call.quarantining_next hcall hq hrow hok

/-- Every event is kept in a run without cleanup that cuts no quarantine short. -/
theorem System.Reachable.kept {s : System} (h : s.Reachable fun s l => finishesQuarantines s l) :
    s.Kept := by
  refine (h.invariant (I := fun s => s.Traced ∧ s.Kept) ?_ ?_).2
  · intro clock
    refine ⟨System.traced_init clock, ?_, ?_⟩
    · exact fun p c hc => by cases hc
    · exact fun ev id hmem => by cases hmem
  · rintro a l b ⟨htraced, ha⟩ hok hstep
    refine ⟨htraced.step hstep, ?_⟩
    cases hstep with
    | tick hclock => exact ⟨ha.idle, ha.kept⟩
    | start hidle hfresh =>
      rename_i p op
      constructor
      · intro q c hc
        rcases System.callOf_launch_cases hc with ⟨-, rfl⟩ | ⟨-, hc⟩
        · exact op.begin_cleaning _ (by simpa [finishesQuarantines] using hok)
        · exact ha.idle q c hc
      · exact fun ev id hmem => (ha.kept ev id hmem).imp_right (System.duty_launch hidle)
    | exec hslot hsince hnow => exact ha.perform htraced hslot hok
    | crash hslot =>
      rename_i p c since
      refine ⟨fun q d hd => ha.idle q d (System.callOf_of_crash hd).2, ?_⟩
      intro ev id hmem
      rcases ha.kept ev id hmem with hid | hduty
      · exact Or.inl hid
      · refine System.duty_crash hduty fun d hd hq => ?_
        cases d with
        | failureLookup args retryCount now =>
          rw [← of_decide_eq_true hq]
          exact .of_secured (by simpa [finishesQuarantines, hd] using hok)
        | failureBatch args retryCount now content =>
          rw [← of_decide_eq_true hq]
          exact .of_secured (by simpa [finishesQuarantines, hd] using hok)
        | _ => cases hq

/-- A settled event that was inserted is published, relayable or replayable. -/
theorem Store.Settled.cases {s : System} (htraced : s.Traced) {ev : EventRecord} {id : UUID}
    (hmem : (ev, id) ∈ s.inserted) (h : s.db.Settled id) :
    s.db.Published id ∨ s.db.Relayable id ∨ s.db.Replayable id := by
  rcases h with hp | hq | hr
  · exact Or.inl hp
  · obtain ⟨row, hrow⟩ := (htraced.store.present ev id hmem).2
    cases hstate : row.publishState with
    | published => exact Or.inl ⟨row, hrow, hstate⟩
    | pending =>
      refine Or.inr (Or.inl ⟨⟨row.occurredAt, row.toContent, ?_⟩, hq⟩)
      exact (htraced.store.index _ _).mpr ⟨row, hrow, hstate, rfl, rfl⟩
  · exact Or.inr (Or.inr hr)

/-- **No accepted event is lost by completed operations.** In every run without
cleanup that ends no failure between quarantine flag and dead letter, in every
state without a call in flight, every event that an append returned is published,
relayable or replayable. -/
theorem accepted_events_kept {s : System} (h : s.Reachable fun s l => finishesQuarantines s l)
    (hidle : s.Quiescent) {ev : EventRecord} {res : AppendResult} (hres : (ev, res) ∈ s.returns) :
    s.db.Published res.event.id ∨ s.db.Relayable res.event.id ∨ s.db.Replayable res.event.id := by
  have htraced := h.traced
  obtain ⟨ev', hev⟩ : ∃ ev', (ev', res.event.id) ∈ s.inserted :=
    (htraced.returned ev res hres).imp fun _ h => h.1
  rcases h.kept.kept ev' _ hev with hid | ⟨p, c, hc, -⟩
  · exact hid.cases htraced hev
  · rw [hidle p] at hc
    cases hc

/-- An order is appended and its failed publication quarantined to the end. -/
theorem accepted_events_kept_orders : ∃ s : System,
    (s.Reachable fun s l => finishesQuarantines s l) ∧ s.Quiescent ∧ s.returns ≠ [] ∧
    ∀ r ∈ s.returns, s.db.Published r.2.event.id ∨ s.db.Relayable r.2.event.id ∨
      s.db.Replayable r.2.event.id := by
  obtain ⟨s, hs, htest⟩ := System.Reachable.of_play (fun s l => finishesQuarantines s l)
    finishesQuarantines (fun _ _ h => h) 5000000
    (.start 0 (.append orderCreated 1) :: execs 0 3 5000000 ++
      .start 0 (.recordFailure ⟨1, "nats timeout", 500000000, 30000000000, 0, 1⟩) ::
        execs 0 4 5000000)
    (fun s => s.slots.rows.all (fun row => row.2.idle) && !s.returns.isEmpty) (by decide)
  rw [Bool.and_eq_true] at htest
  have hidle := s.quiescent_of_slots htest.1
  refine ⟨s, hs, hidle, by simpa using htest.2, ?_⟩
  rintro ⟨ev, res⟩ hres
  exact accepted_events_kept hs hidle hres

/-- A node crashes right after setting the quarantine flag of an accepted event.
The relay skips the event from then on, and no dead letter lists it. -/
theorem crashed_quarantine_loses_event : ∃ s : System, s.Reachable withoutCleanup ∧ s.Quiescent ∧
    ∃ r ∈ s.returns, ¬(s.db.Published r.2.event.id ∨ s.db.Relayable r.2.event.id ∨
      s.db.Replayable r.2.event.id) := by
  obtain ⟨s, hs, htest⟩ := System.Reachable.of_play withoutCleanup
    (fun _ l => !l.startsCleanup) (fun _ l h => by simpa [withoutCleanup] using h) 5000000
    (.start 0 (.append orderCreated 1) :: execs 0 3 5000000 ++
      .start 0 (.recordFailure ⟨1, "nats timeout", 500000000, 30000000000, 0, 1⟩) ::
        execs 0 2 5000000 ++ [.crash 0])
    (fun s => s.slots.rows.all (fun row => row.2.idle) &&
      s.returns.any (fun r => decide (r.2.event.id = 1)) && !s.db.secured 1 &&
      (s.db.outboxRetryState 1).any RetryRow.quarantined) (by decide)
  simp only [Bool.and_eq_true, List.any_eq_true, decide_eq_true_eq, Bool.not_eq_true',
    Option.any_eq_true] at htest
  obtain ⟨⟨⟨hslots, r, hr, hid⟩, hsecured⟩, retry, hretry, hquarantined⟩ := htest
  have hlost : ¬(s.db.Published 1 ∨ s.db.Replayable 1) := by
    rw [← Store.secured_iff, hsecured]
    decide
  refine ⟨s, hs, s.quiescent_of_slots hslots, r, hr, ?_⟩
  rw [hid]
  rintro (hp | ⟨-, hq⟩ | hr)
  · exact hlost (Or.inl hp)
  · rw [hq retry hretry] at hquarantined
    cases hquarantined
  · exact hlost (Or.inr hr)

end ControlPlane

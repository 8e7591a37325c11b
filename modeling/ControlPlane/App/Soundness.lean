import ControlPlane.App.Ledger
import ControlPlane.Store.EventRows

/-!
# Soundness of every reachable state

Whatever a process does next is justified by what it knows, and a statement of the store
passes on no more than it read. So every step keeps the state sound with respect to its
ledger, and every reachable state is sound.
-/

namespace ControlPlane

open Transition

section Actions

variable {k : Ledger} {cfg : Config}

theorem Job.Sound.event {job : Job} (h : job.Sound k) : job.event.Traced k.inserted := by
  cases job with
  | request result => exact h
  | relay evt rest => exact h evt List.mem_cons_self

theorem EventRecord.Traced.known {ev : EventRecord} (h : ev.Traced k.inserted) : k.Known ev.id := by
  obtain ⟨ev', hev', -⟩ := h
  exact ⟨ev', hev'⟩

/-- The message of a job carries what was inserted. -/
theorem Job.Sound.message {job : Job} (h : job.Sound k) : job.message.Recorded k := by
  obtain ⟨ev, hev, hcontent, -⟩ := h.event
  refine ⟨ev, hev, ?_, ?_⟩
  · exact congrArg (fun c : Content => c.subject) hcontent
  · exact congrArg (fun c : Content => c.payload) hcontent

/-- The relay goes on with events that it received from the store. -/
theorem relayNext_sound {events : List EventRecord}
    (h : ∀ ev ∈ events, EventRecord.Traced k.inserted ev) : (relayNext cfg events).Sound k := by
  cases events with
  | nil => exact fun o ho => by cases ho
  | cons evt rest => exact ⟨(h evt List.mem_cons_self).known, h⟩

theorem Job.Sound.recordFailure {job : Job} {err : String} (h : job.Sound k) :
    (job.recordFailure cfg err).Sound k :=
  ⟨h.event.known, h⟩

/-- After a failed attempt a process waits or records the failure of the same event. -/
theorem Job.Sound.attemptFailed {job : Job} {now : Time} {attempt : Attempt} {err : String}
    (h : job.Sound k) : (job.attemptFailed cfg now attempt err).Sound k := by
  rcases job.attemptFailed_cases cfg now attempt err with heq | ⟨next, wake, heq⟩ <;> rw [heq]
  · exact h.recordFailure
  · exact h

/-- After recording a failure a request is answered with status 202. -/
theorem Job.Sound.afterFailure {job : Job} {err : String} {quarantined : Bool} {retries : ℤ}
    (h : job.Sound k) : (job.afterFailure cfg err quarantined retries).Sound k := by
  cases job with
  | request result =>
    rintro o ho
    cases ho
    rintro (hstatus | hstatus) <;> cases hstatus
  | relay evt rest => exact relayNext_sound fun ev hev => h ev (List.mem_cons_of_mem evt hev)

/-- After marking a confirmed event a request may be answered with success. -/
theorem Job.Sound.afterMark {job : Job} {marked : Bool} (h : job.Sound k)
    (hacked : ∃ b, k.Acked job.event.id b) : (job.afterMark cfg marked).Sound k := by
  cases job with
  | request result =>
    rintro o ho
    cases ho
    intro hstatus id hid
    cases marked with
    | true =>
      cases hid
      exact hacked
    | false => cases hid
  | relay evt rest => exact relayNext_sound fun ev hev => h ev (List.mem_cons_of_mem evt hev)

/-- A process that resumes with a sound result performs a sound action. -/
theorem Pc.Sound.resume {pc : Pc} {r : Result} {action : Action} (hpc : pc.Sound k)
    (hr : r.Traced k.inserted) (hconfirmed : r.Confirmed k)
    (h : pc.resume cfg r = some action) : action.Sound k := by
  have hnone : (Action.finish none).Sound k := fun o ho => by cases ho
  unfold Pc.resume at h
  split at h
  · rename_i result
    split_ifs at h with hpublished
    · cases h
      rintro o ho
      cases ho
      intro _ id hid
      cases hid
      exact hconfirmed hpublished
    · cases h
      exact hr
  · cases h
    rintro o ho
    cases ho
    rintro (hstatus | hstatus) <;> cases hstatus
  · cases h
    exact relayNext_sound hr
  · cases h
    exact hnone
  · cases h
    exact hpc
  · cases h
    exact relayNext_sound fun ev hev => hpc ev (List.mem_cons_of_mem _ hev)
  · cases h
    exact Job.Sound.afterFailure hpc
  · cases h
    exact Job.Sound.afterFailure hpc
  · cases h
    exact Job.Sound.afterFailure hpc
  · cases h
    exact Job.Sound.afterMark hpc.1 hpc.2
  · cases h
    exact Job.Sound.afterMark hpc.1 hpc.2
  · cases h
    rintro o ho
    cases ho
    intro _ id hid
    cases hid
  · cases h
    rintro o ho
    cases ho
    intro _ id hid
    cases hid
  · cases h
    rintro o ho
    cases ho
    trivial
  all_goals first
    | (cases h; exact hnone)
    | cases h

/-- A task starts without knowing any event. -/
theorem Task.action_sound (task : Task) (now : Time) : (task.action cfg now).Sound k := by
  cases task with
  | consume consumer messageID =>
    simp only [Task.action]
    split_ifs
    · rintro o ho
      cases ho
      trivial
    · exact ⟨trivial, trivial⟩
  | _ => exact ⟨trivial, trivial⟩

end Actions

section Operations

variable {k : Ledger} {env : Env} {db : Store} {c d : Call}

/-- The next statement of an operation knows no more than the statement before it. -/
theorem Call.Sound.leads (h : c.Sound k) (hd : Call.Leads env db c d) : d.Sound k := by
  cases hd with
  | markBatch hrow => exact h
  | failureFirst hrow => exact h
  | failureAgain hrow => exact h
  | failureLookup hq => exact h
  | failureBatch hrow => exact h
  | cleanup _ hcleaning => cases d <;> trivial
  | _ => trivial

/-- An operation starts with what its arguments say. -/
theorem Op.Sound.begin {op : Op} {now : Time} (h : op.Sound k) : (op.begin now).Sound k := by
  cases op with
  | append ev newID =>
    simp only [Op.begin]
    split_ifs <;> trivial
  | mark id b => exact h
  | claimLease id owner leaseDuration => exact h
  | recordFailure args => exact h
  | _ => trivial

/-- The results of a statement are confirmed by the rows that it read. -/
theorem Call.next_confirmed {report : Report} {r : Result} (h : c.next report env db = .done r)
    (hrows : db.Confirmed k) : r.Confirmed k := by
  cases Call.next_returns h with
  | inserted => exact fun hpublished => by cases hpublished
  | found hrow =>
    intro hpublished
    exact ⟨_, hrows _ _ hrow (of_decide_eq_true hpublished)⟩
  | silent hsilent => cases r <;> trivial
  | _ => trivial

/-- A sound operation marks only confirmed events as published. -/
theorem Store.Confirmed.mutate {db' : Store} (h : db.Confirmed k) (hm : Call.Mutation env db c db')
    (hc : c.Sound k) : db'.Confirmed k := by
  intro id row hrow hstate
  have hpending : ∀ row', db'.outboxEvents id = some row' → row'.publishState = .pending →
      k.Acked id row.brokerMessageId := by
    intro row' hrow' hpending
    rw [hrow', Option.some.injEq] at hrow
    rw [← hrow, hpending] at hstate
    cases hstate
  cases hm.touches id with
  | untouched hsame => exact h id row (hsame ▸ hrow) hstate
  | inserted hnew hstate' => exact hpending _ hnew hstate'
  | marked hnew _ hbroker =>
    rw [hnew, Option.some.injEq] at hrow
    rw [← hrow, hbroker]
    exact hc.2
  | leased hsame => exact h id row (hsame ▸ hrow) hstate
  | failed _ hsame => exact h id row (hsame ▸ hrow) hstate
  | buried _ hsame => exact h id row (hsame ▸ hrow) hstate
  | replayed hnew hstate' => exact hpending _ hnew hstate'
  | discarded hsame => exact h id row (hsame ▸ hrow) hstate

end Operations

section Steps

variable {cfg : ℕ → Config} {a b : App} {p node : ℕ} {action : Action} {o : Option Occurrence}

/-- Every cause of an action in a sound state makes the action sound. -/
theorem App.Cause.sound (hcause : App.Cause cfg a p node action o) (h : a.Sound)
    (htraced : a.store.Traced) : (∀ x, o = some x → x.Sound a.ledger) ∧
      action.Sound ⟨a.store.inserted, o.toList ++ a.history⟩ := by
  have hnone : ∀ x : Occurrence, none = some x → x.Sound a.ledger := fun x hx => by cases hx
  induction hcause with
  | spawned hproc => exact ⟨hnone, Task.action_sound _ _⟩
  | resumed hproc hslot hresume =>
    have hpc := h.procs p _ hproc
    exact ⟨hnone, hpc.resume (htraced.slots p _ hslot) (h.results p _ hslot) hresume⟩
  | sent hproc =>
    have hjob : Job.Sound a.ledger _ := h.procs p _ hproc
    refine ⟨?_, hjob.mono (a.ledger.extends_append [_])⟩
    rintro x hx
    cases hx
    exact hjob.message
  | unsent hproc =>
    have hjob : Job.Sound a.ledger _ := h.procs p _ hproc
    exact ⟨hnone, hjob.attemptFailed⟩
  | acked hproc =>
    rename_i job attempt brokerID
    have hjob : Job.Sound a.ledger job := h.procs p _ hproc
    have hgrow := a.ledger.extends_append [.acked job.message (.ok brokerID)]
    have hacked : Ledger.Acked ⟨a.store.inserted, .acked job.message (.ok brokerID) :: a.history⟩
        job.event.id brokerID := ⟨job.message, List.mem_cons_self, rfl⟩
    refine ⟨?_, ⟨hjob.event.known.mono hgrow, hacked⟩, hjob.mono hgrow, brokerID, hacked⟩
    rintro x hx
    cases hx
    trivial
  | rejected hproc =>
    rename_i job attempt err
    have hjob : Job.Sound a.ledger job := h.procs p _ hproc
    have hgrow := a.ledger.extends_append [.acked job.message (.error err)]
    refine ⟨?_, (hjob.mono hgrow).attemptFailed⟩
    rintro x hx
    cases hx
    trivial
  | fired hproc => exact ⟨hnone, h.procs p _ hproc⟩
  | cancelled hproc =>
    have hjob : Job.Sound a.ledger _ := h.procs p _ hproc
    exact ⟨hnone, hjob.recordFailure⟩
  | refused hcause hguarded hresume ih =>
    have hfailed : ∀ ins, Result.Traced ins .failed := fun _ => trivial
    exact ⟨ih.1, ih.2.2.resume (hfailed _) trivial hresume⟩

/-- Performing a sound action keeps a state sound. -/
theorem App.Sound.acts (h : a.Sound) (haction : action.Sound a.ledger)
    (hacts : a.Acts p node action b) : b.Sound := by
  cases hacts with
  | finish =>
    rename_i out
    have hgrow := a.ledger.extends_append out.toList
    constructor
    · exact fun q proc hproc => (h.procs q proc (Clustered.get_erase_cases hproc).2).mono hgrow
    · exact fun q c hc => (h.calls q c hc).mono hgrow
    · exact fun q r hr => (h.results q r hr).mono hgrow
    · exact fun id row hrow hstate => (h.rows id row hrow hstate).mono hgrow
    · exact h.history.append haction
  | goto =>
    refine ⟨?_, h.calls, h.results, h.rows, h.history⟩
    intro q proc hproc
    rcases Clustered.get_put_cases hproc with ⟨-, rfl⟩ | ⟨-, hold⟩
    · exact haction
    · exact h.procs q proc hold
  | call hidle hfresh =>
    refine ⟨?_, ?_, ?_, h.rows, h.history⟩
    · intro q proc hproc
      rcases Clustered.get_put_cases hproc with ⟨-, rfl⟩ | ⟨-, hold⟩
      · exact haction.2
      · exact h.procs q proc hold
    · intro q c hc
      rcases System.callOf_launch_cases hc with ⟨-, rfl⟩ | ⟨-, hc⟩
      · exact haction.1.begin
      · exact h.calls q c hc
    · exact fun q r hr => h.results q r (System.returned_of_launch hr).2

/-- Executing a statement keeps a state sound. -/
theorem App.Sound.perform (h : a.Sound) {c : Call} {since : Time} {report : Report} {env : Env}
    (hslot : a.store.slots.get p = some (.running c since)) :
    App.Sound { a with store := a.store.perform p c report env } := by
  have hcall := System.callOf_of_running hslot
  have hgrow : a.ledger.Extends ⟨(a.store.perform p c report env).inserted, a.history⟩ :=
    ⟨fun _ he => List.mem_append_right _ he, fun _ ho => ho⟩
  constructor
  · exact fun q proc hproc => (h.procs q proc hproc).mono hgrow
  · intro q d hd
    rcases System.callOf_perform_cases hd with ⟨-, hd⟩ | ⟨-, hd⟩
    · exact ((h.calls p c hcall).leads (Call.next_leads hd)).mono hgrow
    · exact (h.calls q d hd).mono hgrow
  · intro q r hr
    rcases System.returned_perform_cases hr with ⟨-, hnext⟩ | ⟨-, hold⟩
    · exact (Call.next_confirmed hnext h.rows).mono hgrow
    · exact (h.results q r hold).mono hgrow
  · have hrows : (c.effect report env a.store.db).Confirmed a.ledger :=
      Call.effect_keeps h.rows fun _ _ hm => Store.Confirmed.mutate h.rows hm (h.calls p c hcall)
    exact fun id row hrow hstate => (hrows id row hrow hstate).mono hgrow
  · exact h.history.mono hgrow.1

/-- Every step of the application keeps a state sound. -/
theorem App.Sound.step {l : AppLabel} (h : a.Sound) (htraced : a.store.Traced)
    (hstep : a.Steps cfg l b) : b.Sound := by
  cases hstep with
  | tick hclock => exact ⟨h.procs, h.calls, h.results, h.rows, h.history⟩
  | exec hslot hsince hnow => exact h.perform hslot
  | act hcause hacts =>
    rename_i p node nodes action o
    obtain ⟨ho, haction⟩ := hcause.sound h htraced
    have hgrow := a.ledger.extends_append o.toList
    have hlogged : App.Sound { a with nodes, history := o.toList ++ a.history } := by
      constructor
      · exact fun q proc hproc => (h.procs q proc hproc).mono hgrow
      · exact fun q c hc => (h.calls q c hc).mono hgrow
      · exact fun q r hr => (h.results q r hr).mono hgrow
      · exact fun id row hrow hstate => (h.rows id row hrow hstate).mono hgrow
      · exact h.history.append ho
    exact hlogged.acts haction hacts
  | crash hstore =>
    rename_i p store
    have hprocs : ∀ q proc, (a.procs.erase p).get q = some proc → proc.pc.Sound a.ledger :=
      fun q proc hproc => h.procs q proc (Clustered.get_erase_cases hproc).2
    rcases hstore with rfl | hcrash
    · exact ⟨hprocs, h.calls, h.results, h.rows, h.history⟩
    · cases System.step_cases hcrash with
      | crash hslot =>
        refine ⟨hprocs, ?_, ?_, h.rows, h.history⟩
        · exact fun q c hc => h.calls q c (System.callOf_of_crash hc).2
        · exact fun q r hr => h.results q r (Clustered.get_erase_cases hr).2

theorem App.sound_init (cfg : ℕ → Config) (clock : Time) : (App.init cfg clock).Sound := by
  constructor
  · intro p proc hproc
    cases hproc
  · intro p c hc
    cases hc
  · intro p r hr
    cases hr
  · intro id row hrow
    cases hrow
  · intro later o earlier hsplit
    simp [App.init] at hsplit

/-- Every reachable state of the application is sound. -/
theorem App.Reachable.sound {ok : App → AppLabel → Prop} (h : a.Reachable cfg ok) : a.Sound :=
  h.invariant (App.sound_init cfg) fun _ _ _ htraced ha _ hstep => ha.step htraced hstep

/-- The ledger of the application only grows. -/
theorem App.Steps.ledger {l : AppLabel} (h : a.Steps cfg l b) : a.ledger.Extends b.ledger := by
  constructor
  · intro e he
    rcases h.store with heq | ⟨l', hl'⟩
    · simpa only [App.ledger, heq] using he
    · exact hl'.inserted he
  · intro o ho
    obtain ⟨p, node, new, hnew, -⟩ := h.history
    simp only [App.ledger, hnew]
    exact List.mem_append_right new ho

/-- The bus returns outcomes only for events that were inserted. -/
theorem App.Reachable.acked_known {ok : App → AppLabel → Prop} (h : a.Reachable cfg ok)
    {msg : Message} {outcome : Outcome} (hmsg : .acked msg outcome ∈ a.history) :
    a.ledger.Known msg.messageID := by
  have hboth : a.Sound ∧ ∀ msg outcome, Occurrence.acked msg outcome ∈ a.history →
      a.ledger.Known msg.messageID := by
    refine h.invariant (I := fun a => a.Sound ∧ ∀ msg outcome,
      Occurrence.acked msg outcome ∈ a.history → a.ledger.Known msg.messageID) ?_ ?_
    · exact fun clock => ⟨App.sound_init cfg clock, fun msg outcome hmem => by cases hmem⟩
    · rintro a l b htraced ⟨hsound, hknown⟩ - hstep
      refine ⟨hsound.step htraced hstep, ?_⟩
      intro msg outcome hmem
      obtain ⟨p, node, new, hnew, hcauses⟩ := hstep.history
      rw [hnew, List.mem_append] at hmem
      rcases hmem with hmem | hmem
      · obtain ⟨job, attempt, hproc, rfl⟩ := hcauses _ hmem
        have hjob : Job.Sound a.ledger job := hsound.procs p _ hproc
        exact hjob.event.known.mono hstep.ledger
      · exact (hknown msg outcome hmem).mono hstep.ledger
  exact hboth.2 msg outcome hmsg

end Steps

end ControlPlane

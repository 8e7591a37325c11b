import ControlPlane.App.Lease
import ControlPlane.Store.DueWork

/-!
# Selected events

A relay batch lists events that are due and claims them one after the other, each claim
after the previous event was published or failed. The claim itself only looks at the
lease. An event that was listed can therefore be published, quarantined or postponed
before it is claimed; `RecordOutboxFailure` then even frees its lease. As long as no
failure is recorded for a selected event, every granted lease is on work that is due.
-/

namespace ControlPlane

open Transition

/-- The events that a job leaves to be claimed after its own. -/
def Job.rest : Job → List EventRecord
  | .request _ => []
  | .relay _ rest => rest

/-- The events that a process has yet to claim. -/
def Pc.selected : Pc → List UUID
  | .claiming _ rest => rest.map fun ev => ev.id
  | .publishing job _ | .sent job _ | .waiting job _ _ | .recording job _ | .marking job =>
      job.rest.map fun ev => ev.id
  | _ => []

/-- The event that an operation is started to claim. -/
def Op.selected : Op → List UUID
  | .claimLease id _ _ => [id]
  | _ => []

/-- The events that an action claims or leaves to be claimed. -/
def Action.selected : Action → List UUID
  | .call op pc => op.selected ++ pc.selected
  | .goto pc => pc.selected
  | .finish _ => []

/-- The events selected by the operation that runs in a slot. -/
def Slot.selected : Slot → List UUID
  | .running c _ => c.selected
  | .returned _ => []

/-- The events that the result in a slot lists. -/
def Slot.listed : Slot → List UUID
  | .running _ _ => []
  | .returned r => r.listed

/-- The slot runs a claim of the event. -/
def Slot.claims (id : UUID) : Slot → Bool
  | .running (.leaseUpdate claimed _ _) _ => decide (claimed = id)
  | _ => false

/-- The events that process `p` received or will receive from a finished scan and has yet
to claim. -/
def App.chosenBy (a : App) (p : ℕ) : List UUID :=
  match a.procs.get p with
  | some proc => proc.pc.selected ++ (a.store.slots.get p).elim [] Slot.listed
  | none => []

/-- The events that a relay batch has read from the pending partition and not yet
claimed. -/
def App.selected (a : App) : List UUID :=
  a.store.slots.rows.flatMap (fun row => row.2.selected) ++
    a.procs.rows.flatMap fun row => a.chosenBy row.1

/-- The statement records a failure of a selected event, or replays an event while a claim
of it is in flight. -/
def App.disturbs (a : App) : Call → Bool
  | .failureUpdate args _ _ => decide (args.eventID ∈ a.selected)
  | .replayBatch id _ _ _ => a.store.slots.rows.any fun row => row.2.claims id
  | _ => false

/-- The step does not let such a statement take effect. -/
def sparesSelected (a : App) : AppLabel → Bool
  | .exec p report _ => decide (report = .refused) || !(a.store.callOf p).any a.disturbs
  | _ => true

/-- What the processes and operations selected is due. -/
structure App.Due (a : App) : Prop where
  calls : ∀ p c since, a.store.slots.get p = some (.running c since) →
    c.Due a.store.db a.store.clock since
  chosen : ∀ p, ∀ id ∈ a.chosenBy p, a.store.db.Claimable id (toTimestamp a.store.clock)

section Selections

variable {cfg : Config} {job : Job} {events : List EventRecord}

@[simp] theorem relayNext_selected :
    (relayNext cfg events).selected = events.map fun ev => ev.id := by
  cases events <;> rfl

theorem Job.selected_attemptFailed {now : Time} {attempt : Attempt} {err : String} :
    (job.attemptFailed cfg now attempt err).selected = job.rest.map fun ev => ev.id := by
  rcases job.attemptFailed_cases cfg now attempt err with heq | ⟨next, wake, heq⟩ <;> rw [heq] <;>
    rfl

theorem Job.selected_afterFailure {err : String} {quarantined : Bool} {retries : ℤ} :
    (job.afterFailure cfg err quarantined retries).selected = job.rest.map fun ev => ev.id := by
  cases job with
  | request result => rfl
  | relay evt rest => exact relayNext_selected

theorem Job.selected_afterMark {marked : Bool} :
    (job.afterMark cfg marked).selected = job.rest.map fun ev => ev.id := by
  cases job with
  | request result => rfl
  | relay evt rest => exact relayNext_selected

/-- A process that resumes selects no event that it had not selected and was not given. -/
theorem Pc.resume_selected {pc : Pc} {r : Result} {action : Action}
    (h : pc.resume cfg r = some action) : action.selected ⊆ pc.selected ++ r.listed := by
  have hfinish : ∀ out, (Action.finish out).selected ⊆ pc.selected ++ r.listed :=
    fun out => List.nil_subset _
  have hleft : ∀ events : List EventRecord, action.selected = events.map (fun ev => ev.id) →
      pc.selected = events.map (fun ev => ev.id) → action.selected ⊆ pc.selected ++ r.listed := by
    intro events haction hpc
    rw [haction, ← hpc]
    exact List.subset_append_left _ _
  unfold Pc.resume at h
  split at h
  · split_ifs at h
    · cases h
      exact hfinish _
    · cases h
      exact List.nil_subset _
  · cases h
    exact hfinish _
  · cases h
    rw [relayNext_selected]
    exact List.subset_append_right _ _
  · cases h
    exact hfinish _
  · cases h
    exact hleft _ rfl rfl
  · cases h
    exact hleft _ relayNext_selected rfl
  · cases h
    exact hleft _ Job.selected_afterFailure rfl
  · cases h
    exact hleft _ Job.selected_afterFailure rfl
  · cases h
    exact hleft _ Job.selected_afterFailure rfl
  · cases h
    exact hleft _ Job.selected_afterMark rfl
  · cases h
    exact hleft _ Job.selected_afterMark rfl
  all_goals first
    | (cases h; exact hfinish _)
    | cases h

/-- A process that the store breaker refuses does not go on locally. -/
theorem Pc.resume_failed_ne_goto {pc pc' : Pc} (hguarded : pc.guarded = true) :
    pc.resume cfg .failed ≠ some (.goto pc') := by
  intro h
  cases pc with
  | marking job =>
    cases job with
    | request result => cases h
    | relay evt rest => cases rest <;> cases h
  | appending => cases h
  | listing => cases h
  | consuming consumer messageID => cases h
  | querying => cases h
  | _ => cases hguarded

/-- No task starts with an event to claim or with a local step. -/
theorem Task.action_selected (task : Task) (cfg : Config) (now : Time) :
    (task.action cfg now).selected = [] ∧ ∀ pc, task.action cfg now ≠ .goto pc := by
  cases task with
  | consume consumer messageID =>
    simp only [Task.action]
    split_ifs <;> simp [Action.selected, Op.selected, Pc.selected]
  | _ => simp [Task.action, Action.selected, Op.selected, Pc.selected]

end Selections

section Steps

variable {cfg : ℕ → Config} {a b : App} {p q node : ℕ} {action : Action} {o : Option Occurrence}
  {id : UUID}

theorem App.mem_chosenBy : id ∈ a.chosenBy p ↔ ∃ proc, a.procs.get p = some proc ∧
    (id ∈ proc.pc.selected ∨ ∃ r, a.store.slots.get p = some (.returned r) ∧ id ∈ r.listed) := by
  unfold App.chosenBy
  cases hproc : a.procs.get p with
  | none => simp
  | some proc =>
    cases hslot : a.store.slots.get p with
    | none => simp
    | some slot => cases slot <;> simp [Slot.listed]

theorem App.mem_selected_of_call {c : Call} {since : Time}
    (hslot : a.store.slots.get p = some (.running c since)) (hid : id ∈ c.selected) :
    id ∈ a.selected :=
  List.mem_append_left _ (List.mem_flatMap.mpr ⟨(p, _), Clustered.mem_rows.mpr hslot, hid⟩)

theorem App.mem_selected_of_chosenBy (hid : id ∈ a.chosenBy p) : id ∈ a.selected := by
  obtain ⟨proc, hproc, -⟩ := App.mem_chosenBy.mp hid
  exact List.mem_append_right _
    (List.mem_flatMap.mpr ⟨(p, proc), Clustered.mem_rows.mpr hproc, hid⟩)

/-- Whatever makes a process act, it selects no event anew, and only a process that exists
goes on locally. -/
theorem App.Cause.selected (hcause : App.Cause cfg a p node action o) :
    action.selected ⊆ a.chosenBy p ∧
      ∀ pc, action = .goto pc → ∃ proc, a.procs.get p = some proc := by
  have hold : ∀ proc, a.procs.get p = some proc → ∀ l ⊆ proc.pc.selected, l ⊆ a.chosenBy p :=
    fun proc hproc l hl id hid => App.mem_chosenBy.mpr ⟨proc, hproc, Or.inl (hl hid)⟩
  induction hcause with
  | spawned hproc =>
    rename_i task
    obtain ⟨hnone, hgoto⟩ := task.action_selected (cfg node) a.store.clock
    rw [hnone]
    exact ⟨List.nil_subset _, fun pc hpc => absurd hpc (hgoto pc)⟩
  | resumed hproc hslot hresume =>
    refine ⟨fun id hid => App.mem_chosenBy.mpr ⟨_, hproc, ?_⟩, fun _ _ => ⟨_, hproc⟩⟩
    rcases List.mem_append.mp (Pc.resume_selected hresume hid) with hid | hid
    · exact Or.inl hid
    · exact Or.inr ⟨_, hslot, hid⟩
  | sent hproc => exact ⟨hold _ hproc _ (List.Subset.refl _), fun _ _ => ⟨_, hproc⟩⟩
  | unsent hproc =>
    rw [Job.selected_attemptFailed]
    exact ⟨hold _ hproc _ (List.Subset.refl _), fun _ _ => ⟨_, hproc⟩⟩
  | acked hproc => exact ⟨hold _ hproc _ (List.Subset.refl _), fun _ _ => ⟨_, hproc⟩⟩
  | rejected hproc =>
    rw [Job.selected_attemptFailed]
    exact ⟨hold _ hproc _ (List.Subset.refl _), fun _ _ => ⟨_, hproc⟩⟩
  | fired hproc => exact ⟨hold _ hproc _ (List.Subset.refl _), fun _ _ => ⟨_, hproc⟩⟩
  | cancelled hproc => exact ⟨hold _ hproc _ (List.Subset.refl _), fun _ _ => ⟨_, hproc⟩⟩
  | refused hcause hguarded hresume ih =>
    refine ⟨fun id hid => ih.1 (List.mem_append_right _ ?_), ?_⟩
    · simpa only [Result.listed, List.append_nil] using Pc.resume_selected hresume hid
    · rintro pc rfl
      exact absurd hresume (Pc.resume_failed_ne_goto hguarded)

/-- Performing an action on due events keeps a state due. -/
theorem App.Due.acts (h : a.Due)
    (haction : ∀ id ∈ action.selected, a.store.db.Claimable id (toTimestamp a.store.clock))
    (hgoto : ∀ pc, action = .goto pc → ∃ proc, a.procs.get p = some proc)
    (hacts : a.Acts p node action b) : b.Due := by
  cases hacts with
  | finish =>
    refine ⟨h.calls, fun q id hid => ?_⟩
    obtain ⟨proc, hproc, hmem⟩ := App.mem_chosenBy.mp hid
    have hold := (Clustered.get_erase_cases hproc).2
    exact h.chosen q id (App.mem_chosenBy.mpr ⟨proc, hold, hmem⟩)
  | goto =>
    refine ⟨h.calls, fun q id hid => ?_⟩
    obtain ⟨proc, hproc, hmem⟩ := App.mem_chosenBy.mp hid
    rcases Clustered.get_put_cases hproc with ⟨rfl, rfl⟩ | ⟨-, hold⟩
    · obtain ⟨old, hold⟩ := hgoto _ rfl
      rcases hmem with hmem | hmem
      · exact haction id hmem
      · exact h.chosen q id (App.mem_chosenBy.mpr ⟨old, hold, Or.inr hmem⟩)
    · exact h.chosen q id (App.mem_chosenBy.mpr ⟨proc, hold, hmem⟩)
  | call hidle hfresh =>
    constructor
    · intro q c since hslot
      rcases Clustered.get_put_cases hslot with ⟨-, hnew⟩ | ⟨-, hold⟩
      · cases hnew
        refine Op.begin_due _ ?_
        rintro id owner leaseDuration rfl
        exact haction id List.mem_cons_self
      · exact h.calls q c since hold
    · intro q id hid
      obtain ⟨proc, hproc, hmem⟩ := App.mem_chosenBy.mp hid
      rcases Clustered.get_put_cases hproc with ⟨hq, rfl⟩ | ⟨-, hold⟩
      · rcases hmem with hmem | ⟨r, hr, -⟩
        · exact haction id (List.mem_append_right _ hmem)
        · exact absurd hq (System.returned_of_launch hr).1
      · refine h.chosen q id (App.mem_chosenBy.mpr ⟨proc, hold, hmem.imp_right ?_⟩)
        rintro ⟨r, hr, hmem⟩
        exact ⟨r, (System.returned_of_launch hr).2, hmem⟩

section Statements

variable {c : Call} {since : Time} {report : Report} {env : Env}

/-- A statement that takes effect in a step that spares selected events disturbs none. -/
theorem disturbs_of_sparesSelected (hslot : a.store.slots.get p = some (.running c since))
    (hok : sparesSelected a (.exec p report env) = true) (hreport : report ≠ .refused) :
    a.disturbs c = false := by
  have hcall := System.callOf_of_running hslot
  simpa only [sparesSelected, hcall, Option.any_some, Bool.or_eq_true, decide_eq_true_eq, hreport,
    false_or, Bool.not_eq_true'] using hok

/-- Such a statement spares every selected event. -/
theorem App.Due.spares (h : a.Due) (htraced : a.store.Traced)
    (hslot : a.store.slots.get p = some (.running c since)) (hquiet : a.disturbs c = false)
    (hid : id ∈ a.selected) (hopen : a.store.db.Open id) :
    c.Spares id (toTimestamp a.store.clock) := by
  obtain ⟨row, hrow, -⟩ := hopen
  refine ⟨htraced.newID_ne (System.callOf_of_running hslot) hrow, ?_, ?_⟩
  · rintro args retryCount firstFailed rfl rfl
    exact of_decide_eq_false hquiet hid
  · rintro letter now occurredAt rfl
    exact toTimestamp_mono (h.calls p _ since hslot)

/-- Such a statement spares an event whose claim is in flight, whatever the time. -/
theorem App.Due.spares_claim (h : a.Due) (htraced : a.store.Traced)
    (hslot : a.store.slots.get p = some (.running c since)) (hquiet : a.disturbs c = false)
    {owner : String} {leaseDuration : Duration} {since' : Time}
    (hclaim : a.store.slots.get q = some (.running (.leaseUpdate id owner leaseDuration) since'))
    (hopen : a.store.db.Open id) (t : Timestamp) : c.Spares id t := by
  have hspares := h.spares htraced hslot hquiet
    (App.mem_selected_of_call hclaim List.mem_cons_self) hopen
  refine ⟨hspares.insert, hspares.failure, ?_⟩
  rintro letter now occurredAt rfl
  have hrow := List.any_eq_false.mp hquiet (q, _) (Clustered.mem_rows.mpr hclaim)
  exact absurd (decide_eq_true rfl) hrow

/-- Executing a statement keeps a state due, if it disturbs no selected event. -/
theorem App.Due.perform (h : a.Due) (htraced : a.store.Traced)
    (hslot : a.store.slots.get p = some (.running c since)) (hnow : env.now ≤ a.store.clock)
    (hok : sparesSelected a (.exec p report env) = true) :
    App.Due { a with store := a.store.perform p c report env } := by
  have hkeep : ∀ id ∈ a.selected, a.store.db.Claimable id (toTimestamp a.store.clock) →
      (c.effect report env a.store.db).Claimable id (toTimestamp a.store.clock) := by
    intro id hid hclaimable
    refine Call.effect_keeps (P := fun db => db.Claimable id (toTimestamp a.store.clock))
      hclaimable fun hreport db' hm => ?_
    have hquiet := disturbs_of_sparesSelected hslot hok hreport
    exact hclaimable.mutate hm (h.spares htraced hslot hquiet hid hclaimable.isOpen)
  constructor
  · intro q d since' hd
    rcases System.running_perform_cases hd with ⟨-, hnext, rfl⟩ | ⟨-, hold⟩
    · exact (h.calls p c since hslot).leads hnow
        (fun n row hrow => htraced.store.open_of_page hrow) (Call.next_leads hnext)
    · have hdue := h.calls q d since' hold
      refine Call.effect_keeps (P := fun db => d.Due db a.store.clock since') hdue
        fun hreport db' hm => ?_
      have hquiet := disturbs_of_sparesSelected hslot hok hreport
      refine hdue.mutate hm ?_ ?_
      · intro id hid hopen
        exact h.spares htraced hslot hquiet (App.mem_selected_of_call hold hid) hopen
      · rintro id owner leaseDuration rfl hopen
        exact h.spares_claim htraced hslot hquiet hold hopen _
  · intro q id hid
    obtain ⟨proc, hproc, hmem⟩ := App.mem_chosenBy.mp hid
    have hold : id ∈ a.chosenBy q → (c.effect report env a.store.db).Claimable id
        (toTimestamp a.store.clock) := fun hmem =>
      hkeep id (App.mem_selected_of_chosenBy hmem) (h.chosen q id hmem)
    rcases hmem with hmem | ⟨r, hr, hmem⟩
    · exact hold (App.mem_chosenBy.mpr ⟨proc, hproc, Or.inl hmem⟩)
    · rcases System.returned_perform_cases hr with ⟨-, hnext⟩ | ⟨-, hr⟩
      · exact (h.calls p c since hslot).returns hnow (Call.next_returns hnext) id hmem
      · exact hold (App.mem_chosenBy.mpr ⟨proc, hproc, Or.inr ⟨r, hr, hmem⟩⟩)

end Statements

/-- Every step that spares selected events keeps a state due. -/
theorem App.Due.step {l : AppLabel} (h : a.Due) (htraced : a.store.Traced)
    (hok : sparesSelected a l = true) (hstep : a.Steps cfg l b) : b.Due := by
  cases hstep with
  | tick hclock =>
    refine ⟨fun q c since hslot => (h.calls q c since hslot).tick hclock, fun q id hid => ?_⟩
    exact (h.chosen q id hid).mono (toTimestamp_mono hclock)
  | exec hslot hsince hnow => exact h.perform htraced hslot hnow hok
  | act hcause hacts =>
    rename_i p node nodes action o
    obtain ⟨hselected, hgoto⟩ := hcause.selected
    have hlogged : App.Due { a with nodes, history := o.toList ++ a.history } := ⟨h.calls, h.chosen⟩
    exact hlogged.acts (fun id hid => h.chosen p id (hselected hid)) hgoto hacts
  | crash hstore =>
    rename_i p store
    have hslots : store.db = a.store.db ∧ store.clock = a.store.clock ∧
        ∀ q slot, store.slots.get q = some slot → a.store.slots.get q = some slot := by
      rcases hstore with rfl | hcrash
      · exact ⟨rfl, rfl, fun q slot hslot => hslot⟩
      · cases System.step_cases hcrash with
        | crash hslot => exact ⟨rfl, rfl, fun q slot hslot => (Clustered.get_erase_cases hslot).2⟩
    obtain ⟨hdb, hclock, hslots⟩ := hslots
    constructor
    · intro q c since hslot
      rw [hdb, hclock]
      exact h.calls q c since (hslots q _ hslot)
    · intro q id hid
      rw [hdb, hclock]
      obtain ⟨proc, hproc, hmem⟩ := App.mem_chosenBy.mp hid
      have hold := (Clustered.get_erase_cases hproc).2
      refine h.chosen q id (App.mem_chosenBy.mpr ⟨proc, hold, hmem.imp_right ?_⟩)
      rintro ⟨r, hr, hmem⟩
      exact ⟨r, hslots q _ hr, hmem⟩

/-- Every state is due that is reached by steps that spare selected events. -/
theorem App.Reachable.due (h : a.Reachable cfg fun a l => sparesSelected a l = true) : a.Due := by
  refine h.invariant ?_ ?_
  · intro clock
    constructor
    · intro p c since hslot
      cases hslot
    · intro p id hid
      cases hid
  · exact fun a l b htraced ha hok hstep => ha.step htraced hok hstep

end Steps

/-- **A lease is granted only on work that is still due.** In a run in which no failure is
recorded for a selected event and no event is replayed while a claim of it is in flight,
an event whose claim succeeds at time `now` is neither published nor quarantined, and its
next attempt is not after `now`. -/
theorem lease_granted_when_due {cfg : ℕ → Config} {a b : App}
    (h : a.Reachable cfg fun a l => sparesSelected a l = true) {p : ℕ} {id : UUID} {owner : String}
    {leaseDuration : Duration} {since : Time} {env : Env}
    (hslot : a.store.slots.get p = some (.running (.leaseUpdate id owner leaseDuration) since))
    (hclaim : a.step cfg (.exec p .ok env) = some b)
    (hgranted : b.store.slots.get p = some (.returned (.leased true))) :
    ¬a.store.db.Published id ∧ ∃ retry, a.store.db.outboxRetryState id = some retry ∧
      retry.quarantined = false ∧ ofTimestamp retry.nextAttemptAt ≤ env.now := by
  have hdue : a.store.db.Claimable id (toTimestamp since) := h.due.calls p _ since hslot
  obtain ⟨-, hsince, -⟩ := App.step_exec hslot hclaim
  obtain ⟨retry, -, hretry, -⟩ := Store.leaseFree_iff.mp (App.claim_granted hslot hclaim hgranted)
  obtain ⟨hquarantined, hnext⟩ := hdue.ready retry hretry
  refine ⟨?_, retry, hretry, hquarantined, ?_⟩
  · rintro ⟨row, hrow, hpublished⟩
    obtain ⟨row', hrow', hopen⟩ := hdue.isOpen
    have heq : row' = row := Option.some.inj (hrow'.symm.trans hrow)
    rw [hopen (heq ▸ hpublished)] at hretry
    cases hretry
  · exact ofTimestamp_le.mpr (hnext.trans (toTimestamp_mono hsince))

/-- The first of two relay batches claims the order that both have listed. -/
theorem lease_granted_when_due_orders : ∃ a b : App,
    a.Reachable fleetConfig (fun a l => sparesSelected a l = true) ∧
    a.store.slots.get 1 = some (rivalClaim 1) ∧
    a.step fleetConfig (.exec 1 .ok { now := 5000000 }) = some b ∧
    b.store.slots.get 1 = some (.returned (.leased true)) ∧
    ¬a.store.db.Published 1 ∧ ∃ retry, a.store.db.outboxRetryState 1 = some retry ∧
      retry.quarantined = false ∧ ofTimestamp retry.nextAttemptAt ≤ 5000000 := by
  obtain ⟨a, ha, htest⟩ := App.Reachable.of_play fleetConfig
    (fun a l => sparesSelected a l = true) sparesSelected (fun _ _ h => h) 5000000 rivalRelays
    (fun a => decide (a.store.slots.get 1 = some (rivalClaim 1)) &&
      (a.step fleetConfig (.exec 1 .ok { now := 5000000 })).any fun b : App =>
        decide (b.store.slots.get 1 = some (.returned (.leased true)))) (by decide)
  rw [Bool.and_eq_true, decide_eq_true_eq, Option.any_eq_true] at htest
  obtain ⟨hslot, b, hclaim, hgranted⟩ := htest
  rw [decide_eq_true_eq] at hgranted
  exact ⟨a, b, ha, hslot, hclaim, hgranted, lease_granted_when_due ha hslot hclaim hgranted⟩

/-- The first of two relay batches publishes the order that both have listed and marks it.
The request that appended the order then fails to publish it and records the failure. The
second relay batch still obtains the lease, although the order is published, quarantined
and not due. -/
theorem stale_claim_granted : ∃ a b : App, a.Reachable fleetConfig anyStep ∧
    a.store.slots.get 2 = some (rivalClaim 2) ∧
    a.step fleetConfig (.exec 2 .ok { now := 5000000 }) = some b ∧
    b.store.slots.get 2 = some (.returned (.leased true)) ∧
    a.store.db.Published 1 ∧ ∃ retry, a.store.db.outboxRetryState 1 = some retry ∧
      retry.quarantined = true ∧ 5000000 < ofTimestamp retry.nextAttemptAt := by
  obtain ⟨a, ha, htest⟩ := App.Reachable.of_play fleetConfig anyStep (fun _ _ => true)
    (fun _ _ _ => trivial) 5000000
    (rivalRelays ++ appExecs 1 1 5000000 ++ [.resume 1, .send 1, .ack 1 (.ok "SHIRO_EVENTS:1")] ++
      appExecs 1 2 5000000 ++ [.send 0, .ack 0 (.error "nats timeout")] ++ appExecs 0 2 5000000)
    (fun a => decide (a.store.slots.get 2 = some (rivalClaim 2)) &&
      ((a.step fleetConfig (.exec 2 .ok { now := 5000000 })).any fun b : App =>
        decide (b.store.slots.get 2 = some (.returned (.leased true)))) &&
      a.store.db.isPublished 1 &&
      (a.store.db.outboxRetryState 1).any fun retry : RetryRow =>
        decide (retry.quarantined = true ∧ 5000000 < ofTimestamp retry.nextAttemptAt)) (by decide)
  simp only [Bool.and_eq_true, decide_eq_true_eq, Option.any_eq_true] at htest
  obtain ⟨⟨⟨hslot, b, hclaim, hgranted⟩, hpublished⟩, hretry⟩ := htest
  exact ⟨a, b, ha, hslot, hclaim, hgranted, Store.isPublished_iff.mp hpublished, hretry⟩

end ControlPlane

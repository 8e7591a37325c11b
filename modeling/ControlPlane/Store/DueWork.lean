import ControlPlane.Store.Provenance
import ControlPlane.Store.EventRows

/-!
# Due work

`PendingOutboxEvents` reads the pending partition, loads one retry state after the other
and returns the events that were neither quarantined nor waiting at that time; its caller
claims them later. An operation is `Due` when what it selected so far is still open work.
Only a recorded failure, or a replay that reads the clock while a claim is in flight,
takes this away.
-/

namespace ControlPlane

/-- The event is in the outbox, and has no retry state once it is published. -/
def Store.Open (db : Store) (id : UUID) : Prop :=
  ∃ row, db.outboxEvents id = some row ∧
    (row.publishState = .published → db.outboxRetryState id = none)

/-- The event is open, and its retry state allows an attempt at time `t`. -/
structure Store.Claimable (db : Store) (id : UUID) (t : Timestamp) : Prop where
  isOpen : db.Open id
  ready : ∀ retry, db.outboxRetryState id = some retry →
    retry.quarantined = false ∧ retry.nextAttemptAt ≤ t

/-- The statement neither inserts the event, nor records a failure of it, nor replays it
with a time after `t`. -/
structure Call.Spares (c : Call) (id : UUID) (t : Timestamp) : Prop where
  insert : c.newID? ≠ some id
  failure : ∀ args retryCount firstFailed,
    c = .failureUpdate args retryCount firstFailed → args.eventID ≠ id
  replay : ∀ letter now occurredAt, c = .replayBatch id letter now occurredAt → toTimestamp now ≤ t

/-- The events that an operation read from the pending partition, or is about to claim. -/
def Call.selected : Call → List UUID
  | .pendingLoad _ row rest out | .pendingJudge _ row _ rest out =>
      (row :: rest).map (fun r => (ofLex r.1).2) ++ out.map (fun ev => ev.id)
  | .leaseUpdate id _ _ => [id]
  | _ => []

/-- The events that an operation hands to its caller for being claimed. -/
def Result.listed : Result → List UUID
  | .pending events => events.map fun ev => ev.id
  | _ => []

/-- What an operation selected is open work: scanned rows are open, a row whose retry
state was loaded is claimable from the time on at which it is not skipped, and accepted
rows are claimable now. A claim in flight was claimable when it started, and a replay
uses a time that has passed. -/
def Call.Due (db : Store) (clock since : Time) : Call → Prop
  | .pendingLoad _ row rest out => (∀ r ∈ row :: rest, db.Open (ofLex r.1).2) ∧
      ∀ ev ∈ out, db.Claimable ev.id (toTimestamp clock)
  | .pendingJudge _ row view rest out =>
      (∀ t, clock ≤ t → view.skipped t = false → db.Claimable (ofLex row.1).2 (toTimestamp t)) ∧
      (∀ r ∈ rest, db.Open (ofLex r.1).2) ∧ ∀ ev ∈ out, db.Claimable ev.id (toTimestamp clock)
  | .leaseUpdate id _ _ => db.Claimable id (toTimestamp since)
  | .replayBatch _ _ now _ => now ≤ clock
  | _ => True

section Events

variable {db db' : Store} {env : Env} {c : Call} {id : UUID} {t t' : Timestamp}

theorem Store.Claimable.mono (h : db.Claimable id t) (ht : t ≤ t') : db.Claimable id t' := by
  refine ⟨h.isOpen, fun retry hretry => ?_⟩
  obtain ⟨hquarantined, hnext⟩ := h.ready retry hretry
  exact ⟨hquarantined, hnext.trans ht⟩

theorem Call.Spares.mono (h : c.Spares id t) (ht : t ≤ t') : c.Spares id t' :=
  ⟨h.insert, h.failure, fun letter now occurredAt hc => (h.replay letter now occurredAt hc).trans ht⟩

/-- An open event stays open under statements that spare it. -/
theorem Store.Open.mutate (h : db.Open id) (hm : Call.Mutation env db c db')
    (hspares : c.Spares id t) : db'.Open id := by
  obtain ⟨row, hrow, hopen⟩ := h
  cases hm.touches id with
  | untouched hsame hretry => exact ⟨row, hsame.trans hrow, fun hp => hretry.trans (hopen hp)⟩
  | inserted => exact absurd rfl hspares.insert
  | marked hmarked _ _ hnone => exact ⟨_, hmarked, fun _ => hnone⟩
  | leased hsame hold =>
    refine ⟨row, hsame.trans hrow, fun hp => ?_⟩
    rw [hopen hp] at hold
    cases hold
  | failed hid => exact absurd hid (hspares.failure _ _ _ rfl)
  | buried _ hsame hretry => exact ⟨row, hsame.trans hrow, fun hp => hretry.trans (hopen hp)⟩
  | replayed hreplayed hpending =>
    refine ⟨_, hreplayed, fun hp => ?_⟩
    rw [hpending] at hp
    cases hp
  | discarded hsame hretry => exact ⟨row, hsame.trans hrow, fun hp => hretry.trans (hopen hp)⟩

/-- A claimable event stays claimable under statements that spare it. -/
theorem Store.Claimable.mutate (h : db.Claimable id t) (hm : Call.Mutation env db c db')
    (hspares : c.Spares id t) : db'.Claimable id t := by
  refine ⟨h.isOpen.mutate hm hspares, fun retry hretry => ?_⟩
  cases hm.touches id with
  | untouched _ hsame => exact h.ready retry (hsame ▸ hretry)
  | inserted => exact absurd rfl hspares.insert
  | marked _ _ _ hnone =>
    rw [hnone] at hretry
    cases hretry
  | leased _ hold _ _ hnew =>
    rw [hnew, Option.some.injEq] at hretry
    subst hretry
    obtain ⟨hquarantined, hnext⟩ := h.ready _ hold
    exact ⟨hquarantined, hnext⟩
  | failed hid => exact absurd hid (hspares.failure _ _ _ rfl)
  | buried _ _ hsame => exact h.ready retry (hsame ▸ hretry)
  | replayed _ _ hnew hquarantined hnext =>
    rw [hnew, Option.some.injEq] at hretry
    subst hretry
    exact ⟨hquarantined, hnext.le.trans (hspares.replay _ _ _ rfl)⟩
  | discarded _ hsame => exact h.ready retry (hsame ▸ hretry)

/-- An open event whose loaded retry state is not skipped is claimable. -/
theorem Store.Open.claimable (h : db.Open id) {now : Time}
    (hskip : (db.loadRetryState id).skipped now = false) : db.Claimable id (toTimestamp now) := by
  refine ⟨h, fun retry hretry => ?_⟩
  simp only [Store.loadRetryState, hretry, RetryView.skipped, Bool.or_eq_false_iff,
    decide_eq_false_iff_not, not_lt] at hskip
  exact ⟨hskip.1.1, ofTimestamp_le.mp hskip.1.2⟩

/-- The rows of the pending partition are open. -/
theorem Store.Traced.open_of_page {ins : List (EventRecord × UUID)} (h : db.Traced ins) {n : ℕ}
    {row : PendingRow} (hrow : row ∈ db.outboxByState.page n) : db.Open (ofLex row.1).2 := by
  obtain ⟨out, hout, hpending, -⟩ := (h.index row.1 row.2).mp (Clustered.get_of_mem_page hrow)
  refine ⟨out, hout, fun hpublished => ?_⟩
  rw [hpending] at hpublished
  cases hpublished

end Events

section Operations

variable {db db' : Store} {env : Env} {c d : Call} {clock clock' since : Time} {report : Report}

/-- Time passing keeps an operation due. -/
theorem Call.Due.tick (h : d.Due db clock since) (hclock : clock ≤ clock') :
    d.Due db clock' since := by
  have hmono := toTimestamp_mono hclock
  cases d with
  | pendingLoad limit row rest out => exact ⟨h.1, fun ev hev => (h.2 ev hev).mono hmono⟩
  | pendingJudge limit row view rest out =>
    exact ⟨fun t ht => h.1 t (hclock.trans ht), h.2.1, fun ev hev => (h.2.2 ev hev).mono hmono⟩
  | leaseUpdate id owner leaseDuration => exact h
  | replayBatch id letter now occurredAt => exact le_trans h hclock
  | _ => trivial

/-- A statement that spares what an operation selected keeps the operation due. -/
theorem Call.Due.mutate (h : d.Due db clock since) (hm : Call.Mutation env db c db')
    (hspares : ∀ id ∈ d.selected, db.Open id → c.Spares id (toTimestamp clock))
    (hclaim : ∀ id owner leaseDuration, d = .leaseUpdate id owner leaseDuration → db.Open id →
      c.Spares id (toTimestamp since)) : d.Due db' clock since := by
  have hkeep : ∀ id ∈ d.selected, ∀ t, clock ≤ t → db.Claimable id (toTimestamp t) →
      db'.Claimable id (toTimestamp t) := fun id hid t ht hclaimable =>
    hclaimable.mutate hm ((hspares id hid hclaimable.isOpen).mono (toTimestamp_mono ht))
  have hopen : ∀ id ∈ d.selected, db.Open id → db'.Open id := fun id hid hopen =>
    hopen.mutate hm (hspares id hid hopen)
  cases d with
  | pendingLoad limit row rest out =>
    refine ⟨fun r hr => hopen _ ?_ (h.1 r hr), fun ev hev => hkeep _ ?_ clock le_rfl (h.2 ev hev)⟩
    · exact List.mem_append_left _ (List.mem_map_of_mem hr)
    · exact List.mem_append_right _ (List.mem_map_of_mem hev)
  | pendingJudge limit row view rest out =>
    refine ⟨fun t ht hskip => hkeep _ ?_ t ht (h.1 t ht hskip), fun r hr => hopen _ ?_ (h.2.1 r hr),
      fun ev hev => hkeep _ ?_ clock le_rfl (h.2.2 ev hev)⟩
    · exact List.mem_cons_self
    · exact List.mem_append_left _ (List.mem_map_of_mem (List.mem_cons_of_mem row hr))
    · exact List.mem_append_right _ (List.mem_map_of_mem hev)
  | leaseUpdate id owner leaseDuration =>
    have hclaimable : db.Claimable id (toTimestamp since) := h
    exact hclaimable.mutate hm (hclaim _ _ _ rfl hclaimable.isOpen)
  | replayBatch id letter now occurredAt => exact h
  | _ => trivial

/-- A scan only reads. -/
theorem Call.effect_scan (hc : (c.exec env db).1 = db) : c.effect report env db = db := by
  unfold Call.effect
  split_ifs
  · rfl
  · exact hc

theorem Call.exec_pendingJudge (limit : ℕ) (row : PendingRow) (view : RetryView)
    (rest : List PendingRow) (out : List EventRecord) :
    ((Call.pendingJudge limit row view rest out).exec env db).1 = db := by
  simp only [Call.exec]
  split_ifs <;> rfl

/-- The accepted row joins the events that the scan has selected. -/
theorem Call.Due.accept {limit : ℕ} {row : PendingRow} {view : RetryView} {rest : List PendingRow}
    {out : List EventRecord} (h : (Call.pendingJudge limit row view rest out).Due db clock since)
    (hnow : env.now ≤ clock) (hskip : view.skipped env.now = false) :
    ∀ ev ∈ out ++ [pendingRecord row view.retryCount],
      db.Claimable ev.id (toTimestamp clock) := by
  intro ev hev
  rcases List.mem_append.mp hev with hev | hev
  · exact h.2.2 ev hev
  · rw [List.mem_singleton.mp hev]
    refine h.1 clock le_rfl ?_
    simp only [RetryView.skipped, Bool.or_eq_false_iff, decide_eq_false_iff_not, not_lt] at hskip ⊢
    exact ⟨⟨hskip.1.1, hskip.1.2.trans hnow⟩, hskip.2.trans hnow⟩

/-- A due operation goes on to a due statement. -/
theorem Call.Due.leads (h : c.Due db clock since) (hnow : env.now ≤ clock)
    (hpage : ∀ n, ∀ row ∈ db.outboxByState.page n, db.Open (ofLex row.1).2)
    (hd : Call.Leads env db c d) : d.Due (c.effect report env db) clock clock := by
  cases hd with
  | pendingFirst hrows =>
    rw [Call.effect_scan rfl]
    refine ⟨fun r hr => hpage _ r (hrows ▸ hr), fun ev hev => ?_⟩
    cases hev
  | pendingJudge =>
    rw [Call.effect_scan rfl]
    refine ⟨fun t _ hskip => ?_, fun r hr => h.1 r (List.mem_cons_of_mem _ hr), h.2⟩
    exact (h.1 _ List.mem_cons_self).claimable hskip
  | pendingSkip =>
    rw [Call.effect_scan rfl]
    exact ⟨fun r hr => h.1 r (List.mem_cons_of_mem _ hr), h.2⟩
  | pendingReject hskip =>
    rw [Call.effect_scan (Call.exec_pendingJudge ..)]
    exact ⟨h.2.1, h.2.2⟩
  | pendingAccept hskip =>
    rw [Call.effect_scan (Call.exec_pendingJudge ..)]
    exact ⟨h.2.1, h.accept hnow hskip⟩
  | replayMissing hrow => exact hnow
  | replayBatch hrow => exact hnow
  | cleanup _ hcleaning => cases d <;> trivial
  | _ => trivial

/-- The events that a due operation returns are claimable. -/
theorem Call.Due.returns {r : Result} (h : c.Due db clock since) (hnow : env.now ≤ clock)
    (hr : Call.Returns env db c r) :
    ∀ id ∈ r.listed, (c.effect report env db).Claimable id (toTimestamp clock) := by
  have hlisted : ∀ events : List EventRecord,
      (∀ ev ∈ events, db.Claimable ev.id (toTimestamp clock)) →
      ∀ id ∈ (Result.pending events).listed, db.Claimable id (toTimestamp clock) := by
    intro events hevents id hid
    obtain ⟨ev, hev, rfl⟩ := List.mem_map.mp hid
    exact hevents ev hev
  cases hr with
  | pendingSkip =>
    rw [Call.effect_scan rfl]
    exact hlisted _ h.2
  | pendingReject =>
    rw [Call.effect_scan (Call.exec_pendingJudge ..)]
    exact hlisted _ h.2.2
  | pendingAccept hskip =>
    rw [Call.effect_scan (Call.exec_pendingJudge ..)]
    exact hlisted _ (h.accept hnow hskip)
  | silent hsilent =>
    cases r with
    | pending events => cases hsilent
    | _ => nofun
  | _ => nofun

/-- An operation starts due, if it is not a claim of an event that is not due. -/
theorem Op.begin_due (op : Op) (hclaim : ∀ id owner leaseDuration,
    op = .claimLease id owner leaseDuration → db.Claimable id (toTimestamp clock)) :
    (op.begin clock).Due db clock clock := by
  cases op with
  | append ev newID =>
    simp only [Op.begin]
    split_ifs <;> trivial
  | claimLease id owner leaseDuration => exact hclaim _ _ _ rfl
  | _ => trivial

end Operations

end ControlPlane

import ControlPlane.Store.Statements
import ControlPlane.Store.Copies

/-!
# Where the copies of an event come from

The local variables of an operation hold copies of events too: rows that it read and
will write or return. The invariant of this file traces every copy, in a table or in
an operation, back to the batch that inserted the event. Identifiers are drawn once and
used by one append, which makes the origin of a copy unique.
-/

namespace ControlPlane

open Transition

/-- Every copy in the local variables of an operation is a copy of an inserted event. -/
def Call.Traced (ins : List (EventRecord × UUID)) : Call → Prop
  | .appendPublished _ existing => existing.Traced ins
  | .markBatch id _ occurredAt => ∃ content, Recorded ins id content (toTimestamp occurredAt)
  | .pendingLoad _ row rest out =>
      (∀ r ∈ row :: rest, PendingRow.Traced ins r) ∧ ∀ ev ∈ out, EventRecord.Traced ins ev
  | .pendingJudge _ row _ rest out =>
      (∀ r ∈ row :: rest, PendingRow.Traced ins r) ∧ ∀ ev ∈ out, EventRecord.Traced ins ev
  | .failureBatch args _ _ content => RecordedContent ins args.eventID content
  | .replayOccurred id letter => RecordedContent ins id letter.toContent
  | .replayBatch id letter _ occurredAt => Recorded ins id letter.toContent (toTimestamp occurredAt)
  | _ => True

/-- Every event that an operation returns is a copy of an inserted event. -/
def Result.Traced (ins : List (EventRecord × UUID)) : Result → Prop
  | .appended res => res.event.Traced ins
  | .pending events => ∀ ev ∈ events, EventRecord.Traced ins ev
  | _ => True

/-- The result or the call with which an operation goes on is traced. -/
def Next.Traced (ins : List (EventRecord × UUID)) : Next → Prop
  | .call c => c.Traced ins
  | .done r => r.Traced ins

/-- A slot is traced when its call or its result is. -/
def Slot.Traced (ins : List (EventRecord × UUID)) : Slot → Prop
  | .running c _ => c.Traced ins
  | .returned r => r.Traced ins

/-- The identifier under which an append in progress will insert its event. -/
def Call.newID? : Call → Option UUID
  | .appendKey _ newID | .appendIndex _ newID | .appendBatch _ newID => some newID
  | _ => none

/-- The provenance invariant. Identifiers of appends in progress are drawn, not
yet used, and belong to one client each. -/
structure System.Traced (s : System) : Prop where
  store : s.db.Traced s.inserted
  slots : ∀ p slot, s.slots.get p = some slot → slot.Traced s.inserted
  returned : ∀ ev res, (ev, res) ∈ s.returns → res.event.Traced s.inserted
  nodup : (s.inserted.map Prod.snd).Nodup
  drawn : ∀ ev id, (ev, id) ∈ s.inserted → id ∈ s.generated
  fresh : ∀ p c id, s.callOf p = some c → c.newID? = some id →
    id ∈ s.generated ∧ id ∉ s.inserted.map Prod.snd
  owner : ∀ p q c d id, s.callOf p = some c → s.callOf q = some d → c.newID? = some id →
    d.newID? = some id → p = q

section Growth

variable {ins ins' : List (EventRecord × UUID)}

/-- Provenance of a call survives further insertions. -/
theorem Call.Traced.mono {c : Call} (h : c.Traced ins) (hins : ∀ e ∈ ins, e ∈ ins') :
    c.Traced ins' := by
  cases c with
  | appendPublished ev existing => exact Recorded.mono h hins
  | markBatch id brokerMessageID occurredAt =>
    obtain ⟨content, hrec⟩ := h
    exact ⟨content, hrec.mono hins⟩
  | pendingLoad limit row rest out =>
    exact ⟨fun r hr => Recorded.mono (h.1 r hr) hins, fun ev hev => Recorded.mono (h.2 ev hev) hins⟩
  | pendingJudge limit row view rest out =>
    exact ⟨fun r hr => Recorded.mono (h.1 r hr) hins, fun ev hev => Recorded.mono (h.2 ev hev) hins⟩
  | failureBatch args retryCount now content => exact RecordedContent.mono h hins
  | replayOccurred id letter => exact RecordedContent.mono h hins
  | replayBatch id letter now occurredAt => exact Recorded.mono h hins
  | _ => trivial

/-- Provenance of a result survives further insertions. -/
theorem Result.Traced.mono {r : Result} (h : r.Traced ins) (hins : ∀ e ∈ ins, e ∈ ins') :
    r.Traced ins' := by
  cases r with
  | appended res => exact Recorded.mono h hins
  | pending events => exact fun ev hev => Recorded.mono (h ev hev) hins
  | _ => trivial

theorem Slot.Traced.mono {slot : Slot} (h : slot.Traced ins) (hins : ∀ e ∈ ins, e ∈ ins') :
    slot.Traced ins' := by
  cases slot with
  | running c since => exact Call.Traced.mono h hins
  | returned r => exact Result.Traced.mono h hins

theorem Next.Traced.slot {next : Next} {now : Time} (h : next.Traced ins) :
    (next.slot now).Traced ins := by
  cases next <;> exact h

end Growth

section Operations

variable {ins : List (EventRecord × UUID)} {db db' : Store} {c : Call} {env : Env}

/-- Every statement of a traced call keeps the tables traced. -/
theorem Store.Traced.mutate (h : db.Traced ins) (hnodup : (ins.map Prod.snd).Nodup)
    (hc : c.Traced ins) (hfresh : ∀ id, c.newID? = some id → id ∉ ins.map Prod.snd)
    (hm : Call.Mutation env db c db') : db'.Traced (c.inserts .ok ++ ins) := by
  cases hm with
  | read hread => rwa [hread]
  | insertEvent => exact h.insertEvent (hfresh _ rfl)
  | markPublished =>
    obtain ⟨content, hrec⟩ := hc
    exact h.markPublished hnodup hrec
  | insertDeadLetter => exact h.insertDeadLetter hc
  | replay => exact h.replay hnodup hc
  | deleteDeadLetter => exact h.deleteDeadLetter
  | _ => exact h.of_eq rfl rfl rfl rfl rfl rfl

/-- The record that a relay scan returns for a traced row is traced. -/
theorem PendingRow.Traced.record {row : PendingRow} (h : PendingRow.Traced ins row) (n : ℤ) :
    (pendingRecord row n).Traced ins := by
  unfold PendingRow.Traced at h
  simpa [EventRecord.Traced, pendingRecord] using h

/-- The next statement of a traced call is traced. -/
theorem Call.Traced.leads {d : Call} (h : db.Traced ins) (hnodup : (ins.map Prod.snd).Nodup)
    (hc : c.Traced ins) (hd : Call.Leads env db c d) : d.Traced ins := by
  cases hd with
  | appendPublished hrow => simpa [Call.Traced, EventRecord.Traced] using h.byId _ _ hrow
  | markBatch hrow =>
    rename_i row
    exact ⟨row.toContent, by simpa using h.outbox _ _ hrow⟩
  | pendingFirst hrows =>
    rename_i row rest
    refine ⟨?_, by simp⟩
    intro r hr
    rw [← hrows] at hr
    obtain ⟨out, hout, -, ht, hcontent⟩ := (h.index r.1 r.2).mp (Clustered.get_of_mem_page hr)
    rw [PendingRow.Traced, ← ht, ← hcontent]
    exact h.outbox _ _ hout
  | pendingJudge => exact hc
  | pendingSkip => exact ⟨fun r hr => hc.1 r (List.mem_cons_of_mem _ hr), hc.2⟩
  | pendingReject => exact ⟨fun r hr => hc.1 r (List.mem_cons_of_mem _ hr), hc.2⟩
  | pendingAccept =>
    refine ⟨fun r hr => hc.1 r (List.mem_cons_of_mem _ hr), ?_⟩
    intro ev hev
    rcases List.mem_append.mp hev with hev | hev
    · exact hc.2 ev hev
    · rw [List.mem_singleton.mp hev]
      exact (hc.1 _ List.mem_cons_self).record _
  | failureBatch hrow => exact ⟨_, h.outbox _ _ hrow⟩
  | replayOccurred hletter => exact h.letterById _ _ hletter
  | replayMissing hrow =>
    obtain ⟨t, ev, hev, -⟩ := hc
    obtain ⟨row, hsome⟩ := (h.present ev _ hev).2
    rw [hrow] at hsome
    cases hsome
  | replayBatch hrow =>
    have hrec := h.outbox _ _ hrow
    have hcontent := RecordedContent.unique hnodup hc ⟨_, hrec⟩
    simpa [Call.Traced, hcontent] using hrec
  | cleanup _ hcleaning => cases d <;> trivial
  | _ => trivial

/-- Only an append batch that was not refused inserts an event. -/
theorem Call.inserts_cases (c : Call) (report : Report) : c.inserts report = [] ∨
    ∃ ev newID, c = .appendBatch ev newID ∧ report ≠ .refused ∧
      c.inserts report = [(ev, newID)] := by
  cases c with
  | appendBatch ev newID =>
    cases report with
    | refused => exact Or.inl rfl
    | ok => exact Or.inr ⟨ev, newID, rfl, by decide, rfl⟩
    | lost => exact Or.inr ⟨ev, newID, rfl, by decide, rfl⟩
  | _ => exact Or.inl rfl

/-- An inserted event was inserted by an append batch under its own identifier. -/
theorem Call.mem_inserts {report : Report} {ev : EventRecord} {id : UUID}
    (h : (ev, id) ∈ c.inserts report) : c = .appendBatch ev id ∧ report ≠ .refused := by
  rcases c.inserts_cases report with hnil | ⟨ev', newID, rfl, hreport, heq⟩
  · rw [hnil] at h
    cases h
  · rw [heq, List.mem_singleton, Prod.mk.injEq] at h
    obtain ⟨rfl, rfl⟩ := h
    exact ⟨rfl, hreport⟩

@[simp] theorem Call.inserts_refused (c : Call) : c.inserts .refused = [] := by
  cases c <;> rfl

/-- A statement that took effect inserts the same event whether or not the driver
acknowledged it. -/
theorem Call.inserts_of_ne_refused {report : Report} (h : report ≠ .refused) :
    c.inserts report = c.inserts .ok := by
  cases c <;> cases report <;> first | rfl | exact absurd rfl h

/-- A call reports the result with which it returns. -/
theorem Call.next_of_mem_reports {next : Next} {ev : EventRecord} {res : AppendResult}
    (h : (ev, res) ∈ c.reports next) : next = .done (.appended res) := by
  cases next with
  | call d => cases h
  | done r =>
    cases r with
    | appended found =>
      simp only [Call.reports, List.mem_map, Prod.mk.injEq] at h
      obtain ⟨ev', -, -, rfl⟩ := h
      rfl
    | _ => cases h

/-- The result or the next statement of a traced call is traced. -/
theorem Call.Traced.next (h : db.Traced ins) (hnodup : (ins.map Prod.snd).Nodup)
    (hc : c.Traced ins) (report : Report) (env : Env) :
    (c.next report env db).Traced (c.inserts report ++ ins) := by
  have hgrow : ∀ e ∈ ins, e ∈ c.inserts report ++ ins := fun e he => List.mem_append_right _ he
  cases hnext : c.next report env db with
  | call d => exact (hc.leads h hnodup (Call.next_leads hnext)).mono hgrow
  | done r =>
    cases Call.next_returns hnext with
    | inserted =>
      rw [Call.report_of_appended hnext]
      exact ⟨_, List.mem_cons_self, rfl, rfl⟩
    | found => exact Recorded.mono hc hgrow
    | pendingNone => exact fun ev hev => by cases hev
    | pendingSkip => exact fun ev hev => Recorded.mono (hc.2 ev hev) hgrow
    | pendingReject => exact fun ev hev => Recorded.mono (hc.2 ev hev) hgrow
    | pendingAccept =>
      intro ev hev
      rcases List.mem_append.mp hev with hev | hev
      · exact Recorded.mono (hc.2 ev hev) hgrow
      · rw [List.mem_singleton.mp hev]
        exact Recorded.mono ((hc.1 _ List.mem_cons_self).record _) hgrow
    | leased => trivial
    | silent hsilent => cases r <;> trivial

/-- An append keeps its identifier until it inserts its event. -/
theorem Call.Leads.newID {d : Call} {id : UUID} (h : Call.Leads env db c d)
    (hid : d.newID? = some id) : c.newID? = some id ∧ c.inserts .ok = [] := by
  cases h with
  | appendIndex => exact ⟨hid, rfl⟩
  | appendBatch => exact ⟨hid, rfl⟩
  | cleanup _ hcleaning => cases d <;> simp [Call.newID?, Call.cleaning] at hid hcleaning
  | _ => cases hid

end Operations

/-- An operation starts with the identifier that it draws. -/
theorem Op.begin_newID {op : Op} {now : Time} {id : UUID} (h : (op.begin now).newID? = some id) :
    id ∈ op.draws := by
  cases op with
  | append ev newID =>
    simp only [Op.begin] at h
    split_ifs at h <;> simpa [Call.newID?, Op.draws, eq_comm] using h
  | _ => cases h

/-- An operation starts without a copy of an event. -/
theorem Op.begin_traced (op : Op) (now : Time) (ins : List (EventRecord × UUID)) :
    (op.begin now).Traced ins := by
  cases op with
  | append ev newID =>
    simp only [Op.begin]
    split_ifs <;> trivial
  | _ => trivial

/-- The empty system is traced. -/
theorem System.traced_init (clock : Time) : (System.init clock).Traced where
  store := by
    constructor
    case index => exact fun key content => by simp [System.init, Store.empty]
    all_goals intros; simp_all [System.init, Store.empty]
  slots := by intro p slot h; cases h
  returned := by intro ev res h; cases h
  nodup := List.nodup_nil
  drawn := by intro ev id h; cases h
  fresh := by intro p c id h; cases h
  owner := by intro p q c d id h; cases h

/-- Starting an operation keeps provenance: its identifier has never been drawn. -/
theorem System.Traced.launch {s : System} (h : s.Traced) {p : ℕ} {op : Op}
    (hfresh : ∀ id ∈ op.draws, id ∉ s.generated) : (s.launch p op).Traced where
  store := h.store
  slots := by
    intro q slot hslot
    rcases Clustered.get_put_cases hslot with ⟨-, rfl⟩ | ⟨-, hold⟩
    · exact op.begin_traced _ _
    · exact h.slots q slot hold
  returned := h.returned
  nodup := h.nodup
  drawn := fun ev id hmem => List.mem_append_right _ (h.drawn ev id hmem)
  fresh := by
    intro q c id hc hid
    rcases System.callOf_launch_cases hc with ⟨-, rfl⟩ | ⟨-, hc⟩
    · have hdraw := Op.begin_newID hid
      refine ⟨List.mem_append_left _ hdraw, ?_⟩
      intro hmem
      obtain ⟨⟨ev, i⟩, hins, rfl⟩ := List.mem_map.mp hmem
      exact hfresh _ hdraw (h.drawn ev _ hins)
    · obtain ⟨hgen, hins⟩ := h.fresh q c id hc hid
      exact ⟨List.mem_append_right _ hgen, hins⟩
  owner := by
    have hother : ∀ q d id, s.callOf q = some d → d.newID? = some id →
        (op.begin s.clock).newID? ≠ some id := fun q d id hd hid hnew =>
      hfresh id (Op.begin_newID hnew) (h.fresh q d id hd hid).1
    intro q r c d id hc hd hcid hdid
    rcases System.callOf_launch_cases hc with ⟨hq, rfl⟩ | ⟨-, hc⟩ <;>
      rcases System.callOf_launch_cases hd with ⟨hr, rfl⟩ | ⟨-, hd⟩
    · exact hq.trans hr.symm
    · exact absurd hcid (hother r d id hd hdid)
    · exact absurd hdid (hother q c id hc hcid)
    · exact h.owner q r c d id hc hd hcid hdid

/-- Executing a statement keeps provenance. -/
theorem System.Traced.perform {s : System} (h : s.Traced) {p : ℕ} {c : Call} {since : Time}
    {report : Report} {env : Env} (hslot : s.slots.get p = some (.running c since)) :
    (s.perform p c report env).Traced := by
  have hcall := System.callOf_of_running hslot
  have hc : c.Traced s.inserted := h.slots p _ hslot
  have hgrow : ∀ e ∈ s.inserted, e ∈ c.inserts report ++ s.inserted :=
    fun e he => List.mem_append_right _ he
  have hnew : ∀ ev id, (ev, id) ∈ c.inserts report → c.newID? = some id := by
    intro ev id hmem
    rw [(Call.mem_inserts hmem).1, Call.newID?]
  have hnext : ∀ d id, c.next report env s.db = .call d → d.newID? = some id →
      c.newID? = some id ∧ c.inserts report = [] := by
    intro d id hd hid
    obtain ⟨hcid, hnil⟩ := (Call.next_leads hd).newID hid
    refine ⟨hcid, ?_⟩
    by_cases hr : report = .refused
    · rw [hr, Call.inserts_refused]
    · rw [Call.inserts_of_ne_refused hr, hnil]
  constructor
  · rcases c.effect_mutation report env s.db with ⟨rfl, heq⟩ | ⟨hr, hm⟩
    · simpa [System.perform, heq] using h.store
    · rw [System.perform, Call.inserts_of_ne_refused hr]
      exact h.store.mutate h.nodup hc (fun id hid => (h.fresh p c id hcall hid).2) hm
  · intro q slot hq
    rcases Clustered.get_put_cases hq with ⟨-, rfl⟩ | ⟨-, hold⟩
    · exact (hc.next h.store h.nodup report env).slot
    · exact (h.slots q slot hold).mono hgrow
  · intro ev res hmem
    rcases List.mem_append.mp hmem with hnew | hold
    · have hnext' := hc.next h.store h.nodup report env
      rw [Call.next_of_mem_reports hnew] at hnext'
      exact hnext'
    · exact (h.returned ev res hold).mono hgrow
  · rcases c.inserts_cases report with hnil | ⟨ev, newID, rfl, -, heq⟩
    · simpa [System.perform, hnil] using h.nodup
    · simp only [System.perform, heq, List.singleton_append, List.map_cons, List.nodup_cons]
      exact ⟨(h.fresh p _ newID hcall rfl).2, h.nodup⟩
  · intro ev id hmem
    rcases List.mem_append.mp hmem with hmem | hmem
    · exact (h.fresh p c id hcall (hnew ev id hmem)).1
    · exact h.drawn ev id hmem
  · intro q d id hd hid
    rcases System.callOf_perform_cases hd with ⟨-, hd⟩ | ⟨hq, hd⟩
    · obtain ⟨hcid, hnil⟩ := hnext d id hd hid
      simpa [System.perform, hnil] using h.fresh p c id hcall hcid
    · obtain ⟨hgen, hins⟩ := h.fresh q d id hd hid
      refine ⟨hgen, ?_⟩
      simp only [System.perform, List.map_append, List.mem_append, not_or]
      refine ⟨?_, hins⟩
      intro hmem
      obtain ⟨⟨ev, i⟩, hins', rfl⟩ := List.mem_map.mp hmem
      exact hq (h.owner q p d c _ hd hcall hid (hnew ev _ hins'))
  · intro q r d e id hd he hdid heid
    rcases System.callOf_perform_cases hd with ⟨hq, hd⟩ | ⟨hq, hd⟩ <;>
      rcases System.callOf_perform_cases he with ⟨hr, he⟩ | ⟨hr, he⟩
    · exact hq.trans hr.symm
    · have hpr := h.owner p r c e id hcall he (hnext d id hd hdid).1 heid
      exact absurd hpr.symm hr
    · have hqp := h.owner q p d c id hd hcall hdid (hnext e id he heid).1
      exact absurd hqp hq
    · exact h.owner q r d e id hd he hdid heid

/-- No append in progress is about to insert an event that is in the outbox. -/
theorem System.Traced.newID_ne {s : System} (h : s.Traced) {p : ℕ} {c : Call} {id : UUID}
    {row : OutboxRow} (hcall : s.callOf p = some c) (hrow : s.db.outboxEvents id = some row) :
    c.newID? ≠ some id := by
  intro hnew
  obtain ⟨ev, hev, -⟩ := h.store.outbox id row hrow
  exact (h.fresh p c id hcall hnew).2 (List.mem_map.mpr ⟨_, hev, rfl⟩)

/-- Every step keeps provenance. -/
theorem System.Traced.step {s s' : System} {l : Label} (h : s.Traced) (hstep : s.Steps l s') :
    s'.Traced := by
  cases hstep with
  | tick hclock => exact ⟨h.store, h.slots, h.returned, h.nodup, h.drawn, h.fresh, h.owner⟩
  | start hidle hfresh => exact h.launch hfresh
  | exec hslot hsince hnow => exact h.perform hslot
  | crash hslot =>
    refine ⟨h.store, ?_, h.returned, h.nodup, h.drawn,
      fun q d id hd => h.fresh q d id (System.callOf_of_crash hd).2, fun q r d e id hd he =>
        h.owner q r d e id (System.callOf_of_crash hd).2 (System.callOf_of_crash he).2⟩
    exact fun q slot hq => h.slots q slot (Clustered.get_erase_cases hq).2

/-- Provenance holds in every state that a run of the store reaches. -/
theorem System.Reachable.traced {ok : System → Label → Prop} {s : System} (h : s.Reachable ok) :
    s.Traced :=
  h.invariant System.traced_init fun _ _ _ ha _ hstep => ha.step hstep

end ControlPlane

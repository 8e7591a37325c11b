import ControlPlane.Store.Calls
import Mathlib.Data.List.Nodup

/-!
# The copies of an event

An event is written once, by the batch of its append, and then copied between six
tables by later operations. `Store.Traced` traces every copy in a table back to that
batch. Each operation keeps it, provided that what the operation writes is itself a
copy of the inserted event.
-/

namespace ControlPlane

/-- The event `id` was inserted with these columns. -/
def Recorded (ins : List (EventRecord × UUID)) (id : UUID) (content : Content)
    (occurredAt : Timestamp) : Prop :=
  ∃ ev, (ev, id) ∈ ins ∧ ev.toContent = content ∧ toTimestamp ev.occurredAt = occurredAt

/-- The event `id` was inserted with this content, at whatever time. -/
def RecordedContent (ins : List (EventRecord × UUID)) (id : UUID) (content : Content) : Prop :=
  ∃ occurredAt, Recorded ins id content occurredAt

/-- A record handed to the application carries the columns of the inserted event. -/
def EventRecord.Traced (ins : List (EventRecord × UUID)) (ev : EventRecord) : Prop :=
  Recorded ins ev.id ev.toContent (toTimestamp ev.occurredAt)

/-- A scanned row of the pending partition carries the columns of the inserted event. -/
def PendingRow.Traced (ins : List (EventRecord × UUID)) (row : PendingRow) : Prop :=
  Recorded ins (ofLex row.1).2 row.2 (ofLex row.1).1

/-- The pending partition holds exactly the rows of `outbox_events` whose state is
pending, under their time and with their content. -/
def IndexAgrees (outbox : UUID → Option OutboxRow) (index : Clustered EventKey Content) : Prop :=
  ∀ key content, index.get key = some content ↔
    ∃ row, outbox (ofLex key).2 = some row ∧ row.publishState = .pending ∧
      row.occurredAt = (ofLex key).1 ∧ row.toContent = content

/-- Every copy in the tables is a copy of an inserted event, every inserted event
has its main rows, and the pending partition agrees with `outbox_events`. -/
structure Store.Traced (ins : List (EventRecord × UUID)) (db : Store) : Prop where
  byId : ∀ id row, db.eventsById id = some row → Recorded ins id row.toContent row.occurredAt
  byStream : ∀ stream key body, (db.eventsByStream stream).get key = some body →
    Recorded ins (ofLex key).2 ⟨body, stream⟩ (ofLex key).1
  outbox : ∀ id row, db.outboxEvents id = some row → Recorded ins id row.toContent row.occurredAt
  present : ∀ ev id, (ev, id) ∈ ins →
    (∃ row, db.eventsById id = some row) ∧ ∃ row, db.outboxEvents id = some row
  index : IndexAgrees db.outboxEvents db.outboxByState
  letterByTime : ∀ key letter, db.deadLettersByTime.get key = some letter →
    RecordedContent ins (ofLex key).2 letter.toContent
  letterById : ∀ id letter, db.deadLettersById id = some letter →
    RecordedContent ins id letter.toContent

section Growth

variable {ins ins' : List (EventRecord × UUID)} {id : UUID} {content : Content} {t : Timestamp}

/-- What was inserted stays inserted. -/
theorem Recorded.mono (h : Recorded ins id content t) (hins : ∀ e ∈ ins, e ∈ ins') :
    Recorded ins' id content t := by
  obtain ⟨ev, hev, hcontent, ht⟩ := h
  exact ⟨ev, hins _ hev, hcontent, ht⟩

theorem RecordedContent.mono (h : RecordedContent ins id content) (hins : ∀ e ∈ ins, e ∈ ins') :
    RecordedContent ins' id content := by
  obtain ⟨t, ht⟩ := h
  exact ⟨t, ht.mono hins⟩

/-- Identifiers determine the inserted event. -/
theorem eq_of_mem_inserted (hnodup : (ins.map Prod.snd).Nodup) {ev ev' : EventRecord}
    (h : (ev, id) ∈ ins) (h' : (ev', id) ∈ ins) : ev = ev' :=
  congrArg Prod.fst (List.inj_on_of_nodup_map hnodup h h' rfl)

/-- The columns of an event are determined by its identifier. -/
theorem Recorded.unique (hnodup : (ins.map Prod.snd).Nodup) {content' : Content} {t' : Timestamp}
    (h : Recorded ins id content t) (h' : Recorded ins id content' t') :
    content = content' ∧ t = t' := by
  obtain ⟨ev, hev, rfl, rfl⟩ := h
  obtain ⟨ev', hev', rfl, rfl⟩ := h'
  rw [eq_of_mem_inserted hnodup hev hev']
  exact ⟨rfl, rfl⟩

/-- The content of an event is determined by its identifier. -/
theorem RecordedContent.unique (hnodup : (ins.map Prod.snd).Nodup) {content' : Content}
    (h : RecordedContent ins id content) (h' : RecordedContent ins id content') :
    content = content' := by
  obtain ⟨t, ht⟩ := h
  obtain ⟨t', ht'⟩ := h'
  exact (ht.unique hnodup ht').1

end Growth

section Index

variable {outbox : UUID → Option OutboxRow} {index : Clustered EventKey Content} {id : UUID}

/-- Making an event pending under its own time keeps the partition in agreement. -/
theorem IndexAgrees.put (h : IndexAgrees outbox index) (row : OutboxRow)
    (hstate : row.publishState = .pending)
    (htime : ∀ old, outbox id = some old → old.occurredAt = row.occurredAt) :
    IndexAgrees (Function.update outbox id (some row))
      (index.put (toLex (row.occurredAt, id)) row.toContent) := by
  intro key content
  rw [Clustered.get_put]
  by_cases hid : (ofLex key).2 = id
  · rw [hid, Function.update_self]
    by_cases hkey : key = toLex (row.occurredAt, id)
    · subst hkey
      simp [hstate]
    · rw [if_neg hkey, h key content, hid]
      constructor
      · rintro ⟨old, hold, -, ht, -⟩
        exact absurd (Prod.ext (ht.symm.trans (htime old hold)) hid) hkey
      · rintro ⟨new, hnew, -, ht, -⟩
        cases hnew
        exact absurd (Prod.ext ht.symm hid) hkey
  · have hkey : key ≠ toLex (row.occurredAt, id) := by
      rintro rfl
      exact hid rfl
    rw [if_neg hkey, h key content, Function.update_of_ne hid]

/-- Publishing an event and deleting its row keeps the partition in agreement. -/
theorem IndexAgrees.erase {row : OutboxRow} {t : Timestamp} (h : IndexAgrees outbox index)
    (hstate : row.publishState = .published)
    (htime : ∀ old, outbox id = some old → old.occurredAt = t) :
    IndexAgrees (Function.update outbox id (some row)) (index.erase (toLex (t, id))) := by
  intro key content
  rw [Clustered.get_erase]
  by_cases hid : (ofLex key).2 = id
  · rw [hid, Function.update_self]
    have hnone : ¬∃ new, some row = some new ∧ new.publishState = .pending ∧
        new.occurredAt = (ofLex key).1 ∧ new.toContent = content := by
      rintro ⟨new, hnew, hpending, -⟩
      cases hnew
      rw [hstate] at hpending
      cases hpending
    by_cases hkey : key = toLex (t, id)
    · simp [hkey, hstate]
    · rw [if_neg hkey, h key content, hid]
      refine iff_of_false ?_ hnone
      rintro ⟨old, hold, -, ht, -⟩
      exact hkey (Prod.ext (ht.symm.trans (htime old hold)) hid)
  · have hkey : key ≠ toLex (t, id) := by
      rintro rfl
      exact hid rfl
    rw [if_neg hkey, h key content, Function.update_of_ne hid]

end Index

section Tables

variable {ins : List (EventRecord × UUID)} {db db' : Store} {c : Call} {env : Env}

/-- Operations that touch none of the tables with event content keep provenance. -/
theorem Store.Traced.of_eq (h : db.Traced ins) (hbyId : db'.eventsById = db.eventsById)
    (hbyStream : db'.eventsByStream = db.eventsByStream)
    (houtbox : db'.outboxEvents = db.outboxEvents) (hindex : db'.outboxByState = db.outboxByState)
    (hbyTime : db'.deadLettersByTime = db.deadLettersByTime)
    (hletter : db'.deadLettersById = db.deadLettersById) : db'.Traced ins where
  byId := hbyId ▸ h.byId
  byStream := hbyStream ▸ h.byStream
  outbox := houtbox ▸ h.outbox
  present := by rw [hbyId, houtbox]; exact h.present
  index := by rw [houtbox, hindex]; exact h.index
  letterByTime := hbyTime ▸ h.letterByTime
  letterById := hletter ▸ h.letterById

/-- The batch of an append introduces the event that its rows are traced to. -/
theorem Store.Traced.insertEvent (h : db.Traced ins) {ev : EventRecord} {newID : UUID}
    (hfresh : newID ∉ ins.map Prod.snd) :
    (db.insertEvent ev newID).Traced ((ev, newID) :: ins) := by
  have hgrow : ∀ e ∈ ins, e ∈ (ev, newID) :: ins := fun e he => List.mem_cons_of_mem _ he
  have hself : Recorded ((ev, newID) :: ins) newID ev.toContent (toTimestamp ev.occurredAt) :=
    ⟨ev, List.mem_cons_self, rfl, rfl⟩
  have hnone : db.outboxEvents newID = none := by
    by_contra hne
    obtain ⟨row, hrow⟩ := Option.ne_none_iff_exists'.mp hne
    obtain ⟨old, hold, -⟩ := h.outbox newID row hrow
    exact hfresh (List.mem_map.mpr ⟨_, hold, rfl⟩)
  constructor
  · intro id row hrow
    rcases update_some_cases hrow with ⟨rfl, rfl⟩ | ⟨-, hold⟩
    · exact hself
    · exact (h.byId id row hold).mono hgrow
  · intro stream key body hbody
    simp only [Store.insertEvent] at hbody
    by_cases hstream : stream = ev.stream
    · rw [hstream, Function.update_self] at hbody
      rcases Clustered.get_put_cases hbody with ⟨rfl, rfl⟩ | ⟨-, hold⟩
      · rw [hstream]
        exact hself
      · rw [hstream]
        exact (h.byStream _ key body hold).mono hgrow
    · rw [Function.update_of_ne hstream] at hbody
      exact (h.byStream stream key body hbody).mono hgrow
  · intro id row hrow
    rcases update_some_cases hrow with ⟨rfl, rfl⟩ | ⟨-, hold⟩
    · exact hself
    · exact (h.outbox id row hold).mono hgrow
  · intro old id hmem
    rcases List.mem_cons.mp hmem with heq | hold
    · rw [Prod.mk.injEq] at heq
      rw [heq.2]
      exact ⟨⟨_, Function.update_self ..⟩, _, Function.update_self ..⟩
    · obtain ⟨hbyId, houtbox⟩ := h.present old id hold
      exact ⟨exists_update_some _ hbyId, exists_update_some _ houtbox⟩
  · refine h.index.put (db.upsertPending newID ev.toContent (toTimestamp ev.occurredAt))
      rfl ?_
    intro old hold
    rw [hnone] at hold
    cases hold
  · exact fun key letter hletter => (h.letterByTime key letter hletter).mono hgrow
  · exact fun id letter hletter => (h.letterById id letter hletter).mono hgrow

/-- A new value for the outbox row of an event that keeps its columns. -/
theorem Store.Traced.outbox_update (h : db.Traced ins) (id : UUID) (row : OutboxRow)
    (hrow : Recorded ins id row.toContent row.occurredAt) :
    (∀ i r, Function.update db.outboxEvents id (some row) i = some r →
      Recorded ins i r.toContent r.occurredAt) ∧
    ∀ ev i, (ev, i) ∈ ins → (∃ r, db.eventsById i = some r) ∧
      ∃ r, Function.update db.outboxEvents id (some row) i = some r := by
  constructor
  · intro i r hr
    rcases update_some_cases hr with ⟨rfl, rfl⟩ | ⟨-, hold⟩
    · exact hrow
    · exact h.outbox i r hold
  · intro ev i hmem
    obtain ⟨hbyId, houtbox⟩ := h.present ev i hmem
    exact ⟨hbyId, exists_update_some row houtbox⟩

/-- The batch of `MarkOutboxPublished` keeps provenance when it deletes the row
under the time at which the event occurred. -/
theorem Store.Traced.markPublished (h : db.Traced ins) (hnodup : (ins.map Prod.snd).Nodup)
    {id : UUID} {brokerMessageID : String} {publishedAt occurredAt : Timestamp} {content : Content}
    (hrec : Recorded ins id content occurredAt) :
    (db.markPublished id brokerMessageID publishedAt occurredAt).Traced ins := by
  obtain ⟨ev, hev⟩ : ∃ ev, (ev, id) ∈ ins := hrec.imp fun _ h => h.1
  obtain ⟨row, hrow⟩ := (h.present ev id hev).2
  have hupdate := h.outbox_update id
    { row with publishState := .published, publishedAt, brokerMessageId := brokerMessageID }
    (h.outbox id row hrow)
  have hdb : db.markPublished id brokerMessageID publishedAt occurredAt =
      { db with
        outboxEvents := Function.update db.outboxEvents id (some { row with
          publishState := .published, publishedAt, brokerMessageId := brokerMessageID })
        outboxByState := db.outboxByState.erase (toLex (occurredAt, id))
        outboxRetryState := Function.update db.outboxRetryState id none } := by
    simp [Store.markPublished, hrow]
  rw [hdb]
  refine ⟨h.byId, h.byStream, hupdate.1, hupdate.2, ?_, h.letterByTime, h.letterById⟩
  refine h.index.erase rfl ?_
  intro old hold
  exact ((h.outbox id old hold).unique hnodup hrec).2

/-- The batch of `ReplayDeadLetter` keeps provenance when it re-inserts the event
with its own columns. -/
theorem Store.Traced.replay (h : db.Traced ins) (hnodup : (ins.map Prod.snd).Nodup) {id : UUID}
    {letter : DeadLetterById} {now occurredAt : Timestamp}
    (hrec : Recorded ins id letter.toContent occurredAt) :
    (db.replay id letter now occurredAt).Traced ins := by
  have hupdate := h.outbox_update id (db.upsertPending id letter.toContent occurredAt) hrec
  refine ⟨h.byId, h.byStream, hupdate.1, hupdate.2, ?_, ?_, ?_⟩
  · refine h.index.put (db.upsertPending id letter.toContent occurredAt) rfl ?_
    intro old hold
    exact ((h.outbox id old hold).unique hnodup hrec).2
  · exact fun key other hother => h.letterByTime key other (Clustered.get_erase_cases hother).2
  · exact fun i other hother => h.letterById i other (update_none_cases hother).2

/-- The batch of `RecordOutboxFailure` keeps provenance. -/
theorem Store.Traced.insertDeadLetter (h : db.Traced ins) {id : UUID} {t : Timestamp}
    {letter : DeadLetter} (hrec : RecordedContent ins id letter.toContent) :
    (db.insertDeadLetter id t letter).Traced ins := by
  refine ⟨h.byId, h.byStream, h.outbox, h.present, h.index, ?_, ?_⟩
  · intro key other hother
    rcases Clustered.get_put_cases hother with ⟨rfl, rfl⟩ | ⟨-, hold⟩
    · exact hrec
    · exact h.letterByTime key other hold
  · intro i other hother
    rcases update_some_cases hother with ⟨rfl, rfl⟩ | ⟨-, hold⟩
    · exact hrec
    · exact h.letterById i other hold

/-- Deleting a dead letter keeps provenance. -/
theorem Store.Traced.deleteDeadLetter (h : db.Traced ins) {id : UUID} {t : Timestamp} :
    (db.deleteDeadLetter t id).Traced ins := by
  refine ⟨h.byId, h.byStream, h.outbox, h.present, h.index, ?_, ?_⟩
  · exact fun key other hother => h.letterByTime key other (Clustered.get_erase_cases hother).2
  · exact fun i other hother => h.letterById i other (update_none_cases hother).2

/-- The three event tables hold exactly the inserted events. -/
theorem Store.Traced.stored_iff (h : db.Traced ins) (id : UUID) :
    ((∃ row, db.eventsById id = some row) ∨ (∃ row, db.outboxEvents id = some row) ∨
        ∃ stream t body, (db.eventsByStream stream).get (toLex (t, id)) = some body) ↔
      id ∈ ins.map Prod.snd := by
  have hmem : ∀ content t, Recorded ins id content t → id ∈ ins.map Prod.snd := by
    rintro content t ⟨ev, hev, -⟩
    exact List.mem_map.mpr ⟨_, hev, rfl⟩
  constructor
  · rintro (⟨row, hrow⟩ | ⟨row, hrow⟩ | ⟨stream, t, body, hbody⟩)
    · exact hmem _ _ (h.byId id row hrow)
    · exact hmem _ _ (h.outbox id row hrow)
    · exact hmem _ _ (h.byStream stream _ body hbody)
  · intro hid
    obtain ⟨⟨ev, i⟩, hev, rfl⟩ := List.mem_map.mp hid
    exact Or.inl (h.present ev i hev).1

end Tables

end ControlPlane

import ControlPlane.Journal
import ControlPlane.Store.Provenance

/-!
# The event tables as a journal

Of all the statements that the clients of the store execute, three batches decide what the
event tables say: the batch of an append, the batch that marks an event as published and the
batch of a replay. Whatever the interleaving and whichever statements are refused or lose their
acknowledgement, the tables are the journal of the batches that took effect. What
`RecentEvents` returns is read off that journal.
-/

namespace ControlPlane

open Transition

/-- The journal of the events, with their columns and times. -/
abbrev EventJournal := Journal UUID (Content × Timestamp)

abbrev Batch := Journal.Entry UUID (Content × Timestamp)

/-- The entry that the statement of a call makes. -/
def Call.batch : Call → Option Batch
  | .appendBatch ev newID => some (.add newID (ev.toContent, toTimestamp ev.occurredAt))
  | .markBatch id _ _ => some (.finish id)
  | .replayBatch id _ _ _ => some (.requeue id)
  | _ => none

/-- The batches that take effect in a step. -/
def System.batches (s : System) : Label → List Batch
  | .exec p report _ =>
      if report = .refused then [] else ((s.callOf p).bind Call.batch).toList
  | _ => []

/-- The event tables say what the journal says. -/
structure Store.Represents (db : Store) (j : EventJournal) : Prop where
  byId : ∀ id, (db.eventsById id).map (fun row => (row.toContent, row.occurredAt)) = j.value id
  outbox : ∀ id, (db.outboxEvents id).map (fun row => (row.toContent, row.occurredAt)) = j.value id
  pending : ∀ id row, db.outboxEvents id = some row →
    (row.publishState = .pending ↔ j.waiting id = true)
  byStream : ∀ stream t id body, (db.eventsByStream stream).get (toLex (t, id)) = some body ↔
    j.value id = some (⟨body, stream⟩, t)

section Batches

variable {ins : List (EventRecord × UUID)} {db db' : Store} {j : EventJournal} {c : Call}
  {env : Env}

theorem Store.represents_empty : Store.empty.Represents Journal.empty where
  byId := fun _ => rfl
  outbox := fun _ => rfl
  pending := fun _ _ h => by cases h
  byStream := by
    intro stream t id body
    constructor
    · intro h
      cases h
    · intro h
      cases h

/-- A change to other tables leaves the journal as it is. -/
theorem Store.Represents.of_eq (h : db.Represents j) (hbyId : db'.eventsById = db.eventsById)
    (hbyStream : db'.eventsByStream = db.eventsByStream)
    (houtbox : db'.outboxEvents = db.outboxEvents) : db'.Represents j where
  byId := by rw [hbyId]; exact h.byId
  outbox := by rw [houtbox]; exact h.outbox
  pending := by rw [houtbox]; exact h.pending
  byStream := by rw [hbyStream]; exact h.byStream

/-- The batch of an append adds one row to one stream. -/
theorem Store.insertEvent_byStream (db : Store) (ev : EventRecord) (newID : UUID) (stream : String)
    (t : Timestamp) (id : UUID) :
    ((db.insertEvent ev newID).eventsByStream stream).get (toLex (t, id)) =
      if stream = ev.stream ∧ t = toTimestamp ev.occurredAt ∧ id = newID then some ev.toBody
      else (db.eventsByStream stream).get (toLex (t, id)) := by
  simp only [Store.insertEvent]
  by_cases hstream : stream = ev.stream
  · rw [hstream, Function.update_self, Clustered.get_put]
    have hkey : toLex (t, id) = toLex (toTimestamp ev.occurredAt, newID) ↔
        t = toTimestamp ev.occurredAt ∧ id = newID := by
      rw [toLex_inj, Prod.mk.injEq]
    simp only [hkey, true_and]
  · rw [Function.update_of_ne hstream, if_neg fun h => hstream h.1]

theorem Store.Represents.insertEvent {ev : EventRecord} {newID : UUID} (h : db.Represents j)
    (hnone : j.value newID = none) : (db.insertEvent ev newID).Represents
      (j.write newID (ev.toContent, toTimestamp ev.occurredAt)) where
  byId := by
    intro id
    by_cases hid : id = newID
    · subst hid
      simp [Store.insertEvent, Journal.write]
    · simp [Store.insertEvent, Journal.write, Function.update_of_ne hid, h.byId]
  outbox := by
    intro id
    by_cases hid : id = newID
    · subst hid
      simp [Store.insertEvent, Store.upsertPending, Journal.write]
    · simp [Store.insertEvent, Journal.write, Function.update_of_ne hid, h.outbox]
  pending := by
    intro id row hrow
    rcases update_some_cases hrow with ⟨rfl, rfl⟩ | ⟨hid, hold⟩
    · simp [Store.upsertPending, Journal.write]
    · simp [Journal.write, Function.update_of_ne hid, h.pending id row hold]
  byStream := by
    intro stream t id body
    rw [Store.insertEvent_byStream]
    by_cases hid : id = newID
    · subst hid
      have hold : (db.eventsByStream stream).get (toLex (t, id)) ≠ some body := by
        rw [Ne, h.byStream, hnone]
        exact fun hsome => by cases hsome
      simp only [Journal.write, Function.update_self]
      constructor
      · intro hget
        split_ifs at hget with hrow
        · obtain ⟨rfl, rfl, -⟩ := hrow
          cases hget
          rfl
        · exact absurd hget hold
      · intro hvalue
        have hpair := Option.some.inj hvalue
        have hcontent : ev.toContent = ⟨body, stream⟩ := congrArg Prod.fst hpair
        have ht : toTimestamp ev.occurredAt = t := congrArg Prod.snd hpair
        have hstream : ev.stream = stream := congrArg Content.stream hcontent
        have hbody : ev.toBody = body := congrArg Content.toBody hcontent
        rw [if_pos ⟨hstream.symm, ht.symm, trivial⟩, hbody]
    · simp [hid, h.byStream, Journal.write]

theorem Store.Represents.markPublished {id : UUID} {row : OutboxRow} {brokerMessageID : String}
    {publishedAt occurredAt : Timestamp} (h : db.Represents j)
    (hrow : db.outboxEvents id = some row) (hknown : (j.value id).isSome = true) :
    (db.markPublished id brokerMessageID publishedAt occurredAt).Represents
      (j.setWaiting id false hknown) where
  byId := h.byId
  outbox := by
    intro i
    by_cases hi : i = id
    · subst hi
      have hold := h.outbox i
      rw [hrow] at hold
      simpa [Store.markPublished, hrow, Journal.setWaiting] using hold
    · simp [Store.markPublished, Journal.setWaiting, Function.update_of_ne hi, h.outbox]
  pending := by
    intro i r hr
    rcases update_some_cases hr with ⟨rfl, rfl⟩ | ⟨hi, hold⟩
    · simp [Journal.setWaiting]
    · simp [Journal.setWaiting, Function.update_of_ne hi, h.pending i r hold]
  byStream := h.byStream

theorem Store.Represents.replay {id : UUID} {letter : DeadLetterById} {now occurredAt : Timestamp}
    (h : db.Represents j) (hvalue : j.value id = some (letter.toContent, occurredAt))
    (hknown : (j.value id).isSome = true) :
    (db.replay id letter now occurredAt).Represents (j.setWaiting id true hknown) where
  byId := h.byId
  outbox := by
    intro i
    by_cases hi : i = id
    · subst hi
      simp [Store.replay, Store.upsertPending, Journal.setWaiting, hvalue]
    · simp [Store.replay, Journal.setWaiting, Function.update_of_ne hi, h.outbox]
  pending := by
    intro i r hr
    rcases update_some_cases hr with ⟨rfl, rfl⟩ | ⟨hi, hold⟩
    · simp [Store.upsertPending, Journal.setWaiting]
    · simp [Journal.setWaiting, Function.update_of_ne hi, h.pending i r hold]
  byStream := h.byStream

/-- A recorded event has its columns in the journal. -/
theorem Store.Represents.value_of_recorded {id : UUID} {content : Content} {t : Timestamp}
    (h : db.Represents j) (htraced : db.Traced ins) (hnodup : (ins.map Prod.snd).Nodup)
    (hrec : Recorded ins id content t) : j.value id = some (content, t) := by
  have ⟨ev, hev, _⟩ := hrec
  obtain ⟨row, hrow⟩ := (htraced.present ev id hev).1
  obtain ⟨hcontent, ht⟩ := (htraced.byId id row hrow).unique hnodup hrec
  rw [← h.byId id, hrow, Option.map_some, hcontent, ht]

/-- A new identifier has no columns in the journal. -/
theorem Store.Represents.value_of_fresh {id : UUID} (h : db.Represents j) (htraced : db.Traced ins)
    (hfresh : id ∉ ins.map Prod.snd) : j.value id = none := by
  rw [← h.byId id]
  cases hrow : db.eventsById id with
  | none => rfl
  | some row =>
    obtain ⟨ev, hev, -⟩ := htraced.byId id row hrow
    exact absurd (List.mem_map.mpr ⟨_, hev, rfl⟩) hfresh

/-- A statement that makes no entry leaves the event tables as they are. -/
theorem Store.Represents.mutate (h : db.Represents j) (hc : c.batch = none)
    (hm : Call.Mutation env db c db') : db'.Represents j := by
  cases hm with
  | read hread => exact h
  | insertEvent => cases hc
  | markPublished => cases hc
  | replay => cases hc
  | _ => exact h.of_eq rfl rfl rfl

/-- A statement that takes effect adds its entry to the journal. -/
theorem Store.Represents.exec (h : db.Represents j) (htraced : db.Traced ins)
    (hnodup : (ins.map Prod.snd).Nodup) (hc : c.Traced ins)
    (hfresh : ∀ id, c.newID? = some id → id ∉ ins.map Prod.snd) (env : Env) :
    ∃ j', (c.exec env db).1.Represents j' ∧ match c.batch with
      | some e => j.step e = some j'
      | none => j' = j := by
  cases c with
  | appendBatch ev newID =>
    have hnone := h.value_of_fresh htraced (hfresh newID rfl)
    refine ⟨_, h.insertEvent hnone, ?_⟩
    simp [Call.batch, Journal.step, hnone]
  | markBatch id brokerMessageID occurredAt =>
    obtain ⟨content, hrec⟩ := hc
    have hvalue := h.value_of_recorded htraced hnodup hrec
    have hknown : (j.value id).isSome = true := by simp [hvalue]
    obtain ⟨ev, hev, -⟩ := hrec
    obtain ⟨row, hrow⟩ := (htraced.present ev id hev).2
    refine ⟨_, h.markPublished hrow hknown, ?_⟩
    simp [Call.batch, Journal.step, hknown]
  | replayBatch id letter now occurredAt =>
    have hvalue := h.value_of_recorded htraced hnodup hc
    have hknown : (j.value id).isSome = true := by simp [hvalue]
    refine ⟨_, h.replay hvalue hknown, ?_⟩
    simp [Call.batch, Journal.step, hknown]
  | _ => exact ⟨j, h.mutate rfl (Call.exec_mutation _ _ _), rfl⟩

end Batches

section Runs

variable {s s' : System} {l : Label} {log : List Batch}

/-- A step adds the batches that take effect in it to the journal. -/
theorem Store.Represents.step {j : EventJournal} (h : s.db.Represents j) (htraced : s.Traced)
    (hj : Journal.replay log = some j) (hstep : s.Steps l s') :
    ∃ j', Journal.replay (s.batches l ++ log) = some j' ∧ s'.db.Represents j' := by
  cases hstep with
  | tick hclock => exact ⟨j, hj, h⟩
  | start hidle hfresh => exact ⟨j, hj, h⟩
  | crash hslot => exact ⟨j, hj, h⟩
  | exec hslot hsince hnow =>
    rename_i p report env c since
    have hcall := System.callOf_of_running hslot
    simp only [System.batches, hcall, Option.bind_some, System.perform, Call.effect]
    split_ifs with hreport
    · exact ⟨j, hj, h⟩
    · obtain ⟨j', hrep, hbatch⟩ := h.exec htraced.store htraced.nodup (htraced.slots p _ hslot)
        (fun id hid => (htraced.fresh p c id hcall hid).2) env
      refine ⟨j', ?_, hrep⟩
      cases hc : c.batch with
      | none =>
        rw [hc] at hbatch
        rw [hbatch]
        exact hj
      | some e =>
        rw [hc] at hbatch
        exact Option.bind_eq_some_iff.mpr ⟨j, hj, hbatch⟩

/-- The states that runs of the store reach from an empty database, with the batches that took
effect on the way, the latest first. -/
def System.ReachableBy (log : List Batch) (s : System) : Prop :=
  ∃ clock, Run (logged System.step System.batches) anyStep (System.init clock, []) (s, log)

theorem System.ReachableBy.represents (h : s.ReachableBy log) :
    s.Traced ∧ ∃ j, Journal.replay log = some j ∧ s.db.Represents j := by
  obtain ⟨clock, hrun⟩ := h
  refine hrun.invariant (I := fun x => x.1.Traced ∧
    ∃ j, Journal.replay x.2 = some j ∧ x.1.db.Represents j) ?_ ?_
  · exact ⟨System.traced_init clock, _, rfl, Store.represents_empty⟩
  · rintro ⟨a, log⟩ l b ⟨htraced, j, hj, hrep⟩ - hab
    obtain ⟨b', hb', rfl⟩ := Option.map_eq_some_iff.mp hab
    exact ⟨htraced.step (System.step_cases hb'),
      hrep.step htraced hj (System.step_cases hb')⟩

end Runs

/-- What the one statement of `RecentEvents` reads. -/
def Store.recentEvents (db : Store) (stream : String) (limit : ℤ) : List EventRecord :=
  ((db.eventsByStream stream).rows.reverse.take (recentLimit limit)).map (recentRecord stream)

/-- An order that occurs at the given second. -/
def orderAt (second : ℤ) : EventRecord where
  stream := "orders"
  subject := "events.orders"
  eventType := "order.created"
  payload := "A-1001"
  occurredAt := second * 1000000000

/-- An order is appended and marked as published. -/
def firstOrder : List Label :=
  [.start 0 (.append (orderAt 1) 7), .exec 0 .ok { now := 0 }, .start 0 (.mark 7 "ORDERS:1"),
    .exec 0 .ok { now := 0 }, .exec 0 .lost { now := 0 }]

/-- A later order is appended. -/
def secondOrder : List Label := [.start 1 (.append (orderAt 2) 8), .exec 1 .ok { now := 0 }]

/-- The batches of an order that was appended and marked, although the acknowledgement of the
mark was lost. -/
theorem exists_firstOrder : ∃ s : System,
    s.ReachableBy [.finish 7, .add 7 ((orderAt 1).toContent, 1000)] ∧
    ∃ (s' : System) (log' : List Batch), Run (logged System.step System.batches) anyStep
      (s, [.finish 7, .add 7 ((orderAt 1).toContent, 1000)]) (s', log') ∧
      s.db.recentEvents "orders" 1 = [{ orderAt 1 with id := 7 }] ∧
      s'.db.recentEvents "orders" 1 = [{ orderAt 2 with id := 8 }] := by
  have hplay : (play (logged System.step System.batches) (fun _ _ => true)
      (System.init 0, []) firstOrder).any (fun x =>
        decide (x.2 = [.finish 7, .add 7 ((orderAt 1).toContent, 1000)]) &&
        (play (logged System.step System.batches) (fun _ _ => true) x secondOrder).any fun y =>
          decide (x.1.db.recentEvents "orders" 1 = [{ orderAt 1 with id := 7 }]) &&
          decide (y.1.db.recentEvents "orders" 1 = [{ orderAt 2 with id := 8 }])) = true := by
    decide +kernel
  obtain ⟨⟨s, log⟩, hrun, htest⟩ := Run.exists_of_play (fun _ _ _ => trivial) hplay
  simp only [Bool.and_eq_true, decide_eq_true_eq] at htest
  obtain ⟨rfl, hnext⟩ := htest
  obtain ⟨⟨s', log'⟩, hrun', htest'⟩ := Run.exists_of_play (fun _ _ _ => trivial) hnext
  simp only [Bool.and_eq_true, decide_eq_true_eq] at htest'
  exact ⟨s, ⟨0, hrun⟩, s', log', hrun', htest'⟩

/-- **The tables replay the batches.** In every state that any interleaving of store operations
reaches, the batches that took effect form a journal, and all event tables agree with it: an
event is in `events_by_id`, `events_by_stream` and `outbox_events` exactly when a batch added
it, with the columns of that batch; it is pending in `outbox_events` and `outbox_by_state`
exactly when the latest of its batches did not mark it as published. -/
theorem tables_replay_batches {s : System} {log : List Batch} (h : s.ReachableBy log) :
    (Journal.replay log).isSome = true ∧
    (∀ id content t, s.db.eventsById id = some ⟨content, t⟩ ↔ .add id (content, t) ∈ log) ∧
    (∀ stream t id body, (s.db.eventsByStream stream).get (toLex (t, id)) = some body ↔
      .add id (⟨body, stream⟩, t) ∈ log) ∧
    (∀ id content t, (∃ row, s.db.outboxEvents id = some row ∧ row.toContent = content ∧
      row.occurredAt = t) ↔ .add id (content, t) ∈ log) ∧
    (∀ id row, s.db.outboxEvents id = some row → (row.publishState = .pending ↔
      (log.find? fun e => decide (e.about = id)).any Journal.Entry.opens = true)) ∧
    ∀ t id content, s.db.outboxByState.get (toLex (t, id)) = some content ↔
      .add id (content, t) ∈ log ∧
        (log.find? fun e => decide (e.about = id)).any Journal.Entry.opens = true := by
  obtain ⟨htraced, j, hj, hrep⟩ := h.represents
  have houtbox : ∀ id content t, (∃ row, s.db.outboxEvents id = some row ∧
      row.toContent = content ∧ row.occurredAt = t) ↔ .add id (content, t) ∈ log := by
    intro id content t
    rw [← Journal.value_eq_some_iff hj, ← hrep.outbox id, Option.map_eq_some_iff]
    simp only [Prod.mk.injEq]
  have hpending : ∀ id row, s.db.outboxEvents id = some row → (row.publishState = .pending ↔
      (log.find? fun e => decide (e.about = id)).any Journal.Entry.opens = true) := by
    intro id row hrow
    rw [hrep.pending id row hrow, Journal.waiting_eq hj]
  refine ⟨by simp [hj], ?_, ?_, houtbox, hpending, ?_⟩
  · intro id content t
    rw [← Journal.value_eq_some_iff hj, ← hrep.byId id, Option.map_eq_some_iff]
    constructor
    · intro hrow
      exact ⟨_, hrow, rfl⟩
    · rintro ⟨row, hrow, hcolumns⟩
      cases hcolumns
      exact hrow
  · intro stream t id body
    rw [hrep.byStream, Journal.value_eq_some_iff hj]
  · intro t id content
    rw [htraced.store.index, ← houtbox]
    constructor
    · rintro ⟨row, hrow, hstate, ht, hcontent⟩
      exact ⟨⟨row, hrow, hcontent, ht⟩, (hpending id row hrow).mp hstate⟩
    · rintro ⟨⟨row, hrow, hcontent, ht⟩, hopen⟩
      exact ⟨row, hrow, (hpending id row hrow).mpr hopen, ht, hcontent⟩

/-- The batches of the order explain its rows. -/
theorem tables_replay_first_order : ∃ s : System,
    s.ReachableBy [.finish 7, .add 7 ((orderAt 1).toContent, 1000)] ∧
    s.db.eventsById 7 = some ⟨(orderAt 1).toContent, 1000⟩ ∧
    s.db.outboxByState.get (toLex (1000, 7)) ≠ some (orderAt 1).toContent := by
  obtain ⟨s, hreach, -⟩ := exists_firstOrder
  obtain ⟨-, hbyId, -, -, -, hindex⟩ := tables_replay_batches hreach
  refine ⟨s, hreach, (hbyId _ _ _).mpr (by decide), ?_⟩
  rw [Ne, hindex]
  exact fun hpending => absurd hpending.2 (by decide)

section Recent

variable {s s' : System} {log log' : List Batch} {stream : String} {limit : ℤ}

/-- The position of a record in its stream. -/
def EventRecord.key (e : EventRecord) : EventKey := toLex (toTimestamp e.occurredAt, e.id)

theorem recentRecord_key (stream : String) (row : EventKey × Body) :
    (recentRecord stream row).key = row.1 := by
  simp [EventRecord.key, recentRecord]

/-- What is read of a stream in a state of the store. -/
structure NewestOf (log : List Batch) (stream : String) (limit : ℤ) (events : List EventRecord) :
    Prop where
  length_le : events.length ≤ recentLimit limit
  sorted : events.Pairwise fun e e' => e'.key < e.key
  plain : ∀ e ∈ events, e = recentRecord stream (e.key, e.toBody)
  recorded : ∀ e ∈ events, .add e.id (e.toContent, toTimestamp e.occurredAt) ∈ log
  complete : ∀ id content t, .add id (content, t) ∈ log → content.stream = stream →
    (∃ e ∈ events, e.id = id ∧ e.toContent = content) ∨
      (events.length = recentLimit limit ∧ ∀ e ∈ events, toLex (t, id) < e.key)

theorem System.ReachableBy.newestOf (h : s.ReachableBy log) (stream : String) (limit : ℤ) :
    NewestOf log stream limit (s.db.recentEvents stream limit) := by
  obtain ⟨-, j, hj, hrep⟩ := h.represents
  have hrow : ∀ row, row ∈ (s.db.eventsByStream stream).rows ↔
      .add (ofLex row.1).2 (⟨row.2, stream⟩, (ofLex row.1).1) ∈ log := by
    intro row
    rw [Clustered.mem_rows, ← Journal.value_eq_some_iff hj]
    exact hrep.byStream stream (ofLex row.1).1 (ofLex row.1).2 row.2
  constructor
  · rw [Store.recentEvents, List.length_map]
    exact List.length_take_le _ _
  · rw [Store.recentEvents, List.pairwise_map]
    simp only [recentRecord_key]
    exact (s.db.eventsByStream stream).pairwise_reverse.sublist (List.take_sublist _ _)
  · intro e he
    obtain ⟨row, -, rfl⟩ := List.mem_map.mp he
    rw [recentRecord_key]
    rfl
  · intro e he
    obtain ⟨row, hmem, rfl⟩ := List.mem_map.mp he
    have hadd := (hrow row).mp (List.mem_reverse.mp (List.mem_of_mem_take hmem))
    simpa [recentRecord] using hadd
  · rintro id content t hadd rfl
    have hmem := (hrow (toLex (t, id), content.toBody)).mpr hadd
    rcases (s.db.eventsByStream content.stream).mem_last (recentLimit limit) hmem with
      hnewest | ⟨hlength, holder⟩
    · exact Or.inl ⟨_, List.mem_map.mpr ⟨_, hnewest, rfl⟩, rfl, rfl⟩
    · refine Or.inr ⟨by rw [Store.recentEvents, List.length_map, hlength], ?_⟩
      intro e he
      obtain ⟨row, hrow', rfl⟩ := List.mem_map.mp he
      rw [recentRecord_key]
      exact holder row hrow'

/-- **`RecentEvents` returns the newest events.** In every state that any interleaving of store
operations reaches, it returns the events that were added to the stream, newest first, with the
columns with which they were added: all of them, or the newest ones up to the limit. -/
theorem recent_events_newest (h : s.ReachableBy log) (stream : String) (limit : ℤ) (now : Time)
    (env : Env) :
    ∃ events, ((Op.recent stream limit).begin now).complete [env] s.db =
      some (s.db, .recent events) ∧ NewestOf log stream limit events :=
  ⟨s.db.recentEvents stream limit, rfl, h.newestOf stream limit⟩

/-- Of two orders, the listing of one event has the later one. -/
theorem recent_events_second_order : ∃ (s : System) (events : List EventRecord),
    s.ReachableBy [.add 8 ((orderAt 2).toContent, 2000), .finish 7,
      .add 7 ((orderAt 1).toContent, 1000)] ∧
    ((Op.recent "orders" 1).begin 0).complete [{ now := 0 }] s.db = some (s.db, .recent events) ∧
    NewestOf [.add 8 ((orderAt 2).toContent, 2000), .finish 7,
      .add 7 ((orderAt 1).toContent, 1000)] "orders" 1 events ∧
    events = [{ orderAt 2 with id := 8 }] := by
  have hplay : (play (logged System.step System.batches) (fun _ _ => true) (System.init 0, [])
      (firstOrder ++ secondOrder)).any (fun x =>
        decide (x.2 = [.add 8 ((orderAt 2).toContent, 2000), .finish 7,
          .add 7 ((orderAt 1).toContent, 1000)]) &&
        decide (x.1.db.recentEvents "orders" 1 = [{ orderAt 2 with id := 8 }])) = true := by
    decide +kernel
  obtain ⟨⟨s, log⟩, hrun, htest⟩ := Run.exists_of_play (fun _ _ _ => trivial) hplay
  simp only [Bool.and_eq_true, decide_eq_true_eq] at htest
  obtain ⟨rfl, hrecent⟩ := htest
  obtain ⟨events, hread, hnewest⟩ := recent_events_newest ⟨0, hrun⟩ "orders" 1 0 { now := 0 }
  refine ⟨s, events, ⟨0, hrun⟩, hread, hnewest, ?_⟩
  cases hread
  exact hrecent

/-- A run of the store only adds to the log. -/
theorem System.log_extends
    (h : Run (logged System.step System.batches) anyStep (s, log) (s', log')) :
    ∃ new, log' = new ++ log := by
  refine h.invariant (I := fun x => ∃ new, x.2 = new ++ log) ⟨[], rfl⟩ ?_
  rintro ⟨a, loga⟩ l b ⟨new, rfl⟩ - hab
  obtain ⟨b', -, rfl⟩ := Option.map_eq_some_iff.mp hab
  exact ⟨a.batches l ++ new, (List.append_assoc _ _ _).symm⟩

/-- **Events leave a listing only when newer ones displace them.** Whatever happens between two
calls of `RecentEvents` with one limit, an event of the first result is in the second one
unchanged, or the second one has as many events as the limit allows and all of them are newer. -/
theorem recent_events_displaced {events events' : List EventRecord} {now now' : Time}
    {env env' : Env} (h : s.ReachableBy log)
    (hrun : Run (logged System.step System.batches) anyStep (s, log) (s', log'))
    (hfirst : ((Op.recent stream limit).begin now).complete [env] s.db =
      some (s.db, .recent events))
    (hsecond : ((Op.recent stream limit).begin now').complete [env'] s'.db =
      some (s'.db, .recent events')) :
    ∀ e ∈ events, e ∈ events' ∨
      (events'.length = recentLimit limit ∧ ∀ e' ∈ events', e.key < e'.key) := by
  have h' : s'.ReachableBy log' := by
    obtain ⟨clock, hinit⟩ := h
    exact ⟨clock, hinit.trans hrun⟩
  have hevents : events = s.db.recentEvents stream limit := by
    cases hfirst
    rfl
  have hevents' : events' = s'.db.recentEvents stream limit := by
    cases hsecond
    rfl
  have hnewest : NewestOf log stream limit events := hevents ▸ h.newestOf stream limit
  have hnewest' : NewestOf log' stream limit events' := hevents' ▸ h'.newestOf stream limit
  obtain ⟨-, j, hj, -⟩ := h'.represents
  obtain ⟨new, rfl⟩ := System.log_extends hrun
  intro e he
  have hadd := List.mem_append_right new (hnewest.recorded e he)
  have hstream : e.stream = stream := by
    rw [hnewest.plain e he]
    rfl
  refine (hnewest'.complete e.id e.toContent _ hadd hstream).imp_left ?_
  rintro ⟨e', he', hid, hcontent⟩
  -- An identifier was added once, so both results have the same row.
  have hvalue := (Journal.value_eq_some_iff hj).mpr hadd
  have hvalue' := (Journal.value_eq_some_iff hj).mpr (hnewest'.recorded e' he')
  rw [hid, hvalue, Option.some.injEq, Prod.mk.injEq] at hvalue'
  have hkey : e'.key = e.key := by rw [EventRecord.key, EventRecord.key, hid, hvalue'.2]
  have hbody : e'.toBody = e.toBody := congrArg Content.toBody hcontent
  have heq : e' = e := by rw [hnewest'.plain e' he', hnewest.plain e he, hkey, hbody]
  exact heq ▸ he'

/-- The second order displaces the first one. -/
theorem second_order_displaces : ∃ s s' : System,
    s.db.recentEvents "orders" 1 = [{ orderAt 1 with id := 7 }] ∧
    s'.db.recentEvents "orders" 1 = [{ orderAt 2 with id := 8 }] ∧
    ∀ e ∈ s.db.recentEvents "orders" 1, e ∈ s'.db.recentEvents "orders" 1 ∨
      ((s'.db.recentEvents "orders" 1).length = recentLimit 1 ∧
        ∀ e' ∈ s'.db.recentEvents "orders" 1, e.key < e'.key) := by
  obtain ⟨s, hreach, s', log', hrun, hfirst, hsecond⟩ := exists_firstOrder
  have hread : ∀ db : Store, ((Op.recent "orders" 1).begin 0).complete [{ now := 0 }] db =
      some (db, .recent (db.recentEvents "orders" 1)) := fun _ => rfl
  exact ⟨s, s', hfirst, hsecond, recent_events_displaced hreach hrun (hread _) (hread _)⟩

end Recent

end ControlPlane

import ControlPlane.App.RelayBatch

/-!
# The phases of a relay batch

A batch runs on a node with closed breakers, the database executes its statements, the bus
confirms its messages and the other processes stand still, whatever they were doing. In which
order and how fast its steps follow each other is left open. `App.Phase` lists the states that
such a batch can be in, together with what it has done to the tables and sent so far, and every
step leads from one of them to another.
-/

namespace ControlPlane

open Transition

/-- Time passes, or process `p` does a step in which nothing fails. -/
def AppLabel.works (p : ℕ) : AppLabel → Prop
  | .tick _ => True
  | .exec q .ok _ | .resume q | .send q | .ack q (.ok _) => q = p
  | _ => False

instance (p : ℕ) (l : AppLabel) : Decidable (l.works p) := by
  unfold AppLabel.works
  split <;> infer_instance

/-- Both breakers of the node are closed. -/
structure Node.Closed (n : Node) : Prop where
  bus : n.busBreaker.state = .closed
  store : n.storeBreaker.state = .closed

section Breakers

variable {b : Breaker}

/-- A closed breaker lets every call through and stays as it is. -/
theorem Breaker.allow_of_closed (h : b.state = .closed) (now : Time) : b.allow now = (true, b) := by
  simp [Breaker.allow, h]

/-- A closed breaker stays closed after a success. -/
theorem Breaker.success_of_closed (h : b.state = .closed) : b.success.state = .closed := by
  simp [Breaker.success, h]

end Breakers

/-- Process `p` runs on a node with closed breakers and is at `pc`. -/
structure App.At (a : App) (p node : ℕ) (pc : Pc) : Prop where
  proc : a.procs.get p = some ⟨node, pc⟩
  closed : (a.nodes node).Closed

/-- Process `p` is at the head of the loop of its batch, with these events to go. -/
structure App.AtLoop (cfg : ℕ → Config) (a : App) (p node : ℕ) (events : List EventRecord)
    (pc : Pc) (r : Result) : Prop extends a.At p node pc where
  returned : a.store.slots.get p = some (.returned r)
  success : pc.guarded = true → r.isError = false
  resumes : pc.resume (cfg node) r = some (relayNext (cfg node) events)

section Steps

variable {cfg : ℕ → Config} {a : App} {p node : ℕ} {pc : Pc} {r : Result} {evt : EventRecord}
  {rest events : List EventRecord} {job : Job} {attempt : Attempt}

/-- A client with a result is not executing an operation. -/
theorem System.callOf_of_returned {s : System} (h : s.slots.get p = some (.returned r)) :
    s.callOf p = none := by
  simp [System.callOf, h]

/-- A process without an operation in progress starts one. -/
theorem App.act_call {op : Op} (hidle : a.store.callOf p = none) (hdraws : op.draws = []) :
    a.act p node (.call op pc) = some { a with
      store := a.store.launch p op, procs := a.procs.put p ⟨node, pc⟩ } := by
  have hstep : a.store.step (.start p op) = some (a.store.launch p op) :=
    if_pos ⟨hidle, by simp [hdraws]⟩
  simp [App.act, hstep]

/-- An operation that no breaker guards is started at once. -/
theorem App.proceed_unguarded {op : Op} (hguarded : pc.guarded = false) :
    a.proceed cfg p node (.call op pc) = a.act p node (.call op pc) := by
  simp [App.proceed, hguarded]

/-- A closed store breaker lets an operation through. -/
theorem App.proceed_closed {op : Op} (hguarded : pc.guarded = true)
    (hclosed : (a.nodes node).Closed) : a.proceed cfg p node (.call op pc) =
      (a.setStoreBreaker node (a.nodes node).storeBreaker).act p node (.call op pc) := by
  simp [App.proceed, hguarded, Breaker.allow_of_closed hclosed.store]

/-- A success reported to the store breaker leaves the breakers closed. -/
theorem App.recordStore_closed (h : (a.nodes node).Closed) (hr : r.isError = false) :
    ((a.recordStore node r).nodes node).Closed := by
  simp only [App.recordStore, hr, Bool.false_eq_true, if_false, App.setStoreBreaker,
    Function.update_self]
  exact ⟨h.bus, Breaker.success_of_closed h.store⟩

/-- A batch starts by scanning the outbox. -/
theorem App.step_spawn_relay (cfg : ℕ → Config) (hp : a.procs.get p = none)
    (hidle : a.store.callOf p = none) (hclosed : (a.nodes node).Closed) :
    ∃ b, a.step cfg (.spawn p node .relay) = some b ∧ b.At p node .listing ∧
      b.store = a.store.launch p (.pending (max 1 (cfg node).outboxRelayBatchSize)) ∧
      b.history = a.history := by
  have hstep : a.step cfg (.spawn p node .relay) = some
      { a.setStoreBreaker node (a.nodes node).storeBreaker with
        store := a.store.launch p (.pending (max 1 (cfg node).outboxRelayBatchSize))
        procs := a.procs.put p ⟨node, .listing⟩ } := by
    simp only [App.step, hp, Task.action]
    rw [App.proceed_closed rfl hclosed]
    exact App.act_call hidle rfl
  refine ⟨_, hstep, ⟨by simp, ?_⟩, rfl, rfl⟩
  simp only [App.setStoreBreaker, Function.update_self]
  exact ⟨hclosed.bus, hclosed.store⟩

/-- The head of the loop reports a guarded operation as a success and goes on with the loop. -/
theorem App.AtLoop.step (h : a.AtLoop cfg p node events pc r) :
    ∃ b : App, a.step cfg (.resume p) = b.proceed cfg p node (relayNext (cfg node) events) ∧
      (b.nodes node).Closed ∧ b.procs = a.procs ∧ b.store = a.store ∧ b.history = a.history := by
  refine ⟨if pc.guarded then a.recordStore node r else a, ?_, ?_⟩
  · simp only [App.step, h.proc, h.returned, h.resumes, Option.bind_some]
  · split_ifs with hguarded
    · exact ⟨App.recordStore_closed h.closed (h.success hguarded), rfl, rfl, rfl⟩
    · exact ⟨h.closed, rfl, rfl, rfl⟩

/-- The head of the loop claims the next event. -/
theorem App.AtLoop.claim (h : a.AtLoop cfg p node (evt :: rest) pc r) :
    ∃ b, a.step cfg (.resume p) = some b ∧ b.At p node (.claiming evt rest) ∧
      b.store =
        a.store.launch p (.claimLease evt.id (cfg node).nodeID (cfg node).leaseDuration) ∧
      b.history = a.history := by
  obtain ⟨b, hstep, hclosed, hprocs, hstore, hhistory⟩ := h.step
  have hidle : b.store.callOf p = none := by
    rw [hstore]
    exact System.callOf_of_returned h.returned
  rw [relayNext, App.proceed_unguarded rfl, App.act_call hidle rfl] at hstep
  exact ⟨_, hstep, ⟨by simp, hclosed⟩, by rw [hstore], hhistory⟩

/-- Without further events the batch ends. -/
theorem App.AtLoop.finish (h : a.AtLoop cfg p node [] pc r) :
    ∃ b, a.step cfg (.resume p) = some b ∧ b.procs.get p = none ∧ (b.nodes node).Closed ∧
      b.store = a.store ∧ b.history = a.history := by
  obtain ⟨b, hstep, hclosed, hprocs, hstore, hhistory⟩ := h.step
  exact ⟨_, hstep, by simp, hclosed, hstore, hhistory⟩

/-- With the lease the event is published. -/
theorem App.At.leased (cfg : ℕ → Config) (h : a.At p node (.claiming evt rest))
    (hslot : a.store.slots.get p = some (.returned (.leased true))) :
    ∃ b, a.step cfg (.resume p) = some b ∧
      b.At p node (.publishing (.relay evt rest) (cfg node).firstAttempt) ∧ b.store = a.store ∧
      b.history = a.history := by
  have hstep : a.step cfg (.resume p) = some { a with
      procs := a.procs.put p ⟨node, .publishing (.relay evt rest) (cfg node).firstAttempt⟩ } := by
    simp only [App.step, h.proc, hslot, Pc.resume, Pc.guarded, Bool.false_eq_true, if_false,
      Option.bind_some, App.proceed]
    rfl
  exact ⟨_, hstep, ⟨by simp, h.closed⟩, rfl, rfl⟩

/-- The bus breaker lets the message through. -/
theorem App.At.send (cfg : ℕ → Config) (h : a.At p node (.publishing job attempt)) :
    ∃ b, a.step cfg (.send p) = some b ∧ b.At p node (.sent job attempt) ∧ b.store = a.store ∧
      b.history = .sent job.message :: a.history := by
  have hstep : a.step cfg (.send p) = some
      { (a.setBusBreaker node (a.nodes node).busBreaker).log (.sent job.message) with
        procs := a.procs.put p ⟨node, .sent job attempt⟩ } := by
    simp only [App.step, h.proc, Breaker.allow_of_closed h.closed.bus, if_true]
    rfl
  refine ⟨_, hstep, ⟨by simp, ?_⟩, rfl, rfl⟩
  simp only [App.log, App.setBusBreaker, Function.update_self]
  exact ⟨h.closed.bus, h.closed.store⟩

/-- A confirmed message is marked. -/
theorem App.At.ack (cfg : ℕ → Config) (h : a.At p node (.sent job attempt))
    (hidle : a.store.callOf p = none) (brokerID : String) :
    ∃ b, a.step cfg (.ack p (.ok brokerID)) = some b ∧ b.At p node (.marking job) ∧
      b.store = a.store.launch p (.mark job.event.id brokerID) ∧
      b.history = .acked job.message (.ok brokerID) :: a.history := by
  have hclosed : (((a.setBusBreaker node (a.nodes node).busBreaker.success).log
      (.acked job.message (.ok brokerID))).nodes node).Closed := by
    simp only [App.log, App.setBusBreaker, Function.update_self]
    exact ⟨Breaker.success_of_closed h.closed.bus, h.closed.store⟩
  generalize hb : (a.setBusBreaker node (a.nodes node).busBreaker.success).log
    (.acked job.message (.ok brokerID)) = b at hclosed
  have hstore : b.store = a.store := by rw [← hb]; rfl
  have hhistory : b.history = .acked job.message (.ok brokerID) :: a.history := by rw [← hb]; rfl
  have hstep : a.step cfg (.ack p (.ok brokerID)) = some
      { b.setStoreBreaker node (b.nodes node).storeBreaker with
        store := b.store.launch p (.mark job.event.id brokerID)
        procs := b.procs.put p ⟨node, .marking job⟩ } := by
    simp only [App.step, h.proc, hb]
    rw [App.proceed_closed rfl hclosed]
    exact App.act_call (hstore ▸ hidle) rfl
  refine ⟨_, hstep, ⟨by simp, ?_⟩, by rw [hstore], hhistory⟩
  simp only [App.setStoreBreaker, Function.update_self]
  exact ⟨hclosed.bus, hclosed.store⟩

end Steps

/-- The work of a batch that started in `a` and is now in `x`: of the rows that it listed it has
dealt with `done`, holds the lease of `held` and has `todo` before it. The occurrences `latest`
belong to the row that it is dealing with. -/
structure App.Underway (limit : ℤ) (a x : App) (course : Course) (done held todo : List PendingRow)
    (latest : List Occurrence) : Prop where
  later : a.store.clock ≤ x.store.clock
  within : course.Within a.store.clock x.store.clock
  listed : course.listed a.store.db limit = done ++ held ++ todo
  obtained : ∀ row ∈ held, course.obtained a.store.db row = true
  history : x.history =
    latest ++ course.occurrences (done.filter (course.obtained a.store.db)) ++ a.history
  tables : a.store.db.Relaying x.store.db course (done.filter (course.obtained a.store.db))
    (done.filter (course.obtained a.store.db) ++ held)

/-- The statements that mark the event of a row. -/
inductive Call.Marks (db : Store) (row : PendingRow) (brokerID : String) : Call → Prop
  | read : Marks db row brokerID (.markRead row.id brokerID)
  | batch {out : OutboxRow} : db.outboxEvents row.id = some out →
      Marks db row brokerID (.markBatch row.id brokerID (ofTimestamp out.occurredAt))

section Underway

variable {limit : ℤ} {a x y : App} {course : Course} {done held todo : List PendingRow}
  {latest : List Occurrence} {row : PendingRow} {now : Time} {ins : List (EventRecord × UUID)}

/-- Time may pass. -/
theorem App.Underway.pass (h : a.Underway limit x course done held todo latest)
    (hclock : x.store.clock ≤ y.store.clock) (hdb : y.store.db = x.store.db)
    (hhistory : y.history = x.history) : a.Underway limit y course done held todo latest where
  later := h.later.trans hclock
  within := h.within.later hclock
  listed := h.listed
  obtained := h.obtained
  history := hhistory.trans h.history
  tables := hdb ▸ h.tables

/-- The row that the batch deals with belongs to another event than those before it. -/
theorem App.Underway.ne_id (h : a.Underway limit x course done held todo latest)
    (htraced : a.store.db.Traced ins) (hrow : row ∈ held ++ todo) :
    ∀ r ∈ done, r.id ≠ row.id := by
  intro r hr hid
  have hnodup := course.nodup_listed htraced limit
  rw [h.listed, List.append_assoc, List.map_append, List.nodup_append] at hnodup
  exact hnodup.2.2 r.id (List.mem_map_of_mem hr) row.id (List.mem_map_of_mem hrow) hid

/-- The batch has not dealt with the rows before it. -/
theorem App.Underway.notMem (h : a.Underway limit x course done held todo latest)
    (htraced : a.store.db.Traced ins) (hrow : row ∈ held ++ todo) : row ∉ done :=
  fun hmem => h.ne_id htraced hrow row hmem rfl

/-- The event of the row is in the outbox under the time of the row. -/
theorem App.Underway.out (h : a.Underway limit x course done held todo latest)
    (htraced : a.store.db.Traced ins) (hrow : row ∈ held ++ todo) :
    ∃ out, a.store.db.outboxEvents row.id = some out ∧ out.occurredAt = (ofLex row.1).1 := by
  have hlisted : row ∈ course.listed a.store.db limit := by
    rw [h.listed, List.append_assoc]
    exact List.mem_append_right _ hrow
  obtain ⟨out, hout, -, ht, -⟩ := (htraced.index row.1 row.2).mp
    (Clustered.mem_rows.mp (Course.mem_rows_of_listed hlisted))
  exact ⟨out, hout, ht⟩

/-- The claim on a row reads its retry state as it was at the start. -/
theorem App.Underway.leaseFree (h : a.Underway limit x course done [] (row :: todo) latest)
    (htraced : a.store.db.Traced ins) (now : Time) :
    x.store.db.leaseFree row.id (toTimestamp now) =
      (course.claim row now).obtained a.store.db row := by
  have hretry : x.store.db.outboxRetryState row.id = a.store.db.outboxRetryState row.id := by
    refine h.tables.retries row.id fun r hr => ?_
    rw [List.append_nil] at hr
    exact h.ne_id htraced List.mem_cons_self r (List.mem_of_mem_filter hr)
  simp only [Store.leaseFree_congr hretry, Course.obtained, Course.claim, Function.update_self]

/-- The claim on the next row, at a time of the batch. -/
theorem App.Underway.claim (h : a.Underway limit x course done [] (row :: todo) [])
    (htraced : a.store.db.Traced ins) (hstart : a.store.clock ≤ now) (hstop : now ≤ x.store.clock) :
    (course.claim row now).Within a.store.clock x.store.clock ∧
      (course.claim row now).listed a.store.db limit = done ++ row :: todo ∧
      done.filter ((course.claim row now).obtained a.store.db) =
        done.filter (course.obtained a.store.db) :=
  ⟨h.within.claim ⟨hstart, hstop⟩ row, h.listed.trans (by simp),
    course.filter_obtained_claim _ _ (h.notMem htraced List.mem_cons_self)⟩

/-- A free lease is obtained. -/
theorem App.Underway.granted (h : a.Underway limit x course done [] (row :: todo) [])
    (htraced : a.store.db.Traced ins) (hstart : a.store.clock ≤ now) (hstop : now ≤ x.store.clock)
    (hfree : (course.claim row now).obtained a.store.db row = true) {owner : String}
    {leaseUntil : Timestamp} (hclock : y.store.clock = x.store.clock)
    (hdb : y.store.db = x.store.db.setLease row.id owner leaseUntil)
    (hhistory : y.history = x.history) :
    a.Underway limit y (course.claim row now) done [row] todo [] := by
  obtain ⟨hwithin, hlisted, hfilter⟩ := h.claim htraced hstart hstop
  constructor
  · rw [hclock]
    exact h.later
  · rw [hclock]
    exact hwithin
  · rw [hlisted, List.append_assoc, List.singleton_append]
  · intro r hr
    rw [List.mem_singleton.mp hr]
    exact hfree
  · rw [hfilter, hhistory, h.history]
    rfl
  · rw [hfilter, hdb]
    have htables := h.tables
    rw [List.append_nil] at htables
    exact (htables.lease row owner leaseUntil).congr fun _ _ => ⟨rfl, rfl⟩

/-- Without the lease the row is passed over. -/
theorem App.Underway.refused (h : a.Underway limit x course done [] (row :: todo) [])
    (htraced : a.store.db.Traced ins) (hstart : a.store.clock ≤ now) (hstop : now ≤ x.store.clock)
    (htaken : (course.claim row now).obtained a.store.db row = false)
    (hclock : y.store.clock = x.store.clock) (hdb : y.store.db = x.store.db)
    (hhistory : y.history = x.history) :
    a.Underway limit y (course.claim row now) (done ++ [row]) [] todo [] := by
  obtain ⟨hwithin, hlisted, hfilter⟩ := h.claim htraced hstart hstop
  have hfilter' : (done ++ [row]).filter ((course.claim row now).obtained a.store.db) =
      done.filter (course.obtained a.store.db) := by
    rw [List.filter_append, hfilter, List.filter_singleton, htaken]
    simp
  constructor
  · rw [hclock]
    exact h.later
  · rw [hclock]
    exact hwithin
  · rw [hlisted, List.append_nil, List.append_assoc, List.singleton_append]
  · intro r hr
    cases hr
  · rw [hfilter', hhistory, h.history]
    rfl
  · rw [hfilter', hdb]
    exact h.tables.congr fun _ _ => ⟨rfl, rfl⟩

/-- The message of the row is sent. -/
theorem App.Underway.send (h : a.Underway limit x course done [row] todo [])
    (hstore : y.store = x.store) (hhistory : y.history = .sent row.message :: x.history) :
    a.Underway limit y course done [row] todo [.sent row.message] where
  later := hstore ▸ h.later
  within := hstore ▸ h.within
  listed := h.listed
  obtained := h.obtained
  history := by
    rw [hhistory, h.history]
    rfl
  tables := hstore ▸ h.tables

/-- The message of the row is confirmed. -/
theorem App.Underway.confirm (h : a.Underway limit x course done [row] todo [.sent row.message])
    (htraced : a.store.db.Traced ins) {brokerID : String} (hclock : y.store.clock = x.store.clock)
    (hdb : y.store.db = x.store.db)
    (hhistory : y.history = .acked row.message (.ok brokerID) :: x.history) :
    a.Underway limit y (course.confirm row brokerID) done [row] todo
      [.acked row.message (.ok ((course.confirm row brokerID).broker row)),
        .sent row.message] := by
  have hbroker : (course.confirm row brokerID).broker row = brokerID := Function.update_self ..
  have hnew : row ∉ done.filter (course.obtained a.store.db) := fun hmem =>
    h.notMem htraced List.mem_cons_self (List.mem_of_mem_filter hmem)
  constructor
  · rw [hclock]
    exact h.later
  · rw [hclock]
    exact h.within
  · exact h.listed
  · exact h.obtained
  · have hsame := course.occurrences_confirm brokerID hnew
    rw [hhistory, h.history, hbroker]
    exact congrArg (fun before => _ :: _ :: (before ++ a.history)) hsame.symm
  · rw [hdb]
    refine h.tables.congr fun r hr => ⟨rfl, ?_⟩
    exact Function.update_of_ne (ne_of_mem_of_not_mem hr hnew) _ _

/-- The event of the row is marked. -/
theorem App.Underway.mark {out : OutboxRow} (h : a.Underway limit x course done [row] todo
      [.acked row.message (.ok (course.broker row)), .sent row.message])
    (htraced : a.store.db.Traced ins) (hstart : a.store.clock ≤ now) (hstop : now ≤ x.store.clock)
    (hout : a.store.db.outboxEvents row.id = some out) (hclock : y.store.clock = x.store.clock)
    (hdb : y.store.db = x.store.db.markPublished row.id (course.broker row) (toTimestamp now)
      out.occurredAt) (hhistory : y.history = x.history) :
    a.Underway limit y (course.mark row now) (done ++ [row]) [] todo [] := by
  have hmem : row ∈ [row] ++ todo := List.mem_cons_self
  have hnew : row ∉ done.filter (course.obtained a.store.db) := fun hin =>
    h.notMem htraced hmem (List.mem_of_mem_filter hin)
  have hfilter : (done ++ [row]).filter (course.obtained a.store.db) =
      done.filter (course.obtained a.store.db) ++ [row] := by
    rw [List.filter_append, List.filter_singleton, h.obtained row (List.mem_singleton_self row)]
    rfl
  obtain ⟨out', hout', ht⟩ := h.out htraced hmem
  obtain rfl : out = out' := Option.some.inj (hout.symm.trans hout')
  constructor
  · rw [hclock]
    exact h.later
  · rw [hclock]
    exact h.within.mark ⟨hstart, hstop⟩ row
  · exact h.listed.trans (by rw [List.append_nil])
  · intro r hr
    cases hr
  · have hoccurrences := course.occurrences_concat (done.filter (course.obtained a.store.db)) row
    rw [hhistory, h.history, ← hoccurrences, ← hfilter]
    rfl
  · have htables : a.store.db.Relaying x.store.db (course.mark row now)
        (done.filter (course.obtained a.store.db))
        (done.filter (course.obtained a.store.db) ++ [row]) :=
      h.tables.congr fun r hr => ⟨Function.update_of_ne (ne_of_mem_of_not_mem hr hnew) _ _, rfl⟩
    have hmarked := htables.mark hout ht fun r hr =>
      h.ne_id htraced hmem r (List.mem_of_mem_filter hr)
    have htime : (course.mark row now).marked row = now := Function.update_self ..
    rw [htime, ← hfilter] at hmarked
    rw [hdb, List.append_nil]
    exact hmarked

end Underway

/-- A batch that started in `a` and scans the outbox in `x`. -/
structure App.Scanning (a x : App) (course : Course) : Prop where
  later : a.store.clock ≤ x.store.clock
  within : course.Within a.store.clock x.store.clock
  db : x.store.db = a.store.db
  history : x.history = a.history

/-- The batch size with which a node scans the outbox. -/
def Config.relayLimit (cfg : Config) : ℤ := max 1 cfg.outboxRelayBatchSize

/-- The states of a batch of process `p` that started in `a`, in the order in which it goes
through them. -/
inductive App.Phase (cfg : ℕ → Config) (a : App) (p node : ℕ) (x : App) : Prop
  | listing {course : Course} {c : Call} {since : Time} : a.Scanning x course →
      c.Scans a.store.db (cfg node).relayLimit course → x.At p node .listing →
      x.store.slots.get p = some (.running c since) →
      a.store.clock ≤ since ∧ since ≤ x.store.clock → Phase cfg a p node x
  | loop {course : Course} {done todo : List PendingRow} {pc : Pc} {r : Result} :
      a.Underway (cfg node).relayLimit x course done [] todo [] →
      x.AtLoop cfg p node (todo.map a.store.db.pendingEvent) pc r → Phase cfg a p node x
  | claiming {course : Course} {done todo : List PendingRow} {row : PendingRow} {owner : String}
      {leaseDuration : Duration} {since : Time} :
      a.Underway (cfg node).relayLimit x course done [] (row :: todo) [] →
      x.At p node (.claiming (a.store.db.pendingEvent row) (todo.map a.store.db.pendingEvent)) →
      x.store.slots.get p = some (.running (.leaseUpdate row.id owner leaseDuration) since) →
      a.store.clock ≤ since ∧ since ≤ x.store.clock → Phase cfg a p node x
  | leased {course : Course} {done todo : List PendingRow} {row : PendingRow} :
      a.Underway (cfg node).relayLimit x course done [row] todo [] →
      x.At p node (.claiming (a.store.db.pendingEvent row) (todo.map a.store.db.pendingEvent)) →
      x.store.slots.get p = some (.returned (.leased true)) → Phase cfg a p node x
  | publishing {course : Course} {done todo : List PendingRow} {row : PendingRow}
      {attempt : Attempt} : a.Underway (cfg node).relayLimit x course done [row] todo [] →
      x.At p node (.publishing (.relay (a.store.db.pendingEvent row)
        (todo.map a.store.db.pendingEvent)) attempt) →
      x.store.callOf p = none → Phase cfg a p node x
  | sent {course : Course} {done todo : List PendingRow} {row : PendingRow} {attempt : Attempt} :
      a.Underway (cfg node).relayLimit x course done [row] todo [.sent row.message] →
      x.At p node (.sent (.relay (a.store.db.pendingEvent row)
        (todo.map a.store.db.pendingEvent)) attempt) →
      x.store.callOf p = none → Phase cfg a p node x
  | marking {course : Course} {done todo : List PendingRow} {row : PendingRow} {c : Call}
      {since : Time} : a.Underway (cfg node).relayLimit x course done [row] todo
        [.acked row.message (.ok (course.broker row)), .sent row.message] →
      x.At p node (.marking (.relay (a.store.db.pendingEvent row)
        (todo.map a.store.db.pendingEvent))) →
      x.store.slots.get p = some (.running c since) →
      a.store.clock ≤ since ∧ since ≤ x.store.clock →
      c.Marks a.store.db row (course.broker row) → Phase cfg a p node x
  | ended {course : Course} :
      a.Underway (cfg node).relayLimit x course
        (course.listed a.store.db (cfg node).relayLimit) [] [] [] →
      x.procs.get p = none → x.store.callOf p = none → (x.nodes node).Closed →
      Phase cfg a p node x

section Statements

variable {cfg : ℕ → Config} {a x : App} {p node : ℕ} {course : Course} {c : Call} {since : Time}
  {env : Env} {done todo : List PendingRow} {row : PendingRow} {ins : List (EventRecord × UUID)}

/-- The state after a statement of process `p`. -/
def App.executed (x : App) (p : ℕ) (c : Call) (env : Env) : App :=
  { x with store := x.store.perform p c .ok env }

/-- A statement of the batch changes the tables as the call says. -/
theorem App.executed_db (x : App) (p : ℕ) (c : Call) (env : Env) :
    (x.executed p c env).store.db = (c.exec env x.store.db).1 := by
  simp [App.executed, System.perform, Call.effect]

/-- After a statement the operation goes on or has returned, as the call says. -/
theorem App.executed_slot (x : App) (p : ℕ) (c : Call) (env : Env) :
    (x.executed p c env).store.slots.get p =
      some ((c.exec env x.store.db).2.slot x.store.clock) := by
  simp [App.executed, System.perform, Call.next]

/-- A statement of the store moves neither the process nor the breakers. -/
theorem App.At.executed {pc : Pc} (h : x.At p node pc) (c : Call) (env : Env) :
    (x.executed p c env).At p node pc := ⟨h.proc, h.closed⟩

/-- A statement of the scan either leaves less of the scan to do or lists the rows. -/
theorem App.Scanning.exec (h : a.Scanning x course) (hl : a.store.db.Leasable)
    (htraced : a.store.db.Traced ins) {limit : ℤ} (hscan : c.Scans a.store.db limit course)
    (hstart : a.store.clock ≤ env.now) (hstop : env.now ≤ x.store.clock) (p : ℕ) :
    ∃ course', a.Scanning (x.executed p c env) course' ∧
      ((∃ d, (x.executed p c env).store.slots.get p = some (.running d x.store.clock) ∧
          d.Scans a.store.db limit course' ∧ d.scanLeft a.store.db < c.scanLeft a.store.db) ∨
        (x.executed p c env).store.slots.get p = some (.returned
          (.pending ((course'.listed a.store.db limit).map a.store.db.pendingEvent)))) := by
  obtain ⟨hdb, course', hwithin, hnext⟩ := hscan.exec hl htraced h.within ⟨hstart, hstop⟩
  have hslot := x.executed_slot p c env
  rw [h.db] at hslot
  have hdb' : (x.executed p c env).store.db = a.store.db := by
    rw [App.executed_db, h.db, hdb]
  refine ⟨course', ⟨h.later, hwithin, hdb', h.history⟩, ?_⟩
  cases hexec : (c.exec env a.store.db).2 with
  | call d =>
    rw [hexec] at hslot hnext
    exact .inl ⟨d, hslot, hnext.1, hnext.2⟩
  | done r =>
    rw [hexec] at hslot hnext
    rw [Next.Scans] at hnext
    rw [hnext] at hslot
    exact .inr hslot

/-- After the scan the batch is at the head of its loop. -/
theorem App.Scanning.loop (h : a.Scanning x course) (hat : x.At p node .listing)
    (hslot : x.store.slots.get p = some (.returned (.pending
      ((course.listed a.store.db (cfg node).relayLimit).map a.store.db.pendingEvent)))) :
    a.Underway (cfg node).relayLimit x course [] []
        (course.listed a.store.db (cfg node).relayLimit) [] ∧
      x.AtLoop cfg p node
        ((course.listed a.store.db (cfg node).relayLimit).map a.store.db.pendingEvent) .listing
        (.pending ((course.listed a.store.db (cfg node).relayLimit).map
          a.store.db.pendingEvent)) := by
  refine ⟨⟨h.later, h.within, rfl, fun r hr => (by cases hr), h.history, ?_⟩,
    ⟨hat, hslot, fun _ => rfl, rfl⟩⟩
  rw [h.db]
  exact a.store.db.relayed_nil course

/-- The claim on a row is granted, or the batch goes on with the next row. -/
theorem App.Underway.exec_claim {owner : String} {leaseDuration : Duration}
    (h : a.Underway (cfg node).relayLimit x course done [] (row :: todo) [])
    (htraced : a.store.db.Traced ins)
    (hat : x.At p node
      (.claiming (a.store.db.pendingEvent row) (todo.map a.store.db.pendingEvent)))
    (hstart : a.store.clock ≤ env.now) (hstop : env.now ≤ x.store.clock) :
    (a.Underway (cfg node).relayLimit
        (x.executed p (.leaseUpdate row.id owner leaseDuration) env) (course.claim row env.now)
        done [row] todo [] ∧
      (x.executed p (.leaseUpdate row.id owner leaseDuration) env).store.slots.get p =
        some (.returned (.leased true))) ∨
    (a.Underway (cfg node).relayLimit
        (x.executed p (.leaseUpdate row.id owner leaseDuration) env) (course.claim row env.now)
        (done ++ [row]) [] todo [] ∧
      (x.executed p (.leaseUpdate row.id owner leaseDuration) env).AtLoop cfg p node
        (todo.map a.store.db.pendingEvent)
        (.claiming (a.store.db.pendingEvent row) (todo.map a.store.db.pendingEvent))
        (.leased false)) := by
  have hfree := h.leaseFree htraced env.now
  have hdb := x.executed_db p (.leaseUpdate row.id owner leaseDuration) env
  have hslot := x.executed_slot p (.leaseUpdate row.id owner leaseDuration) env
  cases hobtained : (course.claim row env.now).obtained a.store.db row with
  | true =>
    rw [hobtained] at hfree
    rw [Call.exec, if_pos hfree] at hdb hslot
    exact .inl ⟨h.granted htraced hstart hstop hobtained rfl hdb rfl, hslot⟩
  | false =>
    rw [hobtained] at hfree
    rw [Call.exec, if_neg (by simp [hfree])] at hdb hslot
    exact .inr ⟨h.refused htraced hstart hstop hobtained rfl hdb rfl,
      ⟨hat.executed _ _, hslot, fun hguarded => (by cases hguarded), rfl⟩⟩

/-- Marking reads the time of the event and then marks it. -/
theorem App.Underway.exec_mark (h : a.Underway (cfg node).relayLimit x course done [row] todo
      [.acked row.message (.ok (course.broker row)), .sent row.message])
    (htraced : a.store.db.Traced ins)
    (hat : x.At p node (.marking (.relay (a.store.db.pendingEvent row)
      (todo.map a.store.db.pendingEvent))))
    (hmarks : c.Marks a.store.db row (course.broker row))
    (hstart : a.store.clock ≤ env.now) (hstop : env.now ≤ x.store.clock) :
    (∃ out, a.store.db.outboxEvents row.id = some out ∧ c = .markRead row.id (course.broker row) ∧
      a.Underway (cfg node).relayLimit (x.executed p c env) course done [row] todo
        [.acked row.message (.ok (course.broker row)), .sent row.message] ∧
      (x.executed p c env).store.slots.get p = some (.running
        (.markBatch row.id (course.broker row) (ofTimestamp out.occurredAt)) x.store.clock)) ∨
    (a.Underway (cfg node).relayLimit (x.executed p c env) (course.mark row env.now)
        (done ++ [row]) [] todo [] ∧
      (x.executed p c env).AtLoop cfg p node (todo.map a.store.db.pendingEvent)
        (.marking (.relay (a.store.db.pendingEvent row) (todo.map a.store.db.pendingEvent)))
        .marked) := by
  have hdb := x.executed_db p c env
  have hslot := x.executed_slot p c env
  cases hmarks with
  | read =>
    obtain ⟨out, hout, -⟩ := h.out htraced (List.mem_cons_self (l := todo))
    have hevent : x.store.db.outboxEvents row.id = some out := by
      refine (h.tables.events row.id fun r hr => ?_).trans hout
      exact h.ne_id htraced List.mem_cons_self r (List.mem_of_mem_filter hr)
    simp only [Call.exec, hevent] at hdb hslot
    exact .inl ⟨out, hout, rfl, h.pass (le_refl _) hdb rfl, hslot⟩
  | batch hout =>
    simp only [Call.exec, toTimestamp_ofTimestamp] at hdb hslot
    exact .inr ⟨h.mark htraced hstart hstop hout rfl hdb rfl,
      ⟨hat.executed _ _, hslot, fun _ => rfl, rfl⟩⟩

/-- The batch claims the next row. -/
theorem App.Underway.step_claim {pc : Pc} {r : Result}
    (h : a.Underway (cfg node).relayLimit x course done [] (row :: todo) [])
    (hloop : x.AtLoop cfg p node ((row :: todo).map a.store.db.pendingEvent) pc r) :
    ∃ y, x.step cfg (.resume p) = some y ∧ y.store.clock = x.store.clock ∧
      a.Underway (cfg node).relayLimit y course done [] (row :: todo) [] ∧
      y.At p node (.claiming (a.store.db.pendingEvent row) (todo.map a.store.db.pendingEvent)) ∧
      y.store.slots.get p = some (.running (.leaseUpdate row.id (cfg node).nodeID
        (cfg node).leaseDuration) x.store.clock) := by
  obtain ⟨y, hstep, hat, hstore, hhistory⟩ := hloop.claim
  have hclock : y.store.clock = x.store.clock := by
    rw [hstore]
    rfl
  refine ⟨y, hstep, hclock, h.pass hclock.ge (by rw [hstore]; rfl) hhistory, hat, ?_⟩
  rw [hstore]
  simp only [System.launch, Clustered.get_put, if_true, Op.begin]
  rfl

/-- After the last row the batch ends. -/
theorem App.Underway.step_finish {pc : Pc} {r : Result}
    (h : a.Underway (cfg node).relayLimit x course done [] [] [])
    (hloop : x.AtLoop cfg p node [] pc r) :
    ∃ y, x.step cfg (.resume p) = some y ∧
      a.Underway (cfg node).relayLimit y course
        (course.listed a.store.db (cfg node).relayLimit) [] [] [] ∧
      y.procs.get p = none ∧ y.store.callOf p = none ∧ (y.nodes node).Closed := by
  obtain ⟨y, hstep, hp, hclosed, hstore, hhistory⟩ := hloop.finish
  have hall : done = course.listed a.store.db (cfg node).relayLimit := by
    rw [h.listed, List.append_nil, List.append_nil]
  have hy : a.Underway (cfg node).relayLimit y course done [] [] [] :=
    h.pass (by rw [hstore]) (by rw [hstore]) hhistory
  rw [hall] at hy
  refine ⟨y, hstep, hy, hp, ?_, hclosed⟩
  rw [hstore]
  exact System.callOf_of_returned hloop.returned

/-- The batch goes on to publish the leased row. -/
theorem App.Underway.step_leased (h : a.Underway (cfg node).relayLimit x course done [row] todo [])
    (hat : x.At p node
      (.claiming (a.store.db.pendingEvent row) (todo.map a.store.db.pendingEvent)))
    (hslot : x.store.slots.get p = some (.returned (.leased true))) :
    ∃ y, x.step cfg (.resume p) = some y ∧
      a.Underway (cfg node).relayLimit y course done [row] todo [] ∧
      y.At p node (.publishing (.relay (a.store.db.pendingEvent row)
        (todo.map a.store.db.pendingEvent)) (cfg node).firstAttempt) ∧
      y.store.callOf p = none := by
  obtain ⟨y, hstep, hat', hstore, hhistory⟩ := hat.leased cfg hslot
  refine ⟨y, hstep, h.pass (by rw [hstore]) (by rw [hstore]) hhistory, hat', ?_⟩
  rw [hstore]
  exact System.callOf_of_returned hslot

/-- The batch sends the message of the leased row. -/
theorem App.Underway.step_send {attempt : Attempt}
    (h : a.Underway (cfg node).relayLimit x course done [row] todo [])
    (hat : x.At p node (.publishing (.relay (a.store.db.pendingEvent row)
      (todo.map a.store.db.pendingEvent)) attempt))
    (hidle : x.store.callOf p = none) :
    ∃ y, x.step cfg (.send p) = some y ∧
      a.Underway (cfg node).relayLimit y course done [row] todo [.sent row.message] ∧
      y.At p node (.sent (.relay (a.store.db.pendingEvent row)
        (todo.map a.store.db.pendingEvent)) attempt) ∧ y.store.callOf p = none := by
  obtain ⟨y, hstep, hat', hstore, hhistory⟩ := hat.send cfg
  exact ⟨y, hstep, h.send hstore hhistory, hat', by rw [hstore]; exact hidle⟩

/-- The message of the leased row is confirmed, and the batch goes on to mark the event. -/
theorem App.Underway.step_ack {attempt : Attempt}
    (h : a.Underway (cfg node).relayLimit x course done [row] todo [.sent row.message])
    (htraced : a.store.db.Traced ins)
    (hat : x.At p node (.sent (.relay (a.store.db.pendingEvent row)
      (todo.map a.store.db.pendingEvent)) attempt))
    (hidle : x.store.callOf p = none) (brokerID : String) :
    ∃ y c, x.step cfg (.ack p (.ok brokerID)) = some y ∧ y.store.clock = x.store.clock ∧
      a.Underway (cfg node).relayLimit y (course.confirm row brokerID) done [row] todo
        [.acked row.message (.ok ((course.confirm row brokerID).broker row)), .sent row.message] ∧
      y.At p node (.marking (.relay (a.store.db.pendingEvent row)
        (todo.map a.store.db.pendingEvent))) ∧
      y.store.slots.get p = some (.running c x.store.clock) ∧
      c.Marks a.store.db row ((course.confirm row brokerID).broker row) := by
  obtain ⟨y, hstep, hat', hstore, hhistory⟩ := hat.ack cfg hidle brokerID
  have hclock : y.store.clock = x.store.clock := by
    rw [hstore]
    rfl
  have hbroker : (course.confirm row brokerID).broker row = brokerID := Function.update_self ..
  refine ⟨y, .markRead row.id brokerID, hstep, hclock,
    h.confirm htraced hclock (by rw [hstore]; rfl) hhistory, hat', ?_, ?_⟩
  · rw [hstore]
    simp only [System.launch, Clustered.get_put, if_true, Op.begin]
    rfl
  · rw [hbroker]
    exact .read

end Statements

section Phases

variable {cfg : ℕ → Config} {a x y : App} {p node : ℕ} {ins : List (EventRecord × UUID)}

/-- Time may pass in every phase. -/
theorem App.Phase.tick (h : a.Phase cfg p node x) {now : Time} (hnow : x.store.clock ≤ now) :
    a.Phase cfg p node { x with store := { x.store with clock := now } } := by
  cases h with
  | listing hscan hc hat hslot hsince =>
    exact .listing ⟨hscan.later.trans hnow, hscan.within.later hnow, hscan.db, hscan.history⟩ hc
      ⟨hat.proc, hat.closed⟩ hslot ⟨hsince.1, hsince.2.trans hnow⟩
  | loop hu hloop =>
    exact .loop (hu.pass hnow rfl rfl)
      ⟨⟨hloop.proc, hloop.closed⟩, hloop.returned, hloop.success, hloop.resumes⟩
  | claiming hu hat hslot hsince =>
    exact .claiming (hu.pass hnow rfl rfl) ⟨hat.proc, hat.closed⟩ hslot
      ⟨hsince.1, hsince.2.trans hnow⟩
  | leased hu hat hslot => exact .leased (hu.pass hnow rfl rfl) ⟨hat.proc, hat.closed⟩ hslot
  | publishing hu hat hidle =>
    exact .publishing (hu.pass hnow rfl rfl) ⟨hat.proc, hat.closed⟩ hidle
  | sent hu hat hidle => exact .sent (hu.pass hnow rfl rfl) ⟨hat.proc, hat.closed⟩ hidle
  | marking hu hat hslot hsince hmarks =>
    exact .marking (hu.pass hnow rfl rfl) ⟨hat.proc, hat.closed⟩ hslot
      ⟨hsince.1, hsince.2.trans hnow⟩ hmarks
  | ended hu hp hidle hclosed => exact .ended (hu.pass hnow rfl rfl) hp hidle hclosed

/-- A statement of the batch. -/
theorem App.Phase.exec (h : a.Phase cfg p node x) (hl : a.store.db.Leasable)
    (htraced : a.store.db.Traced ins) {c : Call} {since : Time} {env : Env}
    (hslot : x.store.slots.get p = some (.running c since)) (hsince : since ≤ env.now)
    (hnow : env.now ≤ x.store.clock) : a.Phase cfg p node (x.executed p c env) := by
  have hrunning : ∀ r, x.store.slots.get p ≠ some (.returned r) := by
    intro r hr
    cases hslot.symm.trans hr
  have hcall : x.store.callOf p ≠ none := by simp [System.callOf, hslot]
  cases h with
  | listing hscan hc hat hslot' hsince' =>
    cases hslot.symm.trans hslot'
    obtain ⟨course, hscan', ⟨d, hd, hdscan, -⟩ | hdone⟩ :=
      hscan.exec hl htraced hc (hsince'.1.trans hsince) hnow p
    · exact .listing hscan' hdscan (hat.executed _ _) hd ⟨hscan.later, le_refl _⟩
    · obtain ⟨hu, hloop⟩ := hscan'.loop (hat.executed _ _) hdone
      exact .loop hu hloop
  | claiming hu hat hslot' hsince' =>
    cases hslot.symm.trans hslot'
    rcases hu.exec_claim htraced hat (hsince'.1.trans hsince) hnow with ⟨hu', hd⟩ | ⟨hu', hloop⟩
    · exact .leased hu' (hat.executed _ _) hd
    · exact .loop hu' hloop
  | marking hu hat hslot' hsince' hmarks =>
    cases hslot.symm.trans hslot'
    rcases hu.exec_mark htraced hat hmarks (hsince'.1.trans hsince) hnow with
      ⟨out, hout, -, hu', hd⟩ | ⟨hu', hloop⟩
    · exact .marking hu' (hat.executed _ _) hd ⟨hu.later, le_refl _⟩ (.batch hout)
    · exact .loop hu' hloop
  | loop hu hloop => exact absurd hloop.returned (hrunning _)
  | leased hu hat hslot' => exact absurd hslot' (hrunning _)
  | publishing hu hat hidle => exact absurd hidle hcall
  | sent hu hat hidle => exact absurd hidle hcall
  | ended hu hp hidle hclosed => exact absurd hidle hcall

/-- The batch goes on after a statement: with the loop or with the message of a leased row. -/
theorem App.Phase.resume (h : a.Phase cfg p node x) {node' : ℕ} {pc : Pc} {r : Result}
    {action : Action} (hproc : x.procs.get p = some ⟨node', pc⟩)
    (hslot : x.store.slots.get p = some (.returned r))
    (hresume : pc.resume (cfg node') r = some action) (hstep : x.step cfg (.resume p) = some y) :
    a.Phase cfg p node y := by
  have hreturned : ∀ c since, x.store.slots.get p ≠ some (.running c since) := by
    intro c since hc
    cases hslot.symm.trans hc
  cases h with
  | @loop course done todo pc r hu hloop =>
    cases todo with
    | nil =>
      obtain ⟨z, hz, hu', hp, hidle, hclosed⟩ := hu.step_finish hloop
      cases hz.symm.trans hstep
      exact .ended hu' hp hidle hclosed
    | cons row todo =>
      obtain ⟨z, hz, hclock, hu', hat, hclaim⟩ := hu.step_claim hloop
      cases hz.symm.trans hstep
      exact .claiming hu' hat hclaim ⟨hu.later, hclock.ge⟩
  | leased hu hat hslot' =>
    obtain ⟨z, hz, hu', hat', hidle⟩ := hu.step_leased hat hslot'
    cases hz.symm.trans hstep
    exact .publishing hu' hat' hidle
  | listing hscan hc hat hslot' hsince => exact absurd hslot' (hreturned _ _)
  | claiming hu hat hslot' hsince => exact absurd hslot' (hreturned _ _)
  | marking hu hat hslot' hsince hmarks => exact absurd hslot' (hreturned _ _)
  | publishing hu hat hidle =>
    cases hat.proc.symm.trans hproc
    cases hresume
  | sent hu hat hidle =>
    cases hat.proc.symm.trans hproc
    cases hresume
  | ended hu hp hidle hclosed => cases hp.symm.trans hproc

/-- The batch sends its message. -/
theorem App.Phase.send (h : a.Phase cfg p node x) {node' : ℕ} {job : Job} {attempt : Attempt}
    (hproc : x.procs.get p = some ⟨node', .publishing job attempt⟩)
    (hstep : x.step cfg (.send p) = some y) : a.Phase cfg p node y := by
  cases h with
  | publishing hu hat hidle =>
    obtain ⟨z, hz, hu', hat', hidle'⟩ := hu.step_send hat hidle
    cases hz.symm.trans hstep
    exact .sent hu' hat' hidle'
  | loop hu hloop =>
    cases hloop.proc.symm.trans hproc
    cases hloop.resumes
  | listing hscan hc hat hslot hsince => cases hat.proc.symm.trans hproc
  | claiming hu hat hslot hsince => cases hat.proc.symm.trans hproc
  | leased hu hat hslot => cases hat.proc.symm.trans hproc
  | sent hu hat hidle => cases hat.proc.symm.trans hproc
  | marking hu hat hslot hsince hmarks => cases hat.proc.symm.trans hproc
  | ended hu hp hidle hclosed => cases hp.symm.trans hproc

/-- The message of the batch is confirmed. -/
theorem App.Phase.ack (h : a.Phase cfg p node x) (htraced : a.store.db.Traced ins) {node' : ℕ}
    {job : Job} {attempt : Attempt} {brokerID : String}
    (hproc : x.procs.get p = some ⟨node', .sent job attempt⟩)
    (hstep : x.step cfg (.ack p (.ok brokerID)) = some y) : a.Phase cfg p node y := by
  cases h with
  | sent hu hat hidle =>
    obtain ⟨z, c, hz, hclock, hu', hat', hslot, hmarks⟩ := hu.step_ack htraced hat hidle brokerID
    cases hz.symm.trans hstep
    exact .marking hu' hat' hslot ⟨hu.later, hclock.ge⟩ hmarks
  | loop hu hloop =>
    cases hloop.proc.symm.trans hproc
    cases hloop.resumes
  | listing hscan hc hat hslot hsince => cases hat.proc.symm.trans hproc
  | claiming hu hat hslot hsince => cases hat.proc.symm.trans hproc
  | leased hu hat hslot => cases hat.proc.symm.trans hproc
  | publishing hu hat hidle => cases hat.proc.symm.trans hproc
  | marking hu hat hslot hsince hmarks => cases hat.proc.symm.trans hproc
  | ended hu hp hidle hclosed => cases hp.symm.trans hproc

/-- Every step leads from one phase of the batch to another. -/
theorem App.Phase.step (h : a.Phase cfg p node x) (hl : a.store.db.Leasable)
    (htraced : a.store.db.Traced ins) {l : AppLabel} (hworks : l.works p)
    (hstep : x.step cfg l = some y) : a.Phase cfg p node y := by
  cases App.step_moves hstep with
  | tick hnow => exact h.tick hnow
  | @exec q report env c since hslot hsince hnow =>
    cases report with
    | ok =>
      obtain rfl : q = p := hworks
      exact h.exec hl htraced hslot hsince hnow
    | _ => cases hworks
  | @resume q node' pc r action b hproc hslot hresume hproceeds =>
    obtain rfl : q = p := hworks
    exact h.resume hproc hslot hresume hstep
  | @sent q node' job attempt b hproc hallow hacts =>
    obtain rfl : q = p := hworks
    exact h.send hproc hstep
  | @unsent q node' job attempt b hproc hallow hproceeds =>
    obtain rfl : q = p := hworks
    exact h.send hproc hstep
  | @acked q node' job attempt brokerID b hproc hproceeds =>
    obtain rfl : q = p := hworks
    exact h.ack htraced hproc hstep
  | _ => cases hworks

/-- A batch starts with its scan. -/
theorem App.phase_spawn (cfg : ℕ → Config) (hp : a.procs.get p = none)
    (hidle : a.store.callOf p = none) (hclosed : (a.nodes node).Closed) :
    ∃ b, a.step cfg (.spawn p node .relay) = some b ∧ a.Phase cfg p node b := by
  obtain ⟨b, hb, hat, hstore, hhistory⟩ := App.step_spawn_relay cfg hp hidle hclosed
  have hclock : b.store.clock = a.store.clock := by
    rw [hstore]
    rfl
  have hslot : b.store.slots.get p =
      some (.running (.pendingSelect (cfg node).relayLimit) a.store.clock) := by
    rw [hstore]
    simp only [System.launch, Clustered.get_put, if_true, Op.begin]
    rfl
  have hscan : a.Scanning b (.start a.store.clock) := by
    refine ⟨hclock.ge, ?_, by rw [hstore]; rfl, hhistory⟩
    rw [hclock]
    exact Course.within_start _
  exact ⟨b, hb, .listing hscan .select hat hslot ⟨le_refl _, hclock.ge⟩⟩

end Phases

end ControlPlane

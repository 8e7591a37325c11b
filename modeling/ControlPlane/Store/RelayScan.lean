import ControlPlane.Store.Outbox
import ControlPlane.Store.Eligibility
import ControlPlane.Store.Serial

/-!
# The relay scan

`PendingOutboxEvents` reads a window of five times its limit from the front of the
pending partition and skips the events that are quarantined, backing off or leased.
Skipped events stay in the partition, so the scan returns the oldest eligible
events exactly when the window holds enough of them or when nothing eligible lies
beyond it.
-/

namespace ControlPlane

open Transition

section Scan

variable {db : Store} {now : Time} {limit : ℕ}

/-- A row that is not due is passed over. -/
theorem Call.exec_pendingJudge_skip {row : PendingRow} {view : RetryView} {rest : List PendingRow}
    {out : List EventRecord} {env : Env} (hskip : view.skipped env.now = true) :
    (Call.pendingJudge limit row view rest out).exec env db = (db, scanPending limit rest out) :=
  if_pos hskip

/-- A due row is taken, and the scan ends when the limit is reached. -/
theorem Call.exec_pendingJudge_take {row : PendingRow} {view : RetryView} {rest : List PendingRow}
    {out : List EventRecord} {env : Env} (hskip : view.skipped env.now = false) :
    (Call.pendingJudge limit row view rest out).exec env db =
      (db, if limit ≤ out.length + 1 then
          .done (.pending (out ++ [pendingRecord row view.retryCount]))
        else scanPending limit rest (out ++ [pendingRecord row view.retryCount])) := by
  have hlen : (out ++ [pendingRecord row view.retryCount]).length = out.length + 1 := by simp
  rw [Call.exec, if_neg (by simp [hskip])]
  simp only [hlen]
  split_ifs <;> rfl

/-- The scan loop appends the first due rows until the limit is reached. -/
theorem complete_scanPending {rows : List PendingRow} (hrows : ∀ row ∈ rows,
      (db.loadRetryState (ofLex row.1).2).skipped now = !db.dueRow now row)
    {out : List EventRecord} (hout : out.length < limit) {envs : List Env}
    (hnow : ∀ env ∈ envs, env.now = now) (henvs : 2 * rows.length ≤ envs.length) :
    (scanPending limit rows out).complete envs db = some (db, .pending (out ++
      ((rows.filter (db.dueRow now)).take (limit - out.length)).map db.pendingEvent)) := by
  induction rows generalizing out envs with
  | nil => simp [scanPending, Next.complete]
  | cons row rows ih =>
    rw [List.length_cons] at henvs
    have hfirst : 0 < envs.length := by omega
    obtain ⟨env, tail, rfl⟩ := List.exists_cons_of_length_pos hfirst
    rw [List.length_cons] at henvs
    have hsecond : 0 < tail.length := by omega
    obtain ⟨env', envs, rfl⟩ := List.exists_cons_of_length_pos hsecond
    have hnow' : env'.now = now := hnow env' (by simp)
    have hrest : ∀ e ∈ envs, e.now = now := fun e he => hnow e (by simp [he])
    have hlen : 2 * rows.length ≤ envs.length := by
      simp only [List.length_cons] at henvs
      omega
    have hskip := hrows row List.mem_cons_self
    have hrows' := fun r hr => hrows r (List.mem_cons_of_mem row hr)
    rw [scanPending, Next.complete, Call.complete_cons]
    simp only [Call.exec, Next.complete]
    rw [Call.complete_cons]
    by_cases hdue : db.dueRow now row = true
    · have htake : (db.loadRetryState (ofLex row.1).2).skipped env'.now = false := by
        rw [hnow', hskip, hdue]
        rfl
      obtain ⟨k, hk⟩ : ∃ k, limit - out.length = k + 1 := ⟨limit - out.length - 1, by omega⟩
      rw [Call.exec_pendingJudge_take htake, List.filter_cons_of_pos hdue, hk,
        List.take_succ_cons, List.map_cons]
      by_cases hfull : limit ≤ out.length + 1
      · have hzero : k = 0 := by omega
        rw [if_pos hfull, hzero]
        rfl
      · have hout' : (out ++ [db.pendingEvent row]).length < limit := by
          simp only [List.length_append, List.length_cons, List.length_nil]
          omega
        have hk' : limit - (out ++ [db.pendingEvent row]).length = k := by
          simp only [List.length_append, List.length_cons, List.length_nil]
          omega
        have hscan := ih hrows' hout' hrest hlen
        rw [hk', List.append_assoc] at hscan
        rw [if_neg hfull]
        exact hscan
    · have hpass : (db.loadRetryState (ofLex row.1).2).skipped env'.now = true := by
        rw [hnow', hskip]
        simpa using hdue
      rw [Call.exec_pendingJudge_skip hpass, List.filter_cons_of_neg hdue]
      exact ih hrows' hout hrest hlen

/-- The limit is clamped to at least one place. -/
theorem pendingLimit_pos (limit : ℤ) : 0 < pendingLimit limit := by
  unfold pendingLimit
  split_ifs <;> omega

/-- The event of a pending row has a retry state with the end of a lease. -/
theorem Store.Leasable.retry_of_row {ins : List (EventRecord × UUID)} (h : db.Leasable)
    (htraced : db.Traced ins) {row : PendingRow} (hrow : row ∈ db.outboxByState.rows) :
    ∃ retry u, db.outboxRetryState (ofLex row.1).2 = some retry ∧ retry.leaseUntil = some u := by
  obtain ⟨out, hout, hstate, -⟩ := (htraced.index row.1 row.2).mp (Clustered.mem_rows.mp hrow)
  obtain ⟨retry, hretry⟩ := h.pending _ _ hout hstate
  obtain ⟨u, hu⟩ := h.lease _ _ hretry
  exact ⟨retry, u, hretry, hu⟩

/-- In the tables of a reachable state the scan skips what is not due. -/
theorem Store.Leasable.skipped_page {ins : List (EventRecord × UUID)} (h : db.Leasable)
    (htraced : db.Traced ins) {n : ℕ} {row : PendingRow} (hrow : row ∈ db.outboxByState.page n)
    (now : Time) : (db.loadRetryState (ofLex row.1).2).skipped now = !db.dueRow now row := by
  obtain ⟨retry, u, hretry, hu⟩ := h.retry_of_row htraced (List.mem_of_mem_take hrow)
  exact Store.skipped_eq hretry hu

/-- The relay scan returns the first due rows of its window. -/
theorem Store.Leasable.complete_pending {ins : List (EventRecord × UUID)} (h : db.Leasable)
    (htraced : db.Traced ins) (limit : ℤ) {envs : List Env} (hnow : ∀ env ∈ envs, env.now = now)
    (henvs : 2 * fetchLimit (pendingLimit limit) < envs.length) :
    (Op.begin now (.pending limit)).complete envs db = some (db, .pending
      ((((db.outboxByState.page (fetchLimit (pendingLimit limit))).filter (db.dueRow now)).take
        (pendingLimit limit)).map db.pendingEvent)) := by
  obtain ⟨env, envs, rfl⟩ := List.exists_cons_of_length_pos (lt_of_le_of_lt (Nat.zero_le _) henvs)
  have hrows : ∀ row ∈ db.outboxByState.page (fetchLimit (pendingLimit limit)),
      (db.loadRetryState (ofLex row.1).2).skipped now = !db.dueRow now row :=
    fun _ hrow => h.skipped_page htraced hrow now
  have hlen : 2 * (db.outboxByState.page (fetchLimit (pendingLimit limit))).length ≤
      envs.length := by
    have hpage : (db.outboxByState.page (fetchLimit (pendingLimit limit))).length ≤
        fetchLimit (pendingLimit limit) := List.length_take_le ..
    simp only [List.length_cons] at henvs
    omega
  have hpos : ([] : List EventRecord).length < pendingLimit limit := pendingLimit_pos limit
  have hscan := complete_scanPending hrows hpos
    (fun e he => hnow e (List.mem_cons_of_mem env he)) hlen
  rw [Op.begin, Call.complete_cons, Call.exec]
  simpa only [List.nil_append, List.length_nil, Nat.sub_zero] using hscan

end Scan

/-- Searching a window of a list finds the first `n` matches exactly when the window
has `n` matches or nothing beyond it matches. -/
theorem length_take_filter_window {α : Type*} (p : α → Bool) (n m : ℕ) (l : List α) :
    (((l.take m).filter p).take n).length = ((l.filter p).take n).length ↔
      n ≤ ((l.take m).filter p).length ∨ ∀ x ∈ l.drop m, p x = false := by
  have hsplit : (l.filter p).length = ((l.take m).filter p).length + ((l.drop m).filter p).length := by
    rw [← List.length_append, ← List.filter_append, List.take_append_drop]
  have hnone : (∀ x ∈ l.drop m, p x = false) ↔ ((l.drop m).filter p).length = 0 := by
    simp [List.length_eq_zero_iff, List.filter_eq_nil_iff]
  rw [hnone, List.length_take, List.length_take, hsplit]
  omega

/-- **The relay scan.** In every state between complete executions, and at every
time, a scan returns the oldest eligible events up to its limit if and only if its
window holds that many eligible events or no eligible event lies beyond it. -/
theorem relay_scan_oldest_eligible {s : Serial} (h : s.Reachable) (limit : ℤ) (now : Time)
    {envs : List Env} (hnow : ∀ env ∈ envs, env.now = now)
    (henvs : 2 * fetchLimit (pendingLimit limit) < envs.length) :
    ∃ events, (Op.begin now (.pending limit)).complete envs s.db = some (s.db, .pending events) ∧
      (events = ((s.db.eligible now).take (pendingLimit limit)).map s.db.pendingEvent ↔
        pendingLimit limit ≤ ((s.db.outboxByState.page (fetchLimit (pendingLimit limit))).filter
          (s.db.dueRow now)).length ∨
        ∀ row ∈ s.db.outboxByState.rows.drop (fetchLimit (pendingLimit limit)),
          s.db.dueRow now row = false) := by
  obtain ⟨t, ht, -, hdb⟩ := h.system
  rw [← hdb]
  refine ⟨_, ht.leasable.complete_pending ht.traced.store limit hnow henvs, ?_⟩
  constructor
  · intro heq
    have hlength := congrArg List.length heq
    rw [List.length_map, List.length_map] at hlength
    exact (length_take_filter_window _ _ _ _).mp hlength
  · intro hwindow
    have hsplit : t.db.eligible now = (t.db.outboxByState.page (fetchLimit (pendingLimit limit))).filter
          (t.db.dueRow now) ++ (t.db.outboxByState.rows.drop (fetchLimit (pendingLimit limit))).filter
          (t.db.dueRow now) := by
      rw [← List.filter_append, Clustered.page, List.take_append_drop, Store.eligible]
    rw [hsplit]
    rcases hwindow with hfull | hnone
    · rw [List.take_append_of_le_length hfull]
    · have hnil : (t.db.outboxByState.rows.drop (fetchLimit (pendingLimit limit))).filter
          (t.db.dueRow now) = [] := by
        rw [List.filter_eq_nil_iff]
        intro row hrow
        rw [hnone row hrow]
        exact Bool.false_ne_true
      rw [hnil, List.append_nil]

/-- The arguments of a failure that quarantines its event at once. -/
def poison (id : UUID) : FailureArgs := ⟨id, "nats timeout", 500000000, 30000000000, 0, 1⟩

/-- An order without an idempotency key. -/
def plainOrder : EventRecord := { orderCreated with idempotencyKey := "" }

/-- The oldest of three orders is quarantined, and a scan for one event returns the second. -/
theorem relay_scan_oldest_eligible_orders : ∃ (s : Serial) (events : List EventRecord),
    s.Reachable ∧ s.db.outboxByState.rows.map (fun row => (ofLex row.1).2) = [1, 2, 3] ∧
    (s.db.eligible 5000000).map (fun row => (ofLex row.1).2) = [2, 3] ∧
    (Op.begin 5000000 (.pending 1)).complete (List.replicate 201 ⟨5000000, 0, .row⟩) s.db =
      some (s.db, .pending events) ∧
    events = ((s.db.eligible 5000000).take 1).map s.db.pendingEvent := by
  obtain ⟨s, hs, htest⟩ := Serial.Reachable.of_play 5000000
    [⟨.append plainOrder 1, 5000000, [⟨5000000, 0, .row⟩]⟩,
      ⟨.append plainOrder 2, 5000000, [⟨5000000, 0, .row⟩]⟩,
      ⟨.append plainOrder 3, 5000000, [⟨5000000, 0, .row⟩]⟩,
      ⟨.recordFailure (poison 1), 5000000, List.replicate 4 ⟨5000000, 0, .row⟩⟩]
    (fun s => decide (s.db.outboxByState.rows.map (fun row => (ofLex row.1).2) = [1, 2, 3]) &&
      decide ((s.db.eligible 5000000).map (fun row => (ofLex row.1).2) = [2, 3]))
    (by decide +kernel)
  rw [Bool.and_eq_true, decide_eq_true_eq, decide_eq_true_eq] at htest
  obtain ⟨hrows, heligible⟩ := htest
  have hlen : 2 * fetchLimit (pendingLimit 1) <
      (List.replicate 201 (⟨5000000, 0, .row⟩ : Env)).length := by
    rw [List.length_replicate]
    decide
  obtain ⟨events, hscan, hiff⟩ := relay_scan_oldest_eligible hs 1 5000000
    (fun env henv => by rw [List.eq_of_mem_replicate henv]) hlen
  refine ⟨s, events, hs, hrows, heligible, hscan, hiff.mpr (.inr fun row hrow => ?_)⟩
  -- The window is longer than the partition.
  have hlength := congrArg List.length hrows
  rw [List.length_map] at hlength
  rw [List.drop_eq_nil_of_le (hlength.trans_le (by decide))] at hrow
  cases hrow

section Starvation

/-- A key above all others is placed at the end. -/
theorem Clustered.place_of_forall_lt {K V : Type*} [LinearOrder K] {k : K} {v : V}
    {rows : List (K × V)} (h : ∀ row ∈ rows, row.1 < k) :
    Clustered.place k v rows = rows ++ [(k, v)] := by
  induction rows with
  | nil => rfl
  | cons row rows ih =>
    have hrow := h row List.mem_cons_self
    rw [Clustered.place, if_neg hrow.not_gt, if_neg hrow.ne',
      ih fun r hr => h r (List.mem_cons_of_mem row hr)]
    rfl

/-- A failure that reaches the quarantine threshold, executed to its end. -/
theorem complete_quarantine {db : Store} {retry : RetryRow} {row : OutboxRow} (args : FailureArgs)
    (now : Time) (e₁ e₂ e₃ e₄ : Env) (hretry : db.outboxRetryState args.eventID = some retry)
    (hrow : db.outboxEvents args.eventID = some row)
    (hq : args.quarantines (retry.retryCount + 1) = true) :
    (Op.begin now (.recordFailure args)).complete [e₁, e₂, e₃, e₄] db =
      some ((db.setFailure args.eventID (retry.retryCount + 1)
          (toTimestamp (e₂.now + args.wait (retry.retryCount + 1) e₂.draw)) args.lastError true
          (toTimestamp e₂.now) (toTimestamp (if ofTimestamp retry.firstFailedAt = zeroTime then e₂.now
            else ofTimestamp retry.firstFailedAt))).insertDeadLetter args.eventID
          (toTimestamp e₂.now)
          { toContent := row.toContent, retryCount := retry.retryCount + 1,
            lastError := args.lastError },
        .recorded true (retry.retryCount + 1)) := by
  have hread : (Call.failureRead args).exec e₁ db = (db, .call (.failureUpdate args
      (retry.retryCount + 1) (ofTimestamp retry.firstFailedAt))) := by
    simp only [Call.exec, hretry]
  have hlookup : ∀ db' : Store, db'.outboxEvents = db.outboxEvents → ∀ n now,
      (Call.failureLookup args n now).exec e₃ db' =
        (db', .call (.failureBatch args n now row.toContent)) := by
    intro db' heq n now
    simp only [Call.exec, heq, hrow]
  have hupdate : ∀ n first, args.quarantines n = true → (Call.failureUpdate args n first).exec e₂ db =
      (db.setFailure args.eventID n (toTimestamp (e₂.now + args.wait n e₂.draw)) args.lastError true
        (toTimestamp e₂.now) (toTimestamp (if first = zeroTime then e₂.now else first)),
        .call (.failureLookup args n e₂.now)) := by
    intro n first hn
    simp only [Call.exec, hn, if_true]
  rw [Op.begin, Call.complete_cons, hread]
  simp only [Next.complete]
  rw [Call.complete_cons, hupdate _ _ hq]
  simp only [Next.complete]
  rw [Call.complete_cons, hlookup (db.setFailure _ _ _ _ _ _ _) rfl]
  rfl

/-- One order more is appended. -/
theorem Serial.step_plainOrder {s : Serial} {n : UUID} (hclock : s.clock = 5000000)
    (hfresh : n ∉ s.generated) :
    s.step ⟨.append plainOrder n, 5000000, [⟨5000000, 0, .row⟩]⟩ =
      some ⟨s.db.insertEvent plainOrder n, 5000000, n :: s.generated⟩ := by
  have hguard : s.clock ≤ 5000000 ∧ timely 5000000 [⟨5000000, 0, .row⟩] = true ∧
      ∀ id ∈ (Op.append plainOrder n).draws, id ∉ s.generated := by
    refine ⟨hclock.le, rfl, ?_⟩
    intro id hid
    rw [List.mem_singleton.mp hid]
    exact hfresh
  rw [Serial.step, if_pos hguard]
  rfl

/-- The pending partition after one order more, when all others are older. -/
theorem rows_insertEvent_plainOrder {db : Store} {n : UUID}
    (h : ∀ row ∈ db.outboxByState.rows, (ofLex row.1).1 = 5 ∧ (ofLex row.1).2 < n) :
    (db.insertEvent plainOrder n).outboxByState.rows =
      db.outboxByState.rows ++ [(toLex (5, n), plainOrder.toContent)] := by
  refine Clustered.place_of_forall_lt ?_
  intro row hrow
  obtain ⟨ht, hid⟩ := h row hrow
  exact Prod.Lex.lt_iff.mpr (Or.inr ⟨ht, hid⟩)

/-- Any number of quarantined events can stand at the front of the pending partition. -/
theorem exists_quarantined_queue (n : ℕ) : ∃ s : Serial, s.Reachable ∧ s.clock = 5000000 ∧
    (∀ id ∈ s.generated, id < n) ∧ s.db.outboxByState.rows.length = n ∧
    ∀ row ∈ s.db.outboxByState.rows, ((ofLex row.1).1 = 5 ∧ (ofLex row.1).2 < n) ∧
      ∃ retry, s.db.outboxRetryState (ofLex row.1).2 = some retry ∧ retry.quarantined = true := by
  induction n with
  | zero =>
    refine ⟨Serial.init 5000000, ⟨_, .refl _⟩, rfl, ?_, rfl, ?_⟩
    · intro id hid
      cases hid
    · intro row hrow
      cases hrow
  | succ n ih =>
    obtain ⟨s, hs, hclock, hfresh, hlen, hrows⟩ := ih
    have hnew : n ∉ s.generated := fun hmem => lt_irrefl n (hfresh n hmem)
    have happended := hs.next (Serial.step_plainOrder hclock hnew)
    have hrows' := rows_insertEvent_plainOrder fun row hrow => (hrows row hrow).1
    have hretry : ∃ retry, (s.db.insertEvent plainOrder n).outboxRetryState n = some retry ∧
        retry.retryCount = 0 := ⟨_, Function.update_self .., rfl⟩
    have houtbox : ∃ row, (s.db.insertEvent plainOrder n).outboxEvents n = some row :=
      ⟨_, Function.update_self ..⟩
    obtain ⟨retry, hretry, hcount⟩ := hretry
    obtain ⟨row, hrow⟩ := houtbox
    have hq : (poison n).quarantines (retry.retryCount + 1) = true := by
      rw [hcount]
      rfl
    have hfail := complete_quarantine (poison n) 5000000 ⟨5000000, 0, .row⟩ ⟨5000000, 0, .row⟩
      ⟨5000000, 0, .row⟩ ⟨5000000, 0, .row⟩ hretry hrow hq
    have hquarantined := happended.next (x := ⟨.recordFailure (poison n), 5000000,
      [⟨5000000, 0, .row⟩, ⟨5000000, 0, .row⟩, ⟨5000000, 0, .row⟩, ⟨5000000, 0, .row⟩]⟩)
      (by
        rw [Serial.step, if_pos ⟨le_refl _, rfl, by simp [Op.draws]⟩, hfail]
        rfl)
    refine ⟨_, hquarantined, rfl, ?_, ?_, ?_⟩
    · intro id hid
      rcases List.mem_cons.mp hid with rfl | hid
      · exact Nat.lt_succ_self id
      · exact Nat.lt_succ_of_lt (hfresh id hid)
    · exact (congrArg List.length hrows').trans (by rw [List.length_append, hlen]; rfl)
    · intro row hmem
      rcases List.mem_append.mp (hrows' ▸ hmem) with hold | hlast
      · obtain ⟨⟨ht, hid⟩, old, hold, hq⟩ := hrows row hold
        refine ⟨⟨ht, Nat.lt_succ_of_lt hid⟩, old, ?_, hq⟩
        have hne : (ofLex row.1).2 ≠ n := hid.ne
        exact (Function.update_of_ne hne ..).trans ((Function.update_of_ne hne ..).trans hold)
      · rw [List.mem_singleton.mp hlast]
        exact ⟨⟨rfl, Nat.lt_succ_self n⟩, _, Function.update_self .., rfl⟩

/-- For every limit there is a sequence of complete executions after which quarantined
events fill the window of the scan: it returns nothing although an event is eligible. -/
theorem exists_starved_scan (limit : ℤ) : ∃ s : Serial, s.Reachable ∧
    s.db.eligible 5000000 ≠ [] ∧ ∀ envs : List Env, (∀ env ∈ envs, env.now = 5000000) →
      2 * fetchLimit (pendingLimit limit) < envs.length →
      (Op.begin 5000000 (.pending limit)).complete envs s.db = some (s.db, .pending []) := by
  obtain ⟨s, hs, hclock, hfresh, hlen, hrows⟩ :=
    exists_quarantined_queue (fetchLimit (pendingLimit limit))
  have hnew : fetchLimit (pendingLimit limit) ∉ s.generated :=
    fun hmem => lt_irrefl _ (hfresh _ hmem)
  have hnext := hs.next (Serial.step_plainOrder hclock hnew)
  have hrows' := rows_insertEvent_plainOrder fun row hrow => (hrows row hrow).1
  refine ⟨_, hnext, ?_, ?_⟩
  · have hlast : (toLex (5, fetchLimit (pendingLimit limit)), plainOrder.toContent) ∈
        (s.db.insertEvent plainOrder (fetchLimit (pendingLimit limit))).eligible 5000000 := by
      refine List.mem_filter.mpr ⟨?_, ?_⟩
      · rw [hrows']
        exact List.mem_append_right _ (List.mem_singleton_self _)
      · simp [Store.dueRow, Store.due, Store.insertEvent, plainOrder, orderCreated, toTimestamp,
          ofTimestamp, unixEpoch]
    exact List.ne_nil_of_mem hlast
  · intro envs hnow henvs
    obtain ⟨t, ht, -, hdb⟩ := hnext.system
    have hscan := ht.leasable.complete_pending ht.traced.store limit hnow henvs
    rw [hdb] at hscan
    have hpage : (s.db.insertEvent plainOrder (fetchLimit (pendingLimit limit))).outboxByState.page
        (fetchLimit (pendingLimit limit)) = s.db.outboxByState.rows := by
      rw [Clustered.page, hrows', List.take_append_of_le_length hlen.ge, List.take_of_length_le hlen.le]
    have hnone : s.db.outboxByState.rows.filter
        ((s.db.insertEvent plainOrder (fetchLimit (pendingLimit limit))).dueRow 5000000) = [] := by
      rw [List.filter_eq_nil_iff]
      intro row hrow
      obtain ⟨⟨-, hid⟩, retry, hretry, hq⟩ := hrows row hrow
      have hsame : (s.db.insertEvent plainOrder (fetchLimit (pendingLimit limit))).outboxRetryState
          (ofLex row.1).2 = some retry := (Function.update_of_ne hid.ne ..).trans hretry
      simp [Store.dueRow, Store.due, hsame, hq]
    simpa only [hpage, hnone, List.take_nil, List.map_nil] using hscan

end Starvation

/-- A scan for twenty events returns nothing although an event is eligible. -/
theorem quarantined_events_starve_relay : ∃ s : Serial, s.Reachable ∧
    s.db.eligible 5000000 ≠ [] ∧
    (Op.begin 5000000 (.pending 20)).complete (List.replicate 201 ⟨5000000, 0, .row⟩) s.db =
      some (s.db, .pending []) := by
  obtain ⟨s, hs, heligible, hscan⟩ := exists_starved_scan 20
  refine ⟨s, hs, heligible, hscan _ ?_ ?_⟩
  · intro env henv
    rw [List.eq_of_mem_replicate henv]
  · rw [List.length_replicate]
    decide

end ControlPlane

import ControlPlane.App.Publication
import ControlPlane.Store.RelayScan

/-!
# The tables during a relay batch

A batch reads the oldest pending rows and judges them one after another, each at the time at
which it looks at it. It then takes the rows that it found due in order, claims the lease of
each and publishes and marks the event if it obtained the lease. The `Course` of a batch says
when each row was judged, claimed and marked and which identifier the broker gave its message.
From the course and the tables at the start one can say which events the batch relays, what it
sends and what it leaves in the tables, also while it is still at work.
-/

namespace ControlPlane

/-- The identifier of a pending row. -/
def PendingRow.id (row : PendingRow) : UUID := (ofLex row.1).2

/-- The message in which the event of a pending row is published. -/
def PendingRow.message (row : PendingRow) : Message := ⟨row.2.subject, row.2.payload, row.id⟩

/-- When a batch judged, claimed and marked each row, and the identifiers that the broker
returned. Only the values at the rows that the batch came to are of interest. -/
structure Course where
  judged : PendingRow → Time
  claimed : PendingRow → Time
  marked : PendingRow → Time
  broker : PendingRow → String

namespace Course

variable (course : Course)

/-- All times of the course lie between `start` and `stop`. -/
def Within (start stop : Time) : Prop :=
  ∀ row, (start ≤ course.judged row ∧ course.judged row ≤ stop) ∧
    (start ≤ course.claimed row ∧ course.claimed row ≤ stop) ∧
    start ≤ course.marked row ∧ course.marked row ≤ stop

/-- The row was due when it was judged. -/
def foundDue (db : Store) (row : PendingRow) : Bool := db.dueRow (course.judged row) row

/-- The lease of the row was free when it was claimed. -/
def obtained (db : Store) (row : PendingRow) : Bool :=
  db.leaseFree row.id (toTimestamp (course.claimed row))

/-- The rows that the scan returns: the first ones of its window that were found due. -/
def listed (db : Store) (limit : ℤ) : List PendingRow :=
  ((db.outboxByState.page (fetchLimit (pendingLimit limit))).filter (course.foundDue db)).take
    (pendingLimit limit)

/-- The rows whose events the batch relays. -/
def relayed (db : Store) (limit : ℤ) : List PendingRow :=
  (course.listed db limit).filter (course.obtained db)

/-- What the processes can observe of the relay of these rows, the latest first. -/
def occurrences (rows : List PendingRow) : List Occurrence :=
  rows.reverse.flatMap fun row => [.acked row.message (.ok (course.broker row)), .sent row.message]

/-- The course in which the row is judged at `now`. -/
def judge (row : PendingRow) (now : Time) : Course :=
  { course with judged := Function.update course.judged row now }

/-- The course in which the row is claimed at `now`. -/
def claim (row : PendingRow) (now : Time) : Course :=
  { course with claimed := Function.update course.claimed row now }

/-- The course in which the broker gives the message of the row this identifier. -/
def confirm (row : PendingRow) (brokerID : String) : Course :=
  { course with broker := Function.update course.broker row brokerID }

/-- The course in which the row is marked at `now`. -/
def mark (row : PendingRow) (now : Time) : Course :=
  { course with marked := Function.update course.marked row now }

/-- The course of a batch that starts at `now` and has not come to any row. -/
def start (now : Time) : Course where
  judged := fun _ => now
  claimed := fun _ => now
  marked := fun _ => now
  broker := fun _ => ""

end Course

section Times

variable {course : Course} {start stop stop' now : Time} {row : PendingRow}

/-- At the start of a batch all its times are the present. -/
theorem Course.within_start (now : Time) : (Course.start now).Within now now :=
  fun _ => ⟨⟨le_refl _, le_refl _⟩, ⟨le_refl _, le_refl _⟩, ⟨le_refl _, le_refl _⟩⟩

/-- The end of a batch may be moved on. -/
theorem Course.Within.later (h : course.Within start stop) (hstop : stop ≤ stop') :
    course.Within start stop' := by
  intro row
  obtain ⟨hjudged, hclaimed, hmarked⟩ := h row
  exact ⟨⟨hjudged.1, hjudged.2.trans hstop⟩, ⟨hclaimed.1, hclaimed.2.trans hstop⟩,
    ⟨hmarked.1, hmarked.2.trans hstop⟩⟩

/-- One time of a course is replaced. -/
theorem between_update {f : PendingRow → Time} {r : PendingRow} (h : start ≤ f r ∧ f r ≤ stop)
    (hnow : start ≤ now ∧ now ≤ stop) :
    start ≤ Function.update f row now r ∧ Function.update f row now r ≤ stop := by
  by_cases hr : r = row
  · rw [hr, Function.update_self]
    exact hnow
  · rw [Function.update_of_ne hr]
    exact h

/-- A row is judged during the batch. -/
theorem Course.Within.judge (h : course.Within start stop) (hnow : start ≤ now ∧ now ≤ stop)
    (row : PendingRow) : (course.judge row now).Within start stop :=
  fun r => ⟨between_update (h r).1 hnow, (h r).2.1, (h r).2.2⟩

/-- A row is claimed during the batch. -/
theorem Course.Within.claim (h : course.Within start stop) (hnow : start ≤ now ∧ now ≤ stop)
    (row : PendingRow) : (course.claim row now).Within start stop :=
  fun r => ⟨(h r).1, between_update (h r).2.1 hnow, (h r).2.2⟩

/-- A row is marked during the batch. -/
theorem Course.Within.mark (h : course.Within start stop) (hnow : start ≤ now ∧ now ≤ stop)
    (row : PendingRow) : (course.mark row now).Within start stop :=
  fun r => ⟨(h r).1, (h r).2.1, between_update (h r).2.2 hnow⟩

end Times

section Rows

variable {db : Store} {course : Course} {row : PendingRow} {rows : List PendingRow}

/-- Judging a row does not change the verdict on others. -/
theorem Course.filter_foundDue_judge (course : Course) (db : Store) (now : Time) (h : row ∉ rows) :
    rows.filter ((course.judge row now).foundDue db) = rows.filter (course.foundDue db) := by
  refine List.filter_congr fun r hr => ?_
  have hne : r ≠ row := ne_of_mem_of_not_mem hr h
  simp only [Course.foundDue, Course.judge, Function.update_of_ne hne]

/-- Claiming a row does not change the success of other claims. -/
theorem Course.filter_obtained_claim (course : Course) (db : Store) (now : Time) (h : row ∉ rows) :
    rows.filter ((course.claim row now).obtained db) = rows.filter (course.obtained db) := by
  refine List.filter_congr fun r hr => ?_
  have hne : r ≠ row := ne_of_mem_of_not_mem hr h
  simp only [Course.obtained, Course.claim, Function.update_of_ne hne]

/-- What can be observed depends on the identifiers of the rows. -/
theorem Course.occurrences_congr {course' : Course}
    (h : ∀ row ∈ rows, course'.broker row = course.broker row) :
    course'.occurrences rows = course.occurrences rows := by
  unfold Course.occurrences
  refine List.flatMap_congr fun row hrow => ?_
  rw [h row (List.mem_reverse.mp hrow)]

/-- A new confirmation does not change what happened before. -/
theorem Course.occurrences_confirm (course : Course) (brokerID : String) (h : row ∉ rows) :
    (course.confirm row brokerID).occurrences rows = course.occurrences rows :=
  Course.occurrences_congr fun _ hr => Function.update_of_ne (ne_of_mem_of_not_mem hr h) _ _

/-- The row that was relayed last comes first in the history. -/
theorem Course.occurrences_concat (course : Course) (rows : List PendingRow) (row : PendingRow) :
    course.occurrences (rows ++ [row]) =
      [.acked row.message (.ok (course.broker row)), .sent row.message] ++
        course.occurrences rows := by
  simp [Course.occurrences]

/-- A batch lists rows of its window in their order. -/
theorem Course.listed_sublist (course : Course) (db : Store) (limit : ℤ) :
    (course.listed db limit).Sublist
      (db.outboxByState.page (fetchLimit (pendingLimit limit))) :=
  (List.take_sublist ..).trans List.filter_sublist

/-- A batch lists pending rows only. -/
theorem Course.mem_rows_of_listed {limit : ℤ} (h : row ∈ course.listed db limit) :
    row ∈ db.outboxByState.rows :=
  List.mem_of_mem_take ((course.listed_sublist db limit).subset h)

end Rows

/-! ### The scan -/

/-- The scan of a batch between two statements: the rows behind it were judged as the course
says, and those found due are in its output. -/
inductive Call.Scans (db : Store) (limit : ℤ) (course : Course) : Call → Prop
  | select : Scans db limit course (.pendingSelect limit)
  | load {seen rest : List PendingRow} {row : PendingRow} :
      db.outboxByState.page (fetchLimit (pendingLimit limit)) = seen ++ row :: rest →
      (seen.filter (course.foundDue db)).length < pendingLimit limit →
      Scans db limit course (.pendingLoad (pendingLimit limit) row rest
        ((seen.filter (course.foundDue db)).map db.pendingEvent))
  | judge {seen rest : List PendingRow} {row : PendingRow} :
      db.outboxByState.page (fetchLimit (pendingLimit limit)) = seen ++ row :: rest →
      (seen.filter (course.foundDue db)).length < pendingLimit limit →
      Scans db limit course (.pendingJudge (pendingLimit limit) row (db.loadRetryState row.id) rest
        ((seen.filter (course.foundDue db)).map db.pendingEvent))

/-- A bound on the number of statements that the scan has to go. -/
def Call.scanLeft (db : Store) : Call → ℕ
  | .pendingSelect limit =>
      2 * (db.outboxByState.page (fetchLimit (pendingLimit limit))).length + 1
  | .pendingLoad _ _ rest _ => 2 * rest.length + 2
  | .pendingJudge _ _ _ rest _ => 2 * rest.length + 1
  | _ => 0

/-- The scan goes on with fewer than `n` statements, or it returns the rows that the course
lists. -/
def Next.Scans (db : Store) (limit : ℤ) (course : Course) (n : ℕ) : Next → Prop
  | .call c => c.Scans db limit course ∧ c.scanLeft db < n
  | .done r => r = .pending ((course.listed db limit).map db.pendingEvent)

section Scan

variable {db : Store} {limit : ℤ} {course : Course} {c : Call} {env : Env} {n : ℕ}
  {ins : List (EventRecord × UUID)}

/-- At the head of its loop the scan loads the retry state of the next row, or it is done. -/
theorem scanPending_scans {seen rest : List PendingRow}
    (hpage : db.outboxByState.page (fetchLimit (pendingLimit limit)) = seen ++ rest)
    (hroom : (seen.filter (course.foundDue db)).length < pendingLimit limit)
    (hn : 2 * rest.length < n) :
    (scanPending (pendingLimit limit) rest
      ((seen.filter (course.foundDue db)).map db.pendingEvent)).Scans db limit course n := by
  cases rest with
  | nil =>
    rw [List.append_nil] at hpage
    rw [scanPending, Next.Scans, Course.listed, hpage, List.take_of_length_le hroom.le]
  | cons row rest =>
    refine ⟨.load hpage hroom, ?_⟩
    rw [List.length_cons] at hn
    simp only [Call.scanLeft]
    omega

/-- When the last place is filled the scan is done. -/
theorem Course.listed_of_full {seen rest : List PendingRow}
    (hpage : db.outboxByState.page (fetchLimit (pendingLimit limit)) = seen ++ rest)
    (hfull : (seen.filter (course.foundDue db)).length = pendingLimit limit) :
    course.listed db limit = seen.filter (course.foundDue db) := by
  rw [Course.listed, hpage, List.filter_append, ← hfull, List.take_left]

/-- A statement of the scan judges at most one row, at its own time. -/
theorem Call.Scans.exec (h : c.Scans db limit course) (hl : db.Leasable) (htraced : db.Traced ins)
    {start stop : Time} (hwithin : course.Within start stop)
    (hnow : start ≤ env.now ∧ env.now ≤ stop) :
    (c.exec env db).1 = db ∧ ∃ course' : Course, course'.Within start stop ∧
      (c.exec env db).2.Scans db limit course' (c.scanLeft db) := by
  cases h with
  | select =>
    have hroom : (([] : List PendingRow).filter (course.foundDue db)).length <
        pendingLimit limit := pendingLimit_pos limit
    exact ⟨rfl, course, hwithin, scanPending_scans rfl hroom (Nat.lt_succ_self _)⟩
  | load hpage hroom =>
    exact ⟨rfl, course, hwithin, .judge hpage hroom, Nat.lt_succ_self _⟩
  | @judge seen rest row hpage hroom =>
    have hrow : row ∈ db.outboxByState.page (fetchLimit (pendingLimit limit)) := by
      rw [hpage]
      exact List.mem_append_right _ List.mem_cons_self
    have hnew : row ∉ seen := by
      have hnodup := (db.outboxByState.nodup_page_keys (fetchLimit (pendingLimit limit))).of_map
      rw [hpage] at hnodup
      exact fun hmem => (List.nodup_append.mp hnodup).2.2 row hmem row List.mem_cons_self rfl
    have hskip : (db.loadRetryState row.id).skipped env.now = !db.dueRow env.now row :=
      hl.skipped_page htraced hrow env.now
    have hseen := course.filter_foundDue_judge db env.now hnew
    have hself : (course.judge row env.now).foundDue db row = db.dueRow env.now row := by
      simp only [Course.foundDue, Course.judge, Function.update_self]
    have hpage' : db.outboxByState.page (fetchLimit (pendingLimit limit)) =
        (seen ++ [row]) ++ rest := by
      rw [hpage, List.append_assoc, List.singleton_append]
    refine ⟨?_, course.judge row env.now, hwithin.judge hnow row, ?_⟩
    · cases hdue : (db.loadRetryState row.id).skipped env.now with
      | true => rw [Call.exec_pendingJudge_skip hdue]
      | false => rw [Call.exec_pendingJudge_take hdue]
    · cases hdue : db.dueRow env.now row with
      | false =>
        rw [hdue] at hskip hself
        have hfilter : (seen ++ [row]).filter ((course.judge row env.now).foundDue db) =
            seen.filter (course.foundDue db) := by
          rw [List.filter_append, hseen, List.filter_singleton, hself]
          simp
        rw [Call.exec_pendingJudge_skip hskip, ← hfilter]
        rw [← hfilter] at hroom
        exact scanPending_scans hpage' hroom (Nat.lt_succ_self _)
      | true =>
        rw [hdue] at hskip hself
        have hfilter : (seen ++ [row]).filter ((course.judge row env.now).foundDue db) =
            seen.filter (course.foundDue db) ++ [row] := by
          rw [List.filter_append, hseen, List.filter_singleton, hself]
          rfl
        have hout : (seen.filter (course.foundDue db)).map db.pendingEvent ++
            [pendingRecord row (db.loadRetryState row.id).retryCount] =
            ((seen ++ [row]).filter ((course.judge row env.now).foundDue db)).map
              db.pendingEvent := by
          rw [hfilter, List.map_append]
          rfl
        have hlen : ((seen ++ [row]).filter ((course.judge row env.now).foundDue db)).length =
            (seen.filter (course.foundDue db)).length + 1 := by
          rw [hfilter, List.length_append, List.length_singleton]
        rw [Call.exec_pendingJudge_take hskip, hout, List.length_map]
        dsimp only
        split_ifs with hfull
        · rw [Next.Scans, Course.listed_of_full hpage' (by omega)]
        · exact scanPending_scans hpage' (by omega) (Nat.lt_succ_self _)

end Scan

/-! ### The effect on the tables -/

/-- The tables of a batch at work: it has published and marked the events of the rows
`published`, it holds the lease of the rows `leased` or held it until they were marked, and
nothing else has changed since its start. -/
structure Store.Relaying (db db' : Store) (course : Course) (published leased : List PendingRow) :
    Prop where
  index : db'.outboxByState = db.outboxByState.eraseAll (published.map Prod.fst)
  marked : ∀ row ∈ published, ∃ out, db.outboxEvents row.id = some out ∧
    db'.outboxEvents row.id = some { out with
      publishState := .published
      publishedAt := toTimestamp (course.marked row)
      brokerMessageId := course.broker row }
  events : ∀ id, (∀ row ∈ published, row.id ≠ id) → db'.outboxEvents id = db.outboxEvents id
  retries : ∀ id, (∀ row ∈ leased, row.id ≠ id) →
    db'.outboxRetryState id = db.outboxRetryState id
  others : db' = { db with
    outboxEvents := db'.outboxEvents
    outboxByState := db'.outboxByState
    outboxRetryState := db'.outboxRetryState }

/-- The tables after a batch that relayed the events of the rows. -/
abbrev Store.Relayed (db db' : Store) (course : Course) (rows : List PendingRow) : Prop :=
  db.Relaying db' course rows rows

section Tables

variable {db db' : Store} {course course' : Course} {published leased : List PendingRow}
  {row : PendingRow}

/-- A batch without rows changes nothing. -/
theorem Store.relayed_nil (db : Store) (course : Course) : db.Relayed db course [] where
  index := rfl
  marked := fun row hrow => by cases hrow
  events := fun _ _ => rfl
  retries := fun _ _ => rfl
  others := rfl

/-- Only the identifiers and times of the published rows matter. -/
theorem Store.Relaying.congr (h : db.Relaying db' course published leased)
    (hcourse : ∀ row ∈ published, course'.marked row = course.marked row ∧
      course'.broker row = course.broker row) : db.Relaying db' course' published leased where
  index := h.index
  marked := by
    intro row hrow
    rw [(hcourse row hrow).1, (hcourse row hrow).2]
    exact h.marked row hrow
  events := h.events
  retries := h.retries
  others := h.others

/-- The lease of one more row. -/
theorem Store.Relaying.lease (h : db.Relaying db' course published published) (row : PendingRow)
    (owner : String) (leaseUntil : Timestamp) :
    db.Relaying (db'.setLease row.id owner leaseUntil) course published (published ++ [row]) where
  index := h.index
  marked := h.marked
  events := h.events
  retries := by
    intro id hid
    have hne : id ≠ row.id := (hid row (by simp)).symm
    simp only [Store.setLease, Function.update_of_ne hne]
    exact h.retries id fun r hr => hid r (List.mem_append_left _ hr)
  others := by
    conv_lhs => rw [h.others]
    rfl

/-- The leased row is marked. -/
theorem Store.Relaying.mark (h : db.Relaying db' course published (published ++ [row]))
    {out : OutboxRow} (hout : db.outboxEvents row.id = some out)
    (ht : out.occurredAt = (ofLex row.1).1) (hnew : ∀ r ∈ published, r.id ≠ row.id) :
    db.Relayed (db'.markPublished row.id (course.broker row) (toTimestamp (course.marked row))
      out.occurredAt) course (published ++ [row]) where
  index := by
    have hkey : toLex (out.occurredAt, row.id) = row.1 := by rw [ht]; rfl
    rw [Store.markPublished, hkey, h.index, List.map_append, Clustered.eraseAll, Clustered.eraseAll,
      List.foldl_append]
    rfl
  marked := by
    intro r hr
    rcases List.mem_append.mp hr with hr | hr
    · obtain ⟨out', hout', hmarked⟩ := h.marked r hr
      refine ⟨out', hout', ?_⟩
      simp only [Store.markPublished, Function.update_of_ne (hnew r hr)]
      exact hmarked
    · obtain rfl := List.mem_singleton.mp hr
      refine ⟨out, hout, ?_⟩
      have hevent : db'.outboxEvents r.id = some out := (h.events r.id hnew).trans hout
      simp only [Store.markPublished, Function.update_self, hevent, Option.getD_some]
  events := by
    intro id hid
    have hne : id ≠ row.id := (hid row (by simp)).symm
    simp only [Store.markPublished, Function.update_of_ne hne]
    exact h.events id fun r hr => hid r (List.mem_append_left _ hr)
  retries := by
    intro id hid
    have hne : id ≠ row.id := (hid row (by simp)).symm
    simp only [Store.markPublished, Function.update_of_ne hne]
    exact h.retries id hid
  others := by
    conv_lhs => rw [h.others]
    rfl

/-- Whether a lease is free depends on the retry state of the event. -/
theorem Store.leaseFree_congr {id : UUID} {ts : Timestamp}
    (h : db'.outboxRetryState id = db.outboxRetryState id) :
    db'.leaseFree id ts = db.leaseFree id ts := by
  rw [Store.leaseFree, Store.leaseFree, h]

end Tables

section Identifiers

variable {db : Store} {ins : List (EventRecord × UUID)}

/-- An event has at most one pending row. -/
theorem Store.Traced.eq_of_id (htraced : db.Traced ins) {row row' : PendingRow}
    (hrow : row ∈ db.outboxByState.rows) (hrow' : row' ∈ db.outboxByState.rows)
    (hid : row.id = row'.id) : row = row' := by
  obtain ⟨out, hout, -, ht, hcontent⟩ := (htraced.index row.1 row.2).mp (Clustered.mem_rows.mp hrow)
  obtain ⟨out', hout', -, ht', hcontent'⟩ :=
    (htraced.index row'.1 row'.2).mp (Clustered.mem_rows.mp hrow')
  have hsame : out = out' := by
    have hid' : (ofLex row.1).2 = (ofLex row'.1).2 := hid
    rw [hid', hout'] at hout
    exact (Option.some.inj hout).symm
  subst hsame
  have hkey : row.1 = row'.1 := congrArg toLex (Prod.ext (ht.symm.trans ht') hid)
  exact Prod.ext hkey (hcontent.symm.trans hcontent')

/-- The rows that a batch lists belong to different events. -/
theorem Course.nodup_listed (course : Course) (htraced : db.Traced ins) (limit : ℤ) :
    ((course.listed db limit).map PendingRow.id).Nodup := by
  have hnodup : (course.listed db limit).Nodup :=
    ((db.outboxByState.nodup_page_keys _).of_map Prod.fst).sublist (course.listed_sublist db limit)
  exact hnodup.map_on fun row hrow row' hrow' hid =>
    htraced.eq_of_id (Course.mem_rows_of_listed hrow) (Course.mem_rows_of_listed hrow') hid

end Identifiers

end ControlPlane

import ControlPlane.App.RelayPhases

/-!
# Progress of the relay

What the relay achieves when nothing fails: from every phase of a batch the batch can be brought
to its end, however it came there, and then the events that were due and whose lease was free are
published and marked. Batch after batch, the outbox is emptied from its old end.
-/

namespace ControlPlane

open Transition

/-- The batch of process `p` can be brought to its end without a failure. -/
def App.Completes (cfg : ℕ → Config) (p : ℕ) (x : App) : Prop :=
  ∃ y, Run (App.step cfg) (fun _ l => l.works p) x y ∧ y.procs.get p = none

/-- From the head of its loop, with these rows to go, a batch that started in `a` can be brought
to its end. -/
def App.LoopCompletes (cfg : ℕ → Config) (a : App) (p node : ℕ) (todo : List PendingRow) : Prop :=
  ∀ ⦃x : App⦄ ⦃course : Course⦄ ⦃done : List PendingRow⦄ ⦃pc : Pc⦄ ⦃r : Result⦄,
    a.Underway (cfg node).relayLimit x course done [] todo [] →
    x.AtLoop cfg p node (todo.map a.store.db.pendingEvent) pc r → x.Completes cfg p

section Completion

variable {cfg : ℕ → Config} {a x y : App} {p node : ℕ} {course : Course} {c : Call} {since : Time}
  {done todo : List PendingRow} {row : PendingRow} {attempt : Attempt}
  {ins : List (EventRecord × UUID)}

/-- The batch can be brought to its end if it can be after one of its steps. -/
theorem App.Completes.of_step {l : AppLabel} (h : y.Completes cfg p) (hworks : l.works p)
    (hstep : x.step cfg l = some y) : x.Completes cfg p := by
  obtain ⟨z, hrun, hz⟩ := h
  exact ⟨z, ((Run.refl x).snoc hworks hstep).trans hrun, hz⟩

/-- A statement can be executed at the present time. -/
theorem App.Completes.of_exec (hslot : x.store.slots.get p = some (.running c since))
    (hsince : since ≤ x.store.clock)
    (h : (x.executed p c { now := x.store.clock }).Completes cfg p) : x.Completes cfg p := by
  refine h.of_step (l := .exec p .ok { now := x.store.clock }) rfl ?_
  have hstore : x.store.step (.exec p .ok { now := x.store.clock }) =
      some (x.store.perform p c .ok { now := x.store.clock }) := by
    simp [System.step, hslot, hsince]
  simp only [App.step, hstore, Option.map_some, App.executed]

/-- A confirmed event can be marked. -/
theorem App.LoopCompletes.marking (hnext : a.LoopCompletes cfg p node todo)
    (htraced : a.store.db.Traced ins) (hu : a.Underway (cfg node).relayLimit x course done [row]
      todo [.acked row.message (.ok (course.broker row)), .sent row.message])
    (hat : x.At p node (.marking (.relay (a.store.db.pendingEvent row)
      (todo.map a.store.db.pendingEvent))))
    (hslot : x.store.slots.get p = some (.running c since)) (hsince : since ≤ x.store.clock)
    (hmarks : c.Marks a.store.db row (course.broker row)) : x.Completes cfg p := by
  refine .of_exec hslot hsince ?_
  have hnow : ({ now := x.store.clock } : Env).now ≤ x.store.clock := le_refl _
  rcases hu.exec_mark htraced hat hmarks hu.later hnow with ⟨out, hout, -, hu', hd⟩ | ⟨hu', hloop⟩
  · -- The time of the event has been read; the batch statement comes next.
    refine .of_exec hd (le_refl _) ?_
    rcases hu'.exec_mark htraced (hat.executed _ _) (.batch hout) hu.later hnow with
      ⟨_, _, hread, _⟩ | ⟨hu'', hloop⟩
    · cases hread
    · exact hnext hu'' hloop
  · exact hnext hu' hloop

/-- A message on its way can be confirmed. -/
theorem App.LoopCompletes.sent (hnext : a.LoopCompletes cfg p node todo)
    (htraced : a.store.db.Traced ins)
    (hu : a.Underway (cfg node).relayLimit x course done [row] todo [.sent row.message])
    (hat : x.At p node (.sent (.relay (a.store.db.pendingEvent row)
      (todo.map a.store.db.pendingEvent)) attempt))
    (hidle : x.store.callOf p = none) : x.Completes cfg p := by
  obtain ⟨y, c, hy, hclock, hu', hat', hslot, hmarks⟩ :=
    hu.step_ack htraced hat hidle "SHIRO_EVENTS:1"
  have hdone := hnext.marking htraced hu' hat' hslot hclock.ge hmarks
  exact hdone.of_step (l := .ack p (.ok "SHIRO_EVENTS:1")) rfl hy

/-- The message of a leased row can be sent. -/
theorem App.LoopCompletes.publishing (hnext : a.LoopCompletes cfg p node todo)
    (htraced : a.store.db.Traced ins)
    (hu : a.Underway (cfg node).relayLimit x course done [row] todo [])
    (hat : x.At p node (.publishing (.relay (a.store.db.pendingEvent row)
      (todo.map a.store.db.pendingEvent)) attempt))
    (hidle : x.store.callOf p = none) : x.Completes cfg p := by
  obtain ⟨y, hy, hu', hat', hidle'⟩ := hu.step_send hat hidle
  exact (hnext.sent htraced hu' hat' hidle').of_step (l := .send p) rfl hy

/-- A leased row can be published. -/
theorem App.LoopCompletes.leased (hnext : a.LoopCompletes cfg p node todo)
    (htraced : a.store.db.Traced ins)
    (hu : a.Underway (cfg node).relayLimit x course done [row] todo [])
    (hat : x.At p node
      (.claiming (a.store.db.pendingEvent row) (todo.map a.store.db.pendingEvent)))
    (hslot : x.store.slots.get p = some (.returned (.leased true))) : x.Completes cfg p := by
  obtain ⟨y, hy, hu', hat', hidle⟩ := hu.step_leased hat hslot
  exact (hnext.publishing htraced hu' hat' hidle).of_step (l := .resume p) rfl hy

/-- A claim can be decided. -/
theorem App.LoopCompletes.claiming (hnext : a.LoopCompletes cfg p node todo)
    (htraced : a.store.db.Traced ins) {owner : String} {leaseDuration : Duration}
    (hu : a.Underway (cfg node).relayLimit x course done [] (row :: todo) [])
    (hat : x.At p node
      (.claiming (a.store.db.pendingEvent row) (todo.map a.store.db.pendingEvent)))
    (hslot : x.store.slots.get p =
      some (.running (.leaseUpdate row.id owner leaseDuration) since))
    (hsince : since ≤ x.store.clock) : x.Completes cfg p := by
  refine .of_exec hslot hsince ?_
  have hnow : ({ now := x.store.clock } : Env).now ≤ x.store.clock := le_refl _
  rcases hu.exec_claim htraced hat hu.later hnow with ⟨hu', hd⟩ | ⟨hu', hloop⟩
  · exact hnext.leased htraced hu' (hat.executed _ _) hd
  · exact hnext hu' hloop

/-- The loop of a batch can be brought to its end. -/
theorem App.loopCompletes (cfg : ℕ → Config) (p node : ℕ) (htraced : a.store.db.Traced ins)
    (todo : List PendingRow) : a.LoopCompletes cfg p node todo := by
  induction todo with
  | nil =>
    intro x course done pc r hu hloop
    obtain ⟨y, hy, -, hp, -⟩ := hu.step_finish hloop
    exact ⟨y, (Run.refl x).snoc (l := .resume p) rfl hy, hp⟩
  | cons row todo ih =>
    intro x course done pc r hu hloop
    obtain ⟨y, hy, hclock, hu', hat, hslot⟩ := hu.step_claim hloop
    exact (App.LoopCompletes.claiming ih htraced hu' hat hslot hclock.ge).of_step
      (l := .resume p) rfl hy

/-- The scan of a batch can be brought to its end, and the batch with it. -/
theorem App.Scanning.completes (h : a.Scanning x course) (hl : a.store.db.Leasable)
    (htraced : a.store.db.Traced ins) (hc : c.Scans a.store.db (cfg node).relayLimit course)
    (hat : x.At p node .listing) (hslot : x.store.slots.get p = some (.running c since))
    (hsince : since ≤ x.store.clock) : x.Completes cfg p := by
  induction hn : c.scanLeft a.store.db using Nat.strong_induction_on
    generalizing x course c since with
  | _ n ih =>
    refine .of_exec hslot hsince ?_
    have hnow : ({ now := x.store.clock } : Env).now ≤ x.store.clock := le_refl _
    obtain ⟨course', h', ⟨d, hd, hscan, hless⟩ | hdone⟩ := h.exec hl htraced hc h.later hnow p
    · exact ih _ (hn ▸ hless) h' hscan (hat.executed _ _) hd (le_refl _) rfl
    · obtain ⟨hu, hloop⟩ := h'.loop (hat.executed _ _) hdone
      exact App.loopCompletes cfg p node htraced _ hu hloop

/-- From every phase the batch can be brought to its end. -/
theorem App.Phase.completes (h : a.Phase cfg p node x) (hl : a.store.db.Leasable)
    (htraced : a.store.db.Traced ins) : x.Completes cfg p := by
  have hloop := App.loopCompletes cfg p node htraced
  cases h with
  | listing hscan hc hat hslot hsince => exact hscan.completes hl htraced hc hat hslot hsince.2
  | loop hu hat => exact hloop _ hu hat
  | claiming hu hat hslot hsince => exact (hloop _).claiming htraced hu hat hslot hsince.2
  | leased hu hat hslot => exact (hloop _).leased htraced hu hat hslot
  | publishing hu hat hidle => exact (hloop _).publishing htraced hu hat hidle
  | sent hu hat hidle => exact (hloop _).sent htraced hu hat hidle
  | marking hu hat hslot hsince hmarks =>
    exact (hloop _).marking htraced hu hat hslot hsince.2 hmarks
  | ended hu hp hidle hclosed => exact ⟨x, .refl x, hp⟩

end Completion

section Batches

variable {cfg : ℕ → Config} {a x : App} {p node : ℕ} {ins : List (EventRecord × UUID)}

/-- What a batch that has ended leaves behind. -/
theorem App.Phase.end_of_none (h : a.Phase cfg p node x) (hp : x.procs.get p = none) :
    x.store.callOf p = none ∧ (x.nodes node).Closed ∧ a.store.clock ≤ x.store.clock ∧
      ∃ course : Course, course.Within a.store.clock x.store.clock ∧
        x.history = course.occurrences (course.relayed a.store.db (cfg node).relayLimit) ++
          a.history ∧
        a.store.db.Relayed x.store.db course
          (course.relayed a.store.db (cfg node).relayLimit) := by
  cases h with
  | @ended course hu _ hidle hclosed =>
    have htables := hu.tables
    rw [List.append_nil] at htables
    exact ⟨hidle, hclosed, hu.later, course, hu.within, hu.history, htables⟩
  | loop hu hloop => cases hp.symm.trans hloop.proc
  | listing hscan hc hat hslot hsince => cases hp.symm.trans hat.proc
  | claiming hu hat hslot hsince => cases hp.symm.trans hat.proc
  | leased hu hat hslot => cases hp.symm.trans hat.proc
  | publishing hu hat hidle => cases hp.symm.trans hat.proc
  | sent hu hat hidle => cases hp.symm.trans hat.proc
  | marking hu hat hslot hsince hmarks => cases hp.symm.trans hat.proc

/-- Every state that a batch reaches while nothing fails is one of its phases. -/
theorem App.Reachable.phase (h : a.Reachable cfg anyStep) (hp : a.procs.get p = none)
    (hidle : a.store.callOf p = none) (hclosed : (a.nodes node).Closed) :
    ∃ b, a.step cfg (.spawn p node .relay) = some b ∧
      ∀ x, Run (App.step cfg) (fun _ l => l.works p) b x → a.Phase cfg p node x := by
  obtain ⟨b, hb, hphase⟩ := App.phase_spawn cfg hp hidle hclosed
  refine ⟨b, hb, fun x hrun => hrun.invariant hphase ?_⟩
  intro y l z hy hworks hstep
  exact hy.step h.store.leasable h.store.traced.store hworks hstep

end Batches

/-- **A relay batch publishes what is due.** Whatever the other processes of a reachable state are
doing, a batch can be started on a node with closed breakers. However its steps follow each
other, as long as none of them fails: when it has ended, each row of its window was judged and
each row that was found due was claimed at some time during the batch, the first `relayLimit`
rows that were due when judged are the ones it took, and of these exactly the events whose lease
was free when claimed have been sent, confirmed and marked, each once and the oldest first.
Nothing else has changed. From every state on the way the batch can be brought to its end. -/
theorem relay_batch_publishes {cfg : ℕ → Config} {a : App} (h : a.Reachable cfg anyStep)
    {p node : ℕ} (hp : a.procs.get p = none) (hidle : a.store.callOf p = none)
    (hclosed : (a.nodes node).Closed) :
    ∃ b, a.step cfg (.spawn p node .relay) = some b ∧
      ∀ x, Run (App.step cfg) (fun _ l => l.works p) b x →
        (x.procs.get p = none → ∃ course : Course,
          course.Within a.store.clock x.store.clock ∧
          x.history = course.occurrences (course.relayed a.store.db (cfg node).relayLimit) ++
            a.history ∧
          a.store.db.Relayed x.store.db course
            (course.relayed a.store.db (cfg node).relayLimit)) ∧
        x.Completes cfg p := by
  obtain ⟨b, hb, hphase⟩ := h.phase hp hidle hclosed
  refine ⟨b, hb, fun x hrun => ⟨fun hgone => ?_, ?_⟩⟩
  · obtain ⟨-, -, -, hcourse⟩ := (hphase x hrun).end_of_none hgone
    exact hcourse
  · exact (hphase x hrun).completes h.store.leasable h.store.traced.store

/-- The identifiers of the pending events, the oldest first. -/
def App.pendingIDs (a : App) : List UUID := a.store.db.outboxByState.rows.map PendingRow.id

/-- A node that relays two events at a time. -/
def pairConfig : Config := { strictConfig with outboxRelayBatchSize := 2 }

/-- What a test of the state before a batch has to see: process 1 and the breakers of node 0 are
at rest, and the orders 1, 2 and 3 are pending. -/
def App.awaitsRelay (a : App) : Bool :=
  (a.procs.get 1).isNone && (a.store.callOf 1).isNone &&
    decide ((a.nodes 0).busBreaker.state = .closed) &&
    decide ((a.nodes 0).storeBreaker.state = .closed) && decide (a.pendingIDs = [1, 2, 3])

/-- What the test sees, as hypotheses about a batch. -/
theorem App.awaitsRelay_iff {a : App} : a.awaitsRelay = true ↔ a.procs.get 1 = none ∧
    a.store.callOf 1 = none ∧ (a.nodes 0).Closed ∧ a.pendingIDs = [1, 2, 3] := by
  simp only [App.awaitsRelay, Bool.and_eq_true, Option.isNone_iff_eq_none, decide_eq_true_eq]
  constructor
  · rintro ⟨⟨⟨⟨hp, hidle⟩, hbus⟩, hstore⟩, hids⟩
    exact ⟨hp, hidle, ⟨hbus, hstore⟩, hids⟩
  · rintro ⟨hp, hidle, hclosed, hids⟩
    exact ⟨⟨⟨⟨hp, hidle⟩, hclosed.bus⟩, hclosed.store⟩, hids⟩

/-- Three orders of which the first is quarantined, because its publication failed. -/
def ordersAwaitRelay : List AppLabel :=
  .spawn 0 0 (.publish orderRequest "" 1) :: appExecs 0 1 5000000 ++
    [.resume 0, .send 0, .ack 0 (.error "nats: timeout")] ++ appExecs 0 4 5000000 ++
    [.resume 0, .spawn 2 0 (.publish orderRequest "" 2), .exec 2 .ok { now := 5000000 },
      .spawn 3 0 (.publish orderRequest "" 3), .exec 3 .ok { now := 5000000 }]

/-- The steps with which a batch relays one event that it has listed. -/
def relaySteps (now : Time) (brokerID : String) : List AppLabel :=
  [.resume 1, .exec 1 .ok { now }, .resume 1, .send 1, .tick (now + 1000),
    .ack 1 (.ok brokerID)] ++ appExecs 1 2 (now + 1000)

/-- A batch that lists and relays two events. -/
def relayTwo : List AppLabel :=
  appExecs 1 7 5000000 ++ relaySteps 5000000 "SHIRO_EVENTS:1" ++
    relaySteps 5001000 "SHIRO_EVENTS:2" ++ [.resume 1]

/-- Of three orders, the first of which is quarantined, a batch relays the other two. -/
theorem relay_batch_publishes_orders : ∃ a b x : App,
    a.Reachable (fun _ => pairConfig) anyStep ∧ a.pendingIDs = [1, 2, 3] ∧
    a.step (fun _ => pairConfig) (.spawn 1 0 .relay) = some b ∧
    Run (App.step fun _ => pairConfig) (fun _ l => l.works 1) b x ∧ x.pendingIDs = [1] ∧
    ∃ course : Course, course.Within a.store.clock x.store.clock ∧
      x.history = course.occurrences (course.relayed a.store.db pairConfig.relayLimit) ++
        a.history ∧
      a.store.db.Relayed x.store.db course
        (course.relayed a.store.db pairConfig.relayLimit) := by
  obtain ⟨a, ha, htest⟩ := App.Reachable.of_play (fun _ => pairConfig) anyStep (fun _ _ => true)
    (fun _ _ _ => trivial) 5000000 ordersAwaitRelay
    (fun a => a.awaitsRelay && (a.step (fun _ => pairConfig) (.spawn 1 0 .relay)).any fun b =>
      (play (App.step fun _ => pairConfig) (fun _ l => decide (l.works 1)) b relayTwo).any
        fun x : App => (x.procs.get 1).isNone && decide (x.pendingIDs = [1])) (by decide)
  rw [Bool.and_eq_true, App.awaitsRelay_iff, Option.any_eq_true] at htest
  obtain ⟨⟨hp, hidle, hclosed, hids⟩, b, hb, hplay⟩ := htest
  obtain ⟨x, hrun, hx⟩ := Run.exists_of_play (fun _ _ => of_decide_eq_true) hplay
  rw [Bool.and_eq_true, Option.isNone_iff_eq_none, decide_eq_true_eq] at hx
  obtain ⟨b', hb', hall⟩ := relay_batch_publishes ha hp hidle hclosed
  obtain rfl : b = b' := Option.some.inj (hb.symm.trans hb')
  exact ⟨a, b, x, ha, hids, hb, hrun, hx.2, (hall x hrun).1 hx.1⟩

/-! ### Batch after batch -/

/-- Process `p` has run this number of batches on the node, one after another and without a
failure. -/
inductive App.Batches (cfg : ℕ → Config) (p node : ℕ) (a : App) : ℕ → App → Prop
  | zero : Batches cfg p node a 0 a
  | succ {n : ℕ} {b c d : App} : Batches cfg p node a n b →
      b.step cfg (.spawn p node .relay) = some c →
      Run (App.step cfg) (fun _ l => l.works p) c d → d.procs.get p = none →
      Batches cfg p node a (n + 1) d

/-- The course that is the first one for the given rows and the second one for the others. -/
def Course.join (course course' : Course) (rows : List PendingRow) : Course where
  judged := fun row => if row ∈ rows then course.judged row else course'.judged row
  claimed := fun row => if row ∈ rows then course.claimed row else course'.claimed row
  marked := fun row => if row ∈ rows then course.marked row else course'.marked row
  broker := fun row => if row ∈ rows then course.broker row else course'.broker row

section Tables

variable {db db' db'' : Store} {course course' : Course} {rows rows' : List PendingRow}
  {row : PendingRow} {start stop now now' : Time} {ins : List (EventRecord × UUID)}

/-- The joined course agrees with the first one on its rows. -/
theorem Course.join_of_mem (course course' : Course) (h : row ∈ rows) :
    (course.join course' rows).marked row = course.marked row ∧
      (course.join course' rows).broker row = course.broker row :=
  ⟨if_pos h, if_pos h⟩

/-- The joined course agrees with the second one elsewhere. -/
theorem Course.join_of_notMem (course course' : Course) (h : row ∉ rows) :
    (course.join course' rows).marked row = course'.marked row ∧
      (course.join course' rows).broker row = course'.broker row :=
  ⟨if_neg h, if_neg h⟩

/-- The rows that were relayed later come first in the history. -/
theorem Course.occurrences_append (course : Course) (rows rows' : List PendingRow) :
    course.occurrences (rows ++ rows') = course.occurrences rows' ++ course.occurrences rows := by
  simp [Course.occurrences]

/-- Two batches that follow each other relay the rows of both. -/
theorem Store.Relaying.trans (h : db.Relayed db' course rows) (h' : db'.Relayed db'' course rows')
    (hnew : ∀ row ∈ rows, ∀ row' ∈ rows', row'.id ≠ row.id) :
    db.Relayed db'' course (rows ++ rows') where
  index := by
    rw [h'.index, h.index, List.map_append, Clustered.eraseAll, Clustered.eraseAll,
      Clustered.eraseAll, List.foldl_append]
  marked := by
    intro row hrow
    rcases List.mem_append.mp hrow with hrow | hrow
    · obtain ⟨out, hout, hmarked⟩ := h.marked row hrow
      exact ⟨out, hout, (h'.events row.id (hnew row hrow)).trans hmarked⟩
    · obtain ⟨out, hout, hmarked⟩ := h'.marked row hrow
      have hsame := h.events row.id fun r hr hid => hnew r hr row hrow hid.symm
      exact ⟨out, hsame.symm.trans hout, hmarked⟩
  events := by
    intro id hid
    have hlater := h'.events id fun r hr => hid r (List.mem_append_right _ hr)
    exact hlater.trans (h.events id fun r hr => hid r (List.mem_append_left _ hr))
  retries := by
    intro id hid
    have hlater := h'.retries id fun r hr => hid r (List.mem_append_right _ hr)
    exact hlater.trans (h.retries id fun r hr => hid r (List.mem_append_left _ hr))
  others := by
    rw [h'.others, h.others]

/-- The same, with a course for each of the two. -/
theorem Store.Relaying.join (h : db.Relayed db' course rows) (h' : db'.Relayed db'' course' rows')
    (hnew : ∀ row ∈ rows, ∀ row' ∈ rows', row'.id ≠ row.id) :
    db.Relayed db'' (course.join course' rows) (rows ++ rows') ∧
      (course.join course' rows).occurrences (rows ++ rows') =
        course'.occurrences rows' ++ course.occurrences rows := by
  have hother : ∀ row ∈ rows', row ∉ rows := fun row hrow hmem => hnew row hmem row hrow rfl
  have hfirst : db.Relayed db' (course.join course' rows) rows :=
    h.congr fun _ hrow => course.join_of_mem course' hrow
  have hsecond : db'.Relayed db'' (course.join course' rows) rows' :=
    h'.congr fun row hrow => course.join_of_notMem course' (hother row hrow)
  refine ⟨hfirst.trans hsecond hnew, ?_⟩
  rw [Course.occurrences_append,
    Course.occurrences_congr fun row hrow => (course.join_of_notMem course' (hother row hrow)).2,
    Course.occurrences_congr fun row hrow => (course.join_of_mem course' hrow).2]

/-- What is due stays due. -/
theorem Store.due_later {id : UUID} (hretry : db'.outboxRetryState id = db.outboxRetryState id)
    (hlater : now ≤ now') (h : db.due now id = true) : db'.due now' id = true := by
  unfold Store.due at h ⊢
  rw [hretry]
  cases hstate : db.outboxRetryState id with
  | none => rfl
  | some retry =>
    simp only [hstate, Option.all_some, Bool.and_eq_true, decide_eq_true_eq] at h ⊢
    refine ⟨⟨h.1.1, h.1.2.trans hlater⟩, ?_⟩
    cases hlease : retry.leaseUntil with
    | none => rfl
    | some u =>
      rw [hlease, Option.all_some, decide_eq_true_eq] at h
      simp only [Option.all_some, decide_eq_true_eq]
      exact h.2.trans hlater

/-- A lease that has run out at `now` is free one millisecond later: the scan compares instants,
the claim compares milliseconds and wants the end of the old lease strictly in the past. -/
theorem toTimestamp_lt_later {u t t' : ℤ} (hu : u * 1000000 ≤ t) (ht : t + 1000000 ≤ t') :
    u < t' / 1000000 := by
  omega

/-- The lease of a due row is free a millisecond later. -/
theorem Store.leaseFree_of_due (hl : db.Leasable) (htraced : db.Traced ins)
    (hlater : now + 1000000 ≤ now') (hrow : row ∈ db.outboxByState.rows)
    (hdue : db.dueRow now row = true) : db.leaseFree row.id (toTimestamp now') = true := by
  obtain ⟨retry, u, hretry, hu⟩ := hl.retry_of_row htraced hrow
  simp only [Store.dueRow, Store.due, hretry, hu, Option.all_some, Bool.and_eq_true,
    decide_eq_true_eq] at hdue
  obtain ⟨id, owner, n, next, quarantined, lease, error⟩ := retry
  simp only [Store.leaseFree, PendingRow.id, hretry]
  cases hu
  exact decide_eq_true (toTimestamp_lt_later hdue.2 hlater)

/-- The window of the scan has room for a whole batch. -/
theorem le_fetchLimit (limit : ℕ) : limit ≤ fetchLimit limit := by
  unfold fetchLimit
  split_ifs <;> omega

/-- While every pending event has been due for a millisecond, a batch relays the oldest ones. -/
theorem Course.relayed_of_all_due (hl : db.Leasable) (htraced : db.Traced ins)
    (hwithin : course.Within start stop)
    (hdue : ∀ row ∈ db.outboxByState.rows, db.dueRow (start - 1000000) row = true) (limit : ℤ) :
    course.relayed db limit = db.outboxByState.rows.take (pendingLimit limit) := by
  have hfound : ∀ row ∈ db.outboxByState.rows, course.foundDue db row = true := by
    intro row hrow
    have hstart : start - 1000000 ≤ course.judged row :=
      (Int.sub_le_self _ (by decide)).trans (hwithin row).1.1
    exact Store.due_later rfl hstart (hdue row hrow)
  have hobtained : ∀ row ∈ db.outboxByState.rows, course.obtained db row = true := by
    intro row hrow
    have hclaimed : start - 1000000 + 1000000 ≤ course.claimed row := by
      rw [Int.sub_add_cancel]
      exact (hwithin row).2.1.1
    exact Store.leaseFree_of_due hl htraced hclaimed hrow (hdue row hrow)
  have hpage : (db.outboxByState.page (fetchLimit (pendingLimit limit))).filter
      (course.foundDue db) = db.outboxByState.page (fetchLimit (pendingLimit limit)) :=
    List.filter_eq_self.mpr fun row hrow => hfound row (List.mem_of_mem_take hrow)
  rw [Course.relayed, Course.listed, hpage, Clustered.page, List.take_take,
    Nat.min_eq_left (le_fetchLimit _)]
  exact List.filter_eq_self.mpr fun row hrow => hobtained row (List.mem_of_mem_take hrow)

/-- The rows that a batch leaves belong to other events than those that it relayed. -/
theorem Store.Relaying.id_ne (h : db.Relayed db' course rows) (htraced : db.Traced ins)
    (hrows : ∀ row ∈ rows, row ∈ db.outboxByState.rows) (hrow : row ∈ db'.outboxByState.rows) :
    row ∈ db.outboxByState.rows ∧ ∀ r ∈ rows, r.id ≠ row.id := by
  rw [h.index, Clustered.mem_rows, Clustered.get_eraseAll, ← Clustered.mem_rows] at hrow
  refine ⟨hrow.1, fun r hr hid => ?_⟩
  have heq := htraced.eq_of_id (hrows r hr) hrow.1 hid
  exact hrow.2 (List.mem_map.mpr ⟨r, hr, congrArg Prod.fst heq⟩)

end Tables

/-- The state after some batches, from a state in which every pending event had been due for a
millisecond: the oldest events are relayed. -/
structure App.Drained (cfg : ℕ → Config) (p node : ℕ) (a : App) (n : ℕ) (b : App) : Prop where
  reachable : b.Reachable cfg anyStep
  proc : b.procs.get p = none
  idle : b.store.callOf p = none
  closed : (b.nodes node).Closed
  later : a.store.clock ≤ b.store.clock
  relayed : ∃ course : Course,
    b.history = course.occurrences
      (a.store.db.outboxByState.rows.take (n * pendingLimit (cfg node).relayLimit)) ++ a.history ∧
    a.store.db.Relayed b.store.db course
      (a.store.db.outboxByState.rows.take (n * pendingLimit (cfg node).relayLimit))

section Drain

variable {cfg : ℕ → Config} {a b c d : App} {p node n : ℕ}

/-- The rows that are left are the latest ones. -/
theorem App.Drained.rows (h : a.Drained cfg p node n b) : b.store.db.outboxByState.rows =
    a.store.db.outboxByState.rows.drop (n * pendingLimit (cfg node).relayLimit) := by
  obtain ⟨course, -, hrelayed⟩ := h.relayed
  rw [hrelayed.index, Clustered.rows_eraseAll_take]

/-- A row that is left belongs to another event than those relayed, and it has been due for a
millisecond. -/
theorem App.Drained.left (h : a.Drained cfg p node n b) (ha : a.Reachable cfg anyStep)
    (hdue : ∀ row ∈ a.store.db.outboxByState.rows,
      a.store.db.dueRow (a.store.clock - 1000000) row = true)
    {row : PendingRow} (hrow : row ∈ b.store.db.outboxByState.rows) :
    b.store.db.dueRow (b.store.clock - 1000000) row = true ∧
      ∀ r ∈ a.store.db.outboxByState.rows.take (n * pendingLimit (cfg node).relayLimit),
        row.id ≠ PendingRow.id r := by
  obtain ⟨course, -, hrelayed⟩ := h.relayed
  obtain ⟨hmem, hne⟩ := hrelayed.id_ne ha.store.traced.store (fun _ => List.mem_of_mem_take) hrow
  exact ⟨Store.due_later (hrelayed.retries row.id hne) (Int.sub_le_sub_right h.later _)
    (hdue row hmem), fun r hr => (hne r hr).symm⟩

/-- One batch more. -/
theorem App.Drained.batch (h : a.Drained cfg p node n b) (ha : a.Reachable cfg anyStep)
    (hdue : ∀ row ∈ a.store.db.outboxByState.rows,
      a.store.db.dueRow (a.store.clock - 1000000) row = true)
    (hspawn : b.step cfg (.spawn p node .relay) = some c)
    (hrun : Run (App.step cfg) (fun _ l => l.works p) c d) (hp : d.procs.get p = none) :
    a.Drained cfg p node (n + 1) d := by
  obtain ⟨c', hc', hphase⟩ := h.reachable.phase h.proc h.idle h.closed
  obtain rfl : c = c' := Option.some.inj (hspawn.symm.trans hc')
  obtain ⟨hidle, hclosed, hlater, course', hwithin, hhistory', hrelayed'⟩ :=
    (hphase d hrun).end_of_none hp
  refine ⟨?_, hp, hidle, hclosed, h.later.trans hlater, ?_⟩
  · obtain ⟨clock, hreach⟩ := h.reachable
    exact ⟨clock, (hreach.snoc trivial hspawn).trans hrun.any⟩
  · -- The batch takes the next rows, which lie behind those of the earlier batches.
    obtain ⟨course, hhistory, hrelayed⟩ := h.relayed
    rw [Course.relayed_of_all_due h.reachable.store.leasable h.reachable.store.traced.store hwithin
      (fun row hrow => (h.left ha hdue hrow).1)] at hhistory' hrelayed'
    obtain ⟨hboth, hoccurrences⟩ := hrelayed.join hrelayed' fun row hrow row' hrow' =>
      (h.left ha hdue (List.mem_of_mem_take hrow')).2 row hrow
    rw [Nat.succ_mul, List.take_add, ← h.rows]
    refine ⟨_, ?_, hboth⟩
    rw [hoccurrences, hhistory', hhistory, List.append_assoc]

/-- Some batches, one after another. -/
theorem App.Batches.drained (h : a.Batches cfg p node n b) (ha : a.Reachable cfg anyStep)
    (hp : a.procs.get p = none) (hidle : a.store.callOf p = none)
    (hclosed : (a.nodes node).Closed)
    (hdue : ∀ row ∈ a.store.db.outboxByState.rows,
      a.store.db.dueRow (a.store.clock - 1000000) row = true) : a.Drained cfg p node n b := by
  induction h with
  | zero =>
    refine ⟨ha, hp, hidle, hclosed, le_refl _, .start a.store.clock, ?_, ?_⟩
    · rw [Nat.zero_mul]
      rfl
    · rw [Nat.zero_mul]
      exact a.store.db.relayed_nil _
  | succ _ hspawn hrun hgone ih => exact ih.batch ha hdue hspawn hrun hgone

end Drain

/-- **The relay drains the outbox.** In a reachable state let every pending event have been due
for a millisecond. However the steps of `n` successive batches of a node follow each other, as
long as none of them fails and the other processes stand still: afterwards the `n * relayLimit`
oldest events have been sent, confirmed and marked, each once and the oldest first, the others
are still pending, and nothing else has changed; so enough batches empty the outbox. A further
batch can always be started and brought to its end. -/
theorem relay_drains_outbox {cfg : ℕ → Config} {a : App} (h : a.Reachable cfg anyStep) {p node : ℕ}
    (hp : a.procs.get p = none) (hidle : a.store.callOf p = none)
    (hclosed : (a.nodes node).Closed)
    (hdue : ∀ row ∈ a.store.db.outboxByState.rows,
      a.store.db.dueRow (a.store.clock - 1000000) row = true) {n : ℕ} {b : App}
    (hbatches : a.Batches cfg p node n b) :
    (∃ course : Course,
      b.history = course.occurrences
        (a.store.db.outboxByState.rows.take (n * pendingLimit (cfg node).relayLimit)) ++
          a.history ∧
      a.store.db.Relayed b.store.db course
        (a.store.db.outboxByState.rows.take (n * pendingLimit (cfg node).relayLimit))) ∧
    b.store.db.outboxByState.rows =
      a.store.db.outboxByState.rows.drop (n * pendingLimit (cfg node).relayLimit) ∧
    ∃ c, b.step cfg (.spawn p node .relay) = some c ∧
      ∀ x, Run (App.step cfg) (fun _ l => l.works p) c x → x.Completes cfg p := by
  have hdrained := hbatches.drained h hp hidle hclosed hdue
  refine ⟨hdrained.relayed, hdrained.rows, ?_⟩
  have hb := hdrained.reachable
  obtain ⟨c, hc, hphase⟩ := hb.phase hdrained.proc hdrained.idle hdrained.closed
  exact ⟨c, hc, fun x hrun => (hphase x hrun).completes hb.store.leasable hb.store.traced.store⟩

/-- Three orders that nobody published. -/
def ordersAppended : List AppLabel :=
  [.spawn 0 0 (.publish orderRequest "" 1), .exec 0 .ok { now := 5000000 },
    .spawn 2 0 (.publish orderRequest "" 2), .exec 2 .ok { now := 5000000 },
    .spawn 3 0 (.publish orderRequest "" 3), .exec 3 .ok { now := 5000000 }, .tick 7000000]

/-- Two batches of two events each publish three orders. -/
theorem relay_drains_orders : ∃ a b : App, a.Reachable (fun _ => pairConfig) anyStep ∧
    a.pendingIDs = [1, 2, 3] ∧ a.Batches (fun _ => pairConfig) 1 0 2 b ∧ b.pendingIDs = [] ∧
    ∃ course : Course,
      b.history = course.occurrences a.store.db.outboxByState.rows ++ a.history ∧
      a.store.db.Relayed b.store.db course a.store.db.outboxByState.rows := by
  obtain ⟨a, ha, htest⟩ := App.Reachable.of_play (fun _ => pairConfig) anyStep (fun _ _ => true)
    (fun _ _ _ => trivial) 5000000 ordersAppended
    (fun a => a.awaitsRelay && a.store.db.outboxByState.rows.all
      (a.store.db.dueRow (a.store.clock - 1000000))) (by decide)
  rw [Bool.and_eq_true, App.awaitsRelay_iff, List.all_eq_true] at htest
  obtain ⟨⟨hp, hidle, hclosed, hids⟩, hdue⟩ := htest
  have hlen : a.store.db.outboxByState.rows.length ≤ 2 * pendingLimit pairConfig.relayLimit := by
    have hthree := congrArg List.length hids
    rw [App.pendingIDs, List.length_map] at hthree
    rw [hthree]
    decide
  -- Each of the two batches can be started and brought to its end.
  obtain ⟨-, -, c, hc, hends⟩ :=
    relay_drains_outbox ha hp hidle hclosed hdue (p := 1) (n := 0) .zero
  obtain ⟨d, hd, hgone⟩ := hends c (.refl c)
  have hone := App.Batches.zero.succ hc hd hgone
  obtain ⟨-, -, c', hc', hends'⟩ := relay_drains_outbox ha hp hidle hclosed hdue hone
  obtain ⟨b, hb, hgone'⟩ := hends' c' (.refl c')
  have htwo := hone.succ hc' hb hgone'
  obtain ⟨hcourse, hrows, -⟩ := relay_drains_outbox ha hp hidle hclosed hdue htwo
  rw [List.take_of_length_le hlen] at hcourse
  rw [List.drop_eq_nil_of_le hlen] at hrows
  exact ⟨a, b, ha, hids, htwo, by rw [App.pendingIDs, hrows]; rfl, hcourse⟩

end ControlPlane

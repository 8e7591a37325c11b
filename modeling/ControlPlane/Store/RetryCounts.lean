import ControlPlane.Store.EventRows
import ControlPlane.Store.Provenance
import ControlPlane.Store.Idempotency

/-!
# Counting recorded failures

`RecordOutboxFailure` reads the retry count of an event and writes it back
incremented, by two statements that nothing ties together. A log of the calls that
were started is compared with the stored count: the calls of an event that have not
written yet make up the difference, as long as no call reads while another one is
about to write.
-/

namespace ControlPlane

open Transition

/-- The statements of `RecordOutboxFailure` for the event. -/
def Call.records (id : UUID) : Call → Bool
  | .failureRead args | .failureUpdate args _ _ | .failureLookup args _ _
  | .failureBatch args _ _ _ => decide (args.eventID = id)
  | _ => false

/-- A call of `RecordOutboxFailure` for the event that has yet to write the count. -/
def Call.counting (id : UUID) : Call → Bool
  | .failureRead args | .failureUpdate args _ _ => decide (args.eventID = id)
  | _ => false

/-- A call of `RecordOutboxFailure` for the event that has read the count and has yet to
write it. -/
def Call.incrementing (id : UUID) : Call → Bool
  | .failureUpdate args _ _ => decide (args.eventID = id)
  | _ => false

/-- The calls of `RecordOutboxFailure` for the event that a step starts. -/
def failuresStarted (id : UUID) (_ : System) : Label → List FailureArgs
  | .start _ (.recordFailure args) => if args.eventID = id then [args] else []
  | _ => []

/-- The step marks no event `id` as published and does not replay it, it lets no
statement of `RecordOutboxFailure` for this event fail, and it starts such calls with
the threshold `quarantineAfter`. -/
def recordsFailures (id : UUID) (quarantineAfter : ℤ) (s : System) : Label → Bool
  | .tick _ => true
  | .start _ (.recordFailure args) =>
      decide (args.eventID = id → args.quarantineAfter = quarantineAfter)
  | .start _ _ => true
  | .exec p report _ => (s.callOf p).all fun c =>
      match c with
      | .markBatch marked _ _ => decide (marked ≠ id)
      | .replayBatch replayed _ _ _ => decide (replayed ≠ id)
      | c => !c.records id || decide (report = .ok)
  | .crash p => (s.callOf p).all fun c => !c.records id

/-- The step lets no call of `RecordOutboxFailure` read the count of the event while
another call has read it and has yet to write it. -/
def readsSettled (id : UUID) (s : System) : Label → Bool
  | .exec p _ _ => (s.callOf p).all fun c =>
      match c with
      | .failureRead args =>
          decide (args.eventID = id → s.inProgress (Call.incrementing id) = 0)
      | _ => true
  | _ => true

/-- The steps on which no failure of the event is lost. -/
def countsFailures (id : UUID) (quarantineAfter : ℤ) (s : System) (l : Label) : Prop :=
  recordsFailures id quarantineAfter s l = true ∧ readsSettled id s l = true

/-- The stored count and the calls that have yet to write it add up to the count `c` at
the beginning and the calls in the log. A call that has read the count is alone and is
about to write one more than the stored count; the quarantine flag belongs to the
stored count once a call has written it. -/
structure System.Tally (id : UUID) (quarantineAfter c : ℤ) (s : System)
    (log : List FailureArgs) : Prop where
  counted : (s.db.retryMark id).1 + s.inProgress (Call.counting id) = c + log.length
  threshold : ∀ p args, s.callOf p = some (.failureRead args) → args.eventID = id →
    args.quarantineAfter = quarantineAfter
  written : ∀ p args n firstFailed, s.callOf p = some (.failureUpdate args n firstFailed) →
    args.eventID = id → n = (s.db.retryMark id).1 + 1 ∧ args.quarantineAfter = quarantineAfter
  alone : ∀ p q d e, s.callOf p = some d → s.callOf q = some e → d.incrementing id = true →
    e.incrementing id = true → p = q
  flag : (s.db.retryMark id).1 = c ∨
    (c < (s.db.retryMark id).1 ∧
      (s.db.retryMark id).2 = decide (quarantineAfter ≤ (s.db.retryMark id).1))

section Step

variable {id : UUID} {quarantineAfter c : ℤ} {s : System} {log : List FailureArgs}

/-- Only the read of the count leads to a call that has yet to write it. -/
theorem Call.Leads.counting {env : Env} {db : Store} {d e : Call} (h : Call.Leads env db d e)
    (he : e.counting id = true) : ∃ args, d = .failureRead args ∧ args.eventID = id := by
  cases h with
  | failureFirst => exact ⟨_, rfl, of_decide_eq_true he⟩
  | failureAgain => exact ⟨_, rfl, of_decide_eq_true he⟩
  | cleanup _ hclean =>
    cases e with
    | failureRead args => cases hclean
    | failureUpdate args n firstFailed => cases hclean
    | _ => cases he
  | _ => cases he

/-- After any other statement the acting client has no such call in hand. -/
theorem Call.next_counting {d : Call} {report : Report} {env : Env} {db : Store}
    (h : ∀ args, d = .failureRead args → args.eventID ≠ id) :
    (d.next report env db).call?.any (Call.counting id) = false := by
  cases hnext : d.next report env db with
  | done r => rfl
  | call e =>
    by_contra hcounting
    obtain ⟨args, hd, hid⟩ :=
      (Call.next_leads hnext).counting (by simpa [Next.call?] using hcounting)
    exact h args hd hid

theorem Call.counting_of_incrementing {d : Call} (h : d.incrementing id = true) :
    d.counting id = true := by
  cases d with
  | failureUpdate args n firstFailed => exact h
  | _ => cases h

/-- The tally after a statement that leaves count and flag of the event alone, as it
follows from the calls that have yet to write the count. -/
theorem System.Tally.keep (h : s.Tally id quarantineAfter c log) {s' : System}
    {log' : List FailureArgs} (hmark : s'.db.retryMark id = s.db.retryMark id)
    (hcount : (s'.inProgress (Call.counting id) : ℤ) + log.length =
      s.inProgress (Call.counting id) + log'.length)
    (hread : ∀ p args, s'.callOf p = some (.failureRead args) → args.eventID = id →
      s.callOf p = some (.failureRead args) ∨ args.quarantineAfter = quarantineAfter)
    (hold : ∀ p d, s'.callOf p = some d → d.incrementing id = true → s.callOf p = some d) :
    s'.Tally id quarantineAfter c log' := by
  refine ⟨?_, ?_, ?_, ?_, ?_⟩
  · have := h.counted
    rw [hmark]
    omega
  · intro p args hp hid
    rcases hread p args hp hid with hp' | hthreshold
    · exact h.threshold p args hp' hid
    · exact hthreshold
  · intro p args n firstFailed hp hid
    rw [hmark]
    exact h.written p args n firstFailed (hold p _ hp (decide_eq_true hid)) hid
  · intro p q d e hp hq hd he
    exact h.alone p q d e (hold p d hp hd) (hold q e hq he) hd he
  · rw [hmark]
    exact h.flag

/-- A statement that neither writes a count of the event nor belongs to a call that has
yet to write it keeps the tally. -/
theorem System.Tally.perform_quiet (h : s.Tally id quarantineAfter c log) {p : ℕ} {d : Call}
    {report : Report} {env : Env} (hcall : s.callOf p = some d) (hwrite : d.retryWrite id = none)
    (hquiet : d.counting id = false) :
    (s.perform p d report env).Tally id quarantineAfter c log := by
  have hnext : (d.next report env s.db).call?.any (Call.counting id) = false := by
    refine Call.next_counting ?_
    rintro args rfl
    exact of_decide_eq_false hquiet
  have hold : ∀ q e, (s.perform p d report env).callOf q = some e → e.counting id = true →
      s.callOf q = some e := by
    intro q e he hcounting
    rcases System.callOf_perform_cases he with ⟨-, he⟩ | ⟨-, he⟩
    · simp [he, Next.call?, hcounting] at hnext
    · exact he
  refine h.keep ?_ ?_ ?_ ?_
  · refine Call.effect_keeps (P := fun db => db.retryMark id = s.db.retryMark id) rfl ?_
    exact fun _ db' hm => hm.retryMark hwrite
  · have hsum := System.inProgress_perform (Call.counting id) hcall report env
    rw [hquiet, hnext] at hsum
    simp only [Bool.toNat_false] at hsum
    omega
  · exact fun q args hq hid => Or.inl (hold q _ hq (decide_eq_true hid))
  · exact fun q e hq he => hold q e hq (Call.counting_of_incrementing he)

/-- The read of the count, made while no other call is about to write it. -/
theorem System.Tally.perform_read (h : s.Tally id quarantineAfter c log) {p : ℕ}
    {args : FailureArgs} {env : Env} (hcall : s.callOf p = some (.failureRead args))
    (hid : args.eventID = id) (hsettled : s.inProgress (Call.incrementing id) = 0) :
    (s.perform p (.failureRead args) .ok env).Tally id quarantineAfter c log := by
  obtain ⟨firstFailed, hexec⟩ := Call.exec_failureRead args env s.db
  have hnext : (Call.failureRead args).next .ok env s.db =
      .call (.failureUpdate args ((s.db.retryMark id).1 + 1) firstFailed) := by
    rw [Call.next, if_pos rfl, hexec, hid]
  have hdb : (s.perform p (.failureRead args) .ok env).db = s.db := by
    simp [System.perform, Call.effect, hexec]
  have hself : ∀ q e, (s.perform p (.failureRead args) .ok env).callOf q = some e →
      e.incrementing id = true →
      q = p ∧ e = .failureUpdate args ((s.db.retryMark id).1 + 1) firstFailed := by
    intro q e he hincr
    rcases System.callOf_perform_cases he with ⟨hq, he⟩ | ⟨-, he⟩
    · rw [hnext] at he
      cases he
      exact ⟨hq, rfl⟩
    · rw [System.inProgress_eq_zero.mp hsettled q e he] at hincr
      cases hincr
  refine ⟨?_, ?_, ?_, ?_, ?_⟩
  · have hsum := System.inProgress_perform (Call.counting id) hcall .ok env
    rw [hnext] at hsum
    simp only [Next.call?, Option.any_some, Call.counting] at hsum
    rw [hdb]
    have := h.counted
    omega
  · intro q args' hq hid'
    rcases System.callOf_perform_cases hq with ⟨-, hq⟩ | ⟨-, hq⟩
    · rw [hnext] at hq
      cases hq
    · exact h.threshold q args' hq hid'
  · intro q args' n firstFailed' hq hid'
    obtain ⟨-, heq⟩ := hself q _ hq (decide_eq_true hid')
    cases heq
    rw [hdb]
    exact ⟨rfl, h.threshold p args hcall hid⟩
  · intro q q' d e hq hq' hd he
    rw [(hself q d hq hd).1, (hself q' e hq' he).1]
  · rw [hdb]
    exact h.flag

/-- The write of the count by the call that has read it. -/
theorem System.Tally.perform_write (h : s.Tally id quarantineAfter c log) {p : ℕ}
    {args : FailureArgs} {n : ℤ} {firstFailed : Time} {env : Env}
    (hcall : s.callOf p = some (.failureUpdate args n firstFailed)) (hid : args.eventID = id) :
    (s.perform p (.failureUpdate args n firstFailed) .ok env).Tally id quarantineAfter c log := by
  obtain ⟨hn, hthreshold⟩ := h.written p args n firstFailed hcall hid
  have hmark : (s.perform p (.failureUpdate args n firstFailed) .ok env).db.retryMark id =
      (n, decide (quarantineAfter ≤ n)) := by
    have heffect := (Call.failureUpdate args n firstFailed).effect_retryMark .ok env s.db id
    rw [if_neg (by decide), Call.retryWrite, if_pos hid, FailureArgs.quarantines, hthreshold]
      at heffect
    exact heffect
  have hnext : ((Call.failureUpdate args n firstFailed).next .ok env s.db).call?.any
      (Call.counting id) = false := by
    refine Call.next_counting ?_
    intro args' heq
    cases heq
  have hold : ∀ q e, (s.perform p (.failureUpdate args n firstFailed) .ok env).callOf q = some e →
      e.counting id = true → q ≠ p ∧ s.callOf q = some e := by
    intro q e he hcounting
    rcases System.callOf_perform_cases he with ⟨-, he⟩ | he
    · simp [he, Next.call?, hcounting] at hnext
    · exact he
  have hnone : ∀ q e, (s.perform p (.failureUpdate args n firstFailed) .ok env).callOf q = some e →
      e.incrementing id = false := by
    intro q e he
    by_contra hincr
    have hincr' : e.incrementing id = true := by simpa using hincr
    obtain ⟨hq, he'⟩ := hold q e he (Call.counting_of_incrementing hincr')
    exact hq (h.alone q p e _ he' hcall hincr' (decide_eq_true hid))
  refine ⟨?_, ?_, ?_, ?_, ?_⟩
  · have hsum := System.inProgress_perform (Call.counting id) hcall .ok env
    rw [hnext] at hsum
    simp only [Call.counting, hid, decide_true, Bool.toNat_true, Bool.toNat_false] at hsum
    have := h.counted
    rw [hmark]
    omega
  · exact fun q args' hq hid' => h.threshold q args' (hold q _ hq (decide_eq_true hid')).2 hid'
  · intro q args' m firstFailed' hq hid'
    have hincr := hnone q _ hq
    simp [Call.incrementing, hid'] at hincr
  · intro q q' d e hq hq' hd he
    rw [hnone q d hq] at hd
    cases hd
  · right
    rw [hmark]
    refine ⟨?_, rfl⟩
    rcases h.flag with heq | ⟨hlt, -⟩ <;> omega

/-- A statement admitted by the conditions keeps the tally. -/
theorem System.Tally.perform (h : s.Tally id quarantineAfter c log) (htraced : s.Traced)
    (hinserted : id ∈ s.inserted.map Prod.snd) {p : ℕ} {d : Call} {report : Report} {env : Env}
    (hcall : s.callOf p = some d)
    (hok : countsFailures id quarantineAfter s (.exec p report env)) :
    (s.perform p d report env).Tally id quarantineAfter c log := by
  obtain ⟨hrecords, hsettled⟩ := hok
  simp only [recordsFailures, hcall, Option.all_some] at hrecords
  simp only [readsSettled, hcall, Option.all_some] at hsettled
  cases d with
  | failureRead args =>
    by_cases hid : args.eventID = id
    · have hreport : report = .ok := by simpa [Call.records, hid] using hrecords
      subst hreport
      have hnone := of_decide_eq_true hsettled hid
      exact h.perform_read hcall hid hnone
    · exact h.perform_quiet hcall rfl (decide_eq_false hid)
  | failureUpdate args n firstFailed =>
    by_cases hid : args.eventID = id
    · have hreport : report = .ok := by simpa [Call.records, hid] using hrecords
      subst hreport
      exact h.perform_write hcall hid
    · exact h.perform_quiet hcall (if_neg hid) (decide_eq_false hid)
  | appendBatch ev newID =>
    have hne : newID ≠ id := by
      rintro rfl
      exact (htraced.fresh p _ _ hcall rfl).2 hinserted
    exact h.perform_quiet hcall (if_neg hne) rfl
  | markBatch marked brokerMessageID occurredAt =>
    have hne : marked ≠ id := of_decide_eq_true hrecords
    exact h.perform_quiet hcall (if_neg hne) rfl
  | replayBatch replayed letter now occurredAt =>
    have hne : replayed ≠ id := of_decide_eq_true hrecords
    exact h.perform_quiet hcall (if_neg hne) rfl
  | _ => exact h.perform_quiet hcall rfl rfl

/-- Starting an operation logs it exactly when it is a call that has yet to count. -/
theorem Op.begin_counting (s : System) (op : Op) (now : Time) (p : ℕ) :
    ((op.begin now).counting id).toNat = (failuresStarted id s (.start p op)).length := by
  cases op with
  | recordFailure args =>
    simp only [Op.begin, Call.counting, failuresStarted]
    split_ifs with hid <;> simp [hid]
  | append ev newID =>
    simp only [Op.begin]
    split_ifs <;> rfl
  | _ => rfl

theorem System.Tally.launch (h : s.Tally id quarantineAfter c log) {p : ℕ} {op : Op}
    (hidle : s.callOf p = none) (hok : recordsFailures id quarantineAfter s (.start p op) = true) :
    (s.launch p op).Tally id quarantineAfter c (failuresStarted id s (.start p op) ++ log) := by
  refine h.keep rfl ?_ ?_ ?_
  · rw [System.inProgress_launch _ hidle, op.begin_counting s s.clock p, List.length_append]
    omega
  · intro q args hq hid
    rcases System.callOf_launch_cases hq with ⟨-, hbegin⟩ | ⟨-, hq⟩
    · right
      cases op with
      | recordFailure args' =>
        cases hbegin
        exact of_decide_eq_true hok hid
      | append ev newID =>
        simp only [Op.begin] at hbegin
        split_ifs at hbegin
      | _ => cases hbegin
    · exact Or.inl hq
  · intro q d hq hd
    rcases System.callOf_launch_cases hq with ⟨-, rfl⟩ | ⟨-, hq⟩
    · cases op with
      | append ev newID =>
        simp only [Op.begin] at hd
        split_ifs at hd <;> cases hd
      | _ => cases hd
    · exact hq

/-- Every step admitted by the conditions keeps the tally. -/
theorem System.Tally.step (h : s.Tally id quarantineAfter c log) (htraced : s.Traced)
    (hinserted : id ∈ s.inserted.map Prod.snd) {l : Label} {s' : System}
    (hok : countsFailures id quarantineAfter s l) (hstep : s.Steps l s') :
    s'.Tally id quarantineAfter c (failuresStarted id s l ++ log) := by
  cases hstep with
  | tick hclock => exact ⟨h.counted, h.threshold, h.written, h.alone, h.flag⟩
  | start hidle hfresh => exact h.launch hidle hok.1
  | exec hslot hsince hnow =>
    exact h.perform htraced hinserted (System.callOf_of_running hslot) hok
  | crash hslot =>
    rename_i p d since
    have hcall := System.callOf_of_running hslot
    have hcounting : d.counting id = false := by
      have hrecords := hok.1
      simp only [recordsFailures, hcall, Option.all_some, Bool.not_eq_true'] at hrecords
      cases d with
      | failureRead args => exact hrecords
      | failureUpdate args n firstFailed => exact hrecords
      | _ => rfl
    refine h.keep rfl ?_ ?_ ?_
    · have hsum := System.inProgress_crash (Call.counting id) hcall
      rw [hcounting, Bool.toNat_false, Nat.add_zero] at hsum
      rw [hsum]
      rfl
    · exact fun q args hq _ => Or.inl (System.callOf_of_crash hq).2
    · exact fun q e hq _ => (System.callOf_of_crash hq).2

end Step

/-- No call of `RecordOutboxFailure` for the event is in progress. -/
def System.settled (s : System) (id : UUID) : Prop :=
  ∀ p d, s.callOf p = some d → d.records id = false

/-- Then none of them has yet to write the count. -/
theorem System.settled.counting {s : System} {id : UUID} (h : s.settled id) :
    s.inProgress (Call.counting id) = 0 := by
  refine System.inProgress_eq_zero.mpr ?_
  intro p d hd
  have hrecords := h p d hd
  cases d with
  | failureRead args => exact hrecords
  | failureUpdate args n firstFailed => exact hrecords
  | _ => rfl

/-- The tally starts when no call is in progress. -/
theorem System.settled.tally {s : System} {id : UUID} (h : s.settled id) (quarantineAfter : ℤ) :
    s.Tally id quarantineAfter (s.db.retryMark id).1 [] := by
  have hnone : ∀ p d, s.callOf p = some d → d.counting id = true → False := by
    intro p d hd hcounting
    rw [System.inProgress_eq_zero.mp h.counting p d hd] at hcounting
    cases hcounting
  refine ⟨by simp [h.counting], ?_, ?_, ?_, Or.inl rfl⟩
  · exact fun p args hp hid => (hnone p _ hp (decide_eq_true hid)).elim
  · exact fun p args n firstFailed hp hid => (hnone p _ hp (decide_eq_true hid)).elim
  · exact fun p q d e hp _ hd => (hnone p d hp (Call.counting_of_incrementing hd)).elim

/-- **No lost retry count.** Let an appended event have the retry count `c`, with no call
of `RecordOutboxFailure` for it in progress. Consider every interleaving in which the event
is neither marked nor replayed, no statement of these calls fails, and a call reads the
count only when no other one has read it and has yet to write it. Whenever all calls
started since have returned, the stored count has grown by their number, and the event is
quarantined if one of them was made and the count has reached the threshold. -/
theorem failures_counted {s t : System} {id : UUID} {quarantineAfter : ℤ}
    {log : List FailureArgs} (hreach : s.Reachable anyStep)
    (hinserted : id ∈ s.inserted.map Prod.snd) (hsettled : s.settled id)
    (hrun : Run (logged System.step (failuresStarted id))
      (fun a l => countsFailures id quarantineAfter a.1 l) (s, []) (t, log))
    (hdone : t.settled id) :
    (t.db.retryMark id).1 = (s.db.retryMark id).1 + log.length ∧
    (0 < log.length → quarantineAfter ≤ (s.db.retryMark id).1 + log.length →
      (t.db.retryMark id).2 = true) := by
  have hall : t.Traced ∧ id ∈ t.inserted.map Prod.snd ∧
      t.Tally id quarantineAfter (s.db.retryMark id).1 log := by
    refine hrun.logged_invariant (I := fun u log => u.Traced ∧ id ∈ u.inserted.map Prod.snd ∧
      u.Tally id quarantineAfter (s.db.retryMark id).1 log) ⟨hreach.traced, hinserted,
        hsettled.tally quarantineAfter⟩ ?_
    rintro a log l b ⟨htraced, hid, htally⟩ hok hab
    have hstep := System.step_cases hab
    exact ⟨htraced.step hstep, List.map_subset Prod.snd hstep.inserted hid,
      htally.step htraced hid hok hstep⟩
  obtain ⟨-, -, htally⟩ := hall
  have hcount : (t.db.retryMark id).1 = (s.db.retryMark id).1 + log.length := by
    have := htally.counted
    rw [hdone.counting] at this
    omega
  refine ⟨hcount, ?_⟩
  intro hpos hreached
  rcases htally.flag with hsame | ⟨-, hflag⟩
  · omega
  · rw [hflag, hcount]
    exact decide_eq_true hreached

/-- A failed publication of the first order, which is quarantined at its second failure. -/
def orderFailed : Op := .recordFailure ⟨1, "no responders", 1000000000, 60000000000, 0, 2⟩

/-- The first order is appended and nothing else is in progress. -/
def orderWaits (s : System) : Bool :=
  decide (1 ∈ s.inserted.map Prod.snd) && decide (s.inProgress (Call.records 1) = 0) &&
    decide (s.db.retryMark 1 = (0, false))

theorem System.settled_of_orderWaits {s : System} (h : orderWaits s = true) :
    1 ∈ s.inserted.map Prod.snd ∧ s.settled 1 ∧ s.db.retryMark 1 = (0, false) := by
  simp only [orderWaits, Bool.and_eq_true, decide_eq_true_eq] at h
  exact ⟨h.1.1, System.inProgress_eq_zero.mp h.1.2, h.2⟩

/-- Append the first order. -/
def orderAppend : List Label := .start 0 (.append orderCreated 1) :: execs 0 3 5000000

/-- Two failures recorded one after the other quarantine the order. -/
theorem failures_counted_orders : ∃ (s t : System) (log : List FailureArgs),
    s.Reachable anyStep ∧ log.length = 2 ∧ (s.db.retryMark 1).1 = 0 ∧
    (t.db.retryMark 1).1 = 2 ∧ (t.db.retryMark 1).2 = true := by
  have hcheck : ∀ (a : System × List FailureArgs) (l : Label),
      (recordsFailures 1 2 a.1 l && readsSettled 1 a.1 l) = true → countsFailures 1 2 a.1 l :=
    fun a l h => by simpa [countsFailures] using h
  have hplay : (play System.step (fun _ _ => true) (System.init 5000000) orderAppend).any
      (fun s => orderWaits s && (play (logged System.step (failuresStarted 1))
        (fun a l => recordsFailures 1 2 a.1 l && readsSettled 1 a.1 l) (s, [])
        (.start 1 orderFailed :: execs 1 2 5000000 ++
          .start 2 orderFailed :: execs 2 4 5000000)).any fun a =>
            decide (a.1.inProgress (Call.records 1) = 0) && decide (a.2.length = 2)) = true := by
    decide
  obtain ⟨s, hreach, htest⟩ := Run.exists_of_play (fun _ _ _ => trivial) hplay
  simp only [Bool.and_eq_true] at htest
  obtain ⟨hwaits, hplay'⟩ := htest
  obtain ⟨⟨t, log⟩, hrun, htest'⟩ := Run.exists_of_play hcheck hplay'
  simp only [Bool.and_eq_true, decide_eq_true_eq] at htest'
  obtain ⟨hinserted, hsettled, hmark⟩ := System.settled_of_orderWaits hwaits
  have hcounted := failures_counted ⟨5000000, hreach⟩ hinserted hsettled hrun
    (System.inProgress_eq_zero.mp htest'.1)
  rw [hmark, htest'.2] at hcounted
  exact ⟨s, t, log, ⟨5000000, hreach⟩, htest'.2, by rw [hmark], hcounted.1,
    hcounted.2 (by decide) (by decide)⟩

/-- Two calls read the count before either writes it. Both return without an error, but
only one failure is counted and the order is not quarantined. -/
theorem overlapping_failures_lost : ∃ (s t : System) (log : List FailureArgs),
    s.Reachable anyStep ∧ 1 ∈ s.inserted.map Prod.snd ∧ s.settled 1 ∧
    Run (logged System.step (failuresStarted 1)) (fun a l => recordsFailures 1 2 a.1 l = true)
      (s, []) (t, log) ∧
    t.settled 1 ∧ (s.db.retryMark 1).1 = 0 ∧ log.length = 2 ∧
    t.slots.get 1 = some (.returned (.recorded false 1)) ∧
    t.slots.get 2 = some (.returned (.recorded false 1)) ∧ t.db.retryMark 1 = (1, false) := by
  have hplay : (play System.step (fun _ _ => true) (System.init 5000000) orderAppend).any
      (fun s => orderWaits s && (play (logged System.step (failuresStarted 1))
        (fun a l => recordsFailures 1 2 a.1 l) (s, [])
        ([.start 1 orderFailed, .start 2 orderFailed] ++ execs 1 1 5000000 ++
          execs 2 2 5000000 ++ execs 1 1 5000000)).any fun a =>
            decide (a.1.inProgress (Call.records 1) = 0) && (decide (a.2.length = 2) &&
            (decide (a.1.slots.get 1 = some (.returned (.recorded false 1))) &&
            (decide (a.1.slots.get 2 = some (.returned (.recorded false 1))) &&
            decide (a.1.db.retryMark 1 = (1, false)))))) = true := by
    decide
  obtain ⟨s, hreach, htest⟩ := Run.exists_of_play (fun _ _ _ => trivial) hplay
  simp only [Bool.and_eq_true] at htest
  obtain ⟨hwaits, hplay'⟩ := htest
  obtain ⟨⟨t, log⟩, hrun, htest'⟩ := Run.exists_of_play (fun _ _ h => h) hplay'
  simp only [Bool.and_eq_true, decide_eq_true_eq] at htest'
  obtain ⟨hidle, hlength, hslot, hslot', hmark⟩ := htest'
  obtain ⟨hinserted, hsettled, hmark₀⟩ := System.settled_of_orderWaits hwaits
  exact ⟨s, t, log, ⟨5000000, hreach⟩, hinserted, hsettled, hrun,
    System.inProgress_eq_zero.mp hidle, by rw [hmark₀], hlength, hslot, hslot', hmark⟩

end ControlPlane

import ControlPlane.Store.EventRows
import ControlPlane.Store.Outbox
import ControlPlane.Store.Serial

/-!
# The two dead-letter tables

A dead letter is stored twice: by its event, from where it is replayed, and by the time
of its quarantine, from where it is listed and expired. Executed one after another, the
operations keep the two tables in correspondence as long as no event is quarantined that
is in quarantine already: the second letter replaces the first one by event, but not by
time.
-/

namespace ControlPlane

open Transition

/-- The two tables hold the same dead letters, with the same columns. -/
def Store.LettersAgree (db : Store) : Prop :=
  ∀ t id letter, db.deadLettersByTime.get (toLex (t, id)) = some letter ↔
    db.deadLettersById id = some { toDeadLetter := letter, quarantinedAt := t }

/-- What `ListDeadLetters` returns. -/
def Store.listDeadLetters (db : Store) (limit : ℤ) : List EventRecord :=
  (db.deadLettersByTime.page (lettersLimit limit)).map letterRecord

/-- The execution does not quarantine an event that has a dead letter. -/
def quarantinesOnce (s : Serial) (x : Execution) : Bool :=
  match x.op with
  | .recordFailure args =>
      !(args.quarantines ((s.db.retryMark args.eventID).1 + 1) &&
        (s.db.deadLettersById args.eventID).isSome)
  | _ => true

/-- What a call has read about dead letters is still true of the database. A cleanup with
the cutoff `cutoff` has selected letters that are older and still there. -/
def Call.LettersReady (cutoff : Time) (db : Store) : Call → Prop
  | .replayOccurred id letter | .replayBatch id letter _ _ => db.deadLettersById id = some letter
  | .failureRead args => args.quarantines ((db.retryMark args.eventID).1 + 1) = true →
      db.deadLettersById args.eventID = none
  | .failureUpdate args n _ => args.quarantines n = true →
      db.deadLettersById args.eventID = none
  | .failureLookup args _ _ | .failureBatch args _ _ _ => db.deadLettersById args.eventID = none
  | .cleanupKeysSelect args | .cleanupKeysDelete args _ _ _ | .cleanupLettersSelect args _ =>
      args.deadLetterBefore = cutoff
  | .cleanupLettersDelete row rest _ _ => (row :: rest).Nodup ∧ ∀ key ∈ row :: rest,
      (∃ letter, db.deadLettersByTime.get key = some letter) ∧ ofTimestamp (ofLex key).1 < cutoff
  | _ => True

section Tables

variable {db db' : Store} {id : UUID} {t : Timestamp}

theorem Store.LettersAgree.insert (h : db.LettersAgree) (hnone : db.deadLettersById id = none)
    (t : Timestamp) (letter : DeadLetter) : (db.insertDeadLetter id t letter).LettersAgree := by
  intro t' id' letter'
  simp only [Store.insertDeadLetter, Clustered.get_put]
  by_cases hid : id' = id
  · subst hid
    have hold : db.deadLettersByTime.get (toLex (t', id')) = none := by
      cases hget : db.deadLettersByTime.get (toLex (t', id')) with
      | none => rfl
      | some old =>
        rw [(h t' id' old).mp hget] at hnone
        cases hnone
    by_cases ht : t' = t
    · subst ht
      simp
    · simp [ht, hold, Ne.symm ht]
  · simp [hid, h t' id' letter']

theorem Store.LettersAgree.remove {letter : DeadLetterById} (h : db.LettersAgree)
    (hletter : db.deadLettersById id = some letter)
    (hbyTime : db'.deadLettersByTime =
      db.deadLettersByTime.erase (toLex (letter.quarantinedAt, id)))
    (hbyId : db'.deadLettersById = Function.update db.deadLettersById id none) :
    db'.LettersAgree := by
  intro t' id' letter'
  rw [hbyTime, hbyId, Clustered.get_erase]
  by_cases hid : id' = id
  · subst hid
    simp only [Function.update_self, reduceCtorEq, iff_false]
    intro hget
    split_ifs at hget with ht
    have heq := (h t' id' letter').mp hget
    rw [hletter, Option.some.injEq] at heq
    exact ht (by rw [heq])
  · simp [hid, h t' id' letter']

/-- A row by time belongs to the letter of its event. -/
theorem Store.LettersAgree.byId (h : db.LettersAgree) {key : EventKey} {letter : DeadLetter}
    (hrow : db.deadLettersByTime.get key = some letter) : db.deadLettersById (ofLex key).2 =
      some { toDeadLetter := letter, quarantinedAt := (ofLex key).1 } :=
  (h (ofLex key).1 (ofLex key).2 letter).mp hrow

end Tables

section Statements

variable {cutoff : Time} {db : Store} {c d : Call} {env : Env}

/-- A statement whose call has read the truth keeps the tables in agreement. -/
theorem Store.LettersAgree.exec (h : db.LettersAgree) (hc : c.LettersReady cutoff db) :
    (c.exec env db).1.LettersAgree := by
  have hm := c.exec_mutation env db
  generalize (c.exec env db).1 = db' at hm ⊢
  cases hm with
  | insertDeadLetter => exact h.insert hc _ _
  | replay => exact h.remove hc rfl rfl
  | deleteDeadLetter =>
    obtain ⟨⟨letter, hrow⟩, -⟩ := hc.2 _ List.mem_cons_self
    exact h.remove (h.byId hrow) rfl rfl
  | _ => exact h

/-- The letters that a cleanup selects are in the table and older than the cutoff. -/
theorem Store.mem_expiredLetters {args : CleanupArgs} {key : EventKey}
    (h : key ∈ db.expiredLetters args) :
    (∃ letter, db.deadLettersByTime.get key = some letter) ∧
      ofTimestamp (ofLex key).1 < args.deadLetterBefore := by
  obtain ⟨hpage, hcutoff⟩ := List.mem_filter.mp h
  obtain ⟨row, hrow, rfl⟩ := List.mem_map.mp hpage
  exact ⟨⟨row.2, Clustered.get_of_mem_page hrow⟩, of_decide_eq_true hcutoff⟩

theorem Store.nodup_expiredLetters (db : Store) (args : CleanupArgs) :
    (db.expiredLetters args).Nodup :=
  (db.deadLettersByTime.nodup_page_keys _).filter _

/-- The next statement of a call has read the truth as well. -/
theorem Call.LettersReady.exec (hc : c.LettersReady cutoff db)
    (hnext : (c.exec env db).2 = .call d) : d.LettersReady cutoff (c.exec env db).1 := by
  have hok : c.next .ok env db = .call d := hnext
  have hsweeps : c.cleaning = true → Call.Sweeps db c d := fun hclean => Call.next_sweeps hclean hok
  cases c with
  | failureRead args =>
    obtain ⟨firstFailed, hexec⟩ := Call.exec_failureRead args env db
    rw [hexec] at hnext ⊢
    cases hnext
    exact hc
  | failureUpdate args n firstFailed =>
    cases Call.exec_leads hnext with
    | failureLookup hquarantines => exact hc hquarantines
    | cleanup hclean => cases hclean
  | failureLookup args n now =>
    cases Call.exec_leads hnext with
    | failureBatch hrow =>
      simp only [Call.exec, hrow]
      exact hc
    | cleanup hclean => cases hclean
  | replayRead id =>
    cases Call.exec_leads hnext with
    | replayOccurred hletter =>
      simp only [Call.exec, hletter]
      exact hletter
    | cleanup hclean => cases hclean
  | replayOccurred id letter =>
    cases Call.exec_leads hnext with
    | replayMissing hrow =>
      simp only [Call.exec, hrow]
      exact hc
    | replayBatch hrow =>
      simp only [Call.exec, hrow]
      exact hc
    | cleanup hclean => cases hclean
  | cleanupKeysSelect args =>
    cases hsweeps rfl with
    | firstKey => exact hc
    | noKey => exact hc
  | cleanupKeysDelete args row rest deleted =>
    cases hsweeps rfl with
    | nextKey => exact hc
    | lastKey => exact hc
  | cleanupLettersSelect args deleted =>
    cases hsweeps rfl with
    | firstLetter hrows =>
      refine ⟨hrows ▸ db.nodup_expiredLetters args, ?_⟩
      intro key hkey
      have hcutoff : args.deadLetterBefore = cutoff := hc
      rw [← hrows] at hkey
      exact hcutoff ▸ Store.mem_expiredLetters hkey
  | cleanupLettersDelete row rest m n =>
    cases hsweeps rfl with
    | nextLetter =>
      obtain ⟨hnodup, hrows⟩ := hc
      obtain ⟨hfresh, hnodup'⟩ := List.nodup_cons.mp hnodup
      refine ⟨hnodup', ?_⟩
      intro key hkey
      obtain ⟨⟨letter, hletter⟩, hcutoff⟩ := hrows key (List.mem_cons_of_mem _ hkey)
      refine ⟨⟨letter, ?_⟩, hcutoff⟩
      have hne : key ≠ row := fun heq => hfresh (heq ▸ hkey)
      simpa [Call.exec, Store.deleteDeadLetter, hne] using hletter
  | _ => cases Call.exec_leads hnext <;> trivial

end Statements

/-- The letters of an earlier database are still stored by event, or are older than the
cutoff. -/
def Store.LettersKept (cutoff : Time) (old db : Store) : Prop :=
  ∀ id letter, old.deadLettersById id = some letter → db.deadLettersById id = some letter ∨
    ofTimestamp letter.quarantinedAt < cutoff

section Operations

variable {cutoff : Time} {old db : Store} {c d : Call} {env : Env}

/-- A statement of a cleanup deletes letters that are older than its cutoff only. -/
theorem Store.LettersKept.exec (h : Store.LettersKept cutoff old db) (hagree : db.LettersAgree)
    (hclean : c.cleaning = true) (hc : c.LettersReady cutoff db) :
    Store.LettersKept cutoff old (c.exec env db).1 := by
  cases c with
  | cleanupLettersDelete row rest m n =>
    intro id letter hold
    rcases h id letter hold with hletter | holder
    · by_cases hid : id = (ofLex row).2
      · right
        obtain ⟨⟨letter', hrow⟩, hcutoff⟩ := hc.2 row List.mem_cons_self
        have heq := hagree.byId hrow
        rw [← hid, hletter, Option.some.injEq] at heq
        rw [heq]
        exact hcutoff
      · left
        simpa [Call.exec, Store.deleteDeadLetter, hid] using hletter
    · exact Or.inr holder
  | cleanupKeysSelect args => exact h
  | cleanupKeysDelete args row rest deleted => exact h
  | cleanupLettersSelect args deleted => exact h
  | _ => cases hclean

/-- The cutoff for dead letters of an operation. -/
def Op.letterCutoff : Op → Time
  | .cleanup args => args.deadLetterBefore
  | _ => zeroTime

/-- An operation starts without having read anything about dead letters. -/
theorem Op.begin_lettersReady {s : Serial} {x : Execution} (hok : quarantinesOnce s x = true) :
    (x.op.begin x.start).LettersReady x.op.letterCutoff s.db := by
  cases hop : x.op with
  | recordFailure args =>
    intro hquarantines
    simp only [quarantinesOnce, hop, hquarantines, Bool.true_and, Bool.not_eq_true',
      Option.isSome_eq_false_iff, Option.isNone_iff_eq_none] at hok
    exact hok
  | append ev newID =>
    simp only [Op.begin]
    split_ifs <;> trivial
  | cleanup args => rfl
  | _ => trivial

/-- A complete execution keeps the tables in agreement. -/
theorem Store.LettersAgree.step {s s' : Serial} {x : Execution} (h : s.db.LettersAgree)
    (hok : quarantinesOnce s x = true) (hstep : s.step x = some s') : s'.db.LettersAgree := by
  obtain ⟨-, r, hcomplete⟩ := Serial.step_cases hstep
  refine Call.complete_invariant (I := fun db c => db.LettersAgree ∧
    c.LettersReady x.op.letterCutoff db) (P := fun db _ => db.LettersAgree) ?_ ?_
    ⟨h, Op.begin_lettersReady hok⟩ hcomplete
  · exact fun db c env d hI hnext => ⟨hI.1.exec hI.2, hI.2.exec hnext⟩
  · exact fun db c env r hI _ => hI.1.exec hI.2

/-- A complete cleanup deletes letters that are older than its cutoff only. -/
theorem Store.LettersAgree.cleanup {s s' : Serial} {args : CleanupArgs} {start : Time}
    {envs : List Env} (h : s.db.LettersAgree)
    (hstep : s.step ⟨.cleanup args, start, envs⟩ = some s') :
    Store.LettersKept args.deadLetterBefore s.db s'.db := by
  obtain ⟨-, r, hcomplete⟩ := Serial.step_cases hstep
  have hready : (Call.cleanupKeysSelect args).LettersReady args.deadLetterBefore s.db := rfl
  refine Call.complete_invariant (I := fun db c => (db.LettersAgree ∧ c.cleaning = true) ∧
    c.LettersReady args.deadLetterBefore db ∧ Store.LettersKept args.deadLetterBefore s.db db)
    (P := fun db _ => Store.LettersKept args.deadLetterBefore s.db db) ?_ ?_
    ⟨⟨h, rfl⟩, hready, fun id letter hletter => Or.inl hletter⟩ hcomplete
  · rintro db c env d ⟨⟨hagree, hclean⟩, hready, hkept⟩ hnext
    have hok : c.next .ok env db = .call d := hnext
    have hclean' : d.cleaning = true := by
      cases Call.next_sweeps hclean hok <;> rfl
    exact ⟨⟨hagree.exec hready, hclean'⟩, hready.exec hnext, hkept.exec hagree hclean hready⟩
  · rintro db c env r ⟨⟨hagree, hclean⟩, hready, hkept⟩ -
    exact hkept.exec hagree hclean hready

/-- The statements of `ReplayDeadLetter` for the event. -/
def Call.replays (id : UUID) : Call → Bool
  | .replayRead replayed | .replayOccurred replayed _ | .replayBatch replayed _ _ _ =>
      decide (replayed = id)
  | _ => false

/-- A complete replay leaves no letter of its event. -/
theorem Serial.step_replay {s s' : Serial} {id : UUID} {start : Time} {envs : List Env}
    (hstep : s.step ⟨.replay id, start, envs⟩ = some s') : s'.db.deadLettersById id = none := by
  obtain ⟨-, r, hcomplete⟩ := Serial.step_cases hstep
  have hbegin : (Call.replayRead id).replays id = true := decide_eq_true rfl
  refine Call.complete_invariant (I := fun _ c => c.replays id = true)
    (P := fun db _ => db.deadLettersById id = none) ?_ ?_ hbegin hcomplete
  · intro db c env d hc hnext
    cases Call.exec_leads hnext with
    | replayOccurred => exact hc
    | replayMissing => exact hc
    | replayBatch => exact hc
    | cleanup hclean => cases c <;> first | cases hc | cases hclean
    | _ => cases hc
  · intro db c env r hc hnext
    cases c with
    | replayRead replayed =>
      have hid : replayed = id := of_decide_eq_true hc
      subst hid
      cases hletter : db.deadLettersById replayed with
      | none => simp [Call.exec, hletter]
      | some letter => simp [Call.exec, hletter] at hnext
    | replayOccurred replayed letter =>
      cases hrow : db.outboxEvents replayed <;> simp [Call.exec, hrow] at hnext
    | replayBatch replayed letter now occurredAt =>
      have hid : replayed = id := of_decide_eq_true hc
      subst hid
      exact Function.update_self ..
    | _ => cases hc

end Operations

section Listing

variable {db : Store}

/-- Every listed event has a letter. -/
theorem Store.LettersAgree.replayable_of_listed (h : db.LettersAgree) {limit : ℤ} {ev : EventRecord}
    (hev : ev ∈ db.listDeadLetters limit) : db.Replayable ev.id := by
  obtain ⟨row, hrow, rfl⟩ := List.mem_map.mp hev
  exact ⟨_, h.byId (Clustered.get_of_mem_page hrow)⟩

/-- No event is listed twice. -/
theorem Store.LettersAgree.nodup_listed (h : db.LettersAgree) (limit : ℤ) :
    ((db.listDeadLetters limit).map fun ev => ev.id).Nodup := by
  have hkeys := db.deadLettersByTime.nodup_page_keys (lettersLimit limit)
  have hids : ∀ key ∈ (db.deadLettersByTime.page (lettersLimit limit)).map Prod.fst,
      ∀ key' ∈ (db.deadLettersByTime.page (lettersLimit limit)).map Prod.fst,
      (ofLex key).2 = (ofLex key').2 → key = key' := by
    intro key hkey key' hkey' heq
    obtain ⟨row, hrow, rfl⟩ := List.mem_map.mp hkey
    obtain ⟨row', hrow', rfl⟩ := List.mem_map.mp hkey'
    have hletter := h.byId (Clustered.get_of_mem_page hrow)
    have hletter' := h.byId (Clustered.get_of_mem_page hrow')
    rw [heq, hletter', Option.some.injEq, DeadLetterById.mk.injEq] at hletter
    exact Prod.ext hletter.2.symm heq
  have hmap := List.Nodup.map_on hids hkeys
  simpa [Store.listDeadLetters, List.map_map, Function.comp_def, letterRecord] using hmap

/-- With enough places every event that has a letter is listed. -/
theorem Store.LettersAgree.listed_of_replayable (h : db.LettersAgree) {limit : ℤ}
    (hlimit : db.deadLettersByTime.rows.length ≤ lettersLimit limit) {id : UUID}
    (hid : db.Replayable id) : ∃ ev ∈ db.listDeadLetters limit, ev.id = id := by
  obtain ⟨letter, hletter⟩ := hid
  have hrow := (h letter.quarantinedAt id letter.toDeadLetter).mpr hletter
  exact ⟨_, List.mem_map.mpr ⟨_, Clustered.mem_page_of_le hlimit hrow, rfl⟩, rfl⟩

end Listing

/-- **The two dead-letter tables agree.** Between complete executions, none of which
quarantines an event that has a dead letter, the tables are in one-to-one correspondence.
Hence `ListDeadLetters` lists only events that can be replayed, each of them once, and all
of them when its limit suffices; it does not list an event that was just replayed; and
`CleanupExpired` deletes no record by event whose `quarantined_at` is not before the
cutoff. -/
theorem dead_letter_tables_agree {clock : Time} {s : Serial}
    (hrun : Run Serial.step (fun s x => quarantinesOnce s x = true) (Serial.init clock) s) :
    (∀ t id letter, s.db.deadLettersByTime.get (toLex (t, id)) = some letter ↔
      s.db.deadLettersById id = some { toDeadLetter := letter, quarantinedAt := t }) ∧
    (∀ limit, ((s.db.listDeadLetters limit).map fun ev => ev.id).Nodup ∧
      (∀ ev ∈ s.db.listDeadLetters limit, s.db.Replayable ev.id) ∧
      (s.db.deadLettersByTime.rows.length ≤ lettersLimit limit →
        ∀ id, s.db.Replayable id → ∃ ev ∈ s.db.listDeadLetters limit, ev.id = id)) ∧
    (∀ id start envs s', s.step ⟨.replay id, start, envs⟩ = some s' →
      ∀ limit, ∀ ev ∈ s'.db.listDeadLetters limit, ev.id ≠ id) ∧
    ∀ args start envs s', s.step ⟨.cleanup args, start, envs⟩ = some s' →
      ∀ id letter, s.db.deadLettersById id = some letter → s'.db.deadLettersById id = none →
        ofTimestamp letter.quarantinedAt < args.deadLetterBefore := by
  have hagree : s.db.LettersAgree := by
    refine hrun.invariant (I := fun s => s.db.LettersAgree) ?_ ?_
    · intro t id letter
      simp [Serial.init, Store.empty]
    · exact fun a x b ha hok hab => ha.step hok hab
  refine ⟨hagree, ?_, ?_, ?_⟩
  · exact fun limit => ⟨hagree.nodup_listed limit, fun ev => hagree.replayable_of_listed,
      fun hlimit id => hagree.listed_of_replayable hlimit⟩
  · rintro id start envs s' hstep limit ev hev rfl
    have hagree' := hagree.step rfl hstep
    obtain ⟨letter, hletter⟩ := hagree'.replayable_of_listed hev
    rw [Serial.step_replay hstep] at hletter
    cases hletter
  · intro args start envs s' hstep id letter hletter hnone
    rcases hagree.cleanup hstep id letter hletter with hkept | holder
    · rw [hnone] at hkept
      cases hkept
    · exact holder

/-- An operation of `n` statements, all at one time. -/
def executedAt (now : Time) (n : ℕ) (op : Op) : Execution := ⟨op, now, List.replicate n { now }⟩

/-- A failed publication of an event, which is quarantined at once. -/
def orderRejected (id : UUID) : Op :=
  .recordFailure ⟨id, "no responders", 1000000000, 60000000000, 0, 1⟩

/-- The events that `ListDeadLetters` lists with its default limit. -/
def Serial.listed (s : Serial) : List UUID := (s.db.listDeadLetters 0).map fun ev => ev.id

/-- An order is quarantined, replayed and quarantined again, and is then listed once. -/
theorem dead_letter_tables_agree_orders : ∃ s : Serial, s.listed = [1] ∧
    (∀ t id letter, s.db.deadLettersByTime.get (toLex (t, id)) = some letter ↔
      s.db.deadLettersById id = some { toDeadLetter := letter, quarantinedAt := t }) ∧
    ((s.db.listDeadLetters 0).map fun ev => ev.id).Nodup := by
  have hplay : (play Serial.step quarantinesOnce (Serial.init 5000000)
      [executedAt 5000000 3 (.append orderCreated 1), executedAt 6000000 4 (orderRejected 1),
        executedAt 7000000 3 (.replay 1), executedAt 9000000 4 (orderRejected 1)]).any
      (fun s => decide (s.listed = [1])) = true := by decide
  obtain ⟨s, hrun, htest⟩ := Run.exists_of_play (fun _ _ h => h) hplay
  have hagree := dead_letter_tables_agree hrun
  exact ⟨s, of_decide_eq_true htest, hagree.1, (hagree.2.1 0).1⟩

/-- A second failure of a quarantined order leaves its first letter behind in the table by
time. The order is listed twice, it is still listed after its replay, and when it is
quarantined once more, a cleanup that expires the stale letter deletes the new one. -/
theorem requarantine_leaves_letter : ∃ s s' s'' t : Serial,
    Run Serial.step anyStep (Serial.init 5000000) s ∧ s.listed = [1, 1] ∧
    s.step (executedAt 10000000 3 (.replay 1)) = some s' ∧ s'.listed = [1] ∧
    s'.db.deadLettersById 1 = none ∧
    s'.step (executedAt 20000000 4 (orderRejected 1)) = some s'' ∧
    (∃ letter, s''.db.deadLettersById 1 = some letter ∧
      ¬ofTimestamp letter.quarantinedAt < 15000000) ∧
    s''.step (executedAt 30000000 3 (.cleanup ⟨0, 15000000, 200⟩)) = some t ∧
    t.db.deadLettersById 1 = none := by
  have hplay : (play Serial.step (fun _ _ => true) (Serial.init 5000000)
      [executedAt 5000000 3 (.append orderCreated 1), executedAt 6000000 4 (orderRejected 1),
        executedAt 9000000 4 (orderRejected 1)]).any (fun s => decide (s.listed = [1, 1]) &&
          (s.step (executedAt 10000000 3 (.replay 1))).any fun s' : Serial =>
            decide (s'.listed = [1]) && ((s'.db.deadLettersById 1).isNone &&
            (s'.step (executedAt 20000000 4 (orderRejected 1))).any fun s'' : Serial =>
              (s''.db.deadLettersById 1).any (fun letter : DeadLetterById =>
                decide (¬ofTimestamp letter.quarantinedAt < 15000000)) &&
              (s''.step (executedAt 30000000 3 (.cleanup ⟨0, 15000000, 200⟩))).any
                fun t : Serial => (t.db.deadLettersById 1).isNone)) = true := by decide
  obtain ⟨s, hrun, htest⟩ := Run.exists_of_play (fun _ _ _ => trivial) hplay
  simp only [Bool.and_eq_true, decide_eq_true_eq, Option.any_eq_true,
    Option.isNone_iff_eq_none] at htest
  obtain ⟨hlisted, s', hreplay, hlisted', hgone, s'', hfailed, hletter, t, hcleanup, hgone'⟩ :=
    htest
  exact ⟨s, s', s'', t, hrun, hlisted, hreplay, hlisted', hgone, hfailed, hletter, hcleanup, hgone'⟩

end ControlPlane

import ControlPlane.Store.DeadLetters
import ControlPlane.Store.Provenance

/-!
# Quarantine flags and dead letters

The relay holds an event back by the flag in its retry state, and an operator replays it
from its dead letter. The standing of an event collects the flag, whether it has a dead
letter and whether it is published; each statement changes the standing in a way that
`Call.restand` computes. Executed one after another without errors, the operations keep
flag and letter together except where they touch only one of the two.
-/

namespace ControlPlane

open Transition

/-- What the tables say about the quarantine of an event. -/
structure Standing where
  quarantined : Bool
  replayable : Bool
  published : Bool
  deriving DecidableEq

/-- The standing of an event. -/
def Store.standing (db : Store) (id : UUID) : Standing where
  quarantined := (db.retryMark id).2
  replayable := (db.deadLettersById id).isSome
  published := db.isPublished id

/-- An event is quarantined exactly when it can be replayed, and then it is not
published. -/
def Standing.sound (st : Standing) : Bool :=
  decide (st.quarantined = st.replayable) && !(st.published && st.replayable)

theorem Standing.sound_iff {st : Standing} : st.sound = true ↔
    st.quarantined = st.replayable ∧ (st.published = true → st.replayable = false) := by
  obtain ⟨quarantined, replayable, published⟩ := st
  cases quarantined <;> cases replayable <;> cases published <;> decide

theorem Store.standing_quarantined {db : Store} {id : UUID} : (db.standing id).quarantined = true ↔
    ∃ row, db.outboxRetryState id = some row ∧ row.quarantined = true := by
  cases hrow : db.outboxRetryState id with
  | none => simp [Store.standing, Store.retryMark, Store.loadRetryState, hrow]
  | some row => simp [Store.standing, Store.retryMark_of_row hrow]

theorem Store.standing_replayable {db : Store} {id : UUID} :
    (db.standing id).replayable = true ↔ db.Replayable id :=
  Option.isSome_iff_exists

/-- The standing of the event after the statement of a call. -/
def Call.restand (id : UUID) (st : Standing) : Call → Standing
  | .appendBatch _ newID =>
      if newID = id then { st with quarantined := false, published := false } else st
  | .markBatch marked _ _ =>
      if marked = id then { st with quarantined := false, published := true } else st
  | .failureUpdate args n _ =>
      if args.eventID = id then { st with quarantined := args.quarantines n } else st
  | .failureBatch args _ _ _ => if args.eventID = id then { st with replayable := true } else st
  | .replayBatch replayed _ _ _ => if replayed = id then ⟨false, false, false⟩ else st
  | .cleanupLettersDelete row _ _ _ =>
      if (ofLex row).2 = id then { st with replayable := false } else st
  | _ => st

section Statements

variable {db db' : Store} {c d : Call} {env : Env} {id : UUID}

theorem Store.standing_eq {st : Standing} (hmark : (db.retryMark id).2 = st.quarantined)
    (hletter : (db.deadLettersById id).isSome = st.replayable)
    (hrow : db.isPublished id = st.published) : db.standing id = st := by
  rw [Store.standing, hmark, hletter, hrow]

theorem Store.standing_congr (hmark : db'.retryMark id = db.retryMark id)
    (hletter : db'.deadLettersById id = db.deadLettersById id)
    (hrow : db'.outboxEvents id = db.outboxEvents id) : db'.standing id = db.standing id := by
  simp only [Store.standing, Store.isPublished, hmark, hletter, hrow]

/-- Every statement changes the standing of an event as computed. -/
theorem Call.exec_standing (c : Call) (env : Env) (db : Store) (id : UUID) :
    (c.exec env db).1.standing id = c.restand id (db.standing id) := by
  have hmark := c.exec_retryMark env db id
  have hm := c.exec_mutation env db
  cases c with
  | appendBatch ev newID =>
    by_cases hid : newID = id
    · subst hid
      rw [Call.retryWrite, if_pos rfl] at hmark
      rw [Call.restand, if_pos rfl]
      exact Store.standing_eq (congrArg Prod.snd hmark) rfl
        (by simp [Call.exec, Store.insertEvent, Store.isPublished, Store.upsertPending])
    · rw [Call.retryWrite, if_neg hid] at hmark
      rw [Call.restand, if_neg hid]
      exact Store.standing_congr hmark rfl (Function.update_of_ne (Ne.symm hid) ..)
  | markBatch marked brokerMessageID occurredAt =>
    by_cases hid : marked = id
    · subst hid
      rw [Call.retryWrite, if_pos rfl] at hmark
      rw [Call.restand, if_pos rfl]
      exact Store.standing_eq (congrArg Prod.snd hmark) rfl
        (by simp [Call.exec, Store.markPublished, Store.isPublished])
    · rw [Call.retryWrite, if_neg hid] at hmark
      rw [Call.restand, if_neg hid]
      exact Store.standing_congr hmark rfl (Function.update_of_ne (Ne.symm hid) ..)
  | failureUpdate args n firstFailed =>
    by_cases hid : args.eventID = id
    · subst hid
      rw [Call.retryWrite, if_pos rfl] at hmark
      rw [Call.restand, if_pos rfl]
      exact Store.standing_eq (congrArg Prod.snd hmark) rfl rfl
    · rw [Call.retryWrite, if_neg hid] at hmark
      rw [Call.restand, if_neg hid]
      exact Store.standing_congr hmark rfl rfl
  | failureBatch args n now content =>
    by_cases hid : args.eventID = id
    · subst hid
      rw [Call.restand, if_pos rfl]
      exact Store.standing_eq (congrArg Prod.snd hmark)
        (by simp [Call.exec, Store.insertDeadLetter]) rfl
    · rw [Call.restand, if_neg hid]
      exact Store.standing_congr hmark (Function.update_of_ne (Ne.symm hid) ..) rfl
  | replayBatch replayed letter now occurredAt =>
    by_cases hid : replayed = id
    · subst hid
      rw [Call.retryWrite, if_pos rfl] at hmark
      rw [Call.restand, if_pos rfl]
      exact Store.standing_eq (congrArg Prod.snd hmark) (by simp [Call.exec, Store.replay])
        (by simp [Call.exec, Store.replay, Store.isPublished, Store.upsertPending])
    · rw [Call.retryWrite, if_neg hid] at hmark
      rw [Call.restand, if_neg hid]
      exact Store.standing_congr hmark (Function.update_of_ne (Ne.symm hid) ..)
        (Function.update_of_ne (Ne.symm hid) ..)
  | cleanupLettersDelete row rest m n =>
    by_cases hid : (ofLex row).2 = id
    · subst hid
      rw [Call.restand, if_pos rfl]
      exact Store.standing_eq (congrArg Prod.snd hmark)
        (by simp [Call.exec, Store.deleteDeadLetter]) rfl
    · rw [Call.restand, if_neg hid]
      exact Store.standing_congr hmark (Function.update_of_ne (Ne.symm hid) ..) rfl
  | _ =>
    generalize (Call.exec env db _).1 = db' at hmark hm ⊢
    cases hm <;> exact Store.standing_congr hmark rfl rfl

end Statements

/-- What a call knows about the standing of the event that it works on. -/
def Call.StandingReady (db : Store) : Call → Prop
  | .appendKey _ id | .appendIndex _ id | .appendBatch _ id | .markRead id _ | .markBatch id _ _ =>
      (db.standing id).replayable = false
  | .failureRead args =>
      if args.quarantines ((db.retryMark args.eventID).1 + 1) then
        (db.standing args.eventID).published = false
      else (db.standing args.eventID).replayable = false
  | .failureUpdate args n _ =>
      if args.quarantines n then (db.standing args.eventID).published = false
      else (db.standing args.eventID).replayable = false
  | .failureLookup args _ _ | .failureBatch args _ _ _ =>
      (db.standing args.eventID).quarantined = true ∧ (db.standing args.eventID).published = false
  | .cleanupKeysSelect args | .cleanupKeysDelete args _ _ _ | .cleanupLettersSelect args _ =>
      db.expiredLetters args = []
  | .cleanupLettersDelete _ _ _ _ => False
  | _ => True

/-- Flags and letters agree, apart from an event whose quarantine is in progress. -/
structure Call.Orderly (db : Store) (c : Call) : Prop where
  sound : ∀ id, c.quarantining id = false → (db.standing id).sound = true
  ready : c.StandingReady db

section Operations

variable {db : Store} {c d : Call} {env : Env} {id : UUID}

/-- A statement that changes no standing leaves every standing sound. -/
theorem Call.Orderly.same (h : c.Orderly db) (hc : ∀ id, c.quarantining id = false)
    (hsame : ∀ id st, c.restand id st = st) (id : UUID) :
    ((c.exec env db).1.standing id).sound = true := by
  rw [Call.exec_standing, hsame]
  exact h.sound id (hc id)

/-- A statement that rewrites the standing of one event leaves every standing sound if it
leaves that one sound. -/
theorem Call.Orderly.rewrite (h : c.Orderly db) (target : UUID)
    (hothers : ∀ id st, id ≠ target → c.restand id st = st)
    (hquarantining : ∀ id, id ≠ target → c.quarantining id = false)
    (htarget : (c.restand target (db.standing target)).sound = true) (id : UUID) :
    ((c.exec env db).1.standing id).sound = true := by
  rw [Call.exec_standing]
  by_cases hid : id = target
  · rw [hid]
    exact htarget
  · rw [hothers id _ hid]
    exact h.sound id (hquarantining id hid)

/-- An operation that returns without an error leaves every standing sound. -/
theorem Call.Orderly.done (h : c.Orderly db) {r : Result} (hdone : (c.exec env db).2 = .done r)
    (hr : r.isError = false) (id : UUID) : ((c.exec env db).1.standing id).sound = true := by
  have hready := h.ready
  cases c with
  | appendBatch ev newID =>
    refine h.rewrite newID ?_ (fun _ _ => rfl) ?_ id
    · exact fun id st hid => if_neg (Ne.symm hid)
    · have hletter : (db.standing newID).replayable = false := hready
      simp [Call.restand, Standing.sound, hletter]
  | markBatch marked brokerMessageID occurredAt =>
    refine h.rewrite marked ?_ (fun _ _ => rfl) ?_ id
    · exact fun id st hid => if_neg (Ne.symm hid)
    · have hletter : (db.standing marked).replayable = false := hready
      simp [Call.restand, Standing.sound, hletter]
  | failureUpdate args n firstFailed =>
    have hquarantines : args.quarantines n = false := by
      simp only [Call.exec] at hdone
      split_ifs at hdone with hq
      simpa using hq
    refine h.rewrite args.eventID ?_ (fun _ _ => rfl) ?_ id
    · exact fun id st hid => if_neg (Ne.symm hid)
    · have hletter : (db.standing args.eventID).replayable = false := by
        simpa [Call.StandingReady, hquarantines] using hready
      simp [Call.restand, Standing.sound, hletter, hquarantines]
  | failureLookup args n now =>
    cases hrow : db.outboxEvents args.eventID with
    | none =>
      simp only [Call.exec, hrow, Next.done.injEq] at hdone
      subst hdone
      cases hr
    | some row => simp [Call.exec, hrow] at hdone
  | failureBatch args n now content =>
    refine h.rewrite args.eventID ?_ ?_ ?_ id
    · exact fun id st hid => if_neg (Ne.symm hid)
    · exact fun id hid => decide_eq_false (Ne.symm hid)
    · simp [Call.restand, Standing.sound, hready.1, hready.2]
  | replayBatch replayed letter now occurredAt =>
    refine h.rewrite replayed ?_ (fun _ _ => rfl) ?_ id
    · exact fun id st hid => if_neg (Ne.symm hid)
    · simp [Call.restand, Standing.sound]
  | cleanupLettersDelete row rest m n => exact hready.elim
  | _ => exact h.same (fun _ => rfl) (fun _ _ => rfl) id

/-- The next statement of an operation finds the standings in order. -/
theorem Call.Orderly.call (h : c.Orderly db) (hnext : (c.exec env db).2 = .call d) :
    d.Orderly (c.exec env db).1 := by
  have hready := h.ready
  have hok : c.next .ok env db = .call d := hnext
  have hstanding := fun id => c.exec_standing env db id
  cases c with
  | failureRead args =>
    obtain ⟨firstFailed, hexec⟩ := Call.exec_failureRead args env db
    rw [hexec] at hnext ⊢
    cases hnext
    exact ⟨fun id _ => h.sound id rfl, hready⟩
  | failureUpdate args n firstFailed =>
    cases Call.exec_leads hnext with
    | failureLookup hq =>
      constructor
      · intro id hid
        rw [hstanding, Call.restand, if_neg (of_decide_eq_false hid)]
        exact h.sound id rfl
      · have hpublished : (db.standing args.eventID).published = false := by
          simpa [Call.StandingReady, hq] using hready
        simp [Call.StandingReady, hstanding, Call.restand, hq, hpublished]
    | cleanup hclean => cases hclean
  | failureLookup args n now =>
    cases Call.exec_leads hnext with
    | failureBatch hrow =>
      simp only [Call.exec, hrow]
      exact ⟨fun id hid => h.sound id hid, hready⟩
    | cleanup hclean => cases hclean
  | cleanupKeysSelect args =>
    cases Call.next_sweeps rfl hok with
    | firstKey => exact ⟨fun id _ => h.sound id rfl, hready⟩
    | noKey => exact ⟨fun id _ => h.sound id rfl, hready⟩
  | cleanupKeysDelete args row rest deleted =>
    cases Call.next_sweeps rfl hok with
    | nextKey => exact ⟨fun id _ => h.sound id rfl, hready⟩
    | lastKey => exact ⟨fun id _ => h.sound id rfl, hready⟩
  | cleanupLettersSelect args deleted =>
    cases Call.next_sweeps rfl hok with
    | firstLetter hrows =>
      have hnone : db.expiredLetters args = [] := hready
      rw [hnone] at hrows
      cases hrows
  | cleanupLettersDelete row rest m n => exact hready.elim
  | appendBatch ev newID => cases hnext
  | markBatch marked brokerMessageID occurredAt => cases hnext
  | failureBatch args n now content => cases hnext
  | replayBatch replayed letter now occurredAt => cases hnext
  | appendKey ev newID =>
    refine ⟨fun id _ => h.same (fun _ => rfl) (fun _ _ => rfl) id, ?_⟩
    cases Call.exec_leads hnext with
    | appendIndex => exact (congrArg Standing.replayable (hstanding newID)).trans hready
    | appendLookup => trivial
    | cleanup hclean => cases hclean
  | appendIndex ev newID =>
    cases hnext
    refine ⟨fun id _ => h.same (fun _ => rfl) (fun _ _ => rfl) id, ?_⟩
    exact (congrArg Standing.replayable (hstanding newID)).trans hready
  | markRead id brokerMessageID =>
    refine ⟨fun id _ => h.same (fun _ => rfl) (fun _ _ => rfl) id, ?_⟩
    cases Call.exec_leads hnext with
    | markBatch => exact (congrArg Standing.replayable (hstanding id)).trans hready
    | cleanup hclean => cases hclean
  | _ =>
    refine ⟨fun id _ => h.same (fun _ => rfl) (fun _ _ => rfl) id, ?_⟩
    cases Call.exec_leads hnext <;> trivial

end Operations

/-- The execution returns without an error. -/
def errorFree (s : Serial) (x : Execution) : Bool :=
  ((x.op.begin x.start).complete x.envs s.db).any fun out => !out.2.isError

/-- The execution touches flag and letter of an event together: it marks no event that has
a dead letter, it records no failure below the threshold for such an event and none at the
threshold for a published event, and it expires no dead letter. -/
def movesTogether (s : Serial) (x : Execution) : Bool :=
  match x.op with
  | .mark id _ => !(s.db.standing id).replayable
  | .recordFailure args =>
      if args.quarantines ((s.db.retryMark args.eventID).1 + 1) then
        !(s.db.standing args.eventID).published
      else !(s.db.standing args.eventID).replayable
  | .cleanup args => (s.db.expiredLetters args).isEmpty
  | _ => true

section Executions

variable {s s' : Serial} {x : Execution}

/-- A new event has no dead letter. -/
theorem Serial.Reachable.no_letter (h : s.Reachable) {id : UUID} (hid : id ∉ s.generated) :
    (s.db.standing id).replayable = false := by
  obtain ⟨t, ht, hsim⟩ := h.simulates
  have htraced := ht.traced
  cases hletter : s.db.deadLettersById id with
  | none => simp [Store.standing, hletter]
  | some letter =>
    obtain ⟨_, ev, hev, -⟩ := htraced.store.letterById id letter (hsim.db ▸ hletter)
    exact absurd (hsim.generated ▸ htraced.drawn ev id hev) hid

theorem Op.begin_standingReady (hreach : s.Reachable) (hdraws : ∀ id ∈ x.op.draws, id ∉ s.generated)
    (hok : movesTogether s x = true) : (x.op.begin x.start).StandingReady s.db := by
  cases hop : x.op with
  | append ev newID =>
    have hletter := hreach.no_letter (hdraws newID (by simp [hop, Op.draws]))
    simp only [Op.begin]
    split_ifs
    · exact hletter
    · exact hletter
  | mark id brokerMessageID =>
    simp only [movesTogether, hop, Bool.not_eq_true'] at hok
    exact hok
  | recordFailure args =>
    simp only [movesTogether, hop] at hok
    simp only [Op.begin, Call.StandingReady]
    split_ifs at hok ⊢
    · simpa using hok
    · simpa using hok
  | cleanup args =>
    simp only [movesTogether, hop, List.isEmpty_iff] at hok
    exact hok
  | _ => trivial

/-- A complete execution without an error keeps every standing sound. -/
theorem Serial.sound_step (hreach : s.Reachable) (h : ∀ id, (s.db.standing id).sound = true)
    (herror : errorFree s x = true) (hok : movesTogether s x = true)
    (hstep : s.step x = some s') (id : UUID) : (s'.db.standing id).sound = true := by
  obtain ⟨hdraws, r, hcomplete⟩ := Serial.step_cases hstep
  have hr : r.isError = false := by simpa [errorFree, hcomplete] using herror
  have hbegin : (x.op.begin x.start).Orderly s.db :=
    ⟨fun id _ => h id, Op.begin_standingReady hreach hdraws hok⟩
  refine Call.complete_invariant (I := fun db c => c.Orderly db)
    (P := fun db r => r.isError = false → ∀ id, (db.standing id).sound = true) ?_ ?_ hbegin
    hcomplete hr id
  · exact fun db c env d hc hnext => hc.call hnext
  · exact fun db c env r hc hdone hr => hc.done hdone hr

end Executions

/-- **Quarantine flag and dead-letter queue agree.** Between complete executions that return
without an error, none of which marks or records below the threshold an event that has a
dead letter, quarantines a published event or expires a dead letter, an event is flagged as
quarantined exactly when it has a dead letter, and no published event has one. -/
theorem quarantine_flag_agrees {clock : Time} {s : Serial}
    (hrun : Run Serial.step (fun s x => errorFree s x = true ∧ movesTogether s x = true)
      (Serial.init clock) s) (id : UUID) :
    ((∃ row, s.db.outboxRetryState id = some row ∧ row.quarantined = true) ↔
      ∃ letter, s.db.deadLettersById id = some letter) ∧
    (s.db.Published id → ¬s.db.Replayable id) := by
  have hboth : s.Reachable ∧ ∀ id, (s.db.standing id).sound = true := by
    refine hrun.invariant (I := fun s => s.Reachable ∧ ∀ id, (s.db.standing id).sound = true)
      ⟨⟨clock, .refl _⟩, fun id => rfl⟩ ?_
    rintro a x b ⟨hreach, hsound⟩ ⟨herror, hok⟩ hab
    exact ⟨hreach.next hab, Serial.sound_step hreach hsound herror hok hab⟩
  obtain ⟨hflag, hpublished⟩ := Standing.sound_iff.mp (hboth.2 id)
  constructor
  · rw [← Store.standing_quarantined, hflag]
    exact Store.standing_replayable
  · intro hpub hreplayable
    have hfalse := hpublished (Store.isPublished_iff.mpr hpub)
    rw [Store.standing_replayable.mpr hreplayable] at hfalse
    cases hfalse

/-- An order is published, another one is quarantined, replayed and quarantined again. -/
theorem quarantine_flag_agrees_orders : ∃ s : Serial, s.db.Published 1 ∧ s.db.Replayable 2 ∧
    ¬s.db.Replayable 1 ∧ ∃ row, s.db.outboxRetryState 2 = some row ∧ row.quarantined = true := by
  have hcheck : ∀ (s : Serial) (x : Execution), (errorFree s x && movesTogether s x) = true →
      errorFree s x = true ∧ movesTogether s x = true := fun s x h => by simpa using h
  have hplay : (play Serial.step (fun s x => errorFree s x && movesTogether s x)
      (Serial.init 5000000) [executedAt 5000000 3 (.append orderCreated 1),
        executedAt 5000000 2 (.mark 1 "SHIRO_EVENTS:1"),
        executedAt 5000000 1 (.append { orderCreated with idempotencyKey := "" } 2),
        executedAt 6000000 4 (orderRejected 2), executedAt 7000000 3 (.replay 2),
        executedAt 8000000 4 (orderRejected 2)]).any (fun s =>
          s.db.isPublished 1 && (s.db.standing 2).replayable) = true := by decide
  obtain ⟨s, hrun, htest⟩ := Run.exists_of_play hcheck hplay
  simp only [Bool.and_eq_true, Store.isPublished_iff, Store.standing_replayable] at htest
  exact ⟨s, htest.1, htest.2, (quarantine_flag_agrees hrun 1).2 htest.1,
    (quarantine_flag_agrees hrun 2).1.mpr htest.2⟩

/-- The lifetime of dead letters that `FromEnv` reads from an empty environment. -/
def letterTTL : Duration := 2592000000000000

/-- The bus rejects the order of a publish request, which appends the order and quarantines
it. After the lifetime of its dead letter a cleanup deletes the letter. No execution
returns an error, but the relay goes on holding the order back and nobody can replay it. -/
theorem expired_letter_strands_event : ∃ s : Serial,
    Run Serial.step (fun s x => errorFree s x = true) (Serial.init 5000000) s ∧
    (∃ row, s.db.outboxRetryState 1 = some row ∧ row.quarantined = true) ∧
    s.db.deadLettersById 1 = none ∧ ¬s.db.Published 1 := by
  have hplay : (play Serial.step errorFree (Serial.init 5000000)
      [executedAt 5000000 3 (.append orderCreated 1), executedAt 6000000 4 (orderRejected 1),
        executedAt (7000000 + letterTTL) 3 (.cleanup ⟨0, 7000000, 200⟩)]).any
      (fun s => decide (s.db.standing 1 = ⟨true, false, false⟩)) = true := by decide
  obtain ⟨s, hrun, htest⟩ := Run.exists_of_play (fun _ _ h => h) hplay
  have hstanding : s.db.standing 1 = ⟨true, false, false⟩ := of_decide_eq_true htest
  refine ⟨s, hrun, Store.standing_quarantined.mp (by rw [hstanding]), ?_, ?_⟩
  · have hletter : (s.db.deadLettersById 1).isSome = false :=
      congrArg Standing.replayable hstanding
    simpa using hletter
  · intro hpublished
    have htrue := Store.isPublished_iff.mpr hpublished
    have hfalse : s.db.isPublished 1 = false := congrArg Standing.published hstanding
    rw [htrue] at hfalse
    cases hfalse

end ControlPlane

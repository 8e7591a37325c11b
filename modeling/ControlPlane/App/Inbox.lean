import ControlPlane.App.Publication

/-!
# Claims of messages

Before a message with an identifier is written to a stream consumer, the process that
handles it claims it for the consumer's name by a conditional insert. The claim is
exclusive, and whoever obtained it writes one frame and ends, so a consumer's name
receives a message at most once.
-/

namespace ControlPlane

open Transition

/-- A process that handles a message starts with the claim of that message, and no other
process turns into one. -/
def Action.Consuming : Action → Prop
  | .call op pc => ∀ consumer messageID, pc = .consuming consumer messageID →
      op = .claimInbox consumer messageID
  | .goto pc => ∀ consumer messageID, pc ≠ .consuming consumer messageID
  | .finish _ => True

section Actions

variable {cfg : Config}

theorem Pc.resume_consuming {pc : Pc} {r : Result} {action : Action}
    (h : pc.resume cfg r = some action) : action.Consuming := by
  cases Pc.resume_cases h with
  | relay =>
    rename_i events
    cases events with
    | nil => trivial
    | cons evt rest => exact fun consumer messageID hpc => by cases hpc
  | first => exact fun consumer messageID hpc => by cases hpc
  | _ => trivial

theorem Job.attemptFailed_consuming (job : Job) (now : Time) (attempt : Attempt) (err : String) :
    (job.attemptFailed cfg now attempt err).Consuming := by
  rcases job.attemptFailed_cases cfg now attempt err with heq | ⟨next, wake, heq⟩ <;> rw [heq]
  · exact fun consumer messageID hpc => by cases hpc
  · exact fun consumer messageID hpc => by cases hpc

theorem Task.action_consuming (task : Task) (now : Time) : (task.action cfg now).Consuming := by
  cases task with
  | consume consumer messageID =>
    simp only [Task.action]
    split_ifs
    · trivial
    · rintro consumer' messageID' hpc
      cases hpc
      rfl
  | _ => exact fun consumer messageID hpc => by cases hpc

theorem App.Cause.consuming {cfg : ℕ → Config} {a : App} {p node : ℕ} {action : Action}
    {o : Option Occurrence} (h : App.Cause cfg a p node action o) : action.Consuming := by
  cases h with
  | spawned hproc => exact Task.action_consuming _ _
  | resumed hproc hslot hresume => exact Pc.resume_consuming hresume
  | unsent hproc => exact Job.attemptFailed_consuming _ _ _ _
  | rejected hproc => exact Job.attemptFailed_consuming _ _ _ _
  | refused hcause hguarded hresume => exact Pc.resume_consuming hresume
  | _ => exact fun consumer messageID hpc => by cases hpc

end Actions

/-- The process has claimed the message for the consumer and has yet to write it. -/
def App.Holds (a : App) (consumer messageID : String) (p : ℕ) : Prop :=
  (∃ node, a.procs.get p = some ⟨node, .consuming consumer messageID⟩) ∧
    a.store.slots.get p = some (.returned (.claimedInbox true))

/-- The number of frames with this message that were written for this consumer. -/
def App.frames (a : App) (consumer messageID : String) : ℕ :=
  a.history.count (.delivered consumer messageID)

/-- One process at most holds the message, and only as long as no frame with it was
written; once a process holds it or a frame was written, the message is recorded as
consumed. -/
structure App.Exclusive (consumer messageID : String) (a : App) : Prop where
  claiming : ∀ p node c, a.procs.get p = some ⟨node, .consuming consumer messageID⟩ →
    a.store.callOf p = some c → c = .inboxInsert consumer messageID
  holder : ∀ p q, a.Holds consumer messageID p → a.Holds consumer messageID q → p = q
  unwritten : ∀ p, a.Holds consumer messageID p → a.frames consumer messageID = 0
  once : a.frames consumer messageID ≤ 1
  recorded : (∃ p, a.Holds consumer messageID p) ∨ 0 < a.frames consumer messageID →
    ∃ t, a.store.db.inboxConsumed (consumer, messageID) = some t

section Steps

variable {cfg : ℕ → Config} {a b : App} {p node : ℕ} {action : Action}
  {consumer messageID : String}

/-- Messages stay recorded as consumed. -/
theorem Call.Mutation.inboxConsumed {env : Env} {db db' : Store} {c : Call}
    (hm : Call.Mutation env db c db') (h : ∃ t, db.inboxConsumed (consumer, messageID) = some t) :
    ∃ t, db'.inboxConsumed (consumer, messageID) = some t := by
  cases hm with
  | insertInbox _ => exact exists_update_some _ h
  | _ => exact h

theorem scanPending_ne_claimed {limit : ℕ} {rows : List PendingRow} {out : List EventRecord} :
    scanPending limit rows out ≠ .done (.claimedInbox true) := by
  cases rows <;> simp [scanPending]

theorem cleanupKeys_ne_claimed {args : CleanupArgs} {rows : List CreatedKey} {n : ℕ} :
    cleanupKeys args rows n ≠ .done (.claimedInbox true) := by
  cases rows <;> simp [cleanupKeys]

theorem cleanupLetters_ne_claimed {rows : List EventKey} {m n : ℕ} :
    cleanupLetters rows m n ≠ .done (.claimedInbox true) := by
  cases rows <;> simp [cleanupLetters]

/-- Whoever obtained a claim had issued it, found the message not yet recorded, and left
it recorded. -/
theorem Call.next_claimed {c : Call} {report : Report} {env : Env} {db : Store}
    (h : c.next report env db = .done (.claimedInbox true)) :
    ∃ consumer messageID, c = .inboxInsert consumer messageID ∧
      db.inboxConsumed (consumer, messageID) = none ∧
      ∃ t, (c.effect report env db).inboxConsumed (consumer, messageID) = some t := by
  unfold Call.next at h
  split_ifs at h with hok
  · cases c with
    | inboxInsert consumer messageID =>
      cases hrow : db.inboxConsumed (consumer, messageID) with
      | none =>
        refine ⟨consumer, messageID, rfl, hrow, toTimestamp env.now, ?_⟩
        simp [Call.effect, Call.exec, Store.insertInbox, hok, hrow]
      | some row =>
        cases hscan : env.scan <;> simp [Call.exec, hrow, hscan] at h
    | pendingSelect limit => exact absurd h scanPending_ne_claimed
    | pendingJudge limit row view rest out =>
      simp only [Call.exec] at h
      split_ifs at h
      · exact absurd h scanPending_ne_claimed
      · cases h
      · exact absurd h scanPending_ne_claimed
    | cleanupKeysSelect args => exact absurd h cleanupKeys_ne_claimed
    | cleanupKeysDelete args row rest n => exact absurd h cleanupKeys_ne_claimed
    | cleanupLettersSelect args n => exact absurd h cleanupLetters_ne_claimed
    | cleanupLettersDelete row rest m n => exact absurd h cleanupLetters_ne_claimed
    | _ =>
      simp only [Call.exec] at h
      (repeat' split at h) <;> cases h
  · cases c with
    | pendingLoad limit row rest out => exact absurd h scanPending_ne_claimed
    | cleanupKeysDelete args row rest n => exact absurd h cleanupKeys_ne_claimed
    | cleanupLettersDelete row rest m n => exact absurd h cleanupLetters_ne_claimed
    | _ => cases h

/-- No process causes an occurrence of a delivery other than by its end. -/
theorem App.Cause.occurrence_ne {o : Option Occurrence} (h : App.Cause cfg a p node action o) :
    o ≠ some (.delivered consumer messageID) := by
  induction h with
  | refused _ _ _ ih => exact ih
  | _ => simp

theorem App.frames_append_of_ne {o : Option Occurrence}
    (ho : o ≠ some (.delivered consumer messageID)) (history : List Occurrence) :
    (o.toList ++ history).count (.delivered consumer messageID) =
      history.count (.delivered consumer messageID) := by
  cases o with
  | none => rfl
  | some x =>
    have hx : x ≠ .delivered consumer messageID := fun heq => ho (congrArg some heq)
    simp [hx]

/-- A step after which no other process holds the message and no further frame was
written keeps it exclusive. -/
theorem App.Exclusive.of_holds (h : a.Exclusive consumer messageID)
    (hclaiming : ∀ p node c, b.procs.get p = some ⟨node, .consuming consumer messageID⟩ →
      b.store.callOf p = some c → c = .inboxInsert consumer messageID)
    (hholds : ∀ p, b.Holds consumer messageID p → a.Holds consumer messageID p)
    (hframes : b.frames consumer messageID = a.frames consumer messageID)
    (hrow : (∃ t, a.store.db.inboxConsumed (consumer, messageID) = some t) →
      ∃ t, b.store.db.inboxConsumed (consumer, messageID) = some t) :
    b.Exclusive consumer messageID := by
  refine ⟨hclaiming, ?_, ?_, ?_, ?_⟩
  · exact fun p q hp hq => h.holder p q (hholds p hp) (hholds q hq)
  · exact fun p hp => hframes.trans (h.unwritten p (hholds p hp))
  · exact hframes.le.trans h.once
  · intro hany
    refine hrow (h.recorded ?_)
    rw [hframes] at hany
    exact hany.imp_left fun ⟨p, hp⟩ => ⟨p, hholds p hp⟩

/-- A process that ends without writing the message keeps it exclusive. -/
theorem App.Exclusive.ended (h : a.Exclusive consumer messageID) (p : ℕ) {nodes : ℕ → Node}
    {history : List Occurrence}
    (hframes : history.count (.delivered consumer messageID) = a.frames consumer messageID) :
    App.Exclusive consumer messageID { a with nodes, procs := a.procs.erase p, history } := by
  refine h.of_holds ?_ ?_ hframes (fun hrow => hrow)
  · exact fun q node c hq => h.claiming q node c (Clustered.get_erase_cases hq).2
  · rintro q ⟨⟨n, hproc⟩, hslot⟩
    exact ⟨⟨n, (Clustered.get_erase_cases hproc).2⟩, hslot⟩

/-- A process that had claimed the message ends by writing it: no other process holds it, and
no frame was written before. -/
theorem App.Exclusive.delivered (h : a.Exclusive consumer messageID)
    (hheld : a.Holds consumer messageID p) {nodes : ℕ → Node} {history : List Occurrence}
    (hframes : history.count (.delivered consumer messageID) =
      a.frames consumer messageID + 1) :
    App.Exclusive consumer messageID { a with nodes, procs := a.procs.erase p, history } := by
  have hnobody : ∀ q, ¬App.Holds { a with nodes, procs := a.procs.erase p, history }
      consumer messageID q := by
    rintro q ⟨⟨n, hproc⟩, hslot⟩
    obtain ⟨hne, hproc'⟩ := Clustered.get_erase_cases hproc
    exact hne (h.holder q p ⟨⟨n, hproc'⟩, hslot⟩ hheld)
  rw [h.unwritten p hheld] at hframes
  refine ⟨?_, ?_, ?_, hframes.le, ?_⟩
  · exact fun q node c hq => h.claiming q node c (Clustered.get_erase_cases hq).2
  · exact fun q q' hq => absurd hq (hnobody q)
  · exact fun q hq => absurd hq (hnobody q)
  · exact fun _ => h.recorded (Or.inl ⟨p, hheld⟩)

/-- A process that goes on locally goes on to no claim. -/
theorem App.Exclusive.moved (h : a.Exclusive consumer messageID) {pc : Pc}
    (hpc : pc ≠ .consuming consumer messageID) {nodes : ℕ → Node} {history : List Occurrence}
    (hframes : history.count (.delivered consumer messageID) = a.frames consumer messageID) :
    App.Exclusive consumer messageID
      { a with nodes, procs := a.procs.put p ⟨node, pc⟩, history } := by
  have hold : ∀ q n, (a.procs.put p ⟨node, pc⟩).get q =
      some ⟨n, .consuming consumer messageID⟩ →
      a.procs.get q = some ⟨n, .consuming consumer messageID⟩ := by
    intro q n hq
    rcases Clustered.get_put_cases hq with ⟨-, heq⟩ | ⟨-, hq⟩
    · exact absurd (congrArg Process.pc heq).symm hpc
    · exact hq
  refine h.of_holds ?_ ?_ hframes (fun hrow => hrow)
  · exact fun q n c hq => h.claiming q n c (hold q n hq)
  · rintro q ⟨⟨n, hproc⟩, hslot⟩
    exact ⟨⟨n, hold q n hproc⟩, hslot⟩

/-- A process that starts a store operation holds no message, and waits for a claim only of
the message that it is to write. -/
theorem App.Exclusive.launched (h : a.Exclusive consumer messageID) {op : Op} {pc : Pc}
    (hop : pc = .consuming consumer messageID → op = .claimInbox consumer messageID)
    {nodes : ℕ → Node} {history : List Occurrence}
    (hframes : history.count (.delivered consumer messageID) = a.frames consumer messageID) :
    App.Exclusive consumer messageID { a with
      nodes, store := a.store.launch p op, procs := a.procs.put p ⟨node, pc⟩, history } := by
  refine h.of_holds ?_ ?_ hframes (fun hrow => hrow)
  · intro q n c hq hc
    rcases Clustered.get_put_cases hq with ⟨hqp, hpc⟩ | ⟨hqp, hq⟩
    · cases hpc
      rcases System.callOf_launch_cases hc with ⟨-, rfl⟩ | ⟨hne, -⟩
      · rw [hop rfl]
        rfl
      · exact absurd hqp hne
    · rcases System.callOf_launch_cases hc with ⟨heq, -⟩ | ⟨-, hc⟩
      · exact absurd heq hqp
      · exact h.claiming q n c hq hc
  · rintro q ⟨⟨n, hproc⟩, hslot⟩
    obtain ⟨hne, hslot'⟩ := System.returned_of_launch hslot
    rcases Clustered.get_put_cases hproc with ⟨heq, -⟩ | ⟨-, hproc⟩
    · exact absurd heq hne
    · exact ⟨⟨n, hproc⟩, hslot'⟩

/-- What a process does next keeps the message exclusive. -/
theorem App.Exclusive.act {nodes : ℕ → Node} {o : Option Occurrence}
    (h : a.Exclusive consumer messageID) (hid : messageID ≠ "")
    (hcause : App.Cause cfg a p node action o)
    (hacts : App.Acts { a with nodes, history := o.toList ++ a.history } p node action b) :
    b.Exclusive consumer messageID := by
  have ho := App.frames_append_of_ne
    (hcause.occurrence_ne : o ≠ some (.delivered consumer messageID)) a.history
  have haction := hcause.consuming
  cases hacts with
  | finish =>
    rename_i out
    by_cases hout : out = some (.delivered consumer messageID)
    · have hheld : a.Holds consumer messageID p := by
        rcases hcause.occurs.2 _ (congrArg Action.finish hout) with hempty | ⟨hproc, hslot⟩
        · exact absurd hempty hid
        · exact ⟨⟨node, hproc⟩, hslot⟩
      refine h.delivered hheld ?_
      rw [hout, Option.toList_some, List.singleton_append, List.count_cons_self]
      exact congrArg (· + 1) ho
    · exact h.ended p ((App.frames_append_of_ne hout _).trans ho)
  | goto => exact h.moved (haction consumer messageID) ho
  | call hidle hfresh => exact h.launched (haction consumer messageID) ho

/-- A claim is obtained only while the message is not recorded, so nobody held the message
and no frame with it was written. -/
theorem App.Exclusive.vacant (h : a.Exclusive consumer messageID)
    (hnone : a.store.db.inboxConsumed (consumer, messageID) = none) :
    (∀ q, ¬a.Holds consumer messageID q) ∧ a.frames consumer messageID = 0 := by
  have hvacant : ¬((∃ q, a.Holds consumer messageID q) ∨ 0 < a.frames consumer messageID) := by
    intro hheld
    obtain ⟨t, ht⟩ := h.recorded hheld
    rw [hnone] at ht
    cases ht
  constructor
  · exact fun q hq => hvacant (Or.inl ⟨q, hq⟩)
  · exact Nat.eq_zero_of_not_pos fun hpos => hvacant (Or.inr hpos)

/-- Executing a statement keeps the message exclusive. -/
theorem App.Exclusive.perform (h : a.Exclusive consumer messageID) {c : Call} {since : Time}
    {report : Report} {env : Env} (hslot : a.store.slots.get p = some (.running c since)) :
    App.Exclusive consumer messageID { a with store := a.store.perform p c report env } := by
  have hcall := System.callOf_of_running hslot
  have hclaiming : ∀ q node d, a.procs.get q = some ⟨node, .consuming consumer messageID⟩ →
      (a.store.perform p c report env).callOf q = some d →
      d = .inboxInsert consumer messageID := by
    intro q node d hq hd
    rcases System.callOf_perform_cases hd with ⟨hqp, hnext⟩ | ⟨-, hd⟩
    · have hc := h.claiming p node c (hqp ▸ hq) hcall
      subst hc
      cases Call.next_leads hnext with
      | cleanup hclean => cases hclean
    · exact h.claiming q node d hq hd
  have hrow : (∃ t, a.store.db.inboxConsumed (consumer, messageID) = some t) →
      ∃ t, (c.effect report env a.store.db).inboxConsumed (consumer, messageID) = some t :=
    fun hsome => Call.effect_keeps
      (P := fun db => ∃ t, db.inboxConsumed (consumer, messageID) = some t) hsome
      fun _ _ hm => hm.inboxConsumed hsome
  by_cases hnew : (∃ node, a.procs.get p = some ⟨node, .consuming consumer messageID⟩) ∧
      c.next report env a.store.db = .done (.claimedInbox true)
  · obtain ⟨⟨node, hproc⟩, hnext⟩ := hnew
    have hc := h.claiming p node c hproc hcall
    subst hc
    obtain ⟨_, _, heq, hnone, hsome⟩ := Call.next_claimed hnext
    cases heq
    obtain ⟨hnobody, hframes⟩ := h.vacant hnone
    have honly : ∀ q, App.Holds { a with
        store := a.store.perform p (.inboxInsert consumer messageID) report env }
        consumer messageID q → q = p := by
      rintro q ⟨hq, hreturned⟩
      rcases System.returned_perform_cases hreturned with ⟨hqp, -⟩ | ⟨-, hold⟩
      · exact hqp
      · exact absurd ⟨hq, hold⟩ (hnobody q)
    refine ⟨hclaiming, ?_, fun _ _ => hframes, hframes.le.trans (Nat.zero_le 1), fun _ => hsome⟩
    exact fun q q' hq hq' => (honly q hq).trans (honly q' hq').symm
  · refine h.of_holds hclaiming ?_ rfl hrow
    rintro q ⟨hproc, hreturned⟩
    rcases System.returned_perform_cases hreturned with ⟨rfl, hnext⟩ | ⟨-, hold⟩
    · exact absurd ⟨hproc, hnext⟩ hnew
    · exact ⟨hproc, hold⟩

theorem App.Exclusive.step {l : AppLabel} (h : a.Exclusive consumer messageID)
    (hid : messageID ≠ "") (hstep : a.Steps cfg l b) : b.Exclusive consumer messageID := by
  cases hstep with
  | tick hclock => exact ⟨h.claiming, h.holder, h.unwritten, h.once, h.recorded⟩
  | exec hslot hsince hnow => exact h.perform hslot
  | act hcause hacts => exact h.act hid hcause hacts
  | crash hstore =>
    rename_i p store
    rcases hstore with rfl | hcrash
    · exact h.ended p rfl
    · cases System.step_cases hcrash with
      | crash hrunning =>
        refine h.of_holds ?_ ?_ rfl (fun hrow => hrow)
        · exact fun q node c hq hc => h.claiming q node c (Clustered.get_erase_cases hq).2
            (System.callOf_of_crash hc).2
        · rintro q ⟨⟨node, hproc⟩, hslot⟩
          exact ⟨⟨node, (Clustered.get_erase_cases hproc).2⟩, (Clustered.get_erase_cases hslot).2⟩

/-- In every reachable state a message with an identifier was written at most once for
each consumer. -/
theorem App.Reachable.exclusive {ok : App → AppLabel → Prop} (h : a.Reachable cfg ok)
    (hid : messageID ≠ "") : a.Exclusive consumer messageID := by
  refine h.invariant ?_ ?_
  · intro clock
    have hnobody : ∀ p, ¬(App.init cfg clock).Holds consumer messageID p := by
      rintro p ⟨⟨node, hproc⟩, -⟩
      cases hproc
    refine ⟨?_, ?_, ?_, Nat.zero_le 1, ?_⟩
    · exact fun p node c hproc => by cases hproc
    · exact fun p q hp => absurd hp (hnobody p)
    · exact fun p hp => absurd hp (hnobody p)
    · rintro (⟨p, hp⟩ | hframes)
      · exact absurd hp (hnobody p)
      · exact absurd hframes (lt_irrefl 0)
  · exact fun a l b _ ha _ hstep => ha.step hid hstep

end Steps

end ControlPlane

import ControlPlane.App.Publication
import ControlPlane.Store.Outbox
import ControlPlane.Store.Retry

/-!
# The store breaker over a healthy database

A node reports every result of five store operations to its store breaker, and the
breaker counts errors. On a database that executes every statement, these operations
return an error only when a conditional insert is not applied: `ScanCAS` cannot scan the
row that it then receives. As long as every conditional insert finds its row absent, the
breaker stays as `New` created it.
-/

namespace ControlPlane

open Transition

/-- The database executes the statement of the step, and the driver scans the row of a
conditional insert as documented. -/
def healthyStore (a : App) : AppLabel → Bool
  | .exec p report env => decide (report = .ok) && documentedScan a.store (.exec p report env)
  | _ => true

/-- The row that a conditional insert would create is absent. -/
def Call.applies (db : Store) : Call → Bool
  | .appendKey ev _ => (db.idempotencyKeys (ev.stream, ev.idempotencyKey)).isNone
  | .inboxInsert consumer messageID => (db.inboxConsumed (consumer, messageID)).isNone
  | _ => true

/-- The step does not execute a conditional insert that is not applied. -/
def insertsAbsent (a : App) : AppLabel → Bool
  | .exec p _ _ => (a.store.callOf p).all fun c => c.applies a.store.db
  | _ => true

/-- The statements of the guarded operations, apart from those that follow a conditional
insert that was not applied. -/
def Call.shielded : Call → Bool
  | .appendKey _ _ | .appendIndex _ _ | .appendBatch _ _ | .markRead _ _ | .markBatch _ _ _
  | .pendingSelect _ | .pendingLoad _ _ _ _ | .pendingJudge _ _ _ _ _ | .inboxInsert _ _
  | .recentSelect _ _ => true
  | _ => false

/-- The operation goes on with such a statement or returns without an error. -/
def Next.shielded : Next → Bool
  | .call c => c.shielded
  | .done r => !r.isError

/-- The same for what a client is doing. -/
def Slot.shielded : Slot → Bool
  | .running c _ => c.shielded
  | .returned r => !r.isError

theorem Next.shielded_slot (next : Next) (now : Time) :
    (next.slot now).shielded = next.shielded := by
  cases next <;> rfl

theorem scanPending_shielded (limit : ℕ) (rows : List PendingRow) (out : List EventRecord) :
    (scanPending limit rows out).shielded = true := by
  cases rows <;> rfl

/-- An executed statement of a guarded operation leads to no error, if its conditional
insert applies and the event that it marks is in the outbox. -/
theorem Call.shielded_next {c : Call} {env : Env} {db : Store} (hc : c.shielded = true)
    (happlies : c.applies db = true)
    (hmark : ∀ id brokerMessageID, c = .markRead id brokerMessageID →
      ∃ row, db.outboxEvents id = some row) : (c.next .ok env db).shielded = true := by
  simp only [Call.next, if_true]
  cases c with
  | appendKey ev newID =>
    have hnone := Option.isNone_iff_eq_none.mp happlies
    simp [Call.exec, hnone, Next.shielded, Call.shielded]
  | inboxInsert consumer messageID =>
    have hnone := Option.isNone_iff_eq_none.mp happlies
    simp [Call.exec, hnone, Next.shielded, Result.isError]
  | markRead id brokerMessageID =>
    obtain ⟨row, hrow⟩ := hmark id brokerMessageID rfl
    simp [Call.exec, hrow, Next.shielded, Call.shielded]
  | pendingSelect limit => exact scanPending_shielded _ _ _
  | pendingJudge limit row view rest out =>
    simp only [Call.exec]
    split_ifs
    · exact scanPending_shielded _ _ _
    · rfl
    · exact scanPending_shielded _ _ _
  | appendIndex ev newID => rfl
  | appendBatch ev newID => rfl
  | markBatch id brokerMessageID occurredAt => rfl
  | pendingLoad limit row rest out => rfl
  | recentSelect stream limit => rfl
  | _ => cases hc

/-- An action starts a guarded operation only with one of the guarded statements. -/
def Action.Shielded (now : Time) : Action → Prop
  | .call op pc => pc.guarded = true → (op.begin now).shielded = true
  | .goto pc => pc.guarded = false
  | .finish _ => True

/-- Guarded operations meet no error, and the store breakers are as `New` created them. -/
structure App.Healthy (cfg : ℕ → Config) (a : App) : Prop where
  slots : ∀ p proc slot, a.procs.get p = some proc → proc.pc.guarded = true →
    a.store.slots.get p = some slot → slot.shielded = true
  breakers : ∀ node, (a.nodes node).storeBreaker = (cfg node).breaker

section Actions

variable {cfg : Config} {now : Time}

/-- A new breaker allows every call. -/
@[simp] theorem Config.breaker_allow : cfg.breaker.allow now = (true, cfg.breaker) := rfl

/-- A success leaves a new breaker as it is. -/
@[simp] theorem Config.breaker_success : cfg.breaker.success = cfg.breaker := rfl

theorem Pc.resume_shielded {pc : Pc} {r : Result} {action : Action}
    (h : pc.resume cfg r = some action) : action.Shielded now := by
  cases Pc.resume_cases h with
  | relay =>
    rename_i events
    cases events with
    | nil => trivial
    | cons evt rest => exact fun hguarded => by cases hguarded
  | first => rfl
  | _ => trivial

theorem Job.recordFailure_shielded (job : Job) (err : String) :
    (job.recordFailure cfg err).Shielded now := fun hguarded => by cases hguarded

theorem Job.attemptFailed_shielded (job : Job) (t : Time) (attempt : Attempt) (err : String) :
    (job.attemptFailed cfg t attempt err).Shielded now := by
  rcases job.attemptFailed_cases cfg t attempt err with heq | ⟨next, wake, heq⟩ <;> rw [heq]
  · exact job.recordFailure_shielded err
  · rfl

theorem Task.action_shielded (task : Task) (t : Time) : (task.action cfg t).Shielded now := by
  cases task with
  | publish req header newID =>
    intro _
    simp only [Op.begin]
    split_ifs <;> rfl
  | consume consumer messageID =>
    simp only [Task.action]
    split_ifs
    · trivial
    · exact fun _ => rfl
  | relay => exact fun _ => rfl
  | recent stream limit => exact fun _ => rfl
  | _ => exact fun hguarded => by cases hguarded

end Actions

section Steps

variable {cfg : ℕ → Config} {a b : App} {p node : ℕ} {action : Action}

theorem App.Healthy.setStoreBreaker (h : a.Healthy cfg) {breaker : Breaker}
    (hbreaker : breaker = (cfg node).breaker) : (a.setStoreBreaker node breaker).Healthy cfg := by
  refine ⟨h.slots, ?_⟩
  intro n
  by_cases hn : n = node
  · subst hn
    simpa [App.setStoreBreaker] using hbreaker
  · simpa [App.setStoreBreaker, hn] using h.breakers n

theorem App.Healthy.setBusBreaker (h : a.Healthy cfg) (breaker : Breaker) :
    (a.setBusBreaker node breaker).Healthy cfg := by
  refine ⟨h.slots, ?_⟩
  intro n
  by_cases hn : n = node
  · subst hn
    simpa [App.setBusBreaker] using h.breakers n
  · simpa [App.setBusBreaker, hn] using h.breakers n

theorem App.Healthy.log (h : a.Healthy cfg) (o : Occurrence) : (a.log o).Healthy cfg :=
  ⟨h.slots, h.breakers⟩

theorem App.Healthy.acts (h : a.Healthy cfg) (haction : action.Shielded a.store.clock)
    (hacts : a.Acts p node action b) : b.Healthy cfg := by
  cases hacts with
  | finish =>
    refine ⟨?_, h.breakers⟩
    exact fun q proc slot hproc => h.slots q proc slot (Clustered.get_erase_cases hproc).2
  | goto =>
    refine ⟨?_, h.breakers⟩
    intro q proc slot hproc hguarded hslot
    rcases Clustered.get_put_cases hproc with ⟨-, rfl⟩ | ⟨-, hproc⟩
    · rw [haction] at hguarded
      cases hguarded
    · exact h.slots q proc slot hproc hguarded hslot
  | call hidle hfresh =>
    refine ⟨?_, h.breakers⟩
    intro q proc slot hproc hguarded hslot
    rcases Clustered.get_put_cases hproc with ⟨hq, rfl⟩ | ⟨hq, hproc⟩
    · rcases Clustered.get_put_cases hslot with ⟨-, rfl⟩ | ⟨hne, -⟩
      · exact haction hguarded
      · exact absurd hq hne
    · rcases Clustered.get_put_cases hslot with ⟨heq, -⟩ | ⟨-, hslot⟩
      · exact absurd heq hq
      · exact h.slots q proc slot hproc hguarded hslot

/-- The breaker refuses nothing, so every action is performed as it stands. -/
theorem App.Healthy.proceeds (h : a.Healthy cfg) (haction : action.Shielded a.store.clock)
    (hproceeds : a.Proceeds cfg p node action b) : b.Healthy cfg := by
  cases hproceeds with
  | unguarded _ hacts => exact h.acts haction hacts
  | allowed _ _ hacts =>
    refine App.Healthy.acts (h.setStoreBreaker ?_) haction hacts
    rw [h.breakers node, Config.breaker_allow]
  | refused _ hrefused =>
    rw [h.breakers node, Config.breaker_allow] at hrefused
    cases hrefused

/-- A result without an error leaves the breaker as it is. -/
theorem App.Healthy.recordStore (h : a.Healthy cfg) {r : Result} (hr : r.isError = false) :
    (a.recordStore node r).Healthy cfg := by
  refine h.setStoreBreaker ?_
  rw [hr, h.breakers node]
  exact Config.breaker_success

theorem App.Healthy.perform (h : a.Healthy cfg) (hsound : a.Sound) (htraced : a.store.Traced)
    {c : Call} {since : Time} {env : Env}
    (hslot : a.store.slots.get p = some (.running c since))
    (happlies : c.applies a.store.db = true) :
    App.Healthy cfg { a with store := a.store.perform p c .ok env } := by
  refine ⟨?_, h.breakers⟩
  intro q proc slot hproc hguarded hslot'
  rcases Clustered.get_put_cases hslot' with ⟨hq, rfl⟩ | ⟨-, hold⟩
  · subst hq
    rw [Next.shielded_slot]
    refine Call.shielded_next (h.slots q proc _ hproc hguarded hslot) happlies ?_
    rintro id brokerMessageID rfl
    obtain ⟨⟨ev, hev⟩, -⟩ := hsound.calls q _ (System.callOf_of_running hslot)
    exact (htraced.store.present ev id hev).2
  · exact h.slots q proc slot hproc hguarded hold

theorem App.Healthy.step {l : AppLabel} (h : a.Healthy cfg) (hsound : a.Sound)
    (htraced : a.store.Traced) (hhealthy : healthyStore a l = true)
    (habsent : insertsAbsent a l = true) (hmove : a.Moves cfg l b) : b.Healthy cfg := by
  cases hmove with
  | tick hclock => exact ⟨h.slots, h.breakers⟩
  | exec hslot hsince hnow =>
    rename_i p report env c since
    simp only [healthyStore, Bool.and_eq_true, decide_eq_true_eq] at hhealthy
    obtain ⟨rfl, -⟩ := hhealthy
    simp only [insertsAbsent, System.callOf_of_running hslot, Option.all_some] at habsent
    exact h.perform hsound htraced hslot habsent
  | spawn hnone hproceeds => exact h.proceeds (Task.action_shielded _ _) hproceeds
  | resume hproc hslot hresume hproceeds =>
    split_ifs at hproceeds with hguarded
    · have hr := h.slots _ _ _ hproc hguarded hslot
      simp only [Slot.shielded, Bool.not_eq_true'] at hr
      exact (h.recordStore hr).proceeds (Pc.resume_shielded hresume) hproceeds
    · exact h.proceeds (Pc.resume_shielded hresume) hproceeds
  | sent hproc hallowed hacts =>
    refine ((h.setBusBreaker _).log _).acts ?_ hacts
    rfl
  | unsent hproc hrefused hproceeds =>
    exact (h.setBusBreaker _).proceeds (Job.attemptFailed_shielded _ _ _ _) hproceeds
  | acked hproc hproceeds =>
    refine ((h.setBusBreaker _).log _).proceeds ?_ hproceeds
    exact fun _ => rfl
  | rejected hproc hproceeds =>
    exact ((h.setBusBreaker _).log _).proceeds (Job.attemptFailed_shielded _ _ _ _) hproceeds
  | timer hproc hdue hacts =>
    refine h.acts ?_ hacts
    rfl
  | cancel hproc hproceeds => exact h.proceeds (Job.recordFailure_shielded _ _) hproceeds
  | crash hstore =>
    refine ⟨?_, h.breakers⟩
    intro q proc slot hproc hguarded hslot
    have hproc' := (Clustered.get_erase_cases hproc).2
    rcases hstore with rfl | hcrash
    · exact h.slots q proc slot hproc' hguarded hslot
    · cases System.step_cases hcrash with
      | crash hrunning =>
        exact h.slots q proc slot hproc' hguarded (Clustered.get_erase_cases hslot).2

end Steps

/-- **A healthy database never trips the store breaker.** Consider every run in which the
database executes every statement and every conditional insert finds its row absent. No
guarded operation returns an error, so `Failure` is never called on a store breaker; every
store breaker is as `New` created it and refuses no call. -/
theorem healthy_store_never_refused {cfg : ℕ → Config} {a : App}
    (h : a.Reachable cfg fun a l => healthyStore a l = true ∧ insertsAbsent a l = true) :
    (∀ p node pc r, a.procs.get p = some ⟨node, pc⟩ → pc.guarded = true →
      a.store.slots.get p = some (.returned r) → r.isError = false) ∧
    ∀ node, (a.nodes node).storeBreaker = (cfg node).breaker ∧
      ∀ now, ((a.nodes node).storeBreaker.allow now).1 = true := by
  have hboth : a.Sound ∧ a.Healthy cfg := by
    refine h.invariant_moves (I := fun a => a.Sound ∧ a.Healthy cfg) ?_ ?_
    · intro clock
      refine ⟨App.sound_init cfg clock, ?_, fun node => rfl⟩
      exact fun p proc slot hproc => by cases hproc
    · rintro a l b htraced ⟨hsound, hhealthy⟩ ⟨hstore, habsent⟩ hmove
      exact ⟨hsound.step htraced hmove.steps, hhealthy.step hsound htraced hstore habsent hmove⟩
  obtain ⟨-, hhealthy⟩ := hboth
  constructor
  · intro p node pc r hproc hguarded hslot
    simpa [Slot.shielded] using hhealthy.slots p _ _ hproc hguarded hslot
  · intro node
    refine ⟨hhealthy.breakers node, ?_⟩
    intro now
    rw [hhealthy.breakers node, Config.breaker_allow]

/-- The statements of process `p`, with the row of a conditional insert scanned as
documented. -/
def scanExecs (p n : ℕ) (now : Time) : List AppLabel :=
  List.replicate n (.exec p .ok { now, scan := .mismatch })

/-- A request to publish the order under a key, up to the answer with status 201. -/
def orderAccepted (p : ℕ) (key : String) (id : UUID) : List AppLabel :=
  .spawn p 0 (.publish orderRequest key id) :: scanExecs p 3 5000000 ++
    [.resume p, .send p, .ack p (.ok "SHIRO_EVENTS:1")] ++ scanExecs p 2 5000000 ++ [.resume p]

/-- Two orders are published under their own keys. -/
theorem healthy_store_never_refused_orders : ∃ a : App, a.Reachable (fun _ => hastyConfig)
      (fun a l => healthyStore a l = true ∧ insertsAbsent a l = true) ∧
    a.store.db.isPublished 1 = true ∧ a.store.db.isPublished 2 = true ∧
    ((a.nodes 0).storeBreaker.allow 5000000).1 = true := by
  obtain ⟨a, ha, htest⟩ := App.Reachable.of_play (fun _ => hastyConfig)
    (fun a l => healthyStore a l = true ∧ insertsAbsent a l = true)
    (fun a l => healthyStore a l && insertsAbsent a l) (fun a l h => by simpa using h) 5000000
    (orderAccepted 0 "order-A1001-v1" 1 ++ orderAccepted 1 "order-A1002-v1" 2)
    (fun a => a.store.db.isPublished 1 && a.store.db.isPublished 2) (by decide)
  simp only [Bool.and_eq_true] at htest
  exact ⟨a, ha, htest.1, htest.2, ((healthy_store_never_refused ha).2 0).2 5000000⟩

/-- The tasks of the runs in question. -/
def publishesOrConsumes : AppLabel → Bool
  | .spawn _ _ (.publish _ _ _) | .spawn _ _ .relay | .spawn _ _ (.consume _ _) => true
  | .spawn _ _ _ | .cancel _ _ | .crash _ => false
  | _ => true

/-- An order is published and its request is repeated under the same key. The database
executes every statement, but the repeated request ends in an error that opens the store
breaker, and the breaker refuses the append of the next order. -/
theorem repeated_key_opens_breaker : ∃ a b : App, a.Reachable (fun _ => hastyConfig)
      (fun a l => healthyStore a l = true ∧ publishesOrConsumes l = true) ∧
    (a.nodes 0).storeBreaker.state = .open ∧
    a.step (fun _ => hastyConfig)
      (.spawn 2 0 (.publish orderRequest "order-A1002-v1" 3)) = some b ∧
    b.lastAnswer = some .storeError ∧ b.store.callOf 2 = none ∧ b.store.generated = [2, 1] := by
  obtain ⟨a, ha, htest⟩ := App.Reachable.of_play (fun _ => hastyConfig)
    (fun a l => healthyStore a l = true ∧ publishesOrConsumes l = true)
    (fun a l => healthyStore a l && publishesOrConsumes l) (fun a l h => by simpa using h) 5000000
    (orderAccepted 0 "order-A1001-v1" 1 ++
      .spawn 1 0 (.publish orderRequest "order-A1001-v1" 2) :: scanExecs 1 1 5000000 ++ [.resume 1])
    (fun a => decide ((a.nodes 0).storeBreaker.state = .open) &&
      (a.step (fun _ => hastyConfig)
        (.spawn 2 0 (.publish orderRequest "order-A1002-v1" 3))).any fun b : App =>
          decide (b.lastAnswer = some .storeError) && (decide (b.store.callOf 2 = none) &&
            decide (b.store.generated = [2, 1]))) (by decide)
  simp only [Bool.and_eq_true, decide_eq_true_eq, Option.any_eq_true] at htest
  obtain ⟨hopen, b, hstep, hanswer, hcall, hgenerated⟩ := htest
  exact ⟨a, b, ha, hopen, hstep, hanswer, hcall, hgenerated⟩

end ControlPlane

import ControlPlane.Store.Provenance
import ControlPlane.App.Processes

/-!
# The application

Any number of nodes run processes against one store and one bus. Process `p` is
client `p` of the store. A step of the application executes one statement of a store
operation, resumes a process whose operation returned, calls the bus, delivers the
bus's outcome, or ends a wait; a process can crash between any two steps. Every
application step is matched by steps of the store, so the store invariants hold of
every application state.
-/

namespace ControlPlane

open Transition

/-- The breakers of a node. -/
structure Node where
  busBreaker : Breaker
  storeBreaker : Breaker

/-- A process with the node that runs it. -/
structure Process where
  node : ℕ
  pc : Pc
  deriving DecidableEq

/-- The state of the application. `history` records what the processes did that can be
observed, the latest first. -/
structure App where
  store : System
  nodes : ℕ → Node
  procs : Clustered ℕ Process
  history : List Occurrence

/-- The steps of the application. -/
inductive AppLabel
  | tick (now : Time)
  | spawn (p node : ℕ) (task : Task)
  | exec (p : ℕ) (report : Report) (env : Env)
  | resume (p : ℕ)
  | send (p : ℕ)
  | ack (p : ℕ) (outcome : Outcome)
  | timer (p : ℕ)
  | cancel (p : ℕ) (err : CtxError)
  | crash (p : ℕ)
  deriving DecidableEq

namespace App

/-- An empty store, nodes that just started, and no process. -/
def init (cfg : ℕ → Config) (clock : Time) : App where
  store := System.init clock
  nodes := fun node => ⟨(cfg node).breaker, (cfg node).breaker⟩
  procs := .empty
  history := []

variable (a : App)

/-- Replace the store breaker of a node. -/
def setStoreBreaker (node : ℕ) (b : Breaker) : App :=
  { a with nodes := Function.update a.nodes node { a.nodes node with storeBreaker := b } }

/-- Replace the bus breaker of a node. -/
def setBusBreaker (node : ℕ) (b : Breaker) : App :=
  { a with nodes := Function.update a.nodes node { a.nodes node with busBreaker := b } }

/-- Add an occurrence to the history. -/
def log (o : Occurrence) : App := { a with history := o :: a.history }

@[simp] theorem setBusBreaker_procs (node : ℕ) (b : Breaker) :
    (a.setBusBreaker node b).procs = a.procs := rfl

@[simp] theorem log_procs (o : Occurrence) : (a.log o).procs = a.procs := rfl

/-- Report the result of a guarded store operation to the store breaker. -/
def recordStore (node : ℕ) (r : Result) : App :=
  a.setStoreBreaker node
    (if r.isError then (a.nodes node).storeBreaker.failure a.store.clock
      else (a.nodes node).storeBreaker.success)

/-- Perform an action for process `p`. -/
def act (p node : ℕ) : Action → Option App
  | .finish out =>
      some { a with procs := a.procs.erase p, history := out.toList ++ a.history }
  | .goto pc => some { a with procs := a.procs.put p ⟨node, pc⟩ }
  | .call op pc =>
      (a.store.step (.start p op)).map fun store =>
        { a with store, procs := a.procs.put p ⟨node, pc⟩ }

/-- Perform an action, asking the store breaker before a guarded operation. When the
breaker refuses, the process goes on as after an error of the operation. -/
def proceed (cfg : ℕ → Config) (p node : ℕ) (action : Action) : Option App :=
  match action with
  | .call op pc =>
      if pc.guarded then
        let answer := (a.nodes node).storeBreaker.allow a.store.clock
        if answer.1 then (a.setStoreBreaker node answer.2).act p node (.call op pc)
        else (pc.resume (cfg node) .failed).bind ((a.setStoreBreaker node answer.2).act p node)
      else a.act p node (.call op pc)
  | action => a.act p node action

/-- One step of the application. -/
def step (cfg : ℕ → Config) (a : App) : AppLabel → Option App
  | .tick now => (a.store.step (.tick now)).map fun store => { a with store }
  | .spawn p node task =>
      match a.procs.get p with
      | none => a.proceed cfg p node (task.action (cfg node) a.store.clock)
      | some _ => none
  | .exec p report env => (a.store.step (.exec p report env)).map fun store => { a with store }
  | .resume p =>
      match a.procs.get p, a.store.slots.get p with
      | some ⟨node, pc⟩, some (.returned r) =>
          (pc.resume (cfg node) r).bind
            ((if pc.guarded then a.recordStore node r else a).proceed cfg p node)
      | _, _ => none
  | .send p =>
      match a.procs.get p with
      | some ⟨node, .publishing job attempt⟩ =>
          let answer := (a.nodes node).busBreaker.allow a.store.clock
          if answer.1 then
            ((a.setBusBreaker node answer.2).log (.sent job.message)).act p node
              (.goto (.sent job attempt))
          else
            (a.setBusBreaker node answer.2).proceed cfg p node
              (job.attemptFailed (cfg node) a.store.clock attempt "nats circuit open")
      | _ => none
  | .ack p outcome =>
      match a.procs.get p with
      | some ⟨node, .sent job attempt⟩ =>
          match outcome with
          | .ok brokerID =>
              ((a.setBusBreaker node (a.nodes node).busBreaker.success).log
                (.acked job.message outcome)).proceed cfg p node
                (.call (.mark job.event.id brokerID) (.marking job))
          | .error err =>
              ((a.setBusBreaker node ((a.nodes node).busBreaker.failure a.store.clock)).log
                (.acked job.message outcome)).proceed cfg p node
                (job.attemptFailed (cfg node) a.store.clock attempt err)
      | _ => none
  | .timer p =>
      match a.procs.get p with
      | some ⟨node, .waiting job attempt due⟩ =>
          if due ≤ a.store.clock then a.act p node (.goto (.publishing job attempt)) else none
      | _ => none
  | .cancel p err =>
      match a.procs.get p with
      | some ⟨node, .waiting job _ _⟩ =>
          a.proceed cfg p node (job.recordFailure (cfg node) err.text)
      | _ => none
  | .crash p =>
      match a.procs.get p with
      | some _ =>
          some { a with store := (a.store.step (.crash p)).getD a.store, procs := a.procs.erase p }
      | none => none

/-- The states that runs of the application reach, all of whose steps satisfy `ok`. -/
def Reachable (cfg : ℕ → Config) (ok : App → AppLabel → Prop) (a : App) : Prop :=
  ∃ clock, Run (App.step cfg) ok (App.init cfg clock) a

end App

/-- Why a process performs an action, with the bus outcome that it learns or the bus
call that it makes on the way. -/
inductive App.Cause (cfg : ℕ → Config) (a : App) (p node : ℕ) : Action → Option Occurrence → Prop
  | spawned {task : Task} : a.procs.get p = none →
      Cause cfg a p node (task.action (cfg node) a.store.clock) none
  | resumed {pc : Pc} {r : Result} {action : Action} : a.procs.get p = some ⟨node, pc⟩ →
      a.store.slots.get p = some (.returned r) → pc.resume (cfg node) r = some action →
      Cause cfg a p node action none
  | sent {job : Job} {attempt : Attempt} : a.procs.get p = some ⟨node, .publishing job attempt⟩ →
      Cause cfg a p node (.goto (.sent job attempt)) (some (.sent job.message))
  | unsent {job : Job} {attempt : Attempt} {err : String} :
      a.procs.get p = some ⟨node, .publishing job attempt⟩ →
      Cause cfg a p node (job.attemptFailed (cfg node) a.store.clock attempt err) none
  | acked {job : Job} {attempt : Attempt} {brokerID : String} :
      a.procs.get p = some ⟨node, .sent job attempt⟩ →
      Cause cfg a p node (.call (.mark job.event.id brokerID) (.marking job))
        (some (.acked job.message (.ok brokerID)))
  | rejected {job : Job} {attempt : Attempt} {err : String} :
      a.procs.get p = some ⟨node, .sent job attempt⟩ →
      Cause cfg a p node (job.attemptFailed (cfg node) a.store.clock attempt err)
        (some (.acked job.message (.error err)))
  | fired {job : Job} {attempt : Attempt} {due : Time} :
      a.procs.get p = some ⟨node, .waiting job attempt due⟩ →
      Cause cfg a p node (.goto (.publishing job attempt)) none
  | cancelled {job : Job} {attempt : Attempt} {due : Time} {err : CtxError} :
      a.procs.get p = some ⟨node, .waiting job attempt due⟩ →
      Cause cfg a p node (job.recordFailure (cfg node) err.text) none
  | refused {op : Op} {pc : Pc} {action : Action} {o : Option Occurrence} :
      Cause cfg a p node (.call op pc) o → pc.guarded = true →
      pc.resume (cfg node) .failed = some action → Cause cfg a p node action o

/-- The effect of an action of process `p`. -/
inductive App.Acts (a : App) (p node : ℕ) : Action → App → Prop
  | finish {out : Option Occurrence} : a.Acts p node (.finish out)
      { a with procs := a.procs.erase p, history := out.toList ++ a.history }
  | goto {pc : Pc} : a.Acts p node (.goto pc) { a with procs := a.procs.put p ⟨node, pc⟩ }
  | call {op : Op} {pc : Pc} : a.store.callOf p = none → (∀ id ∈ op.draws, id ∉ a.store.generated) →
      a.Acts p node (.call op pc)
        { a with store := a.store.launch p op, procs := a.procs.put p ⟨node, pc⟩ }

/-- Everything that a step of the application can do. -/
inductive App.Steps (cfg : ℕ → Config) (a : App) : AppLabel → App → Prop
  | tick {now : Time} : a.store.clock ≤ now →
      a.Steps cfg (.tick now) { a with store := { a.store with clock := now } }
  | exec {p : ℕ} {report : Report} {env : Env} {c : Call} {since : Time} :
      a.store.slots.get p = some (.running c since) → since ≤ env.now →
      env.now ≤ a.store.clock →
      a.Steps cfg (.exec p report env) { a with store := a.store.perform p c report env }
  | act {l : AppLabel} {p node : ℕ} {nodes : ℕ → Node} {action : Action}
      {o : Option Occurrence} {b : App} : App.Cause cfg a p node action o →
      App.Acts { a with nodes, history := o.toList ++ a.history } p node action b → a.Steps cfg l b
  | crash {p : ℕ} {store : System} : (store = a.store ∨ a.store.step (.crash p) = some store) →
      a.Steps cfg (.crash p) { a with store, procs := a.procs.erase p }

/-- The ways in which the store breaker lets a process perform an action. A guarded
operation is refused while the breaker is open; the process then goes on as after an
error of the operation. -/
inductive App.Proceeds (cfg : ℕ → Config) (a : App) (p node : ℕ) : Action → App → Prop
  | unguarded {action : Action} {b : App} :
      (∀ op pc, action = .call op pc → pc.guarded = false) → a.Acts p node action b →
      Proceeds cfg a p node action b
  | allowed {op : Op} {pc : Pc} {b : App} : pc.guarded = true →
      ((a.nodes node).storeBreaker.allow a.store.clock).1 = true →
      (a.setStoreBreaker node ((a.nodes node).storeBreaker.allow a.store.clock).2).Acts p node
        (.call op pc) b → Proceeds cfg a p node (.call op pc) b
  | refused {op : Op} {pc : Pc} {action : Action} {b : App} : pc.guarded = true →
      ((a.nodes node).storeBreaker.allow a.store.clock).1 = false →
      pc.resume (cfg node) .failed = some action →
      (a.setStoreBreaker node ((a.nodes node).storeBreaker.allow a.store.clock).2).Acts p node
        action b → Proceeds cfg a p node (.call op pc) b

/-- What each label makes the application do. `Steps` forgets the labels and the
breakers of the steps by which a process goes on. -/
inductive App.Moves (cfg : ℕ → Config) (a : App) : AppLabel → App → Prop
  | tick {now : Time} : a.store.clock ≤ now →
      a.Moves cfg (.tick now) { a with store := { a.store with clock := now } }
  | spawn {p node : ℕ} {task : Task} {b : App} : a.procs.get p = none →
      a.Proceeds cfg p node (task.action (cfg node) a.store.clock) b →
      a.Moves cfg (.spawn p node task) b
  | exec {p : ℕ} {report : Report} {env : Env} {c : Call} {since : Time} :
      a.store.slots.get p = some (.running c since) → since ≤ env.now →
      env.now ≤ a.store.clock →
      a.Moves cfg (.exec p report env) { a with store := a.store.perform p c report env }
  | resume {p node : ℕ} {pc : Pc} {r : Result} {action : Action} {b : App} :
      a.procs.get p = some ⟨node, pc⟩ → a.store.slots.get p = some (.returned r) →
      pc.resume (cfg node) r = some action →
      (if pc.guarded then a.recordStore node r else a).Proceeds cfg p node action b →
      a.Moves cfg (.resume p) b
  | sent {p node : ℕ} {job : Job} {attempt : Attempt} {b : App} :
      a.procs.get p = some ⟨node, .publishing job attempt⟩ →
      ((a.nodes node).busBreaker.allow a.store.clock).1 = true →
      ((a.setBusBreaker node ((a.nodes node).busBreaker.allow a.store.clock).2).log
        (.sent job.message)).Acts p node (.goto (.sent job attempt)) b → a.Moves cfg (.send p) b
  | unsent {p node : ℕ} {job : Job} {attempt : Attempt} {b : App} :
      a.procs.get p = some ⟨node, .publishing job attempt⟩ →
      ((a.nodes node).busBreaker.allow a.store.clock).1 = false →
      (a.setBusBreaker node ((a.nodes node).busBreaker.allow a.store.clock).2).Proceeds cfg p node
        (job.attemptFailed (cfg node) a.store.clock attempt "nats circuit open") b →
      a.Moves cfg (.send p) b
  | acked {p node : ℕ} {job : Job} {attempt : Attempt} {brokerID : String} {b : App} :
      a.procs.get p = some ⟨node, .sent job attempt⟩ →
      ((a.setBusBreaker node (a.nodes node).busBreaker.success).log
        (.acked job.message (.ok brokerID))).Proceeds cfg p node
        (.call (.mark job.event.id brokerID) (.marking job)) b →
      a.Moves cfg (.ack p (.ok brokerID)) b
  | rejected {p node : ℕ} {job : Job} {attempt : Attempt} {err : String} {b : App} :
      a.procs.get p = some ⟨node, .sent job attempt⟩ →
      ((a.setBusBreaker node ((a.nodes node).busBreaker.failure a.store.clock)).log
        (.acked job.message (.error err))).Proceeds cfg p node
        (job.attemptFailed (cfg node) a.store.clock attempt err) b →
      a.Moves cfg (.ack p (.error err)) b
  | timer {p node : ℕ} {job : Job} {attempt : Attempt} {due : Time} {b : App} :
      a.procs.get p = some ⟨node, .waiting job attempt due⟩ → due ≤ a.store.clock →
      a.Acts p node (.goto (.publishing job attempt)) b → a.Moves cfg (.timer p) b
  | cancel {p node : ℕ} {job : Job} {attempt : Attempt} {due : Time} {err : CtxError} {b : App} :
      a.procs.get p = some ⟨node, .waiting job attempt due⟩ →
      a.Proceeds cfg p node (job.recordFailure (cfg node) err.text) b →
      a.Moves cfg (.cancel p err) b
  | crash {p : ℕ} {store : System} : (store = a.store ∨ a.store.step (.crash p) = some store) →
      a.Moves cfg (.crash p) { a with store, procs := a.procs.erase p }

section Inversion

variable {cfg : ℕ → Config} {a b : App} {p node : ℕ} {action : Action}

theorem App.act_cases (h : a.act p node action = some b) : a.Acts p node action b := by
  cases action with
  | finish out =>
    cases h
    exact .finish
  | goto pc =>
    cases h
    exact .goto
  | call op pc =>
    obtain ⟨store, hstore, rfl⟩ := Option.map_eq_some_iff.mp h
    cases System.step_cases hstore with
    | start hidle hfresh => exact .call hidle hfresh

/-- Inversion of `proceed`. -/
theorem App.proceed_cases (h : a.proceed cfg p node action = some b) :
    a.Proceeds cfg p node action b := by
  cases action with
  | finish out => exact .unguarded (fun op pc heq => by cases heq) (App.act_cases h)
  | goto pc => exact .unguarded (fun op pc heq => by cases heq) (App.act_cases h)
  | call op pc =>
    simp only [App.proceed] at h
    split_ifs at h with hguarded hallowed
    · exact .allowed hguarded hallowed (App.act_cases h)
    · obtain ⟨action', hresume, hact⟩ := Option.bind_eq_some_iff.mp h
      exact .refused hguarded (by simpa using hallowed) hresume (App.act_cases hact)
    · refine .unguarded ?_ (App.act_cases h)
      intro op' pc' heq
      cases heq
      simpa using hguarded

/-- Inversion of the step function of the application. -/
theorem App.step_moves {l : AppLabel} (h : a.step cfg l = some b) : a.Moves cfg l b := by
  cases l with
  | tick now =>
    obtain ⟨store, hstore, rfl⟩ := Option.map_eq_some_iff.mp h
    cases System.step_cases hstore with
    | tick hclock => exact .tick hclock
  | exec p report env =>
    obtain ⟨store, hstore, rfl⟩ := Option.map_eq_some_iff.mp h
    cases System.step_cases hstore with
    | exec hslot hsince hnow => exact .exec hslot hsince hnow
  | spawn p node task =>
    simp only [App.step] at h
    split at h
    · rename_i hnone
      exact .spawn hnone (App.proceed_cases h)
    · cases h
  | resume p =>
    simp only [App.step] at h
    split at h
    · rename_i node pc r hproc hslot
      obtain ⟨action, hresume, hproceed⟩ := Option.bind_eq_some_iff.mp h
      exact .resume hproc hslot hresume (App.proceed_cases hproceed)
    · cases h
  | send p =>
    simp only [App.step] at h
    split at h
    · rename_i node job attempt hproc
      split_ifs at h with hallowed
      · exact .sent hproc hallowed (App.act_cases h)
      · exact .unsent hproc (by simpa using hallowed) (App.proceed_cases h)
    · cases h
  | ack p outcome =>
    simp only [App.step] at h
    split at h
    · rename_i node job attempt hproc
      cases outcome with
      | ok brokerID => exact .acked hproc (App.proceed_cases h)
      | error err => exact .rejected hproc (App.proceed_cases h)
    · cases h
  | timer p =>
    simp only [App.step] at h
    split at h
    · rename_i node job attempt due hproc
      split_ifs at h with hdue
      exact .timer hproc hdue (App.act_cases h)
    · cases h
  | cancel p err =>
    simp only [App.step] at h
    split at h
    · rename_i node job attempt due hproc
      exact .cancel hproc (App.proceed_cases h)
    · cases h
  | crash p =>
    simp only [App.step] at h
    split at h
    · cases h
      refine .crash ?_
      cases hcrash : a.store.step (.crash p) with
      | none => exact Or.inl rfl
      | some store => exact Or.inr rfl
    · cases h

/-- Whether the breaker allows an operation or refuses it, some action with the same
cause is performed. -/
theorem App.Proceeds.steps {l : AppLabel} {nodes : ℕ → Node} {o : Option Occurrence}
    (h : App.Proceeds cfg { a with nodes, history := o.toList ++ a.history } p node action b)
    (hcause : App.Cause cfg a p node action o) : a.Steps cfg l b := by
  cases h with
  | unguarded _ hacts => exact .act hcause hacts
  | allowed _ _ hacts => exact .act hcause hacts
  | refused hguarded _ hresume hacts => exact .act (.refused hcause hguarded hresume) hacts

theorem App.Moves.steps {l : AppLabel} (h : a.Moves cfg l b) : a.Steps cfg l b := by
  cases h with
  | tick hclock => exact .tick hclock
  | exec hslot hsince hnow => exact .exec hslot hsince hnow
  | crash hstore => exact .crash hstore
  | spawn hnone hproceeds => exact hproceeds.steps (.spawned hnone)
  | resume hproc hslot hresume hproceeds =>
    split_ifs at hproceeds
    · exact hproceeds.steps (.resumed hproc hslot hresume)
    · exact hproceeds.steps (.resumed hproc hslot hresume)
  | sent hproc _ hacts => exact .act (.sent hproc) hacts
  | unsent hproc _ hproceeds => exact hproceeds.steps (.unsent hproc)
  | acked hproc hproceeds => exact hproceeds.steps (.acked hproc)
  | rejected hproc hproceeds => exact hproceeds.steps (.rejected hproc)
  | timer hproc _ hacts => exact .act (.fired hproc) hacts
  | cancel hproc hproceeds => exact hproceeds.steps (.cancelled hproc)

/-- Inversion of the step function, by what each process does next and why. -/
theorem App.step_cases {l : AppLabel} (h : a.step cfg l = some b) : a.Steps cfg l b :=
  (App.step_moves h).steps

/-- An action starts at most one store operation. -/
theorem App.Acts.store (h : a.Acts p node action b) : b.store = a.store ∨
    ∃ op pc, action = .call op pc ∧ a.store.Steps (.start p op) b.store := by
  cases h with
  | finish => exact Or.inl rfl
  | goto => exact Or.inl rfl
  | call hidle hfresh => exact Or.inr ⟨_, _, rfl, .start hidle hfresh⟩

/-- A step of the application leaves the store alone or is a step of the store. -/
theorem App.Steps.store {l : AppLabel} (h : a.Steps cfg l b) :
    b.store = a.store ∨ ∃ l', a.store.Steps l' b.store := by
  cases h with
  | tick hclock => exact Or.inr ⟨_, .tick hclock⟩
  | exec hslot hsince hnow => exact Or.inr ⟨_, .exec hslot hsince hnow⟩
  | act hcause hacts =>
    rcases hacts.store with heq | ⟨op, pc, -, hstart⟩
    · exact Or.inl heq
    · exact Or.inr ⟨_, hstart⟩
  | crash hstore =>
    rcases hstore with heq | hcrash
    · exact Or.inl heq
    · exact Or.inr ⟨_, System.step_cases hcrash⟩

/-- The state after a statement of process `p`. -/
theorem App.step_exec {c : Call} {since : Time} {report : Report} {env : Env}
    (hslot : a.store.slots.get p = some (.running c since))
    (h : a.step cfg (.exec p report env) = some b) :
    b = { a with store := a.store.perform p c report env } ∧ since ≤ env.now ∧
      env.now ≤ a.store.clock := by
  obtain ⟨store, hstore, rfl⟩ := Option.map_eq_some_iff.mp h
  cases System.step_cases hstore with
  | exec hslot' hsince hnow =>
    rw [hslot, Option.some.injEq, Slot.running.injEq] at hslot'
    obtain ⟨rfl, rfl⟩ := hslot'
    exact ⟨rfl, hsince, hnow⟩

/-- Only a statement that takes effect changes the database. -/
theorem App.Steps.db_cases {l : AppLabel} (h : a.Steps cfg l b) : b.store.db = a.store.db ∨
    ∃ p report env c, l = .exec p report env ∧ a.store.callOf p = some c ∧
      env.now ≤ a.store.clock ∧ report ≠ .refused ∧
      Call.Mutation env a.store.db c b.store.db := by
  cases h with
  | tick hclock => exact Or.inl rfl
  | exec hslot hsince hnow =>
    rename_i p report env c since
    refine (c.effect_mutation report env a.store.db).imp (fun heq => heq.2) ?_
    rintro ⟨hreport, hm⟩
    exact ⟨p, report, env, c, rfl, System.callOf_of_running hslot, hnow, hreport, hm⟩
  | act hcause hacts =>
    left
    cases hacts <;> rfl
  | crash hstore =>
    left
    rcases hstore with rfl | hcrash
    · rfl
    · cases System.step_cases hcrash with
      | crash hslot => rfl

/-- What process `p` must be doing to cause an occurrence: an outcome of the bus reaches
the process that waits for it, and a message with an identifier is delivered by the
process that claimed it. -/
def App.Causes (a : App) (p node : ℕ) : Occurrence → Prop
  | .acked msg _ => ∃ job attempt, a.procs.get p = some ⟨node, .sent job attempt⟩ ∧
      msg = job.message
  | .delivered consumer messageID => messageID = "" ∨
      (a.procs.get p = some ⟨node, .consuming consumer messageID⟩ ∧
        a.store.slots.get p = some (.returned (.claimedInbox true)))
  | _ => True

theorem Job.attemptFailed_ne_finish {cfg : Config} {now : Time} {job : Job} {attempt : Attempt}
    {err : String} {out : Option Occurrence} :
    job.attemptFailed cfg now attempt err ≠ .finish out := by
  rcases job.attemptFailed_cases cfg now attempt err with heq | ⟨next, wake, heq⟩
  · simp [heq, Job.recordFailure]
  · simp [heq]

/-- A task that ends at once delivers a message without identifier. -/
theorem Task.action_causes {cfg : Config} {task : Task} {now : Time} {x : Occurrence}
    (h : task.action cfg now = .finish (some x)) : a.Causes p node x := by
  cases task with
  | consume consumer messageID =>
    simp only [Task.action] at h
    split_ifs at h with hempty
    cases h
    exact Or.inl hempty
  | _ => cases h

/-- A process that resumes and ends causes its last occurrence, a delivery if it had claimed
the message. -/
theorem Pc.resume_causes {cfg : Config} {pc : Pc} {r : Result}
    (h : pc.resume cfg r = some action)
    (hdeliver : ∀ consumer messageID, pc = .consuming consumer messageID →
      r = .claimedInbox true → a.Causes p node (.delivered consumer messageID))
    (x : Occurrence) (hx : action = .finish (some x)) : a.Causes p node x := by
  cases Pc.resume_cases h with
  | answer =>
    cases hx
    trivial
  | deliver =>
    cases hx
    exact hdeliver _ _ rfl rfl
  | relay =>
    rename_i events
    cases events <;> cases hx
  | first => cases hx
  | finish => cases hx

/-- Every occurrence of a step has its cause in the process that takes the step. -/
theorem App.Cause.occurs {o : Option Occurrence} (h : App.Cause cfg a p node action o) :
    (∀ x, o = some x → a.Causes p node x) ∧
      ∀ x, action = .finish (some x) → a.Causes p node x := by
  have hnone : ∀ x : Occurrence, none = some x → a.Causes p node x := fun x hx => by cases hx
  induction h with
  | spawned hproc => exact ⟨hnone, fun x hx => Task.action_causes hx⟩
  | resumed hproc hslot hresume =>
    refine ⟨hnone, Pc.resume_causes hresume ?_⟩
    rintro consumer messageID rfl rfl
    exact Or.inr ⟨hproc, hslot⟩
  | sent hproc =>
    refine ⟨?_, fun x hx => by cases hx⟩
    rintro x hx
    cases hx
    trivial
  | unsent hproc => exact ⟨hnone, fun x hx => absurd hx Job.attemptFailed_ne_finish⟩
  | acked hproc =>
    refine ⟨?_, fun x hx => by cases hx⟩
    rintro x hx
    cases hx
    exact ⟨_, _, hproc, rfl⟩
  | rejected hproc =>
    refine ⟨?_, fun x hx => absurd hx Job.attemptFailed_ne_finish⟩
    rintro x hx
    cases hx
    exact ⟨_, _, hproc, rfl⟩
  | fired hproc => exact ⟨hnone, fun x hx => by cases hx⟩
  | cancelled hproc => exact ⟨hnone, fun x hx => by cases hx⟩
  | refused hcause hguarded hresume ih =>
    refine ⟨ih.1, Pc.resume_causes hresume ?_⟩
    rintro consumer messageID - hfailed
    cases hfailed

/-- A step adds to the history what one process causes. -/
theorem App.Steps.history {l : AppLabel} (h : a.Steps cfg l b) :
    ∃ p node new, b.history = new ++ a.history ∧ ∀ x ∈ new, a.Causes p node x := by
  cases h with
  | tick hclock => exact ⟨0, 0, [], rfl, fun x hx => by cases hx⟩
  | exec hslot hsince hnow => exact ⟨0, 0, [], rfl, fun x hx => by cases hx⟩
  | crash hstore => exact ⟨0, 0, [], rfl, fun x hx => by cases hx⟩
  | act hcause hacts =>
    rename_i p node nodes action o
    obtain ⟨ho, haction⟩ := hcause.occurs
    cases hacts with
    | finish =>
      rename_i out
      refine ⟨p, node, out.toList ++ o.toList, by simp, ?_⟩
      intro x hx
      rcases List.mem_append.mp hx with hx | hx
      · exact haction x (congrArg Action.finish (Option.mem_toList.mp hx))
      · exact ho x (Option.mem_toList.mp hx)
    | goto => exact ⟨p, node, o.toList, rfl, fun x hx => ho x (Option.mem_toList.mp hx)⟩
    | call hidle hfresh =>
      exact ⟨p, node, o.toList, rfl, fun x hx => ho x (Option.mem_toList.mp hx)⟩

end Inversion

section Reachable

variable {cfg : ℕ → Config} {ok : App → AppLabel → Prop} {a : App}

/-- The store of a reachable application state is reachable: application steps are
simulated by store steps. -/
theorem App.Reachable.store (h : a.Reachable cfg ok) : a.store.Reachable anyStep := by
  obtain ⟨clock, hrun⟩ := h
  have hsim : ∀ a l b s, s = App.store a → ok a l → a.step cfg l = some b →
      ∃ s', Run System.step anyStep s s' ∧ s' = b.store := by
    rintro a l b s rfl - hstep
    refine ⟨b.store, ?_, rfl⟩
    rcases (App.step_cases hstep).store with heq | ⟨l', hl'⟩
    · rw [heq]
      exact .refl _
    · exact (Run.refl _).snoc trivial hl'.step_eq
  obtain ⟨s, hrun', rfl⟩ := hrun.simulate hsim rfl
  exact ⟨clock, hrun'⟩

/-- Every step of the application keeps the provenance of the store's copies. -/
theorem App.Steps.traced {b : App} {l : AppLabel} (hstep : a.Steps cfg l b)
    (htraced : a.store.Traced) : b.store.Traced := by
  rcases hstep.store with heq | ⟨l', hl'⟩
  · rwa [heq]
  · exact htraced.step hl'

/-- A predicate that holds initially and is kept by every admitted move holds in every
reachable state. The provenance of the store's copies may be used on the way. -/
theorem App.Reachable.invariant_moves {I : App → Prop} (h : a.Reachable cfg ok)
    (hinit : ∀ clock, I (App.init cfg clock))
    (hstep : ∀ a l b, a.store.Traced → I a → ok a l → a.Moves cfg l b → I b) : I a := by
  obtain ⟨clock, hrun⟩ := h
  have hboth : a.store.Traced ∧ I a := by
    refine hrun.invariant (I := fun a => a.store.Traced ∧ I a)
      ⟨System.traced_init clock, hinit clock⟩ ?_
    rintro a l b ⟨htraced, ha⟩ hok hab
    exact ⟨(App.step_cases hab).traced htraced, hstep a l b htraced ha hok (App.step_moves hab)⟩
  exact hboth.2

/-- The same for a predicate that is kept by whatever a process does next. -/
theorem App.Reachable.invariant {I : App → Prop} (h : a.Reachable cfg ok)
    (hinit : ∀ clock, I (App.init cfg clock))
    (hstep : ∀ a l b, a.store.Traced → I a → ok a l → a.Steps cfg l b → I b) : I a :=
  h.invariant_moves hinit fun a l b htraced ha hok hmove => hstep a l b htraced ha hok hmove.steps

/-- A list of labels that leads to a state passing a test shows that such a state is
reachable. -/
theorem App.Reachable.of_play (cfg : ℕ → Config) (ok : App → AppLabel → Prop)
    (check : App → AppLabel → Bool) (hcheck : ∀ a l, check a l = true → ok a l) (clock : Time)
    (ls : List AppLabel) (test : App → Bool)
    (h : (play (App.step cfg) check (App.init cfg clock) ls).any test = true) :
    ∃ a : App, a.Reachable cfg ok ∧ test a = true := by
  obtain ⟨a, hrun, htest⟩ := Run.exists_of_play hcheck h
  exact ⟨a, ⟨clock, hrun⟩, htest⟩

end Reachable

/-- The process that goes on by a step. -/
def AppLabel.steers : AppLabel → Option ℕ
  | .tick _ | .exec _ _ _ => none
  | .spawn p _ _ | .resume p | .send p | .ack p _ | .timer p | .cancel p _ | .crash p => some p

section Frame

variable {cfg : ℕ → Config} {a b : App} {p q node : ℕ} {action : Action}

theorem App.Acts.procs_of_ne (h : a.Acts q node action b) (hne : p ≠ q) :
    b.procs.get p = a.procs.get p := by
  cases h <;> simp [hne]

theorem App.Proceeds.procs_of_ne (h : a.Proceeds cfg q node action b) (hne : p ≠ q) :
    b.procs.get p = a.procs.get p := by
  cases h with
  | unguarded _ hacts => exact hacts.procs_of_ne hne
  | allowed _ _ hacts => exact hacts.procs_of_ne hne
  | refused _ _ _ hacts => exact hacts.procs_of_ne hne

/-- A step changes no process but the one that goes on. -/
theorem App.Moves.procs_of_ne {l : AppLabel} (h : a.Moves cfg l b) (hne : l.steers ≠ some p) :
    b.procs.get p = a.procs.get p := by
  have hother : ∀ {q}, l.steers = some q → p ≠ q := by
    rintro q hq rfl
    exact hne hq
  cases h with
  | tick hclock => rfl
  | exec hslot hsince hnow => rfl
  | spawn hnone hproceeds => exact hproceeds.procs_of_ne (hother rfl)
  | resume hproc hslot hresume hproceeds =>
    rw [hproceeds.procs_of_ne (hother rfl)]
    split_ifs <;> rfl
  | sent hproc _ hacts => exact hacts.procs_of_ne (hother rfl)
  | unsent hproc _ hproceeds => exact hproceeds.procs_of_ne (hother rfl)
  | acked hproc hproceeds => exact hproceeds.procs_of_ne (hother rfl)
  | rejected hproc hproceeds => exact hproceeds.procs_of_ne (hother rfl)
  | timer hproc _ hacts => exact hacts.procs_of_ne (hother rfl)
  | cancel hproc hproceeds => exact hproceeds.procs_of_ne (hother rfl)
  | crash hstore => simp [hother rfl]

end Frame

end ControlPlane

import ControlPlane.App.Admission
import ControlPlane.App.Publication
import ControlPlane.Config.Server
import ControlPlane.Http.Secure

/-!
# The goroutines of the nodes

`App` lets any process start on any node at any time. On a node, processes are started by
goroutines: one for each request that got a place in the channel `guard`, one for the loop of the
relay and one for the loop of the cleanup. `Stage.turn` is the code between two points at which
such a goroutine can be interrupted: taking a place of a channel without blocking, loading a flag,
starting a store operation, running a deferred function. A run of the service is a run of the
application in which processes start only where a goroutine starts them, and those that publish
only for requests that `handlePublishEvent` let through.
-/

namespace ControlPlane

open Transition

/-- The channels whose buffers count requests. -/
inductive Channel
  | guard
  | pubGuard
  | queryGuard
  deriving DecidableEq

/-- The size of the buffers that `New` makes. -/
def Settings.capacity (c : Settings) : Channel → ℤ
  | .guard => max 1 c.maxConcurrentRequests
  | .pubGuard => max 1 c.maxConcurrentPublishes
  | .queryGuard => max 1 c.maxConcurrentQueries

/-- What the goroutines of a node share: the number of values in each channel, the flag
`outboxPaused`, and whether the coordinator holds the leadership. -/
structure Host where
  taken : Channel → ℕ
  outboxPaused : Bool
  isLeader : Bool

namespace Host

variable (h : Host)

/-- Replace the number of values in a channel. -/
def setTaken (ch : Channel) (n : ℕ) : Host := { h with taken := Function.update h.taken ch n }

/-- A send to the channel if its buffer has room, by `acquireGuard` or in
`withConcurrencyLimit`. -/
def acquireGuard (c : Settings) (ch : Channel) : Option Host :=
  if (h.taken ch : ℤ) < c.capacity ch then some (h.setTaken ch (h.taken ch + 1)) else none

/-- A receive from the channel if its buffer has a value; the `default` case does nothing. -/
def releaseGuard (ch : Channel) : Host := h.setTaken ch (h.taken ch - 1)

/-- The receive `<-a.guard`, which blocks while the buffer is empty. -/
def receive (ch : Channel) : Option Host :=
  if 0 < h.taken ch then some (h.setTaken ch (h.taken ch - 1)) else none

end Host

/-- The handlers with a channel of their own. -/
def Handler.lane : Handler → Option Channel
  | .publishEvent => some .pubGuard
  | .listEvents => some .queryGuard
  | _ => none

/-- The kinds of processes. -/
inductive TaskKind
  | publish
  | relay
  | replay
  | cleanup
  | consume
  | recent
  | letters
  deriving DecidableEq

/-- The kind of process that a task starts. -/
def Task.kind : Task → TaskKind
  | .publish _ _ _ => .publish
  | .relay => .relay
  | .replay _ => .replay
  | .cleanup => .cleanup
  | .consume _ _ => .consume
  | .recent _ _ => .recent
  | .letters _ => .letters

/-- The processes that a handler starts. -/
def Handler.kind : Handler → Option TaskKind
  | .publishEvent => some .publish
  | .listEvents => some .recent
  | .deadLetters => some .letters
  | .replayDeadLetter => some .replay
  | .stream => some .consume
  | .leader | .methodNotAllowed | .outboxRelayAdmin => none

/-- Where a goroutine stands. A request was let in by `withConcurrencyLimit`, is in its handler,
has passed the check for the leadership in `handlePublishEvent`, is in its handler from the first
store operation or its refusal on, or has only the deferred receive of `withConcurrencyLimit` to
run. The loop of the relay waits for its ticker, has found that it is not paused, has found that it may go on
without the leadership or with it, or runs a batch. The loop of the cleanup waits or runs. -/
inductive Stage
  | entered
  | handling (handler : Handler)
  | cleared
  | serving (handler : Handler)
  | leaving
  | relayWaiting
  | relayUnpaused
  | relayCleared
  | relayBatch
  | cleanupWaiting
  | cleanupRunning
  deriving DecidableEq

namespace Stage

/-- The lane in which a request has a place. -/
def lane : Stage → Option Channel
  | handling handler | serving handler => handler.lane
  | cleared => some .pubGuard
  | _ => none

/-- The goroutine serves a request. -/
def isRequest : Stage → Bool
  | entered | handling _ | cleared | serving _ | leaving => true
  | _ => false

/-- The goroutine has a place in the channel. -/
def holds (ch : Channel) (stage : Stage) : Bool :=
  match ch with
  | .guard => stage.isRequest
  | ch => stage.lane == some ch

/-- The processes that the goroutine may have running. -/
def kind : Stage → Option TaskKind
  | serving handler => handler.kind
  | relayBatch => some .relay
  | cleanupRunning => some .cleanup
  | _ => none

end Stage

/-- How a goroutine goes on. A request to publish comes with the identifier that is drawn for its
event and the answer of the limiter of its subject. -/
inductive Move
  | route (handler : Handler)
  | check
  | publish (call : PublishCall) (newID : UUID) (subjectAllowed : Bool)
  | serve (task : Task)
  | setPaused (paused : Bool)
  | unwind
  | loop
  | stop
  deriving DecidableEq

/-- The deferred function of a handler, which leaves its lane. -/
def Host.leave (h : Host) : Option Channel → Host
  | none => h
  | some ch => h.releaseGuard ch

/-- The code of a goroutine up to the next point at which it can be interrupted: the shared state
of its node, where it then stands if it does not end, and the process that it starts. `coord` says
whether the node has a coordinator, `idle` whether the goroutine has no process running. -/
def Stage.turn (c : Settings) (coord : Bool) (h : Host) (idle : Bool) :
    Stage → Move → Option (Host × Option Stage × Option Task)
  -- A request enters the handler of its route; a lane without room refuses it.
  | .entered, .route handler =>
      match handler.lane with
      | none => some (h, some (.handling handler), none)
      | some ch =>
          match h.acquireGuard c ch with
          | some h => some (h, some (.handling handler), none)
          | none => some (h, some .leaving, none)
  -- `handlePublishEvent` rejects writes on a follower.
  | .handling .publishEvent, .check =>
      if c.requireLeaderForWrites && coord && !h.isLeader then
        some (h, some (.serving .publishEvent), none)
      else some (h, some .cleared, none)
  -- The rest of `handlePublishEvent` refuses the request or goes on to append its event.
  | .cleared, .publish call newID subjectAllowed =>
      match c.accept (fun _ => subjectAllowed) call with
      | .error _ => some (h, some (.serving .publishEvent), none)
      | .ok body => some (h, some (.serving .publishEvent), some (.publish body call.header newID))
  | .handling handler, .serve task =>
      if handler ≠ .publishEvent ∧ handler.kind = some task.kind then
        some (h, some (.serving handler), some task)
      else none
  -- `handleStream` handles one message after another.
  | .serving .stream, .serve task =>
      if task.kind = .consume ∧ idle then some (h, some (.serving .stream), some task) else none
  | .handling .outboxRelayAdmin, .setPaused paused =>
      some ({ h with outboxPaused := paused }, some (.serving .outboxRelayAdmin), none)
  -- The deferred functions run in reverse order, also after a panic.
  | .handling handler, .unwind => some (h.leave handler.lane, some .leaving, none)
  | .cleared, .unwind => some (h.releaseGuard .pubGuard, some .leaving, none)
  | .serving handler, .unwind =>
      if idle then some (h.leave handler.lane, some .leaving, none) else none
  | .entered, .unwind | .leaving, .unwind => (h.receive .guard).map fun h => (h, none, none)
  -- `runOutboxRelay`
  | .relayWaiting, .loop =>
      some (h, some (if h.outboxPaused then .relayWaiting else .relayUnpaused), none)
  | .relayUnpaused, .loop =>
      some (h, some (if coord && !h.isLeader then .relayWaiting else .relayCleared), none)
  | .relayCleared, .loop => some (h, some .relayBatch, some .relay)
  | .relayBatch, .loop => if idle then some (h, some .relayWaiting, none) else none
  -- `runCleanupLoop`
  | .cleanupWaiting, .loop => some (h, some .cleanupRunning, some .cleanup)
  | .cleanupRunning, .loop => if idle then some (h, some .cleanupWaiting, none) else none
  | .relayWaiting, .stop | .cleanupWaiting, .stop => some (h, none, none)
  | _, _ => none

/-- A goroutine of a node. -/
structure Goroutine where
  node : ℕ
  stage : Stage
  deriving DecidableEq

/-- The nodes: their configurations, and whether they have a coordinator. -/
structure Deployment where
  settings : ℕ → Settings
  coord : ℕ → Bool

/-- The part of the configurations that the processes read. -/
def Deployment.config (d : Deployment) : ℕ → Config := fun node => (d.settings node).toConfig

/-- The processes, what the nodes share among their goroutines, the goroutines, and the nodes
whose loops were started. -/
structure Service where
  app : App
  hosts : ℕ → Host
  goroutines : Clustered ℕ Goroutine
  started : ℕ → Bool

/-- The steps of the service: a step of a process, the start of the loops of a node, the arrival
of a request, the turn of a goroutine, and a change of the leadership. -/
inductive ServiceLabel
  | app (l : AppLabel)
  | start (p q node : ℕ)
  | arrive (p node : ℕ)
  | turn (p : ℕ) (move : Move)
  | lead (node : ℕ) (isLeader : Bool)
  deriving DecidableEq

/-- The step starts a process. -/
def AppLabel.isSpawn : AppLabel → Bool
  | .spawn _ _ _ => true
  | _ => false

namespace Service

/-- Nodes that are about to start. -/
def init (d : Deployment) (clock : Time) : Service where
  app := App.init d.config clock
  hosts := fun _ => ⟨fun _ => 0, false, false⟩
  goroutines := .empty
  started := fun _ => false

variable (s : Service)

/-- The number is not in use. -/
def Free (p : ℕ) : Prop := s.goroutines.get p = none ∧ s.app.procs.get p = none

instance (p : ℕ) : Decidable (s.Free p) := inferInstanceAs (Decidable (_ ∧ _))

/-- Goroutine `p` starts a process, if it has a task. -/
def launch (d : Deployment) (p node : ℕ) : Option Task → Option App
  | none => some s.app
  | some task => s.app.step d.config (.spawn p node task)

/-- Goroutine `p` stands at `stage`, or it has ended. -/
def move (p node : ℕ) (stage : Option Stage) : Clustered ℕ Goroutine :=
  match stage with
  | none => s.goroutines.erase p
  | some stage => s.goroutines.put p ⟨node, stage⟩

/-- One step of the service. -/
def step (d : Deployment) (s : Service) : ServiceLabel → Option Service
  | .app l => if l.isSpawn then none else (s.app.step d.config l).map fun app => { s with app }
  | .start p q node =>
      if s.started node = false ∧ p ≠ q ∧ s.Free p ∧ s.Free q then
        some { s with
          goroutines := (s.goroutines.put p ⟨node, .relayWaiting⟩).put q ⟨node, .cleanupWaiting⟩
          started := Function.update s.started node true }
      else none
  | .arrive p node =>
      if s.Free p then
        match (s.hosts node).acquireGuard (d.settings node) .guard with
        | some h => some { s with
            hosts := Function.update s.hosts node h
            goroutines := s.goroutines.put p ⟨node, .entered⟩ }
        | none => some s
      else none
  | .turn p move =>
      match s.goroutines.get p with
      | some ⟨node, stage⟩ =>
          (stage.turn (d.settings node) (d.coord node) (s.hosts node) (s.app.procs.get p).isNone
            move).bind fun (h, stage', task) =>
              (s.launch d p node task).map fun app =>
                { s with
                  app
                  hosts := Function.update s.hosts node h
                  goroutines := s.move p node stage' }
      | none => none
  | .lead node isLeader =>
      some { s with hosts := Function.update s.hosts node { s.hosts node with isLeader } }

/-- The states that runs of the service reach, all of whose steps satisfy `ok`. -/
def Reachable (d : Deployment) (ok : Service → ServiceLabel → Prop) : Prop :=
  ∃ clock, Run (Service.step d) ok (Service.init d clock) s

end Service

/-- Everything that a step of the service can do. -/
inductive Service.Moves (d : Deployment) (s : Service) : ServiceLabel → Service → Prop
  | app {l : AppLabel} {app : App} : l.isSpawn = false → s.app.step d.config l = some app →
      s.Moves d (.app l) { s with app }
  | start {p q node : ℕ} : s.started node = false → p ≠ q → s.Free p → s.Free q →
      s.Moves d (.start p q node) { s with
        goroutines := (s.goroutines.put p ⟨node, .relayWaiting⟩).put q ⟨node, .cleanupWaiting⟩
        started := Function.update s.started node true }
  | arrive {p node : ℕ} {h : Host} : s.Free p →
      (s.hosts node).acquireGuard (d.settings node) .guard = some h →
      s.Moves d (.arrive p node) { s with
        hosts := Function.update s.hosts node h
        goroutines := s.goroutines.put p ⟨node, .entered⟩ }
  | busy {p node : ℕ} : s.Free p →
      (s.hosts node).acquireGuard (d.settings node) .guard = none → s.Moves d (.arrive p node) s
  | turn {p node : ℕ} {stage : Stage} {move : Move} {h : Host} {stage' : Option Stage}
      {task : Option Task} {app : App} : s.goroutines.get p = some ⟨node, stage⟩ →
      stage.turn (d.settings node) (d.coord node) (s.hosts node) (s.app.procs.get p).isNone move =
        some (h, stage', task) →
      s.launch d p node task = some app →
      s.Moves d (.turn p move) { s with
        app
        hosts := Function.update s.hosts node h
        goroutines := s.move p node stage' }
  | lead {node : ℕ} {isLeader : Bool} : s.Moves d (.lead node isLeader)
      { s with hosts := Function.update s.hosts node { s.hosts node with isLeader } }

section Inversion

variable {d : Deployment} {s t : Service} {l : ServiceLabel}

/-- Inversion of the step function of the service. -/
theorem Service.step_moves (h : s.step d l = some t) : s.Moves d l t := by
  cases l with
  | app l =>
    simp only [Service.step] at h
    split_ifs at h with hspawn
    obtain ⟨app, happ, rfl⟩ := Option.map_eq_some_iff.mp h
    exact .app (by simpa using hspawn) happ
  | start p q node =>
    simp only [Service.step] at h
    split_ifs at h with hfree
    cases h
    exact .start hfree.1 hfree.2.1 hfree.2.2.1 hfree.2.2.2
  | arrive p node =>
    simp only [Service.step] at h
    split_ifs at h with hfree
    cases hacquire : (s.hosts node).acquireGuard (d.settings node) .guard with
    | none =>
      rw [hacquire] at h
      cases h
      exact .busy hfree hacquire
    | some host =>
      rw [hacquire] at h
      cases h
      exact .arrive hfree hacquire
  | turn p move =>
    simp only [Service.step] at h
    split at h
    · rename_i node stage hget
      obtain ⟨⟨host, stage', task⟩, hturn, h⟩ := Option.bind_eq_some_iff.mp h
      obtain ⟨app, happ, rfl⟩ := Option.map_eq_some_iff.mp h
      exact .turn hget hturn happ
    · cases h
  | lead node isLeader =>
    cases h
    exact .lead

/-- An invariant of the moves holds in every reachable state. -/
theorem Service.Reachable.invariant {ok : Service → ServiceLabel → Prop} {I : Service → Prop}
    (h : s.Reachable d ok) (hinit : ∀ clock, I (Service.init d clock))
    (hstep : ∀ a l b, I a → ok a l → a.Moves d l b → I b) : I s := by
  obtain ⟨clock, hrun⟩ := h
  refine hrun.invariant (hinit clock) ?_
  intro a l b ha hok hmove
  exact hstep a l b ha hok (Service.step_moves hmove)

end Inversion

/-- The kind of the request or batch for which an event is published. -/
def Job.kind : Job → TaskKind
  | .request _ => .publish
  | .relay _ _ => .relay

/-- The kind of a process. -/
def Pc.kind : Pc → TaskKind
  | .appending => .publish
  | .listing | .claiming _ _ => .relay
  | .publishing job _ | .sent job _ | .waiting job _ _ | .recording job _ | .marking job => job.kind
  | .replaying _ => .replay
  | .cleaning => .cleanup
  | .consuming _ _ => .consume
  | .querying => .recent
  | .browsing => .letters

/-- After the action the process is of kind `k` or has ended. -/
def Action.Keeps (k : TaskKind) : Action → Prop
  | .call _ pc | .goto pc => pc.kind = k
  | .finish _ => True

section Kinds

variable {cfg : ℕ → Config} {a b : App} {p node : ℕ} {k : TaskKind} {action : Action}

/-- The loop of a batch goes on with the batch. -/
theorem relayNext_keeps (c : Config) (events : List EventRecord) :
    (relayNext c events).Keeps .relay := by
  cases events with
  | nil => trivial
  | cons evt rest => rfl

/-- A job stays what it is after a failed attempt. -/
theorem Job.attemptFailed_keeps (c : Config) (now : Time) (job : Job) (attempt : Attempt)
    (err : String) : (job.attemptFailed c now attempt err).Keeps job.kind := by
  unfold Job.attemptFailed
  split_ifs
  · rfl
  · rfl

/-- A job stays what it is after its failure was recorded. -/
theorem Job.afterFailure_keeps (c : Config) (err : String) (quarantined : Bool) (retries : ℤ)
    (job : Job) : (job.afterFailure c err quarantined retries).Keeps job.kind := by
  cases job with
  | request result => trivial
  | relay evt rest => exact relayNext_keeps c rest

/-- A job stays what it is after its event was marked. -/
theorem Job.afterMark_keeps (c : Config) (marked : Bool) (job : Job) :
    (job.afterMark c marked).Keeps job.kind := by
  cases job with
  | request result => trivial
  | relay evt rest => exact relayNext_keeps c rest

/-- A process keeps its kind when its store operation returns. -/
theorem Pc.resume_keeps {c : Config} {pc : Pc} {r : Result} (h : pc.resume c r = some action) :
    action.Keeps pc.kind := by
  unfold Pc.resume at h
  split at h
  · split_ifs at h
    · cases h
      trivial
    · cases h
      rfl
  all_goals first
    | (cases h; trivial)
    | (cases h; exact relayNext_keeps _ _)
    | (cases h; exact Job.afterFailure_keeps _ _ _ _ _)
    | (cases h; exact Job.afterMark_keeps _ _ _)
    | cases h

/-- A task starts a process of its kind. -/
theorem Task.action_keeps (c : Config) (now : Time) (task : Task) :
    (task.action c now).Keeps task.kind := by
  cases task with
  | consume consumer messageID =>
    simp only [Task.action]
    split_ifs
    · trivial
    · rfl
  | _ => rfl

/-- An action that keeps a kind leaves a process of this kind. -/
theorem App.Acts.kind {proc : Process} (h : a.Acts p node action b) (hkeeps : action.Keeps k)
    (hproc : b.procs.get p = some proc) : proc.node = node ∧ proc.pc.kind = k := by
  cases h with
  | finish => simp at hproc
  | goto =>
    rw [Clustered.get_put, if_pos rfl, Option.some.injEq] at hproc
    subst hproc
    exact ⟨rfl, hkeeps⟩
  | call hidle hfresh =>
    rw [Clustered.get_put, if_pos rfl, Option.some.injEq] at hproc
    subst hproc
    exact ⟨rfl, hkeeps⟩

/-- So does an action that the store breaker lets through or refuses. -/
theorem App.Proceeds.kind {proc : Process} (h : a.Proceeds cfg p node action b)
    (hkeeps : action.Keeps k) (hproc : b.procs.get p = some proc) :
    proc.node = node ∧ proc.pc.kind = k := by
  cases h with
  | unguarded _ hacts => exact hacts.kind hkeeps hproc
  | allowed _ _ hacts => exact hacts.kind hkeeps hproc
  | refused _ _ hresume hacts =>
    have hkind := Pc.resume_keeps hresume
    rw [show Pc.kind _ = k from hkeeps] at hkind
    exact hacts.kind hkind hproc

/-- Processes keep their node and their kind; only a spawn makes new ones. -/
theorem App.Moves.kind {l : AppLabel} {proc : Process} (h : a.Moves cfg l b)
    (hproc : b.procs.get p = some proc) :
    (∃ pc, a.procs.get p = some ⟨proc.node, pc⟩ ∧ pc.kind = proc.pc.kind) ∨
      ∃ task, l = .spawn p proc.node task ∧ task.kind = proc.pc.kind := by
  by_cases hsteers : l.steers = some p
  · have hkept {node : ℕ} {pc : Pc} (hget : a.procs.get p = some ⟨node, pc⟩)
        (hsame : proc.node = node ∧ proc.pc.kind = pc.kind) :
        ∃ pc, a.procs.get p = some ⟨proc.node, pc⟩ ∧ pc.kind = proc.pc.kind :=
      ⟨pc, hsame.1 ▸ hget, hsame.2.symm⟩
    cases h with
    | tick hclock => cases hsteers
    | exec hslot hsince hnow => cases hsteers
    | spawn hnone hproceeds =>
      cases hsteers
      obtain ⟨rfl, hkind⟩ := hproceeds.kind (Task.action_keeps _ _ _) hproc
      exact .inr ⟨_, rfl, hkind.symm⟩
    | resume hget hslot hresume hproceeds =>
      cases hsteers
      exact .inl (hkept hget (hproceeds.kind (Pc.resume_keeps hresume) hproc))
    | sent hget _ hacts =>
      cases hsteers
      exact .inl (hkept hget (hacts.kind rfl hproc))
    | unsent hget _ hproceeds =>
      cases hsteers
      exact .inl (hkept hget (hproceeds.kind (Job.attemptFailed_keeps _ _ _ _ _) hproc))
    | acked hget hproceeds =>
      cases hsteers
      exact .inl (hkept hget (hproceeds.kind rfl hproc))
    | rejected hget hproceeds =>
      cases hsteers
      exact .inl (hkept hget (hproceeds.kind (Job.attemptFailed_keeps _ _ _ _ _) hproc))
    | timer hget _ hacts =>
      cases hsteers
      exact .inl (hkept hget (hacts.kind rfl hproc))
    | cancel hget hproceeds =>
      cases hsteers
      exact .inl (hkept hget (hproceeds.kind rfl hproc))
    | crash hstore =>
      cases hsteers
      simp at hproc
  · rw [h.procs_of_ne hsteers] at hproc
    exact .inl ⟨proc.pc, hproc, rfl⟩

end Kinds

/-- Every process was started by the goroutine of its number, which is on the same node and waits
for a process of its kind. -/
def Service.Attended (s : Service) : Prop :=
  ∀ p proc, s.app.procs.get p = some proc → ∃ stage,
    s.goroutines.get p = some ⟨proc.node, stage⟩ ∧ stage.kind = some proc.pc.kind

/-- What `Stage.turn` can do, by the point at which the goroutine is interrupted. -/
inductive Stage.Turns (c : Settings) (coord : Bool) (h : Host) (idle : Bool) :
    Stage → Move → Host → Option Stage → Option Task → Prop
  | enter {handler : Handler} : handler.lane = none →
      Turns c coord h idle .entered (.route handler) h (some (.handling handler)) none
  | acquire {handler : Handler} {ch : Channel} {h' : Host} : handler.lane = some ch →
      h.acquireGuard c ch = some h' →
      Turns c coord h idle .entered (.route handler) h' (some (.handling handler)) none
  | refuse {handler : Handler} {ch : Channel} : handler.lane = some ch →
      h.acquireGuard c ch = none →
      Turns c coord h idle .entered (.route handler) h (some .leaving) none
  | follower : (c.requireLeaderForWrites && coord && !h.isLeader) = true →
      Turns c coord h idle (.handling .publishEvent) .check h (some (.serving .publishEvent)) none
  | check : (c.requireLeaderForWrites && coord && !h.isLeader) = false →
      Turns c coord h idle (.handling .publishEvent) .check h (some .cleared) none
  | invalid {call : PublishCall} {newID : UUID} {subjectAllowed : Bool} {refusal : Refusal} :
      c.accept (fun _ => subjectAllowed) call = .error refusal →
      Turns c coord h idle .cleared (.publish call newID subjectAllowed) h
        (some (.serving .publishEvent)) none
  | publish {call : PublishCall} {newID : UUID} {subjectAllowed : Bool} {body : PublishRequest} :
      c.accept (fun _ => subjectAllowed) call = .ok body →
      Turns c coord h idle .cleared (.publish call newID subjectAllowed) h
        (some (.serving .publishEvent)) (some (.publish body call.header newID))
  | serve {handler : Handler} {task : Task} : handler ≠ .publishEvent →
      handler.kind = some task.kind →
      Turns c coord h idle (.handling handler) (.serve task) h (some (.serving handler)) (some task)
  | deliver {task : Task} : task.kind = .consume → idle = true →
      Turns c coord h idle (.serving .stream) (.serve task) h (some (.serving .stream)) (some task)
  | pause {paused : Bool} : Turns c coord h idle (.handling .outboxRelayAdmin) (.setPaused paused)
      { h with outboxPaused := paused } (some (.serving .outboxRelayAdmin)) none
  | finish {handler : Handler} : Turns c coord h idle (.handling handler) .unwind
      (h.leave handler.lane) (some .leaving) none
  | reject : Turns c coord h idle .cleared .unwind (h.releaseGuard .pubGuard) (some .leaving) none
  | answer {handler : Handler} : idle = true → Turns c coord h idle (.serving handler) .unwind
      (h.leave handler.lane) (some .leaving) none
  | leave {stage : Stage} {h' : Host} : (stage = .entered ∨ stage = .leaving) →
      h.receive .guard = some h' → Turns c coord h idle stage .unwind h' none none
  | paused : h.outboxPaused = true →
      Turns c coord h idle .relayWaiting .loop h (some .relayWaiting) none
  | unpaused : h.outboxPaused = false →
      Turns c coord h idle .relayWaiting .loop h (some .relayUnpaused) none
  | follows : (coord && !h.isLeader) = true →
      Turns c coord h idle .relayUnpaused .loop h (some .relayWaiting) none
  | leads : (coord && !h.isLeader) = false →
      Turns c coord h idle .relayUnpaused .loop h (some .relayCleared) none
  | batch : Turns c coord h idle .relayCleared .loop h (some .relayBatch) (some .relay)
  | batchDone : idle = true →
      Turns c coord h idle .relayBatch .loop h (some .relayWaiting) none
  | cleanup : Turns c coord h idle .cleanupWaiting .loop h (some .cleanupRunning) (some .cleanup)
  | cleanupDone : idle = true →
      Turns c coord h idle .cleanupRunning .loop h (some .cleanupWaiting) none
  | stop {stage : Stage} : (stage = .relayWaiting ∨ stage = .cleanupWaiting) →
      Turns c coord h idle stage .stop h none none

section Turns

variable {c : Settings} {coord : Bool} {h h' : Host} {idle : Bool} {stage : Stage} {move : Move}
  {stage' : Option Stage} {task : Option Task}

/-- Inversion of the code of a goroutine. -/
theorem Stage.turn_turns (hturn : stage.turn c coord h idle move = some (h', stage', task)) :
    stage.Turns c coord h idle move h' stage' task := by
  unfold Stage.turn at hturn
  split at hturn
  · rename_i handler
    cases hlane : handler.lane with
    | none =>
      rw [hlane] at hturn
      cases hturn
      exact .enter hlane
    | some ch =>
      cases hacquire : h.acquireGuard c ch with
      | none =>
        simp only [hlane, hacquire] at hturn
        cases hturn
        exact .refuse hlane hacquire
      | some host =>
        simp only [hlane, hacquire] at hturn
        cases hturn
        exact .acquire hlane hacquire
  · split_ifs at hturn with hfollower
    · cases hturn
      exact .follower hfollower
    · cases hturn
      exact .check (by simpa using hfollower)
  · rename_i call newID subjectAllowed
    cases haccept : c.accept (fun _ => subjectAllowed) call with
    | error refusal =>
      rw [haccept] at hturn
      cases hturn
      exact .invalid haccept
    | ok body =>
      rw [haccept] at hturn
      cases hturn
      exact .publish haccept
  · split_ifs at hturn with hkind
    cases hturn
    exact .serve hkind.1 hkind.2
  · split_ifs at hturn with hkind
    cases hturn
    exact .deliver hkind.1 hkind.2
  · cases hturn
    exact .pause
  · cases hturn
    exact .finish
  · cases hturn
    exact .reject
  · split_ifs at hturn with hidle
    cases hturn
    exact .answer hidle
  · obtain ⟨host, hreceive, heq⟩ := Option.map_eq_some_iff.mp hturn
    cases heq
    exact .leave (.inl rfl) hreceive
  · obtain ⟨host, hreceive, heq⟩ := Option.map_eq_some_iff.mp hturn
    cases heq
    exact .leave (.inr rfl) hreceive
  · cases hpaused : h.outboxPaused <;> simp only [hpaused] at hturn <;> cases hturn
    · exact .unpaused hpaused
    · exact .paused hpaused
  · cases hfollows : coord && !h.isLeader <;> simp only [hfollows] at hturn <;> cases hturn
    · exact .leads hfollows
    · exact .follows hfollows
  · cases hturn
    exact .batch
  · split_ifs at hturn with hidle
    cases hturn
    exact .batchDone hidle
  · cases hturn
    exact .cleanup
  · split_ifs at hturn with hidle
    cases hturn
    exact .cleanupDone hidle
  · cases hturn
    exact .stop (.inl rfl)
  · cases hturn
    exact .stop (.inr rfl)
  · cases hturn

/-- A goroutine goes on only when its process has ended. -/
theorem Stage.Turns.ended {k : TaskKind} (hturn : stage.Turns c coord h idle move h' stage' task)
    (hkind : stage.kind = some k) : idle = true := by
  cases hturn with
  | deliver _ hidle => exact hidle
  | answer hidle => exact hidle
  | batchDone hidle => exact hidle
  | cleanupDone hidle => exact hidle
  | leave hstage => rcases hstage with rfl | rfl <;> cases hkind
  | stop hstage => rcases hstage with rfl | rfl <;> cases hkind
  | _ => cases hkind

/-- A goroutine that starts a process waits for a process of that kind. -/
theorem Stage.Turns.starts {started : Task}
    (hturn : stage.Turns c coord h idle move h' stage' (some started)) :
    ∃ next, stage' = some next ∧ next.kind = some started.kind := by
  cases hturn with
  | publish haccept => exact ⟨_, rfl, rfl⟩
  | serve hne hkind => exact ⟨_, rfl, hkind⟩
  | deliver hkind hidle => exact ⟨_, rfl, congrArg some hkind.symm⟩
  | batch => exact ⟨_, rfl, rfl⟩
  | cleanup => exact ⟨_, rfl, rfl⟩

/-- A process that publishes is started for a request that passed the gate of its node. -/
theorem Stage.Turns.gated {started : Task} {settings : ℕ → Settings} {node : ℕ}
    (hturn : stage.Turns (settings node) coord h idle move h' stage' (some started)) (p : ℕ) :
    (AppLabel.spawn p node started).Gated settings := by
  have hother : started.kind ≠ .publish → (AppLabel.spawn p node started).Gated settings := by
    intro hkind
    cases started with
    | publish body header newID => exact absurd rfl hkind
    | _ => trivial
  cases hturn with
  | publish haccept => exact PassesGate.of_accept haccept
  | @serve handler _ hne hkind =>
    refine hother fun hpublish => ?_
    rw [hpublish] at hkind
    cases handler with
    | publishEvent => exact hne rfl
    | _ => cases hkind
  | deliver hkind _ => exact hother (by rw [hkind]; decide)
  | batch => trivial
  | cleanup => trivial

end Turns

section Attended

variable {d : Deployment} {s t : Service} {l : ServiceLabel}

/-- The turn of a goroutine moves no other. -/
theorem Service.get_move_of_ne {p q node : ℕ} {stage : Option Stage} (hne : p ≠ q) :
    (s.move q node stage).get p = s.goroutines.get p := by
  cases stage <;> simp [Service.move, hne]

/-- What the goroutines start, they attend to. -/
theorem Service.Attended.moves (h : s.Attended) (hmove : s.Moves d l t) : t.Attended := by
  cases hmove with
  | app hspawn happ =>
    intro p proc hproc
    rcases (App.step_moves happ).kind hproc with ⟨pc, hget, hkind⟩ | ⟨task, rfl, -⟩
    · obtain ⟨stage, hstage, hsame⟩ := h p _ hget
      exact ⟨stage, hstage, hsame.trans (congrArg some hkind)⟩
    · cases hspawn
  | start hstarted hne hp hq =>
    intro r proc hproc
    obtain ⟨stage, hstage, hkind⟩ := h r proc hproc
    have hrp : r ≠ _ := fun heq => by rw [heq, hp.1] at hstage; cases hstage
    have hrq : r ≠ _ := fun heq => by rw [heq, hq.1] at hstage; cases hstage
    refine ⟨stage, ?_, hkind⟩
    simp only [Clustered.get_put, if_neg hrp, if_neg hrq]
    exact hstage
  | arrive hfree hacquire =>
    intro r proc hproc
    obtain ⟨stage, hstage, hkind⟩ := h r proc hproc
    have hne : r ≠ _ := fun heq => by rw [heq, hfree.1] at hstage; cases hstage
    refine ⟨stage, ?_, hkind⟩
    simp only [Clustered.get_put, if_neg hne]
    exact hstage
  | busy hfree hacquire => exact h
  | turn hget hturn happ =>
    rename_i p node stage move host stage' task app
    have hturns := Stage.turn_turns hturn
    -- The goroutine has no process when its turn comes.
    have hidle : s.app.procs.get p = none := by
      cases hproc : s.app.procs.get p with
      | none => rfl
      | some proc =>
        obtain ⟨stage₀, hstage, hkind⟩ := h p proc hproc
        rw [hget, Option.some.injEq] at hstage
        cases hstage
        have hidle := hturns.ended hkind
        rw [hproc] at hidle
        cases hidle
    intro r proc hproc
    cases task with
    | none =>
      cases happ
      have hne : r ≠ p := fun heq => by rw [heq, hidle] at hproc; cases hproc
      obtain ⟨stage₀, hstage, hkind⟩ := h r proc hproc
      exact ⟨stage₀, by rw [Service.get_move_of_ne hne]; exact hstage, hkind⟩
    | some started =>
      have hspawn : s.app.step d.config (.spawn p node started) = some app := happ
      rcases (App.step_moves hspawn).kind hproc with ⟨pc, hold, hkind⟩ | ⟨task, heq, hkind⟩
      · have hne : r ≠ p := fun heq => by rw [heq, hidle] at hold; cases hold
        obtain ⟨stage₀, hstage, hsame⟩ := h r _ hold
        exact ⟨stage₀, by rw [Service.get_move_of_ne hne]; exact hstage,
          hsame.trans (congrArg some hkind)⟩
      · cases heq
        obtain ⟨next, rfl, hnext⟩ := hturns.starts
        exact ⟨next, by simp [Service.move], hnext.trans (congrArg some hkind)⟩
  | lead => exact h

/-- In every reachable state of the service the processes are attended to. -/
theorem Service.Reachable.attended {ok : Service → ServiceLabel → Prop} (h : s.Reachable d ok) :
    s.Attended := by
  refine h.invariant (I := Service.Attended) ?_ fun _ _ _ ha _ hmove => ha.moves hmove
  intro clock p proc hproc
  cases hproc

end Attended

section Gate

variable {d : Deployment} {s t : Service} {l : ServiceLabel}

/-- Each step of the service is a gated step of the application or leaves it alone. -/
theorem Service.Moves.app_step (h : s.Moves d l t) :
    t.app = s.app ∨ ∃ l', AppLabel.Gated d.settings l' ∧ s.app.step d.config l' = some t.app := by
  cases h with
  | @app l app hspawn happ =>
    refine .inr ⟨l, ?_, happ⟩
    cases l with
    | spawn p node task => cases hspawn
    | _ => trivial
  | turn hget hturn happ =>
    rename_i p node stage move host stage' task app
    cases task with
    | none =>
      cases happ
      exact .inl rfl
    | some task => exact .inr ⟨.spawn p node task, (Stage.turn_turns hturn).gated p, happ⟩
  | _ => exact .inl rfl

/-- A run of the service is a run of the application in which publish tasks are started only for
requests that passed the gate of their node. -/
theorem Service.Reachable.app {ok : Service → ServiceLabel → Prop} (h : s.Reachable d ok) :
    s.app.Reachable d.config fun _ l => l.Gated d.settings := by
  obtain ⟨clock, hrun⟩ := h
  have hsim : ∀ a l b c, c = Service.app a → ok a l → a.step d l = some b →
      ∃ c', Run (App.step d.config) (fun _ l => l.Gated d.settings) c c' ∧ c' = b.app := by
    rintro a l b c rfl - hstep
    refine ⟨b.app, ?_, rfl⟩
    rcases (Service.step_moves hstep).app_step with heq | ⟨l', hgated, hl'⟩
    · rw [heq]
      exact .refl _
    · exact (Run.refl _).snoc hgated hl'
  obtain ⟨c, hc, rfl⟩ := Run.simulate hsim hrun rfl
  exact ⟨clock, hc⟩

/-- Every event that the service appends or has inserted is that of a request that passed the gate
of a node. -/
theorem Service.Reachable.accepted {ok : Service → ServiceLabel → Prop} (h : s.Reachable d ok) :
    s.app.store.Admits (EventRecord.Accepted d.settings) := by
  refine h.app.invariant_moves (I := fun a => a.store.Admits (EventRecord.Accepted d.settings))
    ?_ ?_
  · intro clock
    constructor
    · intro p c ev hc
      cases hc
    · intro ev id hev
      cases hev
  · intro a l b _ ha hgated hmoves
    exact hmoves.accepts hgated ha

end Gate

end ControlPlane

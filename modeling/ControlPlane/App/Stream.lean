import ControlPlane.App.Inbox

/-!
# Streams of messages

`handleStream` subscribes to the bus and writes the messages that it receives to a stream
consumer, one after another. The bus may deliver messages in any order and any number of
times, to any number of loops on any number of nodes. The handling of one message is a
process of the application, so a run of the loops is a run of the application, and the
claims of the inbox bound what the loops write.
-/

namespace ControlPlane

open Transition

/-- A message that the bus hands to a subscriber. -/
structure BusMessage where
  subject : String
  messageID : String
  data : String
  receivedAt : Time
  deriving DecidableEq

/-- The body of an `event: message` frame. -/
structure Frame where
  subject : String
  messageId : String
  data : String
  ts : Time
  deriving DecidableEq

/-- The frame with which a message is written. -/
def BusMessage.frame (msg : BusMessage) : Frame :=
  ⟨msg.subject, msg.messageID, msg.data, msg.receivedAt⟩

/-- The loop of one `handleStream` request. `ch` buffers what the subscription delivers;
while the loop claims the message that it took last, `handling` holds the process of the
claim and the message. -/
structure StreamLoop where
  node : ℕ
  subject : String
  consumer : String
  ch : List BusMessage
  handling : Option (ℕ × BusMessage)
  deriving DecidableEq

/-- The number of messages that the channel of a loop holds. -/
def channelCapacity : ℕ := 128

/-- The loop of a request with the given query parameters. -/
def StreamLoop.ofQuery (cfg : Config) (node : ℕ) (subject consumer : String) : StreamLoop where
  node := node
  subject := if subject = "" then "events.>" else subject
  consumer := if consumer = "" then "sse:" ++ cfg.nodeID else consumer
  ch := []
  handling := none

/-- The subscription's callback: a message for which the channel has no room is dropped. -/
def StreamLoop.push (loop : StreamLoop) (msg : BusMessage) : StreamLoop :=
  if loop.ch.length < channelCapacity then { loop with ch := loop.ch ++ [msg] } else loop

/-- The application with its stream loops. `written` records every frame with the consumer
name of the loop that wrote it, the latest first. -/
structure Streams where
  app : App
  loops : Clustered ℕ StreamLoop
  written : List (String × Frame)

/-- The steps of the loops: a step of the rest of the application, the start of a request,
a delivery by the bus, taking a message from the channel, going on after the claim, and the
end of a loop. -/
inductive StreamLabel
  | app (l : AppLabel)
  | start (i node : ℕ) (subject consumer : String)
  | receive (i : ℕ) (msg : BusMessage)
  | take (i p : ℕ)
  | settle (i : ℕ)
  | stop (i : ℕ)
  deriving DecidableEq

/-- The step starts the handling of a message. -/
def AppLabel.consumes : AppLabel → Bool
  | .spawn _ _ (.consume _ _) => true
  | _ => false

namespace Streams

def init (cfg : ℕ → Config) (clock : Time) : Streams := ⟨App.init cfg clock, .empty, []⟩

variable (cfg : ℕ → Config) (s : Streams)

/-- Process `p` claims a message for some loop. -/
def handles (p : ℕ) : Bool := s.loops.rows.any fun row => row.2.handling.any fun h => h.1 == p

/-- A step of the application outside the loops. Only the loops handle messages. -/
def appStep (l : AppLabel) : Option Streams :=
  if l.consumes || l.steers.any s.handles then none
  else (s.app.step cfg l).map fun app => { s with app }

/-- A request starts its loop. A request for which there is no bus, no flusher or no
subscription is answered with an error and starts none. -/
def start (i node : ℕ) (subject consumer : String) : Option Streams :=
  match s.loops.get i with
  | none => some { s with
      loops := s.loops.put i (.ofQuery (cfg node) node subject consumer) }
  | some _ => none

/-- The bus delivers a message to a loop. -/
def receive (i : ℕ) (msg : BusMessage) : Option Streams :=
  (s.loops.get i).map fun loop => { s with loops := s.loops.put i (loop.push msg) }

/-- A loop takes a message from its channel. A message without an identifier is written at
once; otherwise the claim starts as process `p`, unless the store breaker refuses it. -/
def take (i p : ℕ) : Option Streams :=
  match s.loops.get i with
  | some ⟨node, subject, consumer, msg :: ch, none⟩ =>
      (s.app.step cfg (.spawn p node (.consume consumer msg.messageID))).map fun app =>
        if msg.messageID = "" then
          { app
            loops := s.loops.put i ⟨node, subject, consumer, ch, none⟩
            written := (consumer, msg.frame) :: s.written }
        else
          { s with
            app
            loops := s.loops.put i
              ⟨node, subject, consumer, ch, (app.procs.get p).map fun _ => (p, msg)⟩ }
  | _ => none

/-- A loop goes on after the claim returned: it writes the message if the claim was
applied, and skips it otherwise. -/
def settle (i : ℕ) : Option Streams :=
  match s.loops.get i with
  | some ⟨node, subject, consumer, ch, some (p, msg)⟩ =>
      match s.app.store.slots.get p with
      | some (.returned r) =>
          (s.app.step cfg (.resume p)).map fun app =>
            { app
              loops := s.loops.put i ⟨node, subject, consumer, ch, none⟩
              written := if r = .claimedInbox true then (consumer, msg.frame) :: s.written
                else s.written }
      | _ => none
  | _ => none

/-- A loop ends: its request is cancelled while it waits for a message, or its node
fails. -/
def stop (i : ℕ) : Option Streams :=
  match s.loops.get i with
  | some ⟨_, _, _, _, some (p, _)⟩ =>
      (s.app.step cfg (.crash p)).map fun app => { s with app, loops := s.loops.erase i }
  | some ⟨_, _, _, _, none⟩ => some { s with loops := s.loops.erase i }
  | none => none

/-- One step of the application and its loops. -/
def step (s : Streams) : StreamLabel → Option Streams
  | .app l => s.appStep cfg l
  | .start i node subject consumer => s.start cfg i node subject consumer
  | .receive i msg => s.receive i msg
  | .take i p => s.take cfg i p
  | .settle i => s.settle cfg i
  | .stop i => s.stop cfg i

/-- The states that runs of the loops reach. -/
def Reachable : Prop := ∃ clock, Run (step cfg) anyStep (init cfg clock) s

/-- The number of frames with this message identifier that were written, over all loops
with this consumer name. -/
def writtenTo (consumer messageID : String) : ℕ :=
  s.written.countP fun w => w.1 = consumer ∧ w.2.messageId = messageID

end Streams

section Application

variable {cfg : ℕ → Config} {a b : App} {p q node : ℕ} {action : Action}

/-- Frames are not taken back. -/
theorem App.Steps.frames_le {l : AppLabel} (h : a.Steps cfg l b) (consumer messageID : String) :
    a.frames consumer messageID ≤ b.frames consumer messageID := by
  obtain ⟨-, -, new, hnew, -⟩ := h.history
  unfold App.frames
  rw [hnew, List.count_append]
  exact Nat.le_add_left _ _

/-- A process that starts to handle a message claims it, or is refused and gone. -/
theorem App.spawn_consume {consumer messageID : String} (hid : messageID ≠ "")
    (h : a.step cfg (.spawn p node (.consume consumer messageID)) = some b) :
    a.procs.get p = none ∧ ∀ proc, b.procs.get p = some proc →
      proc = ⟨node, .consuming consumer messageID⟩ := by
  cases App.step_moves h with
  | spawn hnone hproceeds =>
    refine ⟨hnone, ?_⟩
    intro proc hproc
    simp only [Task.action, if_neg hid] at hproceeds
    cases hproceeds with
    | unguarded hguard _ => exact absurd (hguard _ _ rfl) (by simp [Pc.guarded])
    | allowed _ _ hacts =>
      cases hacts with
      | call _ _ => simpa using hproc.symm
    | refused _ _ hresume hacts =>
      cases hresume
      cases hacts with
      | finish => simp at hproc

/-- A process that learns the result of its claim ends, with a frame if the claim was
applied. -/
theorem App.resume_consuming {consumer messageID : String} {r : Result}
    (hproc : a.procs.get p = some ⟨node, .consuming consumer messageID⟩)
    (hslot : a.store.slots.get p = some (.returned r)) (h : a.step cfg (.resume p) = some b) :
    b.history = (if r = .claimedInbox true then [.delivered consumer messageID] else []) ++
      a.history := by
  simp only [App.step, hproc, hslot, Pc.guarded] at h
  split_ifs with hclaimed
  · subst hclaimed
    cases h
    rfl
  · have hresume : (Pc.consuming consumer messageID).resume (cfg node) r = some (.finish none) := by
      cases r with
      | claimedInbox applied =>
        cases applied with
        | true => exact absurd rfl hclaimed
        | false => rfl
      | _ => rfl
    rw [hresume] at h
    cases h
    rfl

end Application

/-- The process of a loop's claim, as the application must have it. -/
def StreamLoop.claim (loop : StreamLoop) : Option (ℕ × Process) :=
  loop.handling.map fun h => (h.1, ⟨loop.node, .consuming loop.consumer h.2.messageID⟩)

namespace Streams

/-- The process of the claim of loop `i`. -/
def claim (s : Streams) (i : ℕ) : Option (ℕ × Process) := (s.loops.get i).bind StreamLoop.claim

/-- The application runs the claims of the loops, each for one loop, and counts at least the
frames that the loops wrote. -/
structure Tracked (s : Streams) : Prop where
  claims : ∀ i p proc, s.claim i = some (p, proc) → s.app.procs.get p = some proc
  alone : ∀ i j p proc proc', s.claim i = some (p, proc) → s.claim j = some (p, proc') → i = j
  counted : ∀ consumer messageID, messageID ≠ "" →
    s.writtenTo consumer messageID ≤ s.app.frames consumer messageID

section Tracking

variable {cfg : ℕ → Config} {s s' : Streams} {i p : ℕ}

theorem handles_of_claim {proc : Process} (h : s.claim i = some (p, proc)) :
    s.handles p = true := by
  obtain ⟨loop, hloop, hclaim⟩ := Option.bind_eq_some_iff.mp h
  obtain ⟨⟨q, msg⟩, hhandling, heq⟩ := Option.map_eq_some_iff.mp hclaim
  cases heq
  refine List.any_eq_true.mpr ⟨(i, loop), Clustered.mem_rows.mpr hloop, ?_⟩
  simp [hhandling]

/-- A step that starts no claim and touches no process of a claim keeps the loops
tracked. -/
theorem Tracked.of_claims (h : s.Tracked)
    (hclaims : ∀ j q proc, s'.claim j = some (q, proc) →
      s.claim j = some (q, proc) ∧ s'.app.procs.get q = s.app.procs.get q)
    (hcounted : ∀ consumer messageID, messageID ≠ "" →
      s'.writtenTo consumer messageID ≤ s'.app.frames consumer messageID) : s'.Tracked := by
  refine ⟨?_, ?_, hcounted⟩
  · intro j q proc hj
    obtain ⟨hold, hprocs⟩ := hclaims j q proc hj
    rw [hprocs]
    exact h.claims j q proc hold
  · intro j k q proc proc' hj hk
    exact h.alone j k q proc proc' (hclaims j q proc hj).1 (hclaims k q proc' hk).1

/-- The claims after a loop was replaced. -/
theorem claim_put_cases {app : App} {written : List (String × Frame)} {loop : StreamLoop}
    {j : ℕ} {c : ℕ × Process} (h : claim ⟨app, s.loops.put i loop, written⟩ j = some c) :
    (j = i ∧ loop.claim = some c) ∨ (j ≠ i ∧ s.claim j = some c) := by
  obtain ⟨loop', hloop, hclaim⟩ := Option.bind_eq_some_iff.mp h
  rcases Clustered.get_put_cases hloop with ⟨rfl, rfl⟩ | ⟨hne, hloop⟩
  · exact Or.inl ⟨rfl, hclaim⟩
  · exact Or.inr ⟨hne, Option.bind_eq_some_iff.mpr ⟨loop', hloop, hclaim⟩⟩

theorem claim_erase_cases {app : App} {written : List (String × Frame)} {j : ℕ}
    {c : ℕ × Process} (h : claim ⟨app, s.loops.erase i, written⟩ j = some c) :
    j ≠ i ∧ s.claim j = some c := by
  obtain ⟨loop', hloop, hclaim⟩ := Option.bind_eq_some_iff.mp h
  obtain ⟨hne, hloop⟩ := Clustered.get_erase_cases hloop
  exact ⟨hne, Option.bind_eq_some_iff.mpr ⟨loop', hloop, hclaim⟩⟩

theorem Tracked.appStep {l : AppLabel} (h : s.Tracked) (hstep : s.appStep cfg l = some s') :
    s'.Tracked := by
  unfold Streams.appStep at hstep
  split_ifs at hstep with howned
  obtain ⟨app, happ, rfl⟩ := Option.map_eq_some_iff.mp hstep
  refine h.of_claims ?_ ?_
  · intro j q proc hj
    refine ⟨hj, (App.step_moves happ).procs_of_ne ?_⟩
    intro hsteers
    have hhandles : s.handles q = true := handles_of_claim hj
    simp [hsteers, hhandles] at howned
  · intro consumer messageID hid
    exact (h.counted consumer messageID hid).trans ((App.step_cases happ).frames_le _ _)

theorem Tracked.start {node : ℕ} {subject consumer : String} (h : s.Tracked)
    (hstep : s.start cfg i node subject consumer = some s') : s'.Tracked := by
  unfold Streams.start at hstep
  split at hstep
  · cases hstep
    refine h.of_claims ?_ h.counted
    intro j q proc hj
    rcases claim_put_cases hj with ⟨-, hnew⟩ | ⟨-, hold⟩
    · cases hnew
    · exact ⟨hold, rfl⟩
  · cases hstep

theorem Tracked.receive {msg : BusMessage} (h : s.Tracked)
    (hstep : s.receive i msg = some s') : s'.Tracked := by
  obtain ⟨loop, hloop, rfl⟩ := Option.map_eq_some_iff.mp hstep
  have hpush : (loop.push msg).claim = loop.claim := by
    unfold StreamLoop.push
    split_ifs <;> rfl
  refine h.of_claims ?_ h.counted
  intro j q proc hj
  refine ⟨?_, rfl⟩
  rcases claim_put_cases hj with ⟨rfl, hnew⟩ | ⟨-, hold⟩
  · exact Option.bind_eq_some_iff.mpr ⟨loop, hloop, hpush ▸ hnew⟩
  · exact hold

/-- The claims of the loops do not notice that a further process was started. -/
theorem Tracked.claims_of_spawn {app : App} {node : ℕ} {task : Task} (h : s.Tracked)
    (happ : s.app.step cfg (.spawn p node task) = some app) (j q : ℕ) (proc : Process)
    (hj : s.claim j = some (q, proc)) : q ≠ p ∧ app.procs.get q = s.app.procs.get q := by
  have hmoves := App.step_moves happ
  have hfree : s.app.procs.get p = none := by
    cases hmoves with
    | spawn hnone _ => exact hnone
  have hne : q ≠ p := by
    rintro rfl
    have hq := h.claims j q proc hj
    rw [hfree] at hq
    cases hq
  exact ⟨hne, hmoves.procs_of_ne fun hsteers => hne (Option.some.inj hsteers).symm⟩

/-- The claim that a loop started by taking a message with an identifier is run by the new
process. -/
theorem claim_of_spawn {app : App} {node : ℕ} {subject consumer : String} {msg : BusMessage}
    {ch : List BusMessage} (hid : msg.messageID ≠ "")
    (happ : s.app.step cfg (.spawn p node (.consume consumer msg.messageID)) = some app) (q : ℕ)
    (proc : Process)
    (h : StreamLoop.claim ⟨node, subject, consumer, ch,
      (app.procs.get p).map fun _ => (p, msg)⟩ = some (q, proc)) :
    q = p ∧ app.procs.get q = some proc := by
  have hspawn := (App.spawn_consume hid happ).2
  cases hproc : app.procs.get p with
  | none => simp [StreamLoop.claim, hproc] at h
  | some proc' =>
    simp only [StreamLoop.claim, hproc, Option.map_some, Option.some.injEq, Prod.mk.injEq] at h
    obtain ⟨rfl, rfl⟩ := h
    exact ⟨rfl, by rw [hproc, hspawn proc' hproc]⟩

/-- Replacing a loop keeps the loops tracked if its claim, if any, is run by a process of its
own. -/
theorem Tracked.put {app : App} {loop : StreamLoop} {written : List (String × Frame)}
    (h : s.Tracked)
    (hkept : ∀ j q proc, s.claim j = some (q, proc) →
      q ≠ p ∧ app.procs.get q = s.app.procs.get q)
    (hclaim : ∀ q proc, loop.claim = some (q, proc) → q = p ∧ app.procs.get q = some proc)
    (hcounted : ∀ consumer messageID, messageID ≠ "" →
      writtenTo ⟨app, s.loops.put i loop, written⟩ consumer messageID ≤
        app.frames consumer messageID) : Tracked ⟨app, s.loops.put i loop, written⟩ := by
  refine ⟨?_, ?_, hcounted⟩
  · intro j q proc hj
    rcases claim_put_cases hj with ⟨-, hnew⟩ | ⟨-, hold⟩
    · exact (hclaim q proc hnew).2
    · exact (hkept j q proc hold).2.trans (h.claims j q proc hold)
  · intro j k q proc proc' hj hk
    rcases claim_put_cases hj with ⟨rfl, hnew⟩ | ⟨-, hold⟩
    · rcases claim_put_cases hk with ⟨rfl, -⟩ | ⟨-, hold'⟩
      · rfl
      · exact absurd (hclaim q proc hnew).1 (hkept k q proc' hold').1
    · rcases claim_put_cases hk with ⟨-, hnew'⟩ | ⟨-, hold'⟩
      · exact absurd (hclaim q proc' hnew').1 (hkept j q proc hold).1
      · exact h.alone j k q proc proc' hold hold'

/-- Taking a message writes it only if it has no identifier, and starts a claim by a process
of its own. -/
theorem Tracked.take (h : s.Tracked) (hstep : s.take cfg i p = some s') : s'.Tracked := by
  unfold Streams.take at hstep
  split at hstep
  case h_2 => cases hstep
  case h_1 node subject consumer msg ch hloop =>
    obtain ⟨app, happ, rfl⟩ := Option.map_eq_some_iff.mp hstep
    have hframes := (App.step_cases happ).frames_le
    have hkept := h.claims_of_spawn happ
    split_ifs with hid
    · refine h.put hkept (fun q proc hnew => by cases hnew) ?_
      intro consumer' messageID hid'
      have hother : msg.frame.messageId ≠ messageID := fun heq => hid' (heq ▸ hid)
      have hwritten : (s.written.countP fun w => w.1 = consumer' ∧ w.2.messageId = messageID) ≤
          app.frames consumer' messageID := (h.counted _ _ hid').trans (hframes _ _)
      simpa [writtenTo, List.countP_cons, hother] using hwritten
    · refine h.put hkept (claim_of_spawn hid happ) ?_
      intro consumer' messageID hid'
      exact (h.counted consumer' messageID hid').trans (hframes _ _)

/-- The other loops' claims do not notice that the claim of loop `i` went on. -/
theorem Tracked.claims_of_ne {app : App} {l : AppLabel} {proc : Process} (h : s.Tracked)
    (hclaim : s.claim i = some (p, proc)) (happ : s.app.step cfg l = some app)
    (hsteers : l.steers = some p) {j q : ℕ} {proc' : Process} (hne : j ≠ i)
    (hj : s.claim j = some (q, proc')) : app.procs.get q = s.app.procs.get q := by
  refine (App.step_moves happ).procs_of_ne ?_
  intro heq
  rw [hsteers, Option.some.injEq] at heq
  subst heq
  exact hne (h.alone j i p proc' proc hj hclaim)

/-- A loop writes the message that it claimed exactly when the claim was applied. -/
theorem Tracked.settle (h : s.Tracked) (hstep : s.settle cfg i = some s') : s'.Tracked := by
  unfold Streams.settle at hstep
  split at hstep
  case h_2 => cases hstep
  case h_1 node subject consumer ch p msg hloop =>
    split at hstep
    case h_2 => cases hstep
    case h_1 r hslot =>
      obtain ⟨app, happ, rfl⟩ := Option.map_eq_some_iff.mp hstep
      have hclaim : s.claim i = some (p, ⟨node, .consuming consumer msg.messageID⟩) :=
        Option.bind_eq_some_iff.mpr ⟨_, hloop, rfl⟩
      have hhistory := App.resume_consuming (h.claims i p _ hclaim) hslot happ
      refine h.of_claims ?_ ?_
      · intro j q proc hj
        rcases claim_put_cases hj with ⟨-, hnew⟩ | ⟨hne, hold⟩
        · cases hnew
        · exact ⟨hold, h.claims_of_ne hclaim happ rfl hne hold⟩
      · intro consumer' messageID hid
        have hcounted := h.counted consumer' messageID hid
        unfold writtenTo App.frames at hcounted ⊢
        rw [hhistory]
        split_ifs with hr
        · -- The loop's frame and the application's occurrence name the same message.
          have hsame : (Occurrence.delivered consumer msg.messageID ==
              .delivered consumer' messageID) =
              decide (consumer = consumer' ∧ msg.frame.messageId = messageID) := by
            rw [beq_eq_decide, decide_eq_decide, Occurrence.delivered.injEq]
            rfl
          rw [List.singleton_append, List.countP_cons, List.count_cons, hsame]
          exact Nat.add_le_add_right hcounted _
        · exact hcounted

theorem Tracked.stop (h : s.Tracked) (hstep : s.stop cfg i = some s') : s'.Tracked := by
  unfold Streams.stop at hstep
  split at hstep
  case h_1 node subject consumer ch p msg hloop =>
    obtain ⟨app, happ, rfl⟩ := Option.map_eq_some_iff.mp hstep
    have hclaim : s.claim i = some (p, ⟨node, .consuming consumer msg.messageID⟩) :=
      Option.bind_eq_some_iff.mpr ⟨_, hloop, rfl⟩
    refine h.of_claims ?_ ?_
    · intro j q proc hj
      obtain ⟨hne, hold⟩ := claim_erase_cases hj
      exact ⟨hold, h.claims_of_ne hclaim happ rfl hne hold⟩
    · intro consumer' messageID hid
      exact (h.counted consumer' messageID hid).trans ((App.step_cases happ).frames_le _ _)
  case h_2 hloop =>
    cases hstep
    refine h.of_claims ?_ h.counted
    exact fun j q proc hj => ⟨(claim_erase_cases hj).2, rfl⟩
  case h_3 => cases hstep

theorem Tracked.step {l : StreamLabel} (h : s.Tracked) (hstep : s.step cfg l = some s') :
    s'.Tracked := by
  cases l with
  | app l => exact h.appStep hstep
  | start i node subject consumer => exact h.start hstep
  | receive i msg => exact h.receive hstep
  | take i p => exact h.take hstep
  | settle i => exact h.settle hstep
  | stop i => exact h.stop hstep

/-- A step of the loops is a step of the application, or leaves it alone. -/
theorem step_app {l : StreamLabel} (hstep : s.step cfg l = some s') :
    s'.app = s.app ∨ ∃ l', s.app.step cfg l' = some s'.app := by
  cases l with
  | app l =>
    simp only [Streams.step, Streams.appStep] at hstep
    split_ifs at hstep
    obtain ⟨app, happ, rfl⟩ := Option.map_eq_some_iff.mp hstep
    exact Or.inr ⟨_, happ⟩
  | start i node subject consumer =>
    simp only [Streams.step, Streams.start] at hstep
    split at hstep <;> cases hstep
    exact Or.inl rfl
  | receive i msg =>
    obtain ⟨loop, hloop, rfl⟩ := Option.map_eq_some_iff.mp hstep
    exact Or.inl rfl
  | take i p =>
    simp only [Streams.step, Streams.take] at hstep
    split at hstep
    · obtain ⟨app, happ, rfl⟩ := Option.map_eq_some_iff.mp hstep
      refine Or.inr ⟨_, happ.trans (congrArg some ?_)⟩
      split_ifs <;> rfl
    · cases hstep
  | settle i =>
    simp only [Streams.step, Streams.settle] at hstep
    split at hstep
    · split at hstep
      · obtain ⟨app, happ, rfl⟩ := Option.map_eq_some_iff.mp hstep
        exact Or.inr ⟨_, happ⟩
      · cases hstep
    · cases hstep
  | stop i =>
    simp only [Streams.step, Streams.stop] at hstep
    split at hstep
    · obtain ⟨app, happ, rfl⟩ := Option.map_eq_some_iff.mp hstep
      exact Or.inr ⟨_, happ⟩
    · cases hstep
      exact Or.inl rfl
    · cases hstep

end Tracking

section Reachable

variable {cfg : ℕ → Config} {s : Streams}

/-- The application under the loops is in a state that it reaches by itself. -/
theorem Reachable.app (h : s.Reachable cfg) : s.app.Reachable cfg anyStep := by
  obtain ⟨clock, hrun⟩ := h
  have hsim : ∀ s l s' a, a = Streams.app s → anyStep s l → s.step cfg l = some s' →
      ∃ a', Run (App.step cfg) anyStep a a' ∧ a' = s'.app := by
    rintro s l s' a rfl - hstep
    refine ⟨s'.app, ?_, rfl⟩
    rcases step_app hstep with heq | ⟨l', happ⟩
    · rw [heq]
      exact .refl _
    · exact (Run.refl _).snoc trivial happ
  obtain ⟨a, hrun', rfl⟩ := hrun.simulate hsim rfl
  exact ⟨clock, hrun'⟩

theorem Reachable.tracked (h : s.Reachable cfg) : s.Tracked := by
  obtain ⟨clock, hrun⟩ := h
  refine hrun.invariant ?_ fun s l s' hs _ hstep => hs.step hstep
  refine ⟨?_, ?_, ?_⟩
  · intro i p proc hi
    cases hi
  · intro i j p proc proc' hi
    cases hi
  · exact fun consumer messageID _ => le_rfl

end Reachable

end Streams

/-- Over all loops with a consumer name, at most one frame is written for each message
identifier, whatever the bus delivers and however the claims end. -/
theorem message_written_once {cfg : ℕ → Config} {s : Streams} (h : s.Reachable cfg)
    {consumer messageID : String} (hid : messageID ≠ "") :
    s.writtenTo consumer messageID ≤ 1 :=
  (h.tracked.counted consumer messageID hid).trans (h.app.exclusive hid).once

/-- A message as the bus delivers it to the loops of the audit consumer. -/
def auditMessage : BusMessage := ⟨"events.orders", "7f3c", "\x7b\x7d", 5000000⟩

/-- Two loops on different nodes use one consumer name. The message is delivered to both and
redelivered to the first; the claims overlap, and one frame is written. -/
theorem message_written_once_audit : ∃ s : Streams, s.Reachable (fun _ => strictConfig) ∧
    s.loops.get 0 = some ⟨0, "events.>", "audit", [], none⟩ ∧
    s.loops.get 1 = some ⟨1, "events.>", "audit", [], none⟩ ∧ "7f3c" ≠ "" ∧
    s.writtenTo "audit" "7f3c" = 1 ∧ s.writtenTo "audit" "7f3c" ≤ 1 := by
  have hplay : (play (Streams.step fun _ => strictConfig) (fun _ _ => true)
      (Streams.init (fun _ => strictConfig) 5000000)
      [.start 0 0 "" "audit", .start 1 1 "" "audit", .receive 0 auditMessage,
        .receive 1 auditMessage, .receive 0 auditMessage, .take 0 0, .take 1 1,
        .app (.exec 1 .ok { now := 5000000 }), .app (.exec 0 .ok { now := 5000000, scan := .row }),
        .settle 0, .settle 1, .take 0 2, .app (.exec 2 .ok { now := 5000000, scan := .row }),
        .settle 0]).any (fun s : Streams => decide (s.writtenTo "audit" "7f3c" = 1) &&
          (decide (s.loops.get 0 = some ⟨0, "events.>", "audit", [], none⟩) &&
          decide (s.loops.get 1 = some ⟨1, "events.>", "audit", [], none⟩))) = true := by decide
  obtain ⟨s, hrun, htest⟩ := Run.exists_of_play (fun _ _ _ => trivial) hplay
  simp only [Bool.and_eq_true, decide_eq_true_eq] at htest
  have hreach : s.Reachable fun _ => strictConfig := ⟨5000000, hrun⟩
  have hid : "7f3c" ≠ "" := by decide
  exact ⟨s, hreach, htest.2.1, htest.2.2, hid, htest.1, message_written_once hreach hid⟩

end ControlPlane

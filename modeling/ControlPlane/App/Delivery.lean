import Mathlib.Algebra.Order.BigOperators.Group.List
import ControlPlane.App.StreamText
import ControlPlane.App.Admission
import ControlPlane.App.Soundness

/-!
# From a request to the clients of the streams

The pieces of the system are put together: a request passes the gate of a node, its event is
stored and published, the broker hands the published message to stream loops, in any order and
any number of times, and the loops write frames to their responses. A log records for each
response what the broker delivered to it and what was written to it. Whatever the broker delivers,
a response holds frames in the order of its deliveries, and responses with one consumer name share
at most one frame for each message. If the broker delivers only what was published, every frame is
that of a stored event whose request passed a gate.
-/

namespace ControlPlane

open Transition EventStream

section Wire

/-- A message on the wire; `msgID` is its header `Nats-Msg-Id`. -/
structure NatsMsg where
  subject : String
  data : String
  msgID : Option String
  deriving DecidableEq

/-- The metadata that a JetStream consumer attaches to a message. -/
structure MsgMetadata where
  stream : String
  streamSeq : ℕ
  consumerSeq : ℕ
  deriving DecidableEq

/-- The message that `Publish` hands to the broker. -/
def natsMsg (subject data messageID : String) : NatsMsg where
  subject := subject
  data := data
  msgID := if messageID = "" then none else some messageID

/-- The message that the callback of `Subscribe` passes on. -/
def NatsMsg.received (msg : NatsMsg) (metadata : Option MsgMetadata) (now : Time) : BusMessage where
  subject := msg.subject
  messageID :=
    let messageID := msg.msgID.getD ""
    if messageID = "" then
      match metadata with
      | some m => m.stream ++ ":" ++ toString m.streamSeq ++ ":" ++ toString m.consumerSeq
      | none => ""
    else messageID
  data := msg.data
  receivedAt := now

/-- The message of the application on the wire; `idText` is how the driver writes an
identifier. -/
def Message.wire (idText : UUID → String) (m : Message) : NatsMsg :=
  natsMsg m.subject m.data (idText m.messageID)

/-- A message arrives with the identifier, the subject and the data with which it was
published. -/
theorem Message.received_wire {idText : UUID → String} (m : Message)
    (hid : idText m.messageID ≠ "") (metadata : Option MsgMetadata) (now : Time) :
    (m.wire idText).received metadata now = ⟨m.subject, idText m.messageID, m.data, now⟩ := by
  simp [Message.wire, natsMsg, NatsMsg.received, hid]

end Wire

/-- What happens to the response of a loop. -/
inductive StreamEntry
  | opened (i : ℕ) (consumer : String)
  | received (i : ℕ) (msg : BusMessage)
  | wrote (i : ℕ) (consumer : String) (frame : Frame)
  deriving DecidableEq

namespace StreamEntry

/-- The frame that the entry adds to response `i`. -/
def frame? (i : ℕ) : StreamEntry → Option Frame
  | .wrote j _ f => if j = i then some f else none
  | _ => none

/-- The message that the entry delivers to loop `i`. -/
def message? (i : ℕ) : StreamEntry → Option BusMessage
  | .received j msg => if j = i then some msg else none
  | _ => none

/-- The frame that the entry writes, with the consumer of its loop. -/
def written? : StreamEntry → Option (String × Frame)
  | .wrote _ consumer f => some (consumer, f)
  | _ => none

end StreamEntry

/-- The log of the responses, the latest entry first. -/
abbrev StreamLog := List StreamEntry

namespace StreamLog

variable (log : StreamLog) (i : ℕ)

/-- The frames of response `i` in the order in which they were written. -/
def frames : List Frame := (log.filterMap (StreamEntry.frame? i)).reverse

/-- The messages that the broker delivered to loop `i`, in their order. -/
def deliveries : List BusMessage := (log.filterMap (StreamEntry.message? i)).reverse

/-- The text of response `i`. -/
def body (formatTime : Time → Option String) : List Char :=
  (log.frames i).flatMap (Frame.text formatTime)

theorem frames_append (new : StreamLog) :
    frames (new ++ log) i = log.frames i ++ new.frames i := by
  simp [frames]

theorem deliveries_append (new : StreamLog) :
    deliveries (new ++ log) i = log.deliveries i ++ new.deliveries i := by
  simp [deliveries]

variable {log i}

theorem mem_deliveries {msg : BusMessage} : msg ∈ log.deliveries i ↔ .received i msg ∈ log := by
  simp only [deliveries, List.mem_reverse, List.mem_filterMap]
  constructor
  · rintro ⟨e, he, hmsg⟩
    cases e with
    | received j msg' =>
      simp only [StreamEntry.message?] at hmsg
      split_ifs at hmsg with hj
      cases hmsg
      exact hj ▸ he
    | _ => cases hmsg
  · intro he
    exact ⟨_, he, by simp [StreamEntry.message?]⟩

end StreamLog

namespace Streams

/-- What a step adds to the log. -/
def entries (cfg : ℕ → Config) (s : Streams) : StreamLabel → StreamLog
  | .start i node subject consumer =>
      [.opened i (StreamLoop.ofQuery (cfg node) node subject consumer).consumer]
  | .receive i msg => [.received i msg]
  | .take i _ =>
      match s.loops.get i with
      | some ⟨_, _, consumer, msg :: _, none⟩ =>
          if msg.messageID = "" then [.wrote i consumer msg.frame] else []
      | _ => []
  | .settle i =>
      match s.loops.get i with
      | some ⟨_, _, consumer, _, some (p, msg)⟩ =>
          if s.app.store.slots.get p = some (.returned (.claimedInbox true)) then
            [.wrote i consumer msg.frame]
          else []
      | _ => []
  | .app _ | .stop _ => []

/-- Everything that a step of the loops can do. -/
inductive Turns (cfg : ℕ → Config) (s : Streams) : StreamLabel → Streams → Prop
  | app {l : AppLabel} {app : App} : s.app.step cfg l = some app →
      Turns cfg s (.app l) { s with app }
  | start {i node : ℕ} {subject consumer : String} : s.loops.get i = none →
      Turns cfg s (.start i node subject consumer)
        { s with loops := s.loops.put i (.ofQuery (cfg node) node subject consumer) }
  | receive {i : ℕ} {msg : BusMessage} {loop : StreamLoop} : s.loops.get i = some loop →
      Turns cfg s (.receive i msg) { s with loops := s.loops.put i (loop.push msg) }
  | takeUnnamed {i p node : ℕ} {subject consumer : String} {msg : BusMessage}
      {ch : List BusMessage} {app : App} :
      s.loops.get i = some ⟨node, subject, consumer, msg :: ch, none⟩ → msg.messageID = "" →
      s.app.step cfg (.spawn p node (.consume consumer msg.messageID)) = some app →
      Turns cfg s (.take i p)
        ⟨app, s.loops.put i ⟨node, subject, consumer, ch, none⟩, (consumer, msg.frame) :: s.written⟩
  | take {i p node : ℕ} {subject consumer : String} {msg : BusMessage} {ch : List BusMessage}
      {app : App} :
      s.loops.get i = some ⟨node, subject, consumer, msg :: ch, none⟩ → msg.messageID ≠ "" →
      s.app.step cfg (.spawn p node (.consume consumer msg.messageID)) = some app →
      Turns cfg s (.take i p) { s with
        app
        loops := s.loops.put i
          ⟨node, subject, consumer, ch, (app.procs.get p).map fun _ => (p, msg)⟩ }
  | write {i p node : ℕ} {subject consumer : String} {msg : BusMessage} {ch : List BusMessage}
      {app : App} : s.loops.get i = some ⟨node, subject, consumer, ch, some (p, msg)⟩ →
      s.app.store.slots.get p = some (.returned (.claimedInbox true)) →
      s.app.step cfg (.resume p) = some app →
      Turns cfg s (.settle i)
        ⟨app, s.loops.put i ⟨node, subject, consumer, ch, none⟩, (consumer, msg.frame) :: s.written⟩
  | skip {i p node : ℕ} {subject consumer : String} {msg : BusMessage} {ch : List BusMessage}
      {app : App} : s.loops.get i = some ⟨node, subject, consumer, ch, some (p, msg)⟩ →
      s.app.store.slots.get p ≠ some (.returned (.claimedInbox true)) →
      s.app.step cfg (.resume p) = some app →
      Turns cfg s (.settle i)
        { s with app, loops := s.loops.put i ⟨node, subject, consumer, ch, none⟩ }
  | stop {i p : ℕ} {app : App} : (app = s.app ∨ s.app.step cfg (.crash p) = some app) →
      Turns cfg s (.stop i) { s with app, loops := s.loops.erase i }

section Inversion

variable {cfg : ℕ → Config} {s s' : Streams} {l : StreamLabel}

/-- Inversion of the step function. -/
theorem step_turns (h : s.step cfg l = some s') : s.Turns cfg l s' := by
  cases l with
  | app l =>
    simp only [Streams.step, Streams.appStep] at h
    split_ifs at h
    obtain ⟨app, happ, rfl⟩ := Option.map_eq_some_iff.mp h
    exact .app happ
  | start i node subject consumer =>
    simp only [Streams.step, Streams.start] at h
    split at h
    · cases h
      exact .start (by assumption)
    · cases h
  | receive i msg =>
    obtain ⟨loop, hloop, rfl⟩ := Option.map_eq_some_iff.mp h
    exact .receive hloop
  | take i p =>
    simp only [Streams.step, Streams.take] at h
    split at h
    · rename_i hloop
      obtain ⟨app, happ, rfl⟩ := Option.map_eq_some_iff.mp h
      split_ifs with hid
      · exact .takeUnnamed hloop hid happ
      · exact .take hloop hid happ
    · cases h
  | settle i =>
    simp only [Streams.step, Streams.settle] at h
    split at h
    · rename_i hloop
      split at h
      · rename_i r hslot
        obtain ⟨app, happ, rfl⟩ := Option.map_eq_some_iff.mp h
        split_ifs with hr
        · exact .write hloop (hr ▸ hslot) happ
        · refine .skip hloop ?_ happ
          rw [hslot]
          simpa using hr
      · cases h
    · cases h
  | stop i =>
    simp only [Streams.step, Streams.stop] at h
    split at h
    · obtain ⟨app, happ, rfl⟩ := Option.map_eq_some_iff.mp h
      exact .stop (Or.inr happ)
    · cases h
      exact .stop (p := 0) (Or.inl rfl)
    · cases h

/-- A step of the loops is a step of the application, or leaves it alone. Outside of the
steps of the application itself it starts nothing but claims. -/
theorem Turns.app_cases (h : s.Turns cfg l s') : s'.app = s.app ∨
    ∃ l', s.app.step cfg l' = some s'.app ∧
      (l = .app l' ∨ ∀ settings, l'.Gated settings) := by
  cases h with
  | app happ => exact Or.inr ⟨_, happ, Or.inl rfl⟩
  | start hnone => exact Or.inl rfl
  | receive hloop => exact Or.inl rfl
  | takeUnnamed hloop hid happ => exact Or.inr ⟨_, happ, Or.inr fun _ => trivial⟩
  | take hloop hid happ => exact Or.inr ⟨_, happ, Or.inr fun _ => trivial⟩
  | write hloop hslot happ => exact Or.inr ⟨_, happ, Or.inr fun _ => trivial⟩
  | skip hloop hslot happ => exact Or.inr ⟨_, happ, Or.inr fun _ => trivial⟩
  | stop happ =>
    rcases happ with heq | happ
    · exact Or.inl heq
    · exact Or.inr ⟨_, happ, Or.inr fun _ => trivial⟩

theorem entries_takeUnnamed {i p node : ℕ} {subject consumer : String} {msg : BusMessage}
    {ch : List BusMessage}
    (hloop : s.loops.get i = some ⟨node, subject, consumer, msg :: ch, none⟩)
    (hid : msg.messageID = "") : s.entries cfg (.take i p) = [.wrote i consumer msg.frame] := by
  simp [entries, hloop, hid]

theorem entries_take {i p node : ℕ} {subject consumer : String} {msg : BusMessage}
    {ch : List BusMessage}
    (hloop : s.loops.get i = some ⟨node, subject, consumer, msg :: ch, none⟩)
    (hid : msg.messageID ≠ "") : s.entries cfg (.take i p) = [] := by
  simp [entries, hloop, hid]

theorem entries_write {i p node : ℕ} {subject consumer : String} {msg : BusMessage}
    {ch : List BusMessage}
    (hloop : s.loops.get i = some ⟨node, subject, consumer, ch, some (p, msg)⟩)
    (hslot : s.app.store.slots.get p = some (.returned (.claimedInbox true))) :
    s.entries cfg (.settle i) = [.wrote i consumer msg.frame] := by
  simp [entries, hloop, hslot]

theorem entries_skip {i p node : ℕ} {subject consumer : String} {msg : BusMessage}
    {ch : List BusMessage}
    (hloop : s.loops.get i = some ⟨node, subject, consumer, ch, some (p, msg)⟩)
    (hslot : s.app.store.slots.get p ≠ some (.returned (.claimedInbox true))) :
    s.entries cfg (.settle i) = [] := by
  simp [entries, hloop, hslot]

end Inversion

section Queue

variable {cfg : ℕ → Config} {s s' : Streams} {l : StreamLabel} {i j : ℕ}

/-- The messages that loop `i` accepted and neither wrote nor skipped yet. -/
def pending (s : Streams) (i : ℕ) : List BusMessage :=
  match s.loops.get i with
  | some loop => loop.handling.toList.map Prod.snd ++ loop.ch
  | none => []

theorem pending_of_some {loop : StreamLoop} (h : s.loops.get i = some loop) :
    s.pending i = loop.handling.toList.map Prod.snd ++ loop.ch := by
  simp [pending, h]

theorem pending_of_none (h : s.loops.get i = none) : s.pending i = [] := by
  simp [pending, h]

theorem pending_put {app : App} {loop : StreamLoop} {written : List (String × Frame)} :
    pending ⟨app, s.loops.put i loop, written⟩ j =
      if j = i then loop.handling.toList.map Prod.snd ++ loop.ch else s.pending j := by
  unfold pending
  by_cases hj : j = i <;> simp [hj]

theorem pending_erase {app : App} {written : List (String × Frame)} :
    pending ⟨app, s.loops.erase i, written⟩ j = if j = i then [] else s.pending j := by
  unfold pending
  by_cases hj : j = i <;> simp [hj]

/-- It is enough to consider the response of the loop that a step replaces. -/
theorem queue_put {app : App} {loop : StreamLoop} {written : List (String × Frame)}
    (new : StreamLog) (hother : j ≠ i → new.frames j = [] ∧ new.deliveries j = [])
    (hself : (new.frames i ++
      (loop.handling.toList.map Prod.snd ++ loop.ch).map BusMessage.frame).Sublist
        ((s.pending i ++ new.deliveries i).map BusMessage.frame)) :
    (new.frames j ++
      (pending ⟨app, s.loops.put i loop, written⟩ j).map BusMessage.frame).Sublist
        ((s.pending j ++ new.deliveries j).map BusMessage.frame) := by
  rw [pending_put]
  split_ifs with hj
  · subst hj
    exact hself
  · simp [hother hj]

theorem frames_wrote {consumer : String} {f : Frame} :
    StreamLog.frames [.wrote i consumer f] j = if i = j then [f] else [] := by
  unfold StreamLog.frames
  by_cases hj : i = j <;> simp [StreamEntry.frame?, hj]

theorem deliveries_received {msg : BusMessage} :
    StreamLog.deliveries [.received i msg] j = if i = j then [msg] else [] := by
  unfold StreamLog.deliveries
  by_cases hj : i = j <;> simp [StreamEntry.message?, hj]

/-- What a step writes to a response and keeps for it, in this order, is a part of what was
kept for it and is delivered to it. -/
theorem Turns.queue (h : s.Turns cfg l s') (j : ℕ) :
    ((s.entries cfg l).frames j ++ (s'.pending j).map BusMessage.frame).Sublist
      ((s.pending j ++ (s.entries cfg l).deliveries j).map BusMessage.frame) := by
  have hwrote : ∀ {i : ℕ} {consumer : String} {f : Frame}, j ≠ i →
      StreamLog.frames [.wrote i consumer f] j = [] ∧
        StreamLog.deliveries [.wrote i consumer f] j = [] := by
    intro i consumer f hj
    rw [frames_wrote, if_neg (Ne.symm hj)]
    exact ⟨rfl, rfl⟩
  cases h with
  | app happ => simp [entries, StreamLog.frames, StreamLog.deliveries, pending]
  | start hnone =>
    refine queue_put _ (fun _ => ⟨rfl, rfl⟩) ?_
    rw [pending_of_none hnone]
    exact List.Sublist.refl _
  | receive hloop =>
    rename_i i msg loop
    refine queue_put [.received i msg] ?_ ?_
    · intro hj
      rw [deliveries_received, if_neg (Ne.symm hj)]
      exact ⟨rfl, rfl⟩
    · rw [deliveries_received, if_pos rfl, pending_of_some hloop]
      unfold StreamLoop.push
      split_ifs
      · simp [StreamLog.frames, StreamEntry.frame?]
      · have hframes : StreamLog.frames [.received i msg] i = [] := rfl
        rw [hframes, List.nil_append]
        exact (List.sublist_append_left _ _).map BusMessage.frame
  | takeUnnamed hloop hid happ =>
    rw [entries_takeUnnamed hloop hid]
    refine queue_put _ hwrote ?_
    rw [pending_of_some hloop, frames_wrote, if_pos rfl]
    simp [StreamLog.deliveries, StreamEntry.message?]
  | take hloop hid happ =>
    rename_i i p node subject consumer msg ch app
    rw [entries_take hloop hid]
    refine queue_put _ (fun _ => ⟨rfl, rfl⟩) ?_
    rw [pending_of_some hloop]
    cases hproc : app.procs.get p with
    | none => simp [StreamLog.frames, StreamLog.deliveries]
    | some proc => simp [StreamLog.frames, StreamLog.deliveries]
  | write hloop hslot happ =>
    rw [entries_write hloop hslot]
    refine queue_put _ hwrote ?_
    rw [pending_of_some hloop, frames_wrote, if_pos rfl]
    simp [StreamLog.deliveries, StreamEntry.message?]
  | skip hloop hslot happ =>
    rw [entries_skip hloop hslot]
    refine queue_put _ (fun _ => ⟨rfl, rfl⟩) ?_
    rw [pending_of_some hloop]
    simp [StreamLog.frames, StreamLog.deliveries]
  | stop happ =>
    rw [pending_erase]
    split_ifs with hj
    · exact List.nil_sublist _
    · simp [entries, StreamLog.frames, StreamLog.deliveries]

end Queue

section Log

variable {cfg : ℕ → Config} {s s' : Streams} {l : StreamLabel}

/-- Why a step adds an entry. -/
theorem mem_entries {e : StreamEntry} (h : e ∈ s.entries cfg l) :
    match e with
    | .opened i c => ∃ node subject consumer, l = .start i node subject consumer ∧
        c = (StreamLoop.ofQuery (cfg node) node subject consumer).consumer
    | .received i msg => l = .receive i msg
    | .wrote i c _ => ∃ loop, s.loops.get i = some loop ∧ loop.consumer = c := by
  cases l with
  | start i node subject consumer =>
    cases List.mem_singleton.mp h
    exact ⟨node, subject, consumer, rfl, rfl⟩
  | receive i msg =>
    cases List.mem_singleton.mp h
    rfl
  | take i p =>
    simp only [entries] at h
    split at h
    · rename_i hloop
      split_ifs at h
      · cases List.mem_singleton.mp h
        exact ⟨_, hloop, rfl⟩
      · cases h
    · cases h
  | settle i =>
    simp only [entries] at h
    split at h
    · rename_i hloop
      split_ifs at h
      · cases List.mem_singleton.mp h
        exact ⟨_, hloop, rfl⟩
      · cases h
    · cases h
  | app l => cases h
  | stop i => cases h

/-- The log has what was written. -/
theorem Turns.written (h : s.Turns cfg l s') :
    s'.written = (s.entries cfg l).filterMap StreamEntry.written? ++ s.written := by
  cases h with
  | takeUnnamed hloop hid happ =>
    rw [entries_takeUnnamed hloop hid]
    rfl
  | take hloop hid happ =>
    rw [entries_take hloop hid]
    rfl
  | write hloop hslot happ =>
    rw [entries_write hloop hslot]
    rfl
  | skip hloop hslot happ =>
    rw [entries_skip hloop hslot]
    rfl
  | _ => rfl

/-- A loop keeps the consumer name with which it was opened. -/
theorem Turns.consumer {i : ℕ} {loop : StreamLoop} (h : s.Turns cfg l s')
    (hloop : s'.loops.get i = some loop) :
    .opened i loop.consumer ∈ s.entries cfg l ∨
      ∃ old, s.loops.get i = some old ∧ old.consumer = loop.consumer := by
  have hput : ∀ {j : ℕ} {new old : StreamLoop}, (s.loops.put j new).get i = some loop →
      s.loops.get j = some old → old.consumer = new.consumer →
      ∃ old, s.loops.get i = some old ∧ old.consumer = loop.consumer := by
    intro j new old hget hold hsame
    rcases Clustered.get_put_cases hget with ⟨rfl, rfl⟩ | ⟨-, hget⟩
    · exact ⟨old, hold, hsame⟩
    · exact ⟨loop, hget, rfl⟩
  cases h with
  | app happ => exact Or.inr ⟨loop, hloop, rfl⟩
  | start hnone =>
    rcases Clustered.get_put_cases hloop with ⟨rfl, rfl⟩ | ⟨-, hget⟩
    · exact Or.inl (List.mem_singleton.mpr rfl)
    · exact Or.inr ⟨loop, hget, rfl⟩
  | receive hold =>
    refine Or.inr (hput hloop hold ?_)
    unfold StreamLoop.push
    split_ifs <;> rfl
  | takeUnnamed hold hid happ => exact Or.inr (hput hloop hold rfl)
  | take hold hid happ => exact Or.inr (hput hloop hold rfl)
  | write hold hslot happ => exact Or.inr (hput hloop hold rfl)
  | skip hold hslot happ => exact Or.inr (hput hloop hold rfl)
  | stop happ => exact Or.inr ⟨loop, (Clustered.get_erase_cases hloop).2, rfl⟩

end Log

end Streams

/-- No two responses have one number. -/
def StreamLabel.Numbered (x : Streams × StreamLog) : StreamLabel → Prop
  | .start i _ _ _ => ∀ consumer, .opened i consumer ∉ x.2
  | _ => True

/-- The states and logs that runs reach, all of whose steps satisfy `ok`. -/
def StreamLog.Reachable (cfg : ℕ → Config) (ok : Streams × StreamLog → StreamLabel → Prop)
    (s : Streams) (log : StreamLog) : Prop :=
  ∃ clock, Run (logged (Streams.step cfg) (Streams.entries cfg)) ok (Streams.init cfg clock, [])
    (s, log)

/-- What every run keeps, whatever the broker delivers. -/
structure StreamLog.Faithful (s : Streams) (log : StreamLog) : Prop where
  written : s.written = log.filterMap StreamEntry.written?
  opened : ∀ i loop, s.loops.get i = some loop → .opened i loop.consumer ∈ log
  single : ∀ i c c', .opened i c ∈ log → .opened i c' ∈ log → c = c'
  wrote : ∀ i c f, .wrote i c f ∈ log → .opened i c ∈ log
  queue : ∀ i, (log.frames i ++ (s.pending i).map BusMessage.frame).Sublist
    ((log.deliveries i).map BusMessage.frame)

section Runs

variable {cfg : ℕ → Config} {s s' : Streams} {log : StreamLog} {l : StreamLabel}

theorem StreamLog.Faithful.step (h : log.Faithful s) (hl : l.Numbered (s, log))
    (hturns : s.Turns cfg l s') : StreamLog.Faithful s' (s.entries cfg l ++ log) := by
  refine ⟨?_, ?_, ?_, ?_, ?_⟩
  · rw [hturns.written, h.written, List.filterMap_append]
  · intro i loop hloop
    rcases hturns.consumer hloop with hnew | ⟨old, hold, hsame⟩
    · exact List.mem_append_left _ hnew
    · exact List.mem_append_right _ (hsame ▸ h.opened i old hold)
  · intro i c c' hc hc'
    rcases List.mem_append.mp hc with hnew | hold
    · -- The response is opened by this step, under a number that no other response has.
      obtain ⟨node, subject, consumer, rfl, rfl⟩ := Streams.mem_entries hnew
      rcases List.mem_append.mp hc' with hnew' | hold'
      · cases List.mem_singleton.mp hnew'
        rfl
      · exact absurd hold' (hl c')
    · rcases List.mem_append.mp hc' with hnew' | hold'
      · obtain ⟨node, subject, consumer, rfl, -⟩ := Streams.mem_entries hnew'
        exact absurd hold (hl c)
      · exact h.single i c c' hold hold'
  · intro i c f hf
    rcases List.mem_append.mp hf with hnew | hold
    · obtain ⟨loop, hloop, rfl⟩ := Streams.mem_entries hnew
      exact List.mem_append_right _ (h.opened i loop hloop)
    · exact List.mem_append_right _ (h.wrote i c f hold)
  · intro i
    have hqueue := hturns.queue i
    rw [StreamLog.frames_append, StreamLog.deliveries_append, List.append_assoc]
    refine ((List.Sublist.refl (log.frames i)).append hqueue).trans ?_
    rw [List.map_append, ← List.append_assoc, List.map_append]
    exact (h.queue i).append (List.Sublist.refl _)

theorem StreamLog.Reachable.faithful (h : log.Reachable cfg (fun x l => l.Numbered x) s) :
    log.Faithful s := by
  obtain ⟨clock, hrun⟩ := h
  refine hrun.invariant (I := fun x => StreamLog.Faithful x.1 x.2) ?_ ?_
  · refine ⟨rfl, ?_, ?_, ?_, ?_⟩
    · intro i loop hloop
      cases hloop
    · intro i c c' hc
      cases hc
    · intro i c f hf
      cases hf
    · intro i
      exact List.Sublist.refl _
  · rintro ⟨a, log⟩ l b ha hl hab
    obtain ⟨b', hb', rfl⟩ := Option.map_eq_some_iff.mp hab
    exact ha.step hl (Streams.step_turns hb')

/-- The log does not influence the loops. -/
theorem StreamLog.Reachable.streams {ok : Streams × StreamLog → StreamLabel → Prop}
    (h : log.Reachable cfg ok s) : s.Reachable cfg := by
  obtain ⟨clock, hrun⟩ := h
  have hsim : ∀ (x : Streams × StreamLog) l y s, s = x.1 → ok x l →
      logged (Streams.step cfg) (Streams.entries cfg) x l = some y →
      ∃ s', Run (Streams.step cfg) anyStep s s' ∧ s' = y.1 := by
    rintro x l y s rfl - hstep
    obtain ⟨t, ht, rfl⟩ := Option.map_eq_some_iff.mp hstep
    exact ⟨t, (Run.refl _).snoc trivial ht, rfl⟩
  obtain ⟨t, hrun', rfl⟩ := hrun.simulate hsim rfl
  exact ⟨clock, hrun'⟩

/-- The frames of a response are those of some of the messages that the broker delivered, in the
order of their delivery. -/
theorem StreamLog.Faithful.frames_eq (h : log.Faithful s) (i : ℕ) :
    ∃ written : List BusMessage, written.Sublist (log.deliveries i) ∧
      log.frames i = written.map BusMessage.frame :=
  List.sublist_map_iff.mp ((List.sublist_append_left _ _).trans (h.queue i))

end Runs

section Sources

variable {settings : ℕ → Settings} {cfg : ℕ → Config} {idText : UUID → String}
  {formatTime : Time → Option String} {s s' : Streams} {log : StreamLog} {l : StreamLabel}

/-- The message is one that the application published, and arrived at a time that has a
format. -/
def BusMessage.Carried (idText : UUID → String) (formatTime : Time → Option String)
    (history : List Occurrence) (msg : BusMessage) : Prop :=
  ∃ m metadata now, .sent m ∈ history ∧ (formatTime now).isSome ∧
    msg = (m.wire idText).received metadata now

/-- The broker delivers only what was published, requests are published only if they passed a
gate, and no two responses have one number. -/
def StreamLabel.Genuine (settings : ℕ → Settings) (idText : UUID → String)
    (formatTime : Time → Option String) (x : Streams × StreamLog) (l : StreamLabel) : Prop :=
  l.Numbered x ∧
    match l with
    | .app l => l.Gated settings
    | .receive _ msg => msg.Carried idText formatTime x.1.app.history
    | _ => True

/-- What is kept in addition if the broker delivers only what was published. -/
structure StreamLog.Sourced (settings : ℕ → Settings) (idText : UUID → String)
    (formatTime : Time → Option String) (s : Streams) (log : StreamLog) : Prop where
  carried : ∀ i msg, .received i msg ∈ log → msg.Carried idText formatTime s.app.history
  accepted : s.app.store.Admits (EventRecord.Accepted settings)

/-- What occurred in the application is not forgotten. -/
theorem Streams.Turns.history (h : s.Turns cfg l s') {o : Occurrence} (ho : o ∈ s.app.history) :
    o ∈ s'.app.history := by
  rcases h.app_cases with heq | ⟨l', happ, -⟩
  · rwa [heq]
  · exact (App.step_cases happ).ledger.2 o ho

theorem StreamLog.Sourced.step (h : log.Sourced settings idText formatTime s)
    (hl : l.Genuine settings idText formatTime (s, log)) (hturns : s.Turns cfg l s') :
    StreamLog.Sourced settings idText formatTime s' (s.entries cfg l ++ log) := by
  constructor
  · intro i msg hmsg
    have hmono : ∀ {m : BusMessage}, m.Carried idText formatTime s.app.history →
        m.Carried idText formatTime s'.app.history := by
      rintro m ⟨sent, metadata, now, hsent, hnow, rfl⟩
      exact ⟨sent, metadata, now, hturns.history hsent, hnow, rfl⟩
    rcases List.mem_append.mp hmsg with hnew | hold
    · have hlabel : l = .receive i msg := Streams.mem_entries hnew
      subst hlabel
      exact hmono hl.2
    · exact hmono (h.carried i msg hold)
  · rcases hturns.app_cases with heq | ⟨l', happ, hgated⟩
    · rw [heq]
      exact h.accepted
    · refine (App.step_moves happ).accepts ?_ h.accepted
      rcases hgated with rfl | hgated
      · exact hl.2
      · exact hgated settings

theorem StreamLog.Reachable.numbered
    (h : log.Reachable cfg (fun x l => l.Genuine settings idText formatTime x) s) :
    log.Reachable cfg (fun x l => l.Numbered x) s := by
  obtain ⟨clock, hrun⟩ := h
  exact ⟨clock, hrun.mono fun _ _ hl => hl.1⟩

theorem StreamLog.Reachable.sourced
    (h : log.Reachable cfg (fun x l => l.Genuine settings idText formatTime x) s) :
    log.Sourced settings idText formatTime s := by
  obtain ⟨clock, hrun⟩ := h
  refine hrun.invariant (I := fun x => StreamLog.Sourced settings idText formatTime x.1 x.2) ?_ ?_
  · refine ⟨?_, ?_, ?_⟩
    · intro i msg hmsg
      cases hmsg
    · intro p c ev hc
      cases hc
    · intro ev id hev
      cases hev
  · rintro ⟨a, log⟩ l b ha hl hab
    obtain ⟨b', hb', rfl⟩ := Option.map_eq_some_iff.mp hab
    exact ha.step hl (Streams.step_turns hb')

/-- A frame of a response has the identifier, the subject and the payload of a stored event, and a
time that has a format. -/
theorem StreamLog.Reachable.frame_stored {i : ℕ} {f : Frame} (hid : ∀ id, idText id ≠ "")
    (h : log.Reachable cfg (fun x l => l.Genuine settings idText formatTime x) s)
    (hf : f ∈ log.frames i) :
    ∃ ev id, (ev, id) ∈ s.app.store.inserted ∧ f.subject = ev.subject ∧
      f.messageId = idText id ∧ f.data = ev.payload ∧ (formatTime f.ts).isSome := by
  obtain ⟨written, hwritten, hframes⟩ := h.numbered.faithful.frames_eq i
  rw [hframes] at hf
  obtain ⟨msg, hmsg, rfl⟩ := List.mem_map.mp hf
  obtain ⟨m, metadata, now, hsent, hnow, rfl⟩ :=
    h.sourced.carried i msg (StreamLog.mem_deliveries.mp (hwritten.subset hmsg))
  obtain ⟨later, earlier, hsplit⟩ := List.append_of_mem hsent
  obtain ⟨ev, hev, hsubject, hpayload⟩ := h.streams.app.sound.history later _ earlier hsplit
  rw [m.received_wire (hid m.messageID)]
  exact ⟨ev, m.messageID, hev, hsubject.symm, rfl, hpayload.symm, hnow⟩

end Sources

section Counting

/-- A test that singles out one element counts it once. -/
theorem countP_le_one {ι : Type*} {ids : List ι} {p : ι → Bool} (hnodup : ids.Nodup)
    (hone : ∀ i j, p i = true → p j = true → i = j) : ids.countP p ≤ 1 := by
  induction ids with
  | nil => simp
  | cons i ids ih =>
    obtain ⟨hi, hids⟩ := List.nodup_cons.mp hnodup
    rw [List.countP_cons]
    split_ifs with hp
    · have hzero : ids.countP p = 0 := by
        refine List.countP_eq_zero.mpr ?_
        intro j hj hpj
        exact hi (hone i j hp hpj ▸ hj)
      omega
    · exact ih hids

/-- The shares that different tests have of a list are parts of one share if no element
passes two of the tests. -/
theorem sum_countP_le {α ι : Type*} {l : List α} {ids : List ι} {q : ι → α → Bool} {r : α → Bool}
    (hnodup : ids.Nodup) (hr : ∀ x ∈ l, ∀ i ∈ ids, q i x = true → r x = true)
    (hone : ∀ x i j, q i x = true → q j x = true → i = j) :
    (ids.map fun i => l.countP (q i)).sum ≤ l.countP r := by
  induction l with
  | nil => simp
  | cons x l ih =>
    have htail := ih fun y hy => hr y (List.mem_cons_of_mem x hy)
    have hshare : ∀ ids : List ι, (ids.map fun i => (x :: l).countP (q i)).sum =
        (ids.map fun i => l.countP (q i)).sum + ids.countP fun i => q i x := by
      intro ids
      induction ids with
      | nil => rfl
      | cons i ids ih =>
        rw [List.map_cons, List.sum_cons, ih, List.map_cons, List.sum_cons, List.countP_cons,
          List.countP_cons]
        omega
    rw [hshare, List.countP_cons]
    by_cases hx : r x = true
    · have hle : (ids.countP fun i => q i x) ≤ 1 := countP_le_one hnodup (hone x)
      rw [if_pos hx]
      omega
    · have hzero : (ids.countP fun i => q i x) = 0 := by
        refine List.countP_eq_zero.mpr ?_
        intro i hi hq
        exact hx (hr x List.mem_cons_self i hi hq)
      rw [if_neg hx]
      omega

end Counting

section Order

/-- The decoded body of the request to publish a created order. -/
def orderBody : PublishRequest where
  eventType := "order.created"
  schemaVersion := 2
  payload := orderPayload

/-- The settings of the nodes that serve the request. -/
def orderSettings : ℕ → Settings := fun _ => orderFrontend.settings

def orderConfig : ℕ → Config := fun _ => orderFrontend.settings.toConfig

/-- The message of the order. -/
def orderMessage : Message := ⟨"events.default", orderPayload, 7⟩

/-- A format that writes every time as a number. -/
def plainTime (t : Time) : Option String := some (toString t)

/-- Identifiers written as numbers. -/
def plainID (id : UUID) : String := "event-" ++ toString id

theorem plainID_ne_empty (id : UUID) : plainID id ≠ "" := by
  intro h
  have hlength := congrArg (fun s => s.toList.length) h
  simp [plainID] at hlength

/-- The message of the order as a loop receives it. -/
def orderReceived : BusMessage := (orderMessage.wire plainID).received none 5000000

/-- The request of the order passes the gate. -/
theorem orderBody_passesGate : PassesGate orderFrontend.settings orderBody orderCall.header :=
  ⟨orderFrontend, orderCall, rfl, rfl, by decide +kernel, by decide +kernel⟩

/-- The broker delivers the message of the order and nothing else. -/
def orderCheck (x : Streams × StreamLog) : StreamLabel → Bool
  | .app (.spawn _ _ (.publish body header _)) => body = orderBody ∧ header = orderCall.header
  | .receive _ msg => .sent orderMessage ∈ x.1.app.history ∧
      msg = orderReceived
  | .start i _ _ _ => x.2.all fun
      | .opened j _ => j ≠ i
      | _ => true
  | _ => true

theorem genuine_of_orderCheck (x : Streams × StreamLog) (l : StreamLabel)
    (h : orderCheck x l = true) : l.Genuine orderSettings plainID plainTime x := by
  cases l with
  | app l =>
    refine ⟨trivial, ?_⟩
    cases l with
    | spawn p node task =>
      cases task with
      | publish body header newID =>
        obtain ⟨rfl, rfl⟩ := of_decide_eq_true h
        exact orderBody_passesGate
      | _ => trivial
    | _ => trivial
  | receive i msg =>
    obtain ⟨hsent, rfl⟩ := of_decide_eq_true h
    exact ⟨trivial, orderMessage, none, 5000000, hsent, rfl, rfl⟩
  | start i node subject consumer =>
    refine ⟨fun consumer' hopened => ?_, trivial⟩
    have hother := List.all_eq_true.mp h _ hopened
    simp at hother
  | _ => exact ⟨trivial, trivial⟩

/-- Two loops on different nodes use one consumer name. The order is published once, delivered
to both, and written to the first response. -/
theorem exists_order_delivered : ∃ (s : Streams) (log : StreamLog),
    log.Reachable orderConfig (fun x l => l.Genuine orderSettings plainID plainTime x) s ∧
    .opened 0 "audit" ∈ log ∧ .opened 1 "audit" ∈ log ∧
    log.frames 0 = [orderReceived.frame] := by
  have hplay : (play (logged (Streams.step orderConfig) (Streams.entries orderConfig)) orderCheck
      (Streams.init orderConfig 5000000, [])
      ([.start 0 0 "" "audit", .start 1 1 "" "audit",
        .app (.spawn 0 0 (.publish orderBody orderCall.header 7))] ++
        (appExecs 0 3 5000000).map StreamLabel.app ++
        [.app (.resume 0), .app (.send 0), .receive 0 orderReceived, .receive 1 orderReceived,
          .take 0 1, .take 1 2, .app (.exec 1 .ok { now := 5000000 }),
          .app (.exec 2 .ok { now := 5000000, scan := .row }), .settle 0, .settle 1])).any
      (fun x : Streams × StreamLog => decide (.opened 0 "audit" ∈ x.2) &&
        (decide (.opened 1 "audit" ∈ x.2) &&
          decide (x.2.frames 0 = [orderReceived.frame]))) = true := by decide +kernel
  obtain ⟨⟨s, log⟩, hrun, htest⟩ := Run.exists_of_play genuine_of_orderCheck hplay
  simp only [Bool.and_eq_true, decide_eq_true_eq] at htest
  exact ⟨s, log, ⟨5000000, hrun⟩, htest⟩

end Order

section Clients

variable {settings : ℕ → Settings} {cfg : ℕ → Config} {idText : UUID → String}
  {formatTime : Time → Option String} {s : Streams} {log : StreamLog}

/-- The entry writes a frame with this message identifier to response `i`. -/
def StreamEntry.names (messageID : String) (i : ℕ) (e : StreamEntry) : Bool :=
  ((e.frame? i).map fun f => decide (f.messageId = messageID)).getD false

theorem StreamEntry.names_iff {messageID : String} {i : ℕ} {e : StreamEntry} :
    e.names messageID i = true ↔ ∃ c f, e = .wrote i c f ∧ f.messageId = messageID := by
  cases e with
  | wrote j c f =>
    by_cases hj : j = i
    · simp [StreamEntry.names, StreamEntry.frame?, hj]
    · simp [StreamEntry.names, StreamEntry.frame?, hj]
  | _ => simp [StreamEntry.names, StreamEntry.frame?]

/-- The frames with a message identifier in the responses with one consumer name are those that
the loops wrote for this consumer. -/
theorem StreamLog.Faithful.sum_frames_le {consumer messageID : String} {ids : List ℕ}
    (h : log.Faithful s) (hnodup : ids.Nodup) (hids : ∀ i ∈ ids, .opened i consumer ∈ log) :
    (ids.map fun i => (log.frames i).countP fun f => decide (f.messageId = messageID)).sum ≤
      s.writtenTo consumer messageID := by
  have hframes : ∀ i, ((log.frames i).countP fun f => decide (f.messageId = messageID)) =
      log.countP (StreamEntry.names messageID i) := by
    intro i
    rw [StreamLog.frames, List.countP_reverse, List.countP_filterMap]
    rfl
  have hwritten : s.writtenTo consumer messageID = log.countP fun e =>
      (e.written?.map fun w => decide (w.1 = consumer ∧ w.2.messageId = messageID)).getD false := by
    rw [Streams.writtenTo, h.written, List.countP_filterMap]
  simp only [hframes, hwritten]
  refine sum_countP_le hnodup ?_ ?_
  · intro e he i hi hnames
    obtain ⟨c, f, rfl, hf⟩ := StreamEntry.names_iff.mp hnames
    have hc : c = consumer := h.single i c consumer (h.wrote i c f he) (hids i hi)
    simp [StreamEntry.written?, hc, hf]
  · intro e i j hi hj
    obtain ⟨c, f, rfl, -⟩ := StreamEntry.names_iff.mp hi
    obtain ⟨c', f', heq, -⟩ := StreamEntry.names_iff.mp hj
    cases heq
    rfl

/-- A client reads no more events with a message identifier than its response has frames. -/
theorem StreamLog.countP_read_le {i : ℕ} {arrived : List Char} (messageID : String)
    (harrived : arrived <+: log.body i formatTime) :
    ((read arrived).countP fun e => decide (messageIdOf e = some messageID)) ≤
      (log.frames i).countP fun f => decide (f.messageId = messageID) := by
  obtain ⟨n, -, -, hread⟩ := read_frames harrived
  rw [hread, List.countP_map]
  refine le_trans (List.countP_mono_left ?_) ((List.take_sublist n (log.frames i)).countP_le)
  intro f _ hnames
  exact decide_eq_true (Frame.messageId_of_event (of_decide_eq_true hnames))

/-- **From a request to a client.** Whatever part of a stream response has arrived at its
client, every event that the client reads is a message whose data are a JSON object with the
identifier, the subject and the payload of a stored event, and the request of that event
passed the gate of a node; the payload is a JSON object itself. -/
theorem client_reads_accepted_event
    (h : log.Reachable cfg (fun x l => l.Genuine settings idText formatTime x) s)
    (hid : ∀ id, idText id ≠ "") {i : ℕ} {arrived : List Char}
    (harrived : arrived <+: log.body i formatTime) {e : Event} (he : e ∈ read arrived) :
    ∃ ev id ts members, (ev, id) ∈ s.app.store.inserted ∧ ev.Accepted settings ∧
      e.kind = "message".toList ∧
      Json.unmarshal e.data = some (.obj [("data", .str ev.payload),
        ("messageId", .str (idText id)), ("subject", .str ev.subject), ("ts", .str ts)]) ∧
      Json.unmarshal ev.payload.toList = some (.obj members) := by
  obtain ⟨n, -, -, hread⟩ := read_frames harrived
  rw [hread] at he
  obtain ⟨f, hf, rfl⟩ := List.mem_map.mp he
  obtain ⟨ev, id, hev, hsubject, hid, hdata, hformat⟩ :=
    h.frame_stored hid (List.mem_of_mem_take hf)
  obtain ⟨ts, hts⟩ := Option.isSome_iff_exists.mp hformat
  have haccepted := h.sourced.accepted.inserted ev id hev
  obtain ⟨members, hmembers⟩ := haccepted.payload
  refine ⟨ev, id, ts, members, hev, haccepted, rfl, ?_, hmembers⟩
  have hobject := Frame.unmarshal_raw hts
  rwa [Frame.object, hdata, hid, hsubject] at hobject

/-- The client of the first response reads the order from what arrived. -/
theorem client_reads_order : ∃ (s : Streams) (log : StreamLog) (e : Event),
    log.Reachable orderConfig (fun x l => l.Genuine orderSettings plainID plainTime x) s ∧
    e ∈ read (log.body 0 plainTime) ∧
    ∃ ev id ts members, (ev, id) ∈ s.app.store.inserted ∧ ev.Accepted orderSettings ∧
      e.kind = "message".toList ∧
      Json.unmarshal e.data = some (.obj [("data", .str ev.payload),
        ("messageId", .str (plainID id)), ("subject", .str ev.subject), ("ts", .str ts)]) ∧
      Json.unmarshal ev.payload.toList = some (.obj members) := by
  obtain ⟨s, log, hreach, -, -, hframes⟩ := exists_order_delivered
  have he : orderReceived.frame.event plainTime ∈ read (log.body 0 plainTime) := by
    rw [StreamLog.body, hframes, read_all_frames]
    exact List.mem_singleton.mpr rfl
  exact ⟨s, log, _, hreach, he,
    client_reads_accepted_event hreach plainID_ne_empty List.prefix_rfl he⟩

/-- **Order of a stream.** Whatever the broker delivers, the frames of a response are those of some
of the messages that were delivered to its loop, in the order of their delivery. From a part of the
response, however it is cut, the client reads the events of exactly those frames that have arrived
completely. -/
theorem client_reads_in_order (h : log.Reachable cfg (fun x l => l.Numbered x) s) {i : ℕ}
    {arrived : List Char} (harrived : arrived <+: log.body i formatTime) :
    ∃ (written : List BusMessage) (n : ℕ), written.Sublist (log.deliveries i) ∧
      log.frames i = written.map BusMessage.frame ∧ n ≤ written.length ∧
      (∀ k ≤ written.length,
        (written.take k).flatMap (fun msg => msg.frame.text formatTime) <+: arrived ↔ k ≤ n) ∧
      read arrived = (written.take n).map fun msg => msg.frame.event formatTime := by
  obtain ⟨written, hsub, hframes⟩ := h.faithful.frames_eq i
  obtain ⟨n, hle, hn, hread⟩ := read_frames harrived
  simp only [hframes, List.length_map] at hle hn
  refine ⟨written, n, hsub, hframes, hle, fun k hk => ?_, ?_⟩
  · rw [← hn k hk, ← List.map_take, List.flatMap_map]
  · rw [hread, hframes, ← List.map_take, List.map_map]
    rfl

/-- A frame goes on after its first line. -/
theorem Frame.length_text (f : Frame) :
    "event: message\n".toList.length < (f.text formatTime).length := by
  have hrest : "data: ".toList ++ f.raw formatTime ++ "\n\n".toList ≠ [] :=
    List.append_ne_nil_of_right_ne_nil _ (by decide)
  unfold Frame.text
  generalize "event: message\n".toList = first
  rw [List.length_append]
  exact Nat.lt_add_of_pos_right (List.length_pos_of_ne_nil hrest)

/-- A second message for the same loop. -/
def invoiceReceived : BusMessage := ⟨"events.billing", "event-8", "A-1002", 6000000⟩

/-- No response has the number of another one. -/
def numberedCheck (x : Streams × StreamLog) : StreamLabel → Bool
  | .start i _ _ _ => x.2.all fun
      | .opened j _ => j ≠ i
      | _ => true
  | _ => true

theorem numbered_of_check (x : Streams × StreamLog) (l : StreamLabel)
    (h : numberedCheck x l = true) : l.Numbered x := by
  cases l with
  | start i node subject consumer =>
    intro consumer' hopened
    have hother := List.all_eq_true.mp h _ hopened
    simp at hother
  | _ => trivial

/-- Two messages are written to a response, and the frame of the second has arrived up to the end
of its first line: the client reads the first. -/
theorem client_reads_in_order_cut : ∃ (s : Streams) (log : StreamLog),
    log.Reachable orderConfig (fun x l => l.Numbered x) s ∧
    log.deliveries 0 = [orderReceived, invoiceReceived] ∧
    read (orderReceived.frame.text plainTime ++ "event: message\n".toList) =
      [orderReceived.frame.event plainTime] := by
  have hplay : (play (logged (Streams.step orderConfig) (Streams.entries orderConfig))
      numberedCheck (Streams.init orderConfig 6000000, [])
      [.start 0 0 "" "audit", .receive 0 orderReceived, .receive 0 invoiceReceived, .take 0 1,
        .app (.exec 1 .ok { now := 6000000 }), .settle 0, .take 0 2,
        .app (.exec 2 .ok { now := 6000000 }), .settle 0]).any
      (fun x : Streams × StreamLog =>
        decide (x.2.deliveries 0 = [orderReceived, invoiceReceived]) &&
          decide (x.2.frames 0 = [orderReceived.frame, invoiceReceived.frame])) = true := by
    decide +kernel
  obtain ⟨⟨s, log⟩, hrun, htest⟩ := Run.exists_of_play numbered_of_check hplay
  simp only [Bool.and_eq_true, decide_eq_true_eq] at htest
  obtain ⟨hdeliveries, hframes⟩ := htest
  have hreach : log.Reachable orderConfig (fun x l => l.Numbered x) s := ⟨6000000, hrun⟩
  have harrived : orderReceived.frame.text plainTime ++ "event: message\n".toList <+:
      log.body 0 plainTime := by
    have hsecond : "event: message\n".toList <+: invoiceReceived.frame.text plainTime :=
      List.prefix_append _ _
    rw [StreamLog.body, hframes, List.flatMap_cons]
    refine (List.prefix_append_right_inj _).mpr (hsecond.trans ?_)
    exact List.prefix_append _ _
  obtain ⟨written, n, -, hwritten, hle, hn, hread⟩ := client_reads_in_order hreach harrived
  rw [hframes] at hwritten
  have hlength : 2 = written.length := by
    simpa using congrArg List.length hwritten
  have htext : ∀ k, (written.take k).flatMap (fun msg => msg.frame.text plainTime) =
      ([orderReceived.frame, invoiceReceived.frame].take k).flatMap (Frame.text plainTime) := by
    intro k
    rw [hwritten, ← List.map_take, List.flatMap_map]
  have hone : 1 ≤ n := by
    refine (hn 1 (by omega)).mp ?_
    rw [htext 1, List.take_succ_cons, List.take_zero, List.flatMap_singleton]
    exact List.prefix_append _ _
  have htwo : ¬2 ≤ n := by
    intro htwo
    have hprefix := (hn 2 (by omega)).mpr htwo
    have hboth : ∀ x y : Frame, [x, y].take 2 = [x, y] := fun _ _ => rfl
    rw [htext 2, hboth, List.flatMap_cons, List.flatMap_singleton] at hprefix
    have hshort := hprefix.length_le
    rw [List.length_append, List.length_append] at hshort
    exact absurd (Nat.le_of_add_le_add_left hshort) (Nat.not_le.mpr (Frame.length_text _))
  have hn : n = 1 := by omega
  have hevents : (written.take n).map (fun msg => msg.frame.event plainTime) =
      ([orderReceived.frame, invoiceReceived.frame].take n).map (Frame.event plainTime) := by
    rw [hwritten, ← List.map_take, List.map_map]
    rfl
  rw [hevents, hn] at hread
  exact ⟨s, log, hreach, hdeliveries, hread⟩

/-- **At most once over all clients.** Over all stream responses with one consumer name, on
whatever nodes and whatever part of each has arrived, the clients read at most one event with
a given message identifier, whatever the broker delivers. -/
theorem clients_read_once (h : log.Reachable cfg (fun x l => l.Numbered x) s)
    {consumer messageID : String} (hid : messageID ≠ "") {ids : List ℕ} (hnodup : ids.Nodup)
    (hids : ∀ i ∈ ids, .opened i consumer ∈ log) {arrived : ℕ → List Char}
    (harrived : ∀ i ∈ ids, arrived i <+: log.body i formatTime) :
    (ids.map fun i =>
      (read (arrived i)).countP fun e => decide (messageIdOf e = some messageID)).sum ≤ 1 := by
  have hwritten : s.writtenTo consumer messageID ≤ 1 :=
    (h.streams.tracked.counted consumer messageID hid).trans (h.streams.app.exclusive hid).once
  refine le_trans (List.sum_le_sum ?_) ((h.faithful.sum_frames_le hnodup hids).trans hwritten)
  exact fun i hi => StreamLog.countP_read_le messageID (harrived i hi)

/-- The two clients read the order at most once. -/
theorem clients_read_order_once : ∃ (s : Streams) (log : StreamLog),
    log.Reachable orderConfig (fun x l => l.Numbered x) s ∧
    log.frames 0 = [orderReceived.frame] ∧
    ([0, 1].map fun i => (read (log.body i plainTime)).countP fun e =>
      decide (messageIdOf e = some (plainID 7))).sum ≤ 1 := by
  obtain ⟨s, log, hreach, hfirst, hsecond, hframes⟩ := exists_order_delivered
  have hids : ∀ i ∈ [0, 1], StreamEntry.opened i "audit" ∈ log := by
    intro i hi
    simp only [List.mem_cons, List.not_mem_nil, or_false] at hi
    rcases hi with rfl | rfl
    · exact hfirst
    · exact hsecond
  exact ⟨s, log, hreach.numbered, hframes, clients_read_once hreach.numbered (plainID_ne_empty 7)
    (by decide) hids fun i _ => List.prefix_rfl⟩

end Clients

end ControlPlane

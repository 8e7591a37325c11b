import ControlPlane.App.System
import ControlPlane.App.Validation

/-!
# Where the stored events come from

`handlePublishEvent` is the only code that appends events to the store. If the nodes start
publish tasks only for requests that passed their gates, as the goroutines of the service do, then
every event that a process is appending, and every event that was ever inserted, is the event of
such a request, whatever else the processes do and however the store operations end.
-/

namespace ControlPlane

open Transition

/-- The request was decoded from a body that the gate of a node with these settings let
through. -/
def PassesGate (settings : Settings) (body : PublishRequest) (header : String) : Prop :=
  ∃ (f : Frontend) (call : PublishCall), f.settings = settings ∧ call.header = header ∧
    decodeRequest settings.maxRequestBodyBytes call.body = some body ∧
    f.handlePublishEvent call = .ok (body.withDefaults header)

/-- What the part of `handlePublishEvent` behind its check for the leadership admits passes the
gate. -/
theorem PassesGate.of_accept {settings : Settings} {subjectAllowed : String → Bool}
    {call : PublishCall} {body : PublishRequest}
    (h : settings.accept subjectAllowed call = .ok body) :
    PassesGate settings body call.header := by
  refine ⟨⟨settings, true, true, none, subjectAllowed⟩, call, rfl, rfl,
    (Settings.accept_eq_ok h).1, ?_⟩
  simp only [Frontend.handlePublishEvent, Frontend.follows, h]
  rfl

/-- A publish task is started only for a request that passed the gate of its node. -/
def AppLabel.Gated (settings : ℕ → Settings) : AppLabel → Prop
  | .spawn _ node (.publish body header _) => PassesGate (settings node) body header
  | _ => True

/-- The event is that of a request that passed the gate of some node. -/
def EventRecord.Accepted (settings : ℕ → Settings) (ev : EventRecord) : Prop :=
  ∃ node body header now started, PassesGate (settings node) body header ∧
    ev = ((body.withDefaults header).event now).normalize started

/-- The payload of an accepted event is a JSON object. -/
theorem EventRecord.Accepted.payload {settings : ℕ → Settings} {ev : EventRecord}
    (h : ev.Accepted settings) :
    ∃ members, Json.unmarshal ev.payload.toList = some (.obj members) := by
  obtain ⟨node, body, header, now, started, ⟨f, call, -, -, -, hok⟩, rfl⟩ := h
  obtain ⟨body', -, -, hvalid⟩ := Frontend.handlePublishEvent_eq_ok hok
  obtain ⟨-, members, hpayload, -⟩ := Settings.validatePublishRequest_eq_none hvalid
  exact ⟨members, hpayload⟩

/-- Every event that is being appended or was inserted satisfies `P`. -/
structure System.Admits (P : EventRecord → Prop) (s : System) : Prop where
  calls : ∀ p c ev, s.callOf p = some c → c.event = some ev → P ev
  inserted : ∀ ev id, (ev, id) ∈ s.inserted → P ev

section Store

variable {P : EventRecord → Prop} {s s' : System}

/-- An append keeps its event from statement to statement. -/
theorem Call.Leads.event_eq_some {env : Env} {db : Store} {c d : Call} {ev : EventRecord}
    (h : Call.Leads env db c d) (hev : d.event = some ev) : c.event = some ev := by
  cases h with
  | appendIndex hkey => exact hev
  | appendLookup hkey => exact hev
  | appendPublished hrow => exact hev
  | appendBatch => exact hev
  | cleanup _ hcleaning =>
    have hnone : d.event = none := by cases d <;> first | rfl | cases hcleaning
    rw [hnone] at hev
    cases hev
  | _ => cases hev

/-- Only an append starts with an event, and it starts with the event of its arguments. -/
theorem Op.begin_event {op : Op} {now : Time} {ev : EventRecord}
    (h : (op.begin now).event = some ev) :
    ∃ ev' newID, op = .append ev' newID ∧ ev = ev'.normalize now := by
  cases op with
  | append ev' newID =>
    refine ⟨ev', newID, rfl, ?_⟩
    simp only [Op.begin] at h
    split_ifs at h <;> exact (Option.some.inj h).symm
  | _ => cases h

theorem System.Admits.step {l : Label} (h : s.Admits P) (hstep : s.Steps l s')
    (hstart : ∀ p ev newID, l = .start p (.append ev newID) → P (ev.normalize s.clock)) :
    s'.Admits P := by
  cases hstep with
  | tick hclock => exact ⟨h.calls, h.inserted⟩
  | start hidle hfresh =>
    refine ⟨?_, h.inserted⟩
    intro q c ev hc hev
    rcases System.callOf_launch_cases hc with ⟨-, rfl⟩ | ⟨-, hold⟩
    · obtain ⟨ev', newID, rfl, rfl⟩ := Op.begin_event hev
      exact hstart _ ev' newID rfl
    · exact h.calls q c ev hold hev
  | exec hslot hsince hnow =>
    rename_i p report env c since
    have hcall := System.callOf_of_running hslot
    refine ⟨?_, ?_⟩
    · intro q d ev hd hev
      rcases System.callOf_perform_cases hd with ⟨-, hnext⟩ | ⟨-, hold⟩
      · exact h.calls p c ev hcall ((Call.next_leads hnext).event_eq_some hev)
      · exact h.calls q d ev hold hev
    · intro ev id hmem
      rcases List.mem_append.mp hmem with hnew | hold
      · obtain ⟨rfl, -⟩ := Call.mem_inserts hnew
        exact h.calls p _ ev hcall rfl
      · exact h.inserted ev id hold
  | crash hslot =>
    refine ⟨?_, h.inserted⟩
    intro q c ev hc hev
    exact h.calls q c ev (System.callOf_of_crash hc).2 hev

end Store

section Application

variable {P : EventRecord → Prop} {cfg : ℕ → Config} {a b : App} {p node : ℕ} {action : Action}

/-- The event that an action begins to append. -/
def Action.appends : Action → Option EventRecord
  | .call (.append ev _) _ => some ev
  | _ => none

theorem relayNext_appends (cfg : Config) (events : List EventRecord) :
    (relayNext cfg events).appends = none := by
  cases events <;> rfl

/-- A process that resumes after a store operation appends nothing. -/
theorem Pc.resume_appends {cfg : Config} {pc : Pc} {r : Result}
    (h : pc.resume cfg r = some action) : action.appends = none := by
  cases Pc.resume_cases h with
  | relay => exact relayNext_appends cfg _
  | _ => rfl

theorem Job.attemptFailed_appends (cfg : Config) (now : Time) (job : Job) (attempt : Attempt)
    (err : String) : (job.attemptFailed cfg now attempt err).appends = none := by
  rcases job.attemptFailed_cases cfg now attempt err with heq | ⟨next, wake, heq⟩
  · rw [heq]
    rfl
  · rw [heq]
    rfl

/-- Only a publish task appends an event. -/
theorem Task.action_appends {cfg : Config} {now : Time} {task : Task} {ev : EventRecord}
    (h : (task.action cfg now).appends = some ev) :
    ∃ body header newID, task = .publish body header newID ∧
      ev = (body.withDefaults header).event now := by
  cases task with
  | publish body header newID => exact ⟨body, header, newID, rfl, (Option.some.inj h).symm⟩
  | consume consumer messageID =>
    simp only [Task.action] at h
    split_ifs at h <;> cases h
  | _ => cases h

theorem App.Acts.admits (h : a.Acts p node action b) (ha : a.store.Admits P)
    (hnew : ∀ ev, action.appends = some ev → P (ev.normalize a.store.clock)) :
    b.store.Admits P := by
  rcases h.store with heq | ⟨op, pc, rfl, hstart⟩
  · rwa [heq]
  · refine ha.step hstart ?_
    intro q ev newID hl
    cases hl
    exact hnew ev rfl

theorem App.Proceeds.admits (h : a.Proceeds cfg p node action b) (ha : a.store.Admits P)
    (hnew : ∀ ev, action.appends = some ev → P (ev.normalize a.store.clock)) :
    b.store.Admits P := by
  cases h with
  | unguarded _ hacts => exact hacts.admits ha hnew
  | allowed _ _ hacts => exact hacts.admits ha hnew
  | refused _ _ hresume hacts =>
    refine hacts.admits ha ?_
    intro ev hev
    rw [Pc.resume_appends hresume] at hev
    cases hev

/-- An action that appends nothing keeps what is admitted. -/
theorem App.Proceeds.admits_of_none (h : a.Proceeds cfg p node action b) (ha : a.store.Admits P)
    (hnone : action.appends = none) : b.store.Admits P := by
  refine h.admits ha ?_
  intro ev hev
  rw [hnone] at hev
  cases hev

/-- A step of the application keeps what is admitted if the event of the publish task that it
starts, if any, is admitted. -/
theorem App.Moves.admits {l : AppLabel} (h : a.Moves cfg l b) (ha : a.store.Admits P)
    (hpublish : ∀ p node body header newID, l = .spawn p node (.publish body header newID) →
      P (((body.withDefaults header).event a.store.clock).normalize a.store.clock)) :
    b.store.Admits P := by
  cases h with
  | tick hclock => exact ha.step (.tick hclock) fun _ _ _ hl => by cases hl
  | exec hslot hsince hnow =>
    exact ha.step (.exec hslot hsince hnow) fun _ _ _ hl => by cases hl
  | spawn hnone hproceeds =>
    refine hproceeds.admits ha ?_
    intro ev hev
    obtain ⟨body, header, newID, rfl, rfl⟩ := Task.action_appends hev
    exact hpublish _ _ body header newID rfl
  | resume hproc hslot hresume hproceeds =>
    refine hproceeds.admits_of_none ?_ (Pc.resume_appends hresume)
    split_ifs
    · exact ha
    · exact ha
  | sent hproc _ hacts => exact hacts.admits ha fun ev hev => by cases hev
  | unsent hproc _ hproceeds =>
    exact hproceeds.admits_of_none ha (Job.attemptFailed_appends _ _ _ _ _)
  | acked hproc hproceeds => exact hproceeds.admits_of_none ha rfl
  | rejected hproc hproceeds =>
    exact hproceeds.admits_of_none ha (Job.attemptFailed_appends _ _ _ _ _)
  | timer hproc _ hacts => exact hacts.admits ha fun ev hev => by cases hev
  | cancel hproc hproceeds => exact hproceeds.admits_of_none ha rfl
  | crash hstore =>
    rcases hstore with rfl | hcrash
    · exact ha
    · exact ha.step (System.step_cases hcrash) fun _ _ _ hl => by cases hl

/-- What a gated step starts to append is accepted. -/
theorem App.Moves.accepts {settings : ℕ → Settings} {l : AppLabel} (h : a.Moves cfg l b)
    (hgated : l.Gated settings) (ha : a.store.Admits (EventRecord.Accepted settings)) :
    b.store.Admits (EventRecord.Accepted settings) := by
  refine h.admits ha ?_
  rintro p node body header newID rfl
  exact ⟨node, body, header, _, _, hgated, rfl⟩

end Application

end ControlPlane

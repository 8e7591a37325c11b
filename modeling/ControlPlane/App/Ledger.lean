import ControlPlane.App.System

/-!
# The ledger

The ledger of an application state collects two histories: the events inserted so far
and the occurrences so far. Everything that a process, a store operation or an action
knows is justified by the ledger, and the ledger only grows. A record was received from
the store, which traces it to an insertion; an event that is about to be marked as
published was confirmed by the bus.
-/

namespace ControlPlane

open Transition

/-- The events inserted so far and what occurred so far, the latest first. -/
structure Ledger where
  inserted : List (EventRecord × UUID)
  history : List Occurrence

/-- The ledger of an application state. -/
def App.ledger (a : App) : Ledger := ⟨a.store.inserted, a.history⟩

namespace Ledger

/-- The second ledger contains the first one. -/
def Extends (k k' : Ledger) : Prop :=
  (∀ e ∈ k.inserted, e ∈ k'.inserted) ∧ ∀ o ∈ k.history, o ∈ k'.history

/-- The event was inserted. -/
def Known (k : Ledger) (id : UUID) : Prop := ∃ ev, (ev, id) ∈ k.inserted

/-- A call of `bus.Publish` for the event returned this broker identifier. -/
def Acked (k : Ledger) (id : UUID) (brokerID : String) : Prop :=
  ∃ msg, .acked msg (.ok brokerID) ∈ k.history ∧ msg.messageID = id

end Ledger

/-- The event of the message was inserted with the message's subject and payload. -/
def Message.Recorded (k : Ledger) (msg : Message) : Prop :=
  ∃ ev, (ev, msg.messageID) ∈ k.inserted ∧ ev.subject = msg.subject ∧ ev.payload = msg.data

/-- An answer to `POST /events` that reports success names a confirmed event. -/
def Response.Sound (k : Ledger) (resp : Response) : Prop :=
  resp.status = 200 ∨ resp.status = 201 → ∀ id, resp.publishedID = some id → ∃ b, k.Acked id b

/-- Bus messages carry recorded events, and success is answered after confirmation. -/
def Occurrence.Sound (k : Ledger) : Occurrence → Prop
  | .sent msg => msg.Recorded k
  | .responded resp => resp.Sound k
  | _ => True

/-- The events of a job are copies of inserted events. -/
def Job.Sound (k : Ledger) : Job → Prop
  | .request result => result.event.Traced k.inserted
  | .relay evt rest => ∀ ev ∈ evt :: rest, EventRecord.Traced k.inserted ev

/-- The events of a process are copies of inserted events, and a process that marks an
event as published had it confirmed. -/
def Pc.Sound (k : Ledger) : Pc → Prop
  | .claiming evt rest => ∀ ev ∈ evt :: rest, EventRecord.Traced k.inserted ev
  | .publishing job _ | .sent job _ | .waiting job _ _ | .recording job _ => job.Sound k
  | .marking job => job.Sound k ∧ ∃ b, k.Acked job.event.id b
  | _ => True

/-- An operation on an event is started for an inserted event, and marks it as published
only when the bus confirmed it. -/
def Op.Sound (k : Ledger) : Op → Prop
  | .mark id b => k.Known id ∧ k.Acked id b
  | .claimLease id _ _ => k.Known id
  | .recordFailure args => k.Known args.eventID
  | _ => True

/-- The same for an operation in progress. -/
def Call.Sound (k : Ledger) : Call → Prop
  | .markRead id b | .markBatch id b _ => k.Known id ∧ k.Acked id b
  | .leaseUpdate id _ _ => k.Known id
  | .failureRead args | .failureUpdate args _ _ | .failureLookup args _ _
  | .failureBatch args _ _ _ => k.Known args.eventID
  | _ => True

/-- An append that reports its event as published found it confirmed. -/
def Result.Confirmed (k : Ledger) : Result → Prop
  | .appended res => res.published = true → ∃ b, k.Acked res.event.id b
  | _ => True

/-- An event is marked as published with the broker identifier that confirmed it. -/
def Store.Confirmed (k : Ledger) (db : Store) : Prop :=
  ∀ id row, db.outboxEvents id = some row → row.publishState = .published →
    k.Acked id row.brokerMessageId

/-- What an action passes on is sound. -/
def Action.Sound (k : Ledger) : Action → Prop
  | .call op pc => op.Sound k ∧ pc.Sound k
  | .goto pc => pc.Sound k
  | .finish out => ∀ o, out = some o → o.Sound k

/-- Every occurrence is sound with respect to what occurred before it. -/
def SoundHistory (inserted : List (EventRecord × UUID)) (history : List Occurrence) : Prop :=
  ∀ later o earlier, history = later ++ o :: earlier → o.Sound ⟨inserted, earlier⟩

/-- Everything that the processes, the store and the history say is justified by the
ledger. -/
structure App.Sound (a : App) : Prop where
  procs : ∀ p proc, a.procs.get p = some proc → proc.pc.Sound a.ledger
  calls : ∀ p c, a.store.callOf p = some c → c.Sound a.ledger
  results : ∀ p r, a.store.slots.get p = some (.returned r) → r.Confirmed a.ledger
  rows : ∀ id row, a.store.db.outboxEvents id = some row → row.publishState = .published →
    a.ledger.Acked id row.brokerMessageId
  history : SoundHistory a.store.inserted a.history

section Growth

variable {k k' : Ledger}

/-- What occurs is added to the ledger. -/
theorem Ledger.extends_append (k : Ledger) (l : List Occurrence) :
    k.Extends ⟨k.inserted, l ++ k.history⟩ :=
  ⟨fun _ he => he, fun _ ho => List.mem_append_right l ho⟩

theorem Ledger.Known.mono {id : UUID} (h : k.Known id) (hk : k.Extends k') : k'.Known id := by
  obtain ⟨ev, hev⟩ := h
  exact ⟨ev, hk.1 _ hev⟩

theorem Ledger.Acked.mono {id : UUID} {b : String} (h : k.Acked id b) (hk : k.Extends k') :
    k'.Acked id b := by
  obtain ⟨msg, hmsg, hid⟩ := h
  exact ⟨msg, hk.2 _ hmsg, hid⟩

theorem Job.Sound.mono {job : Job} (h : job.Sound k) (hk : k.Extends k') : job.Sound k' := by
  cases job with
  | request result => exact Recorded.mono h hk.1
  | relay evt rest => exact fun ev hev => Recorded.mono (h ev hev) hk.1

/-- What a process knows stays justified when the ledger grows. -/
theorem Pc.Sound.mono {pc : Pc} (h : pc.Sound k) (hk : k.Extends k') : pc.Sound k' := by
  cases pc with
  | claiming evt rest => exact fun ev hev => Recorded.mono (h ev hev) hk.1
  | publishing job attempt => exact Job.Sound.mono h hk
  | sent job attempt => exact Job.Sound.mono h hk
  | waiting job attempt due => exact Job.Sound.mono h hk
  | recording job err => exact Job.Sound.mono h hk
  | marking job =>
    obtain ⟨hjob, b, hb⟩ := h
    exact ⟨hjob.mono hk, b, hb.mono hk⟩
  | _ => trivial

/-- What an operation knows stays justified when the ledger grows. -/
theorem Call.Sound.mono {c : Call} (h : c.Sound k) (hk : k.Extends k') : c.Sound k' := by
  cases c with
  | markRead id b => exact ⟨h.1.mono hk, h.2.mono hk⟩
  | markBatch id b occurredAt => exact ⟨h.1.mono hk, h.2.mono hk⟩
  | leaseUpdate id owner leaseDuration => exact Ledger.Known.mono h hk
  | failureRead args => exact Ledger.Known.mono h hk
  | failureUpdate args retryCount firstFailed => exact Ledger.Known.mono h hk
  | failureLookup args retryCount now => exact Ledger.Known.mono h hk
  | failureBatch args retryCount now content => exact Ledger.Known.mono h hk
  | _ => trivial

theorem Result.Confirmed.mono {r : Result} (h : r.Confirmed k) (hk : k.Extends k') :
    r.Confirmed k' := by
  cases r with
  | appended res =>
    intro hpublished
    obtain ⟨b, hb⟩ := h hpublished
    exact ⟨b, hb.mono hk⟩
  | _ => trivial

theorem Occurrence.Sound.mono {o : Occurrence} (h : o.Sound k) (hk : k.Extends k') :
    o.Sound k' := by
  cases o with
  | sent msg =>
    obtain ⟨ev, hev, hsubject, hpayload⟩ := h
    exact ⟨ev, hk.1 _ hev, hsubject, hpayload⟩
  | responded resp =>
    intro hstatus id hid
    obtain ⟨b, hb⟩ := h hstatus id hid
    exact ⟨b, hb.mono hk⟩
  | _ => trivial

variable {ins ins' : List (EventRecord × UUID)} {history : List Occurrence}

/-- A sound occurrence extends a sound history. -/
theorem SoundHistory.cons {o : Occurrence} (h : SoundHistory ins history)
    (ho : o.Sound ⟨ins, history⟩) : SoundHistory ins (o :: history) := by
  intro later o' earlier hsplit
  cases later with
  | nil =>
    simp only [List.nil_append, List.cons.injEq] at hsplit
    obtain ⟨rfl, rfl⟩ := hsplit
    exact ho
  | cons first later =>
    simp only [List.cons_append, List.cons.injEq] at hsplit
    exact h later o' earlier hsplit.2

theorem SoundHistory.append {out : Option Occurrence} (h : SoundHistory ins history)
    (hout : ∀ o, out = some o → o.Sound ⟨ins, history⟩) :
    SoundHistory ins (out.toList ++ history) := by
  cases out with
  | none => exact h
  | some o => exact h.cons (hout o rfl)

theorem SoundHistory.mono (h : SoundHistory ins history) (hins : ∀ e ∈ ins, e ∈ ins') :
    SoundHistory ins' history := by
  intro later o earlier hsplit
  exact (h later o earlier hsplit).mono ⟨hins, fun _ ho => ho⟩

end Growth

end ControlPlane

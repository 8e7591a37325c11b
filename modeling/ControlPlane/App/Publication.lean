import ControlPlane.App.Soundness

/-!
# What is published

A process calls `bus.Publish` with a record that it received from the store, and it
marks an event as published, or answers a request with success, only after the bus
confirmed that event. Two guarantees of the application follow: an event is never
acknowledged without having been published, and every message with one identifier
carries the same subject and payload.
-/

namespace ControlPlane

open Transition

/-- **No false acknowledgement.** In every reachable state, a row marked as published
carries the broker identifier with which an earlier call of `bus.Publish` for that event
returned, and every answer to `POST /events` with status 200 or 201 is preceded by a
call of `bus.Publish` for the event it names that returned without an error. -/
theorem no_false_acknowledgement {cfg : ℕ → Config} {a : App} (h : a.Reachable cfg anyStep) :
    (∀ id row, a.store.db.outboxEvents id = some row → row.publishState = .published →
      ∃ msg, .acked msg (.ok row.brokerMessageId) ∈ a.history ∧ msg.messageID = id) ∧
    ∀ later resp earlier id, a.history = later ++ .responded resp :: earlier →
      resp.status = 200 ∨ resp.status = 201 → resp.publishedID = some id →
      ∃ msg b, .acked msg (.ok b) ∈ earlier ∧ msg.messageID = id := by
  have hsound := h.sound
  refine ⟨hsound.rows, ?_⟩
  intro later resp earlier id hsplit hstatus hid
  have hresp : resp.Sound ⟨a.store.inserted, earlier⟩ := hsound.history later _ earlier hsplit
  obtain ⟨b, msg, hmsg, hmsgid⟩ := hresp hstatus id hid
  exact ⟨msg, b, hmsg, hmsgid⟩

/-- The configuration that `FromEnv` reads from an empty environment, with a single
attempt to publish and quarantine after the first failure. -/
def strictConfig : Config where
  nodeID := "node-1"
  publishRetryMax := 1
  publishRetryBackoffMs := 150
  publishRetryMaxBackoffMs := 3000
  outboxRelayBatchSize := 100
  outboxLeaseMs := 15000
  outboxBackoffBaseMs := 500
  outboxBackoffMaxMs := 30000
  outboxBackoffJitterPct := 25
  outboxQuarantineAfter := 1
  idempotencyTTLHours := 336
  deadLetterTTLHours := 720
  cleanupBatchSize := 200
  circuitFailureThreshold := 5
  circuitOpenMs := 15000
  circuitHalfOpenSuccesses := 2

/-- The same with breakers that open after one failure. -/
def hastyConfig : Config := { strictConfig with circuitFailureThreshold := 1 }

/-- A request to publish an order. -/
def orderRequest : PublishRequest where
  stream := "orders"
  eventType := "order.created"
  payload := "A-1001"

/-- The next `n` statements of process `p`, all at one time. -/
def appExecs (p n : ℕ) (now : Time) : List AppLabel := List.replicate n (.exec p .ok { now })

/-- The answer that was written last, if nothing happened since. -/
def App.lastAnswer (a : App) : Option Response :=
  match a.history with
  | .responded resp :: _ => some resp
  | _ => none

/-- An order is appended, published and marked, and its request answered with 201. -/
theorem no_false_acknowledgement_orders : ∃ (a : App) (resp : Response) (earlier : List Occurrence),
    a.Reachable (fun _ => strictConfig) anyStep ∧ a.history = .responded resp :: earlier ∧
      resp.status = 201 ∧ resp.publishedID = some 1 ∧
      ∃ msg b, .acked msg (.ok b) ∈ earlier ∧ msg.messageID = 1 := by
  obtain ⟨a, ha, htest⟩ := App.Reachable.of_play (fun _ => strictConfig) anyStep (fun _ _ => true)
    (fun _ _ _ => trivial) 5000000
    (.spawn 0 0 (.publish orderRequest "order-A1001-v1" 1) :: appExecs 0 3 5000000 ++
      [.resume 0, .send 0, .ack 0 (.ok "SHIRO_EVENTS:1")] ++ appExecs 0 2 5000000 ++ [.resume 0])
    (fun a => a.lastAnswer.any fun resp : Response =>
      decide (resp.status = 201) && decide (resp.publishedID = some 1)) (by decide)
  simp only [Option.any_eq_true, Bool.and_eq_true, decide_eq_true_eq] at htest
  obtain ⟨resp, hresp, hstatus, hid⟩ := htest
  unfold App.lastAnswer at hresp
  split at hresp
  · rename_i resp' earlier hhistory
    cases hresp
    exact ⟨a, resp, earlier, ha, hhistory, hstatus, hid,
      (no_false_acknowledgement ha).2 [] resp earlier 1 hhistory (Or.inr hstatus) hid⟩
  · cases hresp

/-- The copies of the event in the six tables that hold its content all have this
content. -/
structure Store.CopiesAgree (db : Store) (id : UUID) (content : Content) : Prop where
  byId : ∀ row, db.eventsById id = some row → row.toContent = content
  byStream : ∀ stream t body, (db.eventsByStream stream).get (toLex (t, id)) = some body →
    (⟨body, stream⟩ : Content) = content
  outbox : ∀ row, db.outboxEvents id = some row → row.toContent = content
  pending : ∀ t copy, db.outboxByState.get (toLex (t, id)) = some copy → copy = content
  letterByTime : ∀ t letter, db.deadLettersByTime.get (toLex (t, id)) = some letter →
    letter.toContent = content
  letterById : ∀ letter, db.deadLettersById id = some letter → letter.toContent = content

/-- The copies of an event agree with what was inserted. -/
theorem Store.Traced.copiesAgree {ins : List (EventRecord × UUID)} {db : Store} (h : db.Traced ins)
    (hnodup : (ins.map Prod.snd).Nodup) {ev : EventRecord} {id : UUID} (hev : (ev, id) ∈ ins) :
    db.CopiesAgree id ev.toContent := by
  have hself : RecordedContent ins id ev.toContent := ⟨_, ev, hev, rfl, rfl⟩
  constructor
  · exact fun row hrow => RecordedContent.unique hnodup ⟨_, h.byId id row hrow⟩ hself
  · exact fun stream t body hbody =>
      RecordedContent.unique hnodup ⟨_, h.byStream stream _ body hbody⟩ hself
  · exact fun row hrow => RecordedContent.unique hnodup ⟨_, h.outbox id row hrow⟩ hself
  · intro t copy hcopy
    obtain ⟨row, hrow, -, -, rfl⟩ := (h.index _ _).mp hcopy
    exact RecordedContent.unique hnodup ⟨_, h.outbox id row hrow⟩ hself
  · exact fun t letter hletter =>
      RecordedContent.unique hnodup (h.letterByTime _ letter hletter) hself
  · exact fun letter hletter => RecordedContent.unique hnodup (h.letterById id letter hletter) hself

/-- A table holds copies of inserted events only. -/
theorem Store.Traced.copiesAgree_of_unknown {ins : List (EventRecord × UUID)} {db : Store}
    (h : db.Traced ins) {id : UUID} (hid : ∀ ev, (ev, id) ∉ ins) (content : Content) :
    db.CopiesAgree id content := by
  have hnone : ∀ copy, ¬RecordedContent ins id copy := by
    rintro copy ⟨t, ev, hev, -⟩
    exact hid ev hev
  constructor
  · exact fun row hrow => absurd ⟨_, h.byId id row hrow⟩ (hnone _)
  · exact fun stream t body hbody => absurd ⟨_, h.byStream stream _ body hbody⟩ (hnone _)
  · exact fun row hrow => absurd ⟨_, h.outbox id row hrow⟩ (hnone _)
  · intro t copy hcopy
    obtain ⟨row, hrow, -⟩ := (h.index _ _).mp hcopy
    exact absurd ⟨_, h.outbox id row hrow⟩ (hnone _)
  · exact fun t letter hletter => absurd (h.letterByTime _ letter hletter) (hnone _)
  · exact fun letter hletter => absurd (h.letterById id letter hletter) (hnone _)

/-- **One event identifier, one message.** In every reachable state, every call of
`bus.Publish` carries the subject and payload of the one event that was inserted under
its message identifier, and all copies of an event in the tables have the content with
which it was inserted. -/
theorem one_event_one_message {cfg : ℕ → Config} {a : App} (h : a.Reachable cfg anyStep)
    (id : UUID) :
    (∀ msg, .sent msg ∈ a.history → msg.messageID = id → ∃ ev, (ev, id) ∈ a.store.inserted) ∧
    ∃ content : Content, (∀ ev, (ev, id) ∈ a.store.inserted → ev.toContent = content) ∧
      (∀ msg, .sent msg ∈ a.history → msg.messageID = id →
        msg.subject = content.subject ∧ msg.data = content.payload) ∧
      a.store.db.CopiesAgree id content := by
  have htraced := h.store.traced
  have hsent : ∀ msg, .sent msg ∈ a.history → msg.Recorded a.ledger := by
    intro msg hmsg
    obtain ⟨later, earlier, hsplit⟩ := List.append_of_mem hmsg
    exact h.sound.history later _ earlier hsplit
  have hknown : ∀ msg, .sent msg ∈ a.history → msg.messageID = id →
      ∃ ev, (ev, id) ∈ a.store.inserted := by
    rintro msg hmsg rfl
    obtain ⟨ev, hev, -⟩ := hsent msg hmsg
    exact ⟨ev, hev⟩
  refine ⟨hknown, ?_⟩
  by_cases hid : ∃ ev, (ev, id) ∈ a.store.inserted
  · obtain ⟨ev, hev⟩ := hid
    refine ⟨ev.toContent, ?_, ?_, htraced.store.copiesAgree htraced.nodup hev⟩
    · intro ev' hev'
      rw [eq_of_mem_inserted htraced.nodup hev' hev]
    · rintro msg hmsg rfl
      obtain ⟨ev', hev', hsubject, hpayload⟩ := hsent msg hmsg
      have heq : ev' = ev := eq_of_mem_inserted htraced.nodup hev' hev
      rw [← heq]
      exact ⟨hsubject.symm, hpayload.symm⟩
  · have hnone : ∀ ev, (ev, id) ∉ a.store.inserted := fun ev hev => hid ⟨ev, hev⟩
    refine ⟨⟨⟨"", "", ""⟩, ""⟩, ?_, ?_, htraced.store.copiesAgree_of_unknown hnone _⟩
    · exact fun ev hev => absurd hev (hnone ev)
    · exact fun msg hmsg hmsgid => absurd (hknown msg hmsg hmsgid) hid

/-- The occurrence is a call of `bus.Publish`. -/
def Occurrence.isSent : Occurrence → Bool
  | .sent _ => true
  | _ => false

/-- The quarantined order of a first request is replayed, and a second request with the
same key and another payload publishes it. -/
theorem one_event_one_message_orders : ∃ a : App, a.Reachable (fun _ => strictConfig) anyStep ∧
    (a.history.filter Occurrence.isSent).length = 2 ∧
    ∃ content : Content, (∀ ev, (ev, 1) ∈ a.store.inserted → ev.toContent = content) ∧
      (∀ msg, .sent msg ∈ a.history → msg.messageID = 1 →
        msg.subject = content.subject ∧ msg.data = content.payload) ∧
      a.store.db.CopiesAgree 1 content := by
  obtain ⟨a, ha, htest⟩ := App.Reachable.of_play (fun _ => strictConfig) anyStep (fun _ _ => true)
    (fun _ _ _ => trivial) 5000000
    (.spawn 0 0 (.publish orderRequest "order-A1001-v1" 1) :: appExecs 0 3 5000000 ++
      [.resume 0, .send 0, .ack 0 (.error "nats timeout")] ++ appExecs 0 4 5000000 ++
      [.resume 0, .spawn 1 0 (.replay 1)] ++ appExecs 1 3 5000000 ++
      [.resume 1, .spawn 2 1 (.publish { orderRequest with payload := "A-1002" }
        "order-A1001-v1" 2)] ++ appExecs 2 3 5000000 ++ [.resume 2, .send 2])
    (fun a => decide ((a.history.filter Occurrence.isSent).length = 2)) (by decide)
  exact ⟨a, ha, of_decide_eq_true htest, (one_event_one_message ha 1).2⟩

end ControlPlane

import ControlPlane.App.Publication
import ControlPlane.Store.Outbox

/-!
# Published events

`MarkOutboxPublished` takes an event out of the relay's partition, and no other
operation puts it back, except `ReplayDeadLetter`: it makes the event of a dead letter
pending without looking at its state, and a published event can be a dead letter.
-/

namespace ControlPlane

open Transition

/-- The step does not let the batch of `ReplayDeadLetter` take effect on a published
event. -/
def sparesPublished (a : App) : AppLabel → Bool
  | .exec p report _ =>
      match a.store.callOf p with
      | some (.replayBatch id _ _ _) => decide (report = .refused) || !a.store.db.isPublished id
      | _ => true
  | _ => true

/-- A statement that neither inserts nor replays a published event leaves it published. -/
theorem Store.Published.mutate {db db' : Store} {env : Env} {c : Call} {id : UUID}
    (h : db.Published id) (hm : Call.Mutation env db c db') (hnew : c.newID? ≠ some id)
    (hreplay : ∀ letter now occurredAt, c ≠ .replayBatch id letter now occurredAt) :
    db'.Published id := by
  obtain ⟨row, hrow, hstate⟩ := h
  cases hm.touches id with
  | untouched hsame => exact ⟨row, hsame.trans hrow, hstate⟩
  | inserted => exact absurd rfl hnew
  | marked hmarked hpublished => exact ⟨_, hmarked, hpublished⟩
  | leased hsame => exact ⟨row, hsame.trans hrow, hstate⟩
  | failed _ hsame => exact ⟨row, hsame.trans hrow, hstate⟩
  | buried _ hsame => exact ⟨row, hsame.trans hrow, hstate⟩
  | replayed => exact absurd rfl (hreplay _ _ _)
  | discarded hsame => exact ⟨row, hsame.trans hrow, hstate⟩

/-- A published event stays published in every step that spares published events. -/
theorem App.Steps.published {cfg : ℕ → Config} {a b : App} {l : AppLabel} {id : UUID}
    (hstep : a.Steps cfg l b) (htraced : a.store.Traced) (hok : sparesPublished a l = true)
    (h : a.store.db.Published id) : b.store.db.Published id := by
  rcases hstep.db_cases with heq | ⟨p, report, env, c, rfl, hcall, -, hreport, hm⟩
  · rwa [heq]
  · have hnew : c.newID? ≠ some id := by
      obtain ⟨row, hrow, -⟩ := h
      exact htraced.newID_ne hcall hrow
    have hreplay : ∀ letter now occurredAt, c ≠ .replayBatch id letter now occurredAt := by
      rintro letter now occurredAt rfl
      simp only [sparesPublished, hcall, Bool.or_eq_true, decide_eq_true_eq,
        Bool.not_eq_true'] at hok
      rcases hok with hrefused | hunpublished
      · exact hreport hrefused
      · rw [Store.isPublished_iff.mpr h] at hunpublished
        cases hunpublished
    exact h.mutate hm hnew hreplay

/-- **Published is final.** From a reachable state in which an event is published, every
run in which no replay takes effect on a published event keeps the event published and
out of every page of the pending partition. -/
theorem published_is_final {cfg : ℕ → Config} {a b : App} (h : a.Reachable cfg anyStep) {id : UUID}
    (hpublished : a.store.db.Published id)
    (hrun : Run (App.step cfg) (fun a l => sparesPublished a l = true) a b) :
    b.store.db.Published id ∧ ∀ n, ∀ row ∈ b.store.db.outboxByState.page n, (ofLex row.1).2 ≠ id := by
  have hboth : b.store.Traced ∧ b.store.db.Published id := by
    refine hrun.invariant (I := fun b => b.store.Traced ∧ b.store.db.Published id)
      ⟨h.store.traced, hpublished⟩ ?_
    rintro s l t ⟨htraced, hs⟩ hok hst
    have hstep := App.step_cases hst
    exact ⟨hstep.traced htraced, hstep.published htraced hok hs⟩
  obtain ⟨htraced, hb⟩ := hboth
  refine ⟨hb, ?_⟩
  rintro n row hrow rfl
  obtain ⟨out, hout, hpending, -⟩ :=
    (htraced.store.index row.1 row.2).mp (Clustered.get_of_mem_page hrow)
  obtain ⟨out', hout', hstate⟩ := hb
  rw [hout, Option.some.injEq] at hout'
  rw [hout', hstate] at hpending
  cases hpending

/-- A request publishes in vain while a relay batch of another node publishes the same
order and marks it; the failure of the request is recorded afterwards. -/
def publishedTwice : List AppLabel :=
  .spawn 0 0 (.publish orderRequest "" 1) :: appExecs 0 1 5000000 ++
    [.resume 0, .spawn 1 1 .relay] ++ appExecs 1 3 5000000 ++ [.resume 1] ++
    appExecs 1 1 5000000 ++
    [.resume 1, .send 1, .send 0, .ack 0 (.error "nats timeout"), .ack 1 (.ok "SHIRO_EVENTS:1")] ++
    appExecs 1 2 5000000

/-- The failure of the request is recorded for the published order. -/
theorem published_is_final_orders : ∃ a b : App, a.Reachable (fun _ => strictConfig) anyStep ∧
    a.store.db.Published 1 ∧
    Run (App.step fun _ => strictConfig) (fun a l => sparesPublished a l = true) a b ∧
    b.store.db.Replayable 1 ∧ b.store.db.Published 1 ∧
    ∀ n, ∀ row ∈ b.store.db.outboxByState.page n, (ofLex row.1).2 ≠ 1 := by
  obtain ⟨a, ha, htest⟩ := App.Reachable.of_play (fun _ => strictConfig) anyStep (fun _ _ => true)
    (fun _ _ _ => trivial) 5000000 publishedTwice
    (fun a => a.store.db.isPublished 1 && (play (App.step fun _ => strictConfig) sparesPublished a
      (appExecs 0 4 5000000)).any fun b => (b.store.db.deadLettersById 1).isSome) (by decide)
  rw [Bool.and_eq_true] at htest
  have hpublished := Store.isPublished_iff.mp htest.1
  obtain ⟨b, hrun, hletter⟩ := Run.exists_of_play (fun _ _ h => h) htest.2
  exact ⟨a, b, ha, hpublished, hrun, Option.isSome_iff_exists.mp hletter,
    published_is_final ha hpublished hrun⟩

/-- A replay of the published order makes it pending again. -/
theorem replay_unpublishes : ∃ a b : App, a.Reachable (fun _ => strictConfig) anyStep ∧
    a.store.db.Published 1 ∧ Run (App.step fun _ => strictConfig) anyStep a b ∧
    ¬b.store.db.Published 1 ∧
    ∃ row ∈ b.store.db.outboxByState.page 1, (ofLex row.1).2 = 1 := by
  obtain ⟨a, ha, htest⟩ := App.Reachable.of_play (fun _ => strictConfig) anyStep (fun _ _ => true)
    (fun _ _ _ => trivial) 5000000 publishedTwice
    (fun a => a.store.db.isPublished 1 && (play (App.step fun _ => strictConfig) (fun _ _ => true) a
      (appExecs 0 4 5000000 ++ .spawn 2 0 (.replay 1) :: appExecs 2 3 5000000)).any fun b =>
        !b.store.db.isPublished 1 && (b.store.db.outboxByState.page 1).any fun row : PendingRow =>
          decide ((ofLex row.1).2 = 1)) (by decide)
  rw [Bool.and_eq_true] at htest
  obtain ⟨b, hrun, htest'⟩ := Run.exists_of_play (fun _ _ _ => trivial) htest.2
  simp only [Bool.and_eq_true, Bool.not_eq_true', List.any_eq_true, decide_eq_true_eq] at htest'
  refine ⟨a, b, ha, Store.isPublished_iff.mp htest.1, hrun, ?_, htest'.2⟩
  rw [← Store.isPublished_iff, htest'.1]
  exact Bool.false_ne_true

end ControlPlane

import ControlPlane.Store.EventRows

/-!
# Eligible events

An event in the pending partition is eligible when it is not quarantined, its next
attempt is not in the future and no lease on it is running. The relay decides this by
the retry state that it loads, with defaults for a missing one. Every pending event has
a retry state, so the defaults never matter and the relay skips exactly the events that
are not eligible.
-/

namespace ControlPlane

open Transition

/-- Every retry state holds the end of a lease, and every pending event has a retry
state. -/
structure Store.Leasable (db : Store) : Prop where
  lease : ∀ id retry, db.outboxRetryState id = some retry → ∃ u, retry.leaseUntil = some u
  pending : ∀ id row, db.outboxEvents id = some row → row.publishState = .pending →
    ∃ retry, db.outboxRetryState id = some retry

/-- At time `now` the event is not quarantined, its next attempt is not in the
future, and no lease reaches beyond `now`. -/
def Store.due (db : Store) (now : Time) (id : UUID) : Bool :=
  (db.outboxRetryState id).all fun retry =>
    !retry.quarantined && decide (ofTimestamp retry.nextAttemptAt ≤ now) &&
      retry.leaseUntil.all fun u => decide (ofTimestamp u ≤ now)

/-- The relay may take the event of this pending row at time `now`. -/
def Store.dueRow (db : Store) (now : Time) (row : PendingRow) : Bool := db.due now (ofLex row.1).2

/-- The events that the relay may take at time `now`, oldest first. -/
def Store.eligible (db : Store) (now : Time) : List PendingRow :=
  db.outboxByState.rows.filter (db.dueRow now)

/-- The record that the relay receives for a pending row. -/
def Store.pendingEvent (db : Store) (row : PendingRow) : EventRecord :=
  pendingRecord row (db.loadRetryState (ofLex row.1).2).retryCount

section Leasable

variable {db db' : Store} {c : Call} {env : Env}

/-- Every statement keeps the retry states in this shape. -/
theorem Store.Leasable.mutate (h : db.Leasable) (hm : Call.Mutation env db c db') :
    db'.Leasable := by
  constructor
  · intro id retry hretry
    cases hm.touches id with
    | untouched _ hsame _ => exact h.lease id retry (hsame ▸ hretry)
    | inserted _ _ hnew _ hlease =>
      rw [hnew] at hretry
      cases hretry
      exact ⟨_, hlease⟩
    | marked _ _ _ hnone =>
      rw [hnone] at hretry
      cases hretry
    | leased _ _ _ _ hnew _ =>
      rw [hnew] at hretry
      cases hretry
      exact ⟨_, rfl⟩
    | failed _ _ hnew _ hlease =>
      rw [hnew] at hretry
      cases hretry
      exact ⟨_, hlease⟩
    | buried _ _ hsame _ => exact h.lease id retry (hsame ▸ hretry)
    | replayed _ _ hnew _ _ hlease =>
      rw [hnew] at hretry
      cases hretry
      exact ⟨_, hlease⟩
    | discarded _ hsame => exact h.lease id retry (hsame ▸ hretry)
  · intro id row hrow hstate
    cases hm.touches id with
    | untouched houtbox hsame _ =>
      rw [hsame]
      exact h.pending id row (houtbox ▸ hrow) hstate
    | marked hnew hpublished _ _ =>
      rw [hnew, Option.some.injEq] at hrow
      rw [← hrow, hpublished] at hstate
      cases hstate
    | inserted _ _ hnew _ _ => exact ⟨_, hnew⟩
    | leased _ _ _ _ hnew _ => exact ⟨_, hnew⟩
    | failed _ _ hnew _ _ => exact ⟨_, hnew⟩
    | buried _ houtbox hsame _ =>
      rw [hsame]
      exact h.pending id row (houtbox ▸ hrow) hstate
    | replayed _ _ hnew _ _ _ => exact ⟨_, hnew⟩
    | discarded houtbox hsame =>
      rw [hsame]
      exact h.pending id row (houtbox ▸ hrow) hstate

/-- Retry states have this shape in every reachable state. -/
theorem System.Reachable.leasable {ok : System → Label → Prop} {s : System} (h : s.Reachable ok) :
    s.db.Leasable := by
  refine h.invariant (I := fun s => s.db.Leasable) ?_ ?_
  · intro clock
    constructor
    · intro id retry hretry
      cases hretry
    · intro id row hrow
      cases hrow
  · intro a l b ha hok hstep
    cases hstep with
    | exec hslot hsince hnow =>
      exact Call.effect_keeps ha fun _ _ hm => ha.mutate hm
    | _ => exact ha

/-- Where a retry state with a lease exists, the scan skips exactly what is not due. -/
theorem Store.skipped_eq {id : UUID} {now : Time} {retry : RetryRow} {u : Timestamp}
    (hretry : db.outboxRetryState id = some retry) (hlease : retry.leaseUntil = some u) :
    (db.loadRetryState id).skipped now = !db.due now id := by
  simp only [Store.loadRetryState, RetryView.skipped, Store.due, hretry, hlease, Option.map_some,
    Option.getD_some, Option.all_some, Bool.not_and, Bool.not_not, ← decide_not, not_le]

end Leasable

end ControlPlane

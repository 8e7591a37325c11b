import ControlPlane.App.Publication
import ControlPlane.Store.Outbox

/-!
# Leases

A relay batch claims the lease of an event before it publishes the event. The claim is
one conditional update, so two claims never both succeed on one free lease. A lease is
given up before its time by `RecordOutboxFailure` and `ReplayDeadLetter`, which reset it
whoever holds it; without them it excludes every other claim until it runs out.
-/

namespace ControlPlane

open Transition

/-- Any lease on the event reaches at least until `u`. -/
def Store.LeasedUntil (db : Store) (id : UUID) (u : Timestamp) : Prop :=
  ∀ retry, db.outboxRetryState id = some retry → ∃ t, retry.leaseUntil = some t ∧ u ≤ t

/-- The statement resets the lease of the event. -/
def Call.resetsLease (id : UUID) : Call → Bool
  | .failureUpdate args _ _ => decide (args.eventID = id)
  | .replayBatch replayed _ _ _ => decide (replayed = id)
  | _ => false

/-- Until time `u`, the step does not let a statement that resets the lease of the event
take effect. -/
def keepsLease (id : UUID) (u : Time) (a : App) (l : AppLabel) : Bool :=
  decide (a.store.clock ≤ u) &&
    match l with
    | .exec p report _ =>
        decide (report = .refused) || !(a.store.callOf p).any (Call.resetsLease id)
    | _ => true

section Exclusion

variable {db db' : Store} {env : Env} {c : Call} {id : UUID} {u : Time}

/-- A claim prepared before the end of the lease finds the lease taken. -/
theorem Store.LeasedUntil.not_free (h : db.LeasedUntil id (toTimestamp u)) {now : Time}
    (hnow : now ≤ u) : db.leaseFree id (toTimestamp now) = false := by
  rw [← Bool.not_eq_true, Store.leaseFree_iff]
  rintro ⟨retry, t, hretry, ht, hlt⟩
  obtain ⟨t', ht', hle⟩ := h retry hretry
  have heq : t' = t := Option.some.inj (ht'.symm.trans ht)
  have hmono := toTimestamp_mono hnow
  exact absurd (hmono.trans (hle.trans heq.le)) hlt.not_ge

/-- A statement prepared before the end of the lease keeps the lease, unless it inserts
the event or resets the lease. -/
theorem Store.LeasedUntil.mutate (h : db.LeasedUntil id (toTimestamp u))
    (hm : Call.Mutation env db c db') (hnow : env.now ≤ u) (hnew : c.newID? ≠ some id)
    (hreset : c.resetsLease id = false) : db'.LeasedUntil id (toTimestamp u) := by
  intro retry hretry
  cases hm.touches id with
  | untouched _ hsame => exact h retry (hsame ▸ hretry)
  | inserted => exact absurd rfl hnew
  | marked _ _ _ hnone =>
    rw [hnone] at hretry
    cases hretry
  | leased _ hold hu hlt =>
    obtain ⟨t, ht, hle⟩ := h _ hold
    have heq : t = _ := Option.some.inj (ht.symm.trans hu)
    have hmono := toTimestamp_mono hnow
    exact absurd (hmono.trans (hle.trans heq.le)) hlt.not_ge
  | failed hid => exact absurd (decide_eq_true hid) (Bool.eq_false_iff.mp hreset)
  | buried _ _ hsame => exact h retry (hsame ▸ hretry)
  | replayed => exact absurd (decide_eq_true rfl) (Bool.eq_false_iff.mp hreset)
  | discarded _ hsame => exact h retry (hsame ▸ hretry)

/-- A lease is kept by every step that resets none. -/
theorem App.Steps.leasedUntil {cfg : ℕ → Config} {a b : App} {l : AppLabel}
    (hstep : a.Steps cfg l b) (htraced : a.store.Traced) (hid : id ∈ a.store.inserted.map Prod.snd)
    (hok : keepsLease id u a l = true) (h : a.store.db.LeasedUntil id (toTimestamp u)) :
    b.store.db.LeasedUntil id (toTimestamp u) := by
  rcases hstep.db_cases with heq | ⟨p, report, env, c, rfl, hcall, hnow, hreport, hm⟩
  · rwa [heq]
  · simp only [keepsLease, hcall, Option.any_some, Bool.and_eq_true, Bool.or_eq_true,
      decide_eq_true_eq, Bool.not_eq_true'] at hok
    obtain ⟨hclock, hok⟩ := hok
    have hnew : c.newID? ≠ some id := fun hnew => (htraced.fresh p c id hcall hnew).2 hid
    exact h.mutate hm (hnow.trans hclock) hnew (hok.resolve_left hreport)

end Exclusion

/-- What was inserted stays inserted. -/
theorem App.Steps.inserted {cfg : ℕ → Config} {a b : App} {l : AppLabel} (hstep : a.Steps cfg l b) :
    ∀ e ∈ a.store.inserted, e ∈ b.store.inserted := by
  intro e he
  rcases hstep.store with heq | ⟨l', hl'⟩
  · rwa [heq]
  · generalize b.store = t at hl'
    cases hl' with
    | exec => exact List.mem_append_right _ he
    | _ => exact he

/-- The acknowledged statement of a claim tells whether the lease was free. -/
theorem App.step_claim {cfg : ℕ → Config} {a b : App} {p : ℕ} {id : UUID} {owner : String}
    {leaseDuration : Duration} {since : Time} {env : Env}
    (hslot : a.store.slots.get p = some (.running (.leaseUpdate id owner leaseDuration) since))
    (h : a.step cfg (.exec p .ok env) = some b) :
    b.store.slots.get p =
      some (.returned (.leased (a.store.db.leaseFree id (toTimestamp env.now)))) ∧
    (a.store.db.leaseFree id (toTimestamp env.now) = true →
      b.store.db = a.store.db.setLease id owner (toTimestamp (env.now + leaseDuration))) := by
  obtain ⟨rfl, -, -⟩ := App.step_exec hslot h
  cases hfree : a.store.db.leaseFree id (toTimestamp env.now) with
  | true => simp [System.perform, Call.next, Call.effect, Call.exec, hfree, Next.slot]
  | false => simp [System.perform, Call.next, Call.exec, hfree, Next.slot]

/-- A claim that succeeds found the lease free. -/
theorem App.claim_granted {cfg : ℕ → Config} {a b : App} {p : ℕ} {id : UUID} {owner : String}
    {leaseDuration : Duration} {since : Time} {env : Env}
    (hslot : a.store.slots.get p = some (.running (.leaseUpdate id owner leaseDuration) since))
    (h : a.step cfg (.exec p .ok env) = some b)
    (hgranted : b.store.slots.get p = some (.returned (.leased true))) :
    a.store.db.leaseFree id (toTimestamp env.now) = true := by
  obtain ⟨hresult, -⟩ := App.step_claim hslot h
  rw [hgranted] at hresult
  simpa using hresult.symm

/-- **Lease exclusivity.** After a claim of an event succeeds with expiry `u`, and as long
as the clock has not passed `u` and neither `RecordOutboxFailure` nor `ReplayDeadLetter`
reset the lease, no claim of that event succeeds. -/
theorem lease_exclusive {cfg : ℕ → Config} {a a' b b' : App} (h : a.Reachable cfg anyStep)
    {p q : ℕ} {id : UUID} {owner owner' : String} {leaseDuration leaseDuration' : Duration}
    {since since' : Time} {env env' : Env}
    (hslot : a.store.slots.get p = some (.running (.leaseUpdate id owner leaseDuration) since))
    (hclaim : a.step cfg (.exec p .ok env) = some a')
    (hgranted : a'.store.slots.get p = some (.returned (.leased true)))
    (hrun : Run (App.step cfg)
      (fun s l => keepsLease id (env.now + leaseDuration) s l = true) a' b)
    (hslot' : b.store.slots.get q = some (.running (.leaseUpdate id owner' leaseDuration') since'))
    (hnow : env'.now ≤ env.now + leaseDuration)
    (hclaim' : b.step cfg (.exec q .ok env') = some b') :
    b'.store.slots.get q = some (.returned (.leased false)) := by
  have hlease := (App.step_claim hslot hclaim).2 (App.claim_granted hslot hclaim hgranted)
  have hsteps := App.step_cases hclaim
  have hknown : id ∈ a'.store.inserted.map Prod.snd := by
    obtain ⟨ev, hev⟩ : a.ledger.Known id := h.sound.calls p _ (System.callOf_of_running hslot)
    exact List.mem_map.mpr ⟨_, hsteps.inserted _ hev, rfl⟩
  have hheld : a'.store.db.LeasedUntil id (toTimestamp (env.now + leaseDuration)) := by
    intro retry hretry
    rw [hlease] at hretry
    simp only [Store.setLease, Function.update_self, Option.some.injEq] at hretry
    subst hretry
    exact ⟨_, rfl, le_refl _⟩
  have hend : b.store.Traced ∧ id ∈ b.store.inserted.map Prod.snd ∧
      b.store.db.LeasedUntil id (toTimestamp (env.now + leaseDuration)) := by
    refine hrun.invariant (I := fun s => s.store.Traced ∧ id ∈ s.store.inserted.map Prod.snd ∧
      s.store.db.LeasedUntil id (toTimestamp (env.now + leaseDuration)))
      ⟨hsteps.traced h.store.traced, hknown, hheld⟩ ?_
    rintro s l t ⟨htraced, hid, hs⟩ hok hst
    have hstep := App.step_cases hst
    refine ⟨hstep.traced htraced, ?_, hstep.leasedUntil htraced hid hok hs⟩
    exact List.map_subset _ hstep.inserted hid
  obtain ⟨hresult', -⟩ := App.step_claim hslot' hclaim'
  rw [hresult', hend.2.2.not_free hnow]

/-- Three nodes with different identifiers. -/
def fleetConfig : ℕ → Config
  | 1 => { strictConfig with nodeID := "node-2" }
  | 2 => { strictConfig with nodeID := "node-3" }
  | _ => strictConfig

/-- A request appends an order, and before it publishes the order the relay batches of
two other nodes list it and are about to claim it. -/
def rivalRelays : List AppLabel :=
  [.spawn 0 0 (.publish orderRequest "" 1)] ++ appExecs 0 1 5000000 ++
    [.resume 0, .spawn 1 1 .relay, .spawn 2 2 .relay] ++ appExecs 1 3 5000000 ++
    appExecs 2 3 5000000 ++ [.resume 1, .resume 2]

/-- The claim with which the relay batch of a node is waiting. -/
def rivalClaim (node : ℕ) : Slot :=
  .running (.leaseUpdate 1 (fleetConfig node).nodeID (fleetConfig node).leaseDuration) 5000000

/-- While the first relay batch publishes the order, the second one is refused. -/
theorem lease_exclusive_orders : ∃ a a' b b' : App, a.Reachable fleetConfig anyStep ∧
    a.store.slots.get 1 = some (rivalClaim 1) ∧
    a.step fleetConfig (.exec 1 .ok { now := 5000000 }) = some a' ∧
    a'.store.slots.get 1 = some (.returned (.leased true)) ∧
    Run (App.step fleetConfig)
      (fun s l => keepsLease 1 (5000000 + (fleetConfig 1).leaseDuration) s l = true) a' b ∧
    b.store.slots.get 2 = some (rivalClaim 2) ∧
    b.step fleetConfig (.exec 2 .ok { now := 9000000 }) = some b' ∧
    b'.store.slots.get 2 = some (.returned (.leased false)) := by
  obtain ⟨a, ha, htest⟩ := App.Reachable.of_play fleetConfig anyStep (fun _ _ => true)
    (fun _ _ _ => trivial) 5000000 rivalRelays
    (fun a => decide (a.store.slots.get 1 = some (rivalClaim 1)) &&
      (a.step fleetConfig (.exec 1 .ok { now := 5000000 })).any fun a' : App =>
        decide (a'.store.slots.get 1 = some (.returned (.leased true))) &&
        (play (App.step fleetConfig) (keepsLease 1 (5000000 + (fleetConfig 1).leaseDuration)) a'
          [.resume 1, .send 1, .tick 9000000]).any fun b : App =>
            decide (b.store.slots.get 2 = some (rivalClaim 2)) &&
            (b.step fleetConfig (.exec 2 .ok { now := 9000000 })).isSome) (by decide)
  rw [Bool.and_eq_true, decide_eq_true_eq, Option.any_eq_true] at htest
  obtain ⟨hslot, a', hclaim, ha'⟩ := htest
  rw [Bool.and_eq_true, decide_eq_true_eq] at ha'
  obtain ⟨b, hrun, hb⟩ := Run.exists_of_play (fun _ _ h => h) ha'.2
  simp only [Bool.and_eq_true, decide_eq_true_eq] at hb
  obtain ⟨b', hb'⟩ := Option.isSome_iff_exists.mp hb.2
  exact ⟨a, a', b, b', ha, hslot, hclaim, ha'.1, hrun, hb.1, hb',
    lease_exclusive ha hslot hclaim ha'.1 hrun hb.1 (by decide) hb'⟩

/-- The process that acts in a step. -/
def AppLabel.process : AppLabel → Option ℕ
  | .tick _ => none
  | .spawn p _ _ | .exec p _ _ | .resume p | .send p | .ack p _ | .timer p | .cancel p _
  | .crash p => some p

/-- The request fails to publish the order and records the failure. The second relay
batch then claims the order although the lease of the first one has not run out and the
first one has not acted since its claim. -/
theorem recorded_failure_frees_lease : ∃ a a' b b' : App, a.Reachable fleetConfig anyStep ∧
    a.store.slots.get 1 = some (rivalClaim 1) ∧
    a.step fleetConfig (.exec 1 .ok { now := 5000000 }) = some a' ∧
    a'.store.slots.get 1 = some (.returned (.leased true)) ∧
    Run (App.step fleetConfig) (fun _ l => l.process ≠ some 1) a' b ∧
    b.store.slots.get 2 = some (rivalClaim 2) ∧
    b.store.clock ≤ 5000000 + (fleetConfig 1).leaseDuration ∧
    b.step fleetConfig (.exec 2 .ok { now := 9000000 }) = some b' ∧
    b'.store.slots.get 2 = some (.returned (.leased true)) := by
  obtain ⟨a, ha, htest⟩ := App.Reachable.of_play fleetConfig anyStep (fun _ _ => true)
    (fun _ _ _ => trivial) 5000000 rivalRelays
    (fun a => decide (a.store.slots.get 1 = some (rivalClaim 1)) &&
      (a.step fleetConfig (.exec 1 .ok { now := 5000000 })).any fun a' : App =>
        decide (a'.store.slots.get 1 = some (.returned (.leased true))) &&
        (play (App.step fleetConfig) (fun _ l => decide (l.process ≠ some 1)) a'
          ([.tick 9000000, .send 0, .ack 0 (.error "nats timeout")] ++
            appExecs 0 2 9000000)).any fun b : App =>
            (decide (b.store.slots.get 2 = some (rivalClaim 2)) &&
              decide (b.store.clock ≤ 5000000 + (fleetConfig 1).leaseDuration)) &&
            (b.step fleetConfig (.exec 2 .ok { now := 9000000 })).any fun b' : App =>
              decide (b'.store.slots.get 2 = some (.returned (.leased true)))) (by decide)
  rw [Bool.and_eq_true, decide_eq_true_eq, Option.any_eq_true] at htest
  obtain ⟨hslot, a', hclaim, ha'⟩ := htest
  rw [Bool.and_eq_true, decide_eq_true_eq] at ha'
  obtain ⟨b, hrun, hb⟩ := Run.exists_of_play (fun _ _ h => of_decide_eq_true h) ha'.2
  simp only [Bool.and_eq_true, decide_eq_true_eq, Option.any_eq_true] at hb
  obtain ⟨⟨hslot', hclock⟩, b', hclaim', hgranted'⟩ := hb
  exact ⟨a, a', b, b', ha, hslot, hclaim, ha'.1, hrun, hslot', hclock, hclaim', hgranted'⟩

end ControlPlane

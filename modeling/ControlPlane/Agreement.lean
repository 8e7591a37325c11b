import ControlPlane.Election

/-!
# Agreement on the leader

A node learns of the leader in two ways that are not synchronized: from its own campaign and from
the observations of `observeLeader`. Once no campaign has a store ahead of it, the observations
decide: when the latest grant has been delivered everywhere, all nodes name the same leader, only
the nodes of that name have their flag raised, and this stays so until the next grant or until a
node is stopped, whatever sessions, campaigns and observers end meanwhile.
-/

namespace ControlPlane

open Transition

/-- What `LeaderID` returns on node `n`. -/
def Election.leaderID (s : Election) (n : ℕ) : Option String :=
  (s.coords.get n).map Coordinator.leaderID

namespace Coordinator

/-- The node runs, and `runElection` has no store ahead of it. -/
def Resting (c : Coordinator) : Prop :=
  c.cancelled = false ∧ c.campaign ≠ .elected ∧ c.campaign ≠ .announcing ∧ c.campaign ≠ .leaving

/-- The node waits for an observation, and the latest grant can still be observed. -/
def Pending (leaders : List String) (c : Coordinator) : Prop :=
  c.Resting ∧ c.observer = .waiting ∧ c.seen < leaders.length

instance (c : Coordinator) : Decidable c.Resting := inferInstanceAs (Decidable (_ ∧ _))

instance (leaders : List String) (c : Coordinator) : Decidable (c.Pending leaders) :=
  inferInstanceAs (Decidable (_ ∧ _))

/-- The node has taken over the leader, and no observation is ahead of it. -/
def Settled (leaders : List String) (leader : String) (c : Coordinator) : Prop :=
  c.Resting ∧ (c.observer = .waiting ∨ c.observer = .ended) ∧ leaders.length ≤ c.seen ∧
    c.leaderID = leader ∧ c.isLeader = (leader == c.nodeID)

end Coordinator

/-- The step belongs to an observer. -/
def ElectionLabel.observes : ElectionLabel → Prop
  | .deliver _ _ | .observe _ => True
  | .start _ _ | .grant _ | .campaignFail _ _ | .campaign _ | .observerEnd _ | .sessionEnd _
  | .cancel _ | .stop _ _ => False

/-- The step is no grant and stops no node. -/
def ElectionLabel.quiet : ElectionLabel → Prop
  | .grant _ | .cancel _ | .stop _ _ => False
  | .start _ _ | .campaignFail _ _ | .campaign _ | .deliver _ _ | .observe _ | .observerEnd _
  | .sessionEnd _ => True

/-- Node `n` goes on to `c`; the others and the grants stay as they are. -/
structure Election.Replaces (n : ℕ) (c : Coordinator) (s t : Election) : Prop where
  leaders : t.leaders = s.leaders
  self : t.coords.get n = some c
  others : ∀ m ≠ n, t.coords.get m = s.coords.get m

section Settling

variable {s t u : Election} {leader : String} {n : ℕ} {c c' : Coordinator}

theorem Election.Replaces.trans (h : Election.Replaces n c s t) (h' : Election.Replaces n c' t u) :
    Election.Replaces n c' s u :=
  ⟨h'.leaders.trans h.leaders, h'.self, fun m hm => (h'.others m hm).trans (h.others m hm)⟩

theorem Election.advance_eq_some (holder : Option ℕ) {f : Coordinator → Option Coordinator}
    (hc : s.coords.get n = some c) (hf : f c = some c') :
    ∃ t, s.advance n holder f = some t ∧ Election.Replaces n c' s t := by
  refine ⟨{ s with coords := s.coords.put n c', holder }, ?_, rfl, ?_, fun m hm => ?_⟩
  · simp [Election.advance, hc, hf]
  · rw [Clustered.get_put, if_pos rfl]
  · rw [Clustered.get_put, if_neg hm]

/-- The observer of one node takes the latest grant over; nothing else changes. -/
theorem Election.settle (hlast : s.leaders.getLast? = some leader)
    (hc : s.coords.get n = some c) (hpending : c.Pending s.leaders) :
    ∃ t c', Run Election.step (fun _ l => l.observes) s t ∧ Election.Replaces n c' s t ∧
      c'.Settled s.leaders leader ∧ c'.nodeID = c.nodeID := by
  obtain ⟨hresting, hwaiting, hseen⟩ := hpending
  have hindex : s.leaders[s.leaders.length - 1]? = some leader := by
    rw [← List.getLast?_eq_getElem?, hlast]
  have hdeliver : c.deliver s.leaders (s.leaders.length - 1) =
      some { c with observer := .received leader, seen := s.leaders.length - 1 + 1 } := by
    simp only [Coordinator.deliver, hwaiting, hindex]
    rw [if_pos (by omega)]
  -- `observeLeader` receives the name and makes its two stores.
  obtain ⟨a, hstep, ha⟩ := Election.advance_eq_some s.holder
    (f := fun c => c.deliver s.leaders (s.leaders.length - 1)) hc hdeliver
  obtain ⟨b, hstep', hb⟩ := Election.advance_eq_some a.holder
    (f := Coordinator.observeLeader) ha.self rfl
  obtain ⟨t, hstep'', ht⟩ := Election.advance_eq_some b.holder
    (f := Coordinator.observeLeader) hb.self rfl
  refine ⟨t, _, ?_, (ha.trans hb).trans ht, ⟨hresting, .inl rfl, ?_, rfl, rfl⟩, rfl⟩
  · have hfirst : Run Election.step (fun _ l => l.observes) s a :=
      (Run.refl s).snoc (l := .deliver n (s.leaders.length - 1)) trivial hstep
    have hsecond : Run Election.step (fun _ l => l.observes) s b :=
      hfirst.snoc (l := .observe n) trivial hstep'
    exact hsecond.snoc (l := .observe n) trivial hstep''
  · change s.leaders.length ≤ s.leaders.length - 1 + 1
    omega

/-- Node `n`, if it runs in `s`, has taken over the leader in `t`, under the same name. -/
def Election.SettledAt (leader : String) (s t : Election) (n : ℕ) : Prop :=
  ∀ c, s.coords.get n = some c → c.cancelled = false → ∃ c', t.coords.get n = some c' ∧
    c'.Settled s.leaders leader ∧ c'.nodeID = c.nodeID

theorem Election.SettledAt.congr (h : Election.SettledAt leader s t n)
    (heq : u.coords.get n = t.coords.get n) : Election.SettledAt leader s u n := by
  intro c hc hruns
  rw [heq]
  exact h c hc hruns

/-- One node after another. -/
theorem Election.settle_all (hlast : s.leaders.getLast? = some leader)
    (hrest : ∀ n c, s.coords.get n = some c → c.cancelled = false →
      c.Pending s.leaders ∨ c.Settled s.leaders leader) (ids : List ℕ) :
    ∃ t, Run Election.step (fun _ l => l.observes) s t ∧ t.leaders = s.leaders ∧
      (∀ n ∈ ids, Election.SettledAt leader s t n) ∧
      ∀ m ∉ ids, t.coords.get m = s.coords.get m := by
  induction ids with
  | nil =>
    refine ⟨s, .refl s, rfl, fun n hn => ?_, fun _ _ => rfl⟩
    cases hn
  | cons n ids ih =>
    obtain ⟨t, hrun, hleaders, hsettled, hothers⟩ := ih
    -- A node that is settled already, or does not run, stays as it is.
    have hdone : Election.SettledAt leader s t n →
        ∃ t, Run Election.step (fun _ l => l.observes) s t ∧ t.leaders = s.leaders ∧
          (∀ m ∈ n :: ids, Election.SettledAt leader s t m) ∧
          ∀ m ∉ n :: ids, t.coords.get m = s.coords.get m := by
      intro hn
      refine ⟨t, hrun, hleaders, fun m hm => ?_, fun m hm => ?_⟩
      · rcases List.mem_cons.mp hm with rfl | hm
        · exact hn
        · exact hsettled m hm
      · exact hothers m fun hmem => hm (List.mem_cons_of_mem n hmem)
    by_cases hmem : n ∈ ids
    · exact hdone (hsettled n hmem)
    · by_cases hpending : ∃ c, s.coords.get n = some c ∧ c.Pending s.leaders
      · obtain ⟨c, hc, hpending⟩ := hpending
        have ht : t.coords.get n = some c := (hothers n hmem).trans hc
        rw [← hleaders] at hlast hpending
        obtain ⟨u, c', hrun', hreplaces, hsettled', hname⟩ := Election.settle hlast ht hpending
        rw [hleaders] at hsettled'
        refine ⟨u, hrun.trans hrun', hreplaces.leaders.trans hleaders, fun m hm => ?_,
          fun m hm => ?_⟩
        · by_cases hmn : m = n
          · intro d hd _
            rw [hmn, hc] at hd
            cases hd
            rw [hmn]
            exact ⟨c', hreplaces.self, hsettled', hname⟩
          · exact (hsettled m ((List.mem_cons.mp hm).resolve_left hmn)).congr
              (hreplaces.others m hmn)
        · rw [List.mem_cons, not_or] at hm
          rw [hreplaces.others m hm.1, hothers m hm.2]
      · refine hdone fun c hc hruns => ⟨c, (hothers n hmem).trans hc, ?_, rfl⟩
        exact (hrest n c hc hruns).resolve_left fun h => hpending ⟨c, hc, h⟩

end Settling

section Staying

variable {s a b : Election} {leader : String} {c c' : Coordinator} {leaders : List String}

/-- The nodes that run in `s` have taken over the leader, and there was no further grant. -/
structure Election.Stays (leader : String) (s a : Election) : Prop where
  leaders : a.leaders = s.leaders
  settled : ∀ n, Election.SettledAt leader s a n

/-- A step of one node that keeps a settled coordinator settled. -/
theorem Election.Stays.advance {n : ℕ} {holder : Option ℕ} {f : Coordinator → Option Coordinator}
    (h : Election.Stays leader s a)
    (hf : ∀ c c', c.Settled s.leaders leader → f c = some c' →
      c'.Settled s.leaders leader ∧ c'.nodeID = c.nodeID)
    (hstep : a.advance n holder f = some b) : Election.Stays leader s b := by
  obtain ⟨c, hc, hmap⟩ := Option.bind_eq_some_iff.mp hstep
  obtain ⟨c', hc', rfl⟩ := Option.map_eq_some_iff.mp hmap
  refine ⟨h.leaders, fun m => ?_⟩
  by_cases hm : m = n
  · intro d hd hruns
    obtain ⟨e, he, hsettled, hname⟩ := h.settled m d hd hruns
    rw [hm, hc] at he
    cases he
    obtain ⟨hsettled', hname'⟩ := hf c c' hsettled hc'
    exact ⟨c', by rw [Clustered.get_put, if_pos hm], hsettled', hname'.trans hname⟩
  · exact (h.settled m).congr (by rw [Clustered.get_put, if_neg hm])

theorem Coordinator.Settled.campaignFail (h : c.Settled leaders leader)
    (hstep : c.campaignFail = some c') : c'.Settled leaders leader ∧ c'.nodeID = c.nodeID := by
  obtain ⟨⟨hcancelled, -⟩, hrest⟩ := h
  have hended : CampaignPc.ended ≠ .elected ∧ CampaignPc.ended ≠ .announcing ∧
      CampaignPc.ended ≠ .leaving := by decide
  unfold Coordinator.campaignFail at hstep
  split at hstep <;> cases hstep
  all_goals exact ⟨⟨⟨hcancelled, hended⟩, hrest⟩, rfl⟩

/-- `runElection` waits, or it has ended. -/
theorem Coordinator.Settled.runElection (h : c.Settled leaders leader) : c.runElection = none := by
  obtain ⟨⟨hcancelled, helected, hannouncing, hleaving⟩, -⟩ := h
  unfold Coordinator.runElection
  split <;> simp_all

/-- There is no grant that could be observed. -/
theorem Coordinator.Settled.deliver (h : c.Settled leaders leader) (k : ℕ) :
    c.deliver leaders k = none := by
  obtain ⟨-, -, hseen, -⟩ := h
  unfold Coordinator.deliver
  split
  · rename_i name hwaiting hname
    have hk : k < leaders.length := (List.getElem?_eq_some_iff.mp hname).1
    rw [if_neg (by omega)]
  · rfl

theorem Coordinator.Settled.observeLeader (h : c.Settled leaders leader) :
    c.observeLeader = none := by
  obtain ⟨-, hobserver, -⟩ := h
  unfold Coordinator.observeLeader
  rcases hobserver with hwaiting | hended
  · rw [hwaiting]
  · rw [hended]

theorem Coordinator.Settled.observerEnd (h : c.Settled leaders leader)
    (hstep : c.observerEnd = some c') : c'.Settled leaders leader ∧ c'.nodeID = c.nodeID := by
  obtain ⟨hresting, -, hrest⟩ := h
  unfold Coordinator.observerEnd at hstep
  split at hstep <;> cases hstep
  exact ⟨⟨hresting, .inr rfl, hrest⟩, rfl⟩

/-- No quiet step unsettles a node. -/
theorem Election.Stays.step {l : ElectionLabel} (h : Election.Stays leader s a) (hl : l.quiet)
    (hstep : a.step l = some b) : Election.Stays leader s b := by
  cases l with
  | start m nodeID =>
    simp only [Election.step] at hstep
    split at hstep
    · rename_i hnone
      cases hstep
      refine ⟨h.leaders, fun n => ?_⟩
      by_cases hn : n = m
      · -- A node that starts now did not run in `s`.
        intro c hc hruns
        obtain ⟨c', hc', -⟩ := h.settled n c hc hruns
        rw [hn, hnone] at hc'
        cases hc'
      · exact (h.settled n).congr (by rw [Clustered.get_put, if_neg hn])
    · cases hstep
  | grant n => exact hl.elim
  | cancel n => exact hl.elim
  | stop n granted => exact hl.elim
  | campaignFail n granted => exact h.advance (fun _ _ hc => hc.campaignFail) hstep
  | campaign n =>
    refine h.advance (fun c c' hc hc' => ?_) hstep
    rw [hc.runElection] at hc'
    cases hc'
  | deliver n k =>
    refine h.advance (fun c c' hc hc' => ?_) hstep
    rw [h.leaders, hc.deliver] at hc'
    cases hc'
  | observe n =>
    refine h.advance (fun c c' hc hc' => ?_) hstep
    rw [hc.observeLeader] at hc'
    cases hc'
  | observerEnd n => exact h.advance (fun _ _ hc => hc.observerEnd) hstep
  | sessionEnd n =>
    refine h.advance (fun c c' hc hc' => ?_) hstep
    split_ifs at hc'
    cases hc'
    exact ⟨hc, rfl⟩

end Staying

/-- **Agreement.** Let no campaign of a running node have a store ahead of it, and let every running
node wait for the latest grant or have taken it over. Then the observers can bring these nodes to
name the same leader, with the flag raised on exactly the nodes of that name; and whatever happens
afterwards, short of another grant and of stopping a node, they stay in agreement. -/
theorem election_settles {s : Election} {leader : String}
    (hlast : s.leaders.getLast? = some leader)
    (hrest : ∀ n c, s.coords.get n = some c → c.cancelled = false →
      c.Pending s.leaders ∨ c.Settled s.leaders leader) :
    ∃ t, Run Election.step (fun _ l => l.observes) s t ∧
      ∀ u, Run Election.step (fun _ l => l.quiet) t u →
        ∀ n c, s.coords.get n = some c → c.cancelled = false →
          u.leaderID n = some leader ∧ u.isLeader n = (leader == c.nodeID) := by
  obtain ⟨t, hrun, hleaders, hsettled, -⟩ :=
    Election.settle_all hlast hrest (s.coords.rows.map Prod.fst)
  have hstays : Election.Stays leader s t := by
    refine ⟨hleaders, fun n c hc => hsettled n ?_ c hc⟩
    exact List.mem_map.mpr ⟨(n, c), Clustered.mem_rows.mpr hc, rfl⟩
  refine ⟨t, hrun, fun u hquiet n c hc hruns => ?_⟩
  have hu := hquiet.invariant (I := Election.Stays leader s) hstays
    fun _ _ _ ha hl hstep => ha.step hl hstep
  obtain ⟨c', hc', ⟨-, -, -, hid, hflag⟩, hname⟩ := hu.settled n c hc hruns
  refine ⟨?_, ?_⟩
  · rw [Election.leaderID, hc', Option.map_some, hid]
  · rw [Election.isLeader, hc', Option.any_some, hflag, hname]

/-- The session of the first leader ends, and the election is granted to the second node. -/
def handover : List ElectionLabel :=
  [.start 1 "node-1", .start 2 "node-2", .start 3 "node-3", .grant 1, .campaign 1, .campaign 1,
    .deliver 3 0, .observe 3, .observe 3, .sessionEnd 1, .grant 2, .campaign 2, .campaign 2]

/-- The first leader, whose flag was still raised, steps back, and the third node names the second
one. -/
theorem election_settles_handover : ∃ s t : Election, s.Reachable anyStep ∧
    s.isLeader 1 = true ∧ s.leaderID 3 = some "node-1" ∧
    Run Election.step (fun _ l => l.observes) s t ∧
    t.isLeader 1 = false ∧ t.isLeader 2 = true ∧ t.leaderID 3 = some "node-2" := by
  have hplay : (play Election.step (fun _ _ => true) Election.init handover).any
      (fun s : Election => decide (s.isLeader 1 = true ∧ s.leaderID 3 = some "node-1" ∧
        s.leaders.getLast? = some "node-2" ∧
        s.coords.rows.map (fun row => (row.1, row.2.nodeID, row.2.cancelled)) =
          [(1, "node-1", false), (2, "node-2", false), (3, "node-3", false)] ∧
        ∀ row ∈ s.coords.rows, row.2.Pending s.leaders)) = true := by decide
  obtain ⟨s, hrun, htest⟩ := Run.exists_of_play (fun _ _ _ => trivial) hplay
  obtain ⟨hfirst, hthird, hlast, hrows, hpending⟩ := of_decide_eq_true htest
  obtain ⟨t, hobserve, hagree⟩ := election_settles hlast fun n c hc _ =>
    .inl (hpending (n, c) (Clustered.mem_rows.mpr hc))
  -- The three nodes run under their names.
  have hnode : ∀ n name, (n, name, false) ∈ [(1, "node-1", false), (2, "node-2", false),
      (3, "node-3", false)] → t.leaderID n = some "node-2" ∧ t.isLeader n = ("node-2" == name) := by
    intro n name hmem
    rw [← hrows] at hmem
    obtain ⟨⟨m, c⟩, hrow, heq⟩ := List.mem_map.mp hmem
    simp only [Prod.mk.injEq] at heq
    obtain ⟨rfl, rfl, hruns⟩ := heq
    exact hagree t (.refl t) m c (Clustered.mem_rows.mp hrow) hruns
  exact ⟨s, t, hrun, hfirst, hthird, hobserve, (hnode 1 "node-1" (by decide)).2,
    (hnode 2 "node-2" (by decide)).2, (hnode 3 "node-3" (by decide)).1⟩

end ControlPlane

import ControlPlane.Transition
import ControlPlane.Clustered

/-!
# Leader election

Every node runs two goroutines against one election of etcd: `runElection` campaigns and
raises the flag `isLeader` until its context is cancelled, and `observeLeader` sets the flag
by the name of each leader that it is told of. Neither of them reads the end of the node's
session, so a node that lost the election can keep its flag. The flags are exclusive as
long as the election is granted only when no other node can have its flag raised.
-/

namespace ControlPlane

open Transition

/-- Where `runElection` stands: in `Campaign`, before each of its two stores, waiting for
the end of its context, before the store that clears the flag, or at its end. -/
inductive CampaignPc
  | campaigning
  | elected
  | announcing
  | leading
  | leaving
  | ended
  deriving DecidableEq

/-- Where `observeLeader` stands: waiting for an observation, before each of its two stores,
or at its end. -/
inductive ObserverPc
  | waiting
  | received (leader : String)
  | storing (leader : String)
  | ended
  deriving DecidableEq

/-- Where `Stop` stands: not called, before it reads the flag, before `Resign`, before
`Session.Close`, or at its end. -/
inductive StopPc
  | idle
  | cancelled
  | resigning
  | closing
  | closed
  deriving DecidableEq

/-- The coordinator of a node. `sessionDone` is the local signal that the session ended,
and `seen` is the number of leaders that can no longer be observed. -/
structure Coordinator where
  nodeID : String
  campaign : CampaignPc
  observer : ObserverPc
  stopper : StopPc
  cancelled : Bool
  sessionDone : Bool
  seen : ℕ
  isLeader : Bool
  leaderID : String
  deriving DecidableEq

namespace Coordinator

/-- A coordinator whose goroutines just started. -/
def started (nodeID : String) (seen : ℕ) : Coordinator where
  nodeID := nodeID
  campaign := .campaigning
  observer := .waiting
  stopper := .idle
  cancelled := false
  sessionDone := false
  seen := seen
  isLeader := false
  leaderID := ""

variable (c : Coordinator)

/-- The next step of `runElection` after its campaign. -/
def runElection : Option Coordinator :=
  match c.campaign with
  | .elected => some { c with isLeader := true, campaign := .announcing }
  | .announcing => some { c with leaderID := c.nodeID, campaign := .leading }
  | .leading => if c.cancelled then some { c with campaign := .leaving } else none
  | .leaving => some { c with isLeader := false, campaign := .ended }
  | .campaigning | .ended => none

/-- `Campaign` returns an error, and `runElection` with it. The election may have been
granted before. -/
def campaignFail : Option Coordinator :=
  match c.campaign with
  | .campaigning | .elected => some { c with campaign := .ended }
  | _ => none

/-- An observation arrives: the leader with number `k` in the order of the grants. -/
def deliver (leaders : List String) (k : ℕ) : Option Coordinator :=
  match c.observer, leaders[k]? with
  | .waiting, some leader =>
      if c.seen ≤ k then some { c with observer := .received leader, seen := k + 1 } else none
  | _, _ => none

/-- The next step of `observeLeader` with the observation that it received. -/
def observeLeader : Option Coordinator :=
  match c.observer with
  | .received leader => some { c with leaderID := leader, observer := .storing leader }
  | .storing leader => some { c with isLeader := leader == c.nodeID, observer := .waiting }
  | .waiting | .ended => none

/-- `observeLeader` returns: its context is cancelled or its channel is closed. -/
def observerEnd : Option Coordinator :=
  match c.observer with
  | .waiting => some { c with observer := .ended }
  | _ => none

/-- The next step of `Stop`. -/
def stop : Option Coordinator :=
  match c.stopper with
  | .idle => some { c with cancelled := true, stopper := .cancelled }
  | .cancelled => some { c with stopper := if c.isLeader then .resigning else .closing }
  | .resigning => some { c with stopper := .closing }
  | .closing => some { c with sessionDone := true, stopper := .closed }
  | .closed => none

/-- The step of `Stop` that asks etcd to give up the election. -/
def releases : Bool := c.stopper = .resigning ∨ c.stopper = .closing

/-- The observation in the hands of `observeLeader` names the node itself. -/
def observedSelf : Bool :=
  match c.observer with
  | .received leader | .storing leader => leader == c.nodeID
  | .waiting | .ended => false

/-- The flag of the node is raised, a store that raises it is under way, or an observation
that leads to one can still arrive. -/
def mayLead (leaders : List String) : Bool :=
  c.isLeader || c.campaign == .elected || c.observedSelf ||
    (c.observer != .ended && (leaders.drop c.seen).contains c.nodeID)

end Coordinator

/-- The election: the coordinators, the node to which etcd granted the election, and the
names of all nodes to which it was granted, in the order of the grants. -/
structure Election where
  coords : Clustered ℕ Coordinator
  holder : Option ℕ
  leaders : List String

/-- The steps of the election. `campaign`, `observe` and `stop` are the next steps of
`runElection`, `observeLeader` and `Stop`; `granted` says whether etcd carries out what a
failing campaign or `Stop` asks for. -/
inductive ElectionLabel
  | start (n : ℕ) (nodeID : String)
  | grant (n : ℕ)
  | campaignFail (n : ℕ) (granted : Bool)
  | campaign (n : ℕ)
  | deliver (n k : ℕ)
  | observe (n : ℕ)
  | observerEnd (n : ℕ)
  | sessionEnd (n : ℕ)
  | cancel (n : ℕ)
  | stop (n : ℕ) (granted : Bool)
  deriving DecidableEq

namespace Election

/-- No node has started. -/
def init : Election := ⟨.empty, none, []⟩

variable (s : Election)

/-- The holder after node `n` gave up the election. -/
def released (n : ℕ) : Option ℕ := if s.holder = some n then none else s.holder

/-- The first leader that an observer can be told of which starts now. -/
def firstSeen : ℕ := if s.holder.isSome then s.leaders.length - 1 else s.leaders.length

/-- One coordinator goes on. -/
def advance (n : ℕ) (holder : Option ℕ) (f : Coordinator → Option Coordinator) :
    Option Election :=
  (s.coords.get n).bind fun c => (f c).map fun c' =>
    { s with coords := s.coords.put n c', holder }

/-- The election is granted to a node whose session is alive, when nobody holds it. -/
def grant (n : ℕ) : Option Election :=
  (s.coords.get n).bind fun c =>
    if s.holder = none ∧ c.campaign = .campaigning ∧ c.sessionDone = false then
      some
        { coords := s.coords.put n { c with campaign := .elected }
          holder := some n
          leaders := s.leaders ++ [c.nodeID] }
    else none

/-- One step of the election. -/
def step (s : Election) : ElectionLabel → Option Election
  | .start n nodeID =>
      match s.coords.get n with
      | none => some { s with coords := s.coords.put n (.started nodeID s.firstSeen) }
      | some _ => none
  | .grant n => s.grant n
  | .campaignFail n granted =>
      s.advance n (if granted then s.released n else s.holder) Coordinator.campaignFail
  | .campaign n => s.advance n s.holder Coordinator.runElection
  | .deliver n k => s.advance n s.holder fun c => c.deliver s.leaders k
  | .observe n => s.advance n s.holder Coordinator.observeLeader
  | .observerEnd n => s.advance n s.holder Coordinator.observerEnd
  | .sessionEnd n =>
      s.advance n (s.released n) fun c =>
        if c.sessionDone then none else some { c with sessionDone := true }
  | .cancel n => s.advance n s.holder fun c => some { c with cancelled := true }
  | .stop n granted =>
      s.advance n
        (if granted && (s.coords.get n).any Coordinator.releases then s.released n else s.holder)
        Coordinator.stop

/-- The states that runs of the election reach, all of whose steps satisfy `ok`. -/
def Reachable (ok : Election → ElectionLabel → Prop) : Prop := Run step ok init s

/-- What `IsLeader` returns on node `n`. -/
def isLeader (n : ℕ) : Bool := (s.coords.get n).any Coordinator.isLeader

/-- Node `n` can have its flag raised without a further grant. -/
def mayLead (n : ℕ) : Bool := (s.coords.get n).any fun c => c.mayLead s.leaders

/-- The election is granted only when no other node can have its flag raised, also by the
observation of this grant, and no node starts while the election is granted to its name. -/
def orderly (s : Election) : ElectionLabel → Bool
  | .start _ nodeID => !(s.leaders.drop s.firstSeen).contains nodeID
  | .grant n => (s.coords.get n).all fun c =>
      s.coords.rows.all fun row => row.1 == n || !row.2.mayLead (s.leaders ++ [c.nodeID])
  | _ => true

end Election

section Coordinators

variable {c c' : Coordinator} {leaders : List String}

/-- What lets a node lead, by cases. -/
theorem Coordinator.mayLead_iff : c.mayLead leaders = true ↔ c.isLeader = true ∨
    c.campaign = .elected ∨ c.observedSelf = true ∨
      (c.observer ≠ .ended ∧ c.nodeID ∈ leaders.drop c.seen) := by
  simp [Coordinator.mayLead, or_assoc]

/-- A step that leaves the observations alone and raises nothing lets no node lead. -/
theorem Coordinator.mayLead_of_le (hlead : c'.mayLead leaders = true)
    (hid : c'.nodeID = c.nodeID) (hobserver : c'.observer = c.observer) (hseen : c'.seen = c.seen)
    (hflag : c'.isLeader = true → c.isLeader = true)
    (helected : c'.campaign = .elected → c.campaign = .elected) : c.mayLead leaders = true := by
  have hself : c'.observedSelf = c.observedSelf := by
    unfold Coordinator.observedSelf
    rw [hid, hobserver]
  rw [Coordinator.mayLead_iff, hid, hobserver, hseen, hself] at hlead
  rw [Coordinator.mayLead_iff]
  exact hlead.imp hflag (Or.imp_left helected)

theorem Coordinator.mayLead_of_runElection (h : c.runElection = some c')
    (hlead : c'.mayLead leaders = true) : c.mayLead leaders = true := by
  unfold Coordinator.runElection at h
  split at h
  case h_1 helected => exact Coordinator.mayLead_iff.mpr (Or.inr (Or.inl helected))
  case h_2 =>
    cases h
    exact Coordinator.mayLead_of_le hlead rfl rfl rfl id fun hpc => by cases hpc
  case h_3 =>
    split_ifs at h
    cases h
    exact Coordinator.mayLead_of_le hlead rfl rfl rfl id fun hpc => by cases hpc
  case h_4 =>
    cases h
    exact Coordinator.mayLead_of_le hlead rfl rfl rfl (fun hflag => by cases hflag)
      fun hpc => by cases hpc
  all_goals cases h

theorem Coordinator.mayLead_of_campaignFail (h : c.campaignFail = some c')
    (hlead : c'.mayLead leaders = true) : c.mayLead leaders = true := by
  unfold Coordinator.campaignFail at h
  split at h <;> cases h
  all_goals exact Coordinator.mayLead_of_le hlead rfl rfl rfl id fun hpc => by cases hpc

/-- What is delivered was still to be observed. -/
theorem Coordinator.mayLead_of_deliver {k : ℕ} (h : c.deliver leaders k = some c')
    (hlead : c'.mayLead leaders = true) : c.mayLead leaders = true := by
  unfold Coordinator.deliver at h
  split at h
  case h_2 => cases h
  case h_1 leader hwaiting hleader =>
    split_ifs at h with hseen
    cases h
    rw [Coordinator.mayLead_iff] at hlead ⊢
    have hlive : c.observer ≠ .ended := by simp [hwaiting]
    rcases hlead with hflag | helected | hself | ⟨-, hlater⟩
    · exact Or.inl hflag
    · exact Or.inr (Or.inl helected)
    · have hname : leader = c.nodeID := by simpa [Coordinator.observedSelf] using hself
      refine Or.inr (Or.inr (Or.inr ⟨hlive, ?_⟩))
      rw [← hname, List.mem_iff_getElem?]
      exact ⟨k - c.seen, by rw [List.getElem?_drop, Nat.add_sub_cancel' hseen, hleader]⟩
    · have hle : c.seen ≤ k + 1 := by omega
      exact Or.inr (Or.inr (Or.inr ⟨hlive, List.drop_subset_drop_left _ hle hlater⟩))

/-- The flag is raised only by an observation of the node's own name. -/
theorem Coordinator.mayLead_of_observeLeader (h : c.observeLeader = some c')
    (hlead : c'.mayLead leaders = true) : c.mayLead leaders = true := by
  unfold Coordinator.observeLeader at h
  rw [Coordinator.mayLead_iff] at hlead ⊢
  split at h
  case h_1 leader hreceived =>
    cases h
    simpa [Coordinator.observedSelf, hreceived] using hlead
  case h_2 leader hstoring =>
    cases h
    rcases hlead with hflag | helected | hself | ⟨-, hlater⟩
    · refine Or.inr (Or.inr (Or.inl ?_))
      simpa [Coordinator.observedSelf, hstoring] using hflag
    · exact Or.inr (Or.inl helected)
    · cases hself
    · exact Or.inr (Or.inr (Or.inr ⟨by simp [hstoring], hlater⟩))
  all_goals cases h

theorem Coordinator.mayLead_of_observerEnd (h : c.observerEnd = some c')
    (hlead : c'.mayLead leaders = true) : c.mayLead leaders = true := by
  unfold Coordinator.observerEnd at h
  split at h <;> cases h
  rw [Coordinator.mayLead_iff] at hlead ⊢
  rcases hlead with hflag | helected | hself | ⟨hlive, -⟩
  · exact Or.inl hflag
  · exact Or.inr (Or.inl helected)
  · cases hself
  · exact absurd rfl hlive

theorem Coordinator.mayLead_of_stop (h : c.stop = some c') (hlead : c'.mayLead leaders = true) :
    c.mayLead leaders = true := by
  unfold Coordinator.stop at h
  split at h <;> cases h
  all_goals exact Coordinator.mayLead_of_le hlead rfl rfl rfl id id

end Coordinators

/-- Everything that a step of the election can do: a node starts, the election is granted,
or a node goes on without a new reason to lead. -/
inductive Election.Steps (s : Election) : ElectionLabel → Election → Prop
  | start {n : ℕ} {nodeID : String} : s.coords.get n = none →
      s.Steps (.start n nodeID) { s with coords := s.coords.put n (.started nodeID s.firstSeen) }
  | grant {n : ℕ} {c : Coordinator} : s.coords.get n = some c → s.holder = none →
      s.Steps (.grant n)
        { coords := s.coords.put n { c with campaign := .elected }
          holder := some n
          leaders := s.leaders ++ [c.nodeID] }
  | advance {l : ElectionLabel} {n : ℕ} {c c' : Coordinator} {holder : Option ℕ} :
      s.coords.get n = some c → (c'.mayLead s.leaders = true → c.mayLead s.leaders = true) →
      s.Steps l { s with coords := s.coords.put n c', holder }

section Exclusion

variable {s s' : Election} {l : ElectionLabel}

theorem Election.advance_cases {n : ℕ} {holder : Option ℕ} {f : Coordinator → Option Coordinator}
    (h : s.advance n holder f = some s')
    (hf : ∀ c c', f c = some c' → c'.mayLead s.leaders = true → c.mayLead s.leaders = true) :
    s.Steps l s' := by
  obtain ⟨c, hc, hmap⟩ := Option.bind_eq_some_iff.mp h
  obtain ⟨c', hc', rfl⟩ := Option.map_eq_some_iff.mp hmap
  exact .advance hc (hf c c' hc')

/-- Inversion of the step function of the election. -/
theorem Election.step_cases (h : s.step l = some s') : s.Steps l s' := by
  cases l with
  | start n nodeID =>
    simp only [Election.step] at h
    split at h
    · rename_i hnone
      cases h
      exact .start hnone
    · cases h
  | grant n =>
    obtain ⟨c, hc, hgrant⟩ := Option.bind_eq_some_iff.mp h
    split_ifs at hgrant with hfree
    cases hgrant
    exact .grant hc hfree.1
  | campaignFail n granted =>
    exact Election.advance_cases h fun _ _ => Coordinator.mayLead_of_campaignFail
  | campaign n => exact Election.advance_cases h fun _ _ => Coordinator.mayLead_of_runElection
  | deliver n k => exact Election.advance_cases h fun _ _ => Coordinator.mayLead_of_deliver
  | observe n => exact Election.advance_cases h fun _ _ => Coordinator.mayLead_of_observeLeader
  | observerEnd n => exact Election.advance_cases h fun _ _ => Coordinator.mayLead_of_observerEnd
  | stop n granted => exact Election.advance_cases h fun _ _ => Coordinator.mayLead_of_stop
  | sessionEnd n =>
    refine Election.advance_cases h ?_
    intro c c' hc hlead
    split_ifs at hc
    cases hc
    exact Coordinator.mayLead_of_le hlead rfl rfl rfl id id
  | cancel n =>
    refine Election.advance_cases h ?_
    intro c c' hc hlead
    cases hc
    exact Coordinator.mayLead_of_le hlead rfl rfl rfl id id

theorem Election.mayLead_eq_true {n : ℕ} : s.mayLead n = true ↔
    ∃ c, s.coords.get n = some c ∧ c.mayLead s.leaders = true := Option.any_eq_true _ _

/-- One node at most can have its flag raised. -/
def Election.Exclusive (s : Election) : Prop :=
  ∀ n m, s.mayLead n = true → s.mayLead m = true → n = m

/-- An orderly step lets a node lead only if it could before, or if it is granted the
election and no other node can lead. -/
theorem Election.Steps.mayLead (h : s.Steps l s') (hok : s.orderly l = true) {n : ℕ}
    (hn : s'.mayLead n = true) : s.mayLead n = true ∨ ∀ m, s'.mayLead m = true → m = n := by
  cases h with
  | start hnone =>
    left
    obtain ⟨c, hc, hlead⟩ := Election.mayLead_eq_true.mp hn
    rcases Clustered.get_put_cases hc with ⟨rfl, rfl⟩ | ⟨-, hc⟩
    · rename_i nodeID
      have hname : nodeID ∉ s.leaders.drop s.firstSeen := by simpa [Election.orderly] using hok
      rcases Coordinator.mayLead_iff.mp hlead with hflag | helected | hself | ⟨-, hlater⟩
      · cases hflag
      · cases helected
      · cases hself
      · exact absurd hlater hname
    · exact Election.mayLead_eq_true.mpr ⟨c, hc, hlead⟩
  | grant hk hfree =>
    rename_i k d
    right
    have honly : ∀ m, Election.mayLead ⟨s.coords.put k { d with campaign := .elected }, some k,
        s.leaders ++ [d.nodeID]⟩ m = true → m = k := by
      intro m hm
      obtain ⟨c, hc, hlead⟩ := Election.mayLead_eq_true.mp hm
      rcases Clustered.get_put_cases hc with ⟨heq, -⟩ | ⟨hne, hc⟩
      · exact heq
      · simp only [Election.orderly, hk, Option.all_some, List.all_eq_true] at hok
        have hrow := hok (m, c) (Clustered.mem_rows.mpr hc)
        simp [hne, hlead] at hrow
    exact fun m hm => (honly m hm).trans (honly n hn).symm
  | advance hk hlead =>
    left
    obtain ⟨c, hc, hmay⟩ := Election.mayLead_eq_true.mp hn
    rcases Clustered.get_put_cases hc with ⟨rfl, rfl⟩ | ⟨-, hc⟩
    · exact Election.mayLead_eq_true.mpr ⟨_, hk, hlead hmay⟩
    · exact Election.mayLead_eq_true.mpr ⟨c, hc, hmay⟩

theorem Election.Steps.exclusive (h : s.Steps l s') (hok : s.orderly l = true)
    (hs : s.Exclusive) : s'.Exclusive := by
  intro n m hn hm
  rcases h.mayLead hok hn with hn' | hn'
  · rcases h.mayLead hok hm with hm' | hm'
    · exact hs n m hn' hm'
    · exact hm' n hn
  · exact (hn' m hm).symm

end Exclusion

/-- In every run in which the election is granted only when no other node can have its flag
raised, `IsLeader` is true on one node at most. -/
theorem single_leader {s : Election} (h : s.Reachable fun s l => s.orderly l = true) {n m : ℕ}
    (hn : s.isLeader n = true) (hm : s.isLeader m = true) : n = m := by
  have hexclusive : s.Exclusive := by
    refine Run.invariant (I := Election.Exclusive) h ?_ ?_
    · intro n m hn
      cases hn
    · exact fun s l s' hs hok hstep => (Election.step_cases hstep).exclusive hok hs
  have hleads : ∀ k, s.isLeader k = true → s.mayLead k = true := by
    intro k hk
    obtain ⟨c, hc, hflag⟩ := (Option.any_eq_true _ _).mp hk
    exact Election.mayLead_eq_true.mpr ⟨c, hc, Coordinator.mayLead_iff.mpr (Or.inl hflag)⟩
  exact hexclusive n m (hleads n hn) (hleads m hm)

/-- The first leader is stopped before the election is granted to the second node. -/
theorem single_leader_stopped : ∃ s : Election, s.Reachable (fun s l => s.orderly l = true) ∧
    s.leaders = ["node-1", "node-2"] ∧ s.isLeader 2 = true ∧ ∀ n, s.isLeader n = true → n = 2 := by
  have hplay : (play Election.step Election.orderly Election.init
      [.start 1 "node-1", .start 2 "node-2", .grant 1, .campaign 1, .campaign 1, .deliver 1 0,
        .deliver 2 0, .observe 1, .observe 2, .observe 1, .observe 2, .stop 1 true,
        .observerEnd 1, .campaign 1, .campaign 1, .stop 1 true, .stop 1 true, .grant 2,
        .campaign 2]).any (fun s : Election =>
          decide (s.leaders = ["node-1", "node-2"]) && s.isLeader 2) = true := by decide
  obtain ⟨s, hrun, htest⟩ := Run.exists_of_play (fun _ _ hok => hok) hplay
  simp only [Bool.and_eq_true, decide_eq_true_eq] at htest
  exact ⟨s, hrun, htest.1, htest.2, fun n hn => single_leader hrun hn htest.2⟩

/-- The session of the first leader ends, which nothing on its node reads, and the election
is granted to the second node: both flags are raised. -/
theorem expired_leader_keeps_flag : ∃ s : Election, s.Reachable anyStep ∧
    (s.coords.get 1).map Coordinator.sessionDone = some true ∧ s.holder = some 2 ∧
    s.isLeader 1 = true ∧ s.isLeader 2 = true := by
  have hplay : (play Election.step (fun _ _ => true) Election.init
      [.start 1 "node-1", .start 2 "node-2", .grant 1, .campaign 1, .campaign 1, .sessionEnd 1,
        .grant 2, .campaign 2]).any (fun s : Election =>
          decide ((s.coords.get 1).map Coordinator.sessionDone = some true) &&
          (decide (s.holder = some 2) && (s.isLeader 1 && s.isLeader 2))) = true := by decide
  obtain ⟨s, hrun, htest⟩ := Run.exists_of_play (fun _ _ _ => trivial) hplay
  simp only [Bool.and_eq_true, decide_eq_true_eq] at htest
  exact ⟨s, hrun, htest.1, htest.2.1, htest.2.2.1, htest.2.2.2⟩

end ControlPlane

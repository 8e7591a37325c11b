import ControlPlane.App.Service

/-!
# The lanes of a node

The channels `guard`, `pubGuard` and `queryGuard` count the goroutines that have a place in them:
whatever the order of the steps, and whether a handler returns, fails, is refused or panics, each
place that is taken belongs to one goroutine, which gives it back when it unwinds. So the limits
of the configuration bound the requests of a node and, with them, its publish requests and queries
that are in progress in the database, and no place is ever lost.
-/

namespace ControlPlane

open Transition

/-- The number of goroutines of a node that stand where `f` says. -/
def standing (goroutines : Clustered ℕ Goroutine) (node : ℕ) (f : Stage → Bool) : ℕ :=
  goroutines.count fun g => decide (g.node = node) && f g.stage

namespace Service

variable (s : Service)

/-- The processes of one kind on a node. -/
def running (node : ℕ) (k : TaskKind) : ℕ :=
  s.app.procs.count fun proc => decide (proc.node = node) && decide (proc.pc.kind = k)

/-- The channels hold as many values as goroutines have places in them, and not more than fit. -/
structure Counted (d : Deployment) : Prop where
  taken : ∀ node ch, (s.hosts node).taken ch = standing s.goroutines node (Stage.holds ch)
  room : ∀ node ch, ((s.hosts node).taken ch : ℤ) ≤ (d.settings node).capacity ch

end Service

section Host

variable {c : Settings} {h h' : Host} {ch ch' : Channel}

@[simp] theorem Host.setTaken_taken_self (n : ℕ) : (h.setTaken ch n).taken ch = n := by
  simp [Host.setTaken]

theorem Host.setTaken_taken_of_ne (n : ℕ) (hne : ch' ≠ ch) :
    (h.setTaken ch n).taken ch' = h.taken ch' := by
  simp [Host.setTaken, hne]

theorem Host.acquireGuard_eq_some : h.acquireGuard c ch = some h' ↔
    (h.taken ch : ℤ) < c.capacity ch ∧ h' = h.setTaken ch (h.taken ch + 1) := by
  unfold Host.acquireGuard
  split_ifs with hroom
  · simp [hroom, eq_comm]
  · simp [hroom]

theorem Host.receive_eq_some :
    h.receive ch = some h' ↔ 0 < h.taken ch ∧ h' = h.setTaken ch (h.taken ch - 1) := by
  unfold Host.receive
  split_ifs with hpos
  · simp [hpos, eq_comm]
  · simp [hpos]

/-- A place more in one channel. -/
theorem Host.taken_acquired (hacquire : h.acquireGuard c ch = some h') :
    h'.taken ch' = h.taken ch' + (ch' == ch).toNat := by
  obtain ⟨-, rfl⟩ := Host.acquireGuard_eq_some.mp hacquire
  by_cases heq : ch' = ch
  · subst heq
    simp
  · rw [Host.setTaken_taken_of_ne _ heq]
    simp [heq]

/-- A place less in one channel. -/
theorem Host.taken_released (hpos : 0 < h.taken ch) (ch' : Channel) :
    (h.setTaken ch (h.taken ch - 1)).taken ch' + (ch' == ch).toNat = h.taken ch' := by
  by_cases heq : ch' = ch
  · subst heq
    simp
    omega
  · rw [Host.setTaken_taken_of_ne _ heq]
    simp [heq]

end Host

section Places

variable {c : Settings} {coord : Bool} {h h' : Host} {idle : Bool} {stage : Stage} {move : Move}
  {stage' : Option Stage} {task : Option Task} {ch : Channel}

/-- No handler has `guard` as its lane. -/
theorem Handler.guard_beq_lane {handler : Handler} (hlane : handler.lane = some ch) :
    (Channel.guard == ch) = false := by
  rw [beq_eq_false_iff_ne]
  rintro rfl
  cases handler <;> cases hlane

/-- A request that enters a lane has its place besides that in `guard`. -/
theorem Stage.holds_handling {handler : Handler} (hlane : handler.lane = some ch)
    (ch' : Channel) :
    (Stage.handling handler).holds ch' = (Stage.entered.holds ch' || ch' == ch) := by
  cases ch' with
  | guard => rfl
  | pubGuard => simp [Stage.holds, Stage.lane, hlane, eq_comm]
  | queryGuard => simp [Stage.holds, Stage.lane, hlane, eq_comm]

/-- In a handler, before and after its first store operation, the places are the same. -/
theorem Stage.holds_serving (handler : Handler) (ch : Channel) :
    (Stage.serving handler).holds ch = (Stage.handling handler).holds ch := by
  cases ch <;> rfl

theorem Stage.holds_cleared (ch : Channel) :
    Stage.cleared.holds ch = (Stage.handling .publishEvent).holds ch := by
  cases ch <;> rfl

/-- The deferred functions give back the place in the lane. -/
theorem Stage.leave_places {handler : Handler}
    (hpos : ∀ ch, (Stage.handling handler).holds ch = true → 0 < h.taken ch) (ch : Channel) :
    (h.leave handler.lane).taken ch + ((Stage.handling handler).holds ch).toNat =
      h.taken ch + (Stage.leaving.holds ch).toNat := by
  cases hlane : handler.lane with
  | none => cases ch <;> simp [Stage.holds, Stage.lane, Stage.isRequest, Host.leave, hlane]
  | some lane =>
    have hlanePos : 0 < h.taken lane := by
      apply hpos
      rw [Stage.holds_handling hlane]
      simp
    have htaken := Host.taken_released hlanePos ch
    rw [Stage.holds_handling hlane]
    simp only [Host.leave, Host.releaseGuard]
    cases ch with
    | guard =>
      rw [Handler.guard_beq_lane hlane] at htaken
      simpa [Stage.holds, Stage.isRequest] using htaken
    | pubGuard => simpa [Stage.holds, Stage.lane] using htaken
    | queryGuard => simpa [Stage.holds, Stage.lane] using htaken

/-- A turn takes and gives back as many places as the goroutine has more or less. -/
theorem Stage.Turns.places (hturn : stage.Turns c coord h idle move h' stage' task)
    (hpos : ∀ ch, stage.holds ch = true → 0 < h.taken ch) (ch : Channel) :
    h'.taken ch + (stage.holds ch).toNat = h.taken ch + (stage'.any (Stage.holds ch)).toNat := by
  cases hturn with
  | enter hlane => cases ch <;> simp [Stage.holds, Stage.lane, Stage.isRequest, hlane]
  | acquire hlane hacquire =>
    rw [Host.taken_acquired hacquire, Option.any_some, Stage.holds_handling hlane]
    cases ch with
    | guard => simp [Handler.guard_beq_lane hlane, Stage.holds, Stage.isRequest]
    | pubGuard => simp [Stage.holds, Stage.lane]
    | queryGuard => simp [Stage.holds, Stage.lane]
  | publish _ => cases ch <;> rfl
  | finish => exact Stage.leave_places hpos ch
  | reject =>
    simp only [Stage.holds_cleared] at hpos ⊢
    exact Stage.leave_places hpos ch
  | answer _ =>
    simp only [Stage.holds_serving] at hpos ⊢
    exact Stage.leave_places hpos ch
  | leave hstage hreceive =>
    obtain ⟨hguard, rfl⟩ := Host.receive_eq_some.mp hreceive
    have htaken := Host.taken_released hguard ch
    have hholds : stage.holds ch = (ch == .guard) := by
      rcases hstage with rfl | rfl <;> cases ch <;> rfl
    rw [hholds]
    exact htaken
  | stop hstage => rcases hstage with rfl | rfl <;> cases ch <;> rfl
  | _ => cases ch <;> rfl

theorem Host.room_acquired {ch' : Channel} (hacquire : h.acquireGuard c ch' = some h')
    (hroom : (h.taken ch : ℤ) ≤ c.capacity ch) : (h'.taken ch : ℤ) ≤ c.capacity ch := by
  obtain ⟨hlt, rfl⟩ := Host.acquireGuard_eq_some.mp hacquire
  by_cases heq : ch = ch'
  · subst heq
    rw [Host.setTaken_taken_self]
    exact Int.add_one_le_of_lt hlt
  · rwa [Host.setTaken_taken_of_ne _ heq]

theorem Host.taken_setTaken_le (ch' : Channel) :
    (h.setTaken ch' (h.taken ch' - 1)).taken ch ≤ h.taken ch := by
  by_cases heq : ch = ch'
  · subst heq
    simp
  · rw [Host.setTaken_taken_of_ne _ heq]

theorem Host.taken_leave_le (lane : Option Channel) : (h.leave lane).taken ch ≤ h.taken ch := by
  cases lane with
  | none => exact le_refl _
  | some lane => exact Host.taken_setTaken_le lane

/-- A turn does not overfill a channel. -/
theorem Stage.Turns.room (hturn : stage.Turns c coord h idle move h' stage' task)
    (hroom : (h.taken ch : ℤ) ≤ c.capacity ch) : (h'.taken ch : ℤ) ≤ c.capacity ch := by
  cases hturn with
  | acquire hlane hacquire => exact Host.room_acquired hacquire hroom
  | finish => exact (Int.ofNat_le.mpr (Host.taken_leave_le _)).trans hroom
  | reject => exact (Int.ofNat_le.mpr (Host.taken_setTaken_le _)).trans hroom
  | answer _ => exact (Int.ofNat_le.mpr (Host.taken_leave_le _)).trans hroom
  | leave hstage hreceive =>
    obtain ⟨-, rfl⟩ := Host.receive_eq_some.mp hreceive
    exact (Int.ofNat_le.mpr (Host.taken_setTaken_le _)).trans hroom
  | _ => exact hroom

end Places

section Counted

variable {d : Deployment} {s t : Service} {l : ServiceLabel} {p node : ℕ} {stage : Stage}

/-- A new goroutine is counted on its node. -/
theorem standing_put {goroutines : Clustered ℕ Goroutine} (node : ℕ) (stage : Stage)
    (hget : goroutines.get p = none) (node' : ℕ) (f : Stage → Bool) :
    standing (goroutines.put p ⟨node, stage⟩) node' f =
      standing goroutines node' f + (decide (node = node') && f stage).toNat := by
  have hcount := Clustered.count_put goroutines (fun g => decide (g.node = node') && f g.stage) p
    ⟨node, stage⟩
  rw [hget] at hcount
  exact hcount

/-- A goroutine that goes on is counted where it then stands. -/
theorem Service.standing_move (stage' : Option Stage)
    (hget : s.goroutines.get p = some ⟨node, stage⟩) (node' : ℕ) (f : Stage → Bool) :
    standing (s.move p node stage') node' f + (decide (node = node') && f stage).toNat =
      standing s.goroutines node' f + (decide (node = node') && stage'.any f).toNat := by
  cases stage' with
  | none =>
    have hcount := Clustered.count_erase s.goroutines
      (fun g => decide (g.node = node') && f g.stage) p
    rw [hget, Option.any_some] at hcount
    rw [Option.any_none, Bool.and_false]
    exact hcount
  | some next =>
    have hcount := Clustered.count_put s.goroutines
      (fun g => decide (g.node = node') && f g.stage) p ⟨node, next⟩
    rw [hget, Option.any_some] at hcount
    exact hcount

/-- A goroutine is counted where it stands. -/
theorem Service.standing_pos {f : Stage → Bool} (hget : s.goroutines.get p = some ⟨node, stage⟩)
    (hf : f stage = true) : 0 < standing s.goroutines node f := by
  by_contra hzero
  have hnone := Clustered.count_eq_zero.mp (Nat.eq_zero_of_not_pos hzero) p _ hget
  simp [hf] at hnone

/-- The channels of one node change with its goroutines. -/
theorem Service.Counted.update (h : s.Counted d) {host : Host}
    (hhosts : t.hosts = Function.update s.hosts node host)
    (hroom : ∀ ch, (host.taken ch : ℤ) ≤ (d.settings node).capacity ch)
    (hself : ∀ ch, host.taken ch = standing t.goroutines node (Stage.holds ch))
    (hothers : ∀ node' ≠ node, ∀ ch, standing t.goroutines node' (Stage.holds ch) =
      standing s.goroutines node' (Stage.holds ch)) : t.Counted d := by
  constructor
  · intro node' ch
    by_cases hnode : node' = node
    · rw [hhosts, hnode, Function.update_self, hself]
    · rw [hhosts, Function.update_of_ne hnode, h.taken, hothers node' hnode]
  · intro node' ch
    by_cases hnode : node' = node
    · rw [hhosts, hnode, Function.update_self]
      exact hroom ch
    · rw [hhosts, Function.update_of_ne hnode]
      exact h.room node' ch

/-- Every step keeps the channels in agreement with the goroutines. -/
theorem Service.Counted.moves (h : s.Counted d) (hmove : s.Moves d l t) : t.Counted d := by
  cases hmove with
  | app hspawn happ => exact ⟨h.taken, h.room⟩
  | start hstarted hne hp hq =>
    rename_i p q node
    refine ⟨fun node' ch => ?_, h.room⟩
    have hq' : (s.goroutines.put p ⟨node, .relayWaiting⟩).get q = none := by
      rw [Clustered.get_put, if_neg hne.symm]
      exact hq.1
    rw [h.taken, standing_put _ _ hq', standing_put _ _ hp.1]
    cases ch <;> simp [Stage.holds, Stage.isRequest, Stage.lane]
  | arrive hfree hacquire =>
    rename_i p node host
    refine h.update rfl (fun ch => Host.room_acquired hacquire (h.room node ch)) ?_ ?_
    · intro ch
      rw [Host.taken_acquired hacquire, h.taken, standing_put _ _ hfree.1]
      cases ch <;> simp [Stage.holds, Stage.isRequest, Stage.lane]
    · intro node' hnode ch
      rw [standing_put _ _ hfree.1]
      simp [hnode.symm]
  | busy hfree hacquire => exact h
  | turn hget hturn happ =>
    rename_i p node stage move host stage' task app
    have hturns := Stage.turn_turns hturn
    have hpos : ∀ ch, stage.holds ch = true → 0 < (s.hosts node).taken ch := by
      intro ch hch
      rw [h.taken]
      exact Service.standing_pos hget hch
    refine h.update rfl (fun ch => hturns.room (h.room node ch)) ?_ ?_
    · intro ch
      have hplaces := hturns.places hpos ch
      have hcount := Service.standing_move stage' hget node (Stage.holds ch)
      rw [← h.taken, decide_eq_true rfl, Bool.true_and, Bool.true_and] at hcount
      exact Nat.add_right_cancel (hplaces.trans hcount.symm)
    · intro node' hnode ch
      have hcount := Service.standing_move stage' hget node' (Stage.holds ch)
      rw [decide_eq_false hnode.symm, Bool.false_and, Bool.false_and] at hcount
      exact hcount
  | lead =>
    refine h.update rfl (h.room _) (h.taken _) ?_
    intro node' hnode ch
    rfl

/-- In every reachable state the channels agree with the goroutines. -/
theorem Service.Reachable.counted {ok : Service → ServiceLabel → Prop} (h : s.Reachable d ok) :
    s.Counted d := by
  refine h.invariant (I := fun s => s.Counted d) ?_ fun _ _ _ ha _ hmove => ha.moves hmove
  intro clock
  refine ⟨fun node ch => rfl, fun node ch => ?_⟩
  have hcapacity : 0 ≤ (d.settings node).capacity ch := by
    cases ch <;> exact (zero_le_one.trans (le_max_left _ _))
  exact hcapacity

end Counted

/-- The stages of the loop of the relay. -/
def Stage.isRelay : Stage → Bool
  | .relayWaiting | .relayUnpaused | .relayCleared | .relayBatch => true
  | _ => false

/-- The stages of the loop of the cleanup. -/
def Stage.isCleanup : Stage → Bool
  | .cleanupWaiting | .cleanupRunning => true
  | _ => false

section Loops

variable {d : Deployment} {s t : Service} {l : ServiceLabel} {c : Settings} {coord : Bool}
  {h h' : Host} {idle : Bool} {stage : Stage} {move : Move} {stage' : Option Stage}
  {task : Option Task}

/-- A goroutine stays what it is. -/
theorem Stage.Turns.isRelay (hturn : stage.Turns c coord h idle move h' stage' task)
    (hnext : stage'.any Stage.isRelay = true) : stage.isRelay = true := by
  cases hturn <;> first | rfl | cases hnext

theorem Stage.Turns.isCleanup (hturn : stage.Turns c coord h idle move h' stage' task)
    (hnext : stage'.any Stage.isCleanup = true) : stage.isCleanup = true := by
  cases hturn <;> first | rfl | cases hnext

/-- A node has a loop at most once, as `Run` starts it and no other goroutine becomes one. -/
theorem Service.Reachable.standing_le {ok : Service → ServiceLabel → Prop} (hs : s.Reachable d ok)
    {f : Stage → Bool} (hentered : f .entered = false)
    (hstart : (f .relayWaiting).toNat + (f .cleanupWaiting).toNat ≤ 1)
    (hturn : ∀ {c coord h idle stage move h' stage' task},
      Stage.Turns c coord h idle stage move h' stage' task → stage'.any f = true → f stage = true)
    (node : ℕ) : standing s.goroutines node f ≤ (s.started node).toNat := by
  refine hs.invariant (I := fun s => ∀ node, standing s.goroutines node f ≤
    (s.started node).toNat) (fun _ _ => le_refl _) ?_ node
  intro a l b ha hok hmove node'
  cases hmove with
  | app hspawn happ => exact ha node'
  | start hstarted hne hp hq =>
    rename_i p q node
    have hq' : (a.goroutines.put p ⟨node, .relayWaiting⟩).get q = none := by
      rw [Clustered.get_put, if_neg hne.symm]
      exact hq.1
    rw [standing_put _ _ hq', standing_put _ _ hp.1]
    have hold := ha node'
    by_cases hnode : node = node'
    · subst hnode
      rw [hstarted] at hold
      simp only [decide_true, Bool.true_and, Function.update_self, Bool.toNat_true]
      simp only [Bool.toNat_false] at hold
      omega
    · simpa [hnode, Function.update_of_ne (Ne.symm hnode)] using hold
  | arrive hfree hacquire =>
    rw [standing_put _ _ hfree.1, hentered, Bool.and_false]
    exact ha node'
  | busy hfree hacquire => exact ha node'
  | turn hget hturn' happ =>
    rename_i p node stage move host stage' task app
    have hcount := Service.standing_move stage' hget node' f
    have hle : (decide (node = node') && stage'.any f).toNat ≤
        (decide (node = node') && f stage).toNat := by
      cases hany : stage'.any f with
      | false => simp
      | true => rw [hturn (Stage.turn_turns hturn') hany]
    have hold := ha node'
    simp only
    omega
  | lead => exact ha node'

/-- Where every goroutine with a process of kind `k` stands, there are as many as processes. -/
theorem Service.Attended.running_le (h : s.Attended) {k : TaskKind} {f : Stage → Bool}
    (hf : ∀ stage : Stage, stage.kind = some k → f stage = true) (node : ℕ) :
    s.running node k ≤ standing s.goroutines node f := by
  refine Clustered.count_le_count ?_
  intro p proc hproc hcounts
  rw [Bool.and_eq_true, decide_eq_true_eq, decide_eq_true_eq] at hcounts
  obtain ⟨stage, hget, hkind⟩ := h p proc hproc
  refine ⟨⟨proc.node, stage⟩, hget, ?_⟩
  rw [Bool.and_eq_true, decide_eq_true_eq]
  exact ⟨hcounts.1, hf stage (hkind.trans (congrArg some hcounts.2))⟩

/-- A publish request in progress has a place in `pubGuard`. -/
theorem Stage.holds_pubGuard (hkind : stage.kind = some .publish) :
    stage.holds .pubGuard = true := by
  cases stage with
  | serving handler => cases handler <;> first | rfl | cases hkind
  | _ => cases hkind

/-- A query in progress has a place in `queryGuard`. -/
theorem Stage.holds_queryGuard (hkind : stage.kind = some .recent) :
    stage.holds .queryGuard = true := by
  cases stage with
  | serving handler => cases handler <;> first | rfl | cases hkind
  | _ => cases hkind

theorem Stage.isRelay_of_kind (hkind : stage.kind = some .relay) : stage.isRelay = true := by
  cases stage with
  | relayBatch => rfl
  | serving handler => cases handler <;> cases hkind
  | _ => cases hkind

theorem Stage.isCleanup_of_kind (hkind : stage.kind = some .cleanup) : stage.isCleanup = true := by
  cases stage with
  | cleanupRunning => rfl
  | serving handler => cases handler <;> cases hkind
  | _ => cases hkind

end Loops

/-- **The limits of a node hold.** In every reachable state of the service at most
`MaxConcurrentRequests` goroutines of a node serve requests; of the processes in the database at
most `MaxConcurrentPublishes` are publish requests of the node, counting those whose client has
given up, and at most `MaxConcurrentQueries` its queries; at most one is a batch of its relay and
at most one a run of its cleanup. -/
theorem node_load_bounded {d : Deployment} {s : Service} (h : s.Reachable d anyStep) (node : ℕ) :
    (standing s.goroutines node Stage.isRequest : ℤ) ≤
        max 1 (d.settings node).maxConcurrentRequests ∧
      (s.running node .publish : ℤ) ≤ max 1 (d.settings node).maxConcurrentPublishes ∧
      (s.running node .recent : ℤ) ≤ max 1 (d.settings node).maxConcurrentQueries ∧
      s.running node .relay ≤ 1 ∧ s.running node .cleanup ≤ 1 := by
  have hcounted := h.counted
  have hattended := h.attended
  have hchannel (ch : Channel) : (standing s.goroutines node (Stage.holds ch) : ℤ) ≤
      (d.settings node).capacity ch := by
    rw [← hcounted.taken]
    exact hcounted.room node ch
  have hpublish := hattended.running_le (fun _ => Stage.holds_pubGuard) node
  have hrecent := hattended.running_le (fun _ => Stage.holds_queryGuard) node
  have hrelay := hattended.running_le (fun _ => Stage.isRelay_of_kind) node
  have hcleanup := hattended.running_le (fun _ => Stage.isCleanup_of_kind) node
  have hrelays := h.standing_le rfl (by decide) Stage.Turns.isRelay node
  have hcleanups := h.standing_le rfl (by decide) Stage.Turns.isCleanup node
  refine ⟨hchannel .guard, ?_, ?_, ?_, ?_⟩
  · exact (Int.ofNat_le.mpr hpublish).trans (hchannel .pubGuard)
  · exact (Int.ofNat_le.mpr hrecent).trans (hchannel .queryGuard)
  · exact (hrelay.trans hrelays).trans (Bool.toNat_le _)
  · exact (hcleanup.trans hcleanups).trans (Bool.toNat_le _)

/-- One node with two places, one of them for publish requests, that only writes as the leader. -/
def smallDeployment : Deployment where
  settings := fun _ => { Settings.fromEnv ⟨fun _ => "", none⟩ with
    maxConcurrentRequests := 2
    maxConcurrentPublishes := 1
    requireLeaderForWrites := true }
  coord := fun _ => true

/-- A list of labels that leads to a state passing a test shows that such a state is reachable. -/
theorem Service.Reachable.of_play (d : Deployment) (ls : List ServiceLabel)
    (test : Service → Bool)
    (h : (play (Service.step d) (fun _ _ => true) (Service.init d 5000000) ls).any test = true) :
    ∃ s : Service, s.Reachable d anyStep ∧ test s = true := by
  have hcheck : ∀ (s : Service) (l : ServiceLabel), true = true → anyStep s l :=
    fun _ _ _ => trivial
  obtain ⟨s, hrun, htest⟩ := Run.exists_of_play hcheck h
  exact ⟨s, ⟨5000000, hrun⟩, htest⟩

/-- A request publishes, another finds its lane taken, and a third the node. -/
def crowdedNode : List ServiceLabel :=
  [.lead 0 true, .start 8 9 0, .arrive 0 0, .turn 0 (.route .publishEvent), .turn 0 .check,
    .turn 0 (.publish orderCall 1 true), .arrive 1 0, .turn 1 (.route .publishEvent),
    .arrive 2 0]

/-- The limits are reached and hold. -/
theorem node_load_bounded_crowded : ∃ s : Service, s.Reachable smallDeployment anyStep ∧
    s.running 0 .publish = 1 ∧ s.goroutines.get 1 = some ⟨0, .leaving⟩ ∧
    s.goroutines.get 2 = none ∧ standing s.goroutines 0 Stage.isRequest = 2 ∧
    (s.running 0 .publish : ℤ) ≤ max 1 (smallDeployment.settings 0).maxConcurrentPublishes := by
  obtain ⟨s, hs, htest⟩ := Service.Reachable.of_play smallDeployment crowdedNode
    (fun s => decide (s.running 0 .publish = 1) &&
      decide (s.goroutines.get 1 = some ⟨0, .leaving⟩) && decide (s.goroutines.get 2 = none) &&
      decide (standing s.goroutines 0 Stage.isRequest = 2)) (by decide +kernel)
  simp only [Bool.and_eq_true, decide_eq_true_eq] at htest
  obtain ⟨⟨⟨hrunning, hone⟩, htwo⟩, hstanding⟩ := htest
  exact ⟨s, hs, hrunning, hone, htwo, hstanding, (node_load_bounded hs 0).2.1⟩

section Unwind

variable {d : Deployment} {s : Service} {p node : ℕ} {stage : Stage}

/-- A turn that starts no process. -/
theorem Service.step_turn {move : Move} {h : Host} {stage' : Option Stage}
    (hget : s.goroutines.get p = some ⟨node, stage⟩)
    (hturn : stage.turn (d.settings node) (d.coord node) (s.hosts node) (s.app.procs.get p).isNone
      move = some (h, stage', none)) :
    s.step d (.turn p move) = some { s with
      hosts := Function.update s.hosts node h
      goroutines := s.move p node stage' } := by
  simp only [Service.step, hget, hturn, Option.bind_some, Service.launch, Option.map_some]

/-- A request without a process leaves its lane, and then has its place in `guard` only. -/
theorem Service.unwind_lane (hget : s.goroutines.get p = some ⟨node, stage⟩)
    (hrequest : stage.isRequest = true) (hentered : stage ≠ .entered)
    (hleaving : stage ≠ .leaving) (hended : s.app.procs.get p = none) :
    ∃ t, s.step d (.turn p .unwind) = some t ∧ t.app = s.app ∧
      t.goroutines = s.goroutines.put p ⟨node, .leaving⟩ := by
  have hturn : ∃ h, stage.turn (d.settings node) (d.coord node) (s.hosts node)
      (s.app.procs.get p).isNone .unwind = some (h, some .leaving, none) := by
    rw [hended]
    cases stage with
    | handling handler => exact ⟨(s.hosts node).leave handler.lane, by cases handler <;> rfl⟩
    | cleared => exact ⟨_, rfl⟩
    | serving handler => exact ⟨(s.hosts node).leave handler.lane, by cases handler <;> rfl⟩
    | entered => exact absurd rfl hentered
    | leaving => exact absurd rfl hleaving
    | _ => cases hrequest
  obtain ⟨h, hturn⟩ := hturn
  exact ⟨_, Service.step_turn hget hturn, rfl, rfl⟩

/-- The receive from `guard` does not block. -/
theorem Service.Counted.unwind_guard (h : s.Counted d)
    (hget : s.goroutines.get p = some ⟨node, stage⟩)
    (hstage : stage = .entered ∨ stage = .leaving) :
    ∃ t, s.step d (.turn p .unwind) = some t ∧ t.app = s.app ∧
      t.goroutines = s.goroutines.erase p := by
  have hpos : 0 < (s.hosts node).taken .guard := by
    rw [h.taken]
    refine Service.standing_pos hget ?_
    rcases hstage with rfl | rfl <;> rfl
  have hreceive := Host.receive_eq_some.mpr ⟨hpos, rfl⟩
  rcases hstage with rfl | rfl
  · exact ⟨_, Service.step_turn hget (congrArg (Option.map _) hreceive), rfl, rfl⟩
  · exact ⟨_, Service.step_turn hget (congrArg (Option.map _) hreceive), rfl, rfl⟩

theorem Service.Reachable.snoc {ok : Service → ServiceLabel → Prop} {t : Service}
    (h : s.Reachable d ok) (hrun : Run (Service.step d) ok s t) : t.Reachable d ok := by
  obtain ⟨clock, hs⟩ := h
  exact ⟨clock, hs.trans hrun⟩

end Unwind

/-- **No place is lost.** From every reachable state a request whose process has ended, however it
ended, can unwind by its own steps alone: no deferred function blocks, and each channel of its node
then holds one value less for the place that the request had, whatever the other requests do. -/
theorem places_returned {d : Deployment} {s : Service} (h : s.Reachable d anyStep) {p node : ℕ}
    {stage : Stage} (hget : s.goroutines.get p = some ⟨node, stage⟩)
    (hrequest : stage.isRequest = true) (hended : s.app.procs.get p = none) :
    ∃ t, Run (Service.step d) (fun _ l => l = .turn p .unwind) s t ∧ t.app = s.app ∧
      t.goroutines = s.goroutines.erase p ∧ ∀ ch,
        (t.hosts node).taken ch + (stage.holds ch).toNat = (s.hosts node).taken ch := by
  suffices hunwind : ∃ t, Run (Service.step d) (fun _ l => l = .turn p .unwind) s t ∧
      t.app = s.app ∧ t.goroutines = s.goroutines.erase p by
    obtain ⟨t, hrun, happ, hgone⟩ := hunwind
    refine ⟨t, hrun, happ, hgone, fun ch => ?_⟩
    have hcount := Clustered.count_erase s.goroutines
      (fun g => decide (g.node = node) && g.stage.holds ch) p
    rw [hget, Option.any_some, decide_eq_true rfl, Bool.true_and] at hcount
    rw [h.counted.taken, (h.snoc hrun.any).counted.taken, hgone]
    exact hcount
  by_cases hstage : stage = .entered ∨ stage = .leaving
  · obtain ⟨t, hstep, happ, hgone⟩ := h.counted.unwind_guard hget hstage
    exact ⟨t, (Run.refl s).snoc rfl hstep, happ, hgone⟩
  · rw [not_or] at hstage
    obtain ⟨t, hstep, happ, hleaving⟩ :=
      Service.unwind_lane hget hrequest hstage.1 hstage.2 hended
    have hrun : Run (Service.step d) (fun _ l => l = .turn p .unwind) s t :=
      (Run.refl s).snoc rfl hstep
    have hget' : t.goroutines.get p = some ⟨node, .leaving⟩ := by
      rw [hleaving]
      simp
    obtain ⟨u, hstep', happ', hgone⟩ := (h.snoc hrun.any).counted.unwind_guard hget' (.inr rfl)
    refine ⟨u, hrun.snoc rfl hstep', happ'.trans happ, ?_⟩
    rw [hgone, hleaving]
    refine Clustered.ext_get fun q => ?_
    rw [Clustered.get_erase, Clustered.get_erase, Clustered.get_put]
    split_ifs <;> rfl

/-- A request that crashed in the middle of its publication gives back both its places. -/
theorem places_returned_crash : ∃ s t : Service, s.Reachable smallDeployment anyStep ∧
    s.goroutines.get 0 = some ⟨0, .serving .publishEvent⟩ ∧ (s.hosts 0).taken .pubGuard = 1 ∧
    Run (Service.step smallDeployment) (fun _ l => l = .turn 0 .unwind) s t ∧
    t.goroutines.get 0 = none ∧ (t.hosts 0).taken .pubGuard = 0 := by
  obtain ⟨s, hs, htest⟩ := Service.Reachable.of_play smallDeployment
    (crowdedNode ++ [.app (.crash 0)])
    (fun s => decide (s.goroutines.get 0 = some ⟨0, .serving .publishEvent⟩) &&
      decide (s.app.procs.get 0 = none) && decide ((s.hosts 0).taken .pubGuard = 1))
    (by decide +kernel)
  simp only [Bool.and_eq_true, decide_eq_true_eq] at htest
  obtain ⟨⟨hget, hended⟩, htaken⟩ := htest
  obtain ⟨t, hrun, -, hgone, hplaces⟩ := places_returned hs hget rfl hended
  have hpub := hplaces .pubGuard
  rw [htaken] at hpub
  refine ⟨s, t, hs, hget, htaken, hrun, ?_, Nat.succ_injective hpub⟩
  rw [hgone]
  simp

end ControlPlane

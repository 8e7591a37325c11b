import ControlPlane.App.Lanes

/-!
# Pausing the relay, and following

The loop of the relay loads the flag `outboxPaused` and the leadership before it starts a batch,
not while the batch runs. An operator who has paused a node may therefore still see one batch
start: that of a loop which had loaded the flag before. What the flag promises is that there is no
second one, and none at all once the loop waits. A node with a coordinator that is never elected
starts no batch and, where writes need the leadership, no publish request.
-/

namespace ControlPlane

open Transition

/-- The loop has found that it is not paused, and has not started a batch yet. -/
def Stage.isAhead : Stage → Bool
  | .relayUnpaused | .relayCleared => true
  | _ => false

/-- The loop has found that it is not paused, or runs a batch. -/
def Stage.isActive : Stage → Bool
  | .relayUnpaused | .relayCleared | .relayBatch => true
  | _ => false

namespace Service

variable (s : Service) (node : ℕ)

/-- The goroutine of the node whose turn is a chosen one. -/
def chosen (choice : Stage → Move → Bool) : ServiceLabel → List ℕ
  | .turn p move =>
      match s.goroutines.get p with
      | some ⟨node', stage⟩ => if node' = node ∧ choice stage move then [p] else []
      | none => []
  | _ => []

/-- The goroutine whose batch starts on the node by this step. -/
def batchStarts : ServiceLabel → List ℕ :=
  s.chosen node fun stage move => stage == .relayCleared && move == .loop

/-- The step is not the request of an operator to go on with the relay of the node. -/
def KeepsPaused (node : ℕ) (s : Service) : ServiceLabel → Prop
  | .turn p (.setPaused false) => ∀ stage, s.goroutines.get p ≠ some ⟨node, stage⟩
  | _ => True

end Service

section Paused

variable {c : Settings} {coord : Bool} {h h' : Host} {idle : Bool} {stage : Stage} {move : Move}
  {stage' : Option Stage} {task : Option Task}

/-- The channels are all that a goroutine changes when it takes or leaves a place. -/
theorem Host.acquireGuard_flags {ch : Channel} (hacquire : h.acquireGuard c ch = some h') :
    h'.outboxPaused = h.outboxPaused ∧ h'.isLeader = h.isLeader := by
  obtain ⟨-, rfl⟩ := Host.acquireGuard_eq_some.mp hacquire
  exact ⟨rfl, rfl⟩

theorem Host.leave_flags (lane : Option Channel) :
    (h.leave lane).outboxPaused = h.outboxPaused ∧ (h.leave lane).isLeader = h.isLeader := by
  cases lane <;> exact ⟨rfl, rfl⟩

theorem Host.receive_flags {ch : Channel} (hreceive : h.receive ch = some h') :
    h'.outboxPaused = h.outboxPaused ∧ h'.isLeader = h.isLeader := by
  obtain ⟨-, rfl⟩ := Host.receive_eq_some.mp hreceive
  exact ⟨rfl, rfl⟩

/-- Only an operator clears the flag. -/
theorem Stage.Turns.paused_of (hturn : stage.Turns c coord h idle move h' stage' task)
    (hpaused : h.outboxPaused = true) (hmove : move ≠ .setPaused false) :
    h'.outboxPaused = true := by
  cases hturn with
  | pause =>
    rename_i paused
    cases paused with
    | false => exact absurd rfl hmove
    | true => rfl
  | acquire hlane hacquire => rw [(Host.acquireGuard_flags hacquire).1, hpaused]
  | finish => rw [(Host.leave_flags _).1, hpaused]
  | answer _ => rw [(Host.leave_flags _).1, hpaused]
  | leave hstage hreceive => rw [(Host.receive_flags hreceive).1, hpaused]
  | _ => exact hpaused

/-- No goroutine changes the leadership. -/
theorem Stage.Turns.isLeader_eq (hturn : stage.Turns c coord h idle move h' stage' task) :
    h'.isLeader = h.isLeader := by
  cases hturn with
  | acquire hlane hacquire => exact (Host.acquireGuard_flags hacquire).2
  | finish => exact (Host.leave_flags _).2
  | answer _ => exact (Host.leave_flags _).2
  | leave hstage hreceive => exact (Host.receive_flags hreceive).2
  | _ => rfl

/-- While the flag is set, no loop gets ahead, and a batch starts from a loop that was. -/
theorem Stage.Turns.ahead (hturn : stage.Turns c coord h idle move h' stage' task)
    (hpaused : h.outboxPaused = true) :
    (stage'.any Stage.isAhead).toNat + (stage == .relayCleared && move == .loop).toNat ≤
      stage.isAhead.toNat := by
  cases hturn with
  | unpaused hunpaused =>
    rw [hpaused] at hunpaused
    cases hunpaused
  | leave hstage _ => rcases hstage with rfl | rfl <;> decide
  | stop hstage => rcases hstage with rfl | rfl <;> decide
  | leads _ => decide
  | batch => decide
  | _ => exact Nat.zero_le _

/-- While the flag is set, no loop becomes active. -/
theorem Stage.Turns.active (hturn : stage.Turns c coord h idle move h' stage' task)
    (hpaused : h.outboxPaused = true) :
    (stage'.any Stage.isActive).toNat + false.toNat ≤ stage.isActive.toNat := by
  cases hturn with
  | unpaused hunpaused =>
    rw [hpaused] at hunpaused
    cases hunpaused
  | leads _ => exact le_refl _
  | batch => exact le_refl _
  | _ => exact Nat.zero_le _

theorem Stage.isActive_of_kind (hkind : stage.kind = some .relay) : stage.isActive = true := by
  cases stage with
  | relayBatch => rfl
  | serving handler => cases handler <;> cases hkind
  | _ => cases hkind

end Paused

section PausedRun

variable {d : Deployment} {s t : Service} {l : ServiceLabel} {node : ℕ}

/-- Steps that keep the flag. -/
theorem Service.Moves.paused (hmove : s.Moves d l t) (hkeeps : s.KeepsPaused node l)
    (hpaused : (s.hosts node).outboxPaused = true) : (t.hosts node).outboxPaused = true := by
  cases hmove with
  | arrive hfree hacquire =>
    rename_i p node' host
    by_cases hnode : node = node'
    · subst hnode
      simp only [Function.update_self]
      rw [(Host.acquireGuard_flags hacquire).1, hpaused]
    · simpa [hnode] using hpaused
  | turn hget hturn happ =>
    rename_i p node' stage move host stage' task app
    by_cases hnode : node = node'
    · subst hnode
      simp only [Function.update_self]
      refine (Stage.turn_turns hturn).paused_of hpaused ?_
      rintro rfl
      exact hkeeps stage hget
    · simpa [hnode] using hpaused
  | lead =>
    rename_i node' isLeader
    by_cases hnode : node = node'
    · subst hnode
      simpa using hpaused
    · simpa [hnode] using hpaused
  | _ => exact hpaused

/-- If each turn on the node leads from stages that `f` counts to stages that it counts, and a
chosen turn to one that it does not count, then chosen turns use up what `f` counts. -/
theorem Service.Moves.standing_le {f : Stage → Bool} {choice : Stage → Move → Bool}
    (hmove : s.Moves d l t) (hentered : f .entered = false) (hrelay : f .relayWaiting = false)
    (hcleanup : f .cleanupWaiting = false)
    (hturn : ∀ {idle stage move h' stage' task}, Stage.Turns (d.settings node) (d.coord node)
      (s.hosts node) idle stage move h' stage' task →
      (stage'.any f).toNat + (choice stage move).toNat ≤ (f stage).toNat) :
    standing t.goroutines node f + (s.chosen node choice l).length ≤
      standing s.goroutines node f := by
  cases hmove with
  | app hspawn happ => exact le_refl _
  | start hstarted hne hp hq =>
    rename_i p q node'
    have hq' : (s.goroutines.put p ⟨node', .relayWaiting⟩).get q = none := by
      rw [Clustered.get_put, if_neg hne.symm]
      exact hq.1
    rw [standing_put _ _ hq', standing_put _ _ hp.1, hrelay, hcleanup]
    simp [Service.chosen]
  | arrive hfree hacquire =>
    rw [standing_put _ _ hfree.1, hentered]
    simp [Service.chosen]
  | busy hfree hacquire => exact le_refl _
  | turn hget hturn' happ =>
    rename_i p node' stage move host stage' task app
    have hcount := Service.standing_move stage' hget node f
    simp only [Service.chosen, hget]
    by_cases hnode : node' = node
    · subst hnode
      have hle := hturn (Stage.turn_turns hturn')
      rw [decide_eq_true rfl, Bool.true_and, Bool.true_and] at hcount
      have hlength : (if node' = node' ∧ choice stage move then [p] else []).length =
          (choice stage move).toNat := by
        cases choice stage move <;> simp
      rw [hlength]
      omega
    · rw [decide_eq_false hnode, Bool.false_and, Bool.false_and] at hcount
      rw [if_neg fun hand => hnode hand.1]
      exact hcount.le
  | lead => exact le_refl _

/-- What `f` counts, `g` counts if it is weaker. -/
theorem standing_mono {goroutines : Clustered ℕ Goroutine} {f g : Stage → Bool}
    (h : ∀ stage, f stage = true → g stage = true) (node : ℕ) :
    standing goroutines node f ≤ standing goroutines node g := by
  refine Clustered.count_le_count fun p goroutine hget hf => ⟨goroutine, hget, ?_⟩
  rw [Bool.and_eq_true] at hf ⊢
  exact ⟨hf.1, h _ hf.2⟩

/-- The flag, and what is left of a start that was decided before it was set. -/
structure Service.Pausing (s : Service) (node ahead active : ℕ) (log : List ℕ) : Prop where
  paused : (s.hosts node).outboxPaused = true
  ahead : standing s.goroutines node Stage.isAhead + log.length ≤ ahead
  active : standing s.goroutines node Stage.isActive ≤ active

theorem Service.Pausing.moves {ahead active : ℕ} {log : List ℕ}
    (h : s.Pausing node ahead active log) (hkeeps : s.KeepsPaused node l) (hmove : s.Moves d l t) :
    t.Pausing node ahead active (s.batchStarts node l ++ log) where
  paused := hmove.paused hkeeps h.paused
  ahead := by
    have hle : standing t.goroutines node Stage.isAhead + (s.batchStarts node l).length ≤
        standing s.goroutines node Stage.isAhead :=
      hmove.standing_le rfl rfl rfl fun hturn => hturn.ahead h.paused
    rw [List.length_append]
    have hahead := h.ahead
    omega
  active := by
    have hle : standing t.goroutines node Stage.isActive +
        (s.chosen node (fun _ _ => false) l).length ≤ standing s.goroutines node Stage.isActive :=
      hmove.standing_le rfl rfl rfl fun hturn => hturn.active h.paused
    exact (Nat.le_of_add_right_le hle).trans h.active

end PausedRun

/-- **A paused relay stops.** On a paused node, whatever happens short of a resumption, at most one
batch starts; none starts unless the loop had loaded the flag before the pause; and if the loop was
waiting, no process of the relay of the node runs from then on. -/
theorem pause_stops_relay {d : Deployment} {a b : Service} (h : a.Reachable d anyStep) {node : ℕ}
    (hpaused : (a.hosts node).outboxPaused = true) {log : List ℕ}
    (hrun : Run (logged (Service.step d) fun s l => s.batchStarts node l)
      (fun x l => x.1.KeepsPaused node l) (a, []) (b, log)) :
    log.length ≤ 1 ∧ (standing a.goroutines node Stage.isAhead = 0 → log = []) ∧
      (standing a.goroutines node Stage.isActive = 0 → b.running node .relay = 0) := by
  have hpausing : b.Attended ∧ b.Pausing node (standing a.goroutines node Stage.isAhead)
      (standing a.goroutines node Stage.isActive) log := by
    have hstart : a.Attended ∧ a.Pausing node (standing a.goroutines node Stage.isAhead)
        (standing a.goroutines node Stage.isActive) [] :=
      ⟨h.attended, hpaused, le_refl _, le_refl _⟩
    refine hrun.logged_invariant (I := fun (s : Service) log => s.Attended ∧ s.Pausing node _ _ log)
      hstart ?_
    rintro s log l t ⟨hattended, hs⟩ hkeeps hstep
    have hmove := Service.step_moves hstep
    exact ⟨hattended.moves hmove, hs.moves hkeeps hmove⟩
  obtain ⟨hattended, hpausing⟩ := hpausing
  -- At most one loop of the node is ahead, as it has at most one.
  have hone : standing a.goroutines node Stage.isAhead ≤ 1 := by
    have hrelay := h.standing_le rfl (by decide) Stage.Turns.isRelay node
    have hle : standing a.goroutines node Stage.isAhead ≤
        standing a.goroutines node Stage.isRelay :=
      standing_mono (fun stage hstage => by cases stage <;> first | rfl | cases hstage) node
    exact (hle.trans hrelay).trans (Bool.toNat_le _)
  have hahead := hpausing.ahead
  refine ⟨by omega, ?_, ?_⟩
  · intro hzero
    exact List.eq_nil_of_length_eq_zero (by omega)
  · intro hzero
    have hrunning := hattended.running_le (fun _ => Stage.isActive_of_kind) node
    exact Nat.eq_zero_of_le_zero (hrunning.trans (hpausing.active.trans hzero.le))

/-- The loop of the relay loads the flag before the operator sets it. -/
def pausedLate : List ServiceLabel :=
  [.lead 0 true, .start 8 9 0, .turn 8 .loop, .arrive 0 0, .turn 0 (.route .outboxRelayAdmin),
    .turn 0 (.setPaused true)]

/-- The batch that the loop had decided on starts after the pause. -/
theorem pause_stops_relay_late : ∃ a b : Service, a.Reachable smallDeployment anyStep ∧
    (a.hosts 0).outboxPaused = true ∧
    Run (logged (Service.step smallDeployment) fun s l => s.batchStarts 0 l)
      (fun x l => x.1.KeepsPaused 0 l) (a, []) (b, [8]) ∧ [8].length ≤ 1 := by
  obtain ⟨a, ha, htest⟩ := Service.Reachable.of_play smallDeployment pausedLate
    (fun a => (a.hosts 0).outboxPaused && (play (logged (Service.step smallDeployment)
      fun s l => s.batchStarts 0 l) (fun _ l => decide (l = .turn 8 .loop)) (a, [])
      [.turn 8 .loop, .turn 8 .loop]).any fun x : Service × List ℕ => decide (x.2 = [8]))
    (by decide +kernel)
  rw [Bool.and_eq_true] at htest
  have hcheck : ∀ (x : Service × List ℕ) (l : ServiceLabel),
      decide (l = .turn 8 .loop) = true → x.1.KeepsPaused 0 l := by
    intro x l hl
    rw [of_decide_eq_true hl]
    trivial
  obtain ⟨⟨b, log⟩, hrun, hlog⟩ := Run.exists_of_play hcheck htest.2
  have heq : log = [8] := of_decide_eq_true hlog
  subst heq
  exact ⟨a, b, ha, htest.1, hrun, (pause_stops_relay ha htest.1 hrun).1⟩

/-- A node that is not the leader, and what it therefore does not run. -/
structure Service.Follows (d : Deployment) (node : ℕ) (s : Service) : Prop where
  isLeader : (s.hosts node).isLeader = false
  relay : ∀ p, s.goroutines.get p ≠ some ⟨node, .relayCleared⟩
  publish : (d.settings node).requireLeaderForWrites = true →
    ∀ p, s.goroutines.get p ≠ some ⟨node, .cleared⟩
  relays : ∀ p proc, s.app.procs.get p = some proc → proc.node = node → proc.pc.kind ≠ .relay
  publishes : (d.settings node).requireLeaderForWrites = true → ∀ p proc,
    s.app.procs.get p = some proc → proc.node = node → proc.pc.kind ≠ .publish

section Follower

variable {d : Deployment} {s t : Service} {l : ServiceLabel} {node : ℕ} {c : Settings} {h h' : Host}
  {idle : Bool} {stage : Stage} {move : Move} {stage' : Option Stage} {task : Option Task}

/-- On a follower the loop of the relay does not get past its check. -/
theorem Stage.Turns.relay_of_follower (hturn : stage.Turns c true h idle move h' stage' task)
    (hleader : h.isLeader = false) : stage' ≠ some .relayCleared := by
  rintro rfl
  cases hturn with
  | leads hleads =>
    rw [hleader] at hleads
    cases hleads

/-- On a follower a publish request does not get past its check. -/
theorem Stage.Turns.publish_of_follower (hturn : stage.Turns c true h idle move h' stage' task)
    (hrequire : c.requireLeaderForWrites = true) (hleader : h.isLeader = false) :
    stage' ≠ some .cleared := by
  rintro rfl
  cases hturn with
  | check hchecked =>
    rw [hrequire, hleader] at hchecked
    cases hchecked

/-- Batches and publish requests are started past the checks. -/
theorem Stage.Turns.stage_of_task {started : Task}
    (hturn : stage.Turns c true h idle move h' stage' (some started)) :
    (started.kind = .relay → stage = .relayCleared) ∧
      (started.kind = .publish → stage = .cleared) := by
  cases hturn with
  | publish haccept => exact ⟨nofun, fun _ => rfl⟩
  | serve hne hkind =>
    rename_i handler
    refine ⟨fun hrelay => ?_, fun hpublish => ?_⟩
    · rw [hrelay] at hkind
      cases handler <;> cases hkind
    · rw [hpublish] at hkind
      cases handler <;> first | exact absurd rfl hne | cases hkind
  | deliver hkind _ =>
    rw [hkind]
    exact ⟨nofun, nofun⟩
  | batch => exact ⟨fun _ => rfl, nofun⟩
  | cleanup => exact ⟨nofun, nofun⟩

/-- A goroutine that goes on stands where its turn led, and the others where they stood. -/
theorem Service.get_move_eq_some {p q node' : ℕ} {next : Stage}
    (hget : (s.move p node' stage').get q = some ⟨node, next⟩) :
    (q = p ∧ node = node' ∧ stage' = some next) ∨ s.goroutines.get q = some ⟨node, next⟩ := by
  by_cases hq : q = p
  · subst hq
    cases stage' with
    | none => simp [Service.move] at hget
    | some stage =>
      simp only [Service.move, Clustered.get_put, if_true, Option.some.injEq,
        Goroutine.mk.injEq] at hget
      exact .inl ⟨rfl, hget.1.symm, congrArg some hget.2⟩
  · rw [Service.get_move_of_ne hq] at hget
    exact .inr hget

/-- A process that was not there before was started by the turn of its goroutine. -/
theorem Service.Moves.proc_of {p : ℕ} {proc : Process} (hmove : s.Moves d l t)
    (hproc : t.app.procs.get p = some proc) :
    (∃ pc, s.app.procs.get p = some ⟨proc.node, pc⟩ ∧ pc.kind = proc.pc.kind) ∨
      ∃ stage move host stage' started, s.goroutines.get p = some ⟨proc.node, stage⟩ ∧
        stage.Turns (d.settings proc.node) (d.coord proc.node) (s.hosts proc.node)
          (s.app.procs.get p).isNone move host stage' (some started) ∧
        started.kind = proc.pc.kind := by
  have hold {a : App} (heq : t.app = a) (hsame : a = s.app) :
      ∃ pc, s.app.procs.get p = some ⟨proc.node, pc⟩ ∧ pc.kind = proc.pc.kind :=
    ⟨proc.pc, by rw [← hsame, ← heq]; exact hproc, rfl⟩
  cases hmove with
  | app hspawn happ =>
    rcases (App.step_moves happ).kind hproc with hkept | ⟨task, rfl, -⟩
    · exact .inl hkept
    · cases hspawn
  | turn hget hturn happ =>
    rename_i q node' stage move host stage' task app
    cases task with
    | none =>
      cases happ
      exact .inl (hold rfl rfl)
    | some started =>
      have hspawn : s.app.step d.config (.spawn q node' started) = some app := happ
      rcases (App.step_moves hspawn).kind hproc with hkept | ⟨task, heq, hkind⟩
      · exact .inl hkept
      · cases heq
        exact .inr ⟨stage, move, host, stage', started, hget, Stage.turn_turns hturn, hkind⟩
  | _ => exact .inl (hold rfl rfl)

/-- Goroutines begin where `Run` and the server start them, and go on by their turns. -/
theorem Service.Moves.stage_of {q : ℕ} {next : Stage} (hmove : s.Moves d l t)
    (hget : t.goroutines.get q = some ⟨node, next⟩) :
    s.goroutines.get q = some ⟨node, next⟩ ∨
      (next = .entered ∨ next = .relayWaiting ∨ next = .cleanupWaiting) ∨
      ∃ stage move host task, Stage.Turns (d.settings node) (d.coord node) (s.hosts node)
        (s.app.procs.get q).isNone stage move host (some next) task := by
  cases hmove with
  | start hstarted hne hp hq =>
    rcases Clustered.get_put_cases hget with ⟨-, heq⟩ | ⟨-, hget⟩
    · cases heq
      exact .inr (.inl (.inr (.inr rfl)))
    · rcases Clustered.get_put_cases hget with ⟨-, heq⟩ | ⟨-, hget⟩
      · cases heq
        exact .inr (.inl (.inr (.inl rfl)))
      · exact .inl hget
  | arrive hfree hacquire =>
    rcases Clustered.get_put_cases hget with ⟨-, heq⟩ | ⟨-, hget⟩
    · cases heq
      exact .inr (.inl (.inl rfl))
    · exact .inl hget
  | turn hold hturn happ =>
    rcases Service.get_move_eq_some hget with ⟨rfl, rfl, rfl⟩ | hget
    · exact .inr (.inr ⟨_, _, _, _, Stage.turn_turns hturn⟩)
    · exact .inl hget
  | _ => exact .inl hget

theorem Service.Moves.isLeader_of (hmove : s.Moves d l t) (hl : l ≠ .lead node true)
    (hleader : (s.hosts node).isLeader = false) : (t.hosts node).isLeader = false := by
  cases hmove with
  | arrive hfree hacquire =>
    rename_i p node' host
    by_cases hnode : node = node'
    · subst hnode
      simp only [Function.update_self]
      rw [(Host.acquireGuard_flags hacquire).2, hleader]
    · simpa [hnode] using hleader
  | turn hget hturn happ =>
    rename_i p node' stage move host stage' task app
    by_cases hnode : node = node'
    · subst hnode
      simp only [Function.update_self]
      rw [(Stage.turn_turns hturn).isLeader_eq, hleader]
    · simpa [hnode] using hleader
  | lead =>
    rename_i node' isLeader
    by_cases hnode : node = node'
    · subst hnode
      cases isLeader with
      | true => exact absurd rfl hl
      | false => simp
    · simpa [hnode] using hleader
  | _ => exact hleader

/-- A follower stays one until it is elected. -/
theorem Service.Follows.moves (h : s.Follows d node) (hcoord : d.coord node = true)
    (hl : l ≠ .lead node true) (hmove : s.Moves d l t) : t.Follows d node := by
  constructor
  · exact hmove.isLeader_of hl h.isLeader
  · intro p hget
    rcases hmove.stage_of hget with hold | hnew | ⟨stage, move, host, task, hturn⟩
    · exact h.relay p hold
    · rcases hnew with heq | heq | heq <;> cases heq
    · rw [hcoord] at hturn
      exact hturn.relay_of_follower h.isLeader rfl
  · intro hrequire p hget
    rcases hmove.stage_of hget with hold | hnew | ⟨stage, move, host, task, hturn⟩
    · exact h.publish hrequire p hold
    · rcases hnew with heq | heq | heq <;> cases heq
    · rw [hcoord] at hturn
      exact hturn.publish_of_follower hrequire h.isLeader rfl
  · rintro p proc hproc rfl hrelay
    rcases hmove.proc_of hproc with ⟨pc, hold, hkind⟩ | ⟨stage, move, host, stage', started, hget,
      hturn, hkind⟩
    · exact h.relays p _ hold rfl (hkind.trans hrelay)
    · rw [hcoord] at hturn
      have hstage := hturn.stage_of_task.1 (hkind.trans hrelay)
      exact h.relay p (hstage ▸ hget)
  · rintro hrequire p proc hproc rfl hpublish
    rcases hmove.proc_of hproc with ⟨pc, hold, hkind⟩ | ⟨stage, move, host, stage', started, hget,
      hturn, hkind⟩
    · exact h.publishes hrequire p _ hold rfl (hkind.trans hpublish)
    · rw [hcoord] at hturn
      have hstage := hturn.stage_of_task.2 (hkind.trans hpublish)
      exact h.publish hrequire p (hstage ▸ hget)

end Follower

/-- **A node that is never elected does not write.** Throughout every run in which the coordinator
of a node never becomes the leader, the node runs no batch of its relay; and if writes need the
leadership, it runs no publish request. -/
theorem follower_never_writes {d : Deployment} {s : Service} {node : ℕ}
    (h : s.Reachable d fun _ l => l ≠ .lead node true) (hcoord : d.coord node = true) :
    s.running node .relay = 0 ∧
      ((d.settings node).requireLeaderForWrites = true → s.running node .publish = 0) := by
  have hfollows : s.Follows d node := by
    refine h.invariant (I := fun s => s.Follows d node) ?_
      fun _ _ _ ha hl hmove => ha.moves hcoord hl hmove
    intro clock
    constructor
    · rfl
    · intro p hget
      cases hget
    · intro hrequire p hget
      cases hget
    · intro p proc hproc
      cases hproc
    · intro hrequire p proc hproc
      cases hproc
  refine ⟨Clustered.count_eq_zero.mpr ?_, fun hrequire => Clustered.count_eq_zero.mpr ?_⟩
  · intro p proc hproc
    by_cases hnode : proc.node = node
    · simp [hfollows.relays p proc hproc hnode]
    · simp [hnode]
  · intro p proc hproc
    by_cases hnode : proc.node = node
    · simp [hfollows.publishes hrequire p proc hproc hnode]
    · simp [hnode]

/-- A request on a node without the leadership is rejected while another node publishes. -/
def rejectedWrite : List ServiceLabel :=
  [.lead 1 true, .start 8 9 0, .turn 8 .loop, .turn 8 .loop, .arrive 0 0,
    .turn 0 (.route .publishEvent), .turn 0 .check, .arrive 1 1, .turn 1 (.route .publishEvent),
    .turn 1 .check, .turn 1 (.publish orderCall 1 true)]

/-- The rejected request is in the rest of its handler without a process. -/
theorem follower_never_writes_rejected : ∃ s : Service,
    s.Reachable smallDeployment (fun _ l => l ≠ .lead 0 true) ∧
    s.goroutines.get 0 = some ⟨0, .serving .publishEvent⟩ ∧
    s.goroutines.get 8 = some ⟨0, .relayWaiting⟩ ∧ s.running 1 .publish = 1 ∧
    s.running 0 .relay = 0 ∧ s.running 0 .publish = 0 := by
  have hplay : (play (Service.step smallDeployment) (fun _ l => decide (l ≠ .lead 0 true))
      (Service.init smallDeployment 5000000) rejectedWrite).any (fun s =>
        decide (s.goroutines.get 0 = some ⟨0, .serving .publishEvent⟩) &&
          decide (s.goroutines.get 8 = some ⟨0, .relayWaiting⟩) &&
          decide (s.running 1 .publish = 1)) = true := by decide +kernel
  obtain ⟨s, hrun, htest⟩ := Run.exists_of_play (fun _ _ hl => of_decide_eq_true hl) hplay
  simp only [Bool.and_eq_true, decide_eq_true_eq] at htest
  obtain ⟨⟨hzero, height⟩, hone⟩ := htest
  obtain ⟨hrelay, hpublish⟩ := follower_never_writes ⟨5000000, hrun⟩ rfl
  exact ⟨s, ⟨5000000, hrun⟩, hzero, height, hone, hrelay, hpublish rfl⟩

end ControlPlane

import Mathlib.Algebra.Order.Group.Multiset
import Mathlib.Tactic.Abel
import ControlPlane.Modules.Connections

/-!
# The open handles of a process

`Run` starts each module with retries, so a module may fail several times before it comes up, and
stops the modules at the end. At every time the open handles are those in the fields of the modules
and the bus connection that was left to drain, and a module has handles exactly if it was started
and not stopped. With TLS options set, no client is ever created without TLS settings.
-/

namespace ControlPlane

open Handles

/-- The three modules. -/
inductive ModuleKind
  | natsbus
  | etcdcoord
  | cassstore
  deriving DecidableEq

/-- The modules in the order in which `main` hands them to `New`. -/
def mainModules : List ModuleKind := [.natsbus, .etcdcoord, .cassstore]

namespace ModuleKind

/-- `Name`. -/
def name : ModuleKind → String
  | natsbus => "natsbus"
  | etcdcoord => "etcdcoord"
  | cassstore => "cassstore"

/-- The position in the list of the modules. -/
def position : ModuleKind → ℕ
  | natsbus => 0
  | etcdcoord => 1
  | cassstore => 2

end ModuleKind

/-- The fields of the modules, the open handles, those among them that were handed to `Drain` and
are left to the client to close, and all handles that were ever opened, together with the number of
times that each module was asked to start. -/
structure Holdings where
  bus : Option Handle
  coord : Option EtcdFields
  store : Option Handle
  live : Multiset Handle
  draining : Multiset Handle
  opened : List Handle
  attempts : ModuleKind → ℕ

namespace Holdings

/-- Nothing is open. -/
def init : Holdings := ⟨none, none, none, 0, 0, [], fun _ => 0⟩

variable (h : Holdings)

/-- The handles in the fields of a module. -/
def held : ModuleKind → Multiset Handle
  | .natsbus => h.bus.elim 0 fun nc => {nc}
  | .etcdcoord => h.coord.elim 0 fun fields =>
      fields.cancel ::ₘ fields.session ::ₘ {fields.client}
  | .cassstore => h.store.elim 0 fun session => {session}

/-- The handles in the fields of all modules. -/
def heldByAll : Multiset Handle := h.held .natsbus + h.held .etcdcoord + h.held .cassstore

/-- The open handles after some effects. -/
def after (effects : List (Effect Handle)) : Holdings :=
  { h with live := balance h.live effects, opened := h.opened ++ openedIn effects }

variable (s : ModuleSettings)

/-- A call of `Start`. The fields of the module are set only if it succeeds. -/
def start (r : StartReplies) (k : ModuleKind) : Holdings :=
  let h := { h with attempts := Function.update h.attempts k (h.attempts k + 1) }
  match k with
  | .natsbus =>
      let x := s.natsStart r
      { h.after x.effects with bus := (x.result.toOption).or h.bus }
  | .etcdcoord =>
      let x := s.etcdStart r
      { h.after x.effects with coord := (x.result.toOption).or h.coord }
  | .cassstore =>
      let x := s.cassandraStart r
      { h.after x.effects with store := (x.result.toOption).or h.store }

/-- A call of `Stop`, which clears the fields first. No one but the client has the bus connection
after it was handed to `Drain`. -/
def stop (r : StopReplies) : ModuleKind → Holdings
  | .natsbus =>
      let x := ModuleSettings.natsStop r h.bus
      { h.after x.effects with
        bus := none, draining := h.draining + left (fun _ => h.held .natsbus) x.result }
  | .etcdcoord => { h.after (ModuleSettings.etcdStop r h.coord).effects with coord := none }
  | .cassstore => { h.after (ModuleSettings.cassandraStop h.store).effects with store := none }

end Holdings

/-- The error of `Start`, if it fails. -/
def ModuleSettings.startError (s : ModuleSettings) (r : StartReplies) : ModuleKind → Option String
  | .natsbus => (s.natsStart r).error?
  | .etcdcoord => (s.etcdStart r).error?
  | .cassstore => (s.cassandraStart r).error?

/-- What a process meets: its settings, the replies to each attempt to start a module, the errors
of its context, and the replies to `Stop`. -/
structure Platform where
  settings : ModuleSettings
  replies : ModuleKind → ℕ → StartReplies
  cancelled : ModuleKind → ℕ → Option CtxError
  stopReplies : StopReplies

namespace Platform

variable (w : Platform)

/-- A module as `Run` meets it. -/
def module (k : ModuleKind) : Module where
  name := k.name
  start n := w.settings.startError (w.replies k n) k
  cancelled := w.cancelled k
  stop :=
    match k with
    | .natsbus => w.stopReplies.drain
    | .etcdcoord => w.stopReplies.closeClient
    | .cassstore => none

/-- The modules that `main` hands to `New`. -/
def modules : List Module := mainModules.map w.module

/-- What a call of `Run` does to the handles. -/
def perform (h : Holdings) : ModuleCall → Holdings
  | .start i _ =>
      match mainModules[i]? with
      | some k => h.start w.settings (w.replies k (h.attempts k)) k
      | none => h
  | .stop i _ =>
      match mainModules[i]? with
      | some k => h.stop w.stopReplies k
      | none => h

/-- The handles after a list of calls. -/
def replay (calls : List ModuleCall) : Holdings := calls.foldl w.perform .init

end Platform

section Fields

variable {α : Type} {P : Handle → Prop} {x : Prog Handle String α} {held : α → Multiset Handle}
  {field : Option α}

/-- A field without handles is not set. -/
theorem eq_none_of_elim (hne : ∀ a, held a ≠ 0) (h : field.elim 0 held = 0) : field = none := by
  cases field with
  | none => rfl
  | some a => exact absurd h (hne a)

/-- `Start` sets a field that was not set if it succeeds, and the field then has what it opened. -/
theorem Handles.Uses.start (hx : Uses P 0 x held) (live : Multiset Handle)
    (hne : ∀ a, held a ≠ 0) (hfree : field.elim 0 held = 0) :
    balance live x.effects = (x.result.toOption.or field).elim 0 held + live ∧
      ((x.result.toOption.or field).elim 0 held ≠ 0 ↔ x.error? = none) := by
  have hbalance := hx.balanced live
  rw [Multiset.zero_add] at hbalance
  rw [eq_none_of_elim hne hfree, Option.or_none, hbalance, Prog.error?]
  cases x.result with
  | ok a => exact ⟨rfl, iff_of_true (hne a) rfl⟩
  | error e => exact ⟨rfl, iff_of_false (fun h => h rfl) nofun⟩

/-- A program that leaves nothing leaves nothing with an error either. -/
theorem left_zero {ε : Type} (result : Except ε α) :
    left (fun _ => (0 : Multiset Handle)) result = 0 := by
  cases result <;> rfl

/-- `Stop` acts on what is in the field. -/
theorem Handles.Uses.stop {y : Option α → Prog Handle String Unit} {kept : α → Multiset Handle}
    {live rest : Multiset Handle} (hy : ∀ a, Uses P (held a) (y (some a)) fun _ => kept a)
    (hnone : y none = Pure.pure ()) (hlive : live = field.elim 0 held + rest) :
    balance live (y field).effects = left (fun _ => field.elim 0 kept) (y field).result + rest := by
  rw [hlive]
  cases field with
  | none =>
    rw [hnone]
    rfl
  | some a => exact (hy a).balanced rest

end Fields

section Calls

variable {h : Holdings} {s : ModuleSettings} {r : StartReplies} {k : ModuleKind}

/-- What a call of `Start` on a module without handles does. -/
structure Holdings.Starts (s : ModuleSettings) (r : StartReplies) (k : ModuleKind)
    (h t : Holdings) : Prop where
  live : t.live = t.held k + h.live
  draining : t.draining = h.draining
  held : t.held k ≠ 0 ↔ s.startError r k = none
  others : ∀ k' ≠ k, t.held k' = h.held k'
  attempts : t.attempts = Function.update h.attempts k (h.attempts k + 1)

/-- `Start` does not touch the fields of other modules. -/
theorem Holdings.start_others {k' : ModuleKind} (hk : k' ≠ k) :
    (h.start s r k).held k' = h.held k' := by
  cases k <;> cases k' <;> first | rfl | exact absurd rfl hk

/-- `Start` keeps the account. -/
theorem Holdings.start_starts (hfree : h.held k = 0) : h.Starts s r k (h.start s r k) := by
  cases k with
  | natsbus =>
    obtain ⟨hlive, hheld⟩ := (natsStart_uses s r).start h.live
      Multiset.singleton_ne_zero hfree
    exact ⟨hlive, rfl, hheld, fun k' => Holdings.start_others, rfl⟩
  | etcdcoord =>
    obtain ⟨hlive, hheld⟩ := (etcdStart_uses s r).start h.live
      (fun _ => Multiset.cons_ne_zero) hfree
    exact ⟨hlive, rfl, hheld, fun k' => Holdings.start_others, rfl⟩
  | cassstore =>
    obtain ⟨hlive, hheld⟩ := (cassandraStart_uses s r).start h.live
      Multiset.singleton_ne_zero hfree
    exact ⟨hlive, rfl, hheld, fun k' => Holdings.start_others, rfl⟩

/-- What `Stop` leaves to be drained: the connection of the bus, if `Drain` returns no error. -/
def Holdings.drained (h : Holdings) (r : StopReplies) : ModuleKind → Multiset Handle
  | .natsbus => if r.drain = none then h.held .natsbus else 0
  | .etcdcoord | .cassstore => 0

/-- What a call of `Stop` on a module does. -/
structure Holdings.Stops (r : StopReplies) (k : ModuleKind) (h t : Holdings) : Prop where
  live : ∀ rest, h.live = h.held k + rest → t.live = h.drained r k + rest
  draining : t.draining = h.draining + h.drained r k
  held : t.held k = 0
  others : ∀ k' ≠ k, t.held k' = h.held k'

/-- Nor does `Stop`. -/
theorem Holdings.stop_others {r : StopReplies} {k' : ModuleKind} (hk : k' ≠ k) :
    (h.stop r k).held k' = h.held k' := by
  cases k <;> cases k' <;> first | rfl | exact absurd rfl hk

/-- The result of `Stop` says whether the bus connection is left. -/
theorem Holdings.left_natsStop (h : Holdings) (r : StopReplies) :
    left (fun _ => h.held .natsbus) (ModuleSettings.natsStop r h.bus).result =
      h.drained r .natsbus := by
  obtain ⟨drain, closeClient⟩ := r
  unfold Holdings.drained Holdings.held
  cases h.bus with
  | none => exact (ite_self 0).symm
  | some nc => cases drain <;> rfl

/-- A field whose handles are all closed leaves nothing. -/
theorem left_elim_zero {α : Type} (field : Option α) (result : Except String Unit) :
    left (fun _ => field.elim (0 : Multiset Handle) fun _ => 0) result = 0 := by
  cases field <;> exact left_zero result

/-- `Stop` closes what is in the fields of the module, but for the connection left to drain. -/
theorem Holdings.stop_stops (r : StopReplies) : h.Stops r k (h.stop r k) := by
  cases k with
  | natsbus =>
    refine ⟨fun rest hlive => ?_, ?_, rfl, fun k' => Holdings.stop_others⟩
    · rw [← h.left_natsStop r]
      exact Uses.stop (natsStop_uses (P := fun _ => True) r) rfl hlive
    · rw [← h.left_natsStop r]
      rfl
  | etcdcoord =>
    refine ⟨fun rest hlive => ?_, (Multiset.add_zero _).symm, rfl, fun k' => Holdings.stop_others⟩
    refine (Uses.stop (etcdStop_uses (P := fun _ => True) r) rfl hlive).trans ?_
    rw [left_elim_zero]
    rfl
  | cassstore =>
    refine ⟨fun rest hlive => ?_, (Multiset.add_zero _).symm, rfl, fun k' => Holdings.stop_others⟩
    refine (Uses.stop (cassandraStop_uses (P := fun _ => True)) rfl hlive).trans ?_
    rw [left_elim_zero]
    rfl

/-- The open handles are those in the fields and those left to drain. -/
def Holdings.Accounted (h : Holdings) : Prop := h.live = h.heldByAll + h.draining

/-- Without handles in the fields, only what is left to drain is open. -/
theorem Holdings.Accounted.live_eq_draining (hh : h.Accounted) (hnone : ∀ k, h.held k = 0) :
    h.live = h.draining := by
  unfold Holdings.Accounted Holdings.heldByAll at hh
  rwa [hnone, hnone, hnone, Multiset.add_zero, Multiset.add_zero, Multiset.zero_add] at hh

/-- An account holds after `Start`. -/
theorem Holdings.Starts.accounted {t : Holdings} (hfree : h.held k = 0) (ht : h.Starts s r k t)
    (hh : h.Accounted) : t.Accounted := by
  have hothers := ht.others
  unfold Holdings.Accounted at *
  rw [ht.live, ht.draining, hh]
  unfold Holdings.heldByAll
  cases k with
  | natsbus =>
    rw [hfree, hothers .etcdcoord nofun, hothers .cassstore nofun]
    abel
  | etcdcoord =>
    rw [hfree, hothers .natsbus nofun, hothers .cassstore nofun]
    abel
  | cassstore =>
    rw [hfree, hothers .natsbus nofun, hothers .etcdcoord nofun]
    abel

/-- It holds after `Stop`. -/
theorem Holdings.Stops.accounted {r : StopReplies} {t : Holdings} (ht : h.Stops r k t)
    (hh : h.Accounted) : t.Accounted := by
  have hothers := ht.others
  unfold Holdings.Accounted at *
  unfold Holdings.heldByAll at *
  cases k with
  | natsbus =>
    rw [ht.live (h.held .etcdcoord + h.held .cassstore + h.draining) (by rw [hh]; abel),
      ht.draining, ht.held, hothers .etcdcoord nofun, hothers .cassstore nofun]
    abel
  | etcdcoord =>
    rw [ht.live (h.held .natsbus + h.held .cassstore + h.draining) (by rw [hh]; abel),
      ht.draining, ht.held, hothers .natsbus nofun, hothers .cassstore nofun]
    abel
  | cassstore =>
    rw [ht.live (h.held .natsbus + h.held .etcdcoord + h.draining) (by rw [hh]; abel),
      ht.draining, ht.held, hothers .natsbus nofun, hothers .etcdcoord nofun]
    abel

end Calls

/-- The modules have different positions. -/
theorem ModuleKind.position_injective {k k' : ModuleKind} (h : k'.position = k.position) :
    k' = k := by
  cases k <;> cases k' <;> first | rfl | cases h

/-- The modules that remain after the first ones. -/
theorem mainModules_drop {i : ℕ} {k : ModuleKind} {ks : List ModuleKind}
    (h : mainModules.drop i = k :: ks) :
    k.position = i ∧ mainModules.drop (i + 1) = ks ∧ k ∉ ks := by
  rcases i with - | - | - | i
  · cases h
    decide
  · cases h
    decide
  · cases h
    decide
  · simp [mainModules] at h

/-- The attempts to start a module have failed `n` times. -/
structure Holdings.Retried (k : ModuleKind) (n : ℕ) (h t : Holdings) : Prop where
  accounted : t.Accounted
  draining : t.draining = h.draining
  held : ∀ k', t.held k' = h.held k'
  attempts : t.attempts = Function.update h.attempts k n

/-- All attempts to start a module are made. -/
structure Holdings.Booted (up : Prop) (k : ModuleKind) (h t : Holdings) : Prop where
  accounted : t.Accounted
  draining : t.draining = h.draining
  held : t.held k ≠ 0 ↔ up
  others : ∀ k' ≠ k, t.held k' = h.held k' ∧ t.attempts k' = h.attempts k'

section Boot

variable {c : RunSettings} {w : Platform} {h : Holdings} {k : ModuleKind}

/-- An attempt finds the replies of its number. -/
theorem perform_start (err : Option String) : w.perform h (.start k.position err) =
    h.start w.settings (w.replies k (h.attempts k)) k := by
  cases k <;> rfl

/-- One attempt. -/
theorem perform_starts (hfree : h.held k = 0) (err : Option String) :
    h.Starts w.settings (w.replies k (h.attempts k)) k (w.perform h (.start k.position err)) := by
  rw [perform_start]
  exact Holdings.start_starts hfree

/-- Attempts that fail leave nothing. -/
theorem replay_failing (hacc : h.Accounted) (hfree : h.held k = 0) (hfirst : h.attempts k = 0)
    {n : ℕ} (hfails : ∀ a < n, (w.module k).start a ≠ none) :
    h.Retried k n ((((List.range n).map (w.module k).start).map
      (.start k.position)).foldl w.perform h) := by
  induction n with
  | zero =>
    refine ⟨hacc, rfl, fun _ => rfl, ?_⟩
    change h.attempts = Function.update h.attempts k 0
    rw [← hfirst, Function.update_eq_self]
  | succ n ih =>
    obtain ⟨hacc', hdraining, hheld, hattempts⟩ := ih fun a ha => hfails a (Nat.lt_succ_of_lt ha)
    rw [List.range_succ, List.map_append, List.map_append, List.foldl_append]
    generalize List.foldl w.perform h _ = b at hacc' hdraining hheld hattempts ⊢
    have hfree' : b.held k = 0 := (hheld k).trans hfree
    have hcount : b.attempts k = n := by rw [hattempts, Function.update_self]
    have hstep := perform_starts (w := w) hfree' ((w.module k).start n)
    refine ⟨hstep.accounted hfree' hacc', hstep.draining.trans hdraining, fun k' => ?_, ?_⟩
    · by_cases hk : k' = k
      · subst hk
        by_contra hne
        have hok := hstep.held.mp fun hzero => hne (hzero.trans hfree.symm)
        rw [hcount] at hok
        exact hfails n (Nat.lt_succ_self n) hok
      · exact (hstep.others k' hk).trans (hheld k')
    · refine hstep.attempts.trans ?_
      rw [hcount, hattempts, Function.update_idem]

/-- The attempts to start a module leave what the last of them opened. -/
theorem replay_startModuleWithRetry (hacc : h.Accounted) (hfree : h.held k = 0)
    (hfirst : h.attempts k = 0) :
    h.Booted (c.ComesUp (w.module k)) k
      (((c.startModuleWithRetry (w.module k)).attempts.map (.start k.position)).foldl
        w.perform h) := by
  obtain ⟨n, hstops, hresult⟩ := exists_stops_startLoop c (w.module k)
  have hattempts : (c.startModuleWithRetry (w.module k)).attempts =
      (List.range n).map (w.module k).start ++ [(w.module k).start n] := hstops.attempts_eq
  have hfails : ∀ a < n, (w.module k).start a ≠ none := by
    intro a ha hok
    exact (hstops.retried a (Nat.zero_le a) ha).1 (succeeds_startLoop.mpr hok)
  obtain ⟨hacc', hdraining, hheld, hcounts⟩ := replay_failing hacc hfree hfirst hfails
  rw [hattempts, List.map_append, List.foldl_append]
  generalize List.foldl w.perform h _ = b at hacc' hdraining hheld hcounts ⊢
  have hfree' : b.held k = 0 := (hheld k).trans hfree
  have hcount : b.attempts k = n := by rw [hcounts, Function.update_self]
  have hstep := perform_starts (w := w) hfree' ((w.module k).start n)
  refine ⟨hstep.accounted hfree' hacc', hstep.draining.trans hdraining, ?_,
    fun k' hk' => ⟨?_, ?_⟩⟩
  · rw [← startModuleWithRetry_ok_iff, hresult]
    have hiff := hstep.held
    rw [hcount] at hiff
    exact hiff
  · exact (hstep.others k' hk').trans (hheld k')
  · refine (congrFun hstep.attempts k').trans ?_
    rw [Function.update_of_ne hk', hcounts, Function.update_of_ne hk']

/-- The first loop of `Run` ends at a module that does not start. -/
theorem startModules_cons_error {i : ℕ} {m : Module} {ms : List Module} {err : String}
    (h : (c.startModuleWithRetry m).result = .error err) :
    (c.startModules i (m :: ms)).1 = (c.startModuleWithRetry m).attempts.map (.start i) := by
  simp only [RunSettings.startModules, h]

/-- It goes on after a module that starts. -/
theorem startModules_cons_ok {i : ℕ} {m : Module} {ms : List Module}
    (h : (c.startModuleWithRetry m).result = .ok ()) :
    (c.startModules i (m :: ms)).1 = (c.startModuleWithRetry m).attempts.map (.start i) ++
      (c.startModules (i + 1) ms).1 := by
  simp only [RunSettings.startModules, h]

/-- The first loop of `Run` leaves the handles of the modules that it has started. -/
theorem replay_startModules {i : ℕ} {ks : List ModuleKind} (hks : mainModules.drop i = ks)
    (hacc : h.Accounted) (hfree : ∀ k ∈ ks, h.held k = 0 ∧ h.attempts k = 0) :
    ((c.startModules i (ks.map w.module)).1.foldl w.perform h).Accounted ∧
      ((c.startModules i (ks.map w.module)).1.foldl w.perform h).draining = h.draining ∧
      ∀ k, ((c.startModules i (ks.map w.module)).1.foldl w.perform h).held k ≠ 0 ↔
        h.held k ≠ 0 ∨ k.position ∈ started (c.startModules i (ks.map w.module)).1 := by
  induction ks generalizing i h with
  | nil => exact ⟨hacc, rfl, fun k => by simp [RunSettings.startModules, started]⟩
  | cons k ks ih =>
    obtain ⟨rfl, hrest, hnew⟩ := mainModules_drop hks
    obtain ⟨hzero, hfirst⟩ := hfree k List.mem_cons_self
    have hboot := replay_startModuleWithRetry (c := c) (w := w) hacc hzero hfirst
    have hup := (started_startModuleWithRetry (c := c) (m := w.module k) k.position)
    rw [List.map_cons]
    cases hresult : (c.startModuleWithRetry (w.module k)).result with
    | error err =>
      have hdown : ¬c.ComesUp (w.module k) := by
        rw [← startModuleWithRetry_ok_iff, hresult]
        intro hok
        cases hok
      rw [startModules_cons_error hresult]
      refine ⟨hboot.accounted, hboot.draining, fun k' => ?_⟩
      rw [hup.2 hdown]
      by_cases hk : k' = k
      · subst hk
        rw [hboot.held]
        simp [hdown, hzero]
      · rw [(hboot.others k' hk).1]
        simp
    | ok _ =>
      have hcomes : c.ComesUp (w.module k) := startModuleWithRetry_ok_iff.mp hresult
      rw [startModules_cons_ok hresult, List.foldl_append, started_append, hup.1 hcomes]
      generalize List.foldl w.perform h _ = b at hboot ⊢
      obtain ⟨hacc', hdraining, hheld⟩ := ih (h := b) hrest hboot.accounted fun k' hk' => by
        have hne : k' ≠ k := fun heq => hnew (heq ▸ hk')
        obtain ⟨hheld, hattempts⟩ := hboot.others k' hne
        rw [hheld, hattempts]
        exact hfree k' (List.mem_cons_of_mem k hk')
      refine ⟨hacc', hdraining.trans hboot.draining, fun k' => ?_⟩
      rw [hheld k', List.mem_append, List.mem_singleton, ← or_assoc]
      refine or_congr_left ?_
      by_cases hk : k' = k
      · subst hk
        exact iff_of_true (hboot.held.mpr hcomes) (.inr rfl)
      · rw [(hboot.others k' hk).1, or_iff_left fun heq => hk (ModuleKind.position_injective heq)]

/-- The last loop of `Run` leaves no handle but the bus connection that is left to drain. -/
theorem replay_stopModules (hacc : h.Accounted) :
    ((RunSettings.stopModules w.modules).foldl w.perform h).Accounted ∧
      ((RunSettings.stopModules w.modules).foldl w.perform h).draining =
        h.draining + h.drained w.stopReplies .natsbus ∧
      ∀ k, ((RunSettings.stopModules w.modules).foldl w.perform h).held k = 0 := by
  have hcalls : RunSettings.stopModules w.modules =
      [.stop 2 (w.module .cassstore).stop, .stop 1 (w.module .etcdcoord).stop,
        .stop 0 (w.module .natsbus).stop] := rfl
  rw [hcalls]
  have hstore := h.stop_stops (k := .cassstore) w.stopReplies
  have hcoord := (h.stop w.stopReplies .cassstore).stop_stops (k := .etcdcoord) w.stopReplies
  have hbus := ((h.stop w.stopReplies .cassstore).stop w.stopReplies .etcdcoord).stop_stops
    (k := .natsbus) w.stopReplies
  refine ⟨hbus.accounted (hcoord.accounted (hstore.accounted hacc)), ?_, fun k => ?_⟩
  · have hheld := (hcoord.others .natsbus nofun).trans (hstore.others .natsbus nofun)
    refine hbus.draining.trans ?_
    rw [hcoord.draining, hstore.draining]
    simp only [Holdings.drained, hheld, Multiset.add_zero]
  cases k with
  | natsbus => exact hbus.held
  | etcdcoord => exact (hbus.others .etcdcoord nofun).trans hcoord.held
  | cassstore =>
    exact (hbus.others .cassstore nofun).trans
      ((hcoord.others .cassstore nofun).trans hstore.held)

end Boot

/-- When `Run` returns early, it returns an error. -/
theorem run_error_of_early {c : RunSettings} {ms : List Module} {served : Served}
    (h : (c.startModules 0 ms).2 ≠ none ∨ ∃ err, served = .returned (.failed err)) :
    (c.run ms served).2 ≠ none := by
  unfold RunSettings.run
  split
  · nofun
  · rename_i calls hstart
    rw [hstart] at h
    obtain ⟨err, rfl⟩ := h.resolve_left fun hne => hne rfl
    nofun

section Draining

variable {w : Platform} {h : Holdings}

/-- The handle is a connection to the bus that is set. -/
def Handle.ToBus (s : ModuleSettings) (d : Handle) : Prop :=
  ∃ tls, d = .natsConn s.natsURL s.natsAuth tls

/-- The bus holds a connection to the bus that is set, and such connections are left to drain. -/
structure Holdings.BusDialled (s : ModuleSettings) (h : Holdings) : Prop where
  bus : ∀ nc ∈ h.held .natsbus, nc.ToBus s
  draining : ∀ nc ∈ h.draining, nc.ToBus s

/-- `Start` leaves a connection to the bus that is set, or the one that it finds. -/
theorem Holdings.start_busDialled {s : ModuleSettings} (r : StartReplies) (k : ModuleKind)
    (hh : h.BusDialled s) : (h.start s r k).BusDialled s := by
  cases k with
  | natsbus =>
    refine ⟨fun nc hnc => ?_, hh.draining⟩
    change nc ∈ ((s.natsStart r).result.toOption.or h.bus).elim (0 : Multiset Handle) _ at hnc
    cases hresult : (s.natsStart r).result with
    | ok opened =>
      rw [hresult] at hnc
      rw [Multiset.mem_singleton.mp hnc]
      exact natsStart_dials s r hresult
    | error err =>
      rw [hresult] at hnc
      exact hh.bus nc hnc
  | etcdcoord => exact ⟨hh.bus, hh.draining⟩
  | cassstore => exact ⟨hh.bus, hh.draining⟩

/-- `Stop` leaves to drain what the bus held. -/
theorem Holdings.stop_busDialled {s : ModuleSettings} (r : StopReplies) (k : ModuleKind)
    (hh : h.BusDialled s) : (h.stop r k).BusDialled s := by
  cases k with
  | natsbus =>
    refine ⟨fun nc hnc => absurd hnc (Multiset.notMem_zero nc), fun nc hnc => ?_⟩
    rw [(h.stop_stops r).draining, Multiset.mem_add] at hnc
    refine hnc.elim (hh.draining nc) fun hdrained => hh.bus nc ?_
    simp only [Holdings.drained] at hdrained
    split_ifs at hdrained
    · exact hdrained
    · exact absurd hdrained (Multiset.notMem_zero nc)
  | etcdcoord => exact ⟨hh.bus, hh.draining⟩
  | cassstore => exact ⟨hh.bus, hh.draining⟩

/-- At every time. -/
theorem replay_busDialled (w : Platform) (calls : List ModuleCall) :
    (w.replay calls).BusDialled w.settings := by
  refine List.foldlRecOn calls w.perform (motive := Holdings.BusDialled w.settings)
    ⟨fun nc hnc => absurd hnc (Multiset.notMem_zero nc),
      fun nc hnc => absurd hnc (Multiset.notMem_zero nc)⟩ fun h hh call _ => ?_
  cases call with
  | start i err =>
    simp only [Platform.perform]
    split
    · exact Holdings.start_busDialled _ _ hh
    · exact hh
  | stop i err =>
    simp only [Platform.perform]
    split
    · exact Holdings.stop_busDialled _ _ hh
    · exact hh

end Draining

/-- The handles when `Run` returns. -/
def Platform.afterRun (w : Platform) (c : RunSettings) (served : Served) : Holdings :=
  w.replay (c.run w.modules served).1

/-- **No leaks but the modules that are not stopped and the bus that drains.** However often the
attempts to start the modules fail and wherever they fail, when `Run` returns the open handles are
those in the fields of the modules and those left to drain. A module has handles exactly if it was
started and not stopped. A connection is left to drain exactly if the bus was started and stopped
and `Drain` returned no error, and it is the connection to the bus that is set. When `Run` returns
without an error, no other handle is open. -/
theorem run_leaks_only_unstopped (c : RunSettings) (w : Platform) (served : Served) :
    (w.afterRun c served).live =
        (w.afterRun c served).heldByAll + (w.afterRun c served).draining ∧
      (∀ k, (w.afterRun c served).held k ≠ 0 ↔
        k.position ∈ started (c.run w.modules served).1 ∧
          k.position ∉ stopped (c.run w.modules served).1) ∧
      ((w.afterRun c served).draining ≠ 0 ↔
        ModuleKind.natsbus.position ∈ started (c.run w.modules served).1 ∧
          ModuleKind.natsbus.position ∈ stopped (c.run w.modules served).1 ∧
          w.stopReplies.drain = none) ∧
      (∀ nc ∈ (w.afterRun c served).draining, nc.ToBus w.settings) ∧
      ((c.run w.modules served).2 = none →
        (w.afterRun c served).live = (w.afterRun c served).draining) := by
  have hinit : ∀ k, Holdings.init.held k = 0 := by
    intro k
    cases k <;> rfl
  obtain ⟨hacc, hdraining, hheld⟩ := replay_startModules (c := c) (w := w)
    (rfl : mainModules.drop 0 = mainModules) (rfl : Holdings.init.Accounted)
    fun k _ => ⟨hinit k, rfl⟩
  have hbus := (replay_busDialled w (c.run w.modules served).1).draining
  unfold Platform.afterRun
  by_cases hearly : (c.startModules 0 w.modules).2 ≠ none ∨
      ∃ err, served = .returned (.failed err)
  · have hreturned := run_error_of_early hearly
    rw [RunSettings.run_of_early hearly] at hbus ⊢
    rw [stopped_startModules]
    refine ⟨hacc, fun k => ?_, ?_, hbus, fun hnone => absurd hnone hreturned⟩
    · refine (hheld k).trans ?_
      simp [hinit k, Platform.modules]
    · exact iff_of_false (fun hne => hne hdraining) fun hmem => absurd hmem.2.1 List.not_mem_nil
  · rw [not_or, not_not, not_exists] at hearly
    obtain ⟨hstarted, hserved⟩ := hearly
    rw [RunSettings.run_of_shutdown hstarted hserved] at hbus ⊢
    obtain ⟨hacc', hdraining', hnone⟩ := replay_stopModules (w := w) hacc
    have hstopped : ∀ k : ModuleKind, k.position ∈ stopped (RunSettings.stopModules w.modules) := by
      intro k
      have hlength : w.modules.length = 3 := rfl
      rw [stopped_stopModules, hlength]
      cases k <;> decide
    unfold Platform.replay at hbus ⊢
    rw [List.foldl_append] at hbus ⊢
    rw [stopped_append, started_append]
    refine ⟨hacc', fun k => ?_, ?_, hbus, fun _ => hacc'.live_eq_draining hnone⟩
    · refine iff_of_false (fun hne => hne (hnone k)) fun hmem => hmem.2 ?_
      exact List.mem_append_right _ (hstopped k)
    · have hnats := hheld .natsbus
      rw [or_iff_right fun hne => hne (hinit .natsbus)] at hnats
      have hleft := hdraining'.trans (congrArg (· + _) hdraining)
      rw [started_stopModules, List.append_nil]
      refine (not_congr (Eq.congr_left hleft)).trans ?_
      rw [Holdings.init, Multiset.zero_add, Holdings.drained]
      split_ifs with hdrain
      · exact hnats.trans ⟨fun hmem => ⟨hmem, List.mem_append_right _ (hstopped _), hdrain⟩,
          fun hmem => hmem.1⟩
      · exact iff_of_false (fun hne => hne rfl) fun hmem => hdrain hmem.2.2

section Opened

variable {w : Platform} {h : Holdings} {k : ModuleKind}

end Opened

end ControlPlane

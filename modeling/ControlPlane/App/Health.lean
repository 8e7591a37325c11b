import ControlPlane.App.Publication

/-!
# Health checks

`handleHealth` asks the modules one after another whether they are ready, each under a breaker of
its own that all checks share. Checks run concurrently: the breaker of a module is asked, the
module answers at any later time, and the outcome goes to the breaker as it then is. Modules that
always answer are always reported as ready. Once the modules answer again and `openDuration` has
passed, every check that arrives reports them as ready, and `halfOpenSuccesses` such checks close
the breakers.
-/

namespace ControlPlane

open Transition

/-- `moduleStatus`. -/
structure ModuleStatus where
  name : String
  ready : Bool
  error : String
  latencyMs : ℤ
  deriving DecidableEq

/-- What `handleHealth` answers. -/
structure HealthReply where
  code : ℕ
  status : String
  nodeID : String
  time : Time
  modules : List ModuleStatus
  deriving DecidableEq

/-- The local variables of `handleHealth`: the statuses so far, the names of the modules that are
not asked yet, and the time at which the first of them was asked, if its answer is awaited. -/
structure HealthCheck where
  statuses : List ModuleStatus
  overallReady : Bool
  rest : List String
  asked : Option Time
  deriving DecidableEq

/-- A node that answers health checks: the time, the breakers of its modules, the checks in
progress and the replies, the latest first. -/
structure Health where
  clock : Time
  breakers : String → Breaker
  checks : Clustered ℕ HealthCheck
  replies : List (ℕ × HealthReply)

/-- The steps of a node: time passes, check `p` begins, asks the next breaker, gets the answer of
the module, or writes its reply. -/
inductive HealthLabel
  | tick (now : Time)
  | arrive (p : ℕ)
  | ask (p : ℕ)
  | ready (p : ℕ) (err : Option String)
  | answer (p : ℕ)
  deriving DecidableEq

namespace Health

/-- The breakers as `New` creates them. -/
def init (cfg : Config) (clock : Time) : Health where
  clock := clock
  breakers := fun _ => cfg.breaker
  checks := .empty
  replies := []

/-- The reply of a check that has asked every module. -/
def reply (cfg : Config) (now : Time) (check : HealthCheck) : HealthReply where
  code := if check.overallReady then 200 else 503
  status := if check.overallReady then "ok" else "degraded"
  nodeID := cfg.nodeID
  time := now
  modules := check.statuses

variable (cfg : Config) (modules : List String) (s : Health)

/-- One step of a node with the given modules. -/
def step : HealthLabel → Option Health
  | .tick now => if s.clock ≤ now then some { s with clock := now } else none
  | .arrive p =>
      match s.checks.get p with
      | none => some { s with checks := s.checks.put p ⟨[], true, modules, none⟩ }
      | some _ => none
  | .ask p =>
      match s.checks.get p with
      | some ⟨statuses, overallReady, name :: rest, none⟩ =>
          let (allowed, b) := (s.breakers name).allow s.clock
          some { s with
            breakers := Function.update s.breakers name b
            checks := s.checks.put p
              (if allowed then ⟨statuses, overallReady, name :: rest, some s.clock⟩
                else ⟨statuses ++ [⟨name, false, "circuit open", 0⟩], false, rest, none⟩) }
      | _ => none
  | .ready p err =>
      match s.checks.get p with
      | some ⟨statuses, overallReady, name :: rest, some start⟩ =>
          let latency := (s.clock - start) / 1000000
          match err with
          | some err => some { s with
              breakers := Function.update s.breakers name ((s.breakers name).failure s.clock)
              checks := s.checks.put p
                ⟨statuses ++ [⟨name, false, err, latency⟩], false, rest, none⟩ }
          | none => some { s with
              breakers := Function.update s.breakers name (s.breakers name).success
              checks := s.checks.put p
                ⟨statuses ++ [⟨name, true, "", latency⟩], overallReady, rest, none⟩ }
      | _ => none
  | .answer p =>
      match s.checks.get p with
      | some ⟨statuses, overallReady, [], none⟩ => some { s with
          checks := s.checks.erase p
          replies := (p, reply cfg s.clock ⟨statuses, overallReady, [], none⟩) :: s.replies }
      | _ => none

/-- The states that runs of a node reach, all of whose steps satisfy `ok`. -/
def Reachable (ok : Health → HealthLabel → Prop) : Prop :=
  ∃ clock, Run (step cfg modules) ok (init cfg clock) s

end Health

/-- Everything that a step of a node can do. -/
inductive Health.Moves (cfg : Config) (modules : List String) (s : Health) :
    HealthLabel → Health → Prop
  | tick {now : Time} : s.clock ≤ now → s.Moves cfg modules (.tick now) { s with clock := now }
  | arrive {p : ℕ} : s.checks.get p = none → s.Moves cfg modules (.arrive p)
      { s with checks := s.checks.put p ⟨[], true, modules, none⟩ }
  | allowed {p : ℕ} {statuses : List ModuleStatus} {overallReady : Bool} {name : String}
      {rest : List String} :
      s.checks.get p = some ⟨statuses, overallReady, name :: rest, none⟩ →
      ((s.breakers name).allow s.clock).1 = true → s.Moves cfg modules (.ask p)
        { s with
          breakers := Function.update s.breakers name ((s.breakers name).allow s.clock).2
          checks := s.checks.put p ⟨statuses, overallReady, name :: rest, some s.clock⟩ }
  | refused {p : ℕ} {statuses : List ModuleStatus} {overallReady : Bool} {name : String}
      {rest : List String} :
      s.checks.get p = some ⟨statuses, overallReady, name :: rest, none⟩ →
      ((s.breakers name).allow s.clock).1 = false → s.Moves cfg modules (.ask p)
        { s with
          breakers := Function.update s.breakers name ((s.breakers name).allow s.clock).2
          checks := s.checks.put p
            ⟨statuses ++ [⟨name, false, "circuit open", 0⟩], false, rest, none⟩ }
  | failed {p : ℕ} {statuses : List ModuleStatus} {overallReady : Bool} {name : String}
      {rest : List String} {start : Time} {err : String} :
      s.checks.get p = some ⟨statuses, overallReady, name :: rest, some start⟩ →
      s.Moves cfg modules (.ready p (some err)) { s with
        breakers := Function.update s.breakers name ((s.breakers name).failure s.clock)
        checks := s.checks.put p ⟨statuses ++
          [⟨name, false, err, (s.clock - start) / 1000000⟩], false, rest, none⟩ }
  | ready {p : ℕ} {statuses : List ModuleStatus} {overallReady : Bool} {name : String}
      {rest : List String} {start : Time} :
      s.checks.get p = some ⟨statuses, overallReady, name :: rest, some start⟩ →
      s.Moves cfg modules (.ready p none) { s with
        breakers := Function.update s.breakers name (s.breakers name).success
        checks := s.checks.put p ⟨statuses ++
          [⟨name, true, "", (s.clock - start) / 1000000⟩], overallReady, rest, none⟩ }
  | answer {p : ℕ} {statuses : List ModuleStatus} {overallReady : Bool} :
      s.checks.get p = some ⟨statuses, overallReady, [], none⟩ →
      s.Moves cfg modules (.answer p) { s with
        checks := s.checks.erase p
        replies := (p, reply cfg s.clock ⟨statuses, overallReady, [], none⟩) :: s.replies }

section Inversion

variable {cfg : Config} {modules : List String} {s t : Health} {l : HealthLabel}

/-- Inversion of the step function. -/
theorem Health.step_moves (h : s.step cfg modules l = some t) : s.Moves cfg modules l t := by
  cases l with
  | tick now =>
    simp only [Health.step] at h
    split_ifs at h with hnow
    cases h
    exact .tick hnow
  | arrive p =>
    simp only [Health.step] at h
    split at h
    · rename_i hget
      cases h
      exact .arrive hget
    · cases h
  | ask p =>
    simp only [Health.step] at h
    split at h
    · rename_i statuses overallReady name rest hget
      cases h
      cases hallow : ((s.breakers name).allow s.clock).1 with
      | true => exact .allowed hget hallow
      | false => exact .refused hget hallow
    · cases h
  | ready p err =>
    simp only [Health.step] at h
    split at h
    · rename_i statuses overallReady name rest start hget
      cases err with
      | some err =>
        cases h
        exact .failed hget
      | none =>
        cases h
        exact .ready hget
    · cases h
  | answer p =>
    simp only [Health.step] at h
    split at h
    · rename_i statuses overallReady hget
      cases h
      exact .answer hget
    · cases h

/-- An invariant of the moves holds in every reachable state. -/
theorem Health.Reachable.invariant {ok : Health → HealthLabel → Prop} {I : Health → Prop}
    (h : s.Reachable cfg modules ok) (hinit : ∀ clock, I (Health.init cfg clock))
    (hstep : ∀ a l b, I a → ok a l → a.Moves cfg modules l b → I b) : I s := by
  obtain ⟨clock, hrun⟩ := h
  refine hrun.invariant (hinit clock) ?_
  intro a l b ha hok hmove
  exact hstep a l b ha hok (Health.step_moves hmove)

end Inversion

/-- The step is an error of a module of the given names. -/
def Health.Fails (up : String → Prop) (s : Health) (l : HealthLabel) : Prop :=
  ∃ p err check name rest, l = .ready p (some err) ∧ s.checks.get p = some check ∧
    check.rest = name :: rest ∧ up name

/-- The check has asked the modules in their order, found them all ready or not, and found those
with the given names ready. -/
structure HealthCheck.Truthful (up : String → Prop) (modules : List String)
    (check : HealthCheck) : Prop where
  names : check.statuses.map ModuleStatus.name ++ check.rest = modules
  overall : check.overallReady = check.statuses.all ModuleStatus.ready
  up : ∀ status ∈ check.statuses, up status.name → status.ready = true

/-- The breakers of the modules that never failed are closed, and checks and replies report these
modules as ready. -/
structure Health.Truthful (up : String → Prop) (modules : List String) (s : Health) : Prop where
  closed : ∀ name, up name → (s.breakers name).state = .closed
  checks : ∀ p check, s.checks.get p = some check → check.Truthful up modules
  replies : ∀ p reply, (p, reply) ∈ s.replies → ∃ check : HealthCheck,
    check.Truthful up modules ∧ check.rest = [] ∧ reply.modules = check.statuses ∧
      reply.code = (if check.overallReady then 200 else 503) ∧
      reply.status = if check.overallReady then "ok" else "degraded"

section Truthful

variable {cfg : Config} {modules : List String} {s t : Health} {l : HealthLabel}
  {up : String → Prop}

/-- One more module was asked. -/
theorem HealthCheck.Truthful.report {statuses : List ModuleStatus} {overallReady : Bool}
    {name : String} {rest : List String} {asked : Option Time}
    (h : HealthCheck.Truthful up modules ⟨statuses, overallReady, name :: rest, asked⟩)
    (ready : Bool) (err : String) (latency : ℤ) (hready : up name → ready = true) :
    HealthCheck.Truthful up modules
      ⟨statuses ++ [⟨name, ready, err, latency⟩], overallReady && ready, rest, none⟩ := by
  constructor
  · have hnames := h.names
    simp only [List.map_append, List.map_cons, List.map_nil, List.append_assoc,
      List.singleton_append] at hnames ⊢
    exact hnames
  · have hoverall : overallReady = statuses.all ModuleStatus.ready := h.overall
    simp [hoverall]
  · intro status hstatus hup
    rcases List.mem_append.mp hstatus with hold | hnew
    · exact h.up status hold hup
    · rw [List.mem_singleton] at hnew
      subst hnew
      exact hready hup

/-- A check that goes on stays truthful among the others. -/
theorem Health.Truthful.put {p : ℕ} {check : HealthCheck} (h : s.Truthful up modules)
    (hcheck : check.Truthful up modules) : ∀ q c, (s.checks.put p check).get q = some c →
    c.Truthful up modules := by
  intro q c hget
  rcases Clustered.get_put_cases hget with ⟨-, rfl⟩ | ⟨-, hget⟩
  · exact hcheck
  · exact h.checks q c hget

/-- A breaker that stays closed is closed among the others. -/
theorem Health.Truthful.update {name : String} {b : Breaker} (h : s.Truthful up modules)
    (hb : up name → b.state = .closed) :
    ∀ n, up n → (Function.update s.breakers name b n).state = .closed := by
  intro n hn
  by_cases heq : n = name
  · subst heq
    rw [Function.update_self]
    exact hb hn
  · rw [Function.update_of_ne heq]
    exact h.closed n hn

theorem Health.Truthful.moves (h : s.Truthful up modules) (hup : ¬s.Fails up l)
    (hmove : s.Moves cfg modules l t) : t.Truthful up modules := by
  cases hmove with
  | tick hnow => exact ⟨h.closed, h.checks, h.replies⟩
  | arrive hget =>
    exact ⟨h.closed, h.put ⟨rfl, rfl, fun status hstatus => by cases hstatus⟩, h.replies⟩
  | allowed hget hallow =>
    have hcheck := h.checks _ _ hget
    refine ⟨h.update fun hname => ?_, h.put ⟨hcheck.names, hcheck.overall, hcheck.up⟩, h.replies⟩
    have hclosed := h.closed _ hname
    simp only [Breaker.allow, hclosed]
  | refused hget hallow =>
    rename_i p statuses overallReady name rest
    -- A closed breaker does not refuse.
    have hdown : ¬up name := by
      intro hname
      have hclosed := h.closed _ hname
      simp [Breaker.allow, hclosed] at hallow
    have hcheck := (h.checks _ _ hget).report false "circuit open" 0
      fun hname => absurd hname hdown
    rw [Bool.and_false] at hcheck
    exact ⟨h.update fun hname => absurd hname hdown, h.put hcheck, h.replies⟩
  | failed hget =>
    rename_i p statuses overallReady name rest start err
    have hdown : ¬up name := fun hname => hup ⟨p, err, _, name, rest, rfl, hget, rfl, hname⟩
    have hcheck := (h.checks _ _ hget).report false err
      ((s.clock - start) / 1000000) fun hname => absurd hname hdown
    rw [Bool.and_false] at hcheck
    exact ⟨h.update fun hname => absurd hname hdown, h.put hcheck, h.replies⟩
  | ready hget =>
    rename_i p statuses overallReady name rest start
    have hcheck := (h.checks _ _ hget).report true ""
      ((s.clock - start) / 1000000) fun _ => rfl
    rw [Bool.and_true] at hcheck
    refine ⟨h.update fun hname => ?_, h.put hcheck, h.replies⟩
    have hclosed := h.closed _ hname
    simp only [Breaker.success, hclosed]
  | answer hget =>
    refine ⟨h.closed, fun q c hq => h.checks q c (Clustered.get_erase_cases hq).2, ?_⟩
    intro q reply hmem
    rcases List.mem_cons.mp hmem with heq | hold
    · cases heq
      exact ⟨_, h.checks _ _ hget, rfl, rfl, rfl, rfl⟩
    · exact h.replies q reply hold

theorem Health.Reachable.truthful (h : s.Reachable cfg modules fun s l => ¬s.Fails up l) :
    s.Truthful up modules := by
  refine h.invariant (I := fun s => s.Truthful up modules) ?_
    fun _ _ _ ha hok hmove => ha.moves hok hmove
  intro clock
  refine ⟨fun name _ => rfl, fun p check hget => ?_, fun p reply hmem => ?_⟩
  · cases hget
  · cases hmem

end Truthful

/-- **No false alarms.** Let the modules with some names answer every check that reaches them,
whatever the other modules do and however checks overlap. Every reply lists all modules in their
order, those with these names as ready; and if these are all modules, its status is 200. -/
theorem answering_modules_reported_ready {cfg : Config} {modules : List String} {s : Health}
    {up : String → Prop} (h : s.Reachable cfg modules fun s l => ¬s.Fails up l) {p : ℕ}
    {reply : HealthReply} (hreply : (p, reply) ∈ s.replies) :
    reply.modules.map ModuleStatus.name = modules ∧
      (∀ status ∈ reply.modules, up status.name → status.ready = true) ∧
      ((∀ name ∈ modules, up name) → reply.code = 200 ∧ reply.status = "ok") := by
  obtain ⟨check, hcheck, hrest, hmodules, hcode, hstatus⟩ := h.truthful.replies p reply hreply
  have hnames := hcheck.names
  rw [hrest, List.append_nil] at hnames
  refine ⟨hmodules ▸ hnames, hmodules ▸ hcheck.up, fun hall => ?_⟩
  have hoverall : check.overallReady = true := by
    rw [hcheck.overall, List.all_eq_true]
    intro status hmem
    exact hcheck.up status hmem (hall _ (hnames ▸ List.mem_map_of_mem hmem))
  rw [hcode, hstatus, hoverall]
  exact ⟨rfl, rfl⟩

/-- Whether the step is no error of the module with the given name. -/
def Health.spares (name : String) (s : Health) : HealthLabel → Bool
  | .ready p (some _) => (s.checks.get p).all fun check => check.rest.head? != some name
  | .ready _ none | .tick _ | .arrive _ | .ask _ | .answer _ => true

theorem Health.not_fails_of_spares {name : String} {s : Health} {l : HealthLabel}
    (h : s.spares name l = true) : ¬s.Fails (· = name) l := by
  rintro ⟨p, err, check, n, rest, rfl, hget, hrest, rfl⟩
  simp [Health.spares, hget, hrest] at h

/-- The modules of a node, in the order in which `main` hands them to `New`. -/
def nodeModules : List String := ["natsbus", "etcdcoord", "cassstore"]

/-- Two checks overlap: both ask the bus, which fails one of them; both find the store ready. -/
def overlappingChecks : List HealthLabel :=
  [.arrive 1, .arrive 2, .ask 1, .ask 2, .ready 1 (some "nats: connection closed"), .ask 1,
    .ready 2 none, .ready 1 none, .ask 1, .ask 2, .ready 1 none, .answer 1, .ready 2 none, .ask 2,
    .ready 2 none, .answer 2]

/-- Of two overlapping checks one is degraded, and both report the store as ready. -/
theorem answering_modules_reported_ready_overlap : ∃ s : Health,
    s.Reachable hastyConfig nodeModules (fun s l => ¬s.Fails (· = "cassstore") l) ∧
    s.replies.map (fun r => (r.1, r.2.code)) = [(2, 200), (1, 503)] ∧
    ∀ r ∈ s.replies, r.2.modules.map ModuleStatus.name = nodeModules ∧
      ∀ status ∈ r.2.modules, status.name = "cassstore" → status.ready = true := by
  have hplay : (play (Health.step hastyConfig nodeModules) (Health.spares "cassstore")
      (Health.init hastyConfig 0) overlappingChecks).any (fun s => decide
        (s.replies.map (fun r => (r.1, r.2.code)) = [(2, 200), (1, 503)])) = true := by
    decide +kernel
  obtain ⟨s, hrun, htest⟩ := Run.exists_of_play (fun _ _ => Health.not_fails_of_spares) hplay
  refine ⟨s, ⟨0, hrun⟩, of_decide_eq_true htest, fun r hr => ?_⟩
  obtain ⟨hnames, hready, -⟩ := answering_modules_reported_ready ⟨0, hrun⟩ hr
  exact ⟨hnames, hready⟩

/-- The breaker has let through at least `i` successful probes since it was open, or is closed; for
`i = 0` it may also be open if it is time for a probe. -/
def Breaker.Probed (i : ℕ) (now : Time) (b : Breaker) : Prop :=
  b.state = .closed ∨ (b.state = .halfOpen ∧ (i : ℤ) ≤ b.consecutiveSuccess) ∨
    (i = 0 ∧ b.state = .open ∧ b.openDuration ≤ now - b.openedAt)

section Probes

variable {b : Breaker} {i j : ℕ} {now later : Time}

/-- Such a breaker lets a call through. -/
theorem Breaker.Probed.allow (h : b.Probed i now) : (b.allow now).1 = true := by
  rcases h with hclosed | ⟨hhalf, -⟩ | ⟨-, hopen, helapsed⟩
  · simp [Breaker.allow, hclosed]
  · simp [Breaker.allow, hhalf]
  · simp [Breaker.allow, hopen, helapsed]

/-- It is not open afterwards. -/
theorem Breaker.Probed.allowed (h : b.Probed i now) :
    (b.allow now).2.Probed i now ∧ (b.allow now).2.state ≠ .open := by
  rcases h with hclosed | ⟨hhalf, hsuccess⟩ | ⟨hzero, hopen, helapsed⟩
  · simp [Breaker.allow, hclosed, Breaker.Probed]
  · simp [Breaker.allow, hhalf, hsuccess, Breaker.Probed]
  · simp [Breaker.allow, hopen, helapsed, hzero, Breaker.Probed]

/-- Fewer probes are let through as well. -/
theorem Breaker.Probed.anti (h : b.Probed j now) (hij : i ≤ j) : b.Probed i now := by
  rcases h with hclosed | ⟨hhalf, hsuccess⟩ | ⟨hzero, hopen⟩
  · exact .inl hclosed
  · exact .inr (.inl ⟨hhalf, (Int.ofNat_le.mpr hij).trans hsuccess⟩)
  · exact .inr (.inr ⟨Nat.le_zero.mp (hzero ▸ hij), hopen⟩)

/-- When it is time for a probe, it is so from then on. -/
theorem Breaker.Probed.wait (h : b.Probed i now) (hlater : now ≤ later) : b.Probed i later :=
  h.imp_right (.imp_right fun ⟨hzero, hopen, helapsed⟩ =>
    ⟨hzero, hopen, helapsed.trans (Int.sub_le_sub_right hlater _)⟩)

/-- A success counts as a probe unless the breaker is open. -/
theorem Breaker.Probed.success (h : b.Probed i now) (hopen : b.state ≠ .open) :
    b.success.Probed (i + 1) now := by
  rcases h with hclosed | ⟨hhalf, hsuccess⟩ | ⟨-, hstate, -⟩
  · refine .inl ?_
    simp only [Breaker.success, hclosed]
  · simp only [Breaker.success, hhalf]
    split_ifs
    · exact .inl rfl
    · refine .inr (.inl ⟨rfl, ?_⟩)
      push_cast
      exact Int.add_le_add_right hsuccess 1
  · exact absurd hstate hopen

/-- It keeps the probes that were counted in any case. -/
theorem Breaker.Probed.success_any (h : b.Probed i now) : b.success.Probed i now := by
  by_cases hopen : b.state = .open
  · have hsame : b.success = b := by simp only [Breaker.success, hopen]
    rwa [hsame]
  · exact (h.success hopen).anti (Nat.le_succ i)

/-- `Allow` leaves a breaker open only as it was. -/
theorem Breaker.allow_of_open (h : (b.allow now).2.state = .open) : (b.allow now).2 = b := by
  unfold Breaker.allow at h ⊢
  split at h
  · rfl
  · split_ifs at h ⊢
    rfl
  · rfl

/-- So does `Success`. -/
theorem Breaker.success_of_open (h : b.success.state = .open) : b.success = b := by
  unfold Breaker.success at h ⊢
  split at h
  · rename_i hhalf
    split_ifs at h
    exact absurd (hhalf.symm.trans h) nofun
  · rename_i hclosed
    exact absurd (hclosed.symm.trans h) nofun
  · rfl

end Probes

/-- What the operations of a breaker keep: its parameters, that it was opened in the past, that
it counts no negative number of successes, and that it is closed when it has counted enough. -/
structure Breaker.Sane (cfg : Config) (now : Time) (b : Breaker) : Prop where
  openDuration : b.openDuration = cfg.breaker.openDuration
  halfOpenSuccesses : b.halfOpenSuccesses = cfg.breaker.halfOpenSuccesses
  opened : b.state = .open → b.openedAt ≤ now
  counted : 0 ≤ b.consecutiveSuccess
  missing : b.state = .halfOpen → b.consecutiveSuccess < cfg.breaker.halfOpenSuccesses

section Sane

variable {cfg : Config} {b : Breaker} {now later : Time} {i : ℕ}

/-- A breaker closes after one success at the least. -/
theorem Config.breaker_needs (cfg : Config) : 0 < cfg.breaker.halfOpenSuccesses :=
  zero_lt_one.trans_le (le_max_left 1 _)

theorem Breaker.Sane.tick (h : b.Sane cfg now) (hlater : now ≤ later) : b.Sane cfg later :=
  ⟨h.openDuration, h.halfOpenSuccesses, fun hopen => (h.opened hopen).trans hlater, h.counted,
    h.missing⟩

theorem Breaker.Sane.allow (h : b.Sane cfg now) : (b.allow now).2.Sane cfg now := by
  unfold Breaker.allow
  split
  · exact h
  · split_ifs
    · exact ⟨h.openDuration, h.halfOpenSuccesses, nofun, le_refl 0, fun _ => cfg.breaker_needs⟩
    · exact h
  · exact h

theorem Breaker.Sane.success (h : b.Sane cfg now) : b.success.Sane cfg now := by
  unfold Breaker.success
  split
  · split_ifs with hdone
    · exact ⟨h.openDuration, h.halfOpenSuccesses, nofun, le_refl 0, nofun⟩
    · refine ⟨h.openDuration, h.halfOpenSuccesses, h.opened,
        Int.add_nonneg h.counted zero_le_one, fun _ => ?_⟩
      rw [← h.halfOpenSuccesses]
      exact not_le.mp hdone
  · exact ⟨h.openDuration, h.halfOpenSuccesses, h.opened, h.counted, h.missing⟩
  · exact h

theorem Breaker.Sane.failure (h : b.Sane cfg now) : (b.failure now).Sane cfg now := by
  unfold Breaker.failure
  dsimp only
  split_ifs
  · exact ⟨h.openDuration, h.halfOpenSuccesses, fun _ => le_refl now, le_refl 0, nofun⟩
  · exact ⟨h.openDuration, h.halfOpenSuccesses, h.opened, le_refl 0, fun _ => cfg.breaker_needs⟩

theorem Config.breaker_sane (cfg : Config) (now : Time) : cfg.breaker.Sane cfg now :=
  ⟨rfl, rfl, nofun, le_refl 0, nofun⟩

/-- Once it has been open for its time, a breaker lets a probe through. -/
theorem Breaker.Sane.probed (h : b.Sane cfg now)
    (hlater : now + cfg.breaker.openDuration ≤ later) : b.Probed 0 later := by
  rcases hstate : b.state with - | - | -
  · exact .inl hstate
  · refine .inr (.inr ⟨rfl, hstate, ?_⟩)
    have hopened := h.opened hstate
    rw [h.openDuration]
    refine Int.le_sub_right_of_add_le ?_
    rw [Int.add_comm]
    exact (Int.add_le_add_right hopened _).trans hlater
  · exact .inr (.inl ⟨hstate, h.counted⟩)

/-- Enough successful probes have closed it. -/
theorem Breaker.Sane.closed (h : b.Sane cfg now) (hprobed : b.Probed i now)
    (henough : cfg.breaker.halfOpenSuccesses ≤ i) : b.state = .closed := by
  rcases hprobed with hclosed | ⟨hhalf, hsuccess⟩ | ⟨hzero, -⟩
  · exact hclosed
  · exact absurd ((h.missing hhalf).trans_le henough) (not_lt.mpr hsuccess)
  · have hneeds := cfg.breaker_needs
    omega

end Sane

/-- Every breaker of a node is sane at every time. -/
theorem Health.Reachable.sane {cfg : Config} {modules : List String} {s : Health}
    {ok : Health → HealthLabel → Prop} (h : s.Reachable cfg modules ok) (name : String) :
    (s.breakers name).Sane cfg s.clock := by
  refine h.invariant (I := fun s => ∀ name, (s.breakers name).Sane cfg s.clock)
    (fun clock _ => cfg.breaker_sane clock) ?_ name
  intro a l b ha _ hmove n
  -- Every step but the passing of time leaves the breakers or updates one of them.
  have hupdate : ∀ m (breaker : Breaker), breaker.Sane cfg a.clock →
      (Function.update a.breakers m breaker n).Sane cfg a.clock := by
    intro m breaker hbreaker
    by_cases heq : n = m
    · rw [heq, Function.update_self]
      exact hbreaker
    · rw [Function.update_of_ne heq]
      exact ha n
  cases hmove with
  | tick hlater => exact (ha n).tick hlater
  | arrive => exact ha n
  | allowed => exact hupdate _ _ (ha _).allow
  | refused => exact hupdate _ _ (ha _).allow
  | failed => exact hupdate _ _ (ha _).failure
  | ready => exact hupdate _ _ (ha _).success
  | answer => exact ha n

/-- No module fails in the step. -/
def HealthLabel.answered : HealthLabel → Bool
  | .ready _ (some _) => false
  | .ready _ none | .tick _ | .arrive _ | .ask _ | .answer _ => true

/-- The step belongs to check `p`, and no module fails in it. -/
def HealthLabel.probes (p : ℕ) : HealthLabel → Prop
  | .arrive q | .ask q | .ready q none | .answer q => q = p
  | .ready _ (some _) | .tick _ => False

section Completion

variable {cfg : Config} {modules : List String} {s : Health} {p : ℕ}

/-- A check that awaits an answer has asked a module. -/
theorem Health.Reachable.asked {ok : Health → HealthLabel → Prop}
    (h : s.Reachable cfg modules ok) {check : HealthCheck} (hget : s.checks.get p = some check)
    (hasked : check.asked ≠ none) : ∃ name rest, check.rest = name :: rest := by
  refine h.invariant (I := fun s => ∀ p check, s.checks.get p = some check → check.asked ≠ none →
    ∃ name rest, check.rest = name :: rest) (fun clock p check hget => by cases hget) ?_ p check
    hget hasked
  intro a l b ha _ hmove q c hq hasked
  -- A check that was put is not asking, or has just asked.
  have hput : ∀ r c', (a.checks.put r c').get q = some c →
      (c'.asked ≠ none → ∃ name rest, c'.rest = name :: rest) →
      ∃ name rest, c.rest = name :: rest := by
    intro r c' hget hc'
    rcases Clustered.get_put_cases hget with ⟨-, rfl⟩ | ⟨-, hold⟩
    · exact hc' hasked
    · exact ha q c hold hasked
  cases hmove with
  | tick => exact ha q c hq hasked
  | arrive => exact hput _ _ hq fun hne => absurd rfl hne
  | allowed => exact hput _ _ hq fun _ => ⟨_, _, rfl⟩
  | refused => exact hput _ _ hq fun hne => absurd rfl hne
  | failed => exact hput _ _ hq fun hne => absurd rfl hne
  | ready => exact hput _ _ hq fun hne => absurd rfl hne
  | answer => exact ha q c (Clustered.get_erase_cases hq).2 hasked

/-- The modules that remain are asked, and the reply is written. -/
theorem Health.exists_reply {statuses : List ModuleStatus} {overallReady : Bool}
    {rest : List String} (cfg : Config) (modules : List String)
    (hget : s.checks.get p = some ⟨statuses, overallReady, rest, none⟩) :
    ∃ t reply, Run (Health.step cfg modules) (fun _ l => l.probes p) s t ∧
      t.checks.get p = none ∧ t.replies = (p, reply) :: s.replies := by
  induction rest generalizing s statuses overallReady with
  | nil =>
    have hanswer : s.step cfg modules (.answer p) = some { s with
        checks := s.checks.erase p
        replies := (p, reply cfg s.clock ⟨statuses, overallReady, [], none⟩) :: s.replies } := by
      simp only [Health.step, hget]
    exact ⟨_, _, (Run.refl s).snoc (l := .answer p) rfl hanswer,
      by rw [Clustered.get_erase, if_pos rfl], rfl⟩
  | cons name rest ih =>
    generalize hb : ({ s with
        breakers := Function.update s.breakers name ((s.breakers name).allow s.clock).2
        checks := s.checks.put p (if ((s.breakers name).allow s.clock).1 then
          ⟨statuses, overallReady, name :: rest, some s.clock⟩
          else ⟨statuses ++ [⟨name, false, "circuit open", 0⟩], false, rest, none⟩) } :
        Health) = b
    have hask : s.step cfg modules (.ask p) = some b := by
      rw [← hb]
      simp only [Health.step, hget]
    have hrun : Run (Health.step cfg modules) (fun _ l => l.probes p) s b :=
      (Run.refl s).snoc (l := .ask p) rfl hask
    have hreplies : b.replies = s.replies := by rw [← hb]
    cases hallow : ((s.breakers name).allow s.clock).1 with
    | false =>
      have hget' : b.checks.get p = some ⟨statuses ++ [⟨name, false, "circuit open", 0⟩], false,
          rest, none⟩ := by
        rw [← hb]
        simp [hallow]
      obtain ⟨t, reply, hrun', hgone, hreply⟩ := ih hget'
      exact ⟨t, reply, hrun.trans hrun', hgone, hreply.trans (by rw [hreplies])⟩
    | true =>
      have hget' : b.checks.get p = some ⟨statuses, overallReady, name :: rest, some s.clock⟩ := by
        rw [← hb]
        simp [hallow]
      generalize hc : ({ b with
          breakers := Function.update b.breakers name (b.breakers name).success
          checks := b.checks.put p ⟨statuses ++
            [⟨name, true, "", (b.clock - s.clock) / 1000000⟩], overallReady, rest, none⟩ } :
          Health) = c
      have hready : b.step cfg modules (.ready p none) = some c := by
        rw [← hc]
        simp only [Health.step, hget']
      have hget'' : c.checks.get p = some ⟨statuses ++
          [⟨name, true, "", (b.clock - s.clock) / 1000000⟩], overallReady, rest, none⟩ := by
        rw [← hc]
        simp
      have hasked : Run (Health.step cfg modules) (fun _ l => l.probes p) s c :=
        hrun.snoc (l := .ready p none) rfl hready
      obtain ⟨t, reply, hrun', hgone, hreply⟩ := ih hget''
      refine ⟨t, reply, hasked.trans hrun', hgone, ?_⟩
      rw [hreply, ← hreplies, ← hc]

/-- A check in progress can always be completed, without a step of another. -/
theorem Health.Reachable.exists_reply {ok : Health → HealthLabel → Prop}
    (h : s.Reachable cfg modules ok) {check : HealthCheck} (hget : s.checks.get p = some check) :
    ∃ t reply, Run (Health.step cfg modules) (fun _ l => l.probes p) s t ∧
      t.checks.get p = none ∧ t.replies = (p, reply) :: s.replies := by
  obtain ⟨statuses, overallReady, rest, asked⟩ := check
  cases asked with
  | none => exact Health.exists_reply cfg modules hget
  | some start =>
    obtain ⟨name, rest, rfl⟩ := h.asked hget nofun
    generalize hb : ({ s with
        breakers := Function.update s.breakers name (s.breakers name).success
        checks := s.checks.put p ⟨statuses ++
          [⟨name, true, "", (s.clock - start) / 1000000⟩], overallReady, rest, none⟩ } :
        Health) = b
    have hready : s.step cfg modules (.ready p none) = some b := by
      rw [← hb]
      simp only [Health.step, hget]
    have hget' : b.checks.get p = some ⟨statuses ++
        [⟨name, true, "", (s.clock - start) / 1000000⟩], overallReady, rest, none⟩ := by
      rw [← hb]
      simp
    obtain ⟨t, reply, hrun, hgone, hreply⟩ := Health.exists_reply cfg modules hget'
    refine ⟨t, reply, ((Run.refl s).snoc (l := .ready p none) rfl hready).trans hrun, hgone, ?_⟩
    rw [hreply, ← hb]

end Completion

/-- The reply reports all modules as ready. -/
structure HealthReply.AllReady (modules : List String) (reply : HealthReply) : Prop where
  code : reply.code = 200
  status : reply.status = "ok"
  names : reply.modules.map ModuleStatus.name = modules
  ready : ∀ status ∈ reply.modules, status.ready = true

namespace Health

/-- A check with this number is not in progress, so that one in progress later is new. -/
def isNew (a : Health) (p : ℕ) : Bool := (a.checks.get p).isNone

/-- How many replies are to new checks. -/
def newReplies (a : Health) (replies : List (ℕ × HealthReply)) : ℕ :=
  replies.countP fun r => a.isNew r.1

/-- How many new checks in progress have the answer of the module. -/
def newAnswers (a : Health) (checks : Clustered ℕ HealthCheck) (name : String) : ℕ :=
  checks.rows.countP fun row => a.isNew row.1 && decide (name ∉ row.2.rest)

/-- Since `a` no module has failed. New checks have found all modules ready, and the breaker of a
module has let through as many probes as there were answers to new checks. -/
structure Recovering (a : Health) (modules : List String) (s : Health)
    (new : List (ℕ × HealthReply)) : Prop where
  replies : s.replies = new ++ a.replies
  ready : ∀ r ∈ new, a.isNew r.1 = true → r.2.AllReady modules
  names : ∀ p check, s.checks.get p = some check → ∀ name ∈ check.rest, name ∈ modules
  checks : ∀ p check, s.checks.get p = some check → a.isNew p = true →
    check.Truthful (fun _ => True) modules
  asked : ∀ p check name rest, s.checks.get p = some check → a.isNew p = true →
    check.asked ≠ none → check.rest = name :: rest → (s.breakers name).state ≠ .open
  breakers : ∀ name ∈ modules, (s.breakers name).Probed
    (a.newReplies new + a.newAnswers s.checks name) s.clock

section Recovering

variable {cfg : Config} {modules : List String} {a s t : Health} {l : HealthLabel} {p : ℕ}

/-- A check that goes on is counted by what it has left to ask. -/
theorem newAnswers_put (checks : Clustered ℕ HealthCheck) (c : HealthCheck) (name : String) :
    a.newAnswers (checks.put p c) name +
        ((checks.get p).any fun c => a.isNew p && decide (name ∉ c.rest)).toNat =
      a.newAnswers checks name + (a.isNew p && decide (name ∉ c.rest)).toNat :=
  Clustered.countP_place _ p c checks.sorted

/-- A check that has ended is counted no longer. -/
theorem newAnswers_erase (checks : Clustered ℕ HealthCheck) (name : String) :
    a.newAnswers (checks.erase p) name +
        ((checks.get p).any fun c => a.isNew p && decide (name ∉ c.rest)).toNat =
      a.newAnswers checks name :=
  Clustered.countP_filter_ne _ p checks.sorted

/-- A check that asks the same modules is counted as before. -/
theorem newAnswers_put_of_rest {checks : Clustered ℕ HealthCheck} {c : HealthCheck}
    (c' : HealthCheck) (hget : checks.get p = some c) (hrest : c'.rest = c.rest) (name : String) :
    a.newAnswers (checks.put p c') name = a.newAnswers checks name := by
  have hcount := newAnswers_put (a := a) (p := p) checks c' name
  rw [hget, hrest] at hcount
  exact Nat.add_right_cancel hcount

/-- Without failures, no breaker opens. -/
theorem Moves.opened (hmove : s.Moves cfg modules l t) (hl : l.answered = true) (name : String)
    (hopen : (t.breakers name).state = .open) : t.breakers name = s.breakers name := by
  -- A breaker that is updated and open is as it was.
  have hupdate : ∀ m (b : Breaker), (b.state = .open → b = s.breakers m) →
      (Function.update s.breakers m b name).state = .open →
      Function.update s.breakers m b name = s.breakers name := by
    intro m b hb hstate
    by_cases heq : name = m
    · subst heq
      rw [Function.update_self] at hstate ⊢
      exact hb hstate
    · rw [Function.update_of_ne heq]
  cases hmove with
  | tick => rfl
  | arrive => rfl
  | allowed => exact hupdate _ _ Breaker.allow_of_open hopen
  | refused => exact hupdate _ _ Breaker.allow_of_open hopen
  | failed => cases hl
  | ready => exact hupdate _ _ Breaker.success_of_open hopen
  | answer => rfl

/-- Without failures, the breakers keep the probes that they have let through. -/
theorem Moves.probed (hmove : s.Moves cfg modules l t) (hl : l.answered = true) {name : String} {i : ℕ}
    (h : (s.breakers name).Probed i s.clock) : (t.breakers name).Probed i t.clock := by
  have hupdate : ∀ m (b : Breaker),
      ((s.breakers m).Probed i s.clock → b.Probed i s.clock) →
      (Function.update s.breakers m b name).Probed i s.clock := by
    intro m b hb
    by_cases heq : name = m
    · subst heq
      rw [Function.update_self]
      exact hb h
    · rw [Function.update_of_ne heq]
      exact h
  cases hmove with
  | tick hlater => exact h.wait hlater
  | arrive => exact h
  | allowed => exact hupdate _ _ fun hprobed => hprobed.allowed.1
  | refused => exact hupdate _ _ fun hprobed => hprobed.allowed.1
  | failed => cases hl
  | ready => exact hupdate _ _ Breaker.Probed.success_any
  | answer => exact h

/-- A check goes on: what is kept for the others is kept for it. -/
theorem Recovering.put {replies : List (ℕ × HealthReply)} {c : HealthCheck}
    (h : a.Recovering modules s replies) (hl : l.answered = true) (hmove : s.Moves cfg modules l t)
    (hchecks : t.checks = s.checks.put p c) (hreplies : t.replies = s.replies)
    (hnames : ∀ name ∈ c.rest, name ∈ modules)
    (hcheck : a.isNew p = true → c.Truthful (fun _ => True) modules)
    (hasked : ∀ name rest, a.isNew p = true → c.asked ≠ none → c.rest = name :: rest →
      (t.breakers name).state ≠ .open)
    (hbreakers : ∀ name ∈ modules, (t.breakers name).Probed
      (a.newReplies replies + a.newAnswers t.checks name) t.clock) :
    a.Recovering modules t replies := by
  refine ⟨hreplies.trans h.replies, h.ready, fun q c' hq => ?_, fun q c' hq hnew => ?_,
    fun q c' name rest hq hnew hwaits hrest => ?_, hbreakers⟩
  · rw [hchecks] at hq
    rcases Clustered.get_put_cases hq with ⟨-, rfl⟩ | ⟨-, hold⟩
    · exact hnames
    · exact h.names q c' hold
  · rw [hchecks] at hq
    rcases Clustered.get_put_cases hq with ⟨rfl, rfl⟩ | ⟨-, hold⟩
    · exact hcheck hnew
    · exact h.checks q c' hold hnew
  · rw [hchecks] at hq
    rcases Clustered.get_put_cases hq with ⟨rfl, rfl⟩ | ⟨-, hold⟩
    · exact hasked name rest hnew hwaits hrest
    · intro hopen
      have hsame := hmove.opened hl name hopen
      rw [hsame] at hopen
      exact h.asked q c' name rest hold hnew hwaits hrest hopen

/-- One step without a failure. -/
theorem Recovering.moves {replies : List (ℕ × HealthReply)} (h : a.Recovering modules s replies)
    (hl : l.answered = true) (hmove : s.Moves cfg modules l t) :
    ∃ replies', a.Recovering modules t replies' := by
  have hkept : ∀ name ∈ modules, (t.breakers name).Probed
      (a.newReplies replies + a.newAnswers s.checks name) t.clock :=
    fun name hname => hmove.probed hl (h.breakers name hname)
  cases hmove' : hmove with
  | tick hlater => exact ⟨replies, h.replies, h.ready, h.names, h.checks, h.asked, hkept⟩
  | arrive hget =>
    rename_i p
    refine ⟨replies, h.put hl hmove rfl rfl (fun name hname => hname)
      (fun _ => ⟨rfl, rfl, fun status hstatus => by cases hstatus⟩)
      (fun _ _ _ hne => absurd rfl hne) fun name hname => ?_⟩
    have hcount := newAnswers_put (a := a) (p := p) s.checks ⟨[], true, modules, none⟩ name
    simp only [hget, Option.any_none, Bool.toNat_false, hname, not_true_eq_false, decide_false,
      Bool.and_false, Nat.add_zero] at hcount
    rw [hcount]
    exact hkept name hname
  | allowed hget hallow =>
    rename_i p statuses overallReady name rest
    have hmem : name ∈ modules := h.names p _ hget name List.mem_cons_self
    refine ⟨replies, h.put hl hmove rfl rfl (fun n hn => h.names p _ hget n hn) (fun hnew => ?_)
      (fun n rest' _ _ heq => ?_) fun n hn => ?_⟩
    · have hcheck := h.checks p _ hget hnew
      exact ⟨hcheck.names, hcheck.overall, hcheck.up⟩
    · cases heq
      dsimp only
      rw [Function.update_self]
      exact (h.breakers _ hmem).allowed.2
    · have hcount := newAnswers_put_of_rest (a := a)
        ⟨statuses, overallReady, name :: rest, some s.clock⟩ hget rfl n
      dsimp only
      rw [hcount]
      exact hkept n hn
  | refused hget hallow =>
    rename_i p statuses overallReady name rest
    -- No breaker refuses a probe any more.
    have hmem : name ∈ modules := h.names p _ hget name List.mem_cons_self
    rw [(h.breakers name hmem).allow] at hallow
    cases hallow
  | failed => cases hl
  | ready hget =>
    rename_i p statuses overallReady name rest start
    refine ⟨replies, h.put hl hmove rfl rfl
      (fun n hn => h.names p _ hget n (List.mem_cons_of_mem name hn)) (fun hnew => ?_)
      (fun _ _ _ hne => absurd rfl hne) fun n hn => ?_⟩
    · have hcheck := (h.checks p _ hget hnew).report true "" ((s.clock - start) / 1000000)
        fun _ => rfl
      rwa [Bool.and_true] at hcheck
    · have hcount := newAnswers_put (a := a) (p := p) s.checks
        ⟨statuses ++ [⟨name, true, "", (s.clock - start) / 1000000⟩], overallReady, rest, none⟩ n
      rw [hget] at hcount
      by_cases heq : n = name
      · subst heq
        simp only [Option.any_some, List.mem_cons, true_or, not_true_eq_false, decide_false,
          Bool.and_false, Bool.toNat_false, Nat.add_zero] at hcount
        by_cases hnew : a.isNew p = true
        · -- The answer to a new check is one more probe.
          have hclosed := h.asked p _ n rest hget hnew nofun rfl
          have hprobe := (h.breakers n hn).success hclosed
          rw [hcount]
          dsimp only
          rw [Function.update_self]
          refine hprobe.anti ?_
          have hone : (a.isNew p && decide (n ∉ rest)).toNat ≤ 1 := Bool.toNat_le _
          omega
        · rw [Bool.not_eq_true] at hnew
          rw [hcount, hnew]
          exact hkept n hn
      · have hsame : decide (n ∉ name :: rest) = decide (n ∉ rest) := by simp [heq]
        simp only [Option.any_some, hsame] at hcount
        rw [Nat.add_right_cancel hcount]
        exact hkept n hn
  | answer hget =>
    rename_i p statuses overallReady
    refine ⟨(p, reply cfg s.clock ⟨statuses, overallReady, [], none⟩) :: replies,
      congrArg (_ :: ·) h.replies, fun r hr hnew => ?_,
      fun q c hq => h.names q c (Clustered.get_erase_cases hq).2,
      fun q c hq => h.checks q c (Clustered.get_erase_cases hq).2,
      fun q c name rest hq => h.asked q c name rest (Clustered.get_erase_cases hq).2,
      fun name hname => ?_⟩
    · rcases List.mem_cons.mp hr with rfl | hold
      · have hcheck := h.checks p _ hget hnew
        have hready : ∀ status ∈ statuses, status.ready = true :=
          fun status hmem => hcheck.up status hmem trivial
        have hoverall : overallReady = true :=
          hcheck.overall.trans (List.all_eq_true.mpr hready)
        have hnames := hcheck.names
        rw [List.append_nil] at hnames
        subst hoverall
        exact ⟨rfl, rfl, hnames, hready⟩
      · exact h.ready r hold hnew
    · have hcount := newAnswers_erase (a := a) (p := p) s.checks name
      simp only [hget, Option.any_some, List.not_mem_nil, not_false_eq_true, decide_true,
        Bool.and_true] at hcount
      have hreplies : a.newReplies ((p, reply cfg s.clock ⟨statuses, overallReady, [], none⟩) ::
          replies) = a.newReplies replies + (a.isNew p).toNat := by
        rw [newReplies, List.countP_cons]
        cases a.isNew p <;> rfl
      have hsum : a.newReplies replies + (a.isNew p).toNat +
          a.newAnswers (s.checks.erase p) name =
          a.newReplies replies + a.newAnswers s.checks name := by omega
      rw [hreplies, hsum]
      exact hkept name hname

/-- Recovery starts when every breaker that is open has been so for its time. -/
theorem Reachable.recovering {ok : Health → HealthLabel → Prop} (h : a.Reachable cfg modules ok)
    (hprobed : ∀ name, (a.breakers name).Probed 0 a.clock) : a.Recovering modules a [] := by
  have htruthful : a.Truthful (fun _ => False) modules := by
    obtain ⟨clock, hrun⟩ := h
    refine Reachable.truthful ⟨clock, hrun.mono fun _ _ _ => ?_⟩
    rintro ⟨-, -, -, -, -, -, -, -, hfalse⟩
    exact hfalse
  have hold : ∀ p check, a.checks.get p = some check → a.isNew p = false := by
    intro p check hget
    rw [isNew, hget]
    rfl
  refine ⟨rfl, fun r hr => absurd hr List.not_mem_nil, fun p check hget name hname => ?_,
    fun p check hget hnew => ?_, fun p check name rest hget hnew => ?_, fun name _ => ?_⟩
  · rw [← (htruthful.checks p check hget).names]
    exact List.mem_append_right _ hname
  · rw [hold p check hget] at hnew
    cases hnew
  · rw [hold p check hget] at hnew
    cases hnew
  · have hzero : a.newAnswers a.checks name = 0 := by
      refine List.countP_eq_zero.mpr fun row hrow => ?_
      rw [hold row.1 row.2 (Clustered.mem_rows.mp hrow)]
      exact Bool.false_ne_true
    rw [hzero]
    exact hprobed name

end Recovering

end Health

/-- **Recovery.** Let no module fail from some time on, however the breakers of the node were
tripped before and whatever checks are in progress. Once `openDuration` has passed, every check that
arrives reports all modules as ready with the status 200, however the checks overlap and whenever
their steps are taken; every check can be completed; and after as many replies as a half-open
breaker needs, all breakers are closed. -/
theorem modules_recover {cfg : Config} {modules : List String} {s a t : Health}
    {ok : Health → HealthLabel → Prop} (h : s.Reachable cfg modules ok)
    (hquiet : Run (Health.step cfg modules) (fun _ l => l.answered = true) s a)
    (helapsed : s.clock + cfg.breaker.openDuration ≤ a.clock)
    (hrun : Run (Health.step cfg modules) (fun _ l => l.answered = true) a t) :
    ∃ replies, t.replies = replies ++ a.replies ∧
      (∀ r ∈ replies, a.checks.get r.1 = none → r.2.AllReady modules) ∧
      (cfg.breaker.halfOpenSuccesses ≤ replies.countP (fun r => (a.checks.get r.1).isNone) →
        ∀ name ∈ modules, (t.breakers name).state = .closed) ∧
      ∀ p check, t.checks.get p = some check → ∃ u reply,
        Run (Health.step cfg modules) (fun _ l => l.probes p) t u ∧
          u.replies = (p, reply) :: t.replies := by
  obtain ⟨clock, hstart⟩ := id h
  have ha : a.Reachable cfg modules anyStep := ⟨clock, hstart.any.trans hquiet.any⟩
  have ht : t.Reachable cfg modules anyStep :=
    ⟨clock, (hstart.any.trans hquiet.any).trans hrun.any⟩
  -- What is open has been so since the last failure.
  have hopened : ∀ name, (a.breakers name).state = .open →
      (a.breakers name).openedAt ≤ s.clock := by
    refine hquiet.invariant (I := fun x => ∀ name, (x.breakers name).state = .open →
      (x.breakers name).openedAt ≤ s.clock) (fun name => (h.sane name).opened) ?_
    intro b l c hb hl hstep name hopen
    have hsame := (Health.step_moves hstep).opened hl name hopen
    rw [hsame] at hopen ⊢
    exact hb name hopen
  have hprobed : ∀ name, (a.breakers name).Probed 0 a.clock := by
    intro name
    have hsane := ha.sane name
    exact Breaker.Sane.probed ⟨hsane.openDuration, hsane.halfOpenSuccesses, hopened name,
      hsane.counted, hsane.missing⟩ helapsed
  obtain ⟨replies, hrecovering⟩ : ∃ replies, a.Recovering modules t replies := by
    refine hrun.invariant (I := fun x => ∃ replies, a.Recovering modules x replies)
      ⟨[], ha.recovering hprobed⟩ ?_
    rintro b l c ⟨replies, hb⟩ hl hstep
    exact hb.moves hl (Health.step_moves hstep)
  refine ⟨replies, hrecovering.replies, fun r hr hnew => ?_, fun henough name hname => ?_,
    fun p check hget => ?_⟩
  · exact hrecovering.ready r hr (by rw [Health.isNew, hnew]; rfl)
  · refine (ht.sane name).closed (hrecovering.breakers name hname) (henough.trans ?_)
    exact Int.ofNat_le.mpr (Nat.le_add_right _ _)
  · obtain ⟨u, reply, hrun', -, hreply⟩ := ht.exists_reply hget
    exact ⟨u, reply, hrun', hreply⟩

/-- The bus fails a check, and the next one finds its breaker open. A third one is in progress. -/
def trippedChecks : List HealthLabel :=
  [.arrive 1, .ask 1, .ready 1 (some "nats: connection closed"), .ask 1, .ready 1 none, .ask 1,
    .ready 1 none, .answer 1, .arrive 2, .ask 2, .ask 2, .ready 2 none, .ask 2, .ready 2 none,
    .answer 2, .arrive 3, .ask 3]

/-- Fifteen seconds pass, and two checks overlap. -/
def recoveredChecks : List HealthLabel :=
  [.arrive 4, .ask 4, .arrive 5, .tick 15500000000, .ready 4 none, .ask 5, .ask 4, .ready 5 none,
    .ask 5, .ready 4 none, .tick 16000000000, .ready 5 none, .ask 5, .ask 4, .ready 4 none,
    .answer 4, .ready 5 none, .answer 5]

/-- After an outage of the bus that opened its breaker, two overlapping checks are answered with 200
and close the breaker, while a check from before the recovery is in progress. -/
theorem modules_recover_outage : ∃ s a t : Health, ∃ replies,
    s.replies.map (fun r => r.2.code) = [503, 503] ∧ (s.breakers "natsbus").state = .open ∧
    (s.checks.get 3).isSome = true ∧
    Run (Health.step hastyConfig nodeModules) (fun _ l => l.answered = true) s a ∧
    Run (Health.step hastyConfig nodeModules) (fun _ l => l.answered = true) a t ∧
    t.replies = replies ++ a.replies ∧ replies.map Prod.fst = [5, 4] ∧
    (∀ r ∈ replies, r.2.AllReady nodeModules) ∧ (t.breakers "natsbus").state = .closed := by
  have hplay : (play (Health.step hastyConfig nodeModules) (fun _ _ => true)
      (Health.init hastyConfig 0) trippedChecks).any (fun s =>
        decide (s.replies.map (fun r => r.2.code) = [503, 503]) &&
          decide ((s.breakers "natsbus").state = .open) && (s.checks.get 3).isSome &&
          decide (s.clock = 0) &&
        (play (Health.step hastyConfig nodeModules) (fun _ l => l.answered) s
          [.tick 15000000000]).any fun a =>
            decide (a.clock = 15000000000) && (a.checks.get 4).isNone && (a.checks.get 5).isNone &&
            decide (a.replies.length = 2) &&
          (play (Health.step hastyConfig nodeModules) (fun _ l => l.answered) a
            recoveredChecks).any fun t =>
              decide ((t.replies.map Prod.fst).take 2 = [5, 4]) &&
                decide (t.replies.length = 4)) = true := by
    decide +kernel
  have hcheck (s : Health) (l : HealthLabel) (_ : true = true) : anyStep s l := trivial
  obtain ⟨s, hstart, htest⟩ := Run.exists_of_play hcheck hplay
  simp only [Bool.and_eq_true, decide_eq_true_eq] at htest
  obtain ⟨⟨⟨⟨hcodes, hopen⟩, hthree⟩, hclock⟩, hplay⟩ := htest
  obtain ⟨a, hquiet, htest⟩ := Run.exists_of_play (fun _ _ h => h) hplay
  simp only [Bool.and_eq_true, decide_eq_true_eq, Option.isNone_iff_eq_none] at htest
  obtain ⟨⟨⟨⟨hlater, hfour⟩, hfive⟩, hlength⟩, hplay⟩ := htest
  obtain ⟨t, hrun, htest⟩ := Run.exists_of_play (fun _ _ h => h) hplay
  simp only [Bool.and_eq_true, decide_eq_true_eq] at htest
  obtain ⟨hfirst, hlength'⟩ := htest
  have helapsed : s.clock + hastyConfig.breaker.openDuration ≤ a.clock := by
    rw [hclock, hlater]
    decide
  obtain ⟨replies, hreplies, hready, hclosed, -⟩ :=
    modules_recover ⟨0, hstart⟩ hquiet helapsed hrun
  have hnew : replies.map Prod.fst = [5, 4] := by
    have htwo : replies.length = 2 := by
      rw [hreplies, List.length_append, hlength] at hlength'
      omega
    rwa [hreplies, List.map_append, List.take_left' (by rw [List.length_map, htwo])] at hfirst
  have hnone : ∀ r ∈ replies, a.checks.get r.1 = none := by
    intro r hr
    have hmem : r.1 ∈ [5, 4] := hnew ▸ List.mem_map_of_mem hr
    rcases List.mem_cons.mp hmem with h | h
    · rw [h, hfive]
    · rw [List.mem_singleton.mp h, hfour]
  refine ⟨s, a, t, replies, hcodes, hopen, hthree, hquiet, hrun, hreplies, hnew,
    fun r hr => hready r hr (hnone r hr), hclosed ?_ "natsbus" (by decide)⟩
  have hcount : replies.countP (fun r => (a.checks.get r.1).isNone) = replies.length :=
    List.countP_eq_length.mpr fun r hr => by rw [hnone r hr]; rfl
  rw [hcount, ← List.length_map (f := Prod.fst), hnew]
  decide

end ControlPlane

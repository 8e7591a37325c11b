import ControlPlane.Http.Secure

/-!
# Blocking after failed authentications

The guard keeps two maps, from addresses to counts and to the ends of blocks, which the exits
of `secure` update. Over a run of requests, processed one at a time, the two maps say what
the history says: how many requests of an address were refused since it was last reset, and
when the last of them was. The requests of other addresses do not matter.
-/

namespace ControlPlane

/-- A request that `secure` processed: its address, the readings of the clock, and the
verdict. -/
structure Visit where
  ip : String
  clock : Clock
  verdict : Verdict

/-- The request was refused with the status 401 or 403. -/
def Visit.isRefusal (v : Visit) : Bool :=
  match v.verdict with
  | .refused status _ => status = 401 ∨ status = 403
  | .served => false

section History

variable (limit : ℤ) (block : Duration)

/-- The times of the refusals among these visits. -/
def refusals (visits : List Visit) : List Time :=
  (visits.filter Visit.isRefusal).map fun v => v.clock.refused

/-- These visits, newest first, led to a block that is over at `now`. -/
def BlockOver (visits : List Visit) (now : Time) : Prop :=
  limit ≤ (refusals visits).length ∧ ∃ last ∈ (refusals visits).head?, last + block < now

instance (visits : List Visit) (now : Time) : Decidable (BlockOver limit block visits now) :=
  inferInstanceAs (Decidable (_ ∧ _))

/-- The visits of an address, newest first, since its last reset. A reset is an accepted
request, or a request that arrives after the block is over; the latter may be refused itself. -/
def sinceReset : List Visit → List Visit
  | [] => []
  | v :: earlier =>
    if v.verdict = .served then []
    else if BlockOver limit block (sinceReset earlier) v.clock.arrived then [v]
    else v :: sinceReset earlier

end History

/-- A request on its way to a route. -/
structure Arrival where
  route : Route
  request : Request
  clock : Clock

def Arrival.ip (a : Arrival) : String := clientIP a.request.remoteAddr

/-- The guard, and the requests processed so far, newest first. -/
structure Guarded where
  guard : AuthGuard
  visits : List Visit

namespace Guarded

variable (c : ServerSettings)

def init : Guarded := ⟨c.authGuard, []⟩

def verdict (s : Guarded) (a : Arrival) : Verdict :=
  (c.secure a.route.scope a.request a.clock s.guard).1

def step (s : Guarded) (a : Arrival) : Guarded where
  guard := (c.secure a.route.scope a.request a.clock s.guard).2
  visits := ⟨a.ip, a.clock, s.verdict c a⟩ :: s.visits

/-- The state after these requests. -/
def after (arrivals : List Arrival) : Guarded := arrivals.foldl (step c) (init c)

def visitsOf (s : Guarded) (ip : String) : List Visit := s.visits.filter fun v => v.ip = ip

/-- The refusals of an address since its last reset. -/
def refused (s : Guarded) (ip : String) : List Time :=
  refusals (sinceReset (max 1 c.authFailureMaxAttempts) c.authBlock.duration (s.visitsOf ip))

end Guarded

namespace AuthGuard

variable {g : AuthGuard} {ip ip' : String} {now : Time}

/-- What the guard knows about an address. -/
def entry (g : AuthGuard) (ip : String) : ℤ × Option Time := (g.failures ip, g.blockedTill ip)

@[simp] theorem entry_clear (g : AuthGuard) (ip : String) : (g.clear ip).entry ip = (0, none) := by
  simp [entry, clear]

theorem entry_clear_of_ne (h : ip' ≠ ip) : (g.clear ip).entry ip' = g.entry ip' := by
  simp [entry, clear, h]

theorem entry_failure (g : AuthGuard) (now : Time) (ip : String) : (g.failure now ip).entry ip =
    (g.failures ip + 1,
      if g.maxFailures ≤ g.failures ip + 1 then some (now + g.blockFor) else g.blockedTill ip) := by
  unfold entry failure
  dsimp only
  rw [Function.update_self]
  split_ifs <;> simp

theorem entry_failure_of_ne (h : ip' ≠ ip) : (g.failure now ip).entry ip' = g.entry ip' := by
  unfold entry failure
  dsimp only
  split_ifs <;> simp [h]

/-- The block of the address is in force. -/
def InForce (g : AuthGuard) (now : Time) (ip : String) : Prop :=
  ∃ till ∈ g.blockedTill ip, now ≤ till

theorem isBlocked_of_inForce (h : g.InForce now ip) : g.isBlocked now ip = (true, g) := by
  obtain ⟨till, htill, hnow⟩ := h
  rw [Option.mem_def] at htill
  simp [isBlocked, htill, not_lt.mpr hnow]

/-- Where no block is in force, the address is let through, and forgotten if it was blocked. -/
theorem isBlocked_of_not_inForce (h : ¬g.InForce now ip) :
    g.isBlocked now ip = (false, if (g.blockedTill ip).isSome then g.clear ip else g) := by
  cases htill : g.blockedTill ip with
  | none => simp [isBlocked, htill]
  | some till =>
    have hover : till < now := by
      by_contra hnow
      exact h ⟨till, htill, not_lt.mp hnow⟩
    simp [isBlocked, htill, hover]

end AuthGuard

section Exits

variable {c : ServerSettings} {scope : Scope} {r : Request} {clock : Clock} {g : AuthGuard}

/-- The guard with which `secure` goes on after `IsBlocked` has let the address through. -/
def AuthGuard.admitted (g : AuthGuard) (ip : String) : AuthGuard :=
  if (g.blockedTill ip).isSome then g.clear ip else g

/-- The ways out of `secure`: a block in force, a refusal that is counted, or an acceptance. -/
inductive Exits (g : AuthGuard) (clock : Clock) (ip : String) : Verdict × AuthGuard → Prop
  | blocked (h : g.InForce clock.arrived ip) : Exits g clock ip (.blocked, g)
  | refused (h : ¬g.InForce clock.arrived ip) (status : ℕ) (text : String)
      (hstatus : status = 401 ∨ status = 403) :
      Exits g clock ip (.refused status text, (g.admitted ip).failure clock.refused ip)
  | served (h : ¬g.InForce clock.arrived ip) :
      Exits g clock ip (.served, (g.admitted ip).success ip)

theorem refusal_status {status : ℕ} {text : String}
    (h : c.refusal scope r clock = some (status, text)) : status = 401 ∨ status = 403 := by
  unfold ServerSettings.refusal at h
  dsimp only at h
  split_ifs at h <;> cases h <;> decide

theorem secure_exits (hauth : c.disableAPITokenAuth = false) (htokens : c.HasTokens) :
    Exits g clock (clientIP r.remoteAddr) (c.secure scope r clock g) := by
  rw [ServerSettings.secure_eq hauth htokens]
  by_cases hforce : g.InForce clock.arrived (clientIP r.remoteAddr)
  · rw [AuthGuard.isBlocked_of_inForce hforce]
    exact .blocked hforce
  · rw [AuthGuard.isBlocked_of_not_inForce hforce]
    cases hrefusal : c.refusal scope r clock with
    | none => exact .served hforce
    | some refusal =>
      obtain ⟨status, text⟩ := refusal
      exact .refused hforce status text (refusal_status hrefusal)

end Exits

namespace AuthGuard

variable {g : AuthGuard} {ip ip' : String} {clock : Clock} {result : Verdict × AuthGuard}

theorem entry_admitted_of_ne (h : ip' ≠ ip) : (g.admitted ip).entry ip' = g.entry ip' := by
  unfold admitted
  split_ifs
  · exact entry_clear_of_ne h
  · rfl

/-- What is known about other addresses does not change. -/
theorem entry_of_exits (h : Exits g clock ip result) (hne : ip' ≠ ip) :
    result.2.entry ip' = g.entry ip' := by
  cases h with
  | blocked => rfl
  | refused =>
    rw [entry_failure_of_ne hne]
    exact entry_admitted_of_ne hne
  | served =>
    rw [success, entry_clear_of_ne hne]
    exact entry_admitted_of_ne hne

theorem params_admitted (g : AuthGuard) (ip : String) :
    (g.admitted ip).maxFailures = g.maxFailures ∧ (g.admitted ip).blockFor = g.blockFor := by
  unfold admitted
  split_ifs <;> exact ⟨rfl, rfl⟩

theorem params_failure (g : AuthGuard) (now : Time) (ip : String) :
    (g.failure now ip).maxFailures = g.maxFailures ∧ (g.failure now ip).blockFor = g.blockFor := by
  unfold failure
  dsimp only
  split_ifs <;> exact ⟨rfl, rfl⟩

theorem params_of_exits (h : Exits g clock ip result) :
    result.2.maxFailures = g.maxFailures ∧ result.2.blockFor = g.blockFor := by
  have hadmitted := params_admitted g ip
  cases h with
  | blocked => exact ⟨rfl, rfl⟩
  | refused =>
    have hfailure := params_failure (g.admitted ip) clock.refused ip
    exact ⟨hfailure.1.trans hadmitted.1, hfailure.2.trans hadmitted.2⟩
  | served => exact hadmitted

end AuthGuard

namespace Guarded

variable {c : ServerSettings} {s : Guarded} {a : Arrival} {ip : String}

/-- The count and the end of the block that follow from the refusals since the last reset. -/
def entryOf (c : ServerSettings) (times : List Time) : ℤ × Option Time :=
  (times.length,
    if max 1 c.authFailureMaxAttempts ≤ times.length then
      times.head?.map (· + c.authBlock.duration)
    else none)

theorem entryOf_nil (c : ServerSettings) : entryOf c [] = (0, none) := by
  have hlimit : ¬max 1 c.authFailureMaxAttempts ≤ 0 := by omega
  simp [entryOf, hlimit]

/-- The guard says what the history says. -/
structure Sound (c : ServerSettings) (s : Guarded) : Prop where
  params : s.guard.maxFailures = max 1 c.authFailureMaxAttempts ∧
    s.guard.blockFor = c.authBlock.duration
  entry : ∀ ip, s.guard.entry ip = entryOf c (s.refused c ip)

theorem sound_init (c : ServerSettings) : (init c).Sound c := by
  refine ⟨⟨?_, rfl⟩, ?_⟩
  · exact max_eq_right (le_max_left 1 _)
  · intro ip
    exact (entryOf_nil c).symm

/-- A block is in force if enough requests were refused and the last refusal is recent. -/
theorem Sound.inForce_iff (h : s.Sound c) (now : Time) (ip : String) : s.guard.InForce now ip ↔
    max 1 c.authFailureMaxAttempts ≤ (s.refused c ip).length ∧
      ∃ last ∈ (s.refused c ip).head?, now ≤ last + c.authBlock.duration := by
  have htill : s.guard.blockedTill ip = (entryOf c (s.refused c ip)).2 :=
    congrArg Prod.snd (h.entry ip)
  unfold AuthGuard.InForce
  rw [htill]
  unfold entryOf
  dsimp only
  split_ifs with hlimit <;> simp [hlimit]

/-- The visits of an address after a step. -/
theorem visitsOf_step (s : Guarded) (a : Arrival) (ip : String) : (s.step c a).visitsOf ip =
    if a.ip = ip then ⟨a.ip, a.clock, s.verdict c a⟩ :: s.visitsOf ip else s.visitsOf ip := by
  unfold visitsOf step
  dsimp only
  rw [List.filter_cons]
  split_ifs <;> simp_all

/-- The refusals that still count for a request that is let through: none, if the address was
blocked before. -/
def counted (c : ServerSettings) (times : List Time) : List Time :=
  if max 1 c.authFailureMaxAttempts ≤ times.length then [] else times

theorem counted_length (c : ServerSettings) (times : List Time) :
    ((counted c times).length : ℤ) < max 1 c.authFailureMaxAttempts := by
  unfold counted
  split_ifs with hlimit
  · simp
  · exact not_le.mp hlimit

/-- The block of an address is over exactly if there was one and it is not in force. -/
theorem Sound.blockOver_iff (h : s.Sound c) (now : Time) (ip : String) :
    BlockOver (max 1 c.authFailureMaxAttempts) c.authBlock.duration
        (sinceReset (max 1 c.authFailureMaxAttempts) c.authBlock.duration (s.visitsOf ip)) now ↔
      max 1 c.authFailureMaxAttempts ≤ (s.refused c ip).length ∧ ¬s.guard.InForce now ip := by
  have hinForce := h.inForce_iff now ip
  unfold BlockOver
  change _ ≤ ((s.refused c ip).length : ℤ) ∧ (∃ last ∈ (s.refused c ip).head?, _) ↔ _
  generalize s.refused c ip = times at hinForce
  cases times with
  | nil => simp
  | cons last times => simp_all

/-- A blocked request leaves the refusals of its address as they are. -/
theorem Sound.refused_step_blocked (h : s.Sound c) (hverdict : s.verdict c a = .blocked)
    (hforce : s.guard.InForce a.clock.arrived a.ip) :
    (s.step c a).refused c a.ip = s.refused c a.ip := by
  have hnot := mt (h.blockOver_iff a.clock.arrived a.ip).mp fun hover => hover.2 hforce
  unfold refused
  rw [visitsOf_step, if_pos rfl, hverdict]
  simp [sinceReset, hnot, Verdict.blocked, refusals, Visit.isRefusal]

/-- A refused request adds its refusal to those that count. -/
theorem Sound.refused_step_refused (h : s.Sound c) {status : ℕ} {text : String}
    (hverdict : s.verdict c a = .refused status text) (hstatus : status = 401 ∨ status = 403)
    (hforce : ¬s.guard.InForce a.clock.arrived a.ip) :
    (s.step c a).refused c a.ip = a.clock.refused :: counted c (s.refused c a.ip) := by
  have hover := h.blockOver_iff a.clock.arrived a.ip
  have hrefusal : (⟨a.ip, a.clock, s.verdict c a⟩ : Visit).isRefusal = true := by
    simpa [Visit.isRefusal, hverdict] using hstatus
  have hne : s.verdict c a ≠ .served := by simp [hverdict]
  unfold refused counted
  rw [visitsOf_step, if_pos rfl, sinceReset, if_neg hne]
  split_ifs with hblock hlimit hlimit
  · simp [refusals, hrefusal]
  · exact absurd (hover.mp hblock).1 hlimit
  · exact absurd (hover.mpr ⟨hlimit, hforce⟩) hblock
  · simp [refusals, hrefusal]

/-- An accepted request leaves no refusals. -/
theorem refused_step_served (hverdict : s.verdict c a = .served) :
    (s.step c a).refused c a.ip = [] := by
  unfold refused
  rw [visitsOf_step, if_pos rfl, hverdict]
  simp [sinceReset, refusals]

/-- The guard with which `secure` goes on knows the refusals that count. -/
theorem Sound.entry_admitted (h : s.Sound c) (ip : String) :
    (s.guard.admitted ip).entry ip = entryOf c (counted c (s.refused c ip)) := by
  have hentry := h.entry ip
  have htill : s.guard.blockedTill ip = (entryOf c (s.refused c ip)).2 := congrArg Prod.snd hentry
  unfold AuthGuard.admitted counted
  rw [htill]
  generalize s.refused c ip = times at hentry
  by_cases hblocked : max 1 c.authFailureMaxAttempts ≤ times.length
  · obtain ⟨last, hlast⟩ : ∃ last, times.head? = some last := by
      cases times with
      | nil => exact absurd ((le_max_left _ _).trans hblocked) (by simp)
      | cons last _ => exact ⟨last, rfl⟩
    have hsome : (entryOf c times).2.isSome = true := by simp [entryOf, hblocked, hlast]
    rw [if_pos hsome, if_pos hblocked, AuthGuard.entry_clear, entryOf_nil]
  · have hnone : ¬(entryOf c times).2.isSome = true := by simp [entryOf, hblocked]
    rw [if_neg hnone, if_neg hblocked]
    exact hentry

/-- Counting a refusal gives the entry of the longer list. -/
theorem entry_failure_counted {g : AuthGuard} {times : List Time} {now : Time}
    (hparams : g.maxFailures = max 1 c.authFailureMaxAttempts ∧ g.blockFor = c.authBlock.duration)
    (hentry : g.entry ip = entryOf c times)
    (hfew : (times.length : ℤ) < max 1 c.authFailureMaxAttempts) :
    (g.failure now ip).entry ip = entryOf c (now :: times) := by
  have hfailures : g.failures ip = times.length := congrArg Prod.fst hentry
  have htill : g.blockedTill ip = none := by
    have htill' : g.blockedTill ip = (entryOf c times).2 := congrArg Prod.snd hentry
    rw [htill', entryOf, if_neg (not_le.mpr hfew)]
  rw [AuthGuard.entry_failure, hfailures, htill, hparams.1, hparams.2]
  simp [entryOf]

/-- A step keeps the guard and the history in agreement. -/
theorem Sound.step (h : s.Sound c) (hauth : c.disableAPITokenAuth = false) (htokens : c.HasTokens)
    (a : Arrival) : (s.step c a).Sound c := by
  have hexits : Exits s.guard a.clock a.ip (s.verdict c a, (s.step c a).guard) :=
    secure_exits hauth htokens
  have hparams := AuthGuard.params_of_exits hexits
  refine ⟨⟨hparams.1.trans h.params.1, hparams.2.trans h.params.2⟩, fun ip => ?_⟩
  by_cases hip : ip = a.ip
  · subst hip
    generalize hguard : (s.step c a).guard = g' at hexits
    generalize hverdict : s.verdict c a = v at hexits
    cases hexits with
    | blocked hforce =>
      rw [h.refused_step_blocked hverdict hforce]
      exact h.entry a.ip
    | refused hforce status text hstatus =>
      have hadmitted := AuthGuard.params_admitted s.guard a.ip
      rw [h.refused_step_refused hverdict hstatus hforce]
      exact entry_failure_counted ⟨hadmitted.1.trans h.params.1, hadmitted.2.trans h.params.2⟩
        (h.entry_admitted a.ip) (counted_length c _)
    | served hforce =>
      rw [refused_step_served hverdict, AuthGuard.success, AuthGuard.entry_clear, entryOf_nil]
  · have hsame : (s.step c a).refused c ip = s.refused c ip := by
      unfold refused
      rw [visitsOf_step, if_neg fun heq => hip heq.symm]
    rw [hsame, ← h.entry ip]
    exact AuthGuard.entry_of_exits hexits hip

/-- After every run of requests the guard says what the history says. -/
theorem sound_after (hauth : c.disableAPITokenAuth = false) (htokens : c.HasTokens)
    (arrivals : List Arrival) : (after c arrivals).Sound c := by
  induction arrivals using List.reverseRecOn with
  | nil => exact sound_init c
  | append_singleton arrivals a ih =>
    unfold after
    rw [List.foldl_concat]
    exact ih.step hauth htokens a

theorem verdict_of_inForce (hauth : c.disableAPITokenAuth = false) (htokens : c.HasTokens)
    (h : s.guard.InForce a.clock.arrived a.ip) : s.verdict c a = .blocked := by
  have hblocked : s.guard.isBlocked a.clock.arrived (clientIP a.request.remoteAddr) =
      (true, s.guard) := AuthGuard.isBlocked_of_inForce h
  unfold verdict
  rw [ServerSettings.secure_eq hauth htokens, hblocked]

/-- A request that is not blocked is answered by its token alone. -/
theorem verdict_of_not_inForce (hauth : c.disableAPITokenAuth = false) (htokens : c.HasTokens)
    (h : ¬s.guard.InForce a.clock.arrived a.ip) : s.verdict c a =
      ((c.refusal a.route.scope a.request a.clock).map fun r => .refused r.1 r.2).getD .served := by
  have hblocked : s.guard.isBlocked a.clock.arrived (clientIP a.request.remoteAddr) =
      (false, s.guard.admitted (clientIP a.request.remoteAddr)) :=
    AuthGuard.isBlocked_of_not_inForce h
  unfold verdict
  rw [ServerSettings.secure_eq hauth htokens, hblocked]
  cases c.refusal a.route.scope a.request a.clock <;> rfl

/-- The other refusals have other statuses. -/
theorem verdict_eq_blocked (hauth : c.disableAPITokenAuth = false) (htokens : c.HasTokens) :
    s.verdict c a = .blocked ↔ s.guard.InForce a.clock.arrived a.ip := by
  refine ⟨fun hverdict => ?_, verdict_of_inForce hauth htokens⟩
  by_contra hforce
  rw [verdict_of_not_inForce hauth htokens hforce] at hverdict
  cases hrefusal : c.refusal a.route.scope a.request a.clock with
  | none =>
    rw [hrefusal] at hverdict
    cases hverdict
  | some refusal =>
    obtain ⟨status, text⟩ := refusal
    have hstatus := refusal_status hrefusal
    rw [hrefusal] at hverdict
    injection hverdict
    omega

theorem guard_step_of_inForce (hauth : c.disableAPITokenAuth = false) (htokens : c.HasTokens)
    (h : s.guard.InForce a.clock.arrived a.ip) : (s.step c a).guard = s.guard := by
  have hblocked : s.guard.isBlocked a.clock.arrived (clientIP a.request.remoteAddr) =
      (true, s.guard) := AuthGuard.isBlocked_of_inForce h
  unfold step
  dsimp only
  rw [ServerSettings.secure_eq hauth htokens, hblocked]

/-- Two guards that know the same history of an address answer its requests alike. -/
theorem Sound.verdict_eq {s' : Guarded} (h : s.Sound c) (h' : s'.Sound c)
    (hauth : c.disableAPITokenAuth = false) (htokens : c.HasTokens)
    (hvisits : s.visitsOf a.ip = s'.visitsOf a.ip) : s.verdict c a = s'.verdict c a := by
  have hrefused : s.refused c a.ip = s'.refused c a.ip := by
    unfold refused
    rw [hvisits]
  have hforce : s.guard.InForce a.clock.arrived a.ip ↔ s'.guard.InForce a.clock.arrived a.ip := by
    rw [h.inForce_iff, h'.inForce_iff, hrefused]
  by_cases hs : s.guard.InForce a.clock.arrived a.ip
  · rw [verdict_of_inForce hauth htokens hs, verdict_of_inForce hauth htokens (hforce.mp hs)]
  · rw [verdict_of_not_inForce hauth htokens hs,
      verdict_of_not_inForce hauth htokens (mt hforce.mpr hs)]

/-- The requests of other addresses leave no trace in the history of this one. -/
theorem visitsOf_after_filter (hauth : c.disableAPITokenAuth = false) (htokens : c.HasTokens)
    (arrivals : List Arrival) (ip : String) :
    (after c arrivals).visitsOf ip =
      (after c (arrivals.filter fun a => a.ip = ip)).visitsOf ip := by
  induction arrivals using List.reverseRecOn with
  | nil => rfl
  | append_singleton arrivals a ih =>
    have hstep : ∀ arrivals, after c (arrivals ++ [a]) = (after c arrivals).step c a :=
      fun arrivals => List.foldl_concat ..
    rw [hstep, visitsOf_step, List.filter_append]
    by_cases hip : a.ip = ip
    · subst hip
      have hverdict := (sound_after hauth htokens arrivals).verdict_eq
        (sound_after hauth htokens (arrivals.filter fun b => b.ip = a.ip)) hauth htokens ih
      have hfilter : [a].filter (fun b => b.ip = a.ip) = [a] := by simp
      rw [if_pos rfl, hfilter, hstep, visitsOf_step, if_pos rfl, hverdict, ih]
    · have hfilter : [a].filter (fun b => b.ip = ip) = [] := by simp [hip]
      rw [if_neg hip, hfilter, List.append_nil]
      exact ih

/-- A request is answered that its address is blocked exactly if enough requests of the address
were refused since its last reset and the last refusal is at most the duration of a block ago.
It does not reach the handler and leaves the guard as it is. Only the earlier requests of its
own address matter. -/
theorem blocked_iff_refused_often (hauth : c.disableAPITokenAuth = false) (htokens : c.HasTokens)
    (arrivals : List Arrival) (a : Arrival) :
    ((after c arrivals).verdict c a = .blocked ↔
        max 1 c.authFailureMaxAttempts ≤ ((after c arrivals).refused c a.ip).length ∧
          ∃ last ∈ ((after c arrivals).refused c a.ip).head?,
            a.clock.arrived ≤ last + c.authBlock.duration) ∧
      ((after c arrivals).verdict c a = .blocked →
        c.runs a.route a.request a.clock (after c arrivals).guard = none ∧
          (after c (arrivals ++ [a])).guard = (after c arrivals).guard) ∧
      (after c arrivals).verdict c a =
        (after c (arrivals.filter fun b => b.ip = a.ip)).verdict c a := by
  have hsound := sound_after hauth htokens arrivals
  have hsound' := sound_after hauth htokens (arrivals.filter fun b => b.ip = a.ip)
  have hvisits := visitsOf_after_filter hauth htokens arrivals a.ip
  refine ⟨?_, ?_, hsound.verdict_eq hsound' hauth htokens hvisits⟩
  · rw [← hsound.inForce_iff]
    exact verdict_eq_blocked hauth htokens
  · intro hblocked
    have hforce := (verdict_eq_blocked hauth htokens).mp hblocked
    refine ⟨?_, ?_⟩
    · unfold ServerSettings.runs
      unfold verdict at hblocked
      rw [hblocked]
      rfl
    · have hstep : after c (arrivals ++ [a]) = (after c arrivals).step c a := List.foldl_concat ..
      rw [hstep]
      exact guard_step_of_inForce hauth htokens hforce

/-- The server for orders, which blocks an address at the second refusal. -/
def strictEnv : Environment where
  getenv := fun key => if key = "AUTH_FAILURE_MAX_ATTEMPTS" then "2" else
    ServerSettings.aclEnv.getenv key
  hostname := none

/-- A request to publish an order in the given second. -/
def orderArrival (token : String) (secs : ℕ) : Arrival where
  route := .events
  request := ServerSettings.orderRequest token
  clock := ⟨secs * second, secs * second, secs * second⟩

/-- Two requests with a wrong token block the address for 300 seconds, also for a request with
a right one. -/
theorem blocked_iff_refused_often_twice :
    (ServerSettings.fromEnv strictEnv).disableAPITokenAuth = false ∧
      (ServerSettings.fromEnv strictEnv).HasTokens ∧
      (after (ServerSettings.fromEnv strictEnv)
          [orderArrival "wrong" 1, orderArrival "wrong" 2]).verdict
        (ServerSettings.fromEnv strictEnv) (orderArrival "writer" 302) = .blocked := by
  have hauth : (ServerSettings.fromEnv strictEnv).disableAPITokenAuth = false := by decide +kernel
  have htokens : (ServerSettings.fromEnv strictEnv).HasTokens := by
    unfold ServerSettings.HasTokens
    decide +kernel
  refine ⟨hauth, htokens, (blocked_iff_refused_often hauth htokens _ _).1.mpr ?_⟩
  decide +kernel

end Guarded

end ControlPlane

import Mathlib.Data.List.Basic

/-!
# Loops that retry

A loop makes an attempt, and after a failed one it waits and makes the next, until an attempt
succeeds, a bound on the number of attempts is reached, or the wait is cancelled. What an
attempt does may depend on a state that the attempts share, so whether the third attempt
succeeds depends on the first two. The attempts that a loop would make without a bound are a
sequence of their own; a run makes a front part of it, and where it stops says how it ends.
-/

namespace ControlPlane.Retry

/-- The parts of a loop. Attempts are numbered from 0; `next` gives the wait after the next
attempt from the one after this. -/
structure Loop (σ κ ε ρ W : Type*) where
  attempt : ℕ → σ → κ × σ
  result : κ → Except ε ρ
  cancelled : ℕ → Option ε
  next : W → W

/-- What a run of a loop did: its attempts and the waits that it began, in order. -/
structure Trace (σ κ ε ρ W : Type*) where
  attempts : List κ
  waits : List W
  result : Except ε ρ
  state : σ

variable {σ κ ε ρ W : Type*}

/-- Put an attempt and the wait after it in front. -/
def Trace.after (t : Trace σ κ ε ρ W) (attempt : κ) (wait : W) : Trace σ κ ε ρ W :=
  { t with attempts := attempt :: t.attempts, waits := wait :: t.waits }

namespace Loop

/-- Run the loop from attempt `n` on, with `retries` further attempts allowed after it. -/
def run (L : Loop σ κ ε ρ W) (retries n : ℕ) (wait : W) (s : σ) : Trace σ κ ε ρ W :=
  let (attempt, s) := L.attempt n s
  match L.result attempt with
  | .ok r => ⟨[attempt], [], .ok r, s⟩
  | .error e =>
      match retries with
      | 0 => ⟨[attempt], [], .error e, s⟩
      | retries + 1 =>
          match L.cancelled n with
          | some e => ⟨[attempt], [wait], .error e, s⟩
          | none => (L.run retries (n + 1) (L.next wait) s).after attempt wait

section Equations

variable {L : Loop σ κ ε ρ W} {retries n : ℕ} {wait : W} {s : σ} {e e' : ε}

theorem run_of_ok {r : ρ} (h : L.result (L.attempt n s).1 = .ok r) :
    L.run retries n wait s = ⟨[(L.attempt n s).1], [], .ok r, (L.attempt n s).2⟩ := by
  unfold run
  simp only [h]

theorem run_zero (h : L.result (L.attempt n s).1 = .error e) :
    L.run 0 n wait s = ⟨[(L.attempt n s).1], [], .error e, (L.attempt n s).2⟩ := by
  unfold run
  simp only [h]

theorem run_cancelled (h : L.result (L.attempt n s).1 = .error e) (hc : L.cancelled n = some e') :
    L.run (retries + 1) n wait s =
      ⟨[(L.attempt n s).1], [wait], .error e', (L.attempt n s).2⟩ := by
  conv_lhs => unfold run
  simp only [h, hc]

theorem run_again (h : L.result (L.attempt n s).1 = .error e) (hc : L.cancelled n = none) :
    L.run (retries + 1) n wait s =
      (L.run retries (n + 1) (L.next wait) (L.attempt n s).2).after (L.attempt n s).1 wait := by
  conv_lhs => unfold run
  simp only [h, hc]

end Equations

variable (L : Loop σ κ ε ρ W) (s : σ)

/-- The state before attempt `n` of the loop without a bound. -/
def stateAt : ℕ → σ
  | 0 => s
  | n + 1 => (L.attempt n (stateAt n)).2

/-- The attempts of the loop without a bound. -/
def attemptAt (n : ℕ) : κ := (L.attempt n (L.stateAt s n)).1

/-- Attempt `n` succeeds. -/
def Succeeds (n : ℕ) : Prop := ∃ r, L.result (L.attemptAt s n) = .ok r

/-- Why a run ends with attempt `n`, if it may make attempts up to `last`. The second number
counts the waits that have begun, the one after attempt 0 being the first. -/
inductive Ends (last n : ℕ) : ℕ → Except ε ρ → Prop
  | success {r : ρ} : L.result (L.attemptAt s n) = .ok r → Ends last n n (.ok r)
  | exhausted {e : ε} : n = last → L.result (L.attemptAt s n) = .error e →
      Ends last n n (.error e)
  | cancelled {e e' : ε} : n < last → L.result (L.attemptAt s n) = .error e →
      L.cancelled n = some e' → Ends last n (n + 1) (.error e')

/-- The run stops after attempt `m`: it made the attempts up to `m`, it went on after each of
them but the last, it had a reason to end there, and it leaves the state after that attempt. -/
structure Stops (first last m : ℕ) (t : Trace σ κ ε ρ W) : Prop where
  first_le : first ≤ m
  le_last : m ≤ last
  attempts : t.attempts = (List.range' first (m + 1 - first)).map (L.attemptAt s)
  retried : ∀ i, first ≤ i → i < m → ¬L.Succeeds s i ∧ L.cancelled i = none
  ends : L.Ends s last m (first + t.waits.length) t.result
  state : t.state = L.stateAt s (m + 1)

variable {L s}

namespace Ends

variable {last n waits : ℕ} {result : Except ε ρ}

theorem result_eq_ok_iff (h : L.Ends s last n waits result) {r : ρ} :
    result = .ok r ↔ L.result (L.attemptAt s n) = .ok r := by
  cases h with
  | success hr => rw [hr]
  | exhausted hlast he => simp [he]
  | cancelled hlt he hc => simp [he]

theorem result_of_error (h : L.Ends s last n waits result) {e : ε}
    (he : L.result (L.attemptAt s n) = .error e) :
    result = .error (if n = last then e else (L.cancelled n).getD e) := by
  cases h with
  | success hr => simp [he] at hr
  | exhausted hlast he' =>
    rw [he'] at he
    cases he
    rw [if_pos hlast]
  | cancelled hlt he' hc => rw [if_neg (by omega), hc, Option.getD_some]

theorem reason (h : L.Ends s last n waits result) :
    L.Succeeds s n ∨ n = last ∨ n < waits ∧ L.cancelled n ≠ none := by
  cases h with
  | success hr => exact .inl ⟨_, hr⟩
  | exhausted hlast he => exact .inr (.inl hlast)
  | cancelled hlt he hc => exact .inr (.inr ⟨Nat.lt_succ_self n, by simp [hc]⟩)

end Ends

theorem Stops.single {first last : ℕ} (h : first ≤ last) {t : Trace σ κ ε ρ W}
    (hattempts : t.attempts = [L.attemptAt s first])
    (hends : L.Ends s last first (first + t.waits.length) t.result)
    (hstate : t.state = L.stateAt s (first + 1)) : L.Stops s first last first t where
  first_le := Nat.le_refl first
  le_last := h
  attempts := by simp [hattempts]
  retried := fun i hi hlt => absurd hi (Nat.not_le.mpr hlt)
  ends := hends
  state := hstate

/-- A run that goes on after its first attempt stops where the rest stops. -/
theorem Stops.after {first last m : ℕ} {t : Trace σ κ ε ρ W} (h : L.Stops s (first + 1) last m t)
    (wait : W) (hfails : ¬L.Succeeds s first) (hgoes : L.cancelled first = none) :
    L.Stops s first last m (t.after (L.attemptAt s first) wait) := by
  have hfirst := h.first_le
  have hwaits : first + (t.after (L.attemptAt s first) wait).waits.length =
      first + 1 + t.waits.length := by
    simp only [Trace.after, List.length_cons]
    omega
  refine ⟨by omega, h.le_last, ?_, ?_, hwaits ▸ h.ends, h.state⟩
  · have hlength : m + 1 - first = (m + 1 - (first + 1)) + 1 := by omega
    rw [hlength, List.range'_succ, List.map_cons, ← h.attempts]
    rfl
  · intro i hi hlt
    by_cases heq : i = first
    · subst heq
      exact ⟨hfails, hgoes⟩
    · exact h.retried i (by omega) hlt

/-- A run whose first attempt succeeds stops there. -/
theorem stops_of_ok (retries : ℕ) {n : ℕ} (wait : W) {r : ρ}
    (h : L.result (L.attemptAt s n) = .ok r) :
    L.Stops s n (n + retries) n (L.run retries n wait (L.stateAt s n)) := by
  rw [run_of_ok h]
  exact .single (Nat.le_add_right n retries) rfl (.success h) rfl

variable (L s)

/-- Every run stops after one of its attempts. -/
theorem exists_stops_from (retries n : ℕ) (wait : W) :
    ∃ m, L.Stops s n (n + retries) m (L.run retries n wait (L.stateAt s n)) := by
  induction retries generalizing n wait with
  | zero =>
    cases hresult : L.result (L.attemptAt s n) with
    | ok r => exact ⟨n, stops_of_ok 0 wait hresult⟩
    | error e =>
      rw [run_zero hresult]
      exact ⟨n, .single (by omega) rfl (.exhausted rfl hresult) rfl⟩
  | succ retries ih =>
    cases hresult : L.result (L.attemptAt s n) with
    | ok r => exact ⟨n, stops_of_ok (retries + 1) wait hresult⟩
    | error e =>
      cases hcancelled : L.cancelled n with
      | some e' =>
        rw [run_cancelled hresult hcancelled]
        exact ⟨n, .single (by omega) rfl (.cancelled (by omega) hresult hcancelled) rfl⟩
      | none =>
        have hfails : ¬L.Succeeds s n := by
          rintro ⟨r, hr⟩
          rw [hresult] at hr
          cases hr
        obtain ⟨m, hm⟩ := ih (n + 1) (L.next wait)
        have hlast : n + 1 + retries = n + (retries + 1) := by omega
        rw [hlast] at hm
        rw [run_again hresult hcancelled]
        exact ⟨m, hm.after wait hfails hcancelled⟩

/-- The same for a run from the start. -/
theorem exists_stops (retries : ℕ) (wait : W) :
    ∃ m, L.Stops s 0 retries m (L.run retries 0 wait s) := by
  have h := L.exists_stops_from s retries 0 wait
  rwa [Nat.zero_add] at h

variable {L s} {last m : ℕ} {t : Trace σ κ ε ρ W}

theorem Stops.attempts_eq (h : L.Stops s 0 last m t) :
    t.attempts = (List.range m).map (L.attemptAt s) ++ [L.attemptAt s m] := by
  rw [h.attempts, Nat.sub_zero, ← List.range_eq_range', List.range_succ, List.map_append,
    List.map_singleton]

theorem Stops.length_attempts (h : L.Stops s 0 last m t) : t.attempts.length = m + 1 := by
  simp [h.attempts_eq]

/-- The attempts of a run are those of the loop without a bound. -/
theorem Stops.getElem?_attempts (h : L.Stops s 0 last m t) {i : ℕ} {c : κ}
    (hc : t.attempts[i]? = some c) : c = L.attemptAt s i := by
  rw [h.attempts, List.getElem?_map] at hc
  obtain ⟨j, hj, rfl⟩ := Option.map_eq_some_iff.mp hc
  obtain ⟨hlt, hget⟩ := List.getElem?_eq_some_iff.mp hj
  rw [List.getElem_range', Nat.zero_add, Nat.one_mul] at hget
  rw [hget]

/-- A run succeeds exactly if its last attempt does, and then with the result of that attempt. -/
theorem Stops.result_eq_ok_iff (h : L.Stops s 0 last m t) {r : ρ} :
    t.result = .ok r ↔ L.result (L.attemptAt s m) = .ok r := h.ends.result_eq_ok_iff

/-- The same, of the list of the attempts. -/
theorem Stops.result_eq_ok_iff_last (h : L.Stops s 0 last m t) {r : ρ} :
    t.result = .ok r ↔ ∃ before c, t.attempts = before ++ [c] ∧ L.result c = .ok r := by
  rw [h.result_eq_ok_iff]
  constructor
  · intro hr
    exact ⟨_, _, h.attempts_eq, hr⟩
  · rintro ⟨before, c, heq, hr⟩
    rw [h.attempts_eq] at heq
    obtain ⟨-, rfl⟩ := List.append_singleton_inj.mp heq
    exact hr

/-- No attempt is made after one that succeeded. -/
theorem Stops.eq_nil_of_success (h : L.Stops s 0 last m t) {before later : List κ} {c : κ} {r : ρ}
    (heq : t.attempts = before ++ c :: later) (hr : L.result c = .ok r) : later = [] := by
  have hc : t.attempts[before.length]? = some c := by
    rw [heq]
    simp
  have hsucceeds : L.Succeeds s before.length := ⟨r, h.getElem?_attempts hc ▸ hr⟩
  have hlast : m ≤ before.length :=
    Nat.not_lt.mp fun hlt => (h.retried before.length (Nat.zero_le _) hlt).1 hsucceeds
  have hlength := h.length_attempts
  rw [heq, List.length_append, List.length_cons] at hlength
  exact List.eq_nil_of_length_eq_zero (by omega)

/-- What holds of every attempt of the loop without a bound holds of those that are made. -/
theorem Stops.forall_attempts (h : L.Stops s 0 last m t) {P : κ → Prop}
    (hP : ∀ n, P (L.attemptAt s n)) : ∀ c ∈ t.attempts, P c := by
  intro c hc
  obtain ⟨i, hi⟩ := List.getElem?_of_mem hc
  rw [h.getElem?_attempts hi]
  exact hP i

/-- A run none of whose waits is cancelled ends with a success or with the last attempt that it
may make. -/
theorem Stops.success_or_last (h : L.Stops s 0 last m t)
    (hgoes : ∀ i < t.waits.length, L.cancelled i = none) : L.Succeeds s m ∨ m = last := by
  rcases h.ends.reason with hm | hm | ⟨hwaits, hcancelled⟩
  · exact .inl hm
  · exact .inr hm
  · exact absurd (hgoes m (by omega)) hcancelled

/-- A run none of whose waits is cancelled makes its attempts up to the first success. -/
theorem Stops.eq_of_first_success (h : L.Stops s 0 last m t)
    (hgoes : ∀ i < t.waits.length, L.cancelled i = none) {k : ℕ} (hk : L.Succeeds s k)
    (hbefore : ∀ i < k, ¬L.Succeeds s i) : m = min k last := by
  have hmk : m ≤ k := Nat.not_lt.mp fun hlt => (h.retried k (Nat.zero_le k) hlt).1 hk
  rcases h.success_or_last hgoes with hm | hm
  · have hkm : k ≤ m := Nat.not_lt.mp fun hlt => hbefore m hlt hm
    have hle := h.le_last
    omega
  · omega

/-- A run stops at the first attempt at which there is a reason to. -/
theorem Stops.eq_of_reason (h : L.Stops s 0 last m t) {k : ℕ} (hk : k ≤ last)
    (hbefore : ∀ i < k, ¬L.Succeeds s i ∧ L.cancelled i = none)
    (hreason : L.Succeeds s k ∨ k = last ∨ L.cancelled k ≠ none) : m = k := by
  have hle := h.le_last
  rcases Nat.lt_trichotomy m k with hlt | heq | hlt
  · obtain ⟨hfails, hgoes⟩ := hbefore m hlt
    rcases h.ends.reason with hm | hm | ⟨-, hcancelled⟩
    · exact absurd hm hfails
    · omega
    · exact absurd hgoes hcancelled
  · exact heq
  · obtain ⟨hfails, hgoes⟩ := h.retried k (Nat.zero_le k) hlt
    rcases hreason with hk' | hk' | hk'
    · exact absurd hk' hfails
    · omega
    · exact absurd hgoes hk'

/-- A run that ends with a failed attempt returns the error of the cancelled wait, if there was
one, and that of the attempt otherwise. -/
theorem Stops.result_of_error (h : L.Stops s 0 last m t) {e : ε}
    (he : L.result (L.attemptAt s m) = .error e) :
    t.result = .error (if m = last then e else (L.cancelled m).getD e) :=
  h.ends.result_of_error he

end Loop

end ControlPlane.Retry

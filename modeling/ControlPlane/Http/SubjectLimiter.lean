import ControlPlane.Config.Server
import ControlPlane.Config.Durations
import ControlPlane.Http.IPLimiter
import ControlPlane.TokenBucket
import ControlPlane.Transition

/-!
# The limits of the subjects

`subjectRateLimiter` keeps a limiter for each subject. `Allow` finds or makes the limiter of its
subject while it holds the mutex, and asks the limiter after it has released it, so that any number
of calls may be between the two steps. As limiters are never removed, all calls for a subject ask
the same one: what they are answered is what one limiter answers that sees these calls only.
-/

namespace ControlPlane

open Transition

/-- The answers of a limiter to calls at the given times, and what they leave of it. -/
def RateLib.run {L : Type*} (lib : RateLib L) (lim : L) : List Time → List Bool × L
  | [] => ([], lim)
  | now :: times =>
      let (allowed, lim) := lib.allow now lim
      let (answers, lim) := lib.run lim times
      (allowed :: answers, lim)

/-- The fields of the configuration that concern the limits of subjects. -/
structure SubjectSettings where
  subjectRateLimitRPS : ℤ
  subjectRateLimitBurst : ℤ
  subjectRateLimitOverrides : String → Option ℤ

def SubjectSettings.fromEnv (env : Environment) : SubjectSettings where
  subjectRateLimitRPS := intOr env "SUBJECT_RATE_LIMIT_RPS" 100
  subjectRateLimitBurst := intOr env "SUBJECT_RATE_LIMIT_BURST" 200
  subjectRateLimitOverrides := parseIntMap env "SUBJECT_RATE_LIMIT_RPS_OVERRIDES"

/-- `subjectRateLimiter`. The map holds pointers to limiters; a goroutine that has released the
mutex holds one as well. -/
structure SubjectRateLimiter (L : Type*) where
  defaultR : ℤ
  defaultB : ℤ
  overrides : String → Option ℤ
  limiters : Clustered String ℕ
  heap : List L
  callers : Clustered ℕ (String × ℕ)

/-- A call that was answered. -/
structure SubjectCall where
  subject : String
  now : Time
  allowed : Bool
  deriving DecidableEq

/-- The two steps of `Allow` for a goroutine `p`. -/
inductive SubjectLabel
  | lookup (p : ℕ) (subject : String)
  | allow (p : ℕ) (now : Time)

namespace SubjectRateLimiter

variable {L : Type*} (lib : RateLib L)

def newSubjectRateLimiter (defaultR defaultB : ℤ) (overrides : String → Option ℤ) :
    SubjectRateLimiter L where
  defaultR := defaultR
  defaultB := max 1 defaultB
  overrides := overrides
  limiters := .empty
  heap := []
  callers := .empty

/-- The limiter that `New` creates. -/
def new (c : SubjectSettings) : SubjectRateLimiter L :=
  newSubjectRateLimiter (max 1 c.subjectRateLimitRPS) (max 1 c.subjectRateLimitBurst)
    c.subjectRateLimitOverrides

variable (l : SubjectRateLimiter L)

/-- The rate and the burst for a subject. The product wraps like an `int`. -/
def limits (subject : String) : ℤ × ℤ :=
  match l.overrides subject with
  | some ov => if 0 < ov then (ov, max 1 (wrap64 (ov * 2))) else (l.defaultR, l.defaultB)
  | none => (l.defaultR, l.defaultB)

/-- The limiter that is made for a subject. -/
def fresh (subject : String) : L := lib.newLimiter (l.limits subject).1 (l.limits subject).2

/-- One step of the goroutines that call `Allow`. -/
def step : SubjectLabel → Option (SubjectRateLimiter L)
  | .lookup p subject =>
      match l.callers.get p with
      | some _ => none
      | none =>
          match l.limiters.get subject with
          | some i => some { l with callers := l.callers.put p (subject, i) }
          | none => some { l with
              limiters := l.limiters.put subject l.heap.length
              heap := l.heap ++ [l.fresh lib subject]
              callers := l.callers.put p (subject, l.heap.length) }
  | .allow p now =>
      (l.callers.get p).bind fun (_, i) =>
        l.heap[i]?.map fun lim => { l with
          heap := l.heap.set i (lib.allow now lim).2
          callers := l.callers.erase p }

/-- What a step answers. -/
def answers : SubjectLabel → List SubjectCall
  | .lookup _ _ => []
  | .allow p now =>
      match l.callers.get p with
      | some (subject, i) =>
          (l.heap[i]?.map fun lim => (⟨subject, now, (lib.allow now lim).1⟩ : SubjectCall)).toList
      | none => []

/-- The states that calls of `Allow` lead to, with the calls that were answered, the latest
first. -/
def Reachable (c : SubjectSettings) (log : List SubjectCall) : Prop :=
  Run (logged (step lib) (answers lib)) (fun a label => anyStep a.1 label) (new c, []) (l, log)

end SubjectRateLimiter

/-- The calls for a subject, the earliest first. -/
def callsTo (subject : String) (log : List SubjectCall) : List SubjectCall :=
  log.reverse.filter fun call => call.subject = subject

section Library

variable {L : Type*} {lib : RateLib L} {lim : L}

theorem RateLib.run_append (times times' : List Time) : lib.run lim (times ++ times') =
    ((lib.run lim times).1 ++ (lib.run (lib.run lim times).2 times').1,
      (lib.run (lib.run lim times).2 times').2) := by
  induction times generalizing lim with
  | nil => rfl
  | cons now times ih => simp [RateLib.run, ih]

theorem callsTo_cons (subject : String) (call : SubjectCall) (log : List SubjectCall) :
    callsTo subject (call :: log) =
      callsTo subject log ++ if call.subject = subject then [call] else [] := by
  rw [callsTo, List.reverse_cons, List.filter_append]
  by_cases hsubject : call.subject = subject
  · simp [callsTo, hsubject]
  · simp [callsTo, hsubject]

end Library

namespace SubjectRateLimiter

variable {L : Type*} {lib : RateLib L} {l l' : SubjectRateLimiter L} {log : List SubjectCall}

/-- What one limiter answers that sees the calls for the subject only, and what it becomes. -/
def alone (lib : RateLib L) (l : SubjectRateLimiter L) (log : List SubjectCall) (subject : String) :
    List Bool × L :=
  lib.run (l.fresh lib subject) ((callsTo subject log).map SubjectCall.now)

/-- Each subject has a limiter of its own, in the state to which its own calls have brought it, and
the goroutines hold the limiters of their subjects. -/
structure Separate (lib : RateLib L) (l : SubjectRateLimiter L) (log : List SubjectCall) : Prop where
  state : ∀ subject i, l.limiters.get subject = some i →
    l.heap[i]? = some (l.alone lib log subject).2
  unknown : ∀ subject, l.limiters.get subject = none → callsTo subject log = []
  inj : ∀ subject subject' i, l.limiters.get subject = some i →
    l.limiters.get subject' = some i → subject = subject'
  callers : ∀ p subject i, l.callers.get p = some (subject, i) →
    l.limiters.get subject = some i
  answers : ∀ subject, (callsTo subject log).map SubjectCall.allowed = (l.alone lib log subject).1

theorem separate_new (lib : RateLib L) (c : SubjectSettings) : (new c).Separate lib [] where
  state := fun subject i hget => by cases hget
  unknown := fun _ _ => rfl
  inj := fun subject subject' i hget => by cases hget
  callers := fun p subject i hget => by cases hget
  answers := fun _ => rfl

/-- A pointer of the map points into the heap. -/
theorem Separate.lt_length (h : l.Separate lib log) {subject : String} {i : ℕ}
    (hget : l.limiters.get subject = some i) : i < l.heap.length :=
  (List.getElem?_eq_some_iff.mp (h.state subject i hget)).1

/-- The mutex makes the limiter of a subject once. -/
theorem Separate.create (h : l.Separate lib log) {p : ℕ} {subject : String}
    (hnone : l.limiters.get subject = none) : Separate lib { l with
      limiters := l.limiters.put subject l.heap.length
      heap := l.heap ++ [l.fresh lib subject]
      callers := l.callers.put p (subject, l.heap.length) } log := by
  constructor
  · intro subject' i hget
    rcases Clustered.get_put_cases hget with ⟨rfl, rfl⟩ | ⟨hne, hget⟩
    · have hfresh : (l.alone lib log subject').2 = l.fresh lib subject' := by
        rw [alone, h.unknown subject' hnone]
        rfl
      rw [List.getElem?_concat_length]
      exact congrArg some hfresh.symm
    · rw [List.getElem?_append_left (h.lt_length hget)]
      exact h.state subject' i hget
  · intro subject' hget
    rw [Clustered.get_put] at hget
    split_ifs at hget
    exact h.unknown subject' hget
  · intro s s' i hs hs'
    rcases Clustered.get_put_cases hs with ⟨rfl, rfl⟩ | ⟨hne, hold⟩
    · rcases Clustered.get_put_cases hs' with ⟨rfl, -⟩ | ⟨hne, hold'⟩
      · rfl
      · exact absurd (h.lt_length hold') (lt_irrefl _)
    · rcases Clustered.get_put_cases hs' with ⟨rfl, rfl⟩ | ⟨hne', hold'⟩
      · exact absurd (h.lt_length hold) (lt_irrefl _)
      · exact h.inj s s' i hold hold'
  · intro q s i hget
    rcases Clustered.get_put_cases hget with ⟨-, heq⟩ | ⟨hne, hget⟩
    · cases heq
      simp
    · have hs := h.callers q s i hget
      have hne' : s ≠ subject := fun heq => by rw [heq, hnone] at hs; cases hs
      simpa [hne'] using hs
  · exact h.answers

/-- The limiter of the subject answers. -/
theorem Separate.answer (h : l.Separate lib log) {p i : ℕ} {subject : String} {lim : L}
    (hcaller : l.callers.get p = some (subject, i)) (hlim : l.heap[i]? = some lim) (now : Time) :
    Separate lib { l with
      heap := l.heap.set i (lib.allow now lim).2
      callers := l.callers.erase p } (⟨subject, now, (lib.allow now lim).1⟩ :: log) := by
  have hknown := h.callers p subject i hcaller
  have hlt := h.lt_length hknown
  have hstate : (l.alone lib log subject).2 = lim :=
    Option.some.inj ((h.state subject i hknown).symm.trans hlim)
  -- The calls for the subject are one more, those for the others are the same.
  have hself : lib.run (l.fresh lib subject) ((callsTo subject
      (⟨subject, now, (lib.allow now lim).1⟩ :: log)).map SubjectCall.now) =
      ((l.alone lib log subject).1 ++ [(lib.allow now lim).1], (lib.allow now lim).2) := by
    rw [callsTo_cons, if_pos rfl, List.map_append, RateLib.run_append]
    rw [alone] at hstate
    rw [hstate]
    rfl
  have hother : ∀ subject' ≠ subject, callsTo subject'
      (⟨subject, now, (lib.allow now lim).1⟩ :: log) = callsTo subject' log := by
    intro subject' hne
    rw [callsTo_cons, if_neg (Ne.symm hne), List.append_nil]
  constructor
  · intro subject' j hget
    by_cases hsubject : subject' = subject
    · subst hsubject
      have hij : i = j := Option.some.inj (hknown.symm.trans hget)
      subst hij
      rw [List.getElem?_set_self hlt, alone]
      exact congrArg some (congrArg Prod.snd hself).symm
    · have hij : i ≠ j := fun heq => hsubject (h.inj subject' subject j hget (heq ▸ hknown))
      rw [List.getElem?_set_ne hij, alone, hother subject' hsubject]
      exact h.state subject' j hget
  · intro subject' hget
    have hne : subject' ≠ subject := fun heq => by rw [heq] at hget; rw [hknown] at hget; cases hget
    rw [hother subject' hne]
    exact h.unknown subject' hget
  · exact h.inj
  · intro q s j hget
    exact h.callers q s j (Clustered.get_erase_cases hget).2
  · intro subject'
    by_cases hsubject : subject' = subject
    · subst hsubject
      rw [alone]
      refine Eq.trans ?_ (congrArg Prod.fst hself).symm
      rw [callsTo_cons, if_pos rfl, List.map_append, h.answers]
      rfl
    · rw [alone, hother subject' hsubject]
      exact h.answers subject'

/-- Both steps of `Allow` keep the subjects apart. -/
theorem Separate.step (h : l.Separate lib log) {label : SubjectLabel}
    (hstep : l.step lib label = some l') : l'.Separate lib (l.answers lib label ++ log) := by
  cases label with
  | lookup p subject =>
    simp only [SubjectRateLimiter.step] at hstep
    split at hstep
    · cases hstep
    · split at hstep
      · rename_i i hget
        cases hstep
        refine ⟨h.state, h.unknown, h.inj, ?_, h.answers⟩
        intro q s j hcaller
        rcases Clustered.get_put_cases hcaller with ⟨-, heq⟩ | ⟨-, hcaller⟩
        · cases heq
          exact hget
        · exact h.callers q s j hcaller
      · rename_i hget
        cases hstep
        exact h.create hget
  | allow p now =>
    simp only [SubjectRateLimiter.step] at hstep
    obtain ⟨⟨subject, i⟩, hcaller, hstep⟩ := Option.bind_eq_some_iff.mp hstep
    obtain ⟨lim, hlim, rfl⟩ := Option.map_eq_some_iff.mp hstep
    have hanswer : l.answers lib (.allow p now) = [⟨subject, now, (lib.allow now lim).1⟩] := by
      simp only [SubjectRateLimiter.answers, hcaller]
      rw [show l.heap[i]? = some lim from hlim]
      rfl
    rw [hanswer]
    exact h.answer hcaller hlim now

/-- In every reachable state the subjects are apart. -/
theorem Reachable.separate {c : SubjectSettings} (h : l.Reachable lib c log) :
    l.Separate lib log := by
  refine Run.logged_invariant (I := fun l log => Separate lib l log) h (separate_new lib c) ?_
  intro a log label b ha _ hstep
  exact ha.step hstep

/-- The configuration of the limiter does not change. -/
theorem Reachable.limits_eq {c : SubjectSettings} (h : l.Reachable lib c log) (subject : String) :
    l.limits subject = (new c : SubjectRateLimiter L).limits subject := by
  refine Run.logged_invariant
    (I := fun l _ => limits l subject = (new c : SubjectRateLimiter L).limits subject) h rfl ?_
  intro a log label b ha _ hstep
  rw [← ha]
  cases label with
  | lookup p subject' =>
    simp only [SubjectRateLimiter.step] at hstep
    split at hstep
    · cases hstep
    · split at hstep <;> cases hstep <;> rfl
  | allow p now =>
    simp only [SubjectRateLimiter.step] at hstep
    obtain ⟨⟨s, i⟩, -, hstep⟩ := Option.bind_eq_some_iff.mp hstep
    obtain ⟨lim, -, rfl⟩ := Option.map_eq_some_iff.mp hstep
    rfl

end SubjectRateLimiter

/-- **Subjects do not share limits.** Whatever calls for other subjects are made, before, after or
between the two steps of a call, the calls for a subject are answered as by one limiter that was
made for its rate and burst and is asked at the times of these calls only. -/
theorem subject_limits_independent {L : Type*} {lib : RateLib L} {c : SubjectSettings}
    {l : SubjectRateLimiter L} {log : List SubjectCall} (h : l.Reachable lib c log)
    (subject : String) :
    (callsTo subject log).map SubjectCall.allowed =
      (lib.run (SubjectRateLimiter.fresh lib (.new c) subject)
        ((callsTo subject log).map SubjectCall.now)).1 := by
  rw [h.separate.answers, SubjectRateLimiter.alone, SubjectRateLimiter.fresh,
    SubjectRateLimiter.fresh, h.limits_eq]

/-- A library of limiters in exact arithmetic, for examples: a bucket fills by `r` tokens a second up
to `b`, starts full, and a call takes one token. -/
def exactBuckets : RateLib (BucketRate ℤ × Bucket ℤ) where
  newLimiter r b := (⟨r, b * 1000000000, 1000000000⟩, ⟨b * 1000000000, 0⟩)
  allow now lim := ((lim.1.take lim.2 now).1, lim.1, (lim.1.take lim.2 now).2)

/-- Two calls a second at most for one subject, with an override of one. -/
def orderLimits : SubjectSettings where
  subjectRateLimitRPS := 100
  subjectRateLimitBurst := 200
  subjectRateLimitOverrides := fun subject => if subject = "events.orders" then some 1 else none

/-- Three calls for the subject with the override and one for another, with the steps of the first
two interleaved. -/
def orderCalls : List SubjectLabel :=
  [.lookup 0 "events.orders", .lookup 1 "events.orders", .allow 1 5000000, .allow 0 5000000,
    .lookup 2 "events.default", .lookup 3 "events.orders", .allow 3 5000000, .allow 2 5000000]

/-- What the calls are answered. -/
def orderAnswers : List SubjectCall :=
  [⟨"events.default", 5000000, true⟩, ⟨"events.orders", 5000000, false⟩,
    ⟨"events.orders", 5000000, true⟩, ⟨"events.orders", 5000000, true⟩]

theorem exists_orderAnswers : ∃ l : SubjectRateLimiter (BucketRate ℤ × Bucket ℤ),
    l.Reachable exactBuckets orderLimits orderAnswers := by
  have hplay : (play (logged (SubjectRateLimiter.step exactBuckets)
      (SubjectRateLimiter.answers exactBuckets)) (fun _ _ => true) (.new orderLimits, [])
      orderCalls).any (fun x => decide (x.2 = orderAnswers)) = true := by decide +kernel
  have hcheck : ∀ (x : SubjectRateLimiter (BucketRate ℤ × Bucket ℤ) × List SubjectCall)
      (label : SubjectLabel), true = true → anyStep x.1 label := fun _ _ _ => trivial
  obtain ⟨⟨l, log⟩, hrun, hlog⟩ := Run.exists_of_play hcheck hplay
  have heq : log = orderAnswers := of_decide_eq_true hlog
  subst heq
  exact ⟨l, hrun⟩

/-- The third call for the subject is refused as by a limiter that saw three calls. -/
theorem subject_limits_independent_orders :
    ∃ l : SubjectRateLimiter (BucketRate ℤ × Bucket ℤ),
      l.Reachable exactBuckets orderLimits orderAnswers ∧ [true, true, false] =
        (exactBuckets.run (SubjectRateLimiter.fresh exactBuckets (.new orderLimits) "events.orders")
          [5000000, 5000000, 5000000]).1 := by
  obtain ⟨l, hl⟩ := exists_orderAnswers
  exact ⟨l, hl, subject_limits_independent hl "events.orders"⟩

end ControlPlane

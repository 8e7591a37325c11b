import Mathlib.Logic.Function.Basic
import Mathlib.Data.List.Basic

/-!
# Journals

A journal gives values to identifiers and keeps some of them waiting. It is known by the log of
its entries: a value is given once and never changes, and an identifier waits unless the latest
entry about it finished it.
-/

namespace ControlPlane

/-- The values given so far and the identifiers that wait. Only identifiers with a value
wait. -/
structure Journal (I V : Type*) where
  value : I → Option V
  waiting : I → Bool
  known : ∀ i, waiting i = true → (value i).isSome = true

namespace Journal

variable {I V : Type*}

/-- What can be done to a journal. -/
inductive Entry (I V : Type*)
  | add (i : I) (v : V)
  | finish (i : I)
  | requeue (i : I)
  deriving DecidableEq

namespace Entry

/-- The identifier that the entry is about. -/
def about : Entry I V → I
  | .add i _ | .finish i | .requeue i => i

/-- The entry leaves its identifier waiting. -/
def opens : Entry I V → Bool
  | .add _ _ | .requeue _ => true
  | .finish _ => false

end Entry

/-- A journal without entries. -/
def empty : Journal I V := ⟨fun _ => none, fun _ => false, fun _ h => by cases h⟩

variable [DecidableEq I]

/-- Give a value to an identifier, which waits from then on. -/
def write (j : Journal I V) (i : I) (v : V) : Journal I V where
  value := Function.update j.value i (some v)
  waiting := Function.update j.waiting i true
  known := by
    intro k hk
    by_cases hki : k = i
    · rw [hki, Function.update_self]
      rfl
    · rw [Function.update_of_ne hki] at hk ⊢
      exact j.known k hk

/-- Let an identifier with a value wait or not. -/
def setWaiting (j : Journal I V) (i : I) (b : Bool) (h : (j.value i).isSome = true) :
    Journal I V where
  value := j.value
  waiting := Function.update j.waiting i b
  known := by
    intro k hk
    by_cases hki : k = i
    · rwa [hki]
    · rw [Function.update_of_ne hki] at hk
      exact j.known k hk

/-- Add an entry. A value is given once, and only known identifiers are finished or put back. -/
def step (j : Journal I V) : Entry I V → Option (Journal I V)
  | .add i v => if (j.value i).isNone then some (j.write i v) else none
  | .finish i => if h : (j.value i).isSome then some (j.setWaiting i false h) else none
  | .requeue i => if h : (j.value i).isSome then some (j.setWaiting i true h) else none

/-- The journal of a log, the latest entry first, if every entry can be added. -/
def replay : List (Entry I V) → Option (Journal I V)
  | [] => some empty
  | e :: log => (replay log).bind fun j => j.step e

variable {j j' : Journal I V} {e : Entry I V} {log : List (Entry I V)} {i : I} {v : V}

/-- What an entry does to the values. -/
theorem step_value (h : j.step e = some j') :
    j'.value i = some v ↔ e = .add i v ∨ j.value i = some v := by
  cases e with
  | add k w =>
    simp only [step] at h
    split_ifs at h with hnone
    cases h
    by_cases hki : i = k
    · subst hki
      have hold : j.value i = none := by simpa using hnone
      simp [write, hold]
    · have hne : Entry.add k w ≠ .add i v := by
        rintro ⟨⟩
        exact hki rfl
      simp [write, Function.update_of_ne hki, hne]
  | finish k =>
    simp only [step] at h
    split_ifs at h with hsome
    cases h
    simp [setWaiting]
  | requeue k =>
    simp only [step] at h
    split_ifs at h with hsome
    cases h
    simp [setWaiting]

/-- What an entry does to the waiting identifiers. -/
theorem step_waiting (h : j.step e = some j') :
    j'.waiting i = if e.about = i then e.opens else j.waiting i := by
  have hupdate : ∀ (k : I) (b : Bool),
      Function.update j.waiting k b i = if k = i then b else j.waiting i := by
    intro k b
    by_cases hki : k = i
    · rw [hki, Function.update_self, if_pos rfl]
    · rw [Function.update_of_ne (Ne.symm hki), if_neg hki]
  cases e with
  | add k w =>
    simp only [step] at h
    split_ifs at h
    cases h
    exact hupdate k true
  | finish k =>
    simp only [step] at h
    split_ifs at h
    cases h
    exact hupdate k false
  | requeue k =>
    simp only [step] at h
    split_ifs at h
    cases h
    exact hupdate k true

/-- The values of a journal are those that its log adds. -/
theorem value_eq_some_iff (h : replay log = some j) : j.value i = some v ↔ .add i v ∈ log := by
  induction log generalizing j with
  | nil =>
    cases h
    simp [empty]
  | cons e log ih =>
    obtain ⟨k, hk, hstep⟩ := Option.bind_eq_some_iff.mp h
    rw [step_value hstep, ih hk, List.mem_cons, eq_comm]

/-- An identifier waits exactly when the latest entry about it opens it. -/
theorem waiting_eq (h : replay log = some j) :
    j.waiting i = (log.find? fun e => decide (e.about = i)).any Entry.opens := by
  induction log generalizing j with
  | nil =>
    cases h
    rfl
  | cons e log ih =>
    obtain ⟨k, hk, hstep⟩ := Option.bind_eq_some_iff.mp h
    rw [step_waiting hstep, List.find?_cons]
    by_cases he : e.about = i
    · simp [he]
    · simp [he, ih hk]

end Journal

end ControlPlane

import Mathlib.Logic.Basic

/-!
# Runs of a labelled transition function

A system is a partial function `step : σ → ι → Option σ`: a label fixes every
choice that the environment makes, so a step is deterministic and can be
evaluated. Runs carry a side condition `ok` on each step, evaluated in the state
before the step. It serves both to restrict the domain of a statement and to
express the condition under which a property of runs holds.
-/

namespace ControlPlane.Transition

variable {σ τ ι κ : Type*}

/-- A finite run from one state to another, all of whose steps satisfy `ok`. -/
inductive Run (step : σ → ι → Option σ) (ok : σ → ι → Prop) : σ → σ → Prop
  | refl (s : σ) : Run step ok s s
  | snoc {s t u : σ} {l : ι} : Run step ok s t → ok t l → step t l = some u → Run step ok s u

/-- The unrestricted side condition. -/
def anyStep (_ : σ) (_ : ι) : Prop := True

section Runs

variable {step : σ → ι → Option σ} {ok ok' : σ → ι → Prop}

/-- A property that every admitted step preserves is preserved by every run. -/
theorem Run.invariant {I : σ → Prop} {s t : σ} (h : Run step ok s t) (hs : I s)
    (hstep : ∀ a l b, I a → ok a l → step a l = some b → I b) : I t := by
  induction h with
  | refl => exact hs
  | snoc _ hok hnext ih => exact hstep _ _ _ ih hok hnext

/-- Weakening the side condition keeps a run a run. -/
theorem Run.mono {s t : σ} (h : Run step ok s t) (hok : ∀ a l, ok a l → ok' a l) :
    Run step ok' s t := by
  induction h with
  | refl => exact .refl _
  | snoc _ hl hnext ih => exact .snoc ih (hok _ _ hl) hnext

/-- Every run is an unrestricted run. -/
theorem Run.any {s t : σ} (h : Run step ok s t) : Run step anyStep s t :=
  h.mono fun _ _ _ => trivial

/-- Runs compose. -/
theorem Run.trans {s t u : σ} (h : Run step ok s t) (h' : Run step ok t u) :
    Run step ok s u := by
  induction h' with
  | refl => exact h
  | snoc _ hl hnext ih => exact .snoc ih hl hnext

/-- Simulation: if every admitted step of the first system from a state related to
one of the second system is matched by a run of the second system to a related
state, then so is every run. -/
theorem Run.simulate {step' : τ → κ → Option τ} {ok' : τ → κ → Prop} {R : σ → τ → Prop}
    (hsim : ∀ a l b a', R a a' → ok a l → step a l = some b → ∃ b', Run step' ok' a' b' ∧ R b b')
    {s t : σ} {s' : τ} (h : Run step ok s t) (hs : R s s') : ∃ t', Run step' ok' s' t' ∧ R t t' := by
  induction h with
  | refl => exact ⟨s', .refl s', hs⟩
  | snoc _ hok hnext ih =>
    obtain ⟨a', hrun, ha⟩ := ih
    obtain ⟨b', hrun', hb⟩ := hsim _ _ _ a' ha hok hnext
    exact ⟨b', hrun.trans hrun', hb⟩

end Runs

/-- The system together with a log, to which each step adds its entries, the latest
first. The log records what a state forgets and influences no step. -/
def logged {ρ : Type*} (step : σ → ι → Option σ) (entries : σ → ι → List ρ) (a : σ × List ρ)
    (l : ι) : Option (σ × List ρ) :=
  (step a.1 l).map fun t => (t, entries a.1 l ++ a.2)

/-- A property of states and logs that every admitted step preserves is preserved by
every logged run. -/
theorem Run.logged_invariant {ρ : Type*} {step : σ → ι → Option σ} {ok : σ → ι → Prop}
    {entries : σ → ι → List ρ} {I : σ → List ρ → Prop} {s t : σ} {log log' : List ρ}
    (h : Run (logged step entries) (fun a l => ok a.1 l) (s, log) (t, log')) (hs : I s log)
    (hstep : ∀ a log l b, I a log → ok a l → step a l = some b → I b (entries a l ++ log)) :
    I t log' := by
  refine h.invariant (I := fun x => I x.1 x.2) hs ?_
  rintro ⟨a, log⟩ l b ha hok hab
  obtain ⟨b', hb', rfl⟩ := Option.map_eq_some_iff.mp hab
  exact hstep a log l b' ha hok hb'

/-- Play a list of labels, refusing a label that fails the check. -/
def play (step : σ → ι → Option σ) (check : σ → ι → Bool) : σ → List ι → Option σ
  | s, [] => some s
  | s, l :: ls => if check s l then (step s l).bind fun t => play step check t ls else none

/-- A successful play is a run, whenever the check implies the side condition. -/
theorem Run.of_play {step : σ → ι → Option σ} {check : σ → ι → Bool} {ok : σ → ι → Prop}
    (hcheck : ∀ s l, check s l = true → ok s l) {ls : List ι} {s t : σ}
    (h : play step check s ls = some t) : Run step ok s t := by
  suffices hrun : ∀ r, Run step ok r s → Run step ok r t from hrun s (.refl s)
  induction ls generalizing s with
  | nil =>
    intro r hr
    simp only [play, Option.some.injEq] at h
    exact h ▸ hr
  | cons l ls ih =>
    intro r hr
    by_cases hl : check s l = true
    · rw [play, if_pos hl] at h
      obtain ⟨u, hu, hrest⟩ := Option.bind_eq_some_iff.mp h
      exact ih hrest r (.snoc hr (hcheck s l hl) hu)
    · rw [play, if_neg hl] at h
      cases h

/-- A play that ends in a state passing a test exhibits a run to such a state. -/
theorem Run.exists_of_play {step : σ → ι → Option σ} {check : σ → ι → Bool} {ok : σ → ι → Prop}
    (hcheck : ∀ s l, check s l = true → ok s l) {ls : List ι} {s : σ} {test : σ → Bool}
    (h : (play step check s ls).any test = true) : ∃ t, Run step ok s t ∧ test t = true := by
  cases hplay : play step check s ls with
  | none => simp [hplay] at h
  | some t => exact ⟨t, Run.of_play hcheck hplay, by simpa [hplay] using h⟩

end ControlPlane.Transition

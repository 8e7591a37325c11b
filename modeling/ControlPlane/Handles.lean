import Mathlib.Data.Multiset.AddSub

/-!
# Programs that open and close handles

A program that opens and closes handles and may fail on the way, given by what it did and how it
ended. `Uses P own prog held` says what such a program owes: started with the handles `own` open
among others, it ends with exactly the handles `held` open instead of them, or with an error and
none of them, and it opens only handles that satisfy `P`. Handles that belong to someone else stay
as they are, so the rules compose without mentioning them.
-/

namespace ControlPlane.Handles

variable {δ ε α β : Type}

/-- An effect on the open handles. -/
inductive Effect (δ : Type)
  | opened (d : δ)
  | closed (d : δ)

/-- A program: its effects in order, and its result. -/
structure Prog (δ ε α : Type) where
  effects : List (Effect δ)
  result : Except ε α

namespace Prog

instance : Monad (Prog δ ε) where
  pure a := ⟨[], .ok a⟩
  bind x f :=
    match x.result with
    | .ok a => ⟨x.effects ++ (f a).effects, (f a).result⟩
    | .error e => ⟨x.effects, .error e⟩

/-- A result that comes without effects. -/
def ofExcept (r : Except ε α) : Prog δ ε α := ⟨[], r⟩

/-- A call without effects that fails with the given error, if any. -/
def check (err : Option ε) : Prog δ ε Unit := ⟨[], err.elim (.ok ()) .error⟩

/-- Opening a handle. -/
def opens (d : δ) : Prog δ ε Unit := ⟨[.opened d], .ok ()⟩

/-- Closing a handle. -/
def closes (d : δ) : Prog δ ε Unit := ⟨[.closed d], .ok ()⟩

/-- A call on a handle; if it fails, the handle is closed and the error returned. -/
def closeOnError (d : δ) (err : Option ε) : Prog δ ε Unit :=
  match err with
  | none => pure ()
  | some e => ⟨[.closed d], .error e⟩

/-- The program, with the handle closed at its end in any case. -/
def deferClose (d : δ) (x : Prog δ ε α) : Prog δ ε α := ⟨x.effects ++ [.closed d], x.result⟩

/-- The error with which the program ends, if any. -/
def error? (x : Prog δ ε α) : Option ε :=
  match x.result with
  | .ok _ => none
  | .error e => some e

/-- If the program succeeds, its result satisfies `Q`. -/
def Ends (x : Prog δ ε α) (Q : α → Prop) : Prop := ∀ a, x.result = .ok a → Q a

/-- The result of a program that only returns. -/
theorem Ends.pure {Q : α → Prop} {a : α} (h : Q a) : (Pure.pure a : Prog δ ε α).Ends Q := by
  intro b hb
  cases hb
  exact h

/-- The result is that of the second program, whatever the first one returns. -/
theorem Ends.bind {x : Prog δ ε α} {f : α → Prog δ ε β} {Q : β → Prop}
    (hf : ∀ a, (f a).Ends Q) : (x >>= f).Ends Q := by
  obtain ⟨effects, result⟩ := x
  cases result with
  | ok a => exact hf a
  | error e =>
    intro b hb
    cases hb

end Prog

/-- The handles that a list of effects opens. -/
def openedIn (effects : List (Effect δ)) : List δ :=
  effects.filterMap fun
    | .opened d => some d
    | .closed _ => none

section Balance

variable [DecidableEq δ]

/-- The open handles after an effect. -/
def Effect.apply (live : Multiset δ) : Effect δ → Multiset δ
  | .opened d => d ::ₘ live
  | .closed d => live.erase d

/-- The open handles after the effects. -/
def balance (live : Multiset δ) (effects : List (Effect δ)) : Multiset δ :=
  effects.foldl Effect.apply live

/-- Effects one after the other. -/
theorem balance_append (live : Multiset δ) (effects effects' : List (Effect δ)) :
    balance live (effects ++ effects') = balance (balance live effects) effects' :=
  List.foldl_append

/-- The handles that are left after a result. -/
def left (held : α → Multiset δ) : Except ε α → Multiset δ
  | .ok a => held a
  | .error _ => 0

/-- From `own`, the program ends with `held` or fails with nothing, and opens only handles that
satisfy `P`; the other open handles are as before. -/
structure Uses (P : δ → Prop) (own : Multiset δ) (x : Prog δ ε α) (held : α → Multiset δ) :
    Prop where
  balanced : ∀ rest, balance (own + rest) x.effects = left held x.result + rest
  sound : ∀ d ∈ openedIn x.effects, P d

variable {P : δ → Prop} {own : Multiset δ} {d : δ} {held : α → Multiset δ} {x : Prog δ ε α}

/-- A program that does nothing keeps what it owns. -/
theorem Uses.pure {a : α} (h : held a = own) : Uses P own (Pure.pure a : Prog δ ε α) held := by
  subst h
  exact ⟨fun _ => rfl, nofun⟩

/-- A call without effects needs nothing. -/
theorem Uses.check {err : Option ε} : Uses P 0 (.check err : Prog δ ε Unit) fun _ => 0 := by
  refine ⟨fun rest => ?_, nofun⟩
  cases err <;> rfl

/-- What is opened is owned from then on. -/
theorem Uses.opens (hd : P d) : Uses P own (.opens d : Prog δ ε Unit) fun _ => d ::ₘ own := by
  refine ⟨fun rest => (Multiset.cons_add d own rest).symm, fun d' hd' => ?_⟩
  rw [List.mem_singleton.mp hd']
  exact hd

/-- What is closed was owned. -/
theorem Uses.closes : Uses P (d ::ₘ own) (.closes d : Prog δ ε Unit) fun _ => own := by
  refine ⟨fun rest => ?_, nofun⟩
  change (d ::ₘ own + rest).erase d = own + rest
  rw [Multiset.cons_add, Multiset.erase_cons_head]

/-- A handle that is closed on an error is kept otherwise. -/
theorem Uses.closeOnError {err : Option ε} :
    Uses P {d} (.closeOnError d err : Prog δ ε Unit) fun _ => {d} := by
  cases err with
  | none => exact .pure rfl
  | some e =>
    refine ⟨fun rest => ?_, nofun⟩
    change ({d} + rest : Multiset δ).erase d = 0 + rest
    rw [Multiset.singleton_add, Multiset.erase_cons_head, Multiset.zero_add]

/-- The second program starts with what the first one has left. -/
theorem Uses.bind {f : α → Prog δ ε β} {held' : β → Multiset δ} (hx : Uses P own x held)
    (hf : ∀ a, Uses P (held a) (f a) held') : Uses P own (x >>= f) held' := by
  obtain ⟨effects, result⟩ := x
  cases result with
  | ok a =>
    constructor
    · intro rest
      change balance (own + rest) (effects ++ (f a).effects) = _
      rw [balance_append, hx.balanced]
      exact (hf a).balanced rest
    · intro d' hd'
      change d' ∈ openedIn (effects ++ (f a).effects) at hd'
      rw [openedIn, List.filterMap_append, List.mem_append] at hd'
      exact hd'.elim (hx.sound d') ((hf a).sound d')
  | error e => exact ⟨hx.balanced, hx.sound⟩

/-- What follows a result without effects may use that it was this result. -/
theorem Uses.ofExcept_bind {r : Except ε α} {f : α → Prog δ ε β} {held' : β → Multiset δ}
    (hf : ∀ a, r = .ok a → Uses P 0 (f a) held') : Uses P 0 (Prog.ofExcept r >>= f) held' := by
  cases r with
  | ok a => exact ⟨(hf a rfl).balanced, (hf a rfl).sound⟩
  | error e => exact ⟨fun rest => rfl, nofun⟩

/-- The handle of a deferred close is not the body's to close. -/
theorem Uses.deferClose (hx : Uses P own x held) :
    Uses P (d ::ₘ own) (x.deferClose d) held := by
  constructor
  · intro rest
    have hbody := hx.balanced (d ::ₘ rest)
    rw [Prog.deferClose, balance_append, Multiset.cons_add, ← Multiset.add_cons, hbody,
      Multiset.add_cons]
    exact Multiset.erase_cons_head d _
  · intro d' hd'
    rw [Prog.deferClose, openedIn, List.filterMap_append, List.mem_append] at hd'
    exact hx.sound d' (hd'.resolve_right nofun)

/-- A loop whose body keeps what it owns. -/
theorem Uses.forM {ι : Type} {f : ι → Prog δ ε PUnit} (hf : ∀ i, Uses P own (f i) fun _ => own)
    (l : List ι) : Uses P own (l.forM f) fun _ => own := by
  induction l with
  | nil => exact .pure rfl
  | cons i l ih =>
    change Uses P own (f i >>= fun _ => l.forM f) fun _ => own
    exact (hf i).bind fun _ => ih

end Balance

end ControlPlane.Handles

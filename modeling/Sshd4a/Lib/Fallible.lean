import Mathlib.Logic.Basic

/-!
# Programs that can stop

A program that either answers or stops with a reason is a value of `Except ε α`, and sequencing is
the monad's. `Meets x Q E` is its specification: the answer has `Q`, and a reason to stop has `E`.
With `E` false the program is known to answer. `Meets.bind` takes a sequence apart at its first
step.

`Coupled x y R E` is about two programs: both answer, and the answers are related by `R`, or both
stop with the same reason, and it has `E`.
-/

namespace Fallible

universe u v

variable {ε : Type u} {α β : Type v} {x : Except ε α} {f : α → Except ε β} {a : α} {b : β} {e : ε}

@[simp] theorem ok_bind (a : α) (f : α → Except ε β) : (Except.ok a >>= f) = f a := rfl

@[simp] theorem error_bind (e : ε) (f : α → Except ε β) :
    ((Except.error e : Except ε α) >>= f) = .error e := rfl

@[simp] theorem pure_eq_ok (a : α) : (pure a : Except ε α) = .ok a := rfl

@[simp] theorem throw_eq_error (e : ε) : (throw e : Except ε α) = .error e := rfl

theorem bind_eq_ok : (x >>= f) = .ok b ↔ ∃ a, x = .ok a ∧ f a = .ok b := by
  cases x with
  | error e => simp
  | ok a => simp

/-- The answer has `Q`, a reason to stop has `E`. -/
def Meets (x : Except ε α) (Q : α → Prop) (E : ε → Prop) : Prop :=
  match x with
  | .ok a => Q a
  | .error e => E e

variable {Q : α → Prop} {R : β → Prop} {E : ε → Prop}

@[simp] theorem meets_ok : Meets (.ok a : Except ε α) Q E ↔ Q a := Iff.rfl

@[simp] theorem meets_error : Meets (.error e : Except ε α) Q E ↔ E e := Iff.rfl

theorem Meets.bind (hx : Meets x Q E) (hf : ∀ a, Q a → Meets (f a) R E) :
    Meets (x >>= f) R E := by
  cases x with
  | error e => exact hx
  | ok a => exact hf a hx

/-- Both answer, related by `R`, or both stop with one reason that has `E`. -/
def Coupled {α' : Type v} (x : Except ε α) (y : Except ε α') (R : α → α' → Prop) (E : ε → Prop) :
    Prop :=
  (∃ a b, x = .ok a ∧ y = .ok b ∧ R a b) ∨ ∃ e, x = .error e ∧ y = .error e ∧ E e

variable {α' β' : Type v} {y : Except ε α'} {g : α' → Except ε β'} {R' : α → α' → Prop}
  {S : β → β' → Prop}

theorem Coupled.ok {b : α'} (h : R' a b) : Coupled (.ok a) (.ok b) R' E := .inl ⟨a, b, rfl, rfl, h⟩

theorem Coupled.bind (hxy : Coupled x y R' E) (hfg : ∀ a b, R' a b → Coupled (f a) (g b) S E) :
    Coupled (x >>= f) (y >>= g) S E := by
  rcases hxy with ⟨a, b, rfl, rfl, h⟩ | ⟨e, rfl, rfl, h⟩
  · exact hfg a b h
  · exact .inr ⟨e, rfl, rfl, h⟩

end Fallible

import Mathlib.Tactic.Basic

/-!
# Computations that can fail

How a sequence of computations in `Except` succeeds, and how it fails.
-/

namespace Outcome

universe u v

variable {ε : Type u} {α β : Type v}

theorem ok_bind (a : α) (f : α → Except ε β) : (Except.ok a >>= f) = f a := rfl

theorem bind_eq_ok {x : Except ε α} {f : α → Except ε β} {b : β} :
    (x >>= f) = .ok b ↔ ∃ a, x = .ok a ∧ f a = .ok b := by
  cases x with
  | error e => simp [bind, Except.bind]
  | ok a => simp [bind, Except.bind]

theorem bind_eq_error {x : Except ε α} {f : α → Except ε β} {e : ε} :
    (x >>= f) = .error e ↔ x = .error e ∨ ∃ a, x = .ok a ∧ f a = .error e := by
  cases x with
  | error e' => simp [bind, Except.bind]
  | ok a => simp [bind, Except.bind]

@[simp] theorem pure_eq_ok {a b : α} : (pure a : Except ε α) = .ok b ↔ a = b := by
  simp [pure, Except.pure]

@[simp] theorem pure_ne_error {a : α} {e : ε} : (pure a : Except ε α) ≠ .error e := by
  simp [pure, Except.pure]

@[simp] theorem throw_ne_ok {e : ε} {a : α} : (throw e : Except ε α) ≠ .ok a := by
  simp [throw, throwThe, MonadExceptOf.throw]

theorem toOption_eq_some {x : Except ε α} {a : α} : x.toOption = some a ↔ x = .ok a := by
  cases x with
  | error e => simp [Except.toOption]
  | ok b => simp [Except.toOption]

/-! ## Postconditions -/

/-- `Q` holds of the result of a computation that succeeds, and `E` of what stops one that
fails. -/
def Post (x : Except ε α) (Q : α → Prop) (E : ε → Prop) : Prop :=
  match x with
  | .ok a => Q a
  | .error e => E e

namespace Post

variable {x : Except ε α} {f : α → Except ε β} {P Q : α → Prop} {R : β → Prop} {E E' : ε → Prop}
  {a : α} {e : ε}

protected theorem pure (h : Q a) : Post (pure a) Q E := h

protected theorem bind (h : Post x P E) (hf : ∀ a, x = .ok a → P a → Post (f a) R E) :
    Post (x >>= f) R E := by
  cases x with
  | error e => exact h
  | ok a => exact hf a rfl h

theorem mono (h : Post x P E) (hQ : ∀ a, P a → Q a) (hE : ∀ e, E e → E' e) : Post x Q E' := by
  cases x with
  | error e => exact hE e h
  | ok a => exact hQ a h

theorem mono_error (h : Post x Q E) (hE : ∀ e, E e → E' e) : Post x Q E' := h.mono (fun _ h => h) hE

theorem ok (h : Post x Q E) (hx : x = .ok a) : Q a := by
  subst hx
  exact h

theorem error (h : Post x Q E) (hx : x = .error e) : E e := by
  subst hx
  exact h

end Post

end Outcome

import Mathlib.Data.List.Basic

/-!
# Coroutines

A coroutine is resumed by its caller and runs until it gives control back.  `step` is one of its
steps, with whether control is given back afterwards; a coroutine that never gives control back is
one for which no fuel is enough.
-/

namespace Coroutine

variable {σ : Type*} {step : σ → σ × Bool} {fuel : Nat} {s s' : σ}

/-- Run until control is given back. -/
def resume (step : σ → σ × Bool) : Nat → σ → Option σ
  | 0, _ => none
  | fuel + 1, s => if (step s).2 then some (step s).1 else resume step fuel (step s).1

/-- What every step keeps, up to the one that gives control back. -/
theorem resume_rule (Running Suspended : σ → Prop)
    (hrun : ∀ s, Running s → (step s).2 = false → Running (step s).1)
    (hyield : ∀ s, Running s → (step s).2 → Suspended (step s).1)
    (hs : Running s) (h : resume step fuel s = some s') : Suspended s' := by
  induction fuel generalizing s with
  | zero => exact absurd h (by simp [resume])
  | succ fuel ih =>
    rw [resume] at h
    split at h
    · next hback =>
      cases h
      exact hyield s hs hback
    · next hback => exact ih (hrun s hs (Bool.not_eq_true _ ▸ hback)) h

/-- The first step, when it does not give control back. -/
theorem resume_of_step (hback : (step s).2 = false) (h : resume step fuel s = some s') :
    ∃ fuel', resume step fuel' (step s).1 = some s' := by
  cases fuel with
  | zero => exact absurd h (by simp [resume])
  | succ fuel => exact ⟨fuel, by simpa [resume, hback] using h⟩

end Coroutine

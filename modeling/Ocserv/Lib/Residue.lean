import Mathlib.Data.List.Basic

/-!
# What a run keeps of its start

A run folds inputs into a state.  An observation of the state that each input either sets or
leaves alone (`Sets`) is the same after two runs over the same inputs exactly if it was the
same before them, or one of the inputs has set it (`Sets.foldl_eq_iff`): only an observation
that no input sets carries something of the start over to the end.
-/

variable {α β σ : Type*} {step : σ → α → σ} {out : σ → β} {set : α → Option β}

/-- Each input sets the observation, or leaves it alone. -/
def Sets (step : σ → α → σ) (out : σ → β) (set : α → Option β) : Prop :=
  ∀ s x, out (step s x) = (set x).getD (out s)

namespace Sets

theorem eq_of_isSome (h : Sets step out set) {x : α} (hx : (set x).isSome) (s s' : σ) :
    out (step s x) = out (step s' x) := by
  obtain ⟨b, hb⟩ := Option.isSome_iff_exists.1 hx
  rw [h, h, hb]
  rfl

theorem eq_iff_of_not_isSome (h : Sets step out set) {x : α} (hx : ¬ (set x).isSome) (s s' : σ) :
    out (step s x) = out (step s' x) ↔ out s = out s' := by
  rw [h, h, Option.not_isSome_iff_eq_none.1 hx]
  rfl

theorem foldl_eq (h : Sets step out set) {s s' : σ} (heq : out s = out s') (l : List α) :
    out (l.foldl step s) = out (l.foldl step s') := by
  induction l generalizing s s' with
  | nil => exact heq
  | cons x l ih => exact ih (by rw [h, h, heq])

/-- Two runs over the same inputs end alike exactly if they start alike or an input sets what
is observed. -/
theorem foldl_eq_iff (h : Sets step out set) (l : List α) (s s' : σ) :
    out (l.foldl step s) = out (l.foldl step s') ↔ out s = out s' ∨ ∃ x ∈ l, (set x).isSome := by
  induction l generalizing s s' with
  | nil => simp
  | cons x l ih =>
    by_cases hx : (set x).isSome
    · refine iff_of_true (h.foldl_eq (h.eq_of_isSome hx s s') l) (.inr ⟨x, ?_, hx⟩)
      exact List.mem_cons_self
    · rw [List.foldl_cons, List.foldl_cons, ih, h.eq_iff_of_not_isSome hx]
      simp [hx]

end Sets

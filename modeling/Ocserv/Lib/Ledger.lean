import Mathlib.Data.List.Count

/-!
# Ledgers

A ledger records what has been taken and what has been given back, newest first.  It is
`Solvent` when at no moment more of a thing had been given back than taken.
-/

namespace Ledger

variable {κ : Type*} [DecidableEq κ]

inductive Entry (κ : Type*)
  | credit (k : κ)
  | debit (k : κ)
deriving DecidableEq

def Entry.key : Entry κ → κ
  | .credit k | .debit k => k

/-- How often `k` has been taken. -/
def credits (k : κ) (l : List (Entry κ)) : Nat := l.count (.credit k)

/-- How often `k` has been given back. -/
def debits (k : κ) (l : List (Entry κ)) : Nat := l.count (.debit k)

def Solvent (l : List (Entry κ)) : Prop := ∀ l', l' <:+ l → ∀ k, debits k l' ≤ credits k l'

variable {l : List (Entry κ)} {k : κ}

theorem credits_credits (ks : List κ) :
    credits k (ks.map .credit ++ l) = ks.count k + credits k l := by
  rw [credits, List.count_append, List.count_map_of_injective _ _ fun _ _ => Entry.credit.inj]
  rfl

theorem debits_credits (ks : List κ) : debits k (ks.map .credit ++ l) = debits k l := by
  rw [debits, List.count_append, List.count_eq_zero.2 (by simp), Nat.zero_add]
  rfl

theorem credits_debits (ks : List κ) : credits k (ks.map .debit ++ l) = credits k l := by
  rw [credits, List.count_append, List.count_eq_zero.2 (by simp), Nat.zero_add]
  rfl

theorem debits_debits (ks : List κ) :
    debits k (ks.map .debit ++ l) = ks.count k + debits k l := by
  rw [debits, List.count_append, List.count_map_of_injective _ _ fun _ _ => Entry.debit.inj]
  rfl

theorem credits_filter {P : κ → Bool} (hk : P k) :
    credits k (l.filter fun e => P e.key) = credits k l :=
  List.count_filter hk

theorem debits_filter {P : κ → Bool} (hk : P k) :
    debits k (l.filter fun e => P e.key) = debits k l :=
  List.count_filter hk

namespace Solvent

/-- A ledger is solvent if each of its parts is. -/
theorem of_parts {β : Type*} [DecidableEq β] (part : κ → β)
    (h : ∀ b, Solvent (l.filter fun e => part e.key = b)) : Solvent l := by
  intro l' hl' k
  have hpart := h (part k) _ (hl'.filter _) k
  rwa [debits_filter (P := fun j => part j = part k) (by simp),
    credits_filter (P := fun j => part j = part k) (by simp)] at hpart

theorem nil : Solvent ([] : List (Entry κ)) := by
  intro l' hl' k
  rw [List.suffix_nil.1 hl']
  exact Nat.le_refl 0

theorem le (h : Solvent l) (k : κ) : debits k l ≤ credits k l := h l (List.suffix_refl l) k

theorem cons {e : Entry κ} (h : Solvent l) (hle : ∀ k, debits k (e :: l) ≤ credits k (e :: l)) :
    Solvent (e :: l) := by
  intro l' hl'
  rcases List.suffix_cons_iff.1 hl' with rfl | hl'
  · exact hle
  · exact h l' hl'

theorem append_credits (h : Solvent l) (ks : List κ) : Solvent (ks.map .credit ++ l) := by
  induction ks with
  | nil => exact h
  | cons j ks ih =>
    refine ih.cons fun k => ?_
    show debits k ((j :: ks).map .credit ++ l) ≤ credits k ((j :: ks).map .credit ++ l)
    rw [debits_credits, credits_credits]
    exact Nat.le_trans (h.le k) (Nat.le_add_left _ _)

theorem append_debits (h : Solvent l) (ks : List κ)
    (hle : ∀ k, ks.count k + debits k l ≤ credits k l) : Solvent (ks.map .debit ++ l) := by
  induction ks with
  | nil => exact h
  | cons j ks ih =>
    refine cons (ih fun k => ?_) fun k => ?_
    · have hmono : ks.count k ≤ (j :: ks).count k := List.count_le_count_cons
      have hk := hle k
      omega
    · show debits k ((j :: ks).map .debit ++ l) ≤ credits k ((j :: ks).map .debit ++ l)
      rw [credits_debits, debits_debits]
      exact hle k

end Solvent

end Ledger

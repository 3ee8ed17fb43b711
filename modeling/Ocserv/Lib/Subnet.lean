import Mathlib.Data.Set.Lattice
import Mathlib.Order.CompletePartialOrder
import Mathlib.Data.BitVec

/-!
# Ranges of addresses with a common prefix

`range a len` is the set of the addresses of `w` bits whose first `len` bits are those of
`a`.  Ranges are nested or disjoint: `range_subset` is the one case, and
`disjoint_range_iff` says when the other one applies.
-/

namespace Subnet

variable {w : Nat} {a b x : BitVec w} {m n : Nat}

/-- The first `len` bits. -/
def mask (w len : Nat) : BitVec w := BitVec.allOnes w <<< (w - len)

/-- The addresses that begin with the first `len` bits of `a`. -/
def range (a : BitVec w) (len : Nat) : Set (BitVec w) := {x | x &&& mask w len = a &&& mask w len}

instance : Decidable (x ∈ range a n) :=
  inferInstanceAs (Decidable (x &&& mask w n = a &&& mask w n))

theorem mem_range : x ∈ range a n ↔ x &&& mask w n = a &&& mask w n := Iff.rfl

theorem self_mem_range (a : BitVec w) (n : Nat) : a ∈ range a n := rfl

/-- The bits of a shorter prefix are among those of a longer one. -/
theorem mask_and_mask (h : m ≤ n) : mask w n &&& mask w m = mask w m := by
  apply BitVec.eq_of_getLsbD_eq
  intro i hi
  simp only [mask, BitVec.getLsbD_and, BitVec.getLsbD_shiftLeft, BitVec.getLsbD_allOnes, hi,
    decide_true, Bool.true_and]
  by_cases hm : i < w - m
  · simp [hm]
  · have hn : ¬ i < w - n := by omega
    have hlt : ∀ k, i - k < w := by omega
    simp [hm, hn, hlt]

theorem and_mask_and_mask (h : m ≤ n) (a : BitVec w) :
    a &&& mask w n &&& mask w m = a &&& mask w m := by
  rw [BitVec.and_assoc, mask_and_mask h]

/-- A longer prefix of an address in a range gives a part of that range. -/
theorem range_subset (h : m ≤ n) (hb : b ∈ range a m) : range b n ⊆ range a m := by
  intro x hx
  calc x &&& mask w m = x &&& mask w n &&& mask w m := (and_mask_and_mask h x).symm
    _ = b &&& mask w n &&& mask w m := by rw [mem_range.1 hx]
    _ = b &&& mask w m := and_mask_and_mask h b
    _ = a &&& mask w m := hb

/-- Two ranges have an address in common if they agree on the shorter prefix. -/
theorem disjoint_range_iff :
    Disjoint (range a m) (range b n) ↔ a &&& mask w (min m n) ≠ b &&& mask w (min m n) := by
  constructor
  · intro hdisjoint heq
    rw [Set.disjoint_left] at hdisjoint
    rcases Nat.le_total m n with h | h
    · rw [Nat.min_eq_left h] at heq
      exact hdisjoint (a := b) heq.symm (self_mem_range b n)
    · rw [Nat.min_eq_right h] at heq
      exact hdisjoint (self_mem_range a m) heq
  · intro hne
    refine Set.disjoint_left.2 fun x hxa hxb => hne ?_
    have ha := range_subset (Nat.min_le_left m n) (self_mem_range a _) hxa
    have hb := range_subset (Nat.min_le_right m n) (self_mem_range b _) hxb
    exact ha.symm.trans hb

end Subnet

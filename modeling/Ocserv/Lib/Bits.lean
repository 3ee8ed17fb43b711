import Mathlib.Algebra.Group.Nat.Defs
import Mathlib.Data.List.Basic

/-!
# Bit strings, most significant bit first

`Bits.ofNat n v` is the field of `n` bits that holds the lowest bits of `v`, and
`Bits.ofBytes` is a string of bytes.  A reader and a writer of bit fields are specified by
the strings they consume and produce; the laws that relate their shifts and masks to
these strings are

* `ofNat_add`: a field is split by shifting;
* `ofNat_shiftLeft_or`: two fields are joined by shifting and or-ing;
* `ofNat_mod`: masking does not change the bits that are kept;
* `ofNat_inj`: a field determines its value.
-/

namespace Bits

/-- The lowest `n` bits of `v`. -/
def ofNat : Nat → Nat → List Bool
  | 0, _ => []
  | n + 1, v => v.testBit n :: ofNat n v

def ofBytes (bytes : List UInt8) : List Bool := bytes.flatMap fun b => ofNat 8 b.toNat

variable {n m v w : Nat}

@[simp] theorem length_ofNat (n v : Nat) : (ofNat n v).length = n := by
  induction n with
  | zero => rfl
  | succ n ih => rw [ofNat, List.length_cons, ih]

@[simp] theorem ofBytes_nil : ofBytes [] = [] := rfl

@[simp] theorem ofBytes_cons (b : UInt8) (bytes : List UInt8) :
    ofBytes (b :: bytes) = ofNat 8 b.toNat ++ ofBytes bytes := List.flatMap_cons

theorem ofBytes_append (xs ys : List UInt8) : ofBytes (xs ++ ys) = ofBytes xs ++ ofBytes ys :=
  List.flatMap_append

/-- Fields are equal when their numbers agree on the bits. -/
theorem ofNat_congr (h : ∀ i < n, v.testBit i = w.testBit i) : ofNat n v = ofNat n w := by
  induction n with
  | zero => rfl
  | succ n ih =>
    rw [ofNat, ofNat, h n (Nat.lt_succ_self n), ih fun i hi => h i (Nat.lt_succ_of_lt hi)]

theorem testBit_of_ofNat_eq (h : ofNat n v = ofNat n w) : ∀ i < n, v.testBit i = w.testBit i := by
  induction n with
  | zero => exact fun i hi => absurd hi (Nat.not_lt_zero i)
  | succ n ih =>
    obtain ⟨hbit, hrest⟩ := List.cons.inj h
    intro i hi
    by_cases heq : i = n
    · rw [heq, hbit]
    · exact ih hrest i (by omega)

theorem ofNat_inj (hv : v < 2 ^ n) (hw : w < 2 ^ n) (h : ofNat n v = ofNat n w) : v = w := by
  apply Nat.eq_of_testBit_eq
  intro i
  by_cases hi : i < n
  · exact testBit_of_ofNat_eq h i hi
  · have hle : 2 ^ n ≤ 2 ^ i := Nat.pow_le_pow_right (by decide) (by omega)
    rw [Nat.testBit_lt_two_pow (by omega), Nat.testBit_lt_two_pow (by omega)]

theorem ofNat_add (n m v : Nat) : ofNat (n + m) v = ofNat n (v >>> m) ++ ofNat m v := by
  induction n with
  | zero => rw [Nat.zero_add]; rfl
  | succ n ih =>
    rw [Nat.add_right_comm, ofNat, ofNat, ih, Nat.testBit_shiftRight, Nat.add_comm n m]
    rfl

theorem ofNat_mod (h : n ≤ m) : ofNat n (v % 2 ^ m) = ofNat n v := by
  apply ofNat_congr
  intro i hi
  rw [Nat.testBit_mod_two_pow, decide_eq_true (show i < m by omega), Bool.true_and]

theorem ofNat_shiftLeft_or (hw : w < 2 ^ m) :
    ofNat (n + m) (v <<< m ||| w) = ofNat n v ++ ofNat m w := by
  have hhigh : (v <<< m ||| w) >>> m = v := by
    rw [Nat.shiftRight_or_distrib, Nat.shiftLeft_shiftRight,
      Nat.shiftRight_eq_zero w m hw, Nat.or_zero]
  rw [ofNat_add, hhigh]
  congr 1
  apply ofNat_congr
  intro i hi
  rw [Nat.testBit_or, Nat.testBit_shiftLeft, decide_eq_false (show ¬ m ≤ i by omega),
    Bool.false_and, Bool.false_or]

/-- A field that is written as a byte. -/
theorem ofNat_toNat_ofNat (v : Nat) : ofNat 8 (UInt8.ofNat v).toNat = ofNat 8 v := by
  rw [UInt8.toNat_ofNat']
  exact ofNat_mod (Nat.le_refl 8)

end Bits

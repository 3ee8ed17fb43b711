import Mathlib.Algebra.Group.Defs
import Mathlib.Tactic.Ext
import Ocserv.SecMod.Db

/-!
# Traffic counters

The traffic counters of an entry are pairs of 64-bit numbers that are added and compared by
component.  The sum wraps; it can be compared where it does not (`Fits`).
-/

namespace Ocserv

namespace Stats

/-! ## One counter -/

variable {a b c : UInt64}

theorem raised_of_le (h : a ≤ b) : (if b > a then b else a) = b := by
  split
  · rfl
  · next hle => exact UInt64.le_antisymm h (UInt64.not_lt.1 hle)

theorem raised_of_ge (h : b ≤ a) : (if b > a then b else a) = a := if_neg (UInt64.not_lt.2 h)

theorem le_raised : a ≤ if b > a then b else a := by
  split
  · next hlt => exact UInt64.le_of_lt hlt
  · exact UInt64.le_refl a

theorem add_le_of_fits (hfits : c.toNat + b.toNat < 2 ^ 64) (h : a ≤ b) : c + a ≤ c + b := by
  rw [UInt64.le_iff_toNat_le, UInt64.toNat_add, UInt64.toNat_add, Nat.mod_eq_of_lt hfits]
  exact (Nat.mod_le _ _).trans (Nat.add_le_add_left (UInt64.le_iff_toNat_le.1 h) _)

/-! ## Both counters -/

instance : Zero Stats := ⟨{}⟩

instance : Add Stats := ⟨stats_add_to⟩

attribute [ext] Stats

instance : AddCancelCommMonoid Stats where
  add_assoc a b c := Stats.ext (UInt64.add_assoc _ _ _) (UInt64.add_assoc _ _ _)
  zero_add a := Stats.ext (UInt64.zero_add _) (UInt64.zero_add _)
  add_zero a := Stats.ext (UInt64.add_zero _) (UInt64.add_zero _)
  add_comm a b := Stats.ext (UInt64.add_comm _ _) (UInt64.add_comm _ _)
  nsmul := nsmulRec
  add_left_cancel a b c h :=
    Stats.ext ((UInt64.add_right_inj _).1 (congrArg bytes_in h))
      ((UInt64.add_right_inj _).1 (congrArg bytes_out h))

instance : LE Stats := ⟨fun a b => a.bytes_in ≤ b.bytes_in ∧ a.bytes_out ≤ b.bytes_out⟩

instance : DecidableLE Stats := fun a b =>
  inferInstanceAs (Decidable (a.bytes_in ≤ b.bytes_in ∧ a.bytes_out ≤ b.bytes_out))

theorem le_refl (a : Stats) : a ≤ a := ⟨UInt64.le_refl _, UInt64.le_refl _⟩

theorem le_trans {a b c : Stats} (hab : a ≤ b) (hbc : b ≤ c) : a ≤ c :=
  ⟨UInt64.le_trans hab.1 hbc.1, UInt64.le_trans hab.2 hbc.2⟩

/-- Counters that are at least the recorded ones replace them. -/
theorem raise_of_le {st c : Stats} (h : st ≤ c) : st.raise c = c :=
  Stats.ext (raised_of_le h.1) (raised_of_le h.2)

/-- Counters that are at most the recorded ones change nothing. -/
theorem raise_of_ge {st c : Stats} (h : c ≤ st) : st.raise c = st :=
  Stats.ext (raised_of_ge h.1) (raised_of_ge h.2)

/-- The record only increases. -/
theorem le_raise (st c : Stats) : st ≤ st.raise c := ⟨le_raised, le_raised⟩

/-- The sum of two records does not wrap. -/
def Fits (a b : Stats) : Prop :=
  a.bytes_in.toNat + b.bytes_in.toNat < 2 ^ 64 ∧ a.bytes_out.toNat + b.bytes_out.toNat < 2 ^ 64

theorem fits_zero (a : Stats) : Fits a 0 := ⟨a.bytes_in.toNat_lt, a.bytes_out.toNat_lt⟩

theorem Fits.add_le_add_left {a b c : Stats} (hfits : Fits c b) (h : a ≤ b) : c + a ≤ c + b :=
  ⟨add_le_of_fits hfits.1 h.1, add_le_of_fits hfits.2 h.2⟩

end Stats

end Ocserv

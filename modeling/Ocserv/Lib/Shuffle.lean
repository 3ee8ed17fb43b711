import Mathlib.Data.List.Basic
import Mathlib.Data.List.Perm.Basic

/-!
# Lists shuffled across kinds

The elements of a list have a kind, and two lists are in the same order when each is a
permutation of the other that keeps the elements of each kind in their order.  A part of a state
that only the elements of one kind change comes out of a fold over either list the same
(`SameOrder.part_foldl`).  Where the elements of two kinds overwrite one value, the last one counts
(`lastWrite`).
-/

namespace Shuffle

open List Option

variable {α κ σ β : Type} [DecidableEq κ] (key : α → κ)

/-- The elements of a kind. -/
def ofKind (k : κ) (l : List α) : List α := l.filter fun a => key a = k

/-- A permutation that moves no element past another one of its kind. -/
structure SameOrder (l l' : List α) : Prop where
  perm : l.Perm l'
  kinds : ∀ k, ofKind key k l = ofKind key k l'

variable {key} {l l' : List α} {k : κ}

theorem ofKind_append (l l' : List α) :
    ofKind key k (l ++ l') = ofKind key k l ++ ofKind key k l' := filter_append l l'

theorem key_of_mem_ofKind {a : α} (h : a ∈ ofKind key k l) : key a = k := by
  simpa using of_mem_filter h

theorem ofKind_of_forall (h : ∀ a ∈ l, key a = k) (j : κ) :
    ofKind key j l = if j = k then l else [] := by
  split
  next hj =>
    rw [ofKind, filter_eq_self]
    intro a ha
    simp [h a ha, hj]
  next hj =>
    rw [ofKind, filter_eq_nil_iff]
    intro a ha
    simpa [h a ha] using Ne.symm hj

/-- The elements of a kind among those with a property. -/
theorem ofKind_filter {p : α → Bool} {b : Bool} (h : ∀ a, key a = k → p a = b) :
    ofKind key k (l.filter p) = if b then ofKind key k l else [] := by
  induction l with
  | nil => cases b <;> rfl
  | cons a l ih =>
    unfold ofKind at ih ⊢
    by_cases ha : key a = k
    · have hp := h a ha
      cases b <;> simp_all
    · cases hp : p a <;> simp_all

theorem SameOrder.of_kinds [DecidableEq α] (h : ∀ k, ofKind key k l = ofKind key k l') :
    SameOrder key l l' where
  perm := by
    rw [perm_iff_count]
    intro a
    have hcount : ∀ l : List α, (ofKind key (key a) l).count a = l.count a :=
      fun l => count_filter (by simp)
    rw [← hcount l, h, hcount l']
  kinds := h

/-- Some elements of one kind, all of another one, and the rest. -/
theorem SameOrder.split [DecidableEq α] {k' : κ} (hne : k ≠ k') (l : List α) (n : Nat) :
    SameOrder key l ((ofKind key k l).take n ++ (ofKind key k' l ++ ((ofKind key k l).drop n ++
      l.filter fun a => key a ≠ k ∧ key a ≠ k'))) := by
  apply SameOrder.of_kinds
  intro j
  have hfront : ∀ a ∈ (ofKind key k l).take n, key a = k :=
    fun a ha => key_of_mem_ofKind (mem_of_mem_take ha)
  have hback : ∀ a ∈ (ofKind key k l).drop n, key a = k :=
    fun a ha => key_of_mem_ofKind (mem_of_mem_drop ha)
  have hother : ∀ a ∈ ofKind key k' l, key a = k' := fun a ha => key_of_mem_ofKind ha
  have hrest : ofKind key j (l.filter fun a => key a ≠ k ∧ key a ≠ k') =
      if decide (j ≠ k ∧ j ≠ k') then ofKind key j l else [] := by
    apply ofKind_filter
    intro a ha
    rw [ha]
  rw [ofKind_append, ofKind_append, ofKind_append, ofKind_of_forall hfront, ofKind_of_forall hback,
    ofKind_of_forall hother, hrest]
  by_cases hk : j = k
  · simp [hk, hne]
  · by_cases hk' : j = k'
    · simp [hk', hne.symm]
    · simp [hk, hk']

/-! ## A part of the state -/

variable {step : σ → α → σ}

/-- What one kind determines is determined by the elements of this kind. -/
theorem part_foldl (part : σ → β) (hframe : ∀ s a, key a ≠ k → part (step s a) = part s)
    (hown : ∀ s t a, key a = k → part s = part t → part (step s a) = part (step t a)) (l : List α)
    {s t : σ} (hst : part s = part t) :
    part (l.foldl step s) = part ((ofKind key k l).foldl step t) := by
  induction l generalizing s t with
  | nil => exact hst
  | cons a l ih =>
    by_cases ha : key a = k
    · have hcons : ofKind key k (a :: l) = a :: ofKind key k l := by simp [ofKind, ha]
      rw [hcons, foldl_cons, foldl_cons]
      exact ih (hown s t a ha hst)
    · have hcons : ofKind key k (a :: l) = ofKind key k l := by simp [ofKind, ha]
      rw [hcons, foldl_cons]
      exact ih ((hframe s a ha).trans hst)

theorem SameOrder.part_foldl (h : SameOrder key l l') (part : σ → β)
    (hframe : ∀ s a, key a ≠ k → part (step s a) = part s)
    (hown : ∀ s t a, key a = k → part s = part t → part (step s a) = part (step t a)) (s : σ) :
    part (l.foldl step s) = part (l'.foldl step s) := by
  rw [Shuffle.part_foldl part hframe hown l rfl, Shuffle.part_foldl part hframe hown l' rfl,
    h.kinds]

/-! ## Overwriting -/

section Overwrite

variable {write : α → Option β}

/-- The last value that is written. -/
def lastWrite (write : α → Option β) (l : List α) : Option β := (l.filterMap write).getLast?

theorem lastWrite_append (l l' : List α) :
    lastWrite write (l ++ l') = (lastWrite write l').or (lastWrite write l) := by
  rw [lastWrite, filterMap_append, List.getLast?_append]
  rfl

theorem lastWrite_cons (a : α) (l : List α) :
    lastWrite write (a :: l) = (lastWrite write l).or (write a) := by
  rw [← singleton_append, lastWrite_append]
  cases ha : write a <;> simp [lastWrite, ha]

theorem lastWrite_eq_none_iff : lastWrite write l = none ↔ ∀ a ∈ l, write a = none := by
  rw [lastWrite, List.getLast?_eq_none_iff, filterMap_eq_nil_iff]

/-- A value that is overwritten again and again. -/
theorem part_foldl_write {step : σ → α → σ} (part : σ → β)
    (hstep : ∀ s a, part (step s a) = (write a).getD (part s)) (l : List α) (s : σ) :
    part (l.foldl step s) = (lastWrite write l).getD (part s) := by
  induction l generalizing s with
  | nil => rfl
  | cons a l ih =>
    rw [foldl_cons, ih, hstep, lastWrite_cons]
    cases lastWrite write l <;> rfl

/-- The value that the last element of a kind writes. -/
def lastOf (key : α → κ) (write : α → Option β) (k : κ) (l : List α) : Option β :=
  lastWrite write (ofKind key k l)

theorem lastOf_cons (a : α) (l : List α) :
    lastOf key write k (a :: l) =
      (lastOf key write k l).or (if key a = k then write a else none) := by
  unfold lastOf ofKind
  by_cases ha : key a = k
  · rw [filter_cons_of_pos (by simpa using ha), lastWrite_cons, if_pos ha]
  · rw [filter_cons_of_neg (by simpa using ha), if_neg ha, or_none]

section TwoKinds

variable {k' : κ} (hne : k ≠ k') (hkinds : ∀ a, key a ≠ k → key a ≠ k' → write a = none)

include hne hkinds

/-- One of the two kinds has the last word. -/
theorem lastWrite_of_kinds (l : List α) :
    lastWrite write l = (lastOf key write k l).or (lastOf key write k' l) ∨
      lastWrite write l = (lastOf key write k' l).or (lastOf key write k l) := by
  induction l with
  | nil => exact .inl rfl
  | cons a l ih =>
    simp only [lastWrite_cons, lastOf_cons]
    have hwrite : key a = k ∨ key a = k' ∨ write a = none := by
      by_cases hk : key a = k
      · exact .inl hk
      · by_cases hk' : key a = k'
        · exact .inr (.inl hk')
        · exact .inr (.inr (hkinds a hk hk'))
    obtain hk | hk' | hnone := hwrite
    · rw [if_pos hk, if_neg (hk ▸ hne)]
      obtain hlast | hlast := ih <;> rw [hlast] <;>
        cases lastOf key write k l <;> cases lastOf key write k' l <;> simp
    · rw [if_pos hk', if_neg (hk' ▸ hne.symm)]
      obtain hlast | hlast := ih <;> rw [hlast] <;>
        cases lastOf key write k l <;> cases lastOf key write k' l <;> simp
    · simpa [hnone] using ih

/-- Two kinds that write the same last may be shuffled. -/
theorem lastWrite_of_agree
    (hagree : ∀ x y, lastOf key write k l = some x → lastOf key write k' l = some y → x = y) :
    lastWrite write l = (lastOf key write k l).or (lastOf key write k' l) := by
  obtain hlast | hlast := lastWrite_of_kinds hne hkinds l
  · exact hlast
  · rw [hlast]
    cases hx : lastOf key write k l with
    | none => simp
    | some x =>
      cases hy : lastOf key write k' l with
      | none => simp
      | some y => simp [hagree x y hx hy]

/-- The last write does not depend on how two kinds are shuffled exactly when they write the same
last. -/
theorem lastWrite_fixed_iff [DecidableEq α] (b : β) :
    (∀ l', SameOrder key l l' → (lastWrite write l').getD b = (lastWrite write l).getD b) ↔
      ∀ x y, lastOf key write k l = some x → lastOf key write k' l = some y → x = y := by
  constructor
  · intro hfixed x y hx hy
    have hrest : lastWrite write (l.filter fun a => key a ≠ k ∧ key a ≠ k') = none := by
      rw [lastWrite_eq_none_iff]
      intro a ha
      have hother : key a ≠ k ∧ key a ≠ k' := by simpa using of_mem_filter ha
      exact hkinds a hother.1 hother.2
    have hall : (ofKind key k l).take l.length = ofKind key k l :=
      take_of_length_le (length_filter_le _ l)
    have hnil : (ofKind key k l).drop l.length = [] :=
      drop_of_length_le (length_filter_le _ l)
    -- the elements of the first kind behind those of the second, and before them
    have hfirst := hfixed _ (SameOrder.split hne l 0)
    have hlast := hfixed _ (SameOrder.split hne l l.length)
    simp only [take_zero, drop_zero, nil_append, lastWrite_append, hrest] at hfirst
    simp only [hall, hnil, nil_append, lastWrite_append, hrest] at hlast
    unfold lastOf at hx hy
    rw [hx, hy] at hfirst hlast
    exact hfirst.trans hlast.symm
  · intro hagree l' h
    have hk : lastOf key write k l' = lastOf key write k l := by
      rw [lastOf, lastOf, h.kinds]
    have hk' : lastOf key write k' l' = lastOf key write k' l := by
      rw [lastOf, lastOf, h.kinds]
    rw [lastWrite_of_agree hne hkinds hagree,
      lastWrite_of_agree hne hkinds (by rwa [hk, hk']), hk, hk']

end TwoKinds

end Overwrite

end Shuffle

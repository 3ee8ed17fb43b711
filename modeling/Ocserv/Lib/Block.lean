import Mathlib.Data.List.Basic

/-!
# Allocated arrays

A `Block` is an array with the cells that were requested for it; a cell that has not been
written is `none`.  A write outside of the block is an error.  `Holds` says that the first
cells hold given values: the way in which a program that keeps an array together with the
number of its elements knows what is in it.
-/

/-- An allocated array. -/
@[ext] structure Block (α : Type*) where
  cells : List (Option α)
deriving DecidableEq

namespace Block

open List Option

variable {α : Type*}

/-- The number of cells. -/
def capacity (b : Block α) : Nat := b.cells.length

def alloc (n : Nat) : Block α := ⟨List.replicate n none⟩

/-- The cells that fit are kept. -/
def realloc (b : Block α) (n : Nat) : Block α :=
  ⟨b.cells.take n ++ List.replicate (n - b.capacity) none⟩

/-- A write, unless it is outside of the block. -/
def write (b : Block α) (i : Nat) (a : α) : Option (Block α) :=
  if i < b.capacity then some ⟨b.cells.set i (some a)⟩ else none

/-- The first values of the block. -/
def Holds (b : Block α) (l : List α) : Prop := ∃ rest, b.cells = l.map some ++ rest

@[simp] theorem capacity_alloc (n : Nat) : (alloc n : Block α).capacity = n :=
  length_replicate

@[simp] theorem capacity_realloc (b : Block α) (n : Nat) : (b.realloc n).capacity = n := by
  simp only [realloc, capacity, length_append, length_take, length_replicate]
  omega

theorem write_eq_some {b b' : Block α} {i : Nat} {a : α} :
    b.write i a = some b' ↔ i < b.capacity ∧ ⟨b.cells.set i (some a)⟩ = b' := by
  unfold write
  rw [ite_none_right_eq_some, some.injEq]

theorem write_eq_none {b : Block α} {i : Nat} {a : α} (hi : b.capacity ≤ i) :
    b.write i a = none :=
  if_neg (Nat.not_lt.2 hi)

namespace Holds

variable {b : Block α} {l : List α}

theorem realloc (h : b.Holds l) {n : Nat} (hn : l.length ≤ n) : (b.realloc n).Holds l := by
  obtain ⟨rest, hcells⟩ := h
  refine ⟨rest.take (n - l.length) ++ List.replicate (n - b.capacity) none, ?_⟩
  unfold Block.realloc
  rw [hcells, take_append, take_of_length_le (by simpa using hn), length_map,
    append_assoc]

theorem write (h : b.Holds l) (hroom : l.length < b.capacity) (a : α) :
    ∃ b', b.write l.length a = some b' ∧ b'.capacity = b.capacity ∧ b'.Holds (l ++ [a]) := by
  refine ⟨_, write_eq_some.2 ⟨hroom, rfl⟩, length_set, ?_⟩
  obtain ⟨rest, hcells⟩ := h
  unfold capacity at hroom
  rw [hcells] at hroom
  cases rest with
  | nil => simp at hroom
  | cons c rest =>
    refine ⟨rest, ?_⟩
    show b.cells.set l.length (some a) = _
    rw [hcells, set_append_right _ _ (by simp)]
    simp

/-- A write behind the values does not change them. -/
theorem write_after (h : b.Holds l) {i : Nat} {a : α} (hi : l.length ≤ i)
    (hroom : i < b.capacity) :
    ∃ b', b.write i a = some b' ∧ b'.capacity = b.capacity ∧ b'.Holds l := by
  refine ⟨_, write_eq_some.2 ⟨hroom, rfl⟩, length_set, ?_⟩
  obtain ⟨rest, hcells⟩ := h
  refine ⟨rest.set (i - l.length) (some a), ?_⟩
  show b.cells.set i (some a) = _
  rw [hcells, set_append_right _ _ (by simpa using hi), length_map]

end Holds

end Block

import Ocserv.Lib.Block
import Ocserv.Basic

/-!
# Options with several values

The values of a list option are kept in an array of strings that ends with a null pointer,
next to their number.  `_add_multi_line_val` allocates the array for the first value and
enlarges it when the number of values reaches the number of cells that it allocates first;
it takes every array for one that it has allocated.  The array that a named virtual host
inherits from the default section is a copy made by the unpacking of a protobuf message, with
one cell for each value.  `multi_line_vals_iff` says when this goes well.
-/

namespace Ocserv

def DEFAULT_CONFIG_ENTRIES : Nat := 96

/-- `char **varname` and `size_t num`.  In a cell, `none` is the null pointer. -/
structure Strv where
  varname : Option (Block (Option CStr)) := none
  num : Nat := 0
deriving DecidableEq

namespace Strv

/-- The array of the first value. -/
def ready (v : Strv) : Block (Option CStr) × Nat :=
  match v.varname with
  | none => (.alloc DEFAULT_CONFIG_ENTRIES, 0)
  | some block => (block, v.num)

/-- `_add_multi_line_val`, when memory can be allocated; `none` is a write outside of the
array. -/
def add_multi_line_val (v : Strv) (value : CStr) : Option Strv := do
  let (block, num) := v.ready
  let block := if num ≥ DEFAULT_CONFIG_ENTRIES - 1 then block.realloc (num + 2) else block
  let block ← block.write num (some value)
  let block ← block.write (num + 1) none
  return { varname := some block, num := num + 1 }

/-- The lines of an option, one after the other. -/
def add_lines (v : Strv) (values : List CStr) : Option Strv := values.foldlM add_multi_line_val v

/-- `cfg_copy_from_default`: an array without elements is not allocated, another one has a cell
for each of them. -/
def unpacked (values : List CStr) : Strv where
  varname := if values = [] then none else some ⟨values.map fun x => some (some x)⟩
  num := values.length

/-- The values that the array and the number stand for. -/
def Lists (v : Strv) (values : List CStr) : Prop :=
  v.num = values.length ∧
    match v.varname with
    | none => values = []
    | some block => block.Holds (values.map some)

theorem unpacked_lists (values : List CStr) : (unpacked values).Lists values := by
  refine ⟨rfl, ?_⟩
  unfold unpacked
  split_ifs with h
  · exact h
  · exact ⟨[], by simp⟩

/-- An array that `_add_multi_line_val` has allocated. -/
structure Grown (v : Strv) (values : List CStr) : Prop where
  lists : v.Lists values
  capacity : ∃ block, v.varname = some block ∧
    max DEFAULT_CONFIG_ENTRIES (values.length + 1) ≤ block.capacity

/-- A value is added if there is room for it, or if room is made. -/
theorem add_of_room {v : Strv} {values : List CStr} (block : Block (Option CStr))
    (hready : v.ready = (block, values.length)) (hholds : block.Holds (values.map some))
    (hroom : DEFAULT_CONFIG_ENTRIES - 1 ≤ values.length ∨ DEFAULT_CONFIG_ENTRIES ≤ block.capacity)
    (value : CStr) : ∃ v', v.add_multi_line_val value = some v' ∧ v'.Grown (values ++ [value]) := by
  obtain ⟨b, hb, hb_holds, hb_room⟩ : ∃ b,
      (if values.length ≥ DEFAULT_CONFIG_ENTRIES - 1 then block.realloc (values.length + 2)
        else block) = b ∧ b.Holds (values.map some) ∧
      max DEFAULT_CONFIG_ENTRIES (values.length + 2) ≤ b.capacity := by
    refine ⟨_, rfl, ?_⟩
    unfold DEFAULT_CONFIG_ENTRIES at hroom ⊢
    split_ifs with hfull
    · exact ⟨hholds.realloc (by rw [List.length_map]; omega), by rw [Block.capacity_realloc]; omega⟩
    · exact ⟨hholds, by omega⟩
  have hlen : (values.map some).length = values.length := List.length_map _
  obtain ⟨b₁, hwrite, hcap₁, hholds₁⟩ := hb_holds.write (by omega) (some value)
  obtain ⟨b₂, hnull, hcap₂, hholds₂⟩ := hholds₁.write_after (i := values.length + 1) (a := none)
    (by simp) (by omega)
  rw [hlen] at hwrite
  refine ⟨⟨some b₂, values.length + 1⟩, ?_, ⟨?_, ?_⟩, b₂, rfl, ?_⟩
  · simp only [add_multi_line_val, hready, hb, hwrite, hnull, Option.bind_eq_bind,
      Option.bind_some, Option.pure_def]
  · simp
  · simpa using hholds₂
  · rw [hcap₂, hcap₁, List.length_append]
    exact hb_room

/-- An array without room for the value is written outside of its bounds. -/
theorem add_of_full {v : Strv} {block : Block (Option CStr)} {num : Nat}
    (hready : v.ready = (block, num)) (hlow : num < DEFAULT_CONFIG_ENTRIES - 1)
    (hfull : block.capacity ≤ num) (value : CStr) : v.add_multi_line_val value = none := by
  simp only [add_multi_line_val, hready, if_neg (Nat.not_le.2 hlow), Block.write_eq_none hfull,
    Option.bind_eq_bind, Option.bind_none]

theorem Grown.add {v : Strv} {values : List CStr} (h : v.Grown values) (value : CStr) :
    ∃ v', v.add_multi_line_val value = some v' ∧ v'.Grown (values ++ [value]) := by
  obtain ⟨⟨hnum, hholds⟩, block, hblock, hcap⟩ := h
  rw [hblock] at hholds
  apply add_of_room block
  · rw [ready, hblock, hnum]
  · exact hholds
  · exact .inr (Nat.le_trans (Nat.le_max_left _ _) hcap)

/-- Once an array is its own, the function adds any number of values. -/
theorem Grown.add_lines {v : Strv} {values : List CStr} (h : v.Grown values) (added : List CStr) :
    ∃ v', v.add_lines added = some v' ∧ v'.Lists (values ++ added) := by
  induction added generalizing v values with
  | nil => exact ⟨v, rfl, by rw [List.append_nil]; exact h.lists⟩
  | cons value added ih =>
    obtain ⟨v₁, hadd, hgrown⟩ := h.add value
    obtain ⟨v', hlines, hlists⟩ := ih hgrown
    refine ⟨v', ?_, ?_⟩
    · rw [Strv.add_lines, List.foldlM_cons, hadd]
      exact hlines
    · rwa [List.append_assoc] at hlists

/-- The first value is added to an array that was inherited exactly if there was nothing to
inherit or the array is enlarged at once. -/
theorem unpacked_add (inherited : List CStr) (value : CStr) :
    if inherited = [] ∨ DEFAULT_CONFIG_ENTRIES - 1 ≤ inherited.length then
      ∃ v, (unpacked inherited).add_multi_line_val value = some v ∧
        v.Grown (inherited ++ [value])
    else (unpacked inherited).add_multi_line_val value = none := by
  by_cases hnil : inherited = []
  · subst hnil
    rw [if_pos (.inl rfl)]
    apply add_of_room (.alloc DEFAULT_CONFIG_ENTRIES)
    · rfl
    · exact ⟨_, rfl⟩
    · exact .inr (Nat.le_of_eq (Block.capacity_alloc _).symm)
  · have hready : (unpacked inherited).ready =
        (⟨inherited.map fun x => some (some x)⟩, inherited.length) := by
      simp [unpacked, ready, hnil]
    split_ifs with hcond
    · apply add_of_room _ hready
      · exact ⟨[], by simp⟩
      · exact .inl (hcond.resolve_left hnil)
    · apply add_of_full hready
      · omega
      · simp [Block.capacity]

end Strv

open Strv

/-- A named virtual host that inherits values and adds others: no write is outside of its
array, and the list is that of the inherited values followed by the added ones, exactly if
there is nothing to inherit, nothing is added, or at least 95 values are inherited. -/
theorem multi_line_vals_iff (inherited added : List CStr) :
    (∃ v, (unpacked inherited).add_lines added = some v ∧ v.Lists (inherited ++ added)) ↔
      inherited = [] ∨ added = [] ∨ DEFAULT_CONFIG_ENTRIES - 1 ≤ inherited.length := by
  cases added with
  | nil =>
    refine iff_of_true ⟨_, rfl, ?_⟩ (.inr (.inl rfl))
    rw [List.append_nil]
    exact unpacked_lists inherited
  | cons value added =>
    have hadd := unpacked_add inherited value
    rw [or_iff_right (a := value :: added = []) (by simp)]
    split_ifs at hadd with hcond
    · obtain ⟨v₁, hadd, hgrown⟩ := hadd
      obtain ⟨v, hlines, hlists⟩ := hgrown.add_lines added
      refine iff_of_true ⟨v, ?_, ?_⟩ hcond
      · rw [add_lines, List.foldlM_cons, hadd]
        exact hlines
      · rwa [List.append_assoc] at hlists
    · refine iff_of_false ?_ hcond
      rintro ⟨v, hlines, -⟩
      rw [add_lines, List.foldlM_cons, hadd] at hlines
      exact nomatch hlines

/-- One inherited DNS server, and one that is added: the write is outside of the array. -/
theorem inherited_list_overrun :
    (unpacked ["192.0.2.1".toList]).add_lines ["192.0.2.2".toList] = none ∧
    (unpacked ["192.0.2.1".toList]).varname.map Block.capacity = some 1 := by
  decide +kernel

end Ocserv

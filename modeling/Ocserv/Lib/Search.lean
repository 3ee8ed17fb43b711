import Mathlib.Data.List.Basic
import Mathlib.Data.List.Infix

/-!
# Searching a text

`index sub s` is where `sub` stands first in `s`, and `find f sub s` is what follows from there on,
where elements are compared by `f`.  A text that contains no separator is found on one side of a
separator (`find_append`); one that ends with a separator is found where the text before a
separator ends in it (`find_concat`).
-/

namespace Search

open List Option

variable {α β : Type} [DecidableEq β]

/-- The first place at which a text stands. -/
def index (sub : List β) : List β → Option Nat
  | [] => if sub.isEmpty then some 0 else none
  | b :: s => if sub.isPrefixOf (b :: s) then some 0 else (index sub s).map (· + 1)

/-- What stands there, and all that follows. -/
def find (f : α → β) (sub s : List α) : Option (List α) :=
  (index (sub.map f) (s.map f)).map fun i => s.drop i

/-! ## Places -/

variable {sub s t : List β} {x : β} {i : Nat}

theorem index_cons_of_pos {b : β} (h : sub <+: b :: s) : index sub (b :: s) = some 0 :=
  if_pos <| isPrefixOf_iff_prefix.2 h

theorem index_cons_of_neg {b : β} (h : ¬ sub <+: b :: s) :
    index sub (b :: s) = (index sub s).map (· + 1) :=
  if_neg (mt isPrefixOf_iff_prefix.1 h)

theorem index_nil_right (sub : List β) : index sub [] = if sub = [] then some 0 else none := by
  cases sub <;> rfl

theorem index_add_length_le (h : index sub s = some i) : i + sub.length ≤ s.length := by
  induction s generalizing i with
  | nil =>
    rw [index_nil_right] at h
    split at h
    next hsub =>
      cases h
      simp [hsub]
    next => cases h
  | cons b s ih =>
    by_cases hstart : sub <+: b :: s
    · rw [index_cons_of_pos hstart] at h
      cases h
      have hlen := hstart.length_le
      omega
    · rw [index_cons_of_neg hstart] at h
      obtain ⟨j, hj, rfl⟩ := map_eq_some_iff.1 h
      have hrest := ih hj
      rw [length_cons]
      omega

/-- A text with an element that does not occur. -/
theorem index_eq_none (hsub : x ∈ sub) (hs : x ∉ s) : index sub s = none := by
  induction s with
  | nil =>
    rw [index_nil_right, if_neg (ne_nil_of_mem hsub)]
  | cons b s ih =>
    have hstart : ¬ sub <+: b :: s := fun h => hs (h.subset hsub)
    rw [index_cons_of_neg hstart, ih fun hx => hs (mem_cons_of_mem b hx)]
    rfl

omit [DecidableEq β] in
/-- A text without the separator begins before it. -/
theorem start_append_iff (hsub : x ∉ sub) : sub <+: s ++ x :: t ↔ sub <+: s := by
  induction s generalizing sub with
  | nil =>
    cases sub with
    | nil => simp
    | cons b sub =>
      have hne : b ≠ x := fun h => hsub (h ▸ List.mem_cons_self)
      simp [hne]
  | cons c s ih =>
    cases sub with
    | nil => simp
    | cons b sub =>
      rw [cons_append, cons_prefix_cons, cons_prefix_cons,
        ih fun hx => hsub (mem_cons_of_mem b hx)]

omit [DecidableEq β] in
/-- A text that ends with the separator reaches up to it. -/
theorem start_concat_iff (hsub : x ∉ sub) (hs : x ∉ s) : sub ++ [x] <+: s ++ x :: t ↔ sub = s := by
  induction s generalizing sub with
  | nil =>
    cases sub with
    | nil => simp
    | cons b sub =>
      have hne : b ≠ x := fun h => hsub (h ▸ List.mem_cons_self)
      simp [hne]
  | cons c s ih =>
    have hc : x ≠ c := fun h => hs (h ▸ List.mem_cons_self)
    cases sub with
    | nil => simp [hc]
    | cons b sub =>
      rw [cons_append, cons_append, cons_prefix_cons, List.cons.injEq,
        ih (fun hx => hsub (mem_cons_of_mem b hx))
          (fun hx => hs (mem_cons_of_mem c hx))]

theorem index_append (hsub : x ∉ sub) (s t : List β) :
    index sub (s ++ x :: t) = (index sub s).or ((index sub t).map (s.length + 1 + ·)) := by
  induction s with
  | nil =>
    rw [nil_append, index_nil_right]
    by_cases hnil : sub = []
    · rw [if_pos hnil, index_cons_of_pos (by simp [hnil])]
      rfl
    · have hstart : ¬ sub <+: x :: t := by
        rw [← nil_append (x :: t), start_append_iff hsub]
        simpa using hnil
      rw [if_neg hnil, index_cons_of_neg hstart]
      simp [Nat.add_comm]
  | cons c s ih =>
    by_cases hstart : sub <+: c :: s
    · rw [index_cons_of_pos hstart, cons_append,
        index_cons_of_pos (by rwa [← cons_append, start_append_iff hsub])]
      rfl
    · rw [index_cons_of_neg hstart, cons_append,
        index_cons_of_neg (by rwa [← cons_append, start_append_iff hsub]), ih]
      cases index sub s with
      | some i => rfl
      | none =>
        cases index sub t with
        | none => rfl
        | some j =>
          simp only [map_some, none_or, map_none, length_cons]
          congr 1
          omega

theorem index_concat (hsub : x ∉ sub) (hs : x ∉ s) (ht : x ∉ t) :
    index (sub ++ [x]) (s ++ x :: t) =
      if sub <:+ s then some (s.length - sub.length) else none := by
  induction s with
  | nil =>
    by_cases hnil : sub = []
    · rw [if_pos (by simp [hnil]), nil_append, index_cons_of_pos (by simp [hnil])]
      simp
    · have hstart : ¬ sub ++ [x] <+: x :: t := by
        rw [← nil_append (x :: t), start_concat_iff hsub hs]
        exact hnil
      rw [if_neg (by simpa using hnil), nil_append, index_cons_of_neg hstart,
        index_eq_none (by simp) ht]
      rfl
  | cons c s ih =>
    have hs' : x ∉ s := fun hx => hs (mem_cons_of_mem c hx)
    by_cases hwhole : sub = c :: s
    · have hstart : sub ++ [x] <+: c :: (s ++ x :: t) := by
        rw [← cons_append, start_concat_iff hsub hs]
        exact hwhole
      rw [cons_append, index_cons_of_pos hstart, if_pos (hwhole ▸ suffix_rfl), hwhole]
      simp
    · have hstart : ¬ sub ++ [x] <+: c :: (s ++ x :: t) := by
        rw [← cons_append, start_concat_iff hsub hs]
        exact hwhole
      have hsuffix : sub <:+ c :: s ↔ sub <:+ s := by
        rw [suffix_cons_iff, or_iff_right hwhole]
      rw [cons_append, index_cons_of_neg hstart, ih hs']
      by_cases hend : sub <:+ s
      · have hlen := hend.length_le
        rw [if_pos hend, if_pos (hsuffix.2 hend), length_cons, map_some]
        congr 1
        omega
      · rw [if_neg hend, if_neg (mt hsuffix.1 hend)]
        rfl

/-! ## What follows -/

section Find

variable {f : α → β} {y u v : List α} {a : α}

theorem find_eq_none (hy : f a ∈ y.map f) (hu : f a ∉ u.map f) : find f y u = none := by
  rw [find, index_eq_none hy hu]
  rfl

/-- What follows is an end of the text, and begins with what was found. -/
theorem suffix_of_find (h : find f y u = some v) : v <:+ u ∧ y.length ≤ v.length := by
  obtain ⟨i, hi, rfl⟩ := map_eq_some_iff.1 h
  have hle := index_add_length_le hi
  rw [length_map, length_map] at hle
  refine ⟨drop_suffix i u, ?_⟩
  rw [length_drop]
  omega

/-- A text without the separator is found on one side of it. -/
theorem find_append (hy : f a ∉ y.map f) (u v : List α) :
    find f y (u ++ a :: v) = ((find f y u).map (· ++ a :: v)).or (find f y v) := by
  rw [find, map_append, map_cons, index_append hy, length_map, find, find]
  cases hu : index (y.map f) (u.map f) with
  | some i =>
    have hle := index_add_length_le hu
    rw [length_map, length_map] at hle
    simp only [some_or, map_some]
    rw [drop_append_of_le_length (by omega)]
  | none =>
    cases index (y.map f) (v.map f) with
    | none => rfl
    | some j =>
      simp only [map_some, none_or, map_none]
      rw [drop_append, drop_of_length_le (by omega),
        show u.length + 1 + j - u.length = j + 1 by omega, drop_succ_cons,
        nil_append]

/-- A text that ends with the separator is found where the text before it has this end. -/
theorem find_concat (hy : f a ∉ y.map f) (hu : f a ∉ u.map f) (hv : f a ∉ v.map f) :
    find f (y ++ [a]) (u ++ a :: v) =
      if y.map f <:+ u.map f then some (u.drop (u.length - y.length) ++ a :: v) else none := by
  rw [find, map_append, map_append, map_singleton, map_cons,
    index_concat hy hu hv]
  split
  · rw [map_some, length_map, length_map,
      drop_append_of_le_length (Nat.sub_le _ _)]
  · rfl

end Find

end Search

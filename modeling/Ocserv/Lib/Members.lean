import Mathlib.Data.List.Perm.Basic
import Mathlib.Data.List.Nodup

/-!
# Lists whose elements are found by a key

Records with an identity of their own are kept in a list, and are written back or taken
out by that identity.  When no two records share one, the list is one of its records and
the others, in some order, and so are the list after a record has been written back
(`perm_store`) and the list after it has been taken out (`perm_cons_others`).
-/

namespace Members

variable {α κ : Type*} [DecidableEq κ] {key : α → κ} {l : List α} {x x' y : α}

/-- The elements under other keys. -/
def others (key : α → κ) (k : κ) (l : List α) : List α := l.filter fun y => key y != k

/-- Write an element back. -/
def store (key : α → κ) (x : α) (l : List α) : List α :=
  l.map fun y => if key y = key x then x else y

theorem perm_cons_others (hnodup : (l.map key).Nodup) (hmem : x ∈ l) :
    l.Perm (x :: others key (key x) l) := by
  induction l with
  | nil => simp at hmem
  | cons y l ih =>
    obtain ⟨hy, hnodup⟩ := List.nodup_cons.1 hnodup
    rcases List.mem_cons.1 hmem with rfl | hmem
    · have hothers : l.filter (fun z => key z != key x) = l := by
        refine List.filter_eq_self.2 fun z hz => ?_
        rw [bne_iff_ne]
        exact fun heq => hy (heq ▸ List.mem_map_of_mem hz)
      rw [others, List.filter_cons_of_neg (by simp), hothers]
    · have hne : key y ≠ key x := fun heq => hy (heq ▸ List.mem_map_of_mem hmem)
      rw [others, List.filter_cons_of_pos (by simpa using hne)]
      exact ((ih hnodup hmem).cons y).trans (List.Perm.swap x y _)

theorem key_ite (key : α → κ) (x y : α) : key (if key y = key x then x else y) = key y := by
  split
  · next heq => exact heq.symm
  · rfl

theorem map_store : (store key x l).map key = l.map key := by
  rw [store, List.map_map]
  exact List.map_congr_left fun y _ => key_ite key x y

theorem mem_store : y ∈ store key x l ↔ y = x ∧ key x ∈ l.map key ∨ y ∈ l ∧ key y ≠ key x := by
  simp only [store, List.mem_map]
  constructor
  · rintro ⟨z, hz, heq⟩
    split at heq
    · next hkey => exact .inl ⟨heq.symm, z, hz, hkey⟩
    · next hkey => exact .inr ⟨heq ▸ hz, heq ▸ hkey⟩
  · rintro (⟨rfl, z, hz, hkey⟩ | ⟨hy, hkey⟩)
    · exact ⟨z, hz, if_pos hkey⟩
    · exact ⟨y, hy, if_neg hkey⟩

theorem store_store (hkey : key y = key x) : store key y (store key x l) = store key y l := by
  simp only [store, List.map_map]
  refine List.map_congr_left fun z _ => ?_
  rw [Function.comp_apply, key_ite key]
  split
  · rfl
  · next hz => exact if_neg (hkey ▸ hz)

theorem store_comm (hne : key x ≠ key y) :
    store key y (store key x l) = store key x (store key y l) := by
  simp only [store, List.map_map]
  refine List.map_congr_left fun z _ => ?_
  by_cases hx : key z = key x
  · simp [hx, hne]
  · by_cases hy : key z = key y
    · simp [hy, Ne.symm hne]
    · simp [hx, hy]

theorem store_self (hnodup : (l.map key).Nodup) (hmem : x ∈ l) : store key x l = l := by
  conv_rhs => rw [← List.map_id l]
  refine List.map_congr_left fun y hy => ?_
  split
  · next hkey => exact List.inj_on_of_nodup_map hnodup hmem hy hkey.symm
  · rfl

theorem find?_store (k : κ) : (store key x l).find? (fun y => key y = k) =
    if k = key x then (l.find? fun y => key y = k).map fun _ => x
    else l.find? fun y => key y = k := by
  rw [store, List.find?_map]
  simp only [Function.comp_def, key_ite key]
  cases hfind : l.find? fun y => key y = k with
  | none => simp
  | some y =>
    have hy : key y = k := by simpa using List.find?_some hfind
    rw [Option.map_some, hy, apply_ite some]
    rfl

theorem others_store : others key (key x) (store key x l) = others key (key x) l := by
  induction l with
  | nil => rfl
  | cons y l ih =>
    rw [others, others] at ih
    by_cases hy : key y = key x <;> simp [others, store, hy] <;> simpa [store] using ih

theorem perm_store (hnodup : (l.map key).Nodup) (hmem : x ∈ l) (hkey : key x' = key x) :
    (store key x' l).Perm (x' :: others key (key x) l) := by
  have hmem' : x' ∈ store key x' l :=
    List.mem_map.2 ⟨x, hmem, if_pos hkey.symm⟩
  have hperm := perm_cons_others (by rwa [map_store]) hmem'
  rwa [others_store, hkey] at hperm

end Members

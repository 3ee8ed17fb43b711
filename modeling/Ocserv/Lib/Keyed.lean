import Ocserv.Lib.HTable
import Ocserv.Lib.Members

/-!
# A hash table as a finite map

The elements of a table carry a key, are hashed by it, and no two of them share
one.  `Keyed key hash t` is this invariant; under it `lookup` reads the table as a
finite map from keys to elements, and each way to change the table is given by what
it does to that map:

* `lookup_add`: an element under a key that was not in use;
* `lookup_update`: an element whose other fields have changed in place;
* `lookup_remove`: the element under one key taken out;
* `lookup_sweep`: all elements that meet a predicate taken out in one pass.
-/

namespace HTable

open List Option

universe u v

variable {α : Type u} {κ : Type v} [DecidableEq κ]

namespace Table

/-- The element stored under a key. -/
def lookup (key : α → κ) (hash : κ → Nat) (t : Table α) (k : κ) : Option α :=
  t.get (hash k) fun x => key x = k

/-- Write back an element that has changed in place. -/
def update (key : α → κ) (t : Table α) (x : α) : Table α :=
  t.mapElems fun y => if key y = key x then x else y

/-- Take out the element stored under a key. -/
def remove (key : α → κ) (hash : κ → Nat) (t : Table α) (k : κ) : Table α :=
  (t.del (hash k) fun x => key x = k).1

end Table

/-- Every element is hashed by its key, and the keys of two elements differ. -/
structure Keyed (key : α → κ) (hash : κ → Nat) (t : Table α) : Prop where
  wf : t.WF (hash ∘ key)
  nodup : (t.toList.map key).Nodup

namespace Keyed

variable {key : α → κ} {hash : κ → Nat} {t t' : Table α} {x y : α} {k : κ}

omit [DecidableEq κ] in
theorem init : Keyed key hash (Table.init : Table α) := ⟨.init, nodup_nil⟩

theorem lookup_eq_some (h : Keyed key hash t) :
    t.lookup key hash k = some x ↔ x ∈ t.toList ∧ key x = k := by
  constructor
  · intro hget
    obtain ⟨hmem, -, hkey⟩ := h.wf.get_some hget
    exact ⟨hmem, of_decide_eq_true hkey⟩
  · rintro ⟨hmem, rfl⟩
    cases hget : t.lookup key hash (key x) with
    | none => exact absurd rfl (of_decide_eq_false (h.wf.get_none hget hmem rfl))
    | some y =>
      obtain ⟨hmem', -, hkey⟩ := h.wf.get_some hget
      rw [inj_on_of_nodup_map h.nodup hmem' hmem (of_decide_eq_true hkey)]

theorem lookup_eq_none (h : Keyed key hash t) :
    t.lookup key hash k = none ↔ ∀ x ∈ t.toList, key x ≠ k := by
  rw [eq_none_iff_forall_ne_some]
  constructor
  · intro hnone x hx hkey
    exact hnone x (h.lookup_eq_some.2 ⟨hx, hkey⟩)
  · intro hall x hx
    exact hall x (h.lookup_eq_some.1 hx).1 (h.lookup_eq_some.1 hx).2

/-- Two tables agree at a key when they hold the same element under it. -/
theorem lookup_congr (h : Keyed key hash t) (h' : Keyed key hash t')
    (hmem : ∀ x, key x = k → (x ∈ t'.toList ↔ x ∈ t.toList)) :
    t'.lookup key hash k = t.lookup key hash k := by
  ext x
  rw [h.lookup_eq_some, h'.lookup_eq_some]
  exact and_congr_left fun hkey => hmem x hkey

theorem add (h : Keyed key hash t) (hnew : t.lookup key hash (key x) = none) :
    Keyed key hash (t.add (hash ∘ key) (hash (key x)) x) where
  wf := h.wf.add x
  nodup := by
    rw [((h.wf.toList_add (hash (key x)) x).map key).nodup_iff, map_cons, nodup_cons]
    refine ⟨fun hmem => ?_, h.nodup⟩
    obtain ⟨y, hy, hkey⟩ := mem_map.1 hmem
    exact h.lookup_eq_none.1 hnew y hy hkey

theorem lookup_add (h : Keyed key hash t) (hnew : t.lookup key hash (key x) = none) :
    (t.add (hash ∘ key) (hash (key x)) x).lookup key hash k =
      if k = key x then some x else t.lookup key hash k := by
  have h' := h.add hnew
  split
  · next heq =>
    rw [h'.lookup_eq_some]
    exact ⟨h.wf.mem_toList_add.2 (.inl rfl), heq.symm⟩
  · next hne =>
    apply h.lookup_congr h'
    intro y hkey
    rw [h.wf.mem_toList_add]
    have hyx : y ≠ x := fun heq => hne (by rw [← hkey, heq])
    simp [hyx]

theorem update (h : Keyed key hash t) (x : α) : Keyed key hash (t.update key x) := by
  refine ⟨h.wf.mapElems fun y _ => congrArg hash (Members.key_ite key x y), ?_⟩
  rw [Table.update, Table.toList_mapElems]
  exact (Members.map_store : (Members.store key x t.toList).map key = _) ▸ h.nodup

theorem mem_update (h : Keyed key hash t) : y ∈ (t.update key x).toList ↔
    (y = x ∧ (t.lookup key hash (key x)).isSome) ∨ (y ∈ t.toList ∧ key y ≠ key x) := by
  have hsome : (t.lookup key hash (key x)).isSome ↔ key x ∈ t.toList.map key := by
    rw [isSome_iff_exists, List.mem_map]
    simp only [h.lookup_eq_some]
  rw [hsome, Table.update, Table.toList_mapElems]
  exact Members.mem_store

theorem lookup_update (h : Keyed key hash t) : (t.update key x).lookup key hash k =
    if k = key x then (t.lookup key hash k).map fun _ => x else t.lookup key hash k := by
  have h' := h.update x
  split
  · next heq =>
    ext y
    rw [h'.lookup_eq_some, h.mem_update, heq]
    cases hx : t.lookup key hash (key x) with
    | none => simp
    | some z =>
      simp only [isSome_some, and_true, map_some, some.injEq]
      exact ⟨fun hy => (hy.1.resolve_right fun hne => hne.2 hy.2).symm,
        fun hy => ⟨.inl hy.symm, hy ▸ rfl⟩⟩
  · next hne =>
    apply h.lookup_congr h'
    intro y hkey
    rw [h.mem_update]
    have hyx : y ≠ x := fun heq => hne (by rw [← hkey, heq])
    have hkeys : key y ≠ key x := fun heq => hne (by rw [← hkey, heq])
    simp [hyx, hkeys]

theorem remove_perm (h : Keyed key hash t) (hx : t.lookup key hash k = some x) :
    t.toList.Perm (x :: (t.remove key hash k).toList) := by
  obtain ⟨hmem, rfl⟩ := h.lookup_eq_some.1 hx
  have hex : ∃ y ∈ t.toList, (hash ∘ key) y = hash (key x) ∧ decide (key y = key x) :=
    ⟨x, hmem, rfl, decide_eq_true rfl⟩
  obtain ⟨y, hy, -, hkey, hperm⟩ := h.wf.perm_del hex
  have hyx : y = x := inj_on_of_nodup_map h.nodup hy hmem (of_decide_eq_true hkey)
  rw [hyx] at hperm
  exact hperm

theorem remove_of_lookup_none (h : Keyed key hash t) (hx : t.lookup key hash k = none) :
    t.remove key hash k = t := by
  have hnone := h.lookup_eq_none.1 hx
  rw [Table.remove, h.wf.del_of_forall fun x hmem _ => decide_eq_false (hnone x hmem)]

theorem remove (h : Keyed key hash t) (k : κ) : Keyed key hash (t.remove key hash k) := by
  refine ⟨h.wf.del _ _, ?_⟩
  cases hx : t.lookup key hash k with
  | none =>
    rw [h.remove_of_lookup_none hx]
    exact h.nodup
  | some x =>
    have hnodup := ((h.remove_perm hx).map key).nodup_iff.1 h.nodup
    exact (nodup_cons.1 hnodup).2

theorem lookup_remove (h : Keyed key hash t) (k' : κ) :
    (t.remove key hash k').lookup key hash k = if k = k' then none else t.lookup key hash k := by
  have h' := h.remove k'
  cases hx : t.lookup key hash k' with
  | none =>
    rw [h.remove_of_lookup_none hx]
    split
    · next heq => rw [heq, hx]
    · rfl
  | some x =>
    have hkey : key x = k' := (h.lookup_eq_some.1 hx).2
    have hperm := h.remove_perm hx
    split
    · next heq =>
      rw [h'.lookup_eq_none]
      intro y hy hy'
      have hnodup := (hperm.map key).nodup_iff.1 h.nodup
      rw [map_cons, nodup_cons, hkey] at hnodup
      exact hnodup.1 (mem_map.2 ⟨y, hy, hy'.trans heq⟩)
    · next hne =>
      apply h.lookup_congr h'
      intro y hy
      rw [hperm.mem_iff, mem_cons]
      have hyx : y ≠ x := fun heq => hne (by rw [← hy, heq, hkey])
      simp [hyx]

omit [DecidableEq κ] in
theorem sweep (h : Keyed key hash t) (p : α → Bool) : Keyed key hash (t.sweep p).1 := by
  refine ⟨h.wf.sweep p, ?_⟩
  rw [h.wf.toList_sweep]
  exact h.nodup.sublist (filter_sublist.map key)

theorem lookup_sweep (h : Keyed key hash t) (p : α → Bool) :
    (t.sweep p).1.lookup key hash k = (t.lookup key hash k).filter fun x => !p x := by
  ext x
  rw [(h.sweep p).lookup_eq_some, h.wf.toList_sweep, mem_filter,
    filter_eq_some_iff, h.lookup_eq_some]
  exact and_right_comm

end Keyed
end HTable

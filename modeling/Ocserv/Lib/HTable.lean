import Mathlib.Data.List.Basic
import Mathlib.Data.List.Perm.Basic
import Mathlib.Data.List.Rotate

/-!
# An open-addressing hash table with linear probing

The table is an array of slots; an element is stored at the first slot that is
not occupied, counted cyclically from the bucket its hash names.  Removal leaves
a *deleted* marker, so that a probe does not stop at the hole, and the table is
rebuilt when it gets too full or has collected too many markers.

`WF rehash t` is the representation invariant: every stored element can be
reached by a probe from its bucket without meeting an empty slot, and at least
one slot is empty.  Under it the table behaves as the collection `toList t` of
its elements:

* `exists_candidate_iff`, `get_some`, `get_none`: a probe for a hash enumerates
  exactly the elements with that hash;
* `toList_add`, `toList_del`, `toList_sweep`: the three ways to change a table,
  each of which keeps `WF`.

`rehash` is an argument because the elements may be handles on objects whose
hash is read from somewhere else.
-/

namespace HTable

open List Option

universe u

/-- A slot of the table. -/
inductive Slot (α : Type u)
  | empty
  | deleted
  | valid (hash : Nat) (elem : α)
deriving DecidableEq, Repr

/-- The element stored in a slot. -/
def Slot.elem? {α : Type u} : Slot α → Option α
  | .valid _ x => some x
  | _ => none

/-- Whether a probe goes on after this slot. -/
def Slot.used {α : Type u} : Slot α → Bool
  | .empty => false
  | _ => true

/-- Whether an element is stored in this slot. -/
def Slot.isValid {α : Type u} : Slot α → Bool
  | .valid _ _ => true
  | _ => false

/-- A hash table with its two counters. -/
structure Table (α : Type u) where
  slots : List (Slot α)
  elems : Nat
  deleted : Nat
deriving DecidableEq, Repr

variable {α : Type u}

@[simp] theorem Slot.elem?_valid (h : Nat) (x : α) : (Slot.valid h x).elem? = some x := rfl
@[simp] theorem Slot.elem?_empty : (Slot.empty : Slot α).elem? = none := rfl
@[simp] theorem Slot.elem?_deleted : (Slot.deleted : Slot α).elem? = none := rfl

theorem Slot.elem?_eq_some {s : Slot α} {x : α} : s.elem? = some x ↔ ∃ h, s = .valid h x := by
  cases s <;> simp [Slot.elem?]

theorem Slot.isValid_iff {s : Slot α} : s.isValid = true ↔ ∃ h x, s = .valid h x := by
  cases s <;> simp [Slot.isValid]

namespace Table

/-- The table before the first insertion: a single empty slot. -/
def init : Table α := ⟨[.empty], 0, 0⟩

def size (t : Table α) : Nat := t.slots.length

/-- The number of elements at which the table is doubled. -/
def max (t : Table α) : Nat := 3 * t.size / 4

/-- The number of used slots at which the table is rebuilt. -/
def maxWithDeleted (t : Table α) : Nat := 9 * t.size / 10

/-- The slot with index `off`, taken cyclically. -/
def slotAt (t : Table α) (off : Nat) : Slot α := t.slots.getD (off % t.size) .empty

/-- The elements of the table, in slot order. -/
def toList (t : Table α) : List α := t.slots.filterMap Slot.elem?

/-- The candidates for hash `h` from offset `off` on: the probe stops at the
first empty slot. -/
def candidatesFrom (t : Table α) (h : Nat) : Nat → Nat → List (Nat × α)
  | 0, _ => []
  | fuel + 1, off =>
    match t.slotAt off with
    | .empty => []
    | .deleted => candidatesFrom t h fuel (off + 1)
    | .valid h' x =>
      if h' = h then (off % t.size, x) :: candidatesFrom t h fuel (off + 1)
      else candidatesFrom t h fuel (off + 1)

/-- What `firstval` and then `nextval` deliver for hash `h`, with the offsets. -/
def candidates (t : Table α) (h : Nat) : List (Nat × α) := t.candidatesFrom h t.size h

/-- The first candidate for `h` that passes the comparison. -/
def get (t : Table α) (h : Nat) (cmp : α → Bool) : Option α :=
  ((t.candidates h).find? fun c => cmp c.2).map Prod.snd

/-- The first offset from `off` on whose slot holds no element. -/
def freeFrom (t : Table α) : Nat → Nat → Nat
  | 0, off => off % t.size
  | fuel + 1, off => if (t.slotAt off).isValid then freeFrom t fuel (off + 1) else off % t.size

/-- Store `x` without looking at the fill level. -/
def place (t : Table α) (h : Nat) (x : α) : Table α :=
  { t with slots := t.slots.set (t.freeFrom t.size h) (.valid h x) }

/-- A table of `size` empty slots whose counter stands at `elems`. -/
def blank (size elems : Nat) : Table α := ⟨List.replicate size .empty, elems, 0⟩

/-- A fresh array of `size` slots with the elements of `xs` placed in order. -/
def rebuild (rehash : α → Nat) (size : Nat) (xs : List α) : Table α :=
  xs.foldl (fun t x => t.place (rehash x) x) (blank size xs.length)

/-- The elements in the order in which a rebuild visits them: cyclically, from
the first empty slot. -/
def probeOrder (t : Table α) : List α :=
  (t.slots.rotate (t.slots.findIdx fun s => !s.used)).filterMap Slot.elem?

/-- Double the table. -/
def double (rehash : α → Nat) (t : Table α) : Table α :=
  rebuild rehash (2 * t.size) t.toList

/-- Get rid of the deleted markers.  The source does this in place, visiting the
slots from the first empty one; since an element never moves past the slot it
came from, it lands where it lands in a fresh array of the same size. -/
def rehashTable (rehash : α → Nat) (t : Table α) : Table α :=
  rebuild rehash t.size t.probeOrder

/-- The table with room for one more element: doubled when it has too many, and
then rebuilt when it still has too many used slots. -/
def makeRoom (rehash : α → Nat) (t : Table α) : Table α :=
  let t := if t.elems + 1 > t.max then t.double rehash else t
  if t.elems + 1 + t.deleted > t.maxWithDeleted then t.rehashTable rehash else t

/-- Insert `x` under hash `h`, making room first. -/
def add (rehash : α → Nat) (t : Table α) (h : Nat) (x : α) : Table α :=
  { (t.makeRoom rehash).place h x with elems := (t.makeRoom rehash).elems + 1 }

/-- Mark the slot at `off` as deleted. -/
def delval (t : Table α) (off : Nat) : Table α :=
  { slots := t.slots.set off .deleted, elems := t.elems - 1, deleted := t.deleted + 1 }

/-- Remove the first candidate for `h` that passes the comparison; the flag says
whether there was one. -/
def del (t : Table α) (h : Nat) (cmp : α → Bool) : Table α × Bool :=
  match (t.candidates h).find? fun c => cmp c.2 with
  | some c => (t.delval c.1, true)
  | none => (t, false)

/-- Walk over the slots from `off` on, deleting on the way the elements that
meet `p`; the second component lists them in the order visited. -/
def sweepFrom (p : α → Bool) : Nat → Nat → Table α → Table α × List α
  | 0, _, t => (t, [])
  | fuel + 1, off, t =>
    match t.slotAt off with
    | .valid _ x =>
      if p x then
        let r := sweepFrom p fuel (off + 1) (t.delval off)
        (r.1, x :: r.2)
      else sweepFrom p fuel (off + 1) t
    | _ => sweepFrom p fuel (off + 1) t

/-- Delete every element that meets `p` in one pass over the table. -/
def sweep (p : α → Bool) (t : Table α) : Table α × List α := sweepFrom p t.size 0 t

/-- The first element in slot order that meets `p`, with its offset. -/
def firstFrom (p : α → Bool) (t : Table α) : Nat → Nat → Option (Nat × α)
  | 0, _ => none
  | fuel + 1, off =>
    match t.slotAt off with
    | .valid _ x => if p x then some (off, x) else firstFrom p t fuel (off + 1)
    | _ => firstFrom p t fuel (off + 1)

/-- Delete the first element in slot order that meets `p`. -/
def removeFirst (p : α → Bool) (t : Table α) : Table α × Option α :=
  match t.firstFrom p t.size 0 with
  | some c => (t.delval c.1, some c.2)
  | none => (t, none)

/-- Apply `f` to every element where it stands. -/
def mapElems (f : α → α) (t : Table α) : Table α :=
  { t with slots := t.slots.map fun
      | .valid h x => .valid h (f x)
      | s => s }

/-! ## Slots and elements -/

theorem slots_getElem? {t : Table α} {off : Nat} (h : off < t.size) :
    t.slots[off]? = some (t.slotAt off) := by
  have hlen : off < t.slots.length := h
  simp [slotAt, Nat.mod_eq_of_lt h, hlen]

theorem slotAt_mod (t : Table α) (off : Nat) : t.slotAt (off % t.size) = t.slotAt off := by
  simp [slotAt]

theorem mem_toList {t : Table α} {x : α} :
    x ∈ t.toList ↔ ∃ off < t.size, ∃ h, t.slotAt off = .valid h x := by
  simp only [toList, mem_filterMap, Slot.elem?_eq_some]
  constructor
  · rintro ⟨s, hs, h, rfl⟩
    obtain ⟨off, hoff⟩ := List.getElem?_of_mem hs
    have hlt : off < t.size := (List.getElem?_eq_some_iff.1 hoff).1
    rw [slots_getElem? hlt] at hoff
    exact ⟨off, hlt, h, some.inj hoff⟩
  · rintro ⟨off, hoff, h, heq⟩
    exact ⟨_, mem_of_getElem? (slots_getElem? hoff), h, heq⟩

/-! ## Probing -/

theorem mem_candidatesFrom {t : Table α} {h o : Nat} {x : α} {fuel off : Nat} :
    (o, x) ∈ t.candidatesFrom h fuel off ↔
      ∃ k < fuel, o = (off + k) % t.size ∧ t.slotAt (off + k) = .valid h x ∧
        ∀ j < k, t.slotAt (off + j) ≠ .empty := by
  induction fuel generalizing off with
  | zero => simp [candidatesFrom]
  | succ fuel ih =>
    -- a candidate is in this slot, or one from the next offset on whose path starts here
    have hnext : ∀ k, off + 1 + k = off + (k + 1) := fun k => by omega
    have ih := @ih (off + 1)
    simp only [hnext] at ih
    rw [Nat.exists_lt_succ_left]
    simp only [Nat.forall_lt_succ_left, Nat.add_zero]
    cases hs : t.slotAt off with
    | empty => simp [candidatesFrom, hs]
    | deleted => simp [candidatesFrom, hs, ih]
    | valid h' y =>
      by_cases hh : h' = h
      · simp [candidatesFrom, hs, hh, ih, eq_comm]
      · simp [candidatesFrom, hs, hh, ih]

/-! ## The representation invariant -/

/-- The number of slots a probe does not stop at. -/
def usedCount (t : Table α) : Nat := t.slots.countP Slot.used

/-- The element in slot `off` is stored under its own hash, and no slot between
its bucket and `off` is empty. -/
def Placed (rehash : α → Nat) (t : Table α) (off : Nat) : Prop :=
  ∀ h x, t.slotAt off = .valid h x → h = rehash x ∧
    ∃ d < t.size, off = (h + d) % t.size ∧ ∀ k < d, t.slotAt (h + k) ≠ .empty

/-- The representation invariant of a table, up to its fill level. -/
structure Sound (rehash : α → Nat) (t : Table α) : Prop where
  size_pos : 0 < t.size
  placed : ∀ off < t.size, t.Placed rehash off
  elems_eq : t.elems = t.toList.length
  used_le : t.usedCount ≤ t.elems + t.deleted

/-- The representation invariant of a table. -/
structure WF (rehash : α → Nat) (t : Table α) : Prop extends t.Sound rehash where
  fill_le : t.elems + t.deleted ≤ t.maxWithDeleted

variable {rehash : α → Nat} {t : Table α}

@[simp] theorem toList_init : (Table.init : Table α).toList = [] := rfl

theorem WF.init : (Table.init : Table α).WF rehash where
  size_pos := by simp [Table.init, size]
  placed := by
    intro off hoff h x hx
    simp [Table.init, size] at hoff
    subst hoff
    simp [Table.init, slotAt, size] at hx
  elems_eq := rfl
  used_le := by simp [Table.init, usedCount, Slot.used]
  fill_le := by simp [Table.init]

/-- A probe for `h` meets exactly the elements with hash `h`. -/
theorem WF.exists_candidate_iff (wf : t.WF rehash) {h : Nat} {x : α} :
    (∃ off, (off, x) ∈ t.candidates h) ↔ x ∈ t.toList ∧ rehash x = h := by
  constructor
  · rintro ⟨off, hoff⟩
    obtain ⟨k, -, -, hval, -⟩ := mem_candidatesFrom.1 hoff
    rw [← slotAt_mod] at hval
    have hlt : (h + k) % t.size < t.size := Nat.mod_lt _ wf.size_pos
    exact ⟨mem_toList.2 ⟨_, hlt, h, hval⟩, ((wf.placed _ hlt _ _ hval).1).symm⟩
  · rintro ⟨hx, rfl⟩
    obtain ⟨off, hoff, h, hval⟩ := mem_toList.1 hx
    obtain ⟨rfl, d, hd, rfl, hpath⟩ := wf.placed off hoff h x hval
    rw [slotAt_mod] at hval
    exact ⟨_, mem_candidatesFrom.2 ⟨d, hd, rfl, hval, hpath⟩⟩

theorem WF.mem_candidates (wf : t.WF rehash) {h : Nat} {x : α} :
    x ∈ (t.candidates h).map Prod.snd ↔ x ∈ t.toList ∧ rehash x = h := by
  rw [← wf.exists_candidate_iff]
  simp

theorem WF.get_some (wf : t.WF rehash) {h : Nat} {cmp : α → Bool} {x : α}
    (hget : t.get h cmp = some x) : x ∈ t.toList ∧ rehash x = h ∧ cmp x := by
  obtain ⟨c, hc, rfl⟩ := map_eq_some_iff.1 hget
  have hmem := wf.exists_candidate_iff.1 ⟨c.1, mem_of_find?_eq_some hc⟩
  exact ⟨hmem.1, hmem.2, by simpa using List.find?_some hc⟩

theorem WF.get_none (wf : t.WF rehash) {h : Nat} {cmp : α → Bool} (hget : t.get h cmp = none)
    {x : α} (hx : x ∈ t.toList) (hh : rehash x = h) : cmp x = false := by
  obtain ⟨off, hoff⟩ := wf.exists_candidate_iff.2 ⟨hx, hh⟩
  have hnone : (t.candidates h).find? (fun c => cmp c.2) = none := by
    simpa [get] using hget
  simpa using List.find?_eq_none.1 hnone _ hoff

/-! ## Storing an element in a free slot -/

theorem freeFrom_spec {fuel off : Nat} (h : ∃ k < fuel, (t.slotAt (off + k)).isValid = false) :
    ∃ d < fuel, t.freeFrom fuel off = (off + d) % t.size ∧
      (t.slotAt (off + d)).isValid = false ∧ ∀ k < d, (t.slotAt (off + k)).isValid := by
  induction fuel generalizing off with
  | zero => simp at h
  | succ fuel ih =>
    have hnext : ∀ k, off + 1 + k = off + (k + 1) := fun k => by omega
    have ih := @ih (off + 1)
    simp only [hnext] at ih
    rw [Nat.exists_lt_succ_left] at h ⊢
    simp only [Nat.forall_lt_succ_left, Nat.add_zero] at h ⊢
    cases hoff : (t.slotAt off).isValid with
    | false => simp [freeFrom, hoff]
    | true =>
      obtain ⟨d, hd, hspec⟩ := ih (h.resolve_left (by simp [hoff]))
      exact .inr ⟨d, hd, by simpa [freeFrom, hoff] using hspec⟩

theorem slots_eq_take_cons_drop {off : Nat} (h : off < t.size) :
    t.slots = t.slots.take off ++ t.slotAt off :: t.slots.drop (off + 1) := by
  have hlen : off < t.slots.length := h
  have hget : t.slots[off] = t.slotAt off := by
    have := slots_getElem? h
    rwa [List.getElem?_eq_getElem hlen, some.injEq] at this
  conv_lhs => rw [← take_append_drop off t.slots, drop_eq_getElem_cons hlen, hget]

theorem set_eq_take_cons_drop {off : Nat} (h : off < t.size) (s : Slot α) :
    t.slots.set off s = t.slots.take off ++ s :: t.slots.drop (off + 1) :=
  set_eq_take_append_cons_drop.trans (if_pos h)

theorem slotAt_set (t' : Table α) {off : Nat} {s : Slot α} (h : off < t.size)
    (hslots : t'.slots = t.slots.set off s) (k : Nat) :
    t'.slotAt k = if k % t.size = off then s else t.slotAt k := by
  have hsize : t'.size = t.size := by simp [size, hslots]
  simp only [slotAt, hsize, hslots]
  split
  · next heq =>
    have hlen : off < t.slots.length := h
    rw [heq, getD_eq_getElem?_getD, List.getElem?_set_self hlen, getD_some]
  · next hne => simp [getD_eq_getElem?_getD, Ne.symm hne]

theorem countP_set_le {off : Nat} (h : off < t.size) (s : Slot α) :
    (t.slots.set off s).countP Slot.used ≤ t.usedCount + 1 := by
  unfold usedCount
  rw [set_eq_take_cons_drop h]
  conv_rhs => rw [slots_eq_take_cons_drop h]
  simp only [countP_append, countP_cons]
  split <;> split <;> omega

theorem exists_free_of_elems_lt {h : Nat} (hlt : t.toList.length < t.size) :
    ∃ k < t.size, (t.slotAt (h + k)).isValid = false := by
  by_contra hcon
  push Not at hcon
  have hall : ∀ s ∈ t.slots, s.isValid := by
    intro s hs
    obtain ⟨off, hoff⟩ := List.getElem?_of_mem hs
    have hofflt : off < t.size := (List.getElem?_eq_some_iff.1 hoff).1
    rw [slots_getElem? hofflt] at hoff
    -- every offset is at some distance below `size` from `h`
    obtain ⟨k, hk, heq⟩ : ∃ k < t.size, (h + k) % t.size = off := by
      have hh : h % t.size < t.size := Nat.mod_lt _ (by omega)
      refine ⟨(off + t.size - h % t.size) % t.size, Nat.mod_lt _ (by omega), ?_⟩
      rw [Nat.add_mod_mod, ← Nat.mod_add_mod,
        show h % t.size + (off + t.size - h % t.size) = off + t.size by omega,
        Nat.add_mod_right, Nat.mod_eq_of_lt hofflt]
    have := hcon k hk
    rw [← slotAt_mod, heq, some.inj hoff] at this
    simpa using this
  have hlen : t.toList.length = t.slots.length := by
    rw [toList, length_filterMap_eq_countP, countP_eq_length]
    intro s hs
    obtain ⟨h, x, rfl⟩ := Slot.isValid_iff.1 (hall s hs)
    rfl
  exact absurd hlt (by rw [hlen]; exact Nat.lt_irrefl _)

@[simp] theorem size_place (h : Nat) (x : α) : (t.place h x).size = t.size := by
  simp [place, size]

theorem toList_place {h : Nat} (x : α) (hlt : t.toList.length < t.size) :
    (t.place h x).toList.Perm (x :: t.toList) := by
  obtain ⟨d, hd, hres, hfree, -⟩ := freeFrom_spec (exists_free_of_elems_lt (h := h) hlt)
  have hoff : t.freeFrom t.size h < t.size := hres ▸ Nat.mod_lt _ (by omega)
  have hnone : (t.slotAt (t.freeFrom t.size h)).elem? = none := by
    rw [hres, slotAt_mod]
    cases hs : t.slotAt (h + d) <;> simp_all [Slot.isValid]
  have hold : t.toList = (t.slots.take (t.freeFrom t.size h)).filterMap Slot.elem? ++
      (t.slots.drop (t.freeFrom t.size h + 1)).filterMap Slot.elem? := by
    conv_lhs => rw [toList, slots_eq_take_cons_drop hoff]
    simp [hnone]
  have hnew : (t.place h x).toList = (t.slots.take (t.freeFrom t.size h)).filterMap Slot.elem? ++
      x :: (t.slots.drop (t.freeFrom t.size h + 1)).filterMap Slot.elem? := by
    simp [toList, place, set_eq_take_cons_drop hoff]
  rw [hold, hnew]
  exact perm_middle

/-- Storing an element under its own hash keeps every element reachable. -/
theorem placed_place (hplaced : ∀ off < t.size, t.Placed rehash off) (x : α)
    (hlt : t.toList.length < t.size) :
    ∀ off < (t.place (rehash x) x).size, (t.place (rehash x) x).Placed rehash off := by
  obtain ⟨d, hd, hres, hfree, hbefore⟩ :=
    freeFrom_spec (exists_free_of_elems_lt (h := rehash x) hlt)
  have hoff : t.freeFrom t.size (rehash x) < t.size := hres ▸ Nat.mod_lt _ (by omega)
  have hread := slotAt_set (t.place (rehash x) x) (s := .valid (rehash x) x) hoff rfl
  -- an unused slot can only have become used
  have hmono : ∀ k, t.slotAt k ≠ .empty → (t.place (rehash x) x).slotAt k ≠ .empty := by
    intro k hk
    rw [hread]
    split
    · simp
    · exact hk
  intro off hlt' h y hy
  rw [size_place] at hlt' ⊢
  rw [hread, Nat.mod_eq_of_lt hlt'] at hy
  split at hy
  · next heq =>
    obtain ⟨rfl, rfl⟩ : h = rehash x ∧ y = x := by
      rw [Slot.valid.injEq] at hy
      exact ⟨hy.1.symm, hy.2.symm⟩
    refine ⟨rfl, d, hd, by rw [heq, hres], ?_⟩
    intro k hk
    apply hmono
    obtain ⟨h', y, hval⟩ := Slot.isValid_iff.1 (hbefore k hk)
    simp [hval]
  · obtain ⟨hh, e, he, heq, hpath⟩ := hplaced off hlt' h y hy
    exact ⟨hh, e, he, heq, fun k hk => hmono _ (hpath k hk)⟩

/-! ## Rebuilding -/

/-- `t` has `n` slots and holds the elements `xs`, with no more markers than
elements: the state of a rebuild after `xs`. -/
structure Filled (rehash : α → Nat) (n : Nat) (xs : List α) (t : Table α) : Prop where
  size_eq : t.size = n
  perm : t.toList.Perm xs
  placed : ∀ off < t.size, t.Placed rehash off
  used_le : t.usedCount ≤ xs.length

theorem Filled.blank (rehash : α → Nat) (n k : Nat) :
    (Table.blank n k : Table α).Filled rehash n [] where
  size_eq := by simp [Table.blank, size]
  perm := by
    have hnil : (Table.blank n k : Table α).toList = [] := by
      simp [Table.blank, toList, filterMap_eq_nil_iff]
    rw [hnil]
  placed := by
    intro off _ h x hx
    simp only [slotAt, Table.blank, getD_eq_getElem?_getD, List.getElem?_replicate] at hx
    split at hx <;> simp at hx
  used_le := by simp [Table.blank, usedCount, Slot.used]

theorem usedCount_place_le {h : Nat} (x : α) (hlt : t.toList.length < t.size) :
    (t.place h x).usedCount ≤ t.usedCount + 1 := by
  obtain ⟨d, -, hres, -⟩ := freeFrom_spec (exists_free_of_elems_lt (h := h) hlt)
  exact countP_set_le (hres ▸ Nat.mod_lt _ (by omega)) _

theorem Filled.place {n : Nat} {xs : List α} (hf : t.Filled rehash n xs) (x : α)
    (hlt : xs.length < n) : (t.place (rehash x) x).Filled rehash n (x :: xs) := by
  have hroom : t.toList.length < t.size := by rw [hf.perm.length_eq, hf.size_eq]; exact hlt
  have hused := usedCount_place_le (h := rehash x) x hroom
  exact
    { size_eq := by rw [size_place, hf.size_eq]
      perm := (toList_place x hroom).trans (hf.perm.cons x)
      placed := placed_place hf.placed x hroom
      used_le := Nat.le_trans hused (Nat.succ_le_succ hf.used_le) }

theorem Filled.foldl {n : Nat} (ys : List α) {xs : List α} {t : Table α}
    (hf : t.Filled rehash n xs) (hlt : ys.length + xs.length < n + 1) :
    (ys.foldl (fun t x => t.place (rehash x) x) t).Filled rehash n (ys.reverse ++ xs) := by
  induction ys generalizing xs t with
  | nil => exact hf
  | cons y ys ih =>
    simp only [length_cons] at hlt
    rw [reverse_cons, append_assoc]
    exact ih (hf.place y (by omega))
      (by simp only [cons_append, nil_append, length_cons]; omega)

theorem foldl_place_counters (ys : List α) (t : Table α) :
    (ys.foldl (fun t x => t.place (rehash x) x) t).elems = t.elems ∧
      (ys.foldl (fun t x => t.place (rehash x) x) t).deleted = t.deleted := by
  induction ys generalizing t with
  | nil => exact ⟨rfl, rfl⟩
  | cons y ys ih => exact ih (t.place (rehash y) y)

theorem Filled.rebuild (rehash : α → Nat) {n : Nat} {xs : List α} (hlen : xs.length ≤ n) :
    (Table.rebuild rehash n xs).Filled rehash n xs := by
  have hf := (Filled.blank rehash n xs.length).foldl xs (by simpa using Nat.lt_succ_of_le hlen)
  exact
    { size_eq := hf.size_eq
      perm := hf.perm.trans (by simp)
      placed := hf.placed
      used_le := by simpa [Table.rebuild] using hf.used_le }

theorem Sound.rebuild {n : Nat} {xs : List α} (hpos : 0 < n) (hlen : xs.length ≤ n) :
    (Table.rebuild rehash n xs).Sound rehash := by
  have hf := Filled.rebuild rehash hlen
  have hc : (Table.rebuild rehash n xs).elems = xs.length :=
    (foldl_place_counters xs _).1
  exact
    { size_pos := by rwa [hf.size_eq]
      placed := hf.placed
      elems_eq := by rw [hc, hf.perm.length_eq]
      used_le := by rw [hc]; exact Nat.le_add_right_of_le hf.used_le }

theorem probeOrder_perm (t : Table α) : t.probeOrder.Perm t.toList :=
  (rotate_perm _ _).filterMap _

/-! ## Insertion -/

theorem double_spec (hs : t.Sound rehash) (hle : t.elems ≤ t.maxWithDeleted) :
    (t.double rehash).Sound rehash ∧ (t.double rehash).toList.Perm t.toList ∧
      (t.double rehash).size = 2 * t.size ∧ (t.double rehash).deleted = 0 := by
  have hpos := hs.size_pos
  have hlen : t.toList.length ≤ 2 * t.size := by
    rw [← hs.elems_eq]
    simp only [maxWithDeleted] at hle
    omega
  have hf := Filled.rebuild rehash hlen
  exact ⟨.rebuild (by omega) hlen, hf.perm, hf.size_eq, (foldl_place_counters _ _).2⟩

theorem rehashTable_spec (hs : t.Sound rehash) (hle : t.elems ≤ t.size) :
    (t.rehashTable rehash).Sound rehash ∧ (t.rehashTable rehash).toList.Perm t.toList ∧
      (t.rehashTable rehash).size = t.size ∧ (t.rehashTable rehash).deleted = 0 := by
  have hlen : t.probeOrder.length ≤ t.size := by
    rwa [(probeOrder_perm t).length_eq, ← hs.elems_eq]
  have hf := Filled.rebuild rehash hlen
  exact ⟨.rebuild hs.size_pos hlen, hf.perm.trans (probeOrder_perm t), hf.size_eq,
    (foldl_place_counters _ _).2⟩

theorem makeRoom_spec (wf : t.WF rehash) :
    (t.makeRoom rehash).Sound rehash ∧ (t.makeRoom rehash).toList.Perm t.toList ∧
      (t.makeRoom rehash).elems + 1 + (t.makeRoom rehash).deleted ≤
        (t.makeRoom rehash).maxWithDeleted := by
  have hpos := wf.size_pos
  have hfill := wf.fill_le
  by_cases hmax : t.elems + 1 > t.max
  · obtain ⟨hs, hperm, hsize, hdel⟩ := double_spec wf.toSound (by omega)
    have helems : (t.double rehash).elems = t.elems := by
      rw [hs.elems_eq, hperm.length_eq, wf.elems_eq]
    -- a doubled table has room without being rebuilt
    have hroom : (t.double rehash).elems + 1 + (t.double rehash).deleted ≤
        (t.double rehash).maxWithDeleted := by
      simp only [maxWithDeleted] at hfill ⊢
      rw [helems, hdel, hsize]
      omega
    simp only [makeRoom, if_pos hmax, gt_iff_lt, Nat.not_lt.2 hroom, if_false]
    exact ⟨hs, hperm, hroom⟩
  · by_cases hroom : t.elems + 1 + t.deleted > t.maxWithDeleted
    · have hle : t.elems + 1 ≤ t.max := Nat.not_lt.1 hmax
      simp only [Table.max] at hle
      obtain ⟨hs, hperm, hsize, hdel⟩ := rehashTable_spec wf.toSound (by omega)
      have helems : (t.rehashTable rehash).elems = t.elems := by
        rw [hs.elems_eq, hperm.length_eq, wf.elems_eq]
      simp only [makeRoom, if_neg hmax, if_pos hroom]
      refine ⟨hs, hperm, ?_⟩
      simp only [maxWithDeleted] at hfill ⊢
      rw [helems, hdel, hsize]
      omega
    · simp only [makeRoom, if_neg hmax, if_neg hroom]
      exact ⟨wf.toSound, .refl _, Nat.not_lt.1 hroom⟩

private theorem room_lt (hs : t.Sound rehash)
    (hroom : t.elems + 1 + t.deleted ≤ t.maxWithDeleted) : t.toList.length < t.size := by
  have hpos := hs.size_pos
  rw [← hs.elems_eq]
  simp only [maxWithDeleted] at hroom
  omega

theorem WF.toList_add (wf : t.WF rehash) (h : Nat) (x : α) :
    (t.add rehash h x).toList.Perm (x :: t.toList) := by
  obtain ⟨hs, hperm, hroom⟩ := makeRoom_spec wf
  exact (toList_place x (room_lt hs hroom)).trans (hperm.cons x)

theorem WF.mem_toList_add (wf : t.WF rehash) {h : Nat} {x y : α} :
    y ∈ (t.add rehash h x).toList ↔ y = x ∨ y ∈ t.toList := by
  rw [(wf.toList_add h x).mem_iff, mem_cons]

/-- Insertion under the element's own hash keeps the invariant. -/
theorem WF.add (wf : t.WF rehash) (x : α) : (t.add rehash (rehash x) x).WF rehash := by
  obtain ⟨hs, hperm, hroom⟩ := makeRoom_spec wf
  have hlt := room_lt hs hroom
  have hsize : (t.add rehash (rehash x) x).size = (t.makeRoom rehash).size := size_place _ _
  exact
    { size_pos := by rw [hsize]; exact hs.size_pos
      placed := placed_place hs.placed x hlt
      elems_eq := by
        rw [(wf.toList_add (rehash x) x).length_eq, length_cons, ← hperm.length_eq,
          ← hs.elems_eq]
        rfl
      used_le := by
        have hused := usedCount_place_le (h := rehash x) x hlt
        have hle := hs.used_le
        show ((t.makeRoom rehash).place (rehash x) x).usedCount ≤
          (t.makeRoom rehash).elems + 1 + (t.makeRoom rehash).deleted
        omega
      fill_le := by
        simp only [maxWithDeleted, hsize]
        exact hroom }

/-! ## Deletion -/

@[simp] theorem size_delval (off : Nat) : (t.delval off).size = t.size := by
  simp [delval, size]

theorem perm_delval {off h : Nat} {x : α} (hlt : off < t.size)
    (hval : t.slotAt off = .valid h x) : t.toList.Perm (x :: (t.delval off).toList) := by
  have hold : t.toList = (t.slots.take off).filterMap Slot.elem? ++
      x :: (t.slots.drop (off + 1)).filterMap Slot.elem? := by
    conv_lhs => rw [toList, slots_eq_take_cons_drop hlt, hval]
    simp
  have hnew : (t.delval off).toList = (t.slots.take off).filterMap Slot.elem? ++
      (t.slots.drop (off + 1)).filterMap Slot.elem? := by
    simp [toList, delval, set_eq_take_cons_drop hlt, filterMap_cons]
  rw [hold, hnew]
  exact perm_middle

theorem usedCount_delval {off h : Nat} {x : α} (hlt : off < t.size)
    (hval : t.slotAt off = .valid h x) : (t.delval off).usedCount = t.usedCount := by
  unfold usedCount delval
  conv_rhs => rw [slots_eq_take_cons_drop hlt, hval]
  simp [set_eq_take_cons_drop hlt, countP_cons, Slot.used]

/-- Marking the slot of an element as deleted keeps the invariant. -/
theorem WF.delval (wf : t.WF rehash) {off h : Nat} {x : α} (hlt : off < t.size)
    (hval : t.slotAt off = .valid h x) : (t.delval off).WF rehash := by
  have hperm := perm_delval hlt hval
  have hlen : t.elems = (t.delval off).toList.length + 1 := by
    rw [wf.elems_eq, hperm.length_eq, length_cons]
  have hused := wf.used_le
  have hfill := wf.fill_le
  have hread := slotAt_set (t.delval off) (s := .deleted) hlt rfl
  have hcount : (t.delval off).elems + (t.delval off).deleted = t.elems + t.deleted := by
    show t.elems - 1 + (t.deleted + 1) = t.elems + t.deleted
    omega
  refine ⟨⟨?_, ?_, ?_, ?_⟩, ?_⟩
  · rw [size_delval]
    exact wf.size_pos
  · intro k hk h' y hy
    rw [size_delval] at hk ⊢
    rw [hread] at hy
    split at hy
    · simp at hy
    · obtain ⟨hh, d, hd, heq, hpath⟩ := wf.placed k hk h' y hy
      refine ⟨hh, d, hd, heq, fun j hj => ?_⟩
      rw [hread]
      split
      · simp
      · exact hpath j hj
  · show t.elems - 1 = _
    omega
  · rw [usedCount_delval hlt hval, hcount]
    exact hused
  · simp only [maxWithDeleted, size_delval] at hfill ⊢
    rw [hcount]
    exact hfill

theorem candidates_valid (wf : t.WF rehash) {h : Nat} {c : Nat × α} (hc : c ∈ t.candidates h) :
    c.1 < t.size ∧ t.slotAt c.1 = .valid h c.2 := by
  obtain ⟨k, -, ho, hval, -⟩ := mem_candidatesFrom.1 (show (c.1, c.2) ∈ t.candidates h from hc)
  rw [ho, slotAt_mod]
  exact ⟨Nat.mod_lt _ wf.size_pos, hval⟩

theorem WF.del (wf : t.WF rehash) (h : Nat) (cmp : α → Bool) : (t.del h cmp).1.WF rehash := by
  cases hfind : (t.candidates h).find? (fun c => cmp c.2) with
  | none => simpa [Table.del, hfind] using wf
  | some c =>
    obtain ⟨hlt, hval⟩ := candidates_valid wf (mem_of_find?_eq_some hfind)
    simpa [Table.del, hfind] using wf.delval hlt hval

/-- Deletion takes out one element that passes the comparison, if there is one
under that hash. -/
theorem WF.perm_del (wf : t.WF rehash) {h : Nat} {cmp : α → Bool}
    (hex : ∃ x ∈ t.toList, rehash x = h ∧ cmp x) :
    ∃ y ∈ t.toList, rehash y = h ∧ cmp y ∧ t.toList.Perm (y :: (t.del h cmp).1.toList) := by
  obtain ⟨x, hx, hh, hcmp⟩ := hex
  cases hfind : (t.candidates h).find? (fun c => cmp c.2) with
  | none =>
    obtain ⟨off, hoff⟩ := wf.exists_candidate_iff.2 ⟨hx, hh⟩
    have hfalse := List.find?_eq_none.1 hfind _ hoff
    exact absurd hcmp hfalse
  | some c =>
    have hmem := mem_of_find?_eq_some hfind
    obtain ⟨hlt, hval⟩ := candidates_valid wf hmem
    obtain ⟨hy, hrehash⟩ := wf.exists_candidate_iff.1 ⟨c.1, hmem⟩
    refine ⟨c.2, hy, hrehash, by simpa using List.find?_some hfind, ?_⟩
    simpa [Table.del, hfind] using perm_delval hlt hval

theorem WF.del_snd (wf : t.WF rehash) {h : Nat} {cmp : α → Bool} :
    (t.del h cmp).2 = true ↔ ∃ x ∈ t.toList, rehash x = h ∧ cmp x := by
  cases hfind : (t.candidates h).find? (fun c => cmp c.2) with
  | none =>
    simp only [Table.del, hfind, Bool.false_eq_true, false_iff]
    rintro ⟨x, hx, hh, hcmp⟩
    obtain ⟨off, hoff⟩ := wf.exists_candidate_iff.2 ⟨hx, hh⟩
    exact List.find?_eq_none.1 hfind _ hoff hcmp
  | some c =>
    obtain ⟨hc, hrehash⟩ := wf.exists_candidate_iff.1 ⟨c.1, mem_of_find?_eq_some hfind⟩
    have hcmp := List.find?_some hfind
    simp only [Table.del, hfind, true_iff]
    exact ⟨c.2, hc, hrehash, hcmp⟩

/-- Deleting what is not stored changes nothing. -/
theorem WF.del_of_forall (wf : t.WF rehash) {h : Nat} {cmp : α → Bool}
    (hnone : ∀ x ∈ t.toList, rehash x = h → cmp x = false) : (t.del h cmp).1 = t := by
  cases hfind : (t.candidates h).find? (fun c => cmp c.2) with
  | none => simp [Table.del, hfind]
  | some c =>
    obtain ⟨hy, hrehash⟩ := wf.exists_candidate_iff.1 ⟨c.1, mem_of_find?_eq_some hfind⟩
    have htrue : cmp c.2 := by simpa using List.find?_some hfind
    rw [hnone _ hy hrehash] at htrue
    exact absurd htrue (by decide)

/-- Deletion of one element of a table that holds nothing twice. -/
theorem WF.mem_toList_del (wf : t.WF rehash) (hnodup : t.toList.Nodup) {x : α} {cmp : α → Bool}
    (hcmp : ∀ y ∈ t.toList, cmp y = true ↔ y = x) :
    (t.del (rehash x) cmp).1.toList.Nodup ∧
      ∀ y, y ∈ (t.del (rehash x) cmp).1.toList ↔ y ∈ t.toList ∧ y ≠ x := by
  by_cases hx : x ∈ t.toList
  · obtain ⟨z, hz, -, hcz, hperm⟩ := wf.perm_del ⟨x, hx, rfl, (hcmp x hx).2 rfl⟩
    obtain rfl := (hcmp z hz).1 hcz
    obtain ⟨hnot, hrest⟩ := nodup_cons.1 (hperm.nodup_iff.1 hnodup)
    refine ⟨hrest, fun y => ?_⟩
    rw [hperm.mem_iff, mem_cons]
    constructor
    · intro hy
      exact ⟨.inr hy, fun heq => hnot (heq ▸ hy)⟩
    · rintro ⟨heq | hy, hne⟩
      · exact absurd heq hne
      · exact hy
  · have hne : ∀ y ∈ t.toList, y ≠ x := fun y hy heq => hx (heq ▸ hy)
    have hdel : (t.del (rehash x) cmp).1 = t := by
      refine wf.del_of_forall fun y hy _ => ?_
      rw [← Bool.not_eq_true, hcmp y hy]
      exact hne y hy
    rw [hdel]
    exact ⟨hnodup, fun y => ⟨fun hy => ⟨hy, hne y hy⟩, fun h => h.1⟩⟩

/-! ## Walking over the table -/

theorem drop_eq_cons {off : Nat} (h : off < t.size) :
    t.slots.drop off = t.slotAt off :: t.slots.drop (off + 1) := by
  conv_lhs => rw [slots_eq_take_cons_drop h]
  have hlen : (t.slots.take off).length = off :=
    length_take_of_le (Nat.le_of_lt h)
  rw [drop_append_of_le_length (by omega), drop_of_length_le (by omega),
    nil_append]

/-- The walk from `off` on collects the elements that meet `p` there, and leaves
the others of the table. -/
theorem WF.sweepFrom (p : α → Bool) {fuel off : Nat} {t : Table α} (wf : t.WF rehash)
    (hoff : off + fuel = t.size) :
    (Table.sweepFrom p fuel off t).1.WF rehash ∧
      (Table.sweepFrom p fuel off t).1.toList =
        (t.slots.take off).filterMap Slot.elem? ++
          ((t.slots.drop off).filterMap Slot.elem?).filter (fun x => !p x) ∧
      (Table.sweepFrom p fuel off t).2 =
        ((t.slots.drop off).filterMap Slot.elem?).filter p := by
  induction fuel generalizing off t with
  | zero =>
    have hlen : t.slots.length ≤ off := by simp only [size] at hoff; omega
    simp [Table.sweepFrom, wf, drop_of_length_le hlen, take_of_length_le hlen, toList]
  | succ fuel ih =>
    have hlt : off < t.size := by omega
    have htake : ∀ s : Slot α, ((t.slots.set off s).take (off + 1)) =
        t.slots.take off ++ [s] := by
      intro s
      rw [take_add_one, take_set_of_le (Nat.le_refl off),
        List.getElem?_set_self (show off < t.slots.length from hlt)]
      rfl
    have htake' : t.slots.take (off + 1) = t.slots.take off ++ [t.slotAt off] := by
      rw [take_add_one, slots_getElem? hlt]
      rfl
    have hskip := @ih (off + 1) t wf (by omega)
    rw [drop_eq_cons hlt]
    cases hs : t.slotAt off with
    | empty | deleted => simpa [Table.sweepFrom, hs, htake', filterMap_cons] using hskip
    | valid h x =>
      by_cases hp : p x
      · have hstep := @ih (off + 1) _ (wf.delval hlt hs) (by rw [size_delval]; omega)
        simp only [Table.delval, htake, drop_set_of_lt (Nat.lt_succ_self off)] at hstep
        simpa [Table.sweepFrom, hs, hp, Table.delval, filterMap_cons] using hstep
      · simpa [Table.sweepFrom, hs, hp, htake'] using hskip

theorem WF.sweep (wf : t.WF rehash) (p : α → Bool) : (t.sweep p).1.WF rehash :=
  (wf.sweepFrom p (Nat.zero_add _)).1

/-- A sweep leaves the elements that do not meet `p`. -/
theorem WF.toList_sweep (wf : t.WF rehash) (p : α → Bool) :
    (t.sweep p).1.toList = t.toList.filter (fun x => !p x) := by
  simpa [Table.sweep, toList] using (wf.sweepFrom p (Nat.zero_add _)).2.1

/-- A sweep reports the elements that meet `p`. -/
theorem WF.swept_sweep (wf : t.WF rehash) (p : α → Bool) :
    (t.sweep p).2 = t.toList.filter p := by
  simpa [Table.sweep, toList] using (wf.sweepFrom p (Nat.zero_add _)).2.2

theorem firstFrom_spec (p : α → Bool) {fuel off : Nat} (hoff : off + fuel = t.size) :
    (t.firstFrom p fuel off).map Prod.snd =
        ((t.slots.drop off).filterMap Slot.elem?).find? p ∧
      ∀ c, t.firstFrom p fuel off = some c →
        c.1 < t.size ∧ ∃ h, t.slotAt c.1 = .valid h c.2 := by
  induction fuel generalizing off with
  | zero =>
    have hlen : t.slots.length ≤ off := by simp only [size] at hoff; omega
    simp [firstFrom, drop_of_length_le hlen]
  | succ fuel ih =>
    have hlt : off < t.size := by omega
    have hskip := @ih (off + 1) (by omega)
    rw [drop_eq_cons hlt]
    cases hs : t.slotAt off with
    | empty | deleted => simpa [firstFrom, hs, filterMap_cons] using hskip
    | valid h x =>
      by_cases hp : p x
      · simp only [firstFrom, hs, hp, if_true]
        refine ⟨by simp [hp], ?_⟩
        rintro c ⟨⟩
        exact ⟨hlt, h, hs⟩
      · simpa [firstFrom, hs, hp] using hskip

theorem removeFirst_snd (p : α → Bool) (t : Table α) :
    (t.removeFirst p).2 = t.toList.find? p := by
  have hspec := (firstFrom_spec (t := t) p (Nat.zero_add _)).1
  rw [drop_zero] at hspec
  rw [toList, ← hspec]
  cases hf : t.firstFrom p t.size 0 <;> simp [removeFirst, hf]

theorem WF.removeFirst (wf : t.WF rehash) (p : α → Bool) : (t.removeFirst p).1.WF rehash := by
  cases hf : t.firstFrom p t.size 0 with
  | none => simpa [Table.removeFirst, hf] using wf
  | some c =>
    obtain ⟨hlt, h, hval⟩ := (firstFrom_spec p (Nat.zero_add _)).2 c hf
    simpa [Table.removeFirst, hf] using wf.delval hlt hval

/-- Removing the first match takes exactly that element out. -/
theorem perm_removeFirst {p : α → Bool} {x : α} (hx : (t.removeFirst p).2 = some x) :
    t.toList.Perm (x :: (t.removeFirst p).1.toList) := by
  cases hf : t.firstFrom p t.size 0 with
  | none => simp [removeFirst, hf] at hx
  | some c =>
    obtain ⟨hlt, h, hval⟩ := (firstFrom_spec p (Nat.zero_add _)).2 c hf
    obtain rfl : c.2 = x := by simpa [removeFirst, hf] using hx
    simpa [removeFirst, hf] using perm_delval hlt hval

theorem removeFirst_of_none {p : α → Bool} (hx : (t.removeFirst p).2 = none) :
    (t.removeFirst p).1 = t := by
  cases hf : t.firstFrom p t.size 0 <;> simp_all [removeFirst]

/-! ## The hash function -/

/-- The invariant only reads the hashes of the stored elements. -/
theorem WF.congr {rehash' : α → Nat} (wf : t.WF rehash)
    (heq : ∀ x ∈ t.toList, rehash' x = rehash x) : t.WF rehash' := by
  refine ⟨⟨wf.size_pos, ?_, wf.elems_eq, wf.used_le⟩, wf.fill_le⟩
  intro off hoff h x hx
  obtain ⟨hh, hpath⟩ := wf.placed off hoff h x hx
  exact ⟨by rw [heq x (mem_toList.2 ⟨off, hoff, h, hx⟩), hh], hpath⟩

/-! ## Updating the elements in place -/

@[simp] theorem size_mapElems (f : α → α) : (t.mapElems f).size = t.size := by
  simp [mapElems, size]

theorem slotAt_mapElems (f : α → α) (off : Nat) :
    (t.mapElems f).slotAt off = match t.slotAt off with
      | .valid h x => .valid h (f x)
      | s => s := by
  simp only [slotAt, size_mapElems, getD_eq_getElem?_getD]
  simp only [mapElems, List.getElem?_map]
  cases t.slots[off % t.size]? with
  | none => rfl
  | some s => cases s <;> rfl

theorem toList_mapElems (f : α → α) : (t.mapElems f).toList = t.toList.map f := by
  simp only [toList, mapElems, filterMap_map, map_filterMap]
  congr 1
  funext s
  cases s <;> rfl

theorem usedCount_mapElems (f : α → α) : (t.mapElems f).usedCount = t.usedCount := by
  simp only [usedCount, mapElems, countP_map]
  congr 1
  funext s
  cases s <;> rfl

/-- An update that does not touch the hash keeps the invariant. -/
theorem WF.mapElems (wf : t.WF rehash) {f : α → α} (hf : ∀ x ∈ t.toList, rehash (f x) = rehash x) :
    (t.mapElems f).WF rehash := by
  refine ⟨⟨by rw [size_mapElems]; exact wf.size_pos, ?_, ?_, ?_⟩, ?_⟩
  · intro off hoff h y hy
    rw [size_mapElems] at hoff ⊢
    rw [slotAt_mapElems] at hy
    cases hs : t.slotAt off with
    | empty | deleted => simp [hs] at hy
    | valid h' x =>
      simp only [hs, Slot.valid.injEq] at hy
      obtain ⟨rfl, rfl⟩ := hy
      obtain ⟨hh, d, hd, heq, hpath⟩ := wf.placed off hoff _ _ hs
      refine ⟨by rw [hf x (mem_toList.2 ⟨off, hoff, _, hs⟩), ← hh], d, hd, heq, ?_⟩
      intro k hk
      rw [slotAt_mapElems]
      have := hpath k hk
      cases hk' : t.slotAt (h' + k) <;> simp_all
  · rw [toList_mapElems, length_map, ← wf.elems_eq]
    rfl
  · rw [usedCount_mapElems]
    exact wf.used_le
  · have hfill := wf.fill_le
    simp only [maxWithDeleted, size_mapElems] at hfill ⊢
    exact hfill

end Table

/-! ## Tables of handles

The elements of such a table are handles on objects from which the hash is read.  Each is in
the table at most once, and is deleted by comparing handles. -/

/-- The handles of the table are different, and the hashes are up to date. -/
structure Index (rehash : α → Nat) (t : Table α) : Prop where
  wf : t.WF rehash
  nodup : t.toList.Nodup

namespace Index

variable {rehash rehash' : α → Nat} {t : Table α} {x y : α}

theorem init : Index rehash (Table.init : Table α) := ⟨.init, nodup_nil⟩

theorem congr (hi : Index rehash t) (heq : ∀ x ∈ t.toList, rehash' x = rehash x) :
    Index rehash' t :=
  ⟨hi.wf.congr heq, hi.nodup⟩

theorem add (hi : Index rehash t) (hx : x ∉ t.toList) :
    Index rehash (t.add rehash (rehash x) x) := by
  refine ⟨hi.wf.add x, ?_⟩
  rw [(hi.wf.toList_add _ x).nodup_iff]
  exact nodup_cons.2 ⟨hx, hi.nodup⟩

variable [BEq α] [LawfulBEq α]

theorem del (hi : Index rehash t) (x : α) : Index rehash (t.del (rehash x) (· == x)).1 :=
  ⟨hi.wf.del _ _, (hi.wf.mem_toList_del hi.nodup fun _ _ => beq_iff_eq).1⟩

theorem mem_del (hi : Index rehash t) :
    y ∈ (t.del (rehash x) (· == x)).1.toList ↔ y ∈ t.toList ∧ y ≠ x :=
  (hi.wf.mem_toList_del hi.nodup fun _ _ => beq_iff_eq).2 y

theorem del_snd (hi : Index rehash t) : (t.del (rehash x) (· == x)).2 = true ↔ x ∈ t.toList := by
  rw [hi.wf.del_snd]
  constructor
  · rintro ⟨y, hy, -, heq⟩
    exact eq_of_beq heq ▸ hy
  · exact fun hx => ⟨x, hx, rfl, beq_self_eq_true x⟩

theorem get_self (hi : Index rehash t) (hx : x ∈ t.toList) :
    t.get (rehash x) (· == x) = some x := by
  cases hget : t.get (rehash x) (· == x) with
  | none =>
    have hne : (x == x) = false := hi.wf.get_none hget hx rfl
    exact absurd (beq_self_eq_true x) (by rw [hne]; exact Bool.false_ne_true)
  | some y => rw [eq_of_beq (hi.wf.get_some hget).2.2]

end Index
end HTable

import Mathlib.Data.List.Basic

/-!
# Input that arrives in fragments

A consumer of a stream is called with one fragment of an element after the other, and
may refuse each of them.  `Fragments α` is an element cut into fragments, at least one
and possibly empty ones; `whole` is the element itself.

A consumer `f : σ → List α → Option σ` either *accumulates*, when two calls are as good
as one with the concatenation (`Accumulates`), and then the cuts do not matter
(`Accumulates.foldlM_parts`); or it *overwrites*, when a call leaves nothing of the call
before it (`Overwrites`), and then only the last fragment is left
(`Overwrites.foldlM_parts`).

The data of a call is read from a buffer; `overlay` is what is read after the start of the
buffer has been written to.
-/

/-- An element of a stream, cut into fragments. -/
def Fragments (α : Type*) := { parts : List (List α) // parts ≠ [] }

namespace Fragments

variable {α σ : Type*}

def parts (x : Fragments α) : List (List α) := x.1

theorem parts_ne_nil (x : Fragments α) : x.parts ≠ [] := x.2

/-- The element. -/
def whole (x : Fragments α) : List α := x.parts.flatten

/-- The last fragment. -/
def last (x : Fragments α) : List α := x.parts.getLast x.parts_ne_nil

/-- An element that arrives in one piece. -/
def one (l : List α) : Fragments α := ⟨[l], List.cons_ne_nil _ _⟩

@[simp] theorem parts_one (l : List α) : (one l).parts = [l] := rfl
@[simp] theorem whole_one (l : List α) : (one l).whole = l := List.append_nil l
@[simp] theorem last_one (l : List α) : (one l).last = l := rfl

end Fragments

variable {α σ : Type*} {f : σ → List α → Option σ}

/-! ## Accumulating consumers -/

/-- Two calls are one call with the concatenation. -/
def Accumulates (f : σ → List α → Option σ) : Prop :=
  ∀ s l l', (f s l).bind (f · l') = f s (l ++ l')

/-- An accumulating consumer cannot tell how the element was cut. -/
theorem Accumulates.foldlM_parts (hf : Accumulates f) (x : Fragments α) (s : σ) :
    x.parts.foldlM f s = f s x.whole := by
  obtain ⟨parts, hne⟩ := x
  obtain ⟨l, parts, rfl⟩ := List.exists_cons_of_ne_nil hne
  show (l :: parts).foldlM f s = f s (l :: parts).flatten
  clear hne
  -- the first fragment grows by one fragment after the other
  induction parts generalizing l with
  | nil => simp
  | cons l' parts ih =>
    calc (l :: l' :: parts).foldlM f s
        = ((f s l).bind (f · l')).bind (parts.foldlM f) := by
          rw [List.foldlM_cons, Option.bind_assoc]
          rfl
      _ = ((l ++ l') :: parts).foldlM f s := by rw [hf]; rfl
      _ = f s ((l ++ l') :: parts).flatten := ih (l ++ l')
      _ = f s (l :: l' :: parts).flatten := by simp

/-- A consumer that prepares the state before it accumulates, and finds it prepared in
later calls. -/
theorem Accumulates.of_prepared {g : σ → σ} (hf : Accumulates f)
    (hprepared : ∀ s l s', f (g s) l = some s' → g s' = s') :
    Accumulates fun s l => f (g s) l := by
  intro s l l'
  show (f (g s) l).bind (fun s' => f (g s') l') = f (g s) (l ++ l')
  rw [← hf (g s) l l']
  cases hcall : f (g s) l with
  | none => rfl
  | some s' =>
    show f (g s') l' = f s' l'
    rw [hprepared s l s' hcall]

/-! ## Overwriting consumers -/

/-- A call that is not refused stores its fragment in place of the one before it. -/
structure Overwrites (f : σ → List α → Option σ) (fits : List α → Prop) [DecidablePred fits]
    (store : σ → List α → σ) : Prop where
  call : ∀ s l, f s l = if fits l then some (store s l) else none
  store_store : ∀ s l l', store (store s l) l' = store s l'

/-- Of an overwriting consumer's element only the last fragment is left. -/
theorem Overwrites.foldlM_parts {fits : List α → Prop} [DecidablePred fits]
    {store : σ → List α → σ} (hf : Overwrites f fits store) (x : Fragments α) (s : σ) :
    x.parts.foldlM f s =
      if ∀ l ∈ x.parts, fits l then some (store s x.last) else none := by
  obtain ⟨parts, hne⟩ := x
  show parts.foldlM f s = if ∀ l ∈ parts, fits l then some (store s (parts.getLast hne)) else none
  induction parts generalizing s with
  | nil => exact absurd rfl hne
  | cons l parts ih =>
    rw [List.foldlM_cons, hf.call]
    by_cases hl : fits l
    · rw [if_pos hl]
      cases parts with
      | nil => simp [hl]
      | cons l' parts =>
        have hrest := ih (store s l) (List.cons_ne_nil _ _)
        rw [hf.store_store] at hrest
        simpa [hl] using hrest
    · simp [hl]

/-! ## Sequences of elements -/

namespace Fragments

/-- Elements that the consumer cannot tell apart one by one it cannot tell apart in
sequence. -/
theorem foldlM_flatMap_congr {ι β : Type*} {call : σ → β → Option σ} {F G : ι → List β}
    (h : ∀ i s, (F i).foldlM call s = (G i).foldlM call s) (l : List ι) (s : σ) :
    (l.flatMap F).foldlM call s = (l.flatMap G).foldlM call s := by
  induction l generalizing s with
  | nil => rfl
  | cons i l ih =>
    rw [List.flatMap_cons, List.flatMap_cons, List.foldlM_append, List.foldlM_append, h]
    exact congrArg _ (funext ih)

/-- A change of the state that every call carries along is carried along by all of them. -/
theorem foldlM_map {β : Type*} {call : σ → β → Option σ} {g : σ → σ} {l : List β}
    (h : ∀ b ∈ l, ∀ s, call (g s) b = (call s b).map g) (s : σ) :
    l.foldlM call (g s) = (l.foldlM call s).map g := by
  induction l generalizing s with
  | nil => rfl
  | cons b l ih =>
    rw [List.foldlM_cons, List.foldlM_cons, h b List.mem_cons_self]
    cases hcall : call s b with
    | none => rfl
    | some s' => exact ih (fun b' hb' => h b' (List.mem_cons_of_mem b hb')) s'

/-- What no call changes is the same at the end. -/
theorem foldlM_kept {β τ : Type*} {call : σ → β → Option σ} (g : σ → τ) {l : List β}
    (h : ∀ b ∈ l, ∀ s s', call s b = some s' → g s' = g s) {s s' : σ}
    (hfold : l.foldlM call s = some s') : g s' = g s := by
  induction l generalizing s with
  | nil => rw [Option.some.inj hfold]
  | cons b l ih =>
    rw [List.foldlM_cons, Option.bind_eq_bind, Option.bind_eq_some_iff] at hfold
    obtain ⟨mid, hcall, hfold⟩ := hfold
    calc g s' = g mid := ih (fun b' hb' => h b' (List.mem_cons_of_mem b hb')) hfold
      _ = g s := h b List.mem_cons_self s mid hcall

end Fragments

/-! ## Data in a buffer -/

section Overlay

variable {top data : List α} {place : Nat}

/-- Data that was in a buffer from `place` on, after `top` was written to its start. -/
def overlay (top : List α) (place : Nat) (data : List α) : List α :=
  (top.drop place).take data.length ++ data.drop (top.length - place)

end Overlay

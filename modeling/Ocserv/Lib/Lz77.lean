import Mathlib.Data.List.Basic

/-!
# Compression by references to what was already written

A text is a sequence of literals and of references, which repeat a part of the text that
is at most `offset` symbols back; a reference may overlap the part it writes.  `expand`
gives the text, or nothing if a reference points before its start.  A compressor is correct
when each symbol it emits moves it forward in the text it reads: `expand_lit` and
`expand_copy` are the two rules.
-/

namespace Lz77

open List Option

universe u

inductive Token (α : Type u)
  | lit (a : α)
  | copy (offset length : Nat)
deriving DecidableEq, Repr

variable {α : Type u} [Inhabited α]

/-- Repeat `length` symbols from `offset` symbols back, one by one. -/
def repeatBack (out : List α) (offset : Nat) : (length : Nat) → List α
  | 0 => out
  | length + 1 => repeatBack (out ++ [out.getD (out.length - offset) default]) offset length

/-- The text after one more token. -/
def Token.apply (out : List α) : Token α → Option (List α)
  | .lit a => some (out ++ [a])
  | .copy offset length =>
    if 0 < offset ∧ offset ≤ out.length then some (repeatBack out offset length) else none

def expand (out : List α) (tokens : List (Token α)) : Option (List α) :=
  tokens.foldlM Token.apply out

theorem expand_cons (out : List α) (t : Token α) (tokens : List (Token α)) :
    expand out (t :: tokens) = (t.apply out).bind fun out' => expand out' tokens := rfl

theorem expand_append (out : List α) (xs ys : List (Token α)) :
    expand out (xs ++ ys) = (expand out xs).bind fun out' => expand out' ys := by
  rw [expand, List.foldlM_append]
  rfl

@[simp] theorem length_repeatBack (out : List α) (offset length : Nat) :
    (repeatBack out offset length).length = out.length + length := by
  induction length generalizing out with
  | zero => rfl
  | succ length ih =>
    rw [repeatBack, ih, length_append, length_singleton]
    omega

/-- Text is never taken back. -/
theorem length_le_of_expand {out final : List α} {tokens : List (Token α)}
    (h : expand out tokens = some final) : out.length ≤ final.length := by
  induction tokens generalizing out with
  | nil => exact Nat.le_of_eq (congrArg List.length (some.inj h))
  | cons t tokens ih =>
    rw [expand_cons] at h
    obtain ⟨out', hout', hrest⟩ := bind_eq_some_iff.1 h
    refine Nat.le_trans ?_ (ih hrest)
    cases t with
    | lit a =>
      rw [← some.inj hout', length_append]
      omega
    | copy offset length =>
      obtain ⟨-, heq⟩ := ite_none_right_eq_some.1 hout'
      rw [← some.inj heq, length_repeatBack]
      omega

/-- At `pos` the text repeats `length` symbols of what is `offset` symbols back. -/
def Repeats (text : List α) (pos offset length : Nat) : Prop :=
  pos + length ≤ text.length ∧
    ∀ i < length, text.getD (pos - offset + i) default = text.getD (pos + i) default

theorem take_succ_eq (text : List α) {pos : Nat} (h : pos < text.length) :
    text.take (pos + 1) = text.take pos ++ [text.getD pos default] := by
  rw [take_add_one, getD_eq_getElem?_getD, List.getElem?_eq_getElem h]
  rfl

/-- A reference that the text meets writes the next part of the text. -/
theorem repeatBack_take {text : List α} {pos offset length : Nat} (hpos : 0 < offset)
    (hle : offset ≤ pos) (h : Repeats text pos offset length) :
    repeatBack (text.take pos) offset length = text.take (pos + length) := by
  induction length generalizing pos with
  | zero => rfl
  | succ length ih =>
    obtain ⟨hlen, hsame⟩ := h
    have hpt : (text.take pos).length = pos := length_take_of_le (by omega)
    have hnext : (text.take pos).getD (pos - offset) default = text.getD pos default := by
      have hfirst := hsame 0 (Nat.succ_pos length)
      rw [Nat.add_zero, Nat.add_zero] at hfirst
      rw [← hfirst, getD_eq_getElem?_getD, getD_eq_getElem?_getD,
        List.getElem?_take_of_lt (by omega)]
    rw [repeatBack, hpt, hnext, ← take_succ_eq text (by omega)]
    rw [ih (by omega) ⟨by omega, fun i hi => ?_⟩, Nat.add_right_comm, Nat.add_assoc]
    have hi' := hsame (i + 1) (by omega)
    rw [show pos + 1 - offset + i = pos - offset + (i + 1) by omega,
      show pos + 1 + i = pos + (i + 1) by omega]
    exact hi'

variable {text : List α} {tokens : List (Token α)} {pos : Nat}

/-- A literal moves one symbol forward. -/
theorem expand_lit (h : expand [] tokens = some (text.take pos)) (hpos : pos < text.length) :
    expand [] (tokens ++ [.lit (text.getD pos default)]) = some (text.take (pos + 1)) := by
  rw [expand_append, h, take_succ_eq text hpos]
  rfl

/-- A reference moves as far forward as the text repeats itself. -/
theorem expand_copy {offset length : Nat} (h : expand [] tokens = some (text.take pos))
    (hoffset : 0 < offset) (hle : offset ≤ pos) (hrepeats : Repeats text pos offset length) :
    expand [] (tokens ++ [.copy offset length]) = some (text.take (pos + length)) := by
  have hlen : (text.take pos).length = pos := length_take_of_le (by have := hrepeats.1; omega)
  have hvalid : 0 < offset ∧ offset ≤ (text.take pos).length := by omega
  rw [expand_append, h]
  show ((if _ then some _ else none).bind fun out' => expand out' []) = _
  rw [if_pos hvalid, repeatBack_take hoffset hle hrepeats]
  rfl

end Lz77

import Mathlib.Data.Option.Basic

/-!
# Reading in bursts

A callback of an event loop reads from its source until nothing more is there, until the
reader has been paused or until it has had its share.  `burst` is such a callback over a
function that reads once; a result `none` of the function is the end of the process.

What every read keeps is kept by the burst (`burst_invariant`), and a burst that starts when
the reader is not paused never reads while it is (`burst_unpaused`).
-/

variable {σ α : Type*} {read : σ → α → Option (σ × Bool)} {paused : σ → Bool}

/-- Read at most `n` times; `inputs` is what the source delivers. -/
def burst (read : σ → α → Option (σ × Bool)) (paused : σ → Bool) :
    Nat → (Nat → α) → σ → Option σ
  | 0, _, s => some s
  | n + 1, inputs, s =>
    match read s (inputs 0) with
    | none => none
    | some (s, received) =>
      if received = false ∨ paused s = true then some s
      else burst read paused n (fun i => inputs (i + 1)) s

/-- The first read of a burst, and what follows it. -/
theorem burst_succ {n : Nat} {inputs : Nat → α} {s s' : σ}
    (h : burst read paused (n + 1) inputs s = some s') :
    ∃ s₁ received, read s (inputs 0) = some (s₁, received) ∧
      (s₁ = s' ∨ paused s₁ = false ∧
        burst read paused n (fun i => inputs (i + 1)) s₁ = some s') := by
  rw [burst] at h
  split at h
  · cases h
  · next s₁ received hread =>
    refine ⟨s₁, received, hread, ?_⟩
    split at h
    · exact .inl (Option.some.inj h)
    · next hmore =>
      have hidle : paused s₁ = false := by
        rw [not_or] at hmore
        exact Bool.eq_false_iff.2 hmore.2
      exact .inr ⟨hidle, h⟩

/-- What holds of a reader that is not paused holds whenever it reads on. -/
theorem burst_rule {Inv Idle : σ → Prop} {n : Nat} {inputs : Nat → α} {s s' : σ}
    (hpaused : ∀ s, paused s = false → Idle s)
    (hread : ∀ i s s₁ received, Inv s → Idle s → read s (inputs i) = some (s₁, received) → Inv s₁)
    (hs : Inv s) (hidle : Idle s) (h : burst read paused n inputs s = some s') : Inv s' := by
  induction n generalizing inputs s with
  | zero => exact Option.some.inj h ▸ hs
  | succ n ih =>
    obtain ⟨s₁, received, hfirst, rfl | ⟨hidle₁, hrest⟩⟩ := burst_succ h
    · exact hread 0 s _ received hs hidle hfirst
    · exact ih (fun i => hread (i + 1)) (hread 0 s s₁ received hs hidle hfirst)
        (hpaused s₁ hidle₁) hrest

theorem burst_invariant {Inv : σ → Prop} {n : Nat} {inputs : Nat → α} {s s' : σ}
    (hread : ∀ i s s₁ received, Inv s → read s (inputs i) = some (s₁, received) → Inv s₁)
    (hs : Inv s) (h : burst read paused n inputs s = some s') : Inv s' :=
  burst_rule (fun _ _ => trivial) (fun i s s₁ received hs _ => hread i s s₁ received hs) hs
    trivial h

theorem burst_unpaused {Inv : σ → Prop} {n : Nat} {inputs : Nat → α} {s s' : σ}
    (hread : ∀ i s s₁ received, Inv s → paused s = false →
      read s (inputs i) = some (s₁, received) → Inv s₁)
    (hs : Inv s) (hidle : paused s = false) (h : burst read paused n inputs s = some s') :
    Inv s' :=
  burst_rule (fun _ hidle => hidle) hread hs hidle h

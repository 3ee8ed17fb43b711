import Mathlib.Data.List.Basic

/-!
# Finite runs of a labelled transition system

A run is kept as the list of its transitions, newest first, together with the
state it has reached.  Three proof rules cover what the components need, and
`Run.split` takes a run apart at one of its transitions:

* `Run.invariant`: a predicate that holds initially and survives every step
  holds in every state reached;
* `Run.invariant_of_forall`: the same for runs whose transitions all meet a
  side condition, which a step lemma may then use;
* `Run.since`: a predicate that only an `A`-transition can establish, and that
  only `B`-transitions keep, holds now only if there was an `A`-transition and
  every transition after it was a `B`-transition; `Run.of_since` is the converse
  for a predicate that these transitions do establish and keep.
-/

namespace Runs

universe u v

/-- One step of a run: the state before, the label and the state after. -/
structure Transition (σ : Type u) (ε : Type v) where
  pre : σ
  label : ε
  post : σ

variable {σ : Type u} {ε : Type v} {init : σ → Prop} {step : σ → ε → σ → Prop}

/-- `Run init step trace s`: from an initial state the transitions of `trace`
(newest first) lead to `s`. -/
inductive Run (init : σ → Prop) (step : σ → ε → σ → Prop) :
    List (Transition σ ε) → σ → Prop
  | start {s : σ} : init s → Run init step [] s
  | snoc {trace : List (Transition σ ε)} {s s' : σ} {e : ε} : Run init step trace s →
      step s e s' → Run init step (⟨s, e, s'⟩ :: trace) s'

/-- The states some run reaches. -/
def Reachable (init : σ → Prop) (step : σ → ε → σ → Prop) (s : σ) : Prop :=
  ∃ trace, Run init step trace s

variable {Inv P : σ → Prop} {C : Transition σ ε → Prop} {trace : List (Transition σ ε)} {s s' : σ}
  {e : ε} {f : σ → ε → Option σ} {es : List ε} {τ : Type u} {A : List τ → τ → Prop} {B : τ → Prop}

/-- An invariant that is only preserved by the transitions meeting `C` holds
after every run all of whose transitions meet `C`. -/
theorem Run.invariant_of_forall (hinit : ∀ s, init s → Inv s)
    (hstep : ∀ s e s', Inv s → step s e s' → C ⟨s, e, s'⟩ → Inv s') {s : σ}
    (hrun : Run init step trace s) (hall : ∀ t ∈ trace, C t) : Inv s := by
  induction hrun with
  | start h => exact hinit _ h
  | snoc hrun hs ih =>
    have hprev := ih fun t ht => hall t (List.mem_cons_of_mem _ ht)
    exact hstep _ _ _ hprev hs (hall _ List.mem_cons_self)

/-- A condition on the transitions of a run can be made part of the step relation. -/
theorem Run.restrict (hrun : Run init step trace s) (hall : ∀ t ∈ trace, C t) :
    Run init (fun s e s' => step s e s' ∧ C ⟨s, e, s'⟩) trace s := by
  induction hrun with
  | start h => exact .start h
  | snoc hrun hs ih =>
    obtain ⟨hc, hall⟩ := List.forall_mem_cons.1 hall
    exact (ih hall).snoc ⟨hs, hc⟩

theorem Run.invariant (hinit : ∀ s, init s → Inv s)
    (hstep : ∀ s e s', Inv s → step s e s' → Inv s') {s : σ} (hrun : Run init step trace s) :
    Inv s :=
  hrun.invariant_of_forall (C := fun _ => True) hinit (fun s e s' h hs _ => hstep s e s' h hs)
    fun _ _ => trivial

theorem Reachable.invariant (hinit : ∀ s, init s → Inv s)
    (hstep : ∀ s e s', Inv s → step s e s' → Inv s') {s : σ} (h : Reachable init step s) : Inv s :=
  h.elim fun _ hrun => hrun.invariant hinit hstep

/-- Some run reaches `s` through transitions that all meet `C`. -/
def ReachableBy (init : σ → Prop) (step : σ → ε → σ → Prop) (C : Transition σ ε → Prop) (s : σ) :
    Prop :=
  ∃ trace, Run init step trace s ∧ ∀ t ∈ trace, C t

theorem ReachableBy.start (h : init s) :
    ReachableBy init step C s :=
  ⟨[], .start h, by simp⟩

theorem ReachableBy.snoc (h : ReachableBy init step C s) (hs : step s e s') (hc : C ⟨s, e, s'⟩) :
    ReachableBy init step C s' := by
  obtain ⟨trace, hrun, hall⟩ := h
  exact ⟨_, hrun.snoc hs, List.forall_mem_cons.2 ⟨hc, hall⟩⟩

theorem ReachableBy.invariant (hinit : ∀ s, init s → Inv s)
    (hstep : ∀ s e s', Inv s → step s e s' → C ⟨s, e, s'⟩ → Inv s') {s : σ}
    (h : ReachableBy init step C s) : Inv s := by
  obtain ⟨trace, hrun, hall⟩ := h
  exact hrun.invariant_of_forall hinit hstep hall

theorem ReachableBy.reachable (h : ReachableBy init step C s) :
    Reachable init step s := by
  obtain ⟨trace, hrun, -⟩ := h
  exact ⟨trace, hrun⟩

/-- Execute labels in order, as long as each meets `C`. -/
def exec (f : σ → ε → Option σ) (C : σ → ε → Prop) [∀ s e, Decidable (C s e)] :
    List ε → σ → Option σ
  | [], s => some s
  | e :: es, s => if C s e then (f s e).bind (exec f C es) else none

theorem ReachableBy.exec {C : σ → ε → Prop} [∀ s e, Decidable (C s e)]
    (hf : ∀ s e s', f s e = some s' → step s e s')
    (h : ReachableBy init step (fun t => C t.pre t.label) s) (hexec : exec f C es s = some s') :
    ReachableBy init step (fun t => C t.pre t.label) s' := by
  induction es generalizing s with
  | nil =>
    cases hexec
    exact h
  | cons e es ih =>
    rw [Runs.exec, Option.ite_none_right_eq_some, Option.bind_eq_some_iff] at hexec
    obtain ⟨hc, s₁, hs, hrest⟩ := hexec
    exact ih (h.snoc (hf _ _ _ hs) hc) hrest

/-- An execution continues a run by the transitions with its labels. -/
theorem Run.exec {C : σ → ε → Prop} [∀ s e, Decidable (C s e)]
    (h : Run init (fun s e s' => f s e = some s') trace s) (hexec : exec f C es s = some s') :
    ∃ later, Run init (fun s e s' => f s e = some s') (later ++ trace) s' ∧
      later.map (·.label) = es.reverse := by
  induction es generalizing s trace with
  | nil =>
    cases hexec
    exact ⟨[], h, rfl⟩
  | cons e es ih =>
    rw [Runs.exec, Option.ite_none_right_eq_some, Option.bind_eq_some_iff] at hexec
    obtain ⟨-, s₁, hs, hrest⟩ := hexec
    obtain ⟨later, hrun, hlabels⟩ := ih (h.snoc hs) hrest
    refine ⟨later ++ [⟨s, e, s₁⟩], ?_, ?_⟩
    · rw [List.append_assoc]
      exact hrun
    · rw [List.map_append, hlabels, List.reverse_cons]
      rfl

/-- An execution that ends in a state with `P` shows that such a state can be reached. -/
theorem exists_reachableBy_of_exec {C : σ → ε → Prop} [∀ s e, Decidable (C s e)] {P : σ → Prop}
    [DecidablePred P] (es : List ε) (hinit : init s) (hexec : (exec f C es s).any (P ·)) :
    ∃ s', ReachableBy init (fun s e s' => f s e = some s') (fun t => C t.pre t.label) s' ∧
      P s' := by
  obtain ⟨s', hs', hP⟩ := (Option.any_eq_true _ _).1 hexec
  exact ⟨s', (ReachableBy.start hinit).exec (fun _ _ _ h => h) hs', of_decide_eq_true hP⟩

theorem exists_reachable_of_exec {P : σ → Prop} [DecidablePred P] (es : List ε) (hinit : init s)
    (hexec : (exec f (fun _ _ => True) es s).any (P ·)) :
    ∃ s', Reachable init (fun s e s' => f s e = some s') s' ∧ P s' := by
  obtain ⟨s', hreach, hP⟩ := exists_reachableBy_of_exec es hinit hexec
  exact ⟨s', hreach.reachable, hP⟩

/-- A run is a run up to any of its transitions, and one from the state after it. -/
theorem Run.split {later earlier : List (Transition σ ε)} {s₀ s₁ : σ}
    (h : Run init step (later ++ ⟨s₀, e, s₁⟩ :: earlier) s) :
    Run init step earlier s₀ ∧ step s₀ e s₁ ∧ Run (· = s₁) step later s := by
  induction later generalizing s with
  | nil =>
    cases h with
    | snoc hrun hs => exact ⟨hrun, hs, .start rfl⟩
  | cons t later ih =>
    cases h with
    | snoc hrun hs =>
      obtain ⟨hearlier, hstep, hlater⟩ := ih hrun
      exact ⟨hearlier, hstep, hlater.snoc hs⟩

/-- Some transition of the trace meets `A` (which may look at the trace before
it), and every transition after that one meets `B`. -/
def Since {τ : Type u} (A : List τ → τ → Prop) (B : τ → Prop) (trace : List τ) : Prop :=
  ∃ recent t older, trace = recent ++ t :: older ∧ A older t ∧ ∀ r ∈ recent, B r

theorem Since.now {t : τ} {older : List τ} (h : A older t) : Since A B (t :: older) :=
  ⟨[], t, older, rfl, h, by simp⟩

theorem Since.later {r : τ} {trace : List τ} (hr : B r) (h : Since A B trace) :
    Since A B (r :: trace) := by
  obtain ⟨recent, t, older, rfl, hA, hB⟩ := h
  exact ⟨r :: recent, t, older, rfl, hA, List.forall_mem_cons.2 ⟨hr, hB⟩⟩

/-- What an `A`-transition establishes and every `B`-transition keeps holds now. -/
theorem Run.of_since {A : List (Transition σ ε) → Transition σ ε → Prop} {B : Transition σ ε → Prop}
    (hA : ∀ trace s e s', Run init step trace s → step s e s' → A trace ⟨s, e, s'⟩ → P s')
    (hB : ∀ s e s', P s → step s e s' → B ⟨s, e, s'⟩ → P s') (hrun : Run init step trace s)
    (hsince : Since A B trace) : P s := by
  obtain ⟨recent, t, older, rfl, ht, hrecent⟩ := hsince
  obtain ⟨holder, hstep, hlater⟩ := hrun.split
  refine hlater.invariant_of_forall ?_ hB hrecent
  rintro s rfl
  exact hA older t.pre t.label t.post holder hstep ht

/-- If `P` is false initially, and a step into `P` is an `A`-transition or a
`B`-transition from `P`, then `P` in the reached state means `A`, and `B` ever
since. -/
theorem Run.since {A : List (Transition σ ε) → Transition σ ε → Prop} {B : Transition σ ε → Prop}
    (hinit : ∀ s, init s → ¬ P s)
    (hstep : ∀ trace s e s', Run init step trace s → step s e s' → P s' → A trace ⟨s, e, s'⟩ ∨
      (B ⟨s, e, s'⟩ ∧ P s))
    (hrun : Run init step trace s) (hP : P s) :
    Since A B trace := by
  induction hrun with
  | start h => exact absurd hP (hinit _ h)
  | snoc hrun hs ih =>
    rcases hstep _ _ _ _ hrun hs hP with hA | ⟨hB, hprev⟩
    · exact .now hA
    · exact .later hB (ih hprev)

end Runs

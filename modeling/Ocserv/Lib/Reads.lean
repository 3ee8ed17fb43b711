import Mathlib.Data.List.Basic

/-!
# Short counts

One call of the system moves as much of a stream as it likes, and at least one element while
there is any; `once` is such a call.  A caller that needs more calls again until it has got what
it wants or the stream has ended, and such a `loop` cannot see how the stream was cut
(`loop_eq`).

A buffer that has been read into holds what has been read and, behind it, what it held before
(`filled`).  Whoever finds the same in a buffer whatever it held before has filled it
(`le_length_of_filled`).
-/

namespace Reads

variable {α : Type*}

/-- A call that asks for `want` elements and would get `count` of them: what it moves, and
what is left. -/
def once (want count : Nat) (s : List α) : List α × List α := s.splitAt (min want (max 1 count))

theorem once_eq (want count : Nat) (s : List α) : once want count s =
    (s.take (min want (max 1 count)), s.drop (min want (max 1 count))) :=
  List.splitAt_eq ..

theorem once_of_le {want count : Nat} (h : want ≤ count) (s : List α) :
    once want count s = (s.take want, s.drop want) := by
  rw [once_eq, Nat.min_eq_left (Nat.le_trans h (Nat.le_max_right 1 count))]

/-- Calls until `left` elements have been read; `fuel` bounds their number. -/
def loop (counts : Nat → Nat) : Nat → Nat → List α → List α × List α
  | 0, _, s => ([], s)
  | fuel + 1, left, s =>
    if left = 0 then ([], s)
    else
      match once left (counts 0) s with
      | ([], s) => ([], s)
      | (got, s) =>
        let (more, rest) := loop (fun i => counts (i + 1)) fuel (left - got.length) s
        (got ++ more, rest)

/-- The loop reads what is wanted, or all there is, whatever the counts are. -/
theorem loop_eq {fuel left : Nat} (h : left ≤ fuel) (counts : Nat → Nat) (s : List α) :
    loop counts fuel left s = (s.take left, s.drop left) := by
  induction fuel generalizing left counts s with
  | zero =>
    obtain rfl := Nat.le_zero.1 h
    rfl
  | succ fuel ih =>
    rw [loop]
    split
    · next hzero =>
      subst hzero
      rfl
    · next hpos =>
      rw [once_eq]
      -- the first call moves `n` elements
      generalize hn : min left (max 1 (counts 0)) = n
      have hle : n ≤ left := hn ▸ Nat.min_le_left _ _
      have hone : 0 < n := by omega
      cases hgot : s.take n with
      | nil =>
        rcases List.take_eq_nil_iff.1 hgot with hzero | rfl
        · omega
        · simp
      | cons a got =>
        have hlength : (a :: got).length = min n s.length := by rw [← hgot, List.length_take]
        have hrest := ih (show left - (a :: got).length ≤ fuel by simp; omega)
          (fun i => counts (i + 1)) (s.drop n)
        simp only [hrest]
        rw [← hgot, List.length_take]
        by_cases hs : n ≤ s.length
        · rw [Nat.min_eq_left hs, List.drop_drop, Nat.add_sub_cancel' hle]
          refine congrArg (·, s.drop left) ?_
          calc s.take n ++ (s.drop n).take (left - n)
              = s.take (n + (left - n)) := (List.take_add).symm
            _ = s.take left := by rw [Nat.add_sub_cancel' hle]
        · have hend : s.length ≤ n := Nat.le_of_not_le hs
          rw [List.drop_eq_nil_of_le hend, List.take_of_length_le hend,
            List.take_of_length_le (Nat.le_trans hend hle),
            List.drop_eq_nil_of_le (Nat.le_trans hend hle)]
          simp

/-! ## Buffers -/

/-- The first `n` elements of a buffer that held `mem` and into which `got` has been read. -/
def filled (got : List α) (mem : Nat → α) (n : Nat) : List α :=
  (List.range n).map fun i => got.getD i (mem i)

@[simp] theorem length_filled (got : List α) (mem : Nat → α) (n : Nat) :
    (filled got mem n).length = n := by simp [filled]

theorem filled_length (got : List α) (mem : Nat → α) : filled got mem got.length = got := by
  refine List.ext_getElem (length_filled _ _ _) fun i _ hi => ?_
  simp [filled, hi]

theorem le_length_of_filled {a b : α} (hne : a ≠ b) {got l : List α} {n : Nat}
    (h : ∀ mem, filled got mem n = l) : n ≤ got.length := by
  by_contra hlt
  have heq : filled got (fun _ => a) n = filled got (fun _ => b) n := (h _).trans (h _).symm
  -- the first element that has not been read differs
  have hget := congrArg (·[got.length]?) heq
  simp [filled, Nat.lt_of_not_le hlt] at hget
  exact hne hget

end Reads

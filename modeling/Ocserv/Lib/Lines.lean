import Mathlib.Data.List.Basic

/-!
# The lines of a text

A text is read line by line, or in pieces of bounded size that end with a line at the latest.
A line contains the element that ends it, which only the last line of a text may lack.  Both ways
to read a text are `reads` of a function that takes off what is read next; they agree as long as
the lines fit (`pieces_of_fits`).  A text that is written from lines has these lines
(`lines_flatten`).
-/

namespace Lines

open List

variable {α : Type*} {stop : α → Bool} {n fuel : Nat} {s l : List α} {L : List (List α)}

/-- The next line, and what follows it. -/
def line (stop : α → Bool) : List α → List α × List α
  | [] => ([], [])
  | a :: s => if stop a then ([a], s) else (a :: (line stop s).1, (line stop s).2)

/-- At most `n` elements of the next line, and what follows them. -/
def piece (stop : α → Bool) (n : Nat) (s : List α) : List α × List α :=
  ((line stop s).1.take n, (line stop s).1.drop n ++ (line stop s).2)

/-- What is read until nothing is left. -/
def reads (next : List α → List α × List α) : Nat → List α → List (List α)
  | 0, _ => []
  | fuel + 1, s => if s.isEmpty then [] else (next s).1 :: reads next fuel (next s).2

def lines (stop : α → Bool) (s : List α) : List (List α) := reads (line stop) s.length s

def pieces (stop : α → Bool) (n : Nat) (s : List α) : List (List α) :=
  reads (piece stop n) s.length s

/-! ## Reading -/

theorem line_append (stop : α → Bool) (s : List α) : (line stop s).1 ++ (line stop s).2 = s := by
  induction s with
  | nil => rfl
  | cons a s ih =>
    unfold line
    split
    · rfl
    · exact congrArg (a :: ·) ih

theorem line_ne_nil (stop : α → Bool) (h : s ≠ []) : (line stop s).1 ≠ [] := by
  cases s with
  | nil => exact absurd rfl h
  | cons a s =>
    unfold line
    split <;> simp

theorem length_line_lt (h : s ≠ []) : (line stop s).2.length < s.length := by
  have hlen := congrArg List.length (line_append stop s)
  have hpos := length_pos_iff.2 (line_ne_nil stop h)
  rw [length_append] at hlen
  omega

theorem length_piece_lt (hn : 0 < n) (h : s ≠ []) : (piece stop n s).2.length < s.length := by
  have hlen := congrArg List.length (line_append stop s)
  have hpos := length_pos_iff.2 (line_ne_nil stop h)
  rw [length_append] at hlen
  rw [piece, length_append, length_drop]
  omega

variable {next : List α → List α × List α}

/-- The length of the text is enough fuel for a function that takes something off. -/
theorem reads_congr (hnext : ∀ s ≠ [], (next s).2.length < s.length) {fuel' : Nat}
    (hfuel : s.length ≤ fuel) (hfuel' : s.length ≤ fuel') :
    reads next fuel s = reads next fuel' s := by
  induction fuel generalizing s fuel' with
  | zero =>
    rw [length_eq_zero_iff.1 (Nat.le_zero.1 hfuel)]
    cases fuel' <;> rfl
  | succ fuel ih =>
    cases s with
    | nil => cases fuel' <;> rfl
    | cons a s =>
      have hlt := hnext (a :: s) (List.cons_ne_nil a s)
      rw [length_cons] at hfuel hfuel' hlt
      obtain ⟨fuel', rfl⟩ := Nat.exists_eq_add_of_lt (Nat.lt_of_succ_le hfuel')
      have hrest := @ih (next (a :: s)).2 (s.length + fuel') (by omega) (by omega)
      rw [reads, reads, hrest]

theorem reads_eq_cons (hnext : ∀ s ≠ [], (next s).2.length < s.length) (h : s ≠ []) :
    reads next s.length s = (next s).1 :: reads next (next s).2.length (next s).2 := by
  have hlt := hnext s h
  obtain ⟨fuel, hfuel⟩ := Nat.exists_eq_succ_of_ne_zero (mt length_eq_zero_iff.1 h)
  rw [hfuel, reads, if_neg (by simpa using h)]
  exact congrArg _ (reads_congr hnext (by omega) (Nat.le_refl _))

@[simp] theorem lines_nil : lines stop [] = [] := rfl

@[simp] theorem pieces_nil : pieces stop n [] = [] := rfl

theorem lines_eq_cons (h : s ≠ []) :
    lines stop s = (line stop s).1 :: lines stop (line stop s).2 :=
  reads_eq_cons (fun _ => length_line_lt) h

theorem pieces_eq_cons (hn : 0 < n) (h : s ≠ []) :
    pieces stop n s = (piece stop n s).1 :: pieces stop n (piece stop n s).2 :=
  reads_eq_cons (fun _ => length_piece_lt hn) h

/-- Induction on the lines of a text. -/
theorem lines_induction (stop : α → Bool) {motive : List α → Prop} (nil : motive [])
    (cons : ∀ s ≠ [], motive (line stop s).2 → motive s) (s : List α) : motive s := by
  induction hlen : s.length using Nat.strongRecOn generalizing s with
  | _ len ih =>
    by_cases hs : s = []
    · rw [hs]; exact nil
    · exact cons s hs (ih _ (hlen ▸ length_line_lt hs) _ rfl)

/-- A line that fits is read at once. -/
theorem piece_of_fits (hfits : (line stop s).1.length ≤ n) : piece stop n s = line stop s := by
  rw [piece, take_of_length_le hfits, drop_of_length_le hfits, nil_append]

/-! ## Writing -/

/-- A line with its end. -/
def Ended (stop : α → Bool) (l : List α) : Prop :=
  ∃ body c, l = body ++ [c] ∧ stop c ∧ ∀ a ∈ body, stop a = false

theorem line_of_ended (h : Ended stop l) (s : List α) : line stop (l ++ s) = (l, s) := by
  obtain ⟨body, c, rfl, hc, hbody⟩ := h
  induction body with
  | nil => simp [line, hc]
  | cons a body ih =>
    have ha := hbody a List.mem_cons_self
    have hrest := ih fun b hb => hbody b (mem_cons_of_mem a hb)
    rw [cons_append, cons_append, line, if_neg (by simp [ha]), hrest]

theorem line_of_not_ended (h : ∀ a ∈ s, stop a = false) : line stop s = (s, []) := by
  induction s with
  | nil => rfl
  | cons a s ih =>
    rw [line, if_neg (by simp [h a]), ih fun b hb => h b (mem_cons_of_mem a hb)]

/-- The lines of a text are those it is written from. -/
theorem lines_flatten (hL : ∀ l ∈ L, Ended stop l) (s : List α) :
    lines stop (L.flatten ++ s) = L ++ lines stop s := by
  induction L with
  | nil => rfl
  | cons l L ih =>
    have hl := hL l List.mem_cons_self
    have hne : l ++ (L.flatten ++ s) ≠ [] := by
      obtain ⟨body, c, rfl, -⟩ := hl
      simp
    rw [flatten_cons, append_assoc, lines_eq_cons hne, line_of_ended hl]
    exact congrArg (l :: ·) (ih fun x hx => hL x (mem_cons_of_mem l hx))

theorem lines_of_not_ended (hs : s ≠ []) (h : ∀ a ∈ s, stop a = false) :
    lines stop s = [s] := by
  rw [lines_eq_cons hs, line_of_not_ended h, lines_nil]

/-- A text consists of lines with their ends and of a rest without one. -/
theorem exists_lines (stop : α → Bool) (s : List α) :
    ∃ (L : List (List α)) (rest : List α), s = L.flatten ++ rest ∧
      (∀ l ∈ L, Ended stop l) ∧ ∀ a ∈ rest, stop a = false := by
  induction s with
  | nil => exact ⟨[], [], rfl, by simp, by simp⟩
  | cons a s ih =>
    obtain ⟨L, rest, rfl, hL, hrest⟩ := ih
    by_cases ha : stop a
    · refine ⟨[a] :: L, rest, rfl, fun l hl => ?_, hrest⟩
      rcases mem_cons.1 hl with rfl | hl
      · exact ⟨[], a, rfl, ha, by simp⟩
      · exact hL l hl
    · rw [Bool.not_eq_true] at ha
      cases L with
      | nil => exact ⟨[], a :: rest, rfl, by simp, by simpa [ha] using hrest⟩
      | cons l L =>
        obtain ⟨body, c, rfl, hc, hbody⟩ := hL l List.mem_cons_self
        refine ⟨((a :: body) ++ [c]) :: L, rest, rfl, fun l hl => ?_, hrest⟩
        rcases mem_cons.1 hl with rfl | hl
        · exact ⟨a :: body, c, rfl, hc, by simpa [ha] using hbody⟩
        · exact hL l (mem_cons_of_mem _ hl)

/-- Only the last line may lack its end. -/
theorem line_cases (stop : α → Bool) (s : List α) :
    Ended stop (line stop s).1 ∨
      (∀ a ∈ (line stop s).1, stop a = false) ∧ (line stop s).2 = [] := by
  obtain ⟨L, rest, rfl, hL, hrest⟩ := exists_lines stop s
  cases L with
  | nil =>
    rw [flatten_nil, nil_append, line_of_not_ended hrest]
    exact .inr ⟨hrest, rfl⟩
  | cons l L =>
    have hl := hL l List.mem_cons_self
    rw [flatten_cons, append_assoc, line_of_ended hl]
    exact .inl hl

/-- A line has its end, or no end at all. -/
theorem mem_lines (stop : α → Bool) (s : List α) :
    ∀ l ∈ lines stop s, l ≠ [] ∧ (Ended stop l ∨ ∀ a ∈ l, stop a = false) := by
  induction s using lines_induction stop with
  | nil => simp
  | cons s hs ih =>
    intro l hl
    rw [lines_eq_cons hs] at hl
    rcases mem_cons.1 hl with rfl | hl
    · exact ⟨line_ne_nil stop hs, (line_cases stop s).imp_right And.left⟩
    · exact ih l hl

theorem Ended.ne_nil (h : Ended stop l) : l ≠ [] := by
  obtain ⟨body, c, rfl, -⟩ := h
  simp

/-- The end of a line is that of its last part. -/
theorem ended_append_iff (hs : s ≠ []) :
    Ended stop (l ++ s) ↔ (∀ a ∈ l, stop a = false) ∧ Ended stop s := by
  constructor
  · rintro ⟨body, c, heq, hc, hbody⟩
    obtain ⟨body', c', rfl⟩ : ∃ body' c', s = body' ++ [c'] :=
      ⟨s.dropLast, s.getLast hs, (dropLast_append_getLast hs).symm⟩
    rw [← append_assoc] at heq
    obtain ⟨rfl, hlast⟩ := append_inj' heq rfl
    obtain rfl : c' = c := head_eq_of_cons_eq hlast
    exact ⟨fun a ha => hbody a (mem_append_left _ ha), body', c', rfl, hc,
      fun a ha => hbody a (mem_append_right _ ha)⟩
  · rintro ⟨hl, body, c, rfl, hc, hbody⟩
    refine ⟨l ++ body, c, (append_assoc _ _ _).symm, hc, fun a ha => ?_⟩
    exact (mem_append.1 ha).elim (hl a) (hbody a)

/-- A line that is left, if anything is left of it. -/
def kept (l : List α) : Option (List α) := if l.isEmpty then none else some l

@[simp] theorem kept_nil : kept ([] : List α) = none := rfl

theorem kept_of_ne_nil (h : l ≠ []) : kept l = some l := if_neg (by simpa using h)

/-- A text whose lines are edited one by one: the lines that are left. -/
theorem lines_flatMap {edit : List α → List α}
    (hended : ∀ l, Ended stop l → edit l = [] ∨ Ended stop (edit l))
    (hrest : ∀ l, (∀ a ∈ l, stop a = false) →
      Ended stop (edit l) ∨ ∀ a ∈ edit l, stop a = false) (s : List α) :
    lines stop ((lines stop s).flatMap edit) =
      (lines stop s).filterMap fun l => kept (edit l) := by
  induction s using lines_induction stop with
  | nil => rfl
  | cons s hs ih =>
    rw [lines_eq_cons hs, List.flatMap_cons, filterMap_cons]
    obtain hline | ⟨hline, hend⟩ := line_cases stop s
    · obtain hnil | hedit := hended _ hline
      · rw [hnil, nil_append, ih, kept_nil]
      · have hone := @lines_flatten _ stop [edit (line stop s).1] (by simpa using hedit)
        rw [flatten_singleton] at hone
        rw [hone, ih, kept_of_ne_nil hedit.ne_nil, singleton_append]
    · rw [hend, lines_nil, flatMap_nil, append_nil, filterMap_nil]
      by_cases hnil : edit (line stop s).1 = []
      · rw [hnil, kept_nil, lines_nil]
      · rw [kept_of_ne_nil hnil]
        obtain hedit | hedit := hrest _ hline
        · have hone := @lines_flatten _ stop [edit (line stop s).1] (by simpa using hedit) []
          simpa using hone
        · exact lines_of_not_ended hnil hedit

/-! ## Parts between separators -/

/-- The first part, and those of the text behind its separator. -/
theorem splitOn_eq [BEq α] (x : α) (s : List α) :
    s.splitOn x = s.takeWhile (· != x) ::
      match s.dropWhile (· != x) with
      | [] => []
      | _ :: rest => rest.splitOn x := by
  induction s with
  | nil => rfl
  | cons a s ih =>
    unfold List.splitOn at ih ⊢
    rw [splitOnP_cons_eq_if_modifyHead, takeWhile_cons, dropWhile_cons]
    cases hx : a == x with
    | true => rw [bne, hx]; rfl
    | false =>
      rw [ih, bne, hx]
      rfl

end Lines

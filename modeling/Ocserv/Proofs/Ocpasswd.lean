import Ocserv.Ocpasswd

/-!
# One user is edited

An operation rewrites the lines of one user (`Edits`): what is left of such a line is again a line
of this user, with an end where it had one.  The lines of the other users are then those of the
file before (`others_edit_lines`), and the lines of the user are edited one by one
(`own_edit_lines`).  A record that is appended is one of its own only if the last line that is kept
has its end.
-/

namespace Ocserv

open List Option

namespace Ocpasswd

open Lines

/-- The lines of a file that are records of certain users. -/
def linesOf (p : CStr → Bool) (text : List Char) : List (List Char) :=
  (lines is_newline text).filter fun line => (user_field line).any p

/-- The records of the other users. -/
def others (username : CStr) (text : List Char) : List (List Char) := linesOf (· != username) text

/-- The records of the user. -/
def own (username : CStr) (text : List Char) : List (List Char) := linesOf (· == username) text

/-- A record with these fields. -/
def HasFields (line : List Char) (user groups hash : CStr) : Prop :=
  line = user ++ ':' :: groups ++ ':' :: hash ++ ['\n'] ∧ ':' ∉ user ∧ ':' ∉ groups ∧ ':' ∉ hash

/-- What an operation has to do, on the files before and after it: the records of all other users
stay as they are, and that of the user is the new one, is gone, or is restored when it is unlocked
again. -/
def EditsOne (env : Env) (files files' : Files) (username : CStr) (op : Op) : Prop :=
  others username files'.text = others username files.text ∧
    match op with
    | .set groupname passwd =>
      ∃ hash line, crypt_passwd env passwd = some hash ∧ own username files'.text = [line] ∧
        HasFields line username (groupname.getD ['*']) hash
    | .delete => own username files'.text = []
    | .lock =>
      ∃ files'', ocpasswd env files' username .unlock = some files'' ∧
        own username files''.text = own username files.text
    | .unlock => True

/-- Every record has the end of its line. -/
def Terminated (text : List Char) : Prop :=
  ∀ line ∈ lines is_newline text, user_field line ≠ none → line.getLast? = some '\n'

/-- A record with a hash that is not locked. -/
def unlocked (line : List Char) : Bool :=
  (split_hash line).any fun parts => parts.2.head? != some '!'

/-- When an operation does what it has to. -/
def Fit (username : CStr) (text : List Char) : Op → Prop
  | .set groupname _ =>
    Field username ∧ Field (groupname.getD ['*']) ∧
      ((own username text).length = 1 ∨ own username text = [] ∧ Terminated text)
  | .delete => True
  | .lock => ∀ line ∈ own username text, unlocked line
  | .unlock => True

variable {username groups hash : CStr} {line rest text : List Char} {p : CStr → Bool}
  {edit : List Char → List Char}

/-! ## Fields -/

theorem cut_colon (s : List Char) : cut (':' :: s) = some ([], s) := by
  simp [cut, Plain.c_string]

theorem cut_nul (s : List Char) : cut ('\x00' :: s) = none := by
  simp [cut, Plain.c_string]

theorem cut_cons {c : Char} (hcolon : c ≠ ':') (hnul : c ≠ '\x00') (s : List Char) :
    cut (c :: s) = (cut s).map fun parts => (c :: parts.1, parts.2) := by
  have hmem : ':' ∈ Plain.c_string (c :: s) ↔ ':' ∈ Plain.c_string s := by
    rw [Plain.c_string, takeWhile_cons_of_pos (by simpa using hnul), mem_cons]
    exact or_iff_right hcolon.symm
  unfold cut
  by_cases h : ':' ∈ Plain.c_string s
  · rw [if_pos h, if_pos (hmem.2 h), takeWhile_cons_of_pos (by simpa using hcolon),
      dropWhile_cons_of_pos (by simpa using hcolon)]
    rfl
  · rw [if_neg h, if_neg (mt hmem.1 h)]
    rfl

/-- The colon that `strchr` finds. -/
theorem cut_eq_some_iff {s a b : List Char} :
    cut s = some (a, b) ↔ s = a ++ ':' :: b ∧ ':' ∉ a ∧ '\x00' ∉ a := by
  induction s generalizing a with
  | nil => simp [cut, Plain.c_string]
  | cons c s ih =>
    by_cases hcolon : c = ':'
    · subst hcolon
      rw [cut_colon]
      cases a with
      | nil => simp
      | cons d a => grind
    · by_cases hnul : c = '\x00'
      · subst hnul
        rw [cut_nul]
        cases a with
        | nil => simp
        | cons d a => grind
      · rw [cut_cons hcolon hnul]
        cases a with
        | nil => simp [hcolon]
        | cons d a =>
          simp only [map_eq_some_iff, Prod.exists, Prod.mk.injEq, List.cons.injEq,
            cons_append, mem_cons, not_or]
          grind

theorem user_field_eq_some_iff :
    user_field line = some username ↔
      ∃ rest, line = username ++ ':' :: rest ∧ ':' ∉ username ∧ '\x00' ∉ username := by
  simp only [user_field, map_eq_some_iff, Prod.exists, cut_eq_some_iff]
  constructor
  · rintro ⟨user, rest, h, rfl⟩
    exact ⟨rest, h⟩
  · rintro ⟨rest, h⟩
    exact ⟨username, rest, h, rfl⟩

/-- What follows a record does not change whose record it is. -/
theorem user_field_append (h : user_field line = some username) (s : List Char) :
    user_field (line ++ s) = some username := by
  obtain ⟨rest, rfl, hfields⟩ := user_field_eq_some_iff.1 h
  refine user_field_eq_some_iff.2 ⟨rest ++ s, ?_, hfields⟩
  rw [append_assoc, cons_append]

variable {front hash : List Char} {files files' : Files}

/-- The two colons before the hash. -/
theorem split_hash_eq_some_iff (h : user_field line = some username) :
    split_hash line = some (front, hash) ↔
      ∃ groups, front = username ++ ':' :: (groups ++ [':']) ∧ line = front ++ hash ∧
        ':' ∉ groups ∧ '\x00' ∉ groups := by
  obtain ⟨rest, rfl, hfields⟩ := user_field_eq_some_iff.1 h
  have hcut : cut (username ++ ':' :: rest) = some (username, rest) :=
    cut_eq_some_iff.2 ⟨rfl, hfields⟩
  unfold split_hash
  rw [hcut]
  dsimp only
  constructor
  · intro hsplit
    cases hrest : cut rest with
    | none => simp [hrest] at hsplit
    | some parts =>
      obtain ⟨groups, q⟩ := parts
      obtain ⟨rfl, hgroups⟩ := cut_eq_some_iff.1 hrest
      simp only [hrest, some.injEq, Prod.mk.injEq] at hsplit
      obtain ⟨rfl, rfl⟩ := hsplit
      refine ⟨groups, rfl, ?_, hgroups⟩
      simp
  · rintro ⟨groups, rfl, hline, hgroups⟩
    obtain rfl : rest = groups ++ ':' :: hash := by simpa using hline
    have hrest : cut (groups ++ ':' :: hash) = some (groups, hash) :=
      cut_eq_some_iff.2 ⟨rfl, hgroups⟩
    rw [hrest]

/-! ## Lines of one user -/

/-- An edit of the lines of a user: what is left of a line is a line of the same user. -/
structure Edits (username : CStr) (edit : List Char → List Char) : Prop where
  user : ∀ {line}, user_field line = some username →
    edit line = [] ∨ user_field (edit line) = some username
  ended : ∀ {line}, user_field line = some username → Ended is_newline line →
    edit line = [] ∨ Ended is_newline (edit line)
  rest : ∀ {line}, user_field line = some username → (∀ c ∈ line, is_newline c = false) →
    Ended is_newline (edit line) ∨ ∀ c ∈ edit line, is_newline c = false

theorem edit_line_own (h : user_field line = some username) :
    edit_line username edit line = edit line := by
  rw [edit_line, h]
  exact if_pos rfl

theorem edit_line_other {user : CStr} (h : user_field line = some user) (hne : user ≠ username) :
    edit_line username edit line = line := by
  rw [edit_line, h]
  exact if_neg hne

theorem edit_line_none (h : user_field line = none) : edit_line username edit line = [] := by
  rw [edit_line, h]

/-- The lines that are left. -/
theorem lines_edit_lines (h : Edits username edit) (text : List Char) :
    lines is_newline (edit_lines username edit text) =
      (lines is_newline text).filterMap fun line => kept (edit_line username edit line) := by
  apply lines_flatMap
  · intro line hline
    cases huser : user_field line with
    | none => exact .inl (edit_line_none huser)
    | some user =>
      by_cases hown : user = username
      · rw [edit_line_own (hown ▸ huser)]
        exact h.ended (hown ▸ huser) hline
      · rw [edit_line_other huser hown]
        exact .inr hline
  · intro line hline
    cases huser : user_field line with
    | none =>
      rw [edit_line_none huser]
      exact .inr (by simp)
    | some user =>
      by_cases hown : user = username
      · rw [edit_line_own (hown ▸ huser)]
        exact h.rest (hown ▸ huser) hline
      · rw [edit_line_other huser hown]
        exact .inr hline

theorem linesOf_edit_lines (h : Edits username edit) (text : List Char) :
    linesOf p (edit_lines username edit text) = (lines is_newline text).filterMap fun line =>
      (kept (edit_line username edit line)).filter fun line => (user_field line).any p := by
  rw [linesOf, lines_edit_lines h, filter_filterMap]

theorem ne_nil_of_user (h : user_field line = some username) : line ≠ [] := by
  obtain ⟨rest, rfl, -⟩ := user_field_eq_some_iff.1 h
  simp

/-- The lines of the other users stay as they are. -/
theorem others_edit_lines (h : Edits username edit) (text : List Char) :
    others username (edit_lines username edit text) = others username text := by
  rw [others, linesOf_edit_lines h, others, linesOf, ← filterMap_eq_filter]
  apply filterMap_congr
  intro line _
  cases huser : user_field line with
  | none => simp [edit_line_none huser, huser, Option.guard]
  | some user =>
    by_cases hown : user = username
    · subst hown
      rw [edit_line_own huser]
      obtain hnil | huser' := h.user huser
      · simp [hnil, huser, Option.guard]
      · simp [kept_of_ne_nil (ne_nil_of_user huser'), huser, huser', Option.guard]
    · simp [edit_line_other huser hown, kept_of_ne_nil (ne_nil_of_user huser), huser, hown,
        Option.guard]

/-- The lines of the user are edited one by one. -/
theorem own_edit_lines (h : Edits username edit) (text : List Char) :
    own username (edit_lines username edit text) =
      (own username text).filterMap fun line => kept (edit line) := by
  rw [own, linesOf_edit_lines h, own, linesOf, filterMap_filter]
  apply filterMap_congr
  intro line _
  cases huser : user_field line with
  | none => simp [edit_line_none huser]
  | some user =>
    by_cases hown : user = username
    · subst hown
      rw [edit_line_own huser]
      obtain hnil | huser' := h.user huser
      · simp [hnil]
      · simp [kept_of_ne_nil (ne_nil_of_user huser'), huser']
    · simp [edit_line_other huser hown, kept_of_ne_nil (ne_nil_of_user huser), huser, hown]

theorem mem_own (h : line ∈ own username text) : user_field line = some username := by
  have hany := of_mem_filter h
  cases huser : user_field line with
  | none => simp [huser] at hany
  | some user => simpa [huser] using hany

/-! ## Deleting -/

theorem edits_delete (username : CStr) : Edits username fun _ => [] where
  user _ := .inl rfl
  ended _ _ := .inl rfl
  rest _ _ := .inr (by simp)

theorem own_delete_text (username : CStr) (text : List Char) :
    own username (delete_text username text) = [] := by
  rw [delete_text, own_edit_lines (edits_delete username)]
  simp

/-! ## Locking -/

/-- The end of a line stands behind its colons. -/
theorem ended_hash (hline : Ended is_newline (front ++ hash)) (hfront : front.getLast? = some ':') :
    (∀ c ∈ front, is_newline c = false) ∧ Ended is_newline hash := by
  apply (ended_append_iff ?_).1 hline
  rintro rfl
  obtain ⟨body, c, heq, hc, -⟩ := hline
  rw [append_nil] at heq
  rw [heq, List.getLast?_concat, some.injEq] at hfront
  rw [hfront] at hc
  exact absurd hc (by decide)

/-- An edit that changes what follows the second colon. -/
theorem edits_hash {f : List Char → List Char}
    (hedit : ∀ line front hash, split_hash line = some (front, hash) → edit line = front ++ f hash)
    (hnone : ∀ line, split_hash line = none → edit line = [])
    (hended : ∀ hash, Ended is_newline hash → Ended is_newline (f hash))
    (hrest : ∀ hash, (∀ c ∈ hash, is_newline c = false) → ∀ c ∈ f hash, is_newline c = false) :
    Edits username edit where
  user := by
    intro line huser
    cases hsplit : split_hash line with
    | none => exact .inl (hnone line hsplit)
    | some parts =>
      obtain ⟨front, hash⟩ := parts
      obtain ⟨groups, rfl, -⟩ := (split_hash_eq_some_iff huser).1 hsplit
      obtain ⟨rest, -, hfields⟩ := user_field_eq_some_iff.1 huser
      right
      rw [hedit line _ hash hsplit]
      refine user_field_eq_some_iff.2 ⟨groups ++ ':' :: f hash, ?_, hfields⟩
      simp
  ended := by
    intro line huser hline
    cases hsplit : split_hash line with
    | none => exact .inl (hnone line hsplit)
    | some parts =>
      obtain ⟨front, hash⟩ := parts
      obtain ⟨groups, hfront, rfl, -⟩ := (split_hash_eq_some_iff huser).1 hsplit
      have hlast : front.getLast? = some ':' := by
        rw [hfront, ← cons_append, ← append_assoc, List.getLast?_concat]
      obtain ⟨hclean, hhash⟩ := ended_hash hline hlast
      right
      rw [hedit _ front hash hsplit]
      exact (ended_append_iff (hended hash hhash).ne_nil).2 ⟨hclean, hended hash hhash⟩
  rest := by
    intro line huser hline
    right
    cases hsplit : split_hash line with
    | none =>
      rw [hnone line hsplit]
      simp
    | some parts =>
      obtain ⟨front, hash⟩ := parts
      obtain ⟨groups, -, rfl, -⟩ := (split_hash_eq_some_iff huser).1 hsplit
      rw [hedit _ front hash hsplit]
      intro c hc
      rcases mem_append.1 hc with hc | hc
      · exact hline c (mem_append_left _ hc)
      · exact hrest hash (fun c hc => hline c (mem_append_right _ hc)) c hc

theorem split_hash_append (h : split_hash line = some (front, hash)) :
    line = front ++ hash := by
  cases huser : user_field line with
  | none =>
    have hcut : cut line = none := by simpa [user_field] using huser
    simp [split_hash, hcut] at h
  | some user =>
    obtain ⟨groups, -, hline, -⟩ := (split_hash_eq_some_iff huser).1 h
    exact hline

/-- The hash of a locked user. -/
def lock_hash (hash : List Char) : List Char := if hash.head? = some '!' then hash else '!' :: hash

def unlock_hash (hash : List Char) : List Char := if hash.head? = some '!' then hash.tail else hash

theorem lock_line_eq (h : split_hash line = some (front, hash)) :
    lock_line line = front ++ lock_hash hash := by
  rw [lock_line, h, lock_hash]
  dsimp only
  split
  · exact split_hash_append h
  · rfl

theorem unlock_line_eq (h : split_hash line = some (front, hash)) :
    unlock_line line = front ++ unlock_hash hash := by
  rw [unlock_line, h, unlock_hash]
  dsimp only
  split <;> rfl

theorem ended_mark_iff (h : hash ≠ []) :
    Ended is_newline ('!' :: hash) ↔ Ended is_newline hash := by
  rw [← singleton_append, ended_append_iff h]
  exact and_iff_right (by simp [is_newline])

theorem edits_lock (username : CStr) : Edits username lock_line := by
  apply edits_hash (f := lock_hash)
  · exact fun line front hash h => lock_line_eq h
  · intro line h
    rw [lock_line, h]
  · intro hash h
    unfold lock_hash
    split
    · exact h
    · exact (ended_mark_iff h.ne_nil).2 h
  · intro hash h c hc
    unfold lock_hash at hc
    split at hc
    · exact h c hc
    · rcases mem_cons.1 hc with rfl | hc
      · rfl
      · exact h c hc

theorem edits_unlock (username : CStr) : Edits username unlock_line := by
  apply edits_hash (f := unlock_hash)
  · exact fun line front hash h => unlock_line_eq h
  · intro line h
    rw [unlock_line, h]
  · intro hash h
    unfold unlock_hash
    split
    next hmark =>
      obtain ⟨tail, rfl⟩ := List.head?_eq_some_iff.1 hmark
      have htail : tail ≠ [] := by
        rintro rfl
        obtain ⟨body, c, heq, hc, -⟩ := h
        obtain rfl : '!' = c := by simpa using congrArg List.getLast? heq
        exact absurd hc (by decide)
      exact (ended_mark_iff htail).1 h
    next => exact h
  · intro hash h c hc
    unfold unlock_hash at hc
    split at hc
    · exact h c (mem_of_mem_tail hc)
    · exact h c hc

/-- A record without a mark comes back. -/
theorem unlock_lock_line (huser : user_field line = some username) (h : unlocked line) :
    lock_line line ≠ [] ∧ unlock_line (lock_line line) = line := by
  unfold unlocked at h
  cases hsplit : split_hash line with
  | none => simp [hsplit] at h
  | some parts =>
    obtain ⟨front, hash⟩ := parts
    have hmark : hash.head? ≠ some '!' := by simpa [hsplit] using h
    have hlock : lock_line line = front ++ '!' :: hash := by
      rw [lock_line_eq hsplit, lock_hash, if_neg hmark]
    obtain ⟨groups, hfront, hline, hgroups⟩ := (split_hash_eq_some_iff huser).1 hsplit
    have huser' : user_field (lock_line line) = some username := by
      obtain hnil | huser' := (edits_lock username).user huser
      · rw [hlock] at hnil
        simp at hnil
      · exact huser'
    have hsplit' : split_hash (lock_line line) = some (front, '!' :: hash) :=
      (split_hash_eq_some_iff huser').2 ⟨groups, hfront, hlock, hgroups⟩
    refine ⟨ne_nil_of_user huser', ?_⟩
    rw [unlock_line_eq hsplit', unlock_hash, List.head?_cons, if_pos rfl, tail_cons, hline]

/-- A record that comes back had no mark. -/
theorem unlocked_of_unlock_lock (h : unlock_line (lock_line line) = line) (hne : line ≠ []) :
    unlocked line := by
  unfold unlocked
  cases hsplit : split_hash line with
  | none =>
    have hlock : lock_line line = [] := by rw [lock_line, hsplit]
    rw [hlock] at h
    exact absurd h.symm hne
  | some parts =>
    obtain ⟨front, hash⟩ := parts
    by_cases hmark : hash.head? = some '!'
    · -- the mark that was there is the one that is taken off
      have hlock : lock_line line = line := by
        rw [lock_line_eq hsplit, lock_hash, if_pos hmark, split_hash_append hsplit]
      rw [hlock, unlock_line_eq hsplit, unlock_hash, if_pos hmark] at h
      have hlen := congrArg List.length (h.trans (split_hash_append hsplit))
      obtain ⟨tail, rfl⟩ := List.head?_eq_some_iff.1 hmark
      simp at hlen
    · simpa using hmark

theorem eq_some_of_filterMap_eq_self {α : Type} {f : α → Option α} {l : List α}
    (h : l.filterMap f = l) : ∀ a ∈ l, f a = some a := by
  induction l with
  | nil => simp
  | cons a l ih =>
    cases ha : f a with
    | none =>
      rw [filterMap_cons_none ha] at h
      have hlen := congrArg List.length h
      have hle := length_filterMap_le f l
      rw [length_cons] at hlen
      omega
    | some b =>
      rw [filterMap_cons_some ha, List.cons.injEq] at h
      intro x hx
      rcases mem_cons.1 hx with rfl | hx
      · rw [ha, h.1]
      · exact ih h.2 x hx

theorem own_unlock_lock_iff (username : CStr) (text : List Char) :
    own username (unlock_text username (lock_text username text)) = own username text ↔
      ∀ line ∈ own username text, unlocked line := by
  rw [unlock_text, own_edit_lines (edits_unlock username), lock_text,
    own_edit_lines (edits_lock username), filterMap_filterMap]
  constructor
  · intro h line hline
    have hsome := eq_some_of_filterMap_eq_self h line hline
    obtain ⟨locked, hlock, hunlock⟩ := bind_eq_some_iff.1 hsome
    have hkept : ∀ {l l' : List Char}, kept l = some l' → l = l' := by
      intro l l' hl
      exact (ite_none_left_eq_some.1 hl).2 |> some.inj
    obtain rfl := hkept hlock
    exact unlocked_of_unlock_lock (hkept hunlock) (ne_nil_of_user (mem_own hline))
  · intro h
    rw [filterMap_congr (g := some), filterMap_some]
    intro line hline
    obtain ⟨hne, hback⟩ := unlock_lock_line (mem_own hline) (h line hline)
    rw [kept_of_ne_nil hne, bind_some, hback]
    exact kept_of_ne_nil (ne_nil_of_user (mem_own hline))

/-! ## Setting -/

theorem ended_record_iff :
    Ended is_newline (record username groups hash) ↔
      '\n' ∉ username ∧ '\n' ∉ groups ∧ '\n' ∉ hash := by
  have hend : Ended is_newline ['\n'] := ⟨[], '\n', rfl, rfl, by simp⟩
  rw [record, ended_append_iff (cons_ne_nil _ _), and_iff_left hend]
  simp only [is_newline, mem_append, mem_cons, beq_eq_false_iff_ne]
  grind

theorem hasFields_record_iff :
    HasFields (record username groups hash) username groups hash ↔
      ':' ∉ username ∧ ':' ∉ groups ∧ ':' ∉ hash := and_iff_right rfl

section Set

variable (husername : Field username) (hgroups : Field groups) (hhash : Field hash)

include husername hgroups hhash

theorem ended_record : Ended is_newline (record username groups hash) :=
  ended_record_iff.2 ⟨husername.2.1, hgroups.2.1, hhash.2.1⟩

omit hgroups hhash in
theorem user_field_record : user_field (record username groups hash) = some username := by
  refine user_field_eq_some_iff.2 ⟨groups ++ ':' :: hash ++ ['\n'], ?_, husername.1, husername.2.2⟩
  simp [record]

theorem edits_set : Edits username fun _ => record username groups hash where
  user _ := .inr (user_field_record husername)
  ended _ _ := .inr (ended_record husername hgroups hhash)
  rest _ _ := .inl (ended_record husername hgroups hhash)

omit husername hgroups hhash in
theorem any_user_iff :
    ((lines is_newline text).any fun line => user_field line == some username) = true ↔
      own username text ≠ [] := by
  rw [own, linesOf, Ne, List.filter_eq_nil_iff, List.any_eq_true]
  push Not
  apply exists_congr
  intro line
  cases user_field line <;> simp

/-- Each record of the user is replaced. -/
theorem set_text_found (h : own username text ≠ []) :
    others username (set_text username groups hash text) = others username text ∧
      own username (set_text username groups hash text) =
        (own username text).map fun _ => record username groups hash := by
  have hedits := edits_set husername hgroups hhash
  rw [set_text, if_pos (any_user_iff.2 h), append_nil]
  refine ⟨others_edit_lines hedits text, ?_⟩
  rw [own_edit_lines hedits]
  simp only [kept_of_ne_nil (ended_record husername hgroups hhash).ne_nil, filterMap_eq_map']

end Set

/-- The lines that are records. -/
def recorded (L : List (List Char)) : List (List Char) :=
  L.filter fun line => user_field line != none

/-- Without a record of the user, all records are kept. -/
theorem edit_lines_of_absent (h : own username text = []) :
    edit_lines username edit text = (recorded (lines is_newline text)).flatten := by
  have habsent : ∀ line ∈ lines is_newline text, user_field line ≠ some username := by
    intro line hline huser
    have hmem : line ∈ own username text := mem_filter.2 ⟨hline, by simp [huser]⟩
    rw [h] at hmem
    exact not_mem_nil hmem
  unfold edit_lines recorded
  generalize lines is_newline text = L at habsent ⊢
  induction L with
  | nil => rfl
  | cons line L ih =>
    have hrest := ih fun l hl => habsent l (mem_cons_of_mem _ hl)
    rw [flatMap_cons, hrest]
    cases huser : user_field line with
    | none => simp [edit_line_none huser, huser]
    | some user =>
      have hother : user ≠ username := fun hsame =>
        habsent line mem_cons_self (hsame ▸ huser)
      simp [edit_line_other huser hother, huser]

theorem filter_recorded (L : List (List Char)) :
    (recorded L).filter (fun line => (user_field line).any p) =
      L.filter fun line => (user_field line).any p := by
  rw [recorded, List.filter_filter]
  apply List.filter_congr
  intro line _
  cases user_field line <;> simp

/-- Records that have their end stay apart from what is appended. -/
theorem linesOf_append {L : List (List Char)} (hL : ∀ line ∈ recorded L, Ended is_newline line)
    (hline : Ended is_newline line) :
    linesOf p ((recorded L).flatten ++ line) =
      (L.filter fun line => (user_field line).any p) ++
        if (user_field line).any p then [line] else [] := by
  have hone := @lines_flatten _ is_newline [line] (by simpa using hline) []
  rw [flatten_singleton, append_nil, lines_nil, append_nil] at hone
  rw [linesOf, lines_flatten hL, hone, filter_append, filter_recorded, filter_singleton,
    Bool.cond_eq_ite]

section Append

variable (husername : Field username) (hgroups : Field groups) (hhash : Field hash)
  (habsent : own username text = [])

include husername hgroups hhash habsent

theorem set_text_terminated (h : Terminated text) :
    others username (set_text username groups hash text) = others username text ∧
      own username (set_text username groups hash text) = [record username groups hash] := by
  have hended : ∀ line ∈ recorded (lines is_newline text), Ended is_newline line := by
    intro line hline
    obtain ⟨hmem, huser⟩ := mem_filter.1 hline
    have hlast := h line hmem (by simpa using huser)
    refine (mem_lines _ _ line hmem).2.resolve_right fun hclean => ?_
    exact absurd (hclean '\n' (mem_of_getLast? hlast)) (by decide)
  have huser : user_field (record username groups hash) = some username :=
    user_field_record husername
  have hrecord := ended_record husername hgroups hhash
  rw [set_text, if_neg (mt any_user_iff.1 (not_not.2 habsent)), edit_lines_of_absent habsent]
  constructor
  · rw [others, linesOf_append hended hrecord, huser, others, linesOf]
    simp
  · have hnone : (lines is_newline text).filter
        (fun line => (user_field line).any (· == username)) = [] := habsent
    rw [own, linesOf_append hended hrecord, huser, hnone]
    simp

/-- A record that lacks its end takes the new one in. -/
theorem terminated_of_set_text
    (h : others username (set_text username groups hash text) = others username text) :
    Terminated text := by
  intro line hline huser
  by_contra hlast
  obtain ⟨L, rest, htext, hL, hrest⟩ := exists_lines is_newline text
  have hlines : lines is_newline text = L ++ lines is_newline rest := by
    rw [htext, lines_flatten hL]
  -- the line without an end is what follows the lines that have one
  obtain rfl : line = rest := by
    rw [hlines] at hline
    rcases mem_append.1 hline with hline | hline
    · obtain ⟨body, c, rfl, hc, -⟩ := hL line hline
      rw [List.getLast?_concat, some.injEq] at hlast
      exact absurd (by simpa [is_newline] using hc) hlast
    · by_cases hnil : rest = []
      · simp [hnil] at hline
      · rw [lines_of_not_ended hnil hrest] at hline
        exact mem_singleton.1 hline
  obtain ⟨user, hsome⟩ := ne_none_iff_exists'.1 huser
  have hother : user ≠ username := by
    rintro rfl
    have hmem : line ∈ own user text := mem_filter.2 ⟨hline, by simp [hsome]⟩
    rw [habsent] at hmem
    exact not_mem_nil hmem
  rw [lines_of_not_ended (ne_nil_of_user hsome) hrest] at hlines
  have hrecord := ended_record husername hgroups hhash
  have hmerged : Ended is_newline (line ++ record username groups hash) :=
    (ended_append_iff hrecord.ne_nil).2 ⟨hrest, hrecord⟩
  have hkept : recorded (L ++ [line]) = recorded L ++ [line] := by
    simp [recorded, hsome]
  rw [set_text, if_neg (mt any_user_iff.1 (not_not.2 habsent)), edit_lines_of_absent habsent,
    hlines, hkept, flatten_append, flatten_singleton, append_assoc, others,
    linesOf_append (fun l hl => hL l (mem_filter.1 hl).1) hmerged, user_field_append hsome,
    others, linesOf, hlines, filter_append] at h
  have hsame := append_cancel_left h
  simp [hsome, hother] at hsame
  exact hrecord.ne_nil hsame

end Append

theorem set_text_iff (husername : '\x00' ∉ username) (hgroups : '\x00' ∉ groups)
    (hhash : Field hash) :
    (others username (set_text username groups hash text) = others username text ∧
      ∃ line, own username (set_text username groups hash text) = [line] ∧
        HasFields line username groups hash) ↔
      Field username ∧ Field groups ∧
        ((own username text).length = 1 ∨ own username text = [] ∧ Terminated text) := by
  constructor
  · rintro ⟨hothers, line, hown, hline, hfields⟩
    have hended : Ended is_newline (record username groups hash) := by
      have hmem : line ∈ own username (set_text username groups hash text) := by simp [hown]
      rw [hline] at hmem
      refine (mem_lines _ _ _ (mem_filter.1 hmem).1).2.resolve_right fun hclean => ?_
      exact absurd (hclean '\n' (by simp)) (by decide)
    have hclean := ended_record_iff.1 hended
    have huser : Field username := ⟨hfields.1, hclean.1, husername⟩
    have hgroups : Field groups := ⟨hfields.2.1, hclean.2.1, hgroups⟩
    refine ⟨huser, hgroups, ?_⟩
    by_cases habsent : own username text = []
    · exact .inr ⟨habsent, terminated_of_set_text huser hgroups hhash habsent hothers⟩
    · left
      have hfound := (set_text_found huser hgroups hhash habsent).2
      rw [hown] at hfound
      simpa using (congrArg List.length hfound).symm
  · rintro ⟨huser, hgroups, hone | ⟨habsent, hterminated⟩⟩
    · have hne : own username text ≠ [] := by
        intro hnil
        simp [hnil] at hone
      obtain ⟨hothers, hown⟩ := set_text_found huser hgroups hhash hne
      obtain ⟨line, hline⟩ := length_eq_one_iff.1 hone
      refine ⟨hothers, record username groups hash, ?_, ?_⟩
      · rw [hown, hline]
        rfl
      · exact hasFields_record_iff.2 ⟨huser.1, hgroups.1, hhash.1⟩
    · obtain ⟨hothers, hown⟩ := set_text_terminated huser hgroups hhash habsent hterminated
      exact ⟨hothers, _, hown, hasFields_record_iff.2 ⟨huser.1, hgroups.1, hhash.1⟩⟩

/-! ## The operations -/

theorem replace_text (h : replace files text = some files') :
    files' = { files with passwd := some text } ∧ files.locked = false ∧ files.writable := by
  unfold replace at h
  split at h
  · cases h
  · next hfree => simp_all

theorem edit_file_text (h : edit_file files edit = some files') :
    files'.text = edit files.text ∧
      ∀ edit', ∃ files'', edit_file files' edit' = some files'' ∧
        files''.text = edit' (edit files.text) := by
  unfold edit_file at h
  cases hpasswd : files.passwd with
  | none => simp [hpasswd] at h
  | some text =>
    simp only [hpasswd] at h
    obtain ⟨rfl, hlocked, hwritable⟩ := replace_text h
    have htext : files.text = text := by rw [Files.text, hpasswd]; rfl
    rw [htext]
    refine ⟨rfl, fun edit' => ⟨{ files with passwd := some (edit' (edit text)) }, ?_, rfl⟩⟩
    simp [edit_file, replace, hlocked, hwritable]

theorem crypt_passwd_field {env : Env} {passwd : CStr} (h : crypt_passwd env passwd = some hash) :
    Field hash := by
  unfold crypt_passwd at h
  cases hnonce : env.gnutls_rnd with
  | none => simp [hnonce] at h
  | some nonce =>
    simp only [hnonce] at h
    cases hcrypt : env.crypt passwd (salt '5' nonce) with
    | none =>
      rw [hcrypt] at h
      exact env.crypt_field h
    | some cr_passwd =>
      rw [hcrypt, some.injEq] at h
      exact env.crypt_field (h ▸ hcrypt)

/-- An operation edits one user as it should exactly when names and groups are fields, a password is
set for a user with one record, or for one without a record in a file whose last record has its
end, and the records that are locked have a hash without a mark. -/
theorem ocpasswd_edits_one_iff {env : Env} {files files' : Files} {op : Op}
    (husername : '\x00' ∉ username)
    (hgroups : ∀ groupname passwd, op = .set (some groupname) passwd → '\x00' ∉ groupname)
    (hrun : ocpasswd env files username op = some files') :
    EditsOne env files files' username op ↔ Fit username files.text op := by
  cases op with
  | set groupname passwd =>
    have hnul : '\x00' ∉ groupname.getD ['*'] := by
      cases groupname with
      | none => decide
      | some groupname => exact hgroups groupname passwd rfl
    unfold ocpasswd crypt_int at hrun
    cases hcrypt : crypt_passwd env passwd with
    | none => simp [hcrypt] at hrun
    | some hash =>
      simp only [hcrypt] at hrun
      obtain ⟨rfl, -⟩ := replace_text hrun
      have hhash := crypt_passwd_field hcrypt
      rw [Fit, ← set_text_iff husername hnul hhash]
      simp [EditsOne, hcrypt, Files.text]
  | delete =>
    have htext := (edit_file_text hrun).1
    refine iff_of_true ⟨?_, ?_⟩ trivial
    · rw [htext]
      exact others_edit_lines (edits_delete username) _
    · rw [htext]
      exact own_delete_text username _
  | lock =>
    obtain ⟨htext, hunlock⟩ := edit_file_text hrun
    obtain ⟨files'', hrun', htext'⟩ := hunlock (unlock_text username)
    have hothers : others username files'.text = others username files.text := by
      rw [htext]
      exact others_edit_lines (edits_lock username) _
    rw [Fit, ← own_unlock_lock_iff, ← htext']
    constructor
    · rintro ⟨-, found, hfound, hown⟩
      obtain rfl : found = files'' := some.inj (hfound.symm.trans hrun')
      exact hown
    · exact fun hown => ⟨hothers, files'', hrun', hown⟩
  | unlock =>
    refine iff_of_true ⟨?_, trivial⟩ trivial
    rw [(edit_file_text hrun).1]
    exact others_edit_lines (edits_unlock username) _

/-! ## An example -/

section Example

/-- All passwords have one hash. -/
def oneHash : Env where
  gnutls_rnd := some []
  crypt _ _ := some ['h']
  crypt_field h := by
    cases h
    decide

/-- A file with two records. -/
def twoRecords : Files := { passwd := some "al:*:x\nbo:*:y\n".toList }

/-- The password of the second of two users is set. -/
theorem ocpasswd_edits_second :
    ∃ files', ocpasswd oneHash twoRecords "bo".toList (.set none "pw".toList) = some files' ∧
      EditsOne oneHash twoRecords files' "bo".toList (.set none "pw".toList) := by
  refine ⟨_, rfl, (ocpasswd_edits_one_iff (by decide) (fun _ _ h => by cases h) rfl).2 ?_⟩
  exact ⟨by decide, by decide, .inl (by decide +kernel)⟩

/-- In a file whose last line lacks its end, the new record becomes a part of that line. -/
theorem ocpasswd_spoils_last :
    ∃ files', ocpasswd oneHash { passwd := some "al:*:x".toList } "bo".toList
        (.set none "pw".toList) = some files' ∧
      files'.text = "al:*:xbo:*:h\n".toList ∧
      ¬ EditsOne oneHash { passwd := some "al:*:x".toList } files' "bo".toList
        (.set none "pw".toList) := by
  refine ⟨_, rfl, by decide +kernel, fun h => ?_⟩
  exact absurd h.1 (by decide +kernel)

end Example

end Ocpasswd

end Ocserv

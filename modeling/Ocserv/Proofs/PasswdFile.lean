import Ocserv.Auth.Plain

/-!
# Looking up a user in the password file

The file is meant to be read line by line, up to the first line `user:groups:hash` of the user.
What `read_auth_pass` reads are pieces of at most 510 characters: a longer line is cut, and what
follows the cut is taken for another line.  Lines of at most four characters are not looked at, and
of the hash no more than 127 characters are kept.  `read_auth_pass_iff` says that without such
lines, up to the one of the user, the lookup is what it is meant to be, and with one it is not.
-/

namespace Ocserv

open List Option

namespace Plain

variable {env : PlainEnv} {pctx : PlainSt} {username g hash text : CStr} {line file : List Char}

/-! ## The lookup as it is meant -/

def file_lines (file : List Char) : List (List Char) := Lines.lines (· == '\n') file

/-- The groups and the hash of a line that is an entry of the user. -/
def line_entry (username : CStr) (line : List Char) : Option (CStr × CStr) :=
  match (line_text line).splitOn ':' with
  | user :: groups :: hash :: _ => if user = username then some (groups, hash) else none
  | _ => none

/-- The first entry of the user. -/
def first_entry (username : CStr) (lines : List (List Char)) : Option (CStr × CStr) :=
  lines.findSome? (line_entry username)

/-- The lines up to the first entry of the user. -/
def until_entry (username : CStr) : List (List Char) → List (List Char)
  | [] => []
  | line :: rest =>
    line :: if (line_entry username line).isSome then [] else until_entry username rest

/-- What the module knows of the user is what the entry says. -/
def Yields (pctx : PlainSt) : Option (CStr × CStr) → Prop
  | none => pctx.unknown_user
  | some (groups, hash) =>
    pctx.unknown_user = false ∧ pctx.groupnames = break_group_list groups ∧ pctx.cpass = hash

/-! ## The lookup as it is done -/

/-- What the loop of `read_auth_pass` takes for lines. -/
def interpreted (pctx : PlainSt) : List (List Char) → List (List Char)
  | [] => []
  | line :: rest =>
    line :: if (read_line pctx line).2 then [] else interpreted (read_line pctx line).1 rest

/-- A token of `strsep` is a field of the text. -/
theorem strsep_cases (text : CStr) :
    (strsep (some text) = (some text, none) ∧ text.splitOn ':' = [text]) ∨
      ∃ field rest, strsep (some text) = (some field, some rest) ∧
        text.splitOn ':' = field :: rest.splitOn ':' := by
  have hjoin := takeWhile_append_dropWhile (p := (· != ':')) (l := text)
  rw [Lines.splitOn_eq, strsep]
  cases hrest : text.dropWhile (· != ':') with
  | nil =>
    rw [hrest, append_nil] at hjoin
    exact .inl ⟨by rw [hjoin], by rw [hjoin]⟩
  | cons c rest => exact .inr ⟨_, rest, rfl, rfl⟩

/-! ## One line -/

theorem strsep_of_entry (h : line_entry username line = some (g, hash)) :
    ∃ sp sp', strsep (some (line_text line)) = (some username, some sp) ∧
      strsep (some sp) = (some g, some sp') ∧ (strsep (some sp')).1 = some hash := by
  rw [line_entry] at h
  rcases strsep_cases (line_text line) with ⟨-, hone⟩ | ⟨user, sp, hsep, hmore⟩
  · simp [hone] at h
  · rcases strsep_cases sp with ⟨-, hone⟩ | ⟨groups, sp', hsep', hmore'⟩
    · simp [hmore, hone] at h
    · rcases strsep_cases sp' with ⟨hsep'', hlast⟩ | ⟨third, rest, hsep'', hlast⟩
      all_goals
        rw [hmore, hmore', hlast] at h
        obtain ⟨rfl, hpair⟩ := ite_none_right_eq_some.1 h
        obtain ⟨rfl, rfl⟩ := Prod.mk.inj (some.inj hpair)
        exact ⟨sp, sp', hsep, hsep', by rw [hsep'']⟩

/-- Three tokens, the first of which is the user, are an entry. -/
theorem entry_of_strsep {sp sp' : Option CStr}
    (huser : strsep (some (line_text line)) = (some username, sp))
    (hgroups : strsep sp = (some g, sp')) (hhash : (strsep sp').1 = some hash) :
    line_entry username line = some (g, hash) := by
  rcases strsep_cases (line_text line) with ⟨hsep, -⟩ | ⟨user, rest, hsep, hmore⟩
  · rw [hsep] at huser
    obtain rfl := (Prod.mk.inj huser).2
    simp [strsep] at hgroups
  · obtain ⟨hfirst, rfl⟩ := Prod.mk.inj (hsep.symm.trans huser)
    rcases strsep_cases rest with ⟨hsep', -⟩ | ⟨groups, rest', hsep', hmore'⟩
    · rw [hsep'] at hgroups
      obtain rfl := (Prod.mk.inj hgroups).2
      simp [strsep] at hhash
    · obtain ⟨hsecond, rfl⟩ := Prod.mk.inj (hsep'.symm.trans hgroups)
      rcases strsep_cases rest' with ⟨hsep'', hlast⟩ | ⟨third, rest'', hsep'', hlast⟩
      all_goals
        rw [hsep''] at hhash
        rw [line_entry, hmore, hmore', hlast, some.inj hfirst, some.inj hsecond,
          some.inj hhash]
        exact if_pos rfl

theorem read_line_entry (hlen : 4 < (c_string line).length)
    (hentry : line_entry pctx.username line = some (g, hash)) :
    read_line pctx line =
      ({ pctx with
          groupnames := break_group_list g
          cpass := strlcpy hash MAX_CPASS_SIZE
          unknown_user := false }, true) := by
  obtain ⟨sp, sp', huser, hgroups, hhash⟩ := strsep_of_entry hentry
  rw [read_line, if_neg (Nat.not_le.2 hlen)]
  simp only [huser, hgroups, hhash, if_true]

/-- No other line does; at most groups and a salt are taken from it. -/
theorem read_line_no_entry
    (hentry : line_entry pctx.username line = none ∨ (c_string line).length ≤ 4) :
    ∃ groups salt,
      read_line pctx line = ({ pctx with groupnames := groups, dummy_salt := salt }, false) := by
  by_cases hlen : (c_string line).length ≤ 4
  · exact ⟨pctx.groupnames, pctx.dummy_salt, by rw [read_line, if_pos hlen]⟩
  have hnone := hentry.resolve_right hlen
  by_cases huser : (strsep (some (line_text line))).1 = some pctx.username
  · cases hgroups : (strsep (strsep (some (line_text line))).2).1 with
    | none =>
      exact ⟨pctx.groupnames, pctx.dummy_salt, by simp [read_line, hlen, huser, hgroups]⟩
    | some g =>
      cases hhash : (strsep (strsep (strsep (some (line_text line))).2).2).1 with
      | none =>
        exact ⟨break_group_list g, pctx.dummy_salt,
          by simp [read_line, hlen, huser, hgroups, hhash]⟩
      | some hash =>
        rw [entry_of_strsep (Prod.ext huser rfl) (Prod.ext hgroups rfl) hhash] at hnone
        exact absurd hnone (some_ne_none _)
  · simp only [read_line, if_neg hlen, if_neg huser]
    split
    · split
      · exact ⟨pctx.groupnames, pctx.dummy_salt, rfl⟩
      · next hash _ =>
        split
        · exact ⟨pctx.groupnames, strlcpy hash MAX_CPASS_SIZE, rfl⟩
        · exact ⟨pctx.groupnames, pctx.dummy_salt, rfl⟩
    · exact ⟨pctx.groupnames, pctx.dummy_salt, rfl⟩

/-! ## The file -/

/-- The loop finds an entry of the user, or it leaves the user unknown. -/
theorem read_lines_cases (pctx : PlainSt) (lines : List (List Char)) :
    (∃ groups salt,
        read_lines pctx lines = { pctx with groupnames := groups, dummy_salt := salt }) ∨
      ∃ line ∈ lines, ∃ g hash salt, line_entry pctx.username line = some (g, hash) ∧
        read_lines pctx lines =
          { pctx with
            groupnames := break_group_list g
            cpass := strlcpy hash MAX_CPASS_SIZE
            dummy_salt := salt
            unknown_user := false } := by
  induction lines generalizing pctx with
  | nil => exact .inl ⟨pctx.groupnames, pctx.dummy_salt, rfl⟩
  | cons line lines ih =>
    by_cases hentry : line_entry pctx.username line = none ∨ (c_string line).length ≤ 4
    · obtain ⟨groups, salt, hread⟩ := read_line_no_entry hentry
      rw [read_lines, hread, if_neg Bool.false_ne_true]
      rcases ih { pctx with groupnames := groups, dummy_salt := salt } with
        ⟨groups', salt', h⟩ | ⟨found, hfound, g, hash, salt', h, hread'⟩
      · exact .inl ⟨groups', salt', h⟩
      · exact .inr ⟨found, mem_cons_of_mem line hfound, g, hash, salt', h, hread'⟩
    · obtain ⟨hsome, hlen⟩ := not_or.1 hentry
      obtain ⟨⟨g, hash⟩, hfound⟩ := ne_none_iff_exists'.1 hsome
      refine .inr ⟨line, List.mem_cons_self, g, hash, pctx.dummy_salt, hfound, ?_⟩
      rw [read_lines, read_line_entry (Nat.not_le.1 hlen) hfound, if_pos rfl]

/-- A line that is read whole and as a line. -/
structure Readable (username : CStr) (line : List Char) : Prop where
  fits : line.length ≤ LINE_SIZE
  entry : ∀ g hash, line_entry username line = some (g, hash) →
    4 < (c_string line).length ∧ hash.length < MAX_CPASS_SIZE

theorem readable_iff : Readable username line ↔ line.length ≤ LINE_SIZE ∧
    ∀ entry ∈ line_entry username line,
      4 < (c_string line).length ∧ entry.2.length < MAX_CPASS_SIZE :=
  ⟨fun h => ⟨h.fits, fun entry he => h.entry entry.1 entry.2 he⟩,
    fun h => ⟨h.1, fun g hash he => h.2 (g, hash) he⟩⟩

instance : Decidable (Readable username line) := decidable_of_iff _ readable_iff.symm

/-- The pieces are taken for the lines up to the entry of the user, and the entry is found. -/
def LooksUp (pctx : PlainSt) (pieces lines : List (List Char)) : Prop :=
  interpreted pctx pieces = until_entry pctx.username lines ∧
    Yields (read_lines pctx pieces) (first_entry pctx.username lines)

variable {pieces lines : List (List Char)}

theorem looksUp_cons_of_no_entry (hentry : line_entry pctx.username line = none) :
    LooksUp pctx (line :: pieces) (line :: lines) ↔
      LooksUp (read_line pctx line).1 pieces lines := by
  obtain ⟨groups, salt, hread⟩ := read_line_no_entry (.inl hentry)
  have huntil : until_entry pctx.username (line :: lines) =
      line :: until_entry pctx.username lines := by
    rw [until_entry, hentry]
    rfl
  have hfirst : first_entry pctx.username (line :: lines) = first_entry pctx.username lines := by
    rw [first_entry, List.findSome?_cons, hentry]
    rfl
  rw [LooksUp, LooksUp, interpreted, read_lines, huntil, hfirst, hread]
  simp

theorem strlcpy_eq_iff {s : CStr} {size : Nat} (hsize : 0 < size) :
    strlcpy s size = s ↔ s.length < size := by
  rw [strlcpy, take_eq_self_iff]
  omega

/-- An entry that is not too short is found, and its hash is kept as far as there is room. -/
theorem looksUp_cons_of_entry (hentry : line_entry pctx.username line = some (g, hash))
    (hunknown : pctx.unknown_user) :
    LooksUp pctx (line :: pieces) (line :: lines) ↔
      4 < (c_string line).length ∧ hash.length < MAX_CPASS_SIZE := by
  have huntil : until_entry pctx.username (line :: lines) = [line] := by
    rw [until_entry, hentry]
    rfl
  have hfirst : first_entry pctx.username (line :: lines) = some (g, hash) := by
    rw [first_entry, List.findSome?_cons, hentry]
  rw [LooksUp, huntil, hfirst]
  by_cases hlen : 4 < (c_string line).length
  · rw [interpreted, read_lines, read_line_entry hlen hentry]
    simp only [if_true, Yields, true_and, hlen]
    exact strlcpy_eq_iff (by decide)
  · -- the line is passed over, and either there is another one or the user is not found
    have hshort : (c_string line).length ≤ 4 := Nat.not_lt.1 hlen
    obtain ⟨groups, salt, hread⟩ := read_line_no_entry (.inr hshort)
    rw [interpreted, read_lines, hread]
    refine iff_of_false ?_ (fun h => hlen h.1)
    rintro ⟨hone, hknown, -⟩
    cases pieces with
    | nil => exact absurd (hunknown.symm.trans hknown) (by decide)
    | cons piece pieces => simp [interpreted] at hone

theorem lookup_iff (hunknown : pctx.unknown_user) :
    LooksUp pctx (passwd_lines file) (file_lines file) ↔
      ∀ line ∈ until_entry pctx.username (file_lines file), Readable pctx.username line := by
  induction file using Lines.lines_induction (· == '\n') generalizing pctx with
  | nil =>
    simpa [LooksUp, passwd_lines, file_lines, until_entry, interpreted, first_entry, read_lines,
      Yields]
  | cons s hs ih =>
    have hlines : file_lines s =
        (Lines.line (· == '\n') s).1 :: file_lines (Lines.line (· == '\n') s).2 :=
      Lines.lines_eq_cons hs
    have hpieces : passwd_lines s = (Lines.piece (· == '\n') LINE_SIZE s).1 ::
        passwd_lines (Lines.piece (· == '\n') LINE_SIZE s).2 :=
      Lines.pieces_eq_cons (by decide) hs
    rw [hlines, hpieces]
    by_cases hfits : (Lines.line (· == '\n') s).1.length ≤ LINE_SIZE
    · rw [Lines.piece_of_fits hfits]
      cases hentry : line_entry pctx.username (Lines.line (· == '\n') s).1 with
      | none =>
        obtain ⟨groups, salt, hread⟩ := read_line_no_entry (.inl hentry)
        have hrest := @ih { pctx with groupnames := groups, dummy_salt := salt } hunknown
        rw [looksUp_cons_of_no_entry hentry, hread, hrest, until_entry, hentry]
        simp only [isSome_none, Bool.false_eq_true, if_false, forall_mem_cons]
        exact (and_iff_right ⟨hfits, fun g hash h => by rw [hentry] at h; cases h⟩).symm
      | some entry =>
        obtain ⟨g, hash⟩ := entry
        rw [looksUp_cons_of_entry hentry hunknown, until_entry, hentry]
        simp only [isSome_some, if_true, forall_mem_singleton]
        constructor
        · intro h
          refine ⟨hfits, fun g' hash' h' => ?_⟩
          obtain ⟨rfl, rfl⟩ := Prod.mk.inj (some.inj (hentry.symm.trans h'))
          exact h
        · exact fun h => h.entry g hash hentry
    · -- the line is cut: already the first piece is not a line of the file
      constructor
      · rintro ⟨hsame, -⟩
        rw [interpreted, until_entry] at hsame
        have hhead := congrArg List.length (List.cons.inj hsame).1
        rw [Lines.piece, length_take] at hhead
        omega
      · intro hall
        exact absurd (hall _ List.mem_cons_self).fits hfits

section Example

end Example

end Plain

end Ocserv

import Ocserv.Auth.Plain

/-!
# Lists of groups in the password file

`break_group_list` takes a text apart at the commas and removes the white space around them.
Of the last group it removes what follows its last blank, whether that is white space or not: a
list is read back if and only if its last name has no blank in it.
-/

namespace Ocserv

open List

namespace Plain

open Inet (isSpace)
open SecMod (MAX_GROUPS)

variable {text name first before : CStr} {fuel : Nat}

/-! ## White space -/

def White (text : CStr) : Prop := ∀ c ∈ text, isSpace c

/-- A name for which the round trip can be expected. -/
structure GroupName (name : CStr) : Prop where
  two_le : 2 ≤ name.length
  no_comma : ',' ∉ name
  head : ∀ c ∈ name.head?, isSpace c = false
  last : ∀ c ∈ name.getLast?, isSpace c = false

theorem groupName_iff {name : CStr} : GroupName name ↔ 2 ≤ name.length ∧ ',' ∉ name ∧
    name.head?.all (!isSpace ·) ∧ name.getLast?.all (!isSpace ·) := by
  simp only [Option.all_eq_true, Bool.not_eq_true']
  exact ⟨fun h => ⟨h.two_le, h.no_comma, h.head, h.last⟩, fun ⟨h₁, h₂, h₃, h₄⟩ => ⟨h₁, h₂, h₃, h₄⟩⟩

instance (name : CStr) : Decidable (GroupName name) := decidable_of_iff' _ groupName_iff

theorem White.no_comma (h : White text) : ',' ∉ text := fun hmem =>
  absurd (h ',' hmem) (by decide)

theorem not_comma_of_not_mem (h : ',' ∉ text) : ∀ c ∈ text, (c != ',') := by
  intro c hc
  rw [bne_iff_ne]
  rintro rfl
  exact h hc

theorem dropWhile_of_head {p : Char → Bool} (h : ∀ c ∈ text.head?, p c = false) :
    text.dropWhile p = text := by
  cases text with
  | nil => rfl
  | cons c text => rw [dropWhile_cons_of_neg (by simp [h c rfl])]

theorem GroupName.ne_nil (h : GroupName name) : name ≠ [] := by
  rintro rfl
  exact absurd h.two_le (by decide)

theorem GroupName.not_isSpace_getLast (h : GroupName name) (hne : name ≠ []) :
    ¬ isSpace (name.getLast hne) := by
  rw [Bool.not_eq_true]
  exact h.last _ (List.getLast?_eq_some_getLast hne)

/-- White space behind a name is removed. -/
theorem GroupName.strip_end_append (h : GroupName name) (hwhite : White text) :
    strip_end (name ++ text) = name := by
  induction text using List.reverseRecOn with
  | nil =>
    rw [append_nil, strip_end, rdropWhile_eq_self_iff]
    exact h.not_isSpace_getLast
  | append_singleton text c ih =>
    have hc : isSpace c := hwhite c (by simp)
    rw [strip_end, ← append_assoc, rdropWhile_concat_pos isSpace _ c hc]
    exact ih fun x hx => hwhite x (by simp [hx])

/-- White space before a name is skipped. -/
theorem GroupName.dropWhile_append (h : GroupName name) (hwhite : White text) (rest : CStr) :
    (text ++ (name ++ rest)).dropWhile isSpace = name ++ rest := by
  rw [dropWhile_append_of_pos hwhite]
  apply dropWhile_of_head
  rw [List.head?_append_of_ne_nil _ h.ne_nil]
  exact h.head

/-! ## The last name -/

theorem strip_last_of_no_blank (h : ' ' ∉ text) : strip_last text = text := by
  have hall : text.rdropWhile (· != ' ') = [] := by
    rw [rdropWhile_eq_nil_iff]
    intro c hc
    rw [bne_iff_ne]
    rintro rfl
    exact h hc
  rw [strip_last, hall]

/-- A name with a blank is cut: it does not end with the blank. -/
theorem GroupName.strip_last_ne (h : GroupName name) (hblank : ' ' ∈ name) :
    strip_last name ≠ name := by
  have hcut : name.rdropWhile (· != ' ') ≠ name := by
    rw [Ne, rdropWhile_eq_self_iff]
    intro hlast
    have hblank_last : name.getLast h.ne_nil = ' ' := by simpa using hlast h.ne_nil
    exact h.not_isSpace_getLast h.ne_nil (by rw [hblank_last]; rfl)
  have hshort : (name.rdropWhile (· != ' ')).length < name.length := by
    have hstart : name.rdropWhile (· != ' ') <+: name := rdropWhile_prefix _ _
    exact lt_of_le_of_ne hstart.length_le fun hlen => hcut (hstart.eq_of_length hlen)
  intro heq
  rw [strip_last] at heq
  split at heq
  · next hnil =>
    rw [rdropWhile_eq_nil_iff] at hnil
    exact absurd (hnil ' ' hblank) (by simp)
  · next c l hl =>
    rw [hl] at hshort
    have hstart : (c :: l).rdropWhile isSpace <+: c :: l := rdropWhile_prefix _ _
    have hle := hstart.length_le
    rw [heq] at hle
    omega

/-- What the loop makes of the last name. -/
def last_group (name : CStr) : List CStr :=
  if (strip_last name).length = 1 then [] else [strip_last name]

theorem GroupName.last_group_eq_iff (h : GroupName name) :
    last_group name = [name] ↔ ' ' ∉ name := by
  constructor
  · intro heq hblank
    unfold last_group at heq
    split at heq
    · exact List.cons_ne_nil _ _ heq.symm
    · exact h.strip_last_ne hblank (List.cons.inj heq).1
  · intro hblank
    have := h.two_le
    rw [last_group, strip_last_of_no_blank hblank, if_neg (by omega)]

/-! ## The list -/

/-- The names joined with commas: each later name comes with the white space before and behind
its comma. -/
def join_groups (first : CStr) : List (CStr × CStr × CStr) → CStr
  | [] => first
  | (before, after, name) :: rest =>
    first ++ before ++ ',' :: (after ++ join_groups name rest)

/-- The names that are joined. -/
def joined_groups (first : CStr) (rest : List (CStr × CStr × CStr)) : List CStr :=
  first :: rest.map fun r => r.2.2

/-- The names are ones that can be expected to come back, and only white space is added. -/
structure GroupLine (first : CStr) (rest : List (CStr × CStr × CStr)) : Prop where
  first_name : GroupName first
  white : ∀ r ∈ rest, White r.1 ∧ White r.2.1
  names : ∀ r ∈ rest, GroupName r.2.2

variable {rest : List (CStr × CStr × CStr)}

theorem GroupLine.tail {r : CStr × CStr × CStr} (h : GroupLine first (r :: rest)) :
    GroupLine r.2.2 rest where
  first_name := h.names r List.mem_cons_self
  white := fun x hx => h.white x (mem_cons_of_mem r hx)
  names := fun x hx => h.names x (mem_cons_of_mem r hx)

theorem join_groups_eq_append (first : CStr) (rest : List (CStr × CStr × CStr)) :
    ∃ more, join_groups first rest = first ++ more := by
  cases rest with
  | nil => exact ⟨[], (append_nil first).symm⟩
  | cons r rest =>
    obtain ⟨before, after, name⟩ := r
    exact ⟨_, append_assoc first before _⟩

/-- One round of the loop takes the name before the next comma. -/
theorem break_loop_comma (hfirst : GroupName first) (hbefore : White before) (tail : CStr)
    {groups : List CStr} (hroom : groups.length + 1 < MAX_GROUPS) :
    break_loop (fuel + 1) (first ++ before ++ ',' :: tail) groups =
      break_loop fuel (tail.dropWhile isSpace) (groups ++ [first]) := by
  have hno : ∀ c ∈ first ++ before, (c != ',') :=
    not_comma_of_not_mem fun hmem =>
      (mem_append.1 hmem).elim hfirst.no_comma hbefore.no_comma
  have htake : (first ++ before ++ ',' :: tail).takeWhile (· != ',') = first ++ before := by
    rw [takeWhile_append_of_pos hno, takeWhile_cons_of_neg (by simp), append_nil]
  have hdrop : (first ++ before ++ ',' :: tail).dropWhile (· != ',') = ',' :: tail := by
    rw [dropWhile_append_of_pos hno, dropWhile_cons_of_neg (by simp)]
  have hlen : (first ++ before).length ≠ 1 := by
    have := hfirst.two_le
    rw [length_append]
    omega
  rw [break_loop, hdrop, htake, hfirst.strip_end_append hbefore]
  simp only [if_neg hlen]
  rw [if_pos (by rw [length_append]; exact hroom)]

theorem break_loop_last (hfirst : GroupName first) (groups : List CStr) :
    break_loop (fuel + 1) first groups = groups ++ last_group first := by
  have hdrop : first.dropWhile (· != ',') = [] :=
    dropWhile_eq_nil_iff.2 (not_comma_of_not_mem hfirst.no_comma)
  rw [break_loop, hdrop, last_group]
  by_cases hone : (strip_last first).length = 1
  · simp only [if_pos hone, append_nil]
  · simp only [if_neg hone]

/-- All names but the last one come back as they are. -/
theorem break_loop_join (hline : GroupLine first rest) (hfuel : rest.length < fuel)
    {groups : List CStr} (hroom : groups.length + (joined_groups first rest).length ≤ MAX_GROUPS) :
    break_loop fuel (join_groups first rest) groups =
      groups ++ (joined_groups first rest).dropLast ++
        last_group ((joined_groups first rest).getLast (List.cons_ne_nil _ _)) := by
  induction rest generalizing first groups fuel with
  | nil =>
    obtain ⟨fuel, rfl⟩ := Nat.exists_eq_succ_of_ne_zero (Nat.ne_zero_of_lt hfuel)
    rw [join_groups, break_loop_last hline.first_name]
    simp [joined_groups]
  | cons r rest ih =>
    obtain ⟨before, after, name⟩ := r
    obtain ⟨hbefore, hafter⟩ := hline.white _ List.mem_cons_self
    obtain ⟨fuel, rfl⟩ := Nat.exists_eq_succ_of_ne_zero (Nat.ne_zero_of_lt hfuel)
    obtain ⟨more, hmore⟩ := join_groups_eq_append name rest
    have hlen : (joined_groups first ((before, after, name) :: rest)).length =
        (joined_groups name rest).length + 1 := rfl
    have hpos : 0 < (joined_groups name rest).length := Nat.succ_pos _
    rw [hlen] at hroom
    have hskip : (after ++ join_groups name rest).dropWhile isSpace = join_groups name rest := by
      rw [hmore, hline.tail.first_name.dropWhile_append hafter]
    rw [join_groups, break_loop_comma hline.first_name hbefore _ (by omega), hskip,
      ih hline.tail (Nat.lt_of_succ_lt_succ hfuel) (by rw [length_append]; simpa using by omega)]
    simp [joined_groups]

theorem length_le_join_groups (first : CStr) (rest : List (CStr × CStr × CStr)) :
    rest.length ≤ (join_groups first rest).length := by
  induction rest generalizing first with
  | nil => exact Nat.zero_le _
  | cons r rest ih =>
    obtain ⟨before, after, name⟩ := r
    have := ih name
    simp only [join_groups, length_append, length_cons]
    omega

theorem GroupLine.groupName (h : GroupLine first rest) :
    ∀ name ∈ joined_groups first rest, GroupName name := by
  intro name hname
  rcases mem_cons.1 hname with rfl | hname
  · exact h.first_name
  · obtain ⟨r, hr, rfl⟩ := mem_map.1 hname
    exact h.names r hr

/-- The list comes back if and only if the last name has no blank. -/
theorem break_group_list_join_iff (hline : GroupLine first rest)
    (hmax : (joined_groups first rest).length ≤ MAX_GROUPS) :
    break_group_list (join_groups first rest) = joined_groups first rest ↔
      ' ' ∉ (joined_groups first rest).getLast (List.cons_ne_nil _ _) := by
  have hne : joined_groups first rest ≠ [] := List.cons_ne_nil _ _
  have hfuel : rest.length < (join_groups first rest).length + 1 :=
    Nat.lt_succ_of_le (length_le_join_groups first rest)
  have hbreak : break_group_list (join_groups first rest) =
      (joined_groups first rest).dropLast ++
        last_group ((joined_groups first rest).getLast hne) := by
    rw [break_group_list, break_loop_join hline hfuel (by simpa using hmax), nil_append]
  rw [hbreak, ← (hline.groupName _ (getLast_mem hne)).last_group_eq_iff]
  nth_rewrite 3 [← dropLast_append_getLast hne]
  exact append_right_inj _

/-- Two names that are joined with a comma between blanks. -/
theorem groupLine_pair {name name' : CStr} (h : GroupName name) (h' : GroupName name') :
    GroupLine name [([' '], [' '], name')] where
  first_name := h
  white := fun r hr => by
    have hblank : White [' '] := fun c hc => by rw [mem_singleton.1 hc]; rfl
    rw [mem_singleton.1 hr]
    exact ⟨hblank, hblank⟩
  names := fun r hr => by rw [mem_singleton.1 hr]; exact h'

theorem groupName_sales : GroupName "sales team".toList := by decide

theorem groupName_staff : GroupName "staff".toList := by decide

/-- A blank in a name that is not the last one is kept. -/
theorem break_group_list_join_pair :
    break_group_list (join_groups "sales team".toList [([' '], [' '], "staff".toList)]) =
      ["sales team".toList, "staff".toList] :=
  (break_group_list_join_iff (groupLine_pair groupName_sales groupName_staff) (by decide)).2
    (by decide)

/-- In the last name it ends the group. -/
theorem break_group_list_cuts_last :
    GroupLine "staff".toList [([' '], [' '], "sales team".toList)] ∧
      break_group_list (join_groups "staff".toList [([' '], [' '], "sales team".toList)]) =
        ["staff".toList, "sales".toList] :=
  ⟨groupLine_pair groupName_staff groupName_sales, by decide⟩

end Plain

end Ocserv

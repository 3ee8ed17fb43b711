import Ocserv.Auth.Groups

/-!
# A group that is asked for

A session gets the group the user has asked for, or none is opened.  The hooks of the password
file, of RADIUS and of OpenID Connect refuse a group in which they do not find the user.  The hook
of the system database does so only after it has found the user and read the user's groups; before
that it reports success and leaves the session without a group.
-/

namespace Ocserv

namespace Groups

variable {db : UnixDb} {hook : GroupHook} {username suggested : CStr} {groupname_size gid : Nat}
  {groups : List CStr}

/-! ## What a success should mean -/

/-- The user is in the database of the module. -/
def Known (db : UnixDb) : GroupHook → Prop
  | .plain pctx => pctx.unknown_user = false
  | .radius _ | .oidc _ => True
  | .pam username | .gssapi username => (db.getpwnam username).isSome

/-- The groups of the user can be read. -/
def Determined (db : UnixDb) : GroupHook → Prop
  | .plain _ | .radius _ | .oidc _ => True
  | .pam username | .gssapi username =>
    ∀ gid, db.getpwnam username = some gid → 0 < (getgrouplist db username gid).1

/-- The user of the system database is in a group of this name. -/
def UnixMember (db : UnixDb) (username group : CStr) : Prop :=
  ∃ pw_gid, db.getpwnam username = some pw_gid ∧
    ∃ gid ∈ db.groups username pw_gid, db.getgrgid gid = some group

def IsMember (db : UnixDb) (group : CStr) : GroupHook → Prop
  | .plain pctx => group ∈ pctx.groupnames
  | .radius groups | .oidc groups => group ∈ groups
  | .pam username | .gssapi username => UnixMember db username group

/-- A success delivers the group, to a member. -/
def Honoured (db : UnixDb) (hook : GroupHook) (suggested : CStr) (groupname_size : Nat) : Prop :=
  (auth_group db hook (some suggested) groupname_size).1 = 0 →
    (auth_group db hook (some suggested) groupname_size).2 = suggested ∧
      Known db hook ∧ Determined db hook ∧ IsMember db suggested hook

/-- The module knows the user and can read the groups, and a group of the user that is asked for
fits into the buffer. -/
def Answerable (db : UnixDb) (suggested : CStr) (groupname_size : Nat) : GroupHook → Prop
  | .plain pctx => suggested ∈ pctx.groupnames →
      pctx.unknown_user = false ∧ suggested.length < groupname_size
  | .radius groups | .oidc groups => suggested ∈ groups → suggested.length < groupname_size
  | .pam username | .gssapi username =>
    ∃ gid, db.getpwnam username = some gid ∧ 0 < (getgrouplist db username gid).1 ∧
      (UnixMember db username suggested → suggested.length < groupname_size)

/-! ## The groups in a context -/

/-- The answer of a hook that looks for the group among `groups`. -/
def refuse_unless (groups : List CStr) (suggested : CStr) (groupname_size : Nat) : Int × CStr :=
  if suggested ∈ groups then (0, strlcpy suggested groupname_size) else (-1, [])

theorem find_self (groups : List CStr) (suggested : CStr) :
    groups.find? (· == suggested) = if suggested ∈ groups then some suggested else none := by
  induction groups with
  | nil => rfl
  | cons g groups ih =>
    rw [List.find?_cons]
    by_cases hg : g = suggested
    · simp [hg]
    · simp only [beq_eq_false_iff_ne.2 hg, ih, List.mem_cons, Ne.symm hg, false_or]

theorem radius_auth_group_some (groups : List CStr) (suggested : CStr) (groupname_size : Nat) :
    radius_auth_group groups (some suggested) groupname_size =
      refuse_unless groups suggested groupname_size := by
  rw [radius_auth_group, find_self, refuse_unless]
  by_cases hmem : suggested ∈ groups <;> simp [hmem]

theorem oidc_auth_group_some (groups : List CStr) (suggested : CStr) (groupname_size : Nat) :
    oidc_auth_group groups (some suggested) groupname_size =
      refuse_unless groups suggested groupname_size := by
  rw [oidc_auth_group, find_self, refuse_unless]
  by_cases hmem : suggested ∈ groups <;> simp [hmem]

/-- A buffer that leaves nothing of a name leaves nothing of any. -/
theorem strlcpy_eq_nil (hne : suggested ≠ []) (h : strlcpy suggested groupname_size = [])
    (name : CStr) : strlcpy name groupname_size = [] := by
  have hsize : groupname_size - 1 = 0 := (List.take_eq_nil_iff.1 h).resolve_right hne
  rw [strlcpy, hsize, List.take_zero]

theorem plain_auth_group_some (pctx : Plain.PlainSt) (hne : suggested ≠ []) (groupname_size : Nat) :
    Plain.plain_auth_group pctx (some suggested) groupname_size =
      refuse_unless pctx.groupnames suggested groupname_size := by
  rw [Plain.plain_auth_group, find_self, refuse_unless]
  by_cases hmem : suggested ∈ pctx.groupnames
  · simp only [if_pos hmem]
    split
    · next hnil => rw [strlcpy_eq_nil hne hnil, hnil]
    · rfl
  · simp only [if_neg hmem]

theorem strlcpy_eq_self_iff (hne : suggested ≠ []) :
    strlcpy suggested groupname_size = suggested ↔ suggested.length < groupname_size := by
  have hpos := List.length_pos_iff.2 hne
  rw [strlcpy, List.take_eq_self_iff]
  omega

/-- Such an answer is right if and only if a group that is found fits and may be found. -/
theorem refuse_unless_iff (groups : List CStr) (groupname_size : Nat) (hne : suggested ≠ [])
    (known : Prop) :
    ((refuse_unless groups suggested groupname_size).1 = 0 →
        (refuse_unless groups suggested groupname_size).2 = suggested ∧ known ∧ True ∧
          suggested ∈ groups) ↔
      (suggested ∈ groups → known ∧ suggested.length < groupname_size) := by
  rw [refuse_unless]
  by_cases hmem : suggested ∈ groups
  · simp [hmem, strlcpy_eq_self_iff hne, and_comm]
  · simp [hmem]

/-! ## The groups of the system -/

/-- The names of the groups of a user. -/
def group_names (db : UnixDb) (username : CStr) (gid : Nat) : List CStr :=
  (db.groups username gid).filterMap db.getgrgid

theorem mem_group_names_iff (hgid : db.getpwnam username = some gid) :
    suggested ∈ group_names db username gid ↔ UnixMember db username suggested := by
  rw [group_names, List.mem_filterMap]
  constructor
  · exact fun h => ⟨gid, hgid, h⟩
  · rintro ⟨gid', hgid', h⟩
    obtain rfl := Option.some.inj (hgid.symm.trans hgid')
    exact h

theorem find_group_eq (db : UnixDb) (suggested : CStr) (gids : List Nat) (groupname_size : Nat) :
    find_group db suggested gids groupname_size =
      if suggested ∈ gids.filterMap db.getgrgid then some (strlcpy suggested groupname_size)
      else none := by
  induction gids with
  | nil => rfl
  | cons gid gids ih =>
    rw [find_group] at ih ⊢
    rw [List.find?_cons]
    by_cases hgid : db.getgrgid gid = some suggested
    · simp [hgid]
    · rw [beq_eq_false_iff_ne.2 hgid, ih]
      cases hname : db.getgrgid gid with
      | none => simp [hname]
      | some name =>
        have hne : suggested ≠ name := fun heq => hgid (heq ▸ hname)
        simp [hname, hne]

/-- The groups of a user that can be read are those of the database. -/
theorem getgrouplist_groups (h : 0 < (getgrouplist db username gid).1) :
    (getgrouplist db username gid).2 = db.groups username gid := by
  rw [getgrouplist] at h ⊢
  split at h
  · next hcond => rw [if_pos hcond]
  · exact absurd h (by decide)

theorem get_user_auth_group_some (hgid : db.getpwnam username = some gid)
    (hlist : 0 < (getgrouplist db username gid).1) :
    get_user_auth_group db username (some suggested) groupname_size =
      refuse_unless (group_names db username gid) suggested groupname_size := by
  rw [get_user_auth_group, hgid]
  have hfind := find_group_eq db suggested (db.groups username gid) groupname_size
  simp only [if_neg (Int.not_le.2 hlist), getgrouplist_groups hlist, refuse_unless]
  by_cases hmem : suggested ∈ group_names db username gid
  · rw [if_pos hmem, hfind.trans (if_pos hmem)]
  · rw [if_neg hmem, hfind.trans (if_neg hmem)]

/-- The hook reports success for a user it has not found, or whose groups it has not read. -/
theorem get_user_auth_group_early
    (h : ∀ gid, db.getpwnam username = some gid → (getgrouplist db username gid).1 ≤ 0) :
    get_user_auth_group db username (some suggested) groupname_size = (0, []) := by
  rw [get_user_auth_group]
  cases hgid : db.getpwnam username with
  | none => rfl
  | some gid => simp only [if_pos (h gid hgid)]

theorem unix_honoured_iff (hne : suggested ≠ []) :
    ((get_user_auth_group db username (some suggested) groupname_size).1 = 0 →
        (get_user_auth_group db username (some suggested) groupname_size).2 = suggested ∧
          (db.getpwnam username).isSome ∧
          (∀ gid, db.getpwnam username = some gid → 0 < (getgrouplist db username gid).1) ∧
          UnixMember db username suggested) ↔
      ∃ gid, db.getpwnam username = some gid ∧ 0 < (getgrouplist db username gid).1 ∧
        (UnixMember db username suggested → suggested.length < groupname_size) := by
  by_cases hearly : ∀ gid, db.getpwnam username = some gid → (getgrouplist db username gid).1 ≤ 0
  · rw [get_user_auth_group_early hearly]
    refine iff_of_false (fun h => hne (h rfl).1.symm) ?_
    rintro ⟨gid, hgid, hlist, -⟩
    exact absurd (hearly gid hgid) (Int.not_le.2 hlist)
  · obtain ⟨gid, hgid, hlist⟩ : ∃ gid, db.getpwnam username = some gid ∧
        0 < (getgrouplist db username gid).1 := by simpa using hearly
    have hall : ∀ gid, db.getpwnam username = some gid → 0 < (getgrouplist db username gid).1 := by
      intro gid' hgid'
      obtain rfl := Option.some.inj (hgid.symm.trans hgid')
      exact hlist
    have hiff := refuse_unless_iff (group_names db username gid) groupname_size hne True
    rw [get_user_auth_group_some hgid hlist, ← mem_group_names_iff hgid]
    simp only [true_and] at hiff
    simp only [hgid, Option.isSome_some, true_and, Option.some.injEq, forall_eq', hlist,
      exists_eq_left', hiff]

/-- A group that is asked for is honoured or refused if and only if the module can answer. -/
theorem auth_group_honoured_iff (db : UnixDb) (hook : GroupHook) (hne : suggested ≠ [])
    (groupname_size : Nat) :
    Honoured db hook suggested groupname_size ↔
      Answerable db suggested groupname_size hook := by
  cases hook with
  | plain pctx =>
    rw [Honoured, auth_group, plain_auth_group_some pctx hne]
    exact refuse_unless_iff pctx.groupnames groupname_size hne _
  | radius groups =>
    rw [Honoured, auth_group, radius_auth_group_some]
    simpa [Known, Determined, IsMember, Answerable] using
      refuse_unless_iff groups groupname_size hne True
  | oidc groups =>
    rw [Honoured, auth_group, oidc_auth_group_some]
    simpa [Known, Determined, IsMember, Answerable] using
      refuse_unless_iff groups groupname_size hne True
  | pam username => exact unix_honoured_iff hne
  | gssapi username => exact unix_honoured_iff hne

/-! ## A user who is not in the system database -/

section Example

private def noGroups : UnixDb where
  getpwnam _ := none
  groups _ _ := []
  readable _ := true
  getgrgid _ := none

/-- A user with a RADIUS group. -/
theorem auth_group_honoured_radius : "staff".toList ≠ [] ∧
    Honoured noGroups (.radius ["staff".toList]) "staff".toList MAX_GROUPNAME_SIZE :=
  ⟨by decide, (auth_group_honoured_iff noGroups _ (by decide) _).2 fun _ => by decide⟩

/-- The session of an unknown user is opened without the group that was asked for. -/
theorem auth_group_unknown_user :
    auth_group noGroups (.pam "alice".toList) (some "staff".toList) MAX_GROUPNAME_SIZE = (0, []) ∧
      ¬ Known noGroups (.pam "alice".toList) :=
  ⟨rfl, by simp [Known, noGroups]⟩

end Example

end Groups

end Ocserv

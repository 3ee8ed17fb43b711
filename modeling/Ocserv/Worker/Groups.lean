import Ocserv.Basic

/-!
# The group of a client

A client that names no group may have it taken from its certificate.
-/

namespace Ocserv

/-- `worker_st`, as far as it is about the choice of a group. -/
structure GroupSt where
  /-- the configured groups -/
  group_list : List CStr := []
  cert_groups : List CStr := []
  groupname : CStr := []
deriving DecidableEq, Repr

namespace GroupSt

/-- The test of `auto_select_cert_group` for a group of the certificate. -/
def eligible (ws : GroupSt) (group : CStr) : Bool :=
  ws.group_list.isEmpty || ws.group_list.contains group

/-- The loop of `auto_select_cert_group`; `none` is its early return. -/
def auto_select_loop (ws : GroupSt) : Option CStr → List CStr → Option (Option CStr)
  | candidate, [] => some candidate
  | candidate, group :: groups =>
    if !ws.eligible group then ws.auto_select_loop candidate groups
    else if candidate.any (· != group) then none
    else ws.auto_select_loop (some group) groups

def auto_select_cert_group (ws : GroupSt) : GroupSt × Bool :=
  match ws.auto_select_loop none ws.cert_groups with
  | some (some candidate) =>
    ({ ws with groupname := strlcpy candidate MAX_GROUPNAME_SIZE }, true)
  | _ => (ws, false)

/-! ## The group of a certificate -/

def eligible_groups (ws : GroupSt) : List CStr := ws.cert_groups.filter ws.eligible

/-- With a candidate, the loop goes on as long as it meets no other name. -/
theorem auto_select_loop_some (ws : GroupSt) (candidate : CStr) (groups : List CStr) :
    ws.auto_select_loop (some candidate) groups =
      if ∀ g ∈ groups.filter ws.eligible, g = candidate then some (some candidate) else none := by
  induction groups with
  | nil => simp [auto_select_loop]
  | cons group groups ih =>
    by_cases hel : ws.eligible group
    · by_cases heq : candidate = group
      · subst heq
        simp [auto_select_loop, hel, ih]
      · have hother : ¬ ∀ g ∈ (group :: groups).filter ws.eligible, g = candidate := by
          intro h
          exact heq (h group (by simp [hel])).symm
        rw [if_neg hother]
        simp [auto_select_loop, hel, heq]
    · simp [auto_select_loop, hel, ih]

/-- The loop ends with a candidate exactly when it is the one name that is eligible. -/
theorem auto_select_loop_iff (ws : GroupSt) (candidate : CStr) (groups : List CStr) :
    ws.auto_select_loop none groups = some (some candidate) ↔
      ∀ g, g ∈ groups.filter ws.eligible ↔ g = candidate := by
  induction groups with
  | nil => simp [auto_select_loop]
  | cons group groups ih =>
    by_cases hel : ws.eligible group
    · simp only [auto_select_loop, hel, Bool.not_true, Bool.false_eq_true, if_false,
        Option.any_none, auto_select_loop_some, List.filter_cons_of_pos, List.mem_cons]
      constructor
      · intro h g
        split at h
        next hall =>
          cases h
          exact ⟨fun hg => hg.elim id (hall g), Or.inl⟩
        next => cases h
      · intro h
        have hgroup : group = candidate := (h group).mp (.inl rfl)
        subst hgroup
        exact if_pos fun g hg => (h g).mp (.inr hg)
    · simpa [auto_select_loop, hel] using ih

/-- The group is set exactly when one name is eligible, however often the certificate has it. -/
theorem auto_select_cert_group_spec (ws : GroupSt)
    (hfit : ∀ g ∈ ws.cert_groups, g.length < MAX_GROUPNAME_SIZE) :
    (∀ group, (∀ g, g ∈ ws.eligible_groups ↔ g = group) →
      ws.auto_select_cert_group = ({ ws with groupname := group }, true)) ∧
    ((¬ ∃ group, ∀ g, g ∈ ws.eligible_groups ↔ g = group) →
      ws.auto_select_cert_group = (ws, false)) := by
  constructor
  · intro group honly
    have hmem : group ∈ ws.cert_groups := List.mem_of_mem_filter ((honly group).mpr rfl)
    have hcopy : strlcpy group MAX_GROUPNAME_SIZE = group :=
      List.take_of_length_le (Nat.le_sub_one_of_lt (hfit group hmem))
    rw [auto_select_cert_group, (ws.auto_select_loop_iff group _).mpr honly]
    exact congrArg (fun name => (({ ws with groupname := name } : GroupSt), true)) hcopy
  · intro hnone
    unfold auto_select_cert_group
    split
    next candidate hloop => exact absurd ⟨candidate, (ws.auto_select_loop_iff _ _).mp hloop⟩ hnone
    next => rfl

private def staff : GroupSt :=
  { group_list := ["staff".toList]
    cert_groups := ["guests", "staff", "staff"].map (·.toList) }

theorem auto_select_cert_group_staff :
    staff.auto_select_cert_group = ({ staff with groupname := "staff".toList }, true) :=
  (auto_select_cert_group_spec staff (by decide)).1 _ fun g => by
    rw [show staff.eligible_groups = ["staff".toList, "staff".toList] by decide]
    simp

end GroupSt

end Ocserv

import Ocserv.Auth.Radius
import Ocserv.Lib.Shuffle

/-!
# The order of the attributes

Each kind of attribute sets fields of its own (`Settings.of`), with two exceptions: several kinds
append routes, and both Framed-IPv6-Address and Delegated-IPv6-Prefix overwrite the IPv6 address and
the length of its prefix.  Besides, the loop ends at a Service-Type that is refused, with what came
before it applied.
-/

namespace Ocserv

open List Option

namespace Radius

open SecMod (MAX_GROUPS)
open Shuffle

/-- The same settings, with the routes in any order. -/
def Settings.Same (s t : Settings) : Prop :=
  { s with routes := [] } = { t with routes := [] } ∧ s.routes.Perm t.routes

/-- An Access-Accept. -/
def access_accept (msg : CStr) (recvd : List ValuePair) : Reply := { code := .ok, recvd, msg }

section Order

variable [NetText]

/-- For every permutation that keeps the attributes of each kind in their order, the result and the
settings are the same. -/
def OrderFree (pctx : RadiusSt) (msg : CStr) (recvd : List ValuePair) : Prop :=
  ∀ recvd', SameOrder ValuePair.attr recvd recvd' →
    (radius_auth_pass pctx (access_accept msg recvd')).2 =
        (radius_auth_pass pctx (access_accept msg recvd)).2 ∧
      (radius_auth_pass pctx (access_accept msg recvd')).1.settings.Same
        (radius_auth_pass pctx (access_accept msg recvd)).1.settings

/-- The address and the length of the prefix that an attribute sets. -/
def ipv6_write (vp : ValuePair) : Option (CStr × Nat) :=
  match vp.attr with
  | .framed_ipv6_address =>
    if vp.type = .ipv6addr then some (NetText.text6 (vp.strvalue.take 16), 64) else none
  | .delegated_prefix_ipv6 =>
    if vp.prefix_fits then some (NetText.text6 (vp.prefix_addr.take 16), vp.prefix_len) else none
  | _ => none

/-- The last Framed-IPv6-Address and the last Delegated-IPv6-Prefix, if there are both, give the
same address and length. -/
def Undisputed (recvd : List ValuePair) : Prop :=
  ∀ x y, lastOf ValuePair.attr ipv6_write .framed_ipv6_address recvd = some x →
    lastOf ValuePair.attr ipv6_write .delegated_prefix_ipv6 recvd = some y → x = y

/-- An attribute without an effect: it is ignored, or it sets what is set already. -/
def Idle (s : Settings) (vp : ValuePair) : Prop :=
  match vp.attr with
  | .group_name => vp.type = .string → MAX_GROUPS ≤ s.groupnames.length
  | .framed_ipv6_address =>
    vp.type = .ipv6addr →
      NetText.text6 (vp.strvalue.take 16) = s.ipv6 ∧
        NetText.text6 (vp.strvalue.take 16) = s.ipv6_net ∧ 64 = s.ipv6_subnet_prefix_len
  | .delegated_prefix_ipv6 =>
    vp.prefix_fits →
      NetText.text6 (vp.prefix_addr.take 16) = s.ipv6 ∧ vp.prefix_len = s.ipv6_subnet_prefix_len
  | .framed_prefix_ipv6 => vp.prefix_fits = false
  | .dns_server_ipv6_address => vp.type = .ipv6addr → s.ipv6_dns1 ≠ [] ∧ s.ipv6_dns2 ≠ []
  | .framed_ip_address =>
    vp.type = .ipaddr ∧ vp.lvalue ≠ 0xffffffff ∧ vp.lvalue ≠ 0xfffffffe → vp.text4 = s.ipv4
  | .framed_ip_netmask => vp.type = .ipaddr → vp.text4 = s.ipv4_mask
  | .ms_primary_dns_server => vp.type = .ipaddr → vp.text4 = s.ipv4_dns1
  | .ms_secondary_dns_server => vp.type = .ipaddr → vp.text4 = s.ipv4_dns2
  | .framed_route | .framed_ipv6_route => vp.type = .string → '/' ∉ vp.text
  | .acct_interim_interval => vp.type = .integer → vp.lvalue = s.interim_interval_secs
  | .session_timeout => vp.type = .integer → vp.lvalue = s.session_timeout_secs
  | .rp_upstream_speed_limit => vp.type = .integer → vp.lvalue = s.rx_per_sec
  | .rp_downstream_speed_limit => vp.type = .integer → vp.lvalue = s.tx_per_sec
  | .service_type | .state | .other _ => True

/-- The lists whose order does not matter to a context with these settings. -/
def Settled (s : Settings) (recvd : List ValuePair) : Prop :=
  if recvd.any ValuePair.refused then ∀ vp ∈ recvd, Idle s vp else Undisputed recvd

variable {sep : CStr} {s t : Settings} {vp : ValuePair} {recvd recvd' : List ValuePair}

/-! ## One attribute -/

theorem inet_ntop6_eq {size : Nat} (addr : List UInt8) (hsize : MAX_IP_STR ≤ size) :
    inet_ntop6 addr size = some (NetText.text6 (addr.take 16)) :=
  if_pos (Nat.lt_of_lt_of_le (NetText.text6_length_lt _) hsize)

omit [NetText] in
theorem append_route_eq (routes : List CStr) (route : CStr) (len : Nat) :
    append_route routes route len = routes ++ append_route [] route len := by
  unfold append_route
  split <;> simp

omit [NetText] in
theorem append_route_eq_self_iff (routes : List CStr) (route : CStr) (len : Nat) :
    append_route routes route len = routes ↔ '/' ∉ route := by
  unfold append_route
  split <;> simp_all

omit [NetText] in
theorem strlcpy_text6 [NetText] (addr : List UInt8) :
    strlcpy (NetText.text6 addr) MAX_IP_STR = NetText.text6 addr :=
  take_of_length_le (Nat.le_sub_one_of_lt (NetText.text6_length_lt addr))

theorem framed_ipv6_address_eq (s : Settings) (vp : ValuePair) :
    framed_ipv6_address s vp =
      { s with
        ipv6 := NetText.text6 (vp.strvalue.take 16)
        ipv6_subnet_prefix_len := 64
        ipv6_net := NetText.text6 (vp.strvalue.take 16) } := by
  rw [framed_ipv6_address, inet_ntop6_eq _ (Nat.le_refl _)]
  simp only [strlcpy_text6]

theorem delegated_prefix_ipv6_eq (s : Settings) (vp : ValuePair) :
    delegated_prefix_ipv6 s vp =
      { s with
        ipv6 := NetText.text6 (vp.prefix_addr.take 16)
        ipv6_subnet_prefix_len := vp.prefix_len } := by
  rw [delegated_prefix_ipv6, inet_ntop6_eq _ (Nat.le_refl _), inet_ntop6_eq _ (Nat.le_refl _)]

/-- The route to the prefix of an attribute. -/
def ValuePair.prefix_text (vp : ValuePair) : CStr :=
  prefix_route (NetText.text6 (vp.prefix_addr.take 16)) vp.prefix_len

theorem framed_prefix_ipv6_eq (s : Settings) (vp : ValuePair) :
    framed_prefix_ipv6 s vp =
      { s with routes := append_route s.routes vp.prefix_text vp.prefix_text.length } := by
  rw [framed_prefix_ipv6, inet_ntop6_eq _ (by decide)]
  rfl

theorem mem_prefix_text (vp : ValuePair) : '/' ∈ vp.prefix_text := by
  have hlen := NetText.text6_length_lt (vp.prefix_addr.take 16)
  unfold MAX_IP_STR at hlen
  unfold ValuePair.prefix_text prefix_route
  rw [take_append, mem_append]
  right
  rw [show 71 - (NetText.text6 (vp.prefix_addr.take 16)).length =
    70 - (NetText.text6 (vp.prefix_addr.take 16)).length + 1 by omega, take_succ_cons]
  exact List.mem_cons_self

/-! ## The fields of each kind -/

/-- The fields that one kind of attribute sets, and no other one. -/
def Settings.of (s : Settings) : Attr → Settings
  | .group_name => { groupnames := s.groupnames }
  | .framed_ipv6_address => { ipv6_net := s.ipv6_net }
  | .dns_server_ipv6_address => { ipv6_dns1 := s.ipv6_dns1, ipv6_dns2 := s.ipv6_dns2 }
  | .framed_ip_address => { ipv4 := s.ipv4 }
  | .framed_ip_netmask => { ipv4_mask := s.ipv4_mask }
  | .ms_primary_dns_server => { ipv4_dns1 := s.ipv4_dns1 }
  | .ms_secondary_dns_server => { ipv4_dns2 := s.ipv4_dns2 }
  | .acct_interim_interval => { interim_interval_secs := s.interim_interval_secs }
  | .session_timeout => { session_timeout_secs := s.session_timeout_secs }
  | .rp_upstream_speed_limit => { rx_per_sec := s.rx_per_sec }
  | .rp_downstream_speed_limit => { tx_per_sec := s.tx_per_sec }
  | _ => {}

theorem of_accept_attr_of_ne {k : Attr} (h : vp.attr ≠ k) :
    (accept_attr sep s vp).of k = s.of k := by
  unfold accept_attr dns_server_ipv6_address
  simp only [framed_ipv6_address_eq, delegated_prefix_ipv6_eq, framed_prefix_ipv6_eq]
  split <;> repeat' split
  all_goals
    first
    | rfl
    | cases k <;> first | rfl | exact absurd (by assumption) h

theorem of_accept_attr {k : Attr} (hattr : vp.attr = k) (h : s.of k = t.of k) :
    (accept_attr sep s vp).of k = (accept_attr sep t vp).of k := by
  subst hattr
  unfold accept_attr dns_server_ipv6_address
  simp only [framed_ipv6_address_eq, delegated_prefix_ipv6_eq, framed_prefix_ipv6_eq]
  cases hattr : vp.attr
  all_goals
    simp only [hattr, Settings.of, Settings.mk.injEq, and_true, true_and] at h ⊢
    repeat' split
  all_goals simp_all

/-- The address and its prefix are overwritten. -/
theorem ipv6_accept_attr (sep : CStr) (s : Settings) (vp : ValuePair) :
    ((accept_attr sep s vp).ipv6, (accept_attr sep s vp).ipv6_subnet_prefix_len) =
      (ipv6_write vp).getD (s.ipv6, s.ipv6_subnet_prefix_len) := by
  unfold accept_attr ipv6_write dns_server_ipv6_address
  simp only [framed_ipv6_address_eq, delegated_prefix_ipv6_eq, framed_prefix_ipv6_eq]
  cases vp.attr
  all_goals
    dsimp only
    repeat' split
  all_goals rfl

/-- The routes of an attribute. -/
def ValuePair.routes (vp : ValuePair) : List CStr := (accept_attr [] {} vp).routes

theorem routes_accept_attr (sep : CStr) (s : Settings) (vp : ValuePair) :
    (accept_attr sep s vp).routes = s.routes ++ vp.routes := by
  unfold ValuePair.routes accept_attr dns_server_ipv6_address
  simp only [framed_ipv6_address_eq, delegated_prefix_ipv6_eq, framed_prefix_ipv6_eq]
  cases vp.attr
  all_goals
    dsimp only
    repeat' split
  all_goals first | exact append_route_eq _ _ _ | exact (append_nil _).symm

theorem foldl_routes (sep : CStr) (s : Settings) (recvd : List ValuePair) :
    (recvd.foldl (accept_attr sep) s).routes = s.routes ++ recvd.flatMap ValuePair.routes := by
  induction recvd generalizing s with
  | nil => simp
  | cons vp recvd ih =>
    rw [foldl_cons, ih, routes_accept_attr, List.flatMap_cons, append_assoc]

/-! ## Groups -/

section Groups

omit [NetText]

/-- The groups that an attribute stands for. -/
def group_list (sep full : CStr) : List CStr :=
  if full.take 3 = "OU=".toList then (full.drop 3).splitOnP fun c => sep.contains c else [full]

theorem add_groups_eq {groupnames : List CStr} (hroom : groupnames.length < MAX_GROUPS)
    (l : List CStr) : add_groups groupnames l = (groupnames ++ l).take MAX_GROUPS := by
  induction l generalizing groupnames with
  | nil => rw [add_groups, append_nil, take_of_length_le (Nat.le_of_lt hroom)]
  | cons g l ih =>
    have hlen : (groupnames ++ [g]).length = groupnames.length + 1 := length_append
    have hcons : groupnames ++ g :: l = (groupnames ++ [g]) ++ l := by simp
    rw [add_groups, hcons]
    split
    next hfull => rw [← hfull, take_left]
    next hnext => exact ih (by omega)

/-- An attribute adds its groups, as far as there is room for them. -/
theorem parse_groupnames_eq (sep : CStr) {groupnames : List CStr}
    (h : groupnames.length ≤ MAX_GROUPS) (full : CStr) :
    parse_groupnames sep groupnames full =
      (groupnames ++ group_list sep full).take MAX_GROUPS := by
  unfold parse_groupnames group_list
  split
  next hfull => rw [← Nat.le_antisymm h hfull, take_left]
  next hroom =>
    split
    · exact add_groups_eq (Nat.not_le.1 hroom) _
    · rw [take_of_length_le]
      rw [length_append]
      exact Nat.not_le.1 hroom

/-- The attributes of a reply: the groups are the first of all that they stand for. -/
theorem parse_groupnames_foldl (sep : CStr) (fulls : List CStr) :
    fulls.foldl (parse_groupnames sep) [] =
        (fulls.flatMap (group_list sep)).take MAX_GROUPS ∧
      (fulls.foldl (parse_groupnames sep) []).length ≤ MAX_GROUPS := by
  have hfold : ∀ groupnames : List CStr, groupnames.length ≤ MAX_GROUPS →
      fulls.foldl (parse_groupnames sep) groupnames =
        (groupnames ++ fulls.flatMap (group_list sep)).take MAX_GROUPS := by
    induction fulls with
    | nil =>
      intro groupnames h
      rw [flatMap_nil, append_nil, foldl_nil, take_of_length_le h]
    | cons full fulls ih =>
      intro groupnames h
      rw [foldl_cons, parse_groupnames_eq sep h, ih _ (length_take_le _ _),
        List.flatMap_cons, ← append_assoc]
      generalize groupnames ++ group_list sep full = l
      rw [take_append, take_append, take_take, Nat.min_self, length_take]
      congr 2
      omega
  rw [hfold [] (Nat.zero_le _)]
  exact ⟨rfl, length_take_le _ _⟩

/-- Only a full list of groups is left as it is. -/
theorem parse_groupnames_eq_self_iff (sep : CStr) (groupnames : List CStr) (full : CStr) :
    parse_groupnames sep groupnames full = groupnames ↔ MAX_GROUPS ≤ groupnames.length := by
  refine ⟨fun h => ?_, fun hfull => if_pos hfull⟩
  have hne : group_list sep full ≠ [] := by
    unfold group_list
    split
    · exact splitOnP_ne_nil _ _
    · exact List.cons_ne_nil _ _
  have hpos := length_pos_iff.2 hne
  by_contra hroom
  have hlen := congrArg List.length h
  rw [parse_groupnames_eq sep (by omega), length_take, length_append] at hlen
  omega

end Groups

/-! ## Attributes without an effect -/

theorem dns_server_ipv6_address_eq_self_iff (s : Settings) (vp : ValuePair) :
    dns_server_ipv6_address s vp = s ↔ s.ipv6_dns1 ≠ [] ∧ s.ipv6_dns2 ≠ [] := by
  have htext := NetText.text6_ne_nil (vp.strvalue.take 16)
  unfold dns_server_ipv6_address
  rw [inet_ntop6_eq _ (Nat.le_refl _), getD_some, getD_some]
  split
  next hdns1 =>
    refine iff_of_false (fun h => htext ?_) (fun h => h.1 hdns1)
    rw [← hdns1]
    exact congrArg Settings.ipv6_dns1 h
  next hdns1 =>
    split
    next hdns2 =>
      refine iff_of_false (fun h => htext ?_) (fun h => h.2 hdns2)
      rw [← hdns2]
      exact congrArg Settings.ipv6_dns2 h
    next hdns2 => exact iff_of_true rfl ⟨hdns1, hdns2⟩

theorem accept_attr_eq_self_iff (sep : CStr) (s : Settings) (vp : ValuePair) :
    accept_attr sep s vp = s ↔ Idle s vp := by
  have hroute := mem_prefix_text vp
  unfold accept_attr Idle
  simp only [framed_ipv6_address_eq, delegated_prefix_ipv6_eq, framed_prefix_ipv6_eq]
  cases vp.attr with
  | dns_server_ipv6_address =>
    simp only [ite_eq_right_iff, dns_server_ipv6_address_eq_self_iff]
  | framed_prefix_ipv6 =>
    cases s
    simp [ite_eq_right_iff, append_route_eq_self_iff, hroute]
  | _ =>
    cases s
    simp only [ite_eq_right_iff, Settings.mk.injEq, parse_groupnames_eq_self_iff,
      append_route_eq_self_iff, and_true, true_and]

/-! ## The loop -/

theorem accept_loop_of_accepted (h : recvd.any ValuePair.refused = false) (s : Settings) :
    accept_loop sep s recvd = (recvd.foldl (accept_attr sep) s, true) := by
  induction recvd generalizing s with
  | nil => rfl
  | cons vp recvd ih =>
    rw [any_cons, Bool.or_eq_false_iff] at h
    rw [accept_loop, h.1, if_neg Bool.false_ne_true, ih h.2, foldl_cons]

theorem accept_loop_snd (sep : CStr) (s : Settings) (recvd : List ValuePair) :
    (accept_loop sep s recvd).2 = !recvd.any ValuePair.refused := by
  induction recvd generalizing s with
  | nil => rfl
  | cons vp recvd ih =>
    rw [accept_loop, any_cons]
    cases vp.refused with
    | true => rfl
    | false => exact ih (accept_attr sep s vp)

theorem accept_loop_append (h : recvd.any ValuePair.refused = false) (s : Settings)
    (rest : List ValuePair) :
    accept_loop sep s (recvd ++ rest) = accept_loop sep (recvd.foldl (accept_attr sep) s) rest := by
  induction recvd generalizing s with
  | nil => rfl
  | cons vp recvd ih =>
    rw [any_cons, Bool.or_eq_false_iff] at h
    rw [cons_append, accept_loop, h.1, if_neg Bool.false_ne_true, ih h.2, foldl_cons]

/-- Attributes without an effect leave the settings alone, however far the loop comes. -/
theorem accept_loop_of_idle (h : ∀ vp ∈ recvd, Idle s vp) : (accept_loop sep s recvd).1 = s := by
  induction recvd with
  | nil => rfl
  | cons vp recvd ih =>
    rw [accept_loop]
    split
    · rfl
    · rw [(accept_attr_eq_self_iff sep s vp).2 (h vp List.mem_cons_self)]
      exact ih fun vp hvp => h vp (mem_cons_of_mem _ hvp)

/-- The loop ends within the services when one of them is refused. -/
theorem accept_loop_services (hservices : ∀ vp ∈ recvd, vp.attr = .service_type)
    (hrefused : recvd.any ValuePair.refused) (s : Settings) (rest : List ValuePair) :
    (accept_loop sep s (recvd ++ rest)).1 = s := by
  induction recvd with
  | nil => exact absurd hrefused Bool.false_ne_true
  | cons vp recvd ih =>
    rw [cons_append, accept_loop]
    split
    next => rfl
    next hvp =>
      have hidle : Idle s vp := by
        rw [Idle, hservices vp List.mem_cons_self]
        trivial
      rw [(accept_attr_eq_self_iff sep s vp).2 hidle]
      apply ih fun vp hvp => hservices vp (mem_cons_of_mem _ hvp)
      simpa [hvp] using hrefused

/-! ## Lists that are accepted -/

omit [NetText] in
theorem Settings.Same.refl (s : Settings) : s.Same s := ⟨rfl, List.Perm.refl _⟩

omit [NetText] in
theorem Settings.Same.symm (h : s.Same t) : t.Same s := ⟨h.1.symm, h.2.symm⟩

omit [NetText] in
theorem Settings.Same.trans {u : Settings} (h : s.Same t) (h' : t.Same u) : s.Same u :=
  ⟨h.1.trans h'.1, h.2.trans h'.2⟩

omit [NetText] in
/-- All fields but the routes, from those of each kind and the IPv6 address. -/
theorem Settings.same_of (hof : ∀ k, s.of k = t.of k)
    (hipv6 : (s.ipv6, s.ipv6_subnet_prefix_len) = (t.ipv6, t.ipv6_subnet_prefix_len))
    (hroutes : s.routes.Perm t.routes) : s.Same t := by
  refine ⟨?_, hroutes⟩
  have hfield : ∀ {β : Type} (field : Settings → β) (k : Attr), field (s.of k) = field (t.of k) :=
    fun field k => congrArg field (hof k)
  simp only [Settings.mk.injEq, and_true]
  exact ⟨hfield Settings.groupnames .group_name,
    hfield Settings.interim_interval_secs .acct_interim_interval,
    hfield Settings.session_timeout_secs .session_timeout,
    hfield Settings.ipv4 .framed_ip_address,
    hfield Settings.ipv4_mask .framed_ip_netmask,
    hfield Settings.ipv4_dns1 .ms_primary_dns_server,
    hfield Settings.ipv4_dns2 .ms_secondary_dns_server,
    congrArg Prod.fst hipv6,
    hfield Settings.ipv6_net .framed_ipv6_address,
    congrArg Prod.snd hipv6,
    hfield Settings.ipv6_dns1 .dns_server_ipv6_address,
    hfield Settings.ipv6_dns2 .dns_server_ipv6_address,
    hfield Settings.rx_per_sec .rp_upstream_speed_limit,
    hfield Settings.tx_per_sec .rp_downstream_speed_limit⟩

theorem ipv6_write_of_ne (h : vp.attr ≠ .framed_ipv6_address)
    (h' : vp.attr ≠ .delegated_prefix_ipv6) : ipv6_write vp = none := by
  unfold ipv6_write
  split <;> first | rfl | exact absurd (by assumption) h | exact absurd (by assumption) h'

/-- The IPv6 address and the length of its prefix. -/
def Settings.ipv6_part (s : Settings) : CStr × Nat := (s.ipv6, s.ipv6_subnet_prefix_len)

/-- Of the settings that an accepted list makes, only the IPv6 address can depend on the order. -/
theorem foldl_same_iff (h : SameOrder ValuePair.attr recvd recvd') (s : Settings) :
    (recvd'.foldl (accept_attr sep) s).Same (recvd.foldl (accept_attr sep) s) ↔
      (lastWrite ipv6_write recvd').getD s.ipv6_part =
        (lastWrite ipv6_write recvd).getD s.ipv6_part := by
  rw [← part_foldl_write Settings.ipv6_part (ipv6_accept_attr sep),
    ← part_foldl_write Settings.ipv6_part (ipv6_accept_attr sep)]
  constructor
  · intro hsame
    have hpart := congrArg Settings.ipv6_part hsame.1
    exact hpart
  · intro hlast
    apply Settings.same_of
    · intro k
      symm
      apply h.part_foldl fun s : Settings => s.of k
      · intro s vp hne
        exact of_accept_attr_of_ne hne
      · intro s t vp hattr hst
        exact of_accept_attr hattr hst
    · exact hlast
    · rw [foldl_routes, foldl_routes]
      exact (h.perm.symm.flatMap_right _).append_left _

/-! ## Lists that are refused -/

omit [NetText] in
/-- Settings that have grown by routes only are the same if they have no more of them. -/
theorem Settings.Same.eq_of_append (h : s.Same t) {routes : List CStr}
    (hroutes : s.routes = t.routes ++ routes) : s = t := by
  have hlen : s.routes.length = t.routes.length := h.2.length_eq
  have hnil : routes = [] := by
    rw [hroutes, length_append] at hlen
    exact eq_nil_of_length_eq_zero (by omega)
  rw [hnil, append_nil] at hroutes
  have hother := h.1
  cases s
  cases t
  simp only [Settings.mk.injEq, and_true] at hother hroutes ⊢
  simp only [hother, hroutes, and_self]

omit [NetText] in
theorem attr_of_refused (h : vp.refused) : vp.attr = .service_type := by
  simp only [ValuePair.refused, Bool.and_eq_true, decide_eq_true_eq] at h
  exact h.1

omit [NetText] in
theorem refused_eq_false (h : vp.attr ≠ .service_type) : vp.refused = false := by
  rw [← Bool.not_eq_true]
  exact fun hrefused => h (attr_of_refused hrefused)

/-- Some attributes of a kind can be put before the service that is refused, and the others behind
it. -/
theorem accept_loop_split (sep : CStr) (s : Settings)
    (hrefused : recvd.any ValuePair.refused) {k : Attr} (hk : k ≠ .service_type) (n : Nat) :
    ∃ recvd', SameOrder ValuePair.attr recvd recvd' ∧
      (accept_loop sep s recvd').1 =
        ((ofKind ValuePair.attr k recvd).take n).foldl (accept_attr sep) s := by
  refine ⟨_, SameOrder.split hk recvd n, ?_⟩
  rw [accept_loop_append, accept_loop_services]
  · intro vp hvp
    exact key_of_mem_ofKind hvp
  · obtain ⟨vp, hvp, hvpRefused⟩ := List.any_eq_true.1 hrefused
    apply List.any_eq_true.2
    refine ⟨vp, List.mem_filter.2 ⟨hvp, ?_⟩, hvpRefused⟩
    simpa using attr_of_refused hvpRefused
  · rw [List.any_eq_false]
    intro vp hvp
    have hattr := key_of_mem_ofKind (List.mem_of_mem_take hvp)
    rw [refused_eq_false (hattr ▸ hk)]
    exact Bool.false_ne_true

/-- When the order does not matter to a refused list, its attributes have no effect. -/
theorem idle_of_same (hrefused : recvd.any ValuePair.refused)
    (h : ∀ recvd', SameOrder ValuePair.attr recvd recvd' →
      (accept_loop sep s recvd').1.Same (accept_loop sep s recvd).1) :
    ∀ vp ∈ recvd, Idle s vp := by
  intro vp hvp
  by_cases hk : vp.attr = .service_type
  · rw [Idle, hk]
    trivial
  · -- whatever number of attributes of the kind is applied, the settings are the same
    have hsame : ∀ n,
        ((ofKind ValuePair.attr vp.attr recvd).take n).foldl (accept_attr sep) s = s := by
      intro n
      obtain ⟨first, hfirst, hnone⟩ := accept_loop_split sep s hrefused hk 0
      obtain ⟨last, hlast, hsome⟩ := accept_loop_split sep s hrefused hk n
      have hboth := (h last hlast).trans (h first hfirst).symm
      rw [hnone, hsome, take_zero, foldl_nil] at hboth
      exact hboth.eq_of_append (foldl_routes sep s _)
    have hmem : vp ∈ ofKind ValuePair.attr vp.attr recvd := mem_filter.2 ⟨hvp, by simp⟩
    obtain ⟨n, hn, hget⟩ := getElem_of_mem hmem
    have hnext := hsame (n + 1)
    rw [take_succ_eq_append_getElem hn, foldl_append, hsame n, hget] at hnext
    exact (accept_attr_eq_self_iff sep s vp).1 hnext

/-! ## All lists -/

theorem radius_auth_pass_accept (pctx : RadiusSt) (msg : CStr) (recvd : List ValuePair) :
    (radius_auth_pass pctx (access_accept msg recvd)).1.settings =
        (accept_loop pctx.group_separator pctx.settings recvd).1 ∧
      (radius_auth_pass pctx (access_accept msg recvd)).2 =
        if recvd.any ValuePair.refused then (auth_failed pctx).2 else 0 := by
  have hend := accept_loop_snd pctx.group_separator pctx.settings recvd
  unfold radius_auth_pass access_accept
  simp only [if_true, hend]
  cases recvd.any ValuePair.refused with
  | true => exact ⟨rfl, rfl⟩
  | false => exact ⟨rfl, rfl⟩

omit [NetText] in
theorem any_refused_of_sameOrder (h : SameOrder ValuePair.attr recvd recvd') :
    recvd'.any ValuePair.refused = recvd.any ValuePair.refused :=
  h.perm.symm.any_eq

/-- The order of the attributes does not matter exactly when the two attributes for the IPv6 address
agree or, in a list with a service that is refused, no attribute has an effect. -/
theorem order_free_iff (pctx : RadiusSt) (msg : CStr) (recvd : List ValuePair) :
    OrderFree pctx msg recvd ↔ Settled pctx.settings recvd := by
  have hpass := radius_auth_pass_accept pctx msg
  have hfree : OrderFree pctx msg recvd ↔ ∀ recvd', SameOrder ValuePair.attr recvd recvd' →
      (accept_loop pctx.group_separator pctx.settings recvd').1.Same
        (accept_loop pctx.group_separator pctx.settings recvd).1 := by
    apply forall₂_congr
    intro recvd' h
    rw [(hpass recvd').1, (hpass recvd).1, (hpass recvd').2, (hpass recvd).2,
      any_refused_of_sameOrder h]
    exact and_iff_right rfl
  rw [hfree, Settled]
  cases hrefused : recvd.any ValuePair.refused with
  | true =>
    constructor
    · intro h
      exact idle_of_same hrefused h
    · intro hidle recvd' h
      rw [accept_loop_of_idle hidle,
        accept_loop_of_idle fun vp hvp => hidle vp (h.perm.mem_iff.2 hvp)]
      exact Settings.Same.refl _
  | false =>
    have hlast : (∀ recvd', SameOrder ValuePair.attr recvd recvd' →
        (accept_loop pctx.group_separator pctx.settings recvd').1.Same
          (accept_loop pctx.group_separator pctx.settings recvd).1) ↔
        ∀ recvd', SameOrder ValuePair.attr recvd recvd' →
          (lastWrite ipv6_write recvd').getD pctx.settings.ipv6_part =
            (lastWrite ipv6_write recvd).getD pctx.settings.ipv6_part := by
      apply forall₂_congr
      intro recvd' h
      rw [accept_loop_of_accepted hrefused,
        accept_loop_of_accepted (any_refused_of_sameOrder h ▸ hrefused)]
      exact foldl_same_iff h pctx.settings
    rw [hlast]
    exact lastWrite_fixed_iff (by decide) (fun vp h h' => ipv6_write_of_ne h h') _

end Order

/-! ## An example -/

section Example

local instance attrsNetText : NetText := NetText.simple

/-- An address for the link, and a prefix for the network behind the client. -/
def addressAndPrefix : List ValuePair :=
  [{ attr := .framed_ipv6_address, type := .ipv6addr, lvalue := 16,
     strvalue := 32 :: List.replicate 15 1 },
   { attr := .delegated_prefix_ipv6, type := .prefix_ipv6, lvalue := 10,
     strvalue := 0 :: 56 :: 32 :: List.replicate 23 2 }]

/-- The address that the session gets is that of the attribute that comes last. -/
theorem address_and_prefix_order :
    ∃ recvd', SameOrder ValuePair.attr addressAndPrefix recvd' ∧
      (radius_auth_pass {} (access_accept [] addressAndPrefix)).1.settings.ipv6_subnet_prefix_len =
        56 ∧
      (radius_auth_pass {} (access_accept [] recvd')).1.settings.ipv6_subnet_prefix_len = 64 ∧
      ¬ OrderFree {} [] addressAndPrefix := by
  have hswap := @SameOrder.split _ _ _ ValuePair.attr .framed_ipv6_address _
    .delegated_prefix_ipv6 (by decide) addressAndPrefix 0
  refine ⟨_, hswap, by decide +kernel, by decide +kernel, fun h => ?_⟩
  exact absurd (h _ hswap).2.1 (by decide +kernel)

end Example

end Radius

end Ocserv

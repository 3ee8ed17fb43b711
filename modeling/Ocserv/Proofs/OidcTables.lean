import Mathlib.Data.List.Count
import Ocserv.Lib.Runs
import Ocserv.SecMod.Oidc

/-!
# The tables of browser logins

Requests enter a table in the order in which they expire, because those of one table all
live for the same time and the clock does not go back.  So the expired ones are at the
head of the list, and dropping them there (`expire_alive`) leaves none behind.  The
counters of the addresses follow the list of pending requests (`Counts`); an address
that has just been given a record but no request yet is the one intermediate state
(`Recorded`).

`OidcVctx.Ok` is the invariant of the tables, `oidc_tables_consistent` its consequence
for every run.  Completed logins are not bounded by `sso_max_pending`, which limits the
requests that nobody has vouched for yet (`completed_exceed_max_pending`).
-/

namespace Ocserv

open HTable List Option Runs

/-! ## One table -/

namespace SsoTable

/-- Hash and list hold the same entries, each once, and the list is in order of expiry. -/
structure Ok (rehash : SsoState → Nat) (t : SsoTable) : Prop where
  index : Index rehash t.htable
  perm : t.htable.toList.Perm t.list
  size : t.size = t.list.length
  sorted : t.list.Pairwise fun a b => a.expires ≤ b.expires

variable {rehash : SsoState → Nat} {t : SsoTable} {e : SsoState} {now : Int}

theorem Ok.empty : Ok rehash {} := ⟨.init, .refl _, rfl, .nil⟩

theorem Ok.push (h : t.Ok rehash) (hnew : e ∉ t.list)
    (hlast : ∀ x ∈ t.list, x.expires ≤ e.expires) : (t.push rehash e).Ok rehash where
  index := h.index.add fun hmem => hnew (h.perm.mem_iff.1 hmem)
  perm := by
    have hadd := h.index.wf.toList_add (rehash e) e
    exact (hadd.trans (h.perm.cons e)).trans (perm_append_singleton e t.list).symm
  size := by
    show t.size + 1 = (t.list ++ [e]).length
    rw [h.size, length_append, length_singleton]
  sorted := by
    apply pairwise_append.2
    refine ⟨h.sorted, pairwise_singleton _ _, ?_⟩
    intro x hx y hy
    rw [mem_singleton.1 hy]
    exact hlast x hx

theorem Ok.del (h : t.Ok rehash) (he : e ∈ t.list) : (t.oidc_sso_table_del rehash e).Ok rehash where
  index := h.index.del e
  perm := by
    have hex : ∃ y ∈ t.htable.toList, rehash y = rehash e ∧ (y == e) :=
      ⟨e, h.perm.mem_iff.2 he, rfl, beq_self_eq_true e⟩
    obtain ⟨y, -, -, hy, hperm⟩ := h.index.wf.perm_del hex
    obtain rfl := eq_of_beq hy
    exact ((hperm.symm.trans h.perm).trans (perm_cons_erase he)).cons_inv
  size := by
    show t.size - 1 = (t.list.erase e).length
    rw [h.size, length_erase_of_mem he]
  sorted := h.sorted.sublist erase_sublist

/-- What a lookup finds is in the list. -/
theorem Ok.get_mem (h : t.Ok rehash) {hash : Nat} {cmp : SsoState → Bool}
    (hget : t.htable.get hash cmp = some e) : e ∈ t.list ∧ cmp e := by
  obtain ⟨hmem, -, hcmp⟩ := h.index.wf.get_some hget
  exact ⟨h.perm.mem_iff.1 hmem, hcmp⟩

/-- A list in order of expiry has its expired entries at the head. -/
theorem alive_of_sorted {list : List SsoState}
    (hsorted : list.Pairwise fun a b => a.expires ≤ b.expires) :
    ∀ e ∈ list.dropWhile (·.expires ≤ now), now < e.expires := by
  induction hsorted with
  | nil => simp
  | @cons x list hx hlist ih =>
    by_cases hexp : x.expires ≤ now
    · rw [dropWhile_cons_of_pos (by simpa using hexp)]
      exact ih
    · rw [dropWhile_cons_of_neg (by simpa using hexp)]
      intro e he
      rcases mem_cons.1 he with rfl | hmem
      · omega
      · have := hx e hmem
        omega

end SsoTable

/-! ## Expiry -/

section Expiry

variable {σ : Type} {list : σ → List SsoState} {del : σ → SsoState → σ} {now : Int} {fuel : Nat}
  {s : σ}

/-- What the removal of an expired head keeps, the loop keeps. -/
theorem expireLoop_invariant {P : σ → Prop}
    (hdel : ∀ s e rest, P s → list s = e :: rest → P (del s e)) (hs : P s) :
    P (expireLoop list del now fuel s) := by
  induction fuel generalizing s with
  | zero => exact hs
  | succ fuel ih =>
    cases hlist : list s with
    | nil => simpa only [expireLoop, hlist] using hs
    | cons e rest =>
      simp only [expireLoop, hlist]
      split
      · exact ih (hdel s e rest hs hlist)
      · exact hs

theorem expireLoop_list (list : σ → List SsoState)
    (hdel : ∀ s e rest, list s = e :: rest → list (del s e) = rest)
    (hfuel : (list s).length ≤ fuel) :
    list (expireLoop list del now fuel s) = (list s).dropWhile (·.expires ≤ now) := by
  induction fuel generalizing s with
  | zero =>
    have hnil : list s = [] := eq_nil_of_length_eq_zero (by omega)
    simp [expireLoop, hnil]
  | succ fuel ih =>
    cases hlist : list s with
    | nil => simp [expireLoop, hlist]
    | cons e rest =>
      simp only [expireLoop, hlist]
      split
      · next hexp =>
        have hrest := hdel s e rest hlist
        rw [dropWhile_cons_of_pos (by simpa using hexp), ih, hrest]
        rw [hlist, length_cons] at hfuel
        rw [hrest]
        omega
      · next hexp => rw [dropWhile_cons_of_neg (by simpa using hexp), hlist]

end Expiry

/-! ## The counters of the addresses -/

/-- How many of the requests come from an address. -/
def pendingFrom (list : List SsoState) (ip : CStr) : Nat := list.countP (·.remote_ip = ip)

theorem pendingFrom_append (list : List SsoState) (e : SsoState) (ip : CStr) :
    pendingFrom (list ++ [e]) ip = pendingFrom list ip + if ip = e.remote_ip then 1 else 0 := by
  simp [pendingFrom, countP_append, countP_singleton, eq_comm]

theorem pendingFrom_erase {list : List SsoState} {e : SsoState} (he : e ∈ list) (ip : CStr) :
    pendingFrom (list.erase e) ip = pendingFrom list ip - if ip = e.remote_ip then 1 else 0 := by
  simp [pendingFrom, countP_erase, he, eq_comm]

theorem pendingFrom_pos {list : List SsoState} {e : SsoState} (he : e ∈ list) :
    0 < pendingFrom list e.remote_ip :=
  countP_pos_iff.2 ⟨e, he, by simp⟩

/-- The record of an address with `n` requests. -/
def SsoIp.record (ip : CStr) (n : Nat) : Option SsoIp := if n = 0 then none else some ⟨ip, n⟩

theorem SsoIp.record_of_pos {ip : CStr} {n : Nat} (h : 0 < n) : record ip n = some ⟨ip, n⟩ :=
  if_neg (by omega)

/-- The addresses with pending requests have a record, which counts them. -/
structure Counts (ips : Table SsoIp) (list : List SsoState) : Prop where
  keyed : Keyed SsoIp.ip hash_string ips
  record : ∀ ip, ips.lookup SsoIp.ip hash_string ip = SsoIp.record ip (pendingFrom list ip)

/-- The same, but for one address that has a record in any case. -/
structure Recorded (ips : Table SsoIp) (list : List SsoState) (ip : CStr) : Prop where
  keyed : Keyed SsoIp.ip hash_string ips
  here : ips.lookup SsoIp.ip hash_string ip = some ⟨ip, pendingFrom list ip⟩
  elsewhere : ∀ ip' ≠ ip,
    ips.lookup SsoIp.ip hash_string ip' = SsoIp.record ip' (pendingFrom list ip')

section Counters

variable {ips : Table SsoIp} {list : List SsoState} {ip : CStr} {e : SsoState}

theorem Counts.init : Counts Table.init [] := by
  refine ⟨.init, fun ip => ?_⟩
  rw [show pendingFrom [] ip = 0 from rfl, show SsoIp.record ip 0 = none from rfl]
  exact Keyed.init.lookup_eq_none.2 fun x hx => absurd hx not_mem_nil

/-- An address that is pending already has its record. -/
theorem Counts.recorded (h : Counts ips list) (hpos : 0 < pendingFrom list ip) :
    Recorded ips list ip where
  keyed := h.keyed
  here := by rw [h.record, SsoIp.record_of_pos hpos]
  elsewhere ip' _ := h.record ip'

/-- The first request of an address creates its record. -/
theorem Counts.create (h : Counts ips list) (hnone : pendingFrom list ip = 0) :
    Recorded (ips.add (hash_string ∘ SsoIp.ip) (hash_string ip) ⟨ip, 0⟩) list ip := by
  have hnew : ips.lookup SsoIp.ip hash_string (SsoIp.mk ip 0).ip = none := by
    rw [h.record, hnone]
    rfl
  refine ⟨h.keyed.add hnew, ?_, fun ip' hne => ?_⟩
  · rw [h.keyed.lookup_add hnew, if_pos rfl, hnone]
  · rw [h.keyed.lookup_add hnew, if_neg hne, h.record]

theorem Recorded.count (h : Recorded ips list e.remote_ip) :
    Counts (ips.update SsoIp.ip ⟨e.remote_ip, pendingFrom list e.remote_ip + 1⟩) (list ++ [e]) := by
  refine ⟨h.keyed.update _, fun ip => ?_⟩
  rw [h.keyed.lookup_update, pendingFrom_append]
  split
  · next heq =>
    rw [heq, h.here, SsoIp.record_of_pos (Nat.succ_pos _)]
    rfl
  · next hne => rw [h.elsewhere ip hne, Nat.add_zero]

/-- A request that is not added after all takes an unused record with it. -/
theorem Recorded.undo (h : Recorded ips list ip) :
    Counts (if pendingFrom list ip = 0 then ips.remove SsoIp.ip hash_string ip else ips) list := by
  split
  · next hzero =>
    refine ⟨h.keyed.remove ip, fun ip' => ?_⟩
    rw [h.keyed.lookup_remove]
    split
    · next heq => rw [heq, hzero]; rfl
    · next hne => exact h.elsewhere ip' hne
  · next hpos =>
    refine ⟨h.keyed, fun ip' => ?_⟩
    by_cases heq : ip' = ip
    · rw [heq, h.here, SsoIp.record_of_pos (by omega)]
    · exact h.elsewhere ip' heq

/-- A request that leaves is not counted any more. -/
theorem Counts.discount (h : Counts ips list) (he : e ∈ list) :
    Counts
      (if pendingFrom list e.remote_ip - 1 = 0 then ips.remove SsoIp.ip hash_string e.remote_ip
        else ips.update SsoIp.ip ⟨e.remote_ip, pendingFrom list e.remote_ip - 1⟩)
      (list.erase e) := by
  have hpos := pendingFrom_pos he
  split
  · next hlast =>
    refine ⟨h.keyed.remove _, fun ip => ?_⟩
    rw [h.keyed.lookup_remove, pendingFrom_erase he]
    split
    · next heq => rw [heq, hlast]; rfl
    · rw [h.record, Nat.sub_zero]
  · next hmore =>
    refine ⟨h.keyed.update _, fun ip => ?_⟩
    rw [h.keyed.lookup_update, pendingFrom_erase he]
    split
    · next heq =>
      rw [heq, h.record, SsoIp.record_of_pos hpos, SsoIp.record_of_pos (Nat.pos_of_ne_zero hmore)]
      rfl
    · rw [h.record, Nat.sub_zero]

end Counters

/-! ## The invariant of the tables -/

namespace OidcVctx

/-- The tables are in order, and hold what the limits allow at the time `clock`. -/
structure Ok (v : OidcVctx) (clock : Int) : Prop where
  pending : v.sso_states.Ok oidc_sso_state_rehash
  claims : v.sso_claims.Ok oidc_sso_claim_rehash
  pending_until : ∀ e ∈ v.sso_states.list, e.expires ≤ clock + v.config.sso_login_timeout
  claims_until : ∀ e ∈ v.sso_claims.list, e.expires ≤ clock + OIDC_CLAIM_TIMEOUT
  addresses : ∀ e ∈ v.sso_states.list, strlcpy e.remote_ip MAX_IP_STR = e.remote_ip
  limit : v.sso_states.list.length ≤ v.config.sso_max_pending
  counts : Counts v.sso_ips v.sso_states.list
  per_ip : ∀ ip, pendingFrom v.sso_states.list ip ≤ v.config.sso_max_pending_per_ip

/-- Requests and logins have only left the tables. -/
structure Drops (v v' : OidcVctx) : Prop where
  config : v'.config = v.config
  pending : v'.sso_states.list.Sublist v.sso_states.list
  claims : v'.sso_claims.list.Sublist v.sso_claims.list

variable {v v' v'' : OidcVctx} {clock now : Int} {e : SsoState}

theorem Drops.refl (v : OidcVctx) : Drops v v := ⟨rfl, .refl _, .refl _⟩

theorem Drops.trans (h : Drops v v') (h' : Drops v' v'') : Drops v v'' :=
  ⟨h'.config.trans h.config, h'.pending.trans h.pending, h'.claims.trans h.claims⟩

theorem Ok.mono (h : v.Ok clock) (hle : clock ≤ now) : v.Ok now where
  pending := h.pending
  claims := h.claims
  pending_until e he := by have := h.pending_until e he; omega
  claims_until e he := by have := h.claims_until e he; omega
  addresses := h.addresses
  limit := h.limit
  counts := h.counts
  per_ip := h.per_ip

/-! ### Requests that leave -/

/-- The counters after a request has left. -/
def ips_without (v : OidcVctx) (e : SsoState) : Table SsoIp :=
  let n := pendingFrom v.sso_states.list e.remote_ip
  if n - 1 = 0 then v.sso_ips.remove SsoIp.ip hash_string e.remote_ip
  else v.sso_ips.update SsoIp.ip ⟨e.remote_ip, n - 1⟩

theorem Ok.pending_del_eq (h : v.Ok clock) (he : e ∈ v.sso_states.list) :
    v.oidc_sso_pending_del e =
      { v with
        sso_states := v.sso_states.oidc_sso_table_del oidc_sso_state_rehash e
        sso_ips := v.ips_without e } := by
  have hfind : v.sso_ips.lookup SsoIp.ip hash_string (strlcpy e.remote_ip MAX_IP_STR) =
      some ⟨e.remote_ip, pendingFrom v.sso_states.list e.remote_ip⟩ := by
    rw [h.addresses e he, h.counts.record, SsoIp.record_of_pos (pendingFrom_pos he)]
  simp only [oidc_sso_pending_del, oidc_sso_ip_find, hfind, ips_without]
  split <;> rfl

theorem Ok.pending_del (h : v.Ok clock) (he : e ∈ v.sso_states.list) :
    (v.oidc_sso_pending_del e).Ok clock := by
  have hsub : (v.sso_states.list.erase e).Sublist v.sso_states.list := erase_sublist
  rw [h.pending_del_eq he]
  exact
    { pending := h.pending.del he
      claims := h.claims
      pending_until := fun x hx => h.pending_until x (hsub.subset hx)
      claims_until := h.claims_until
      addresses := fun x hx => h.addresses x (hsub.subset hx)
      limit := hsub.length_le.trans h.limit
      counts := h.counts.discount he
      per_ip := fun ip => hsub.countP_le.trans (h.per_ip ip) }

/-- Only the pending requests and the counters change. -/
theorem pending_del_frame (v : OidcVctx) (e : SsoState) :
    ∃ ips, v.oidc_sso_pending_del e =
      { v with
        sso_states := v.sso_states.oidc_sso_table_del oidc_sso_state_rehash e
        sso_ips := ips } := by
  unfold oidc_sso_pending_del
  dsimp only
  split
  · exact ⟨_, rfl⟩
  · split
    · exact ⟨_, rfl⟩
    · exact ⟨_, rfl⟩

theorem pending_del_list (v : OidcVctx) (e : SsoState) :
    (v.oidc_sso_pending_del e).sso_states.list = v.sso_states.list.erase e := by
  obtain ⟨ips, heq⟩ := pending_del_frame v e
  rw [heq]
  rfl

theorem pending_del_drops (v : OidcVctx) (e : SsoState) : Drops v (v.oidc_sso_pending_del e) := by
  obtain ⟨ips, heq⟩ := pending_del_frame v e
  rw [heq]
  exact ⟨rfl, erase_sublist, .refl _⟩

theorem claim_del_drops (v : OidcVctx) (e : SsoState) :
    Drops v { v with sso_claims := v.sso_claims.oidc_sso_table_del oidc_sso_claim_rehash e } :=
  ⟨rfl, .refl _, erase_sublist⟩

theorem Ok.claim_del (h : v.Ok clock) (he : e ∈ v.sso_claims.list) :
    Ok { v with sso_claims := v.sso_claims.oidc_sso_table_del oidc_sso_claim_rehash e } clock :=
  { h with
    claims := h.claims.del he
    claims_until := fun x hx => h.claims_until x (mem_of_mem_erase hx) }

/-! ### Expiry and lookups -/

/-- What both loops of the expiry keep. -/
theorem expire_invariant {P : OidcVctx → Prop} (hv : P v)
    (hpending : ∀ v e, P v → e ∈ v.sso_states.list → P (v.oidc_sso_pending_del e))
    (hclaim : ∀ v e, P v → e ∈ v.sso_claims.list →
      P { v with sso_claims := v.sso_claims.oidc_sso_table_del oidc_sso_claim_rehash e }) :
    P (v.oidc_sso_state_expire now) := by
  have hfirst : P (expireLoop (·.sso_states.list) oidc_sso_pending_del now
      v.sso_states.list.length v) := by
    apply expireLoop_invariant _ hv
    intro s e rest hs hlist
    exact hpending s e hs (hlist ▸ List.mem_cons_self)
  unfold oidc_sso_state_expire
  generalize expireLoop (·.sso_states.list) oidc_sso_pending_del now
    v.sso_states.list.length v = w at hfirst ⊢
  apply expireLoop_invariant (P := fun t => P { w with sso_claims := t }) _ hfirst
  intro t e rest ht hlist
  exact hclaim _ e ht (hlist ▸ List.mem_cons_self)

theorem Ok.expire (h : v.Ok clock) : (v.oidc_sso_state_expire now).Ok clock :=
  expire_invariant (P := fun w => w.Ok clock) h (fun _ _ h he => h.pending_del he)
    fun _ _ h he => h.claim_del he

theorem expire_drops (v : OidcVctx) (now : Int) : Drops v (v.oidc_sso_state_expire now) :=
  expire_invariant (P := Drops v) (.refl v) (fun w e h _ => h.trans (pending_del_drops w e))
    fun w e h _ => h.trans (claim_del_drops w e)

theorem expire_metadata (v : OidcVctx) (now : Int) :
    (v.oidc_sso_state_expire now).metadata = v.metadata := by
  apply expire_invariant (P := fun w => w.metadata = v.metadata) rfl
  · intro w e hw _
    obtain ⟨ips, heq⟩ := pending_del_frame w e
    rw [heq]
    exact hw
  · exact fun w e hw _ => hw

/-- Removing an expired request leaves the completed logins alone, so the first loop does. -/
theorem expire_pending_list (v : OidcVctx) (now : Int) :
    (v.oidc_sso_state_expire now).sso_states.list =
      v.sso_states.list.dropWhile (·.expires ≤ now) := by
  apply expireLoop_list (fun w : OidcVctx => w.sso_states.list) _ le_rfl
  intro w e rest hlist
  rw [pending_del_list, hlist, erase_cons_head]

theorem expire_claims_list (v : OidcVctx) (now : Int) :
    (v.oidc_sso_state_expire now).sso_claims.list =
      v.sso_claims.list.dropWhile (·.expires ≤ now) := by
  have hclaims : (expireLoop (·.sso_states.list) oidc_sso_pending_del now
      v.sso_states.list.length v).sso_claims = v.sso_claims := by
    apply expireLoop_invariant (P := fun w : OidcVctx => w.sso_claims = v.sso_claims) _ rfl
    intro w e _ hw _
    obtain ⟨ips, heq⟩ := pending_del_frame w e
    rw [heq]
    exact hw
  unfold oidc_sso_state_expire
  dsimp only
  rw [hclaims]
  apply expireLoop_list SsoTable.list _ le_rfl
  intro t e rest hlist
  show t.list.erase e = rest
  rw [hlist, erase_cons_head]

/-- After the expiry no pending request is overdue. -/
theorem Ok.pending_alive (h : v.Ok clock) :
    ∀ e ∈ (v.oidc_sso_state_expire now).sso_states.list, now < e.expires := by
  rw [expire_pending_list]
  exact SsoTable.alive_of_sorted h.pending.sorted

theorem Ok.claims_alive (h : v.Ok clock) :
    ∀ e ∈ (v.oidc_sso_state_expire now).sso_claims.list, now < e.expires := by
  rw [expire_claims_list]
  exact SsoTable.alive_of_sorted h.claims.sorted

/-- The key under which a value from outside is looked up. -/
def lookupKey (value : CStr) : CStr := strlcpy value (OIDC_HEX_SIZE OIDC_TOKEN_SIZE)

/-- How the lookup of a value can end: it is not looked for, nothing has it, or the entry `e`
of `list` has it, and the lookup leaves `next e`. -/
inductive Lookup (v : OidcVctx) (now : Int) (value : Option CStr) (list : List SsoState)
    (key : SsoState → CStr) (next : SsoState → OidcVctx) : OidcVctx × Option SsoState → Prop
  | unasked : Lookup v now value list key next (v, none)
  | unknown : Lookup v now value list key next (v.oidc_sso_state_expire now, none)
  | found {e : SsoState} : e ∈ list → value.map lookupKey = some (key e) →
      Lookup v now value list key next (next e, some e)

section Lookups

variable {value : Option CStr} {list : List SsoState} {key : SsoState → CStr}
  {next : SsoState → OidcVctx} {r : OidcVctx × Option SsoState}

theorem Lookup.of_some (h : Lookup v now value list key next r) (hr : r.2 = some e) :
    e ∈ list ∧ value.map lookupKey = some (key e) ∧ r.1 = next e := by
  cases h with
  | unasked => cases hr
  | unknown => cases hr
  | found hmem hkey => exact some.inj hr ▸ ⟨hmem, hkey, rfl⟩

theorem Lookup.kept (h : Lookup v now value list key next r) (hv : v.Ok clock)
    (hnext : ∀ e ∈ list, (next e).Ok clock ∧ Drops (v.oidc_sso_state_expire now) (next e)) :
    r.1.Ok clock ∧ Drops v r.1 := by
  cases h with
  | unasked => exact ⟨hv, .refl v⟩
  | unknown => exact ⟨hv.expire, expire_drops v now⟩
  | found hmem _ => exact ⟨(hnext _ hmem).1, (expire_drops v now).trans (hnext _ hmem).2⟩

end Lookups

/-- A request that `state_find` returns is one that the expiry has left. -/
theorem Ok.state_find_lookup (h : v.Ok clock) (now : Int) (state : Option CStr) :
    Lookup v now state (v.oidc_sso_state_expire now).sso_states.list SsoState.state
      (fun _ => v.oidc_sso_state_expire now) (v.oidc_sso_state_find now state) := by
  unfold oidc_sso_state_find
  split
  · exact .unasked
  · exact .unasked
  · next s _ =>
    dsimp only
    cases hget : (v.oidc_sso_state_expire now).sso_states.htable.get
        (hash_string (strlcpy s (OIDC_HEX_SIZE OIDC_TOKEN_SIZE)))
        (fun e => e.state = strlcpy s (OIDC_HEX_SIZE OIDC_TOKEN_SIZE)) with
    | none => exact .unknown
    | some e =>
      obtain ⟨hmem, hkey⟩ := h.expire.pending.get_mem hget
      exact .found hmem (congrArg some (of_decide_eq_true hkey).symm)

theorem Ok.state_take_lookup (h : v.Ok clock) (now : Int) (state : Option CStr) :
    Lookup v now state (v.oidc_sso_state_expire now).sso_states.list SsoState.state
      (v.oidc_sso_state_expire now).oidc_sso_pending_del (v.oidc_sso_state_take now state) := by
  have hfind := h.state_find_lookup now state
  unfold oidc_sso_state_take
  generalize v.oidc_sso_state_find now state = r at hfind ⊢
  cases hfind with
  | unasked => exact .unasked
  | unknown => exact .unknown
  | found hmem hkey => exact .found hmem hkey

theorem Ok.claim_take_lookup (h : v.Ok clock) (now : Int) (token : Option CStr) :
    Lookup v now token (v.oidc_sso_state_expire now).sso_claims.list SsoState.token
      (fun e => { v.oidc_sso_state_expire now with
        sso_claims := (v.oidc_sso_state_expire now).sso_claims.oidc_sso_table_del
          oidc_sso_claim_rehash e }) (v.oidc_sso_claim_take now token) := by
  unfold oidc_sso_claim_take
  split
  · exact .unasked
  · exact .unasked
  · next s _ =>
    dsimp only
    cases hget : (v.oidc_sso_state_expire now).sso_claims.htable.get
        (hash_string (strlcpy s (OIDC_HEX_SIZE OIDC_TOKEN_SIZE)))
        (fun e => e.token = strlcpy s (OIDC_HEX_SIZE OIDC_TOKEN_SIZE)) with
    | none => exact .unknown
    | some e =>
      obtain ⟨hmem, hkey⟩ := h.expire.claims.get_mem hget
      exact .found hmem (congrArg some (of_decide_eq_true hkey).symm)

theorem Ok.state_take (h : v.Ok clock) (now : Int) (state : Option CStr) :
    (v.oidc_sso_state_take now state).1.Ok clock ∧ Drops v (v.oidc_sso_state_take now state).1 :=
  (h.state_take_lookup now state).kept h fun e hmem =>
    ⟨h.expire.pending_del hmem, pending_del_drops _ e⟩

theorem Ok.claim_take (h : v.Ok clock) (now : Int) (token : Option CStr) :
    (v.oidc_sso_claim_take now token).1.Ok clock ∧ Drops v (v.oidc_sso_claim_take now token).1 :=
  (h.claim_take_lookup now token).kept h fun e hmem =>
    ⟨h.expire.claim_del hmem, claim_del_drops _ e⟩

/-! ### A new request -/

/-- A record is found or created, unless the address is at its limit. -/
theorem Ok.ip_record_cases (h : v.Ok clock) {ip : CStr} (hip : strlcpy ip MAX_IP_STR = ip)
    (ip_room : Bool) :
    v.ip_record ip ip_room = none ∨
    ∃ ips, Recorded ips v.sso_states.list ip ∧
      pendingFrom v.sso_states.list ip < v.config.sso_max_pending_per_ip ∧
      v.ip_record ip ip_room =
        some ({ v with sso_ips := ips }, ⟨ip, pendingFrom v.sso_states.list ip⟩) := by
  unfold ip_record oidc_sso_ip_find
  rw [hip, h.counts.record]
  cases hn : pendingFrom v.sso_states.list ip with
  | zero =>
    rw [show SsoIp.record ip 0 = none from rfl]
    cases ip_room with
    | false => exact .inl rfl
    | true => exact .inr ⟨_, h.counts.create hn, v.config.per_ip_pos, rfl⟩
  | succ n =>
    rw [SsoIp.record_of_pos n.succ_pos]
    dsimp only
    split
    · exact .inl rfl
    · next hroom =>
      have hpos : 0 < pendingFrom v.sso_states.list ip := by omega
      exact .inr ⟨v.sso_ips, h.counts.recorded hpos, by omega, rfl⟩

/-- A request is added, with its count, or the lists stay as they are. -/
theorem Ok.pending_add_cases (h : v.Ok clock) (hip : strlcpy e.remote_ip MAX_IP_STR = e.remote_ip)
    (ip_room room : Bool) :
    (∃ ips, Counts ips v.sso_states.list ∧
      v.oidc_sso_pending_add e ip_room room = ({ v with sso_ips := ips }, false)) ∨
    ∃ ips, Counts ips (v.sso_states.list ++ [e]) ∧
      v.sso_states.list.length < v.config.sso_max_pending ∧
      pendingFrom v.sso_states.list e.remote_ip < v.config.sso_max_pending_per_ip ∧
      v.oidc_sso_pending_add e ip_room room =
        ({ v with sso_states := v.sso_states.push oidc_sso_state_rehash e, sso_ips := ips },
          true) := by
  unfold oidc_sso_pending_add
  split
  · exact .inl ⟨v.sso_ips, h.counts, rfl⟩
  · next hsize =>
    rw [h.pending.size] at hsize
    rcases h.ip_record_cases hip ip_room with heq | ⟨ips, hrec, hlimit, heq⟩
    · rw [heq]
      exact .inl ⟨v.sso_ips, h.counts, rfl⟩
    · rw [heq]
      cases room with
      | true => exact .inr ⟨_, hrec.count, by omega, hlimit, rfl⟩
      | false =>
        refine .inl ⟨_, hrec.undo, ?_⟩
        by_cases hzero : pendingFrom v.sso_states.list e.remote_ip = 0
        · simp [SsoTable.oidc_sso_table_add, hzero, ip_del]
        · simp [SsoTable.oidc_sso_table_add, hzero]

/-- The module with one more pending request. -/
def withPending (v : OidcVctx) (e : SsoState) : OidcVctx :=
  { v with sso_states := v.sso_states.push oidc_sso_state_rehash e }

theorem Drops.withPending (h : Drops v v') (e : SsoState) :
    Drops (v.withPending e) (v'.withPending e) :=
  ⟨h.config, h.pending.append (.refl [e]), h.claims⟩

theorem Ok.pending_add (h : v.Ok clock) (hnew : e ∉ v.sso_states.list)
    (hfrom : clock + v.config.sso_login_timeout ≤ e.expires)
    (huntil : e.expires ≤ now + v.config.sso_login_timeout) (hle : clock ≤ now)
    (hip : strlcpy e.remote_ip MAX_IP_STR = e.remote_ip) (ip_room room : Bool) :
    (v.oidc_sso_pending_add e ip_room room).1.Ok now := by
  rcases h.pending_add_cases hip ip_room room with ⟨ips, hcounts, heq⟩ |
    ⟨ips, hcounts, hlimit, hper, heq⟩
  · rw [heq]
    exact { h.mono hle with counts := hcounts }
  · rw [heq]
    have hmem : ∀ {p : SsoState → Prop}, (∀ x ∈ v.sso_states.list, p x) → p e →
        ∀ x ∈ v.sso_states.list ++ [e], p x := by
      intro p hlist he x hx
      rcases mem_append.1 hx with hx | hx
      · exact hlist x hx
      · rw [mem_singleton.1 hx]
        exact he
    exact
      { h.mono hle with
        pending := h.pending.push hnew fun x hx => Int.le_trans (h.pending_until x hx) hfrom
        pending_until := hmem (h.mono hle).pending_until huntil
        addresses := hmem h.addresses hip
        limit := by
          show (v.sso_states.list ++ [e]).length ≤ v.config.sso_max_pending
          rw [length_append, length_singleton]
          omega
        counts := hcounts
        per_ip := by
          intro ip
          show pendingFrom (v.sso_states.list ++ [e]) ip ≤ v.config.sso_max_pending_per_ip
          rw [pendingFrom_append]
          split
          · next heq =>
            rw [heq]
            omega
          · exact h.per_ip ip }

theorem Ok.pending_add_drops (h : v.Ok clock)
    (hip : strlcpy e.remote_ip MAX_IP_STR = e.remote_ip) (ip_room room : Bool) :
    Drops (v.withPending e) (v.oidc_sso_pending_add e ip_room room).1 := by
  rcases h.pending_add_cases hip ip_room room with ⟨ips, -, heq⟩ | ⟨ips, -, -, -, heq⟩
  · rw [heq]
    exact ⟨rfl, sublist_append_left _ _, .refl _⟩
  · rw [heq]
    exact ⟨rfl, .refl _, .refl _⟩

/-! ### The calls -/

section Calls

variable [Platform] {kd : SsoKeyData} {remote_ip strap : Option CStr} {code : CStr}
  {state : Option CStr}

/-- The request `e` was made from the random values of this call. -/
structure Created (kd : SsoKeyData) (cfg : OidcCfg) (remote_ip strap : Option CStr)
    (env : StartEnv) (rnd : OidcRandom) (e : SsoState) : Prop where
  drawn : env.state_rnd = some rnd
  verifier : env.verifier = some e.verifier
  nonce : env.nonce = some e.nonce
  eq : e = new_request kd cfg remote_ip strap env.created_at rnd e.verifier e.nonce

/-- The module with one more completed login. -/
def withClaim (v : OidcVctx) (e : SsoState) : OidcVctx :=
  { v with sso_claims := v.sso_claims.push oidc_sso_claim_rehash e }

/-- The callback takes the request `q`, and the ID token it obtains for it names the user
`ct`. -/
structure Completed (kd : SsoKeyData) (v : OidcVctx) (code : CStr) (state : Option CStr)
    (env : FinishEnv) (q : SsoState) (ct : OidcSt) (rnd : OidcRandom) : Prop where
  checked : oidc_sealed_token_check kd SEAL_LABEL_NEW_STATE state
  taken : (v.oidc_sso_state_take env.now state).2 = some q
  verified : ∃ response id_token, env.provider code q.verifier = some response ∧
    (response.get "id_token".toList).bind Json.string_value = some id_token ∧
    (v.oidc_sso_state_take env.now state).1.oidc_verify_token env.jws env.verified_at id_token
      (some q.nonce) = ((v.oidc_sso_state_take env.now state).1, some ct)
  drawn : env.token_rnd = some rnd

/-- What a call does to the tables. -/
inductive Change (kd : SsoKeyData) (v v' : OidcVctx) : OidcEvent → Prop
  | drops {ev : OidcEvent} (h : Drops v v') : Change kd v v' ev
  | created {remote_ip strap : Option CStr} {env : StartEnv} {rnd : OidcRandom} {e : SsoState}
      (h : Created kd v.config remote_ip strap env rnd e) (hdrops : Drops (v.withPending e) v') :
      Change kd v v' (.start remote_ip strap env)
  | completed {code : CStr} {state : Option CStr} {env : FinishEnv} {q : SsoState} {ct : OidcSt}
      {rnd : OidcRandom} (h : Completed kd v code state env q ct rnd)
      (hdrops : Drops (v.withClaim (completed_request kd q ct env.done_at rnd)) v') :
      Change kd v v' (.finish code state env)

theorem Change.trans {ev : OidcEvent} (h : Change kd v v' ev) (hdrops : Drops v' v'') :
    Change kd v v'' ev := by
  cases h with
  | drops h => exact .drops (h.trans hdrops)
  | created hcreated h => exact .created hcreated (h.trans hdrops)
  | completed hcompleted h => exact .completed hcompleted (h.trans hdrops)

/-- Either nothing is added, or the request of this call is offered to the table. -/
theorem state_new_cases (kd : SsoKeyData) (v : OidcVctx) (remote_ip strap : Option CStr)
    (env : StartEnv) :
    v.oidc_sso_state_new kd remote_ip strap env = (v.oidc_sso_state_expire env.now, none) ∨
    ∃ rnd e, Created kd v.config remote_ip strap env rnd e ∧
      v.oidc_sso_state_new kd remote_ip strap env =
        (((v.oidc_sso_state_expire env.now).oidc_sso_pending_add e env.ip_room env.room).1,
          if ((v.oidc_sso_state_expire env.now).oidc_sso_pending_add e env.ip_room env.room).2
          then some e else none) := by
  unfold oidc_sso_state_new
  dsimp only
  rw [(expire_drops v env.now).config]
  split
  · next rnd verifier nonce hrnd hverifier hnonce =>
    split
    · exact .inl rfl
    · exact .inr ⟨rnd, _, ⟨hrnd, hverifier, hnonce, rfl⟩, rfl⟩
  · exact .inl rfl

theorem Ok.state_new (h : v.Ok clock) (remote_ip strap : Option CStr) (env : StartEnv)
    (hnow : clock ≤ env.created_at)
    (hfresh : ∀ rnd, env.state_rnd = some rnd → ∀ x ∈ v.sso_states.list,
      x.state ≠ oidc_sealed_token kd SEAL_LABEL_NEW_STATE rnd) :
    (v.oidc_sso_state_new kd remote_ip strap env).1.Ok env.created_at ∧
      Change kd v (v.oidc_sso_state_new kd remote_ip strap env).1 (.start remote_ip strap env) := by
  have hdrops := expire_drops v env.now
  rcases state_new_cases kd v remote_ip strap env with heq | ⟨rnd, e, hcreated, heq⟩
  · rw [heq]
    exact ⟨h.expire.mono hnow, .drops hdrops⟩
  · rw [heq]
    have hip : strlcpy e.remote_ip MAX_IP_STR = e.remote_ip := by
      rw [hcreated.eq]
      exact strlcpy_strlcpy _ (Nat.le_refl _)
    have hexpires : e.expires = env.created_at + v.config.sso_login_timeout := by
      rw [hcreated.eq]
      rfl
    have hnew : e ∉ (v.oidc_sso_state_expire env.now).sso_states.list := by
      intro hmem
      apply hfresh rnd hcreated.drawn e (hdrops.pending.subset hmem)
      rw [hcreated.eq]
      rfl
    refine ⟨h.expire.pending_add hnew ?_ ?_ hnow hip _ _, .created hcreated ?_⟩
    · rw [hdrops.config, hexpires]
      omega
    · exact Int.le_of_eq (by rw [hdrops.config, hexpires])
    · exact (hdrops.withPending e).trans (h.expire.pending_add_drops hip _ _)

/-- A failed start takes its request back. -/
theorem Ok.start (h : v.Ok clock) (env : StartEnv) (hnow : clock ≤ env.created_at)
    (hlater : env.created_at ≤ env.cleaned_at)
    (hfresh : ∀ rnd, env.state_rnd = some rnd → ∀ x ∈ v.sso_states.list,
      x.state ≠ oidc_sealed_token kd SEAL_LABEL_NEW_STATE rnd) :
    (v.oidc_sso_start kd remote_ip strap env).1.Ok env.cleaned_at ∧
      Change kd v (v.oidc_sso_start kd remote_ip strap env).1 (.start remote_ip strap env) := by
  unfold oidc_sso_start
  split
  · exact ⟨h.mono (Int.le_trans hnow hlater), .drops (.refl v)⟩
  · split
    · exact ⟨h.mono (Int.le_trans hnow hlater), .drops (.refl v)⟩
    · obtain ⟨hok, hchange⟩ := h.state_new remote_ip strap env hnow hfresh
      have hok := hok.mono hlater
      dsimp only
      split
      · exact ⟨hok, hchange⟩
      · next st _ =>
        split
        · exact ⟨hok, hchange⟩
        · obtain ⟨htaken, hdrops⟩ := hok.state_take env.cleaned_at (some st.state)
          exact ⟨htaken, hchange.trans hdrops⟩

omit [Platform] in
/-- Only a refetched metadata document changes the module here. -/
theorem verify_token_fst (v : OidcVctx) (jws : CStr → Jws) (now : Int) (token : CStr)
    (nonce : Option CStr) :
    (∃ metadata, (v.oidc_verify_token jws now token nonce) =
      ({ v with metadata := metadata }, none)) ∨
      (v.oidc_verify_token jws now token nonce).1 = v := by
  unfold oidc_verify_token
  split
  · exact .inr rfl
  · exact .inr rfl
  · exact .inl ⟨_, rfl⟩
  · exact .inr rfl
  · split
    · exact .inr rfl
    · split
      · exact .inr rfl
      · split
        · exact .inr rfl
        · split
          · exact .inr rfl
          · split
            · exact .inr rfl
            · exact .inr rfl

/-- Completing a login adds it to the table of its own, or changes nothing. -/
theorem complete_cases (kd : SsoKeyData) (v : OidcVctx) (st : SsoState) (ct : OidcSt)
    (env : FinishEnv) :
    v.oidc_sso_complete kd st ct env = (v, none) ∨
    ∃ rnd handed, env.token_rnd = some rnd ∧
      oidc_hand_over env (completed_request kd st ct env.done_at rnd) = some handed ∧
      v.oidc_sso_complete kd st ct env =
        (v.withClaim (completed_request kd st ct env.done_at rnd), some handed) := by
  unfold oidc_sso_complete
  split
  · exact .inl rfl
  · next rnd hrnd =>
    dsimp only
    split
    · exact .inl rfl
    · next handed hhanded =>
      cases hroom : env.room with
      | false => exact .inl rfl
      | true => exact .inr ⟨rnd, handed, hrnd, hhanded, rfl⟩

/-- How a callback can end. -/
inductive Finished (kd : SsoKeyData) (v : OidcVctx) (code : CStr) (state : Option CStr)
    (env : FinishEnv) : FinishResult → Prop
  /-- the state is not one that this instance issued -/
  | unchecked (hcheck : oidc_sealed_token_check kd SEAL_LABEL_NEW_STATE state = false) :
      Finished kd v code state env ⟨v, false, none⟩
  /-- no request waits under this state -/
  | unknown (hcheck : oidc_sealed_token_check kd SEAL_LABEL_NEW_STATE state)
      (htake : (v.oidc_sso_state_take env.now state).2 = none) :
      Finished kd v code state env ⟨(v.oidc_sso_state_take env.now state).1, false, none⟩
  /-- the request is taken, but no login is completed -/
  | failed {q : SsoState} (metadata : OidcMetadata) (requested : Bool)
      (hcheck : oidc_sealed_token_check kd SEAL_LABEL_NEW_STATE state)
      (htake : (v.oidc_sso_state_take env.now state).2 = some q) :
      Finished kd v code state env
        ⟨{ (v.oidc_sso_state_take env.now state).1 with metadata := metadata }, requested, none⟩
  /-- the user of the request is known -/
  | completed {q : SsoState} {ct : OidcSt} {rnd : OidcRandom} {handed : SsoHandover}
      (h : Completed kd v code state env q ct rnd)
      (hhanded : oidc_hand_over env (completed_request kd q ct env.done_at rnd) = some handed) :
      Finished kd v code state env
        ⟨(v.oidc_sso_state_take env.now state).1.withClaim
          (completed_request kd q ct env.done_at rnd), true, some handed⟩

omit [Platform] in
/-- A response is there only if the token endpoint was asked. -/
theorem token_exchange_some {env : FinishEnv} {verifier : CStr} {response : Json}
    (h : (v.oidc_token_exchange env code verifier).1 = some response) :
    (v.oidc_token_exchange env code verifier).2 ∧
      env.provider code verifier = some response := by
  unfold oidc_token_exchange at h ⊢
  split at h
  · simp at h
  · next hready =>
    rw [if_neg hready]
    split at h
    · simp at h
    · next answer hanswer =>
      dsimp only at h ⊢
      split at h
      · simp at h
      · cases h
        exact ⟨rfl, hanswer⟩

theorem finish_cases (kd : SsoKeyData) (v : OidcVctx) (code : CStr) (state : Option CStr)
    (env : FinishEnv) :
    Finished kd v code state env (v.oidc_sso_finish kd code state env) := by
  unfold oidc_sso_finish
  split
  · next hcheck => exact .unchecked (by simpa using hcheck)
  · next hcheck =>
    have hcheck : oidc_sealed_token_check kd SEAL_LABEL_NEW_STATE state := by
      simpa using hcheck
    dsimp only
    split
    · next htake => exact .unknown hcheck htake
    · next q htake =>
      split
      · exact .failed _ _ hcheck htake
      · next id_token hid =>
        rw [bind_assoc] at hid
        obtain ⟨response, hresponse, hid⟩ := bind_eq_some_iff.1 hid
        obtain ⟨hrequested, hprovider⟩ := token_exchange_some hresponse
        rw [hrequested]
        rcases verify_token_fst (v.oidc_sso_state_take env.now state).1 env.jws
          env.verified_at id_token (some q.nonce) with ⟨metadata, hverify⟩ | hfst
        · rw [hverify]
          exact .failed _ _ hcheck htake
        · split
          · rw [hfst]
            exact .failed _ _ hcheck htake
          · next ct hsnd =>
            rw [hfst]
            rcases complete_cases kd _ q ct env with heq | ⟨rnd, handed, hrnd, hhanded, heq⟩
            · rw [heq]
              exact .failed _ _ hcheck htake
            · rw [heq]
              refine .completed ⟨hcheck, htake, ?_, hrnd⟩ hhanded
              exact ⟨response, id_token, hprovider, hid, Prod.ext hfst hsnd⟩

omit [Platform] in
theorem Drops.withClaim (h : Drops v v') (e : SsoState) :
    Drops (v.withClaim e) (v'.withClaim e) :=
  ⟨h.config, h.pending, h.claims.append (.refl [e])⟩

omit [Platform] in
theorem Ok.withClaim (h : v.Ok clock) (hnew : e ∉ v.sso_claims.list) (hle : clock ≤ now)
    (hexpires : e.expires = now + OIDC_CLAIM_TIMEOUT) : (v.withClaim e).Ok now := by
  have huntil : ∀ x ∈ v.sso_claims.list, x.expires ≤ e.expires := by
    intro x hx
    have := h.claims_until x hx
    omega
  exact
    { h.mono hle with
      claims := h.claims.push hnew huntil
      claims_until := by
        intro x hx
        rcases mem_append.1 hx with hx | hx
        · exact (h.mono hle).claims_until x hx
        · exact Int.le_of_eq (by rw [mem_singleton.1 hx, hexpires]) }

theorem Ok.finish (h : v.Ok clock) (code : CStr) (state : Option CStr) (env : FinishEnv)
    (hle : clock ≤ env.done_at)
    (hfresh : ∀ rnd, env.token_rnd = some rnd → ∀ x ∈ v.sso_claims.list,
      x.token ≠ oidc_sealed_token kd SEAL_LABEL_TOKEN rnd) :
    (v.oidc_sso_finish kd code state env).vctx.Ok env.done_at ∧
      Change kd v (v.oidc_sso_finish kd code state env).vctx (.finish code state env) := by
  obtain ⟨htake, hdrops⟩ := h.state_take env.now state
  generalize hr : v.oidc_sso_finish kd code state env = r
  have hcases := finish_cases kd v code state env
  rw [hr] at hcases
  cases hcases with
  | unchecked => exact ⟨h.mono hle, .drops (.refl v)⟩
  | unknown => exact ⟨htake.mono hle, .drops hdrops⟩
  | failed metadata requested =>
    -- the invariant does not look at the metadata
    have hok := htake.mono hle
    exact ⟨⟨hok.1, hok.2, hok.3, hok.4, hok.5, hok.6, hok.7, hok.8⟩,
      .drops ⟨hdrops.config, hdrops.pending, hdrops.claims⟩⟩
  | @completed q ct rnd handed hcompleted hhanded =>
    have hnew : completed_request kd q ct env.done_at rnd ∉
        (v.oidc_sso_state_take env.now state).1.sso_claims.list := by
      intro hmem
      exact hfresh rnd hcompleted.drawn _ (hdrops.claims.subset hmem) rfl
    exact ⟨htake.withClaim hnew hle rfl, .completed hcompleted (hdrops.withClaim _)⟩

theorem Ok.auth_init (h : v.Ok clock) (info : OidcAuthInfo) (jws : CStr → Jws) (now : Int) :
    (v.oidc_auth_init kd info jws now).1.Ok clock ∧
      Drops v (v.oidc_auth_init kd info jws now).1 := by
  unfold oidc_auth_init
  split
  · split
    · exact ⟨h, .refl v⟩
    · exact h.claim_take now _
  · split
    · exact ⟨h, .refl v⟩
    · rcases verify_token_fst v jws now info.username none with ⟨metadata, heq⟩ | heq
      · rw [heq]
        exact ⟨⟨h.1, h.2, h.3, h.4, h.5, h.6, h.7, h.8⟩, rfl, .refl _, .refl _⟩
      · rw [heq]
        exact ⟨h, .refl v⟩

/-- No value that a call would draw is in use. -/
structure Fresh (kd : SsoKeyData) (v : OidcVctx) (draws : List OidcRandom) : Prop where
  state : ∀ rnd ∈ draws, ∀ x ∈ v.sso_states.list,
    x.state ≠ oidc_sealed_token kd SEAL_LABEL_NEW_STATE rnd
  token : ∀ rnd ∈ draws, ∀ x ∈ v.sso_claims.list,
    x.token ≠ oidc_sealed_token kd SEAL_LABEL_TOKEN rnd

theorem Ok.call (h : v.Ok clock) {ev : OidcEvent}
    (htimes : List.IsChain (· ≤ ·) (clock :: ev.times)) (hfresh : Fresh kd v ev.draws) :
    (OidcSys.call kd v ev).Ok (ev.times.getLastD clock) ∧
      Change kd v (OidcSys.call kd v ev) ev := by
  cases ev with
  | start remote_ip strap env =>
    obtain ⟨hnow, hcreated, hlater, -⟩ : clock ≤ env.now ∧ env.now ≤ env.created_at ∧
        env.created_at ≤ env.cleaned_at ∧ True := by simpa [OidcEvent.times] using htimes
    have hdraws : ∀ rnd, env.state_rnd = some rnd → rnd ∈ env.state_rnd.toList := by simp
    exact h.start env (Int.le_trans hnow hcreated) hlater
      fun rnd hrnd => hfresh.state rnd (hdraws rnd hrnd)
  | finish code state env =>
    obtain ⟨hnow, hverified, hdone⟩ : clock ≤ env.now ∧ env.now ≤ env.verified_at ∧
        env.verified_at ≤ env.done_at := by simpa [OidcEvent.times] using htimes
    have hdraws : ∀ rnd, env.token_rnd = some rnd → rnd ∈ env.token_rnd.toList := by simp
    have hle : clock ≤ env.done_at := by omega
    exact h.finish code state env hle fun rnd hrnd => hfresh.token rnd (hdraws rnd hrnd)
  | auth_init info jws now =>
    have hnow : clock ≤ now := by simpa [OidcEvent.times] using htimes
    obtain ⟨hok, hdrops⟩ := h.auth_init info jws now
    exact ⟨hok.mono hnow, .drops hdrops⟩
  | expire now =>
    have hnow : clock ≤ now := by simpa [OidcEvent.times] using htimes
    exact ⟨h.expire.mono hnow, .drops (expire_drops v now)⟩

end Calls
end OidcVctx

/-! ## Runs -/

/-- The entries carry sealed values that have been drawn, and no two carry the same. -/
structure Sealed (stamp : OidcRandom → CStr) (value : SsoState → CStr) (drawn : List OidcRandom)
    (list : List SsoState) : Prop where
  drawn : ∀ e ∈ list, ∃ rnd ∈ drawn, value e = stamp rnd
  nodup : (list.map value).Nodup

namespace Sealed

variable {stamp : OidcRandom → CStr} {value : SsoState → CStr} {drawn draws : List OidcRandom}
  {list list' : List SsoState} {rnd : OidcRandom} {e : SsoState}

theorem nil : Sealed stamp value drawn [] := ⟨by simp, nodup_nil⟩

theorem sublist (h : Sealed stamp value drawn list) (hsub : list'.Sublist list) :
    Sealed stamp value drawn list' :=
  ⟨fun e he => h.drawn e (hsub.subset he), h.nodup.sublist (hsub.map value)⟩

theorem draw (h : Sealed stamp value drawn list) (draws : List OidcRandom) :
    Sealed stamp value (draws ++ drawn) list := by
  refine ⟨fun e he => ?_, h.nodup⟩
  obtain ⟨rnd, hrnd, heq⟩ := h.drawn e he
  exact ⟨rnd, mem_append_right draws hrnd, heq⟩

/-- A value that was not drawn before is on no entry. -/
theorem ne_of_not_drawn (h : Sealed stamp value drawn list)
    (hinj : ∀ {rnd rnd'}, stamp rnd = stamp rnd' → rnd = rnd') (hrnd : rnd ∉ drawn)
    (he : e ∈ list) :
    value e ≠ stamp rnd := by
  intro heq
  obtain ⟨rnd', hdrawn, heq'⟩ := h.drawn e he
  have hsame : rnd' = rnd := hinj (heq'.symm.trans heq)
  exact hrnd (hsame ▸ hdrawn)

theorem append (h : Sealed stamp value drawn list)
    (hinj : ∀ {rnd rnd'}, stamp rnd = stamp rnd' → rnd = rnd') (hrnd : rnd ∉ drawn)
    (hmem : rnd ∈ draws) (hvalue : value e = stamp rnd) :
    Sealed stamp value (draws ++ drawn) (list ++ [e]) := by
  constructor
  · intro x hx
    rcases mem_append.1 hx with hx | hx
    · exact (h.draw draws).drawn x hx
    · rw [mem_singleton.1 hx]
      exact ⟨rnd, mem_append_left _ hmem, hvalue⟩
  · rw [map_append, nodup_append]
    refine ⟨h.nodup, nodup_singleton _, ?_⟩
    intro a ha b hb
    obtain ⟨x, hx, rfl⟩ := mem_map.1 ha
    rw [map_singleton, mem_singleton] at hb
    rw [hb, hvalue]
    exact h.ne_of_not_drawn hinj hrnd hx

end Sealed

namespace OidcSys

section

variable [Platform]

omit [Platform] in
/-- A module that has just been configured has empty tables. -/
theorem vhost_init_empty {mode : OidcMode} {config : Json} {fetched : Option OidcMetadata}
    {v : OidcVctx} (h : oidc_vhost_init mode config fetched = some v) :
    ∃ cfg metadata, v = { config := cfg, metadata := metadata } := by
  unfold oidc_vhost_init at h
  dsimp only at h
  split at h
  · simp at h
  · split at h
    · simp at h
    · split at h
      · simp at h
      · split at h
        · simp at h
        · exact ⟨_, _, (some.inj h).symm⟩

/-- The invariant of the runs. -/
structure Ok (kd : SsoKeyData) (s : OidcSys) : Prop where
  tables : s.vctx.Ok s.clock
  states : Sealed (oidc_sealed_token kd SEAL_LABEL_NEW_STATE) SsoState.state s.drawn
    s.vctx.sso_states.list
  tokens : Sealed (oidc_sealed_token kd SEAL_LABEL_TOKEN) SsoState.token s.drawn
    s.vctx.sso_claims.list

variable {kd : SsoKeyData} {s s' : OidcSys} {ev : OidcEvent}

theorem Ok.of_init (h : s.Init) : s.Ok kd := by
  obtain ⟨⟨mode, config, fetched, hinit⟩, -⟩ := h
  obtain ⟨cfg, metadata, heq⟩ := vhost_init_empty hinit
  constructor
  · rw [heq]
    exact
      { pending := .empty
        claims := .empty
        pending_until := by simp
        claims_until := by simp
        addresses := by simp
        limit := Nat.zero_le _
        counts := .init
        per_ip := fun _ => Nat.zero_le _ }
  · rw [heq]
    exact .nil
  · rw [heq]
    exact .nil

theorem step_eq_some :
    s.step kd ev = some s' ↔ s.Admits ev ∧
      s' = { vctx := call kd s.vctx ev, clock := ev.times.getLastD s.clock
             drawn := ev.draws ++ s.drawn } := by
  unfold step
  rw [ite_none_right_eq_some, some_inj, eq_comm]

theorem Ok.fresh (h : s.Ok kd) (hadmits : s.Admits ev) : OidcVctx.Fresh kd s.vctx ev.draws where
  state rnd hrnd _ hx := h.states.ne_of_not_drawn oidc_sealed_token_inj (hadmits.2 rnd hrnd) hx
  token rnd hrnd _ hx := h.tokens.ne_of_not_drawn oidc_sealed_token_inj (hadmits.2 rnd hrnd) hx

theorem Ok.change (h : s.Ok kd) (hstep : s.step kd ev = some s') :
    OidcVctx.Change kd s.vctx s'.vctx ev := by
  obtain ⟨hadmits, rfl⟩ := step_eq_some.1 hstep
  exact (h.tables.call hadmits.1 (h.fresh hadmits)).2

theorem Ok.step (h : s.Ok kd) (hstep : s.step kd ev = some s') : s'.Ok kd := by
  have hchange := h.change hstep
  obtain ⟨hadmits, rfl⟩ := step_eq_some.1 hstep
  refine ⟨(h.tables.call hadmits.1 (h.fresh hadmits)).1, ?_, ?_⟩
  · cases hchange with
    | drops hdrops => exact (h.states.sublist hdrops.pending).draw _
    | @created remote_ip strap env rnd e hcreated hdrops =>
      have hmem : rnd ∈ env.state_rnd.toList := by simp [hcreated.drawn]
      have hvalue : e.state = oidc_sealed_token kd SEAL_LABEL_NEW_STATE rnd := by
        rw [hcreated.eq]
        rfl
      have hadded := h.states.append oidc_sealed_token_inj (hadmits.2 rnd hmem) hmem hvalue
      exact hadded.sublist hdrops.pending
    | completed _ hdrops => exact (h.states.sublist hdrops.pending).draw _
  · cases hchange with
    | drops hdrops => exact (h.tokens.sublist hdrops.claims).draw _
    | created _ hdrops => exact (h.tokens.sublist hdrops.claims).draw _
    | @completed code state env q ct rnd hcompleted hdrops =>
      have hmem : rnd ∈ env.token_rnd.toList := by simp [hcompleted.drawn]
      have hadded := h.tokens.append oidc_sealed_token_inj (hadmits.2 rnd hmem) hmem
        (e := OidcVctx.completed_request kd q ct env.done_at rnd) rfl
      exact hadded.sublist hdrops.claims

/-- The runs of the module under the key of its instance. -/
abbrev Run (kd : SsoKeyData) : List (Transition OidcSys OidcEvent) → OidcSys → Prop :=
  Runs.Run Init fun s ev s' => s.step kd ev = some s'

theorem Ok.of_run {trace : List (Transition OidcSys OidcEvent)} (hrun : Run kd trace s) :
    s.Ok kd :=
  hrun.invariant (fun _ => .of_init) fun _ _ _ h => h.step

end
end OidcSys

/-! ## The tables in every run -/

/-- The size is that of the list and of the hash, both hold the same entries, and the
list is in order of expiry. -/
structure SsoTable.Consistent (t : SsoTable) : Prop where
  list_size : t.size = t.list.length
  hash_size : t.size = t.htable.toList.length
  same : t.htable.toList.Perm t.list
  sorted : t.list.Pairwise fun a b => a.expires ≤ b.expires

theorem SsoTable.Ok.consistent {rehash : SsoState → Nat} {t : SsoTable} (h : t.Ok rehash) :
    t.Consistent where
  list_size := h.size
  hash_size := h.size.trans h.perm.length_eq.symm
  same := h.perm
  sorted := h.sorted

namespace OidcVctx

variable {v : OidcVctx} {clock : Int}

/-- A record is there exactly for the addresses of the pending requests. -/
theorem Ok.record_iff (h : v.Ok clock) {r : SsoIp} :
    r ∈ v.sso_ips.toList ↔ r = ⟨r.ip, pendingFrom v.sso_states.list r.ip⟩ ∧
      ∃ e ∈ v.sso_states.list, e.remote_ip = r.ip := by
  have hlookup : r ∈ v.sso_ips.toList ↔
      SsoIp.record r.ip (pendingFrom v.sso_states.list r.ip) = some r := by
    rw [← h.counts.record, h.counts.keyed.lookup_eq_some]
    simp
  have hpos : 0 < pendingFrom v.sso_states.list r.ip ↔
      ∃ e ∈ v.sso_states.list, e.remote_ip = r.ip := by
    simp [pendingFrom, countP_pos_iff]
  rw [hlookup, ← hpos]
  constructor
  · intro hrecord
    cases hn : pendingFrom v.sso_states.list r.ip with
    | zero =>
      rw [hn] at hrecord
      simp [SsoIp.record] at hrecord
    | succ n =>
      rw [hn, SsoIp.record_of_pos n.succ_pos, some_inj] at hrecord
      exact ⟨hrecord.symm, n.succ_pos⟩
  · rintro ⟨heq, hn⟩
    rw [SsoIp.record_of_pos hn, ← heq]

/-- A lookup at a time finds no entry that has expired by then. -/
theorem Ok.found_alive (h : v.Ok clock) {now : Int} {value : Option CStr} {e : SsoState}
    (hfound : (v.oidc_sso_state_find now value).2 = some e ∨
      (v.oidc_sso_state_take now value).2 = some e ∨
      (v.oidc_sso_claim_take now value).2 = some e) : now < e.expires := by
  rcases hfound with hfind | htake | hclaim
  · exact h.pending_alive e ((h.state_find_lookup now value).of_some hfind).1
  · exact h.pending_alive e ((h.state_take_lookup now value).of_some htake).1
  · exact h.claims_alive e ((h.claim_take_lookup now value).of_some hclaim).1

end OidcVctx

/-- In every run both tables are consistent, the pending requests keep to the two limits, an
address has a record exactly while it has pending requests, the record counts them, and
no lookup returns an entry that has expired. -/
theorem oidc_tables_consistent [Platform] {kd : SsoKeyData} {s : OidcSys}
    (h : Reachable OidcSys.Init (fun s ev s' => s.step kd ev = some s') s) :
    s.vctx.sso_states.Consistent ∧ s.vctx.sso_claims.Consistent ∧
    s.vctx.sso_states.size ≤ s.vctx.config.sso_max_pending ∧
    (s.vctx.sso_ips.toList.map SsoIp.ip).Nodup ∧
    (∀ ip, (∃ r ∈ s.vctx.sso_ips.toList, r.ip = ip) ↔
      ∃ e ∈ s.vctx.sso_states.list, e.remote_ip = ip) ∧
    (∀ r ∈ s.vctx.sso_ips.toList, r.count = pendingFrom s.vctx.sso_states.list r.ip ∧
      r.count ≤ s.vctx.config.sso_max_pending_per_ip) ∧
    ∀ now value e,
      (s.vctx.oidc_sso_state_find now value).2 = some e ∨
        (s.vctx.oidc_sso_state_take now value).2 = some e ∨
        (s.vctx.oidc_sso_claim_take now value).2 = some e → now < e.expires := by
  obtain ⟨trace, hrun⟩ := h
  have hok := (OidcSys.Ok.of_run hrun).tables
  refine ⟨hok.pending.consistent, hok.claims.consistent, ?_, hok.counts.keyed.nodup, ?_, ?_, ?_⟩
  · rw [hok.pending.size]
    exact hok.limit
  · intro ip
    constructor
    · rintro ⟨r, hr, rfl⟩
      exact (hok.record_iff.1 hr).2
    · intro hex
      exact ⟨⟨ip, pendingFrom s.vctx.sso_states.list ip⟩, hok.record_iff.2 ⟨rfl, hex⟩, rfl⟩
  · intro r hr
    have hcount : r.count = pendingFrom s.vctx.sso_states.list r.ip :=
      congrArg SsoIp.count (hok.record_iff.1 hr).1
    refine ⟨hcount, ?_⟩
    rw [hcount]
    exact hok.per_ip r.ip
  · intro now value e hfound
    exact hok.found_alive hfound

/-! ### Two logins, one after the other

A server that allows one pending request, and a provider that vouches for everybody. -/

section Demo

local instance oidcTablesPlatform : Platform := Platform.simple

namespace OidcDemo

def kd : SsoKeyData := ⟨0, []⟩

def config : Json := .object
  [("openid_configuration_url".toList, .string "https://op".toList),
   ("required_claims".toList, .object []),
   ("user_name_claim".toList, .string "sub".toList),
   ("client_id".toList, .string "vpn".toList),
   ("redirect_uri".toList, .string "https://vpn".toList),
   ("sso_max_pending".toList, .integer 1)]

def metadata : OidcMetadata :=
  ⟨some "https://op".toList, some "https://op/auth".toList, some "https://op/token".toList⟩

def rnd (b : UInt8) : OidcRandom := ⟨List.replicate 32 b, length_replicate⟩

/-- The claims of an ID token for the user `name`. -/
def claims (name : CStr) : Json := .object
  [("iss".toList, .string "https://op".toList), ("aud".toList, .string "vpn".toList),
   ("exp".toList, .integer 1000), ("iat".toList, .integer 1),
   ("nonce".toList, .string "n".toList), ("sub".toList, .string name)]

/-- A client asks for the login form. -/
def start (b : UInt8) (now : Int) : OidcEvent :=
  .start (some "192.0.2.1".toList) none
    { now := now, created_at := now, cleaned_at := now, state_rnd := some (rnd b)
      verifier := some "v".toList, nonce := some "n".toList }

/-- The browser of that client comes back, and the provider names the user. -/
def finish (b b' : UInt8) (now : Int) (name : CStr) : OidcEvent :=
  .finish "code".toList (some (oidc_sealed_token kd SEAL_LABEL_NEW_STATE (rnd b)))
    { now := now, verified_at := now, done_at := now
      provider := fun _ _ => some (.object [("id_token".toList, .string "jwt".toList)])
      jws := fun _ => .verified (some (claims name))
      token_rnd := some (rnd b')
      encrypt := fun _ _ => none }

/-- The module right after its configuration has been read. -/
def booted : OidcSys :=
  { vctx := { config := OidcCfg.read .browser config, metadata := metadata }, clock := 100 }

theorem booted_init : booted.Init := by
  refine ⟨⟨.browser, config, some metadata, ?_⟩, rfl⟩
  rfl

end OidcDemo

open OidcDemo

/-- The state while a second login is under way. -/
theorem oidc_tables_consistent_second :
    ∃ s, Reachable OidcSys.Init (fun s ev s' => s.step kd ev = some s') s ∧
      (s.vctx.sso_states.size = 1 ∧ s.vctx.sso_claims.size = 1) ∧
      s.vctx.sso_states.Consistent ∧ s.vctx.sso_claims.Consistent := by
  obtain ⟨s, hs, hsizes⟩ := exists_reachable_of_exec (f := OidcSys.step kd)
    (P := fun s => s.vctx.sso_states.size = 1 ∧ s.vctx.sso_claims.size = 1)
    [start 1 100, finish 1 2 110 "alice".toList, start 3 120] booted_init (by decide +kernel)
  obtain ⟨hpending, hclaims, -⟩ := oidc_tables_consistent hs
  exact ⟨s, hs, hsizes, hpending, hclaims⟩

/-- Two logins completed within a minute are two entries, where one request may be pending. -/
theorem completed_exceed_max_pending :
    ∃ s, Reachable OidcSys.Init (fun s ev s' => s.step kd ev = some s') s ∧
      s.vctx.config.sso_max_pending < s.vctx.sso_claims.size := by
  exact exists_reachable_of_exec
    [start 1 100, finish 1 2 110 "alice".toList, start 3 120, finish 3 4 130 "bob".toList]
    booted_init (by decide +kernel)

end Demo
end Ocserv

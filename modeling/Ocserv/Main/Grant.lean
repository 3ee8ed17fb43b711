import Ocserv.Lib.Outcome
import Ocserv.Lib.Subnet
import Ocserv.Main.Lease

/-!
# What a lease can be

The settings of a worker determine the networks its addresses are taken from, its pools,
and its explicit addresses.  `Ipv4Grant` and `Ipv6Grant` list what is known of a lease that
`get_ipv4_lease` and `get_ipv6_lease` return, and `Grant` what a new lease makes of its
worker.  Since `get_ip_leases` grants at most one lease of each family,
`Main.get_ip_leases_rule` derives what it keeps from what a single grant keeps.
-/

namespace Ocserv

open HTable Outcome

section Grants

variable [Platform]

/-! ## Pools -/

/-- An IPv4 network. -/
structure Ipv4Pool where
  network : BitVec 32
  mask : BitVec 32
  aligned : network &&& mask = network
deriving DecidableEq

def ipv4_pool (c_network c_netmask : Option CStr) : Option Ipv4Pool := do
  let network ← Inet.inet_pton4 (← c_network)
  let mask ← Inet.inet_pton4 (← c_netmask)
  return ⟨network &&& mask, mask, by rw [BitVec.and_assoc, BitVec.and_self]⟩

/-- The network of the IPv4 address of a worker: that of its own settings, if they have one,
or that of its virtual host. -/
def Proc.ipv4_pool (p : Proc) : Option Ipv4Pool := do
  let config ← p.config
  if config.ipv4_net.isSome && config.ipv4_netmask.isSome then
    Ocserv.ipv4_pool config.ipv4_net config.ipv4_netmask
  else
    let vhost ← p.vhost
    Ocserv.ipv4_pool vhost.config.network.ipv4 vhost.config.network.ipv4_netmask

def Proc.explicit_ipv4 (p : Proc) : Option (BitVec 32) := do
  let config ← p.config
  Inet.inet_pton4 (← config.explicit_ipv4)

/-- An IPv6 network, which is divided into subnets. -/
structure Ipv6Pool where
  network : BitVec 128
  prefix_len : Nat
  subnet_prefix_len : Nat
  aligned : network &&& Subnet.mask 128 prefix_len = network
deriving DecidableEq

def ipv6_pool (c_network : Option CStr) (prefix_len subnet_prefix_len : Nat) : Option Ipv6Pool := do
  let network ← Inet.inet_pton6 (← c_network)
  return ⟨network &&& Subnet.mask 128 prefix_len, prefix_len, subnet_prefix_len,
    by rw [BitVec.and_assoc, BitVec.and_self]⟩

omit [Platform] in
theorem ipv6_pool_subnet_prefix_len {c_network : Option CStr} {prefix_len subnet_prefix_len : Nat}
    {pool : Ipv6Pool} (h : ipv6_pool c_network prefix_len subnet_prefix_len = some pool) :
    pool.subnet_prefix_len = subnet_prefix_len := by
  simp only [ipv6_pool, Option.bind_eq_bind, Option.bind_eq_some_iff, Option.pure_def,
    Option.some.injEq] at h
  obtain ⟨c_network, -, network, -, rfl⟩ := h
  rfl

/-- The network of the IPv6 subnet of a worker. -/
def Proc.ipv6_pool (p : Proc) : Option Ipv6Pool := do
  let config ← p.config
  if config.ipv6_net.isSome && config.ipv6_subnet_prefix_len.getD 0 != 0 then
    Ocserv.ipv6_pool config.ipv6_net (config.ipv6_prefix_len.getD 0)
      (config.ipv6_subnet_prefix_len.getD 0)
  else
    let vhost ← p.vhost
    Ocserv.ipv6_pool vhost.config.network.ipv6 vhost.config.network.ipv6_prefix_len
      vhost.config.network.ipv6_subnet_prefix_len

def Proc.explicit_ipv6 (p : Proc) : Option (BitVec 128) := do
  let config ← p.config
  Inet.inet_pton6 (← config.explicit_ipv6)

variable {env : MainEnv} {db : LeaseDb} {id k : Nat} {p p' : Proc} {l l' : IpLease}

/-! ## The search for a free address -/

theorem LeaseDb.sig_ne {sig : Addr} (h : db.ip_lease_exists sig = false) (hl : l ∈ db.toList) :
    l.sig ≠ sig := by
  rintro rfl
  rw [LeaseDb.ip_lease_exists, Option.isSome_eq_false_iff, Option.isNone_iff_eq_none] at h
  have hcmp := db.wf.get_none h hl rfl
  simp at hcmp

theorem ipv4_loop_spec {seed network mask rnd ip : BitVec 32}
    (h : ipv4_loop env db seed network mask k rnd = some ip) :
    is_ipv4_ok db ip network mask ∧ ipv4_lip network mask ≠ ip ∧
      ∃ r, ip = r &&& ~~~mask ||| network := by
  induction k generalizing rnd with
  | zero => simp [ipv4_loop] at h
  | succ k ih =>
    unfold ipv4_loop at h
    split at h
    · simp at h
    · next r _ =>
      simp only at h
      split at h
      · exact ih h
      · next hok =>
        split at h
        · exact ih h
        · next hlip =>
          split at h
          · cases h
            exact ⟨by simpa using hok, hlip, r, rfl⟩
          · exact ih h

theorem ipv6_loop_spec {seed : BitVec 32} {network mask subnet_mask ip : BitVec 128} {len : Nat}
    (h : ipv6_loop env db seed network mask subnet_mask len k = some ip) :
    is_ipv6_ok db network (ip &&& subnet_mask) ∧ ∃ r, ip = r &&& ~~~mask ||| network := by
  induction k with
  | zero => simp [ipv6_loop] at h
  | succ k ih =>
    unfold ipv6_loop at h
    split at h
    · simp at h
    · next r _ =>
      simp only at h
      split at h
      · exact ih h
      · next hok =>
        split at h
        · cases h
          exact ⟨by simpa using hok, r, rfl⟩
        · exact ih h

omit [Platform] in
theorem candidate_and_mask {w : Nat} {network mask : BitVec w}
    (haligned : network &&& mask = network) (r : BitVec w) :
    (r &&& ~~~mask ||| network) &&& mask = network := by
  apply BitVec.eq_of_getLsbD_eq
  intro i hi
  have hbit := congrArg (fun a => BitVec.getLsbD a i) haligned
  simp only [BitVec.getLsbD_and] at hbit
  simp only [BitVec.getLsbD_and, BitVec.getLsbD_or, BitVec.getLsbD_not, hi]
  cases hm : mask.getLsbD i <;> simp_all

/-! ## Grants -/

/-- What is known of an IPv4 lease of a worker. -/
structure Ipv4Grant (db : LeaseDb) (id : Nat) (p : Proc) (pool : Ipv4Pool) (ip : BitVec 32)
    (l : IpLease) : Prop where
  network : p.ipv4_pool = some pool
  id : l.id = id
  sig : l.sig = .v4 ip
  rip : l.rip = .v4 ip
  lip : l.lip = .v4 (ipv4_lip pool.network pool.mask)
  ok : is_ipv4_ok db ip pool.network pool.mask
  lip_ne : ipv4_lip pool.network pool.mask ≠ ip
  registered : l.db = l.pool
  source : (l.pool ∧ p.explicit_ipv4 = none ∧ ip &&& pool.mask = pool.network) ∨
    (l.pool = false ∧ p.explicit_ipv4 = some ip)

/-- What is known of an IPv6 lease of a worker. -/
structure Ipv6Grant (db : LeaseDb) (id : Nat) (p : Proc) (pool : Ipv6Pool) (ip : BitVec 128)
    (l : IpLease) : Prop where
  network : p.ipv6_pool = some pool
  id : l.id = id
  sig : l.sig = .v6 (ip &&& Subnet.mask 128 pool.subnet_prefix_len)
  rip : l.rip = .v6 ip
  lip : l.lip = .v6 pool.network
  prefix_len : l.prefix_len = pool.subnet_prefix_len
  subnet_prefix_len : 0 < pool.subnet_prefix_len ∧ pool.subnet_prefix_len ≤ 128
  ok : is_ipv6_ok db pool.network (ip &&& Subnet.mask 128 pool.subnet_prefix_len)
  registered : l.db = l.pool
  source : (l.pool ∧ p.explicit_ipv6 = none ∧
      ip &&& Subnet.mask 128 pool.prefix_len = pool.network) ∨
    (l.pool = false ∧ p.explicit_ipv6 = some ip)

theorem ipv4_lease_grant {seed : BitVec 32} {config : GroupCfg} {c_network c_netmask : Option CStr}
    (hconfig : p.config = some config) (hpool : p.ipv4_pool = ipv4_pool c_network c_netmask)
    (h : ipv4_lease env db id seed config c_network c_netmask = .lease l) :
    ∃ pool ip, Ipv4Grant db id p pool ip l := by
  unfold ipv4_lease at h
  split at h
  · next c_network c_netmask =>
    split at h
    · next network mask hnetwork hmask =>
      have hnet : p.ipv4_pool = some ⟨network &&& mask, mask, by
          rw [BitVec.and_assoc, BitVec.and_self]⟩ := by
        simp [hpool, ipv4_pool, hnetwork, hmask]
      simp only at h
      split at h
      · next explicit hexplicit =>
        split at h
        · simp at h
        · next ip hip =>
          split at h
          · simp at h
          · next hok =>
            split at h
            · simp at h
            · next hlip =>
              obtain rfl := LeaseResult.lease.inj h
              have hsource : p.explicit_ipv4 = some ip := by
                simp [Proc.explicit_ipv4, hconfig, hexplicit, hip]
              exact ⟨_, ip, hnet, rfl, rfl, rfl, rfl, by simpa using hok, hlip, rfl,
                .inr ⟨rfl, hsource⟩⟩
      · next hexplicit =>
        split at h
        · simp at h
        · next ip hloop =>
          obtain rfl := LeaseResult.lease.inj h
          obtain ⟨hok, hlip, r, rfl⟩ := ipv4_loop_spec hloop
          have hsource : p.explicit_ipv4 = none := by
            simp [Proc.explicit_ipv4, hconfig, hexplicit]
          exact ⟨_, _, hnet, rfl, rfl, rfl, rfl, hok, hlip, rfl,
            .inl ⟨rfl, hsource, candidate_and_mask (by rw [BitVec.and_assoc, BitVec.and_self]) r⟩⟩
    · simp at h
  · simp at h

omit [Platform] in
theorem ipv6_prefix_to_mask_eq_some {len : Nat} {mask : BitVec 128} :
    ipv6_prefix_to_mask len = some mask ↔ 0 < len ∧ len ≤ 128 ∧ mask = Subnet.mask 128 len := by
  unfold ipv6_prefix_to_mask
  split
  · simp
    omega
  · next hlen =>
    have hbounds : 0 < len ∧ len ≤ 128 := by omega
    simp [Subnet.mask, hbounds, eq_comm]

theorem ipv6_lease_grant {seed : BitVec 32} {config : GroupCfg} {c_network : Option CStr}
    {len subnet_len : Nat} (hconfig : p.config = some config)
    (hpool : p.ipv6_pool = ipv6_pool c_network len subnet_len)
    (h : ipv6_lease env db id seed config c_network len subnet_len = .lease l) :
    ∃ pool ip, Ipv6Grant db id p pool ip l := by
  unfold ipv6_lease at h
  split at h
  · simp at h
  · next c_network =>
    split at h
    · simp at h
    · split at h
      · next mask subnet_mask network hmask hsubnet hnetwork =>
        obtain ⟨-, -, rfl⟩ := ipv6_prefix_to_mask_eq_some.1 hmask
        obtain ⟨hpos, hle, rfl⟩ := ipv6_prefix_to_mask_eq_some.1 hsubnet
        have hnet : p.ipv6_pool = some ⟨network &&& Subnet.mask 128 len, len, subnet_len, by
            rw [BitVec.and_assoc, BitVec.and_self]⟩ := by
          simp [hpool, ipv6_pool, hnetwork]
        simp only at h
        split at h
        · next explicit hexplicit =>
          split at h
          · simp at h
          · next ip hip =>
            split at h
            · simp at h
            · next hok =>
              obtain rfl := LeaseResult.lease.inj h
              have hsource : p.explicit_ipv6 = some ip := by
                simp [Proc.explicit_ipv6, hconfig, hexplicit, hip]
              exact ⟨_, ip, hnet, rfl, rfl, rfl, rfl, rfl, ⟨hpos, hle⟩,
                by simpa using hok, rfl, .inr ⟨rfl, hsource⟩⟩
        · next hexplicit =>
          split at h
          · simp at h
          · next ip hloop =>
            obtain rfl := LeaseResult.lease.inj h
            obtain ⟨hok, r, rfl⟩ := ipv6_loop_spec hloop
            have hsource : p.explicit_ipv6 = none := by
              simp [Proc.explicit_ipv6, hconfig, hexplicit]
            exact ⟨_, _, hnet, rfl, rfl, rfl, rfl, rfl, ⟨hpos, hle⟩, hok, rfl,
              .inl ⟨rfl, hsource,
                candidate_and_mask (by rw [BitVec.and_assoc, BitVec.and_self]) r⟩⟩
      · simp at h

theorem get_ipv4_lease_grant (h : get_ipv4_lease env db id p = .ok (.lease l)) :
    ∃ pool ip, Ipv4Grant db id p pool ip l := by
  simp only [get_ipv4_lease, bind_eq_ok, deref_eq_ok] at h
  obtain ⟨config, hconfig, h⟩ := h
  split at h
  · next hown =>
    rw [pure_eq_ok] at h
    refine ipv4_lease_grant hconfig ?_ h
    rw [Proc.ipv4_pool, hconfig]
    exact if_pos hown
  · next hown =>
    simp only [bind_eq_ok, pure_eq_ok, deref_eq_ok] at h
    obtain ⟨vhost, hvhost, h⟩ := h
    refine ipv4_lease_grant hconfig ?_ h
    rw [Proc.ipv4_pool, hconfig, hvhost]
    exact if_neg hown

theorem get_ipv6_lease_grant (h : get_ipv6_lease env db id p = .ok (.lease l)) :
    ∃ pool ip, Ipv6Grant db id p pool ip l := by
  simp only [get_ipv6_lease, bind_eq_ok, deref_eq_ok] at h
  obtain ⟨config, hconfig, h⟩ := h
  split at h
  · next hown =>
    rw [pure_eq_ok] at h
    refine ipv6_lease_grant hconfig ?_ h
    rw [Proc.ipv6_pool, hconfig]
    exact if_pos hown
  · next hown =>
    simp only [bind_eq_ok, pure_eq_ok, deref_eq_ok] at h
    obtain ⟨vhost, hvhost, h⟩ := h
    refine ipv6_lease_grant hconfig ?_ h
    rw [Proc.ipv6_pool, hconfig, hvhost]
    exact if_neg hown

/-- What is known of a lease of a worker. -/
inductive Granted (db : LeaseDb) (id : Nat) (p : Proc) (l : IpLease) : Prop
  | ipv4 {pool : Ipv4Pool} {ip : BitVec 32} : Ipv4Grant db id p pool ip l → Granted db id p l
  | ipv6 {pool : Ipv6Pool} {ip : BitVec 128} : Ipv6Grant db id p pool ip l → Granted db id p l

namespace Granted

theorem lease_id (h : Granted db id p l) : l.id = id := by
  cases h with
  | ipv4 hl => exact hl.id
  | ipv6 hl => exact hl.id

theorem registered (h : Granted db id p l) : l.db = l.pool := by
  cases h with
  | ipv4 hl => exact hl.registered
  | ipv6 hl => exact hl.registered

/-- The lease has another key than those that were registered before. -/
theorem free (h : Granted db id p l) (hl' : l' ∈ db.toList) : l'.sig ≠ l.sig := by
  cases h with
  | ipv4 hl =>
    have hok := hl.ok
    rw [is_ipv4_ok, Bool.and_eq_true, Bool.not_eq_true'] at hok
    rw [hl.sig]
    exact LeaseDb.sig_ne hok.1 hl'
  | ipv6 hl =>
    have hok := hl.ok
    rw [is_ipv6_ok, Bool.and_eq_true, Bool.not_eq_true'] at hok
    rw [hl.sig]
    exact LeaseDb.sig_ne hok.2 hl'

/-- The lease depends on the settings of the worker only. -/
theorem of_config (h : Granted db id p l) (hconfig : p'.config = p.config)
    (hvhost : p'.vhost = p.vhost) : Granted db id p' l := by
  have hpool4 : p'.ipv4_pool = p.ipv4_pool := by rw [Proc.ipv4_pool, hconfig, hvhost]; rfl
  have hpool6 : p'.ipv6_pool = p.ipv6_pool := by rw [Proc.ipv6_pool, hconfig, hvhost]; rfl
  have hexplicit4 : p'.explicit_ipv4 = p.explicit_ipv4 := by
    rw [Proc.explicit_ipv4, hconfig]; rfl
  have hexplicit6 : p'.explicit_ipv6 = p.explicit_ipv6 := by
    rw [Proc.explicit_ipv6, hconfig]; rfl
  cases h with
  | ipv4 hl =>
    exact .ipv4 { hl with
      network := hpool4.trans hl.network
      source := hexplicit4.symm ▸ hl.source }
  | ipv6 hl =>
    exact .ipv6 { hl with
      network := hpool6.trans hl.network
      source := hexplicit6.symm ▸ hl.source }

end Granted

/-- A worker gets a new lease. -/
inductive Grant (db : LeaseDb) (id : Nat) (p : Proc) : IpLease → Proc → Prop
  | ipv4 {pool : Ipv4Pool} {ip : BitVec 32} {l : IpLease} : p.ipv4 = none →
      Ipv4Grant db id p pool ip l → Grant db id p l { p with ipv4 := some l }
  | ipv6 {pool : Ipv6Pool} {ip : BitVec 128} {l : IpLease} : p.ipv6 = none →
      Ipv6Grant db id p pool ip l → Grant db id p l { p with ipv6 := some l }

namespace Grant

theorem granted (h : Grant db id p l p') : Granted db id p l := by
  cases h with
  | ipv4 _ hl => exact .ipv4 hl
  | ipv6 _ hl => exact .ipv6 hl

theorem proc_id (h : Grant db id p l p') : p'.id = p.id := by
  cases h <;> rfl

theorem config (h : Grant db id p l p') : p'.config = p.config ∧ p'.vhost = p.vhost := by
  cases h <;> exact ⟨rfl, rfl⟩

theorem mem_leases (h : Grant db id p l p') : l' ∈ p'.leases ↔ l' = l ∨ l' ∈ p.leases := by
  cases h with
  | ipv4 hnone _ => simp [Proc.leases, hnone, eq_comm]
  | ipv6 hnone _ => simp [Proc.leases, hnone, eq_comm, or_comm]

end Grant

/-! ## The table of the leases -/

namespace Main

variable {m m' : Main}

theorem mem_register (m : Main) (l l' : IpLease) :
    l' ∈ (m.register l).ip_leases.toList ↔ l.db ∧ l' = l ∨ l' ∈ m.ip_leases.toList := by
  unfold register
  cases l.db with
  | false => simp
  | true =>
    simp only [if_true, true_and]
    exact m.ip_leases.wf.mem_toList_add

/-- The registered leases are different, and so are their addresses. -/
structure Registry (m : Main) : Prop where
  nodup : m.ip_leases.toList.Nodup
  ids : ∀ l ∈ m.ip_leases.toList, ∀ l' ∈ m.ip_leases.toList, l.id = l'.id → l = l'
  sigs : ∀ l ∈ m.ip_leases.toList, ∀ l' ∈ m.ip_leases.toList, l.sig = l'.sig → l = l'
  fresh : ∀ l ∈ m.ip_leases.toList, l.id < m.next

theorem Registry.congr (h : m.Registry) (hleases : m'.ip_leases = m.ip_leases)
    (hnext : m.next ≤ m'.next) : m'.Registry :=
  ⟨hleases ▸ h.nodup, hleases ▸ h.ids, hleases ▸ h.sigs,
    fun l hl => Nat.lt_of_lt_of_le (h.fresh l (hleases ▸ hl)) hnext⟩

theorem Registry.register (h : m.Registry) (hid : l.id = m.next)
    (hfree : l.db → ∀ l' ∈ m.ip_leases.toList, l'.sig ≠ l.sig) : (m.register l).Registry := by
  have hne : ∀ l' ∈ m.ip_leases.toList, l'.id ≠ l.id :=
    fun l' hl' => hid ▸ Nat.ne_of_lt (h.fresh l' hl')
  constructor
  · unfold Main.register
    cases hdb : l.db with
    | false => exact h.nodup
    | true =>
      simp only [if_true]
      have hperm : (m.ip_leases.add l).toList.Perm (l :: m.ip_leases.toList) :=
        m.ip_leases.wf.toList_add _ _
      rw [hperm.nodup_iff, List.nodup_cons]
      exact ⟨fun hin => hne l hin rfl, h.nodup⟩
  · intro a ha b hb hab
    rcases (m.mem_register l a).1 ha with ⟨-, hal⟩ | ha
    · rcases (m.mem_register l b).1 hb with ⟨-, hbl⟩ | hb
      · rw [hal, hbl]
      · exact absurd (hab.symm.trans (congrArg _ hal)) (hne b hb)
    · rcases (m.mem_register l b).1 hb with ⟨-, hbl⟩ | hb
      · exact absurd (hab.trans (congrArg _ hbl)) (hne a ha)
      · exact h.ids a ha b hb hab
  · intro a ha b hb hab
    rcases (m.mem_register l a).1 ha with ⟨hdb, hal⟩ | ha
    · rcases (m.mem_register l b).1 hb with ⟨-, hbl⟩ | hb
      · rw [hal, hbl]
      · exact absurd (hab.symm.trans (congrArg _ hal)) (hfree hdb b hb)
    · rcases (m.mem_register l b).1 hb with ⟨hdb, hbl⟩ | hb
      · exact absurd (hab.trans (congrArg _ hbl)) (hfree hdb a ha)
      · exact h.sigs a ha b hb hab
  · intro a ha
    rcases (m.mem_register l a).1 ha with ⟨-, rfl⟩ | ha
    · rw [hid]
      exact Nat.lt_succ_self _
    · exact Nat.lt_succ_of_lt (h.fresh a ha)

end Main

/-- Freeing leases that are registered, all of them in `T`, takes out these leases. -/
theorem LeaseDb.foldl_unref {T ls : List IpLease} (hT : ∀ l ∈ T, ∀ l' ∈ T, l.id = l'.id → l = l')
    (hls : ∀ l ∈ ls, l.db → l ∈ T) (hdb : ∀ l ∈ db.toList, l ∈ T)
    (hnodup : db.toList.Nodup) :
    (ls.foldl LeaseDb.unref_ip_lease db).toList.Nodup ∧
      ∀ l', l' ∈ (ls.foldl LeaseDb.unref_ip_lease db).toList ↔
        l' ∈ db.toList ∧ ∀ l ∈ ls, l.db → l' ≠ l := by
  induction ls generalizing db with
  | nil => exact ⟨hnodup, by simp⟩
  | cons l ls ih =>
    obtain ⟨hl, hls⟩ := List.forall_mem_cons.1 hls
    have hfirst : (db.unref_ip_lease l).toList.Nodup ∧
        ∀ l', l' ∈ (db.unref_ip_lease l).toList ↔
          l' ∈ db.toList ∧ (l.db → l' ≠ l) := by
      unfold LeaseDb.unref_ip_lease
      cases hflag : l.db with
      | false => simpa using hnodup
      | true =>
        simp only [if_true, forall_const]
        exact db.wf.mem_toList_del hnodup fun l' hl' => by
          rw [decide_eq_true_eq]
          exact ⟨fun hid => hT l' (hdb l' hl') l (hl hflag) hid, fun heq => heq ▸ rfl⟩
    obtain ⟨hnodup', hmem⟩ := ih hls (fun l' hl' => hdb l' ((hfirst.2 l').1 hl').1) hfirst.1
    refine ⟨hnodup', fun l' => ?_⟩
    rw [List.foldl_cons, hmem, hfirst.2, List.forall_mem_cons, and_assoc]

theorem Main.Registry.removed {m : Main} (h : m.Registry)
    (hp : ∀ l ∈ p.leases, l.db → l ∈ m.ip_leases.toList) :
    (m.remove_ip_leases p).Registry ∧
      ∀ l', l' ∈ (m.remove_ip_leases p).ip_leases.toList ↔
        l' ∈ m.ip_leases.toList ∧ ∀ l ∈ p.leases, l.db → l' ≠ l := by
  obtain ⟨hnodup, hmem⟩ := LeaseDb.foldl_unref h.ids hp (fun _ hl => hl) h.nodup
  have hsub : ∀ l ∈ (m.remove_ip_leases p).ip_leases.toList, l ∈ m.ip_leases.toList :=
    fun l hl => ((hmem l).1 hl).1
  refine ⟨⟨hnodup, ?_, ?_, ?_⟩, hmem⟩
  · exact fun l hl l' hl' => h.ids l (hsub l hl) l' (hsub l' hl')
  · exact fun l hl l' hl' => h.sigs l (hsub l hl) l' (hsub l' hl')
  · exact fun l hl => h.fresh l (hsub l hl)

/-! ## `get_ip_leases` -/

namespace Main

variable {m m' : Main} {ret : Int}

theorem lease_ipv4_spec (h : m.lease_ipv4 env p = .ok (m', p', ret)) :
    (m' = m ∧ p' = p) ∨
      ∃ l, Grant m.ip_leases m.next p l p' ∧ m' = m.register l ∧ p.ipv4 = none ∧
        p' = { p with ipv4 := some l } ∧ ret = 0 := by
  unfold lease_ipv4 at h
  split at h
  · cases h
    exact .inl ⟨rfl, rfl⟩
  · next hnone =>
    simp only [bind_eq_ok] at h
    obtain ⟨r, hr, h⟩ := h
    split at h
    · cases h
      exact .inl ⟨rfl, rfl⟩
    · cases h
      exact .inl ⟨rfl, rfl⟩
    · cases h
      obtain ⟨pool, ip, hl⟩ := get_ipv4_lease_grant hr
      have hnone : p.ipv4 = none := by simpa using hnone
      exact .inr ⟨_, .ipv4 hnone hl, rfl, hnone, rfl, rfl⟩

theorem lease_ipv6_spec (h : m.lease_ipv6 env p = .ok (m', p', ret)) :
    (m' = m ∧ p' = p) ∨
      ∃ l, Grant m.ip_leases m.next p l p' ∧ m' = m.register l ∧ p.ipv6 = none ∧
        p' = { p with ipv6 := some l } ∧ ret = 0 := by
  unfold lease_ipv6 at h
  split at h
  · cases h
    exact .inl ⟨rfl, rfl⟩
  · next hnone =>
    simp only [bind_eq_ok] at h
    obtain ⟨r, hr, h⟩ := h
    split at h
    · cases h
      exact .inl ⟨rfl, rfl⟩
    · cases h
      exact .inl ⟨rfl, rfl⟩
    · cases h
      obtain ⟨pool, ip, hl⟩ := get_ipv6_lease_grant hr
      have hnone : p.ipv6 = none := by simpa using hnone
      exact .inr ⟨_, .ipv6 hnone hl, rfl, hnone, rfl, rfl⟩

/-- The two halves of `get_ip_leases`; the second is reached if the first has not failed. -/
theorem get_ip_leases_halves (h : m.get_ip_leases env p = .ok (m', p', ret)) :
    ∃ m₁ p₁ ret₁, m.lease_ipv4 env p = .ok (m₁, p₁, ret₁) ∧
      ((ret₁ < 0 ∧ ret < 0 ∧ m' = m₁ ∧ p' = p₁) ∨
        ∃ ret₂, m₁.lease_ipv6 env p₁ = .ok (m', p', ret₂) ∧
          (ret₂ < 0 ∧ ret < 0 ∨ 0 ≤ ret₂ ∧
            (p'.leases = [] ∧ ret < 0 ∨ p'.leases ≠ [] ∧ ret = 0))) := by
  simp only [get_ip_leases, bind_eq_ok] at h
  obtain ⟨⟨m₁, p₁, ret₁⟩, h₁, h⟩ := h
  refine ⟨m₁, p₁, ret₁, h₁, ?_⟩
  dsimp only at h
  by_cases hneg : ret₁ < 0
  · rw [if_pos hneg] at h
    cases h
    exact .inl ⟨hneg, hneg, rfl, rfl⟩
  · rw [if_neg hneg] at h
    simp only [bind_eq_ok] at h
    obtain ⟨⟨m₂, p₂, ret₂⟩, h₂, h⟩ := h
    dsimp only at h
    by_cases hneg₂ : ret₂ < 0
    · rw [if_pos hneg₂] at h
      cases h
      exact .inr ⟨_, h₂, .inl ⟨hneg₂, hneg₂⟩⟩
    · rw [if_neg hneg₂] at h
      by_cases hnil : p₂.leases = []
      · rw [if_pos hnil] at h
        cases h
        exact .inr ⟨_, h₂, .inr ⟨Int.not_lt.1 hneg₂, .inl ⟨hnil, by decide⟩⟩⟩
      · rw [if_neg hnil] at h
        cases h
        exact .inr ⟨_, h₂, .inr ⟨Int.not_lt.1 hneg₂, .inr ⟨hnil, rfl⟩⟩⟩

/-- What every grant keeps is kept by `get_ip_leases`. -/
theorem get_ip_leases_rule (Inv : Main → Proc → Prop)
    (hgrant : ∀ {m p l p'}, Inv m p → Grant m.ip_leases m.next p l p' → Inv (m.register l) p')
    (hstart : Inv m p) (h : m.get_ip_leases env p = .ok (m', p', ret)) : Inv m' p' := by
  have halves : ∀ {m₁ p₁ m₂ p₂}, Inv m₁ p₁ → ((m₂ = m₁ ∧ p₂ = p₁) ∨
      ∃ l, Grant m₁.ip_leases m₁.next p₁ l p₂ ∧ m₂ = m₁.register l) → Inv m₂ p₂ := by
    intro m₁ p₁ m₂ p₂ hinv hspec
    rcases hspec with ⟨rfl, rfl⟩ | ⟨l, hl, rfl⟩
    · exact hinv
    · exact hgrant hinv hl
  obtain ⟨m₁, p₁, ret₁, h₁, h₂⟩ := get_ip_leases_halves h
  have hinv₁ : Inv m₁ p₁ :=
    halves hstart ((lease_ipv4_spec h₁).imp_right fun ⟨l, hl, hm, _⟩ => ⟨l, hl, hm⟩)
  rcases h₂ with ⟨-, -, rfl, rfl⟩ | ⟨ret₂, h₂, -⟩
  · exact hinv₁
  · exact halves hinv₁ ((lease_ipv6_spec h₂).imp_right fun ⟨l, hl, hm, _⟩ => ⟨l, hl, hm⟩)

/-- The leases that a worker has after `get_ip_leases` are those it had and new ones, which
were free. -/
theorem get_ip_leases_leases (h : m.get_ip_leases env p = .ok (m', p', ret)) :
    p'.id = p.id ∧ m'.procs = m.procs ∧ p'.config = p.config ∧ p'.vhost = p.vhost ∧
      ∀ l ∈ p'.leases, l ∈ p.leases ∨
        ∃ db id, (∀ l' ∈ m.ip_leases.toList, l' ∈ db.toList) ∧ Granted db id p l := by
  have hinv := get_ip_leases_rule (p := p) (m := m)
    (fun m₁ p₁ => (∀ l' ∈ m.ip_leases.toList, l' ∈ m₁.ip_leases.toList) ∧ p₁.id = p.id ∧
      m₁.procs = m.procs ∧ p₁.config = p.config ∧ p₁.vhost = p.vhost ∧
      ∀ l ∈ p₁.leases, l ∈ p.leases ∨
        ∃ db id, (∀ l' ∈ m.ip_leases.toList, l' ∈ db.toList) ∧ Granted db id p l)
    ?_ ⟨fun _ hl => hl, rfl, rfl, rfl, rfl, fun _ hl => .inl hl⟩ h
  · exact hinv.2
  · intro m₁ p₁ l p₂ ⟨htable, hid, hprocs, hconfig, hvhost, hleases⟩ hg
    refine ⟨fun l' hl' => (m₁.mem_register l l').2 (.inr (htable l' hl')), hg.proc_id.trans hid,
      hprocs, hg.config.1.trans hconfig, hg.config.2.trans hvhost, fun l' hl' => ?_⟩
    rcases hg.mem_leases.1 hl' with rfl | hl'
    · exact .inr ⟨_, _, htable, hg.granted.of_config hconfig.symm hvhost.symm⟩
    · exact hleases l' hl'

/-- What a worker gets from a pool is registered, beside what has been registered before. -/
theorem get_ip_leases_registry (hregistry : m.Registry)
    (hregistered : ∀ l ∈ p.leases, l.db → l ∈ m.ip_leases.toList)
    (h : m.get_ip_leases env p = .ok (m', p', ret)) :
    m'.Registry ∧ (∀ l ∈ m.ip_leases.toList, l ∈ m'.ip_leases.toList) ∧
      ∀ l ∈ p'.leases, l.db → l ∈ m'.ip_leases.toList := by
  refine get_ip_leases_rule (p := p) (m := m) (fun m₁ p₁ => m₁.Registry ∧
    (∀ l ∈ m.ip_leases.toList, l ∈ m₁.ip_leases.toList) ∧
    ∀ l ∈ p₁.leases, l.db → l ∈ m₁.ip_leases.toList) ?_ ⟨hregistry, fun _ hl => hl, hregistered⟩ h
  intro m₁ p₁ l p₂ ⟨hregistry, htable, hregistered⟩ hg
  refine ⟨hregistry.register hg.granted.lease_id fun _ l' hl' => hg.granted.free hl',
    fun l' hl' => (m₁.mem_register l l').2 (.inr (htable l' hl')), fun l' hl' hdb => ?_⟩
  rcases hg.mem_leases.1 hl' with rfl | hl'
  · exact (m₁.mem_register l' l').2 (.inl ⟨hdb, rfl⟩)
  · exact (m₁.mem_register l l').2 (.inr (hregistered l' hl' hdb))

end Main
end Grants
end Ocserv

import Ocserv.Lib.Runs
import Ocserv.Main.Grant
import Ocserv.Proofs.System

/-!
# The table of the leases over a run

Workers come, get their addresses and go.  A lease from a pool is in the table as long as
its worker is there, and the table holds nothing else.  Explicit addresses are handed out
without being registered.

`get_ip_leases` does not undo the first half of its work when the second half fails: the
IPv4 lease it has obtained stays registered, and with the worker, until the worker goes.
-/

namespace Ocserv

open HTable List Option Outcome Runs

section Leases

variable [Platform]

/-! ## Runs -/

/-- What happens to the leases. -/
inductive LeaseEvent
  /-- a worker appears, with any settings and without addresses -/
  | join (p : Proc)
  /-- a worker asks for its addresses -/
  | get (w : Nat) (env : MainEnv)
  /-- a worker goes -/
  | remove (w : Nat)

/-- The state after an event; none, if the event cannot happen or main does not survive it. -/
def Main.lease_step (m : Main) : LeaseEvent → Option Main
  | .join p =>
    if p.leases = [] ∧ ∀ q ∈ m.procs, q.id ≠ p.id then some { m with procs := p :: m.procs }
    else none
  | .get w env =>
    (m.find_proc w).bind fun p =>
      (m.get_ip_leases env p).toOption.map fun r => r.1.store r.2.1
  | .remove w =>
    (m.find_proc w).map fun p =>
      { m.remove_ip_leases p with procs := m.procs.filter fun q => q.id ≠ w }

/-- There are no workers yet, and no leases. -/
def Main.Unleased (m : Main) : Prop := m.procs = [] ∧ m.ip_leases = LeaseDb.empty

/-- The event takes the state `m` to `m'`. -/
def LeaseStep (m : Main) (ev : LeaseEvent) (m' : Main) : Prop := m.lease_step ev = some m'

variable {m m' : Main} {ev : LeaseEvent} {p p' : Proc} {l : IpLease} {env : MainEnv} {ret : Int}

theorem LeaseStep.cases (h : LeaseStep m ev m') :
    (∃ p, ev = .join p ∧ p.leases = [] ∧ (∀ q ∈ m.procs, q.id ≠ p.id) ∧
      m' = { m with procs := p :: m.procs }) ∨
    (∃ w env p m₁ p₁ ret, ev = .get w env ∧ m.find_proc w = some p ∧
      m.get_ip_leases env p = .ok (m₁, p₁, ret) ∧ m' = m₁.store p₁) ∨
    (∃ w p, ev = .remove w ∧ m.find_proc w = some p ∧
      m' = { m.remove_ip_leases p with procs := m.procs.filter fun q => q.id ≠ w }) := by
  cases ev with
  | join p =>
    simp only [LeaseStep, Main.lease_step, ite_none_right_eq_some, some.injEq] at h
    obtain ⟨⟨hleases, hnew⟩, hm'⟩ := h
    exact .inl ⟨p, rfl, hleases, hnew, hm'.symm⟩
  | get w env =>
    simp only [LeaseStep, Main.lease_step, bind_eq_some_iff, map_eq_some_iff] at h
    obtain ⟨p, hfind, ⟨m₁, p₁, ret⟩, hget, hm'⟩ := h
    cases hrun : m.get_ip_leases env p with
    | error f => simp [hrun, Except.toOption] at hget
    | ok r =>
      simp only [hrun, Except.toOption, some.injEq] at hget
      exact .inr (.inl ⟨w, env, p, m₁, p₁, ret, rfl, hfind, hget ▸ hrun, hm'.symm⟩)
  | remove w =>
    simp only [LeaseStep, Main.lease_step, map_eq_some_iff] at h
    obtain ⟨p, hfind, hm'⟩ := h
    exact .inr (.inr ⟨w, p, rfl, hfind, hm'.symm⟩)

/-! ## Leases of different workers -/

/-- The leases of different workers are in the relation `R`. -/
def Main.Between (R : IpLease → IpLease → Prop) (m : Main) : Prop :=
  ∀ p ∈ m.procs, ∀ q ∈ m.procs, p.id ≠ q.id → ∀ l ∈ p.leases, ∀ l' ∈ q.leases, R l l'

/-- Only a new lease has to be compared with those of the other workers. -/
theorem Main.Between.step {R : IpLease → IpLease → Prop} (hsymm : ∀ l l', R l l' → R l' l)
    (h : m.Between R) (hstep : LeaseStep m ev m')
    (hnew : ∀ w env p, ev = .get w env → m.find_proc w = some p → ∀ db id l,
      (∀ l' ∈ m.ip_leases.toList, l' ∈ db.toList) → Granted db id p l →
      ∀ q ∈ m.procs, q.id ≠ w → ∀ l' ∈ q.leases, R l l') : m'.Between R := by
  rcases hstep.cases with ⟨p, -, hleases, -, rfl⟩ |
    ⟨w, env, p, m₁, p₁, ret, hev, hfind, hget, rfl⟩ | ⟨w, p, -, -, rfl⟩
  · intro q hq r hr hne l hl l' hl'
    rcases mem_cons.1 hq with rfl | hq
    · simp [hleases] at hl
    · rcases mem_cons.1 hr with rfl | hr
      · simp [hleases] at hl'
      · exact h q hq r hr hne l hl l' hl'
  · obtain ⟨hp, rfl⟩ := Main.find_proc_eq_some hfind
    obtain ⟨hid, hprocs, -, -, hleases⟩ := Main.get_ip_leases_leases hget
    have hothers : ∀ l ∈ p₁.leases, ∀ q ∈ m.procs, q.id ≠ p.id → ∀ l' ∈ q.leases, R l l' := by
      intro l hl q hq hne l' hl'
      rcases hleases l hl with hold | ⟨db, id, htable, hgranted⟩
      · exact h p hp q hq hne.symm l hold l' hl'
      · exact hnew _ env p hev hfind db id l htable hgranted q hq hne l' hl'
    intro q hq r hr hne l hl l' hl'
    rcases Main.mem_store.1 hq with ⟨rfl, -⟩ | ⟨hq', hneq⟩
    · rcases Main.mem_store.1 hr with ⟨rfl, -⟩ | ⟨hr', hner⟩
      · exact absurd rfl hne
      · exact hothers l hl r (hprocs ▸ hr') (hid ▸ hner) l' hl'
    · rcases Main.mem_store.1 hr with ⟨rfl, -⟩ | ⟨hr', -⟩
      · exact hsymm _ _ (hothers l' hl' q (hprocs ▸ hq') (hid ▸ hneq) l hl)
      · exact h q (hprocs ▸ hq') r (hprocs ▸ hr') hne l hl l' hl'
  · intro q hq r hr
    exact h q (mem_filter.1 hq).1 r (mem_filter.1 hr).1

theorem Main.Unleased.between (h : m.Unleased) (R : IpLease → IpLease → Prop) : m.Between R := by
  intro p hp
  simp [h.1] at hp

/-! ## The invariant -/

/-- The table holds the leases from pools of the workers there are. -/
structure Main.Stocked (m : Main) : Prop extends m.Registry where
  procs : (m.procs.map Proc.id).Nodup
  granted : ∀ p ∈ m.procs, ∀ l ∈ p.leases, ∃ db id, Granted db id p l
  registered : ∀ p ∈ m.procs, ∀ l ∈ p.leases, l.db → l ∈ m.ip_leases.toList
  owned : ∀ l ∈ m.ip_leases.toList, ∃ p ∈ m.procs, l ∈ p.leases ∧ l.db

/-- The leases in the table have one owner each. -/
structure Main.Leased (m : Main) : Prop extends m.Stocked where
  owner : m.Between fun l l' => l = l' → l.db = false

theorem Main.Unleased.leased (h : m.Unleased) : m.Leased := by
  have hleases : m.ip_leases.toList = [] := by rw [h.2]; rfl
  refine ⟨⟨?_, ?_, ?_, ?_, ?_⟩, h.between _⟩
  · constructor <;> simp [hleases]
  all_goals simp [h.1, hleases]

namespace Main.Stocked

theorem join (h : m.Stocked) (hleases : p.leases = []) (hnew : ∀ q ∈ m.procs, q.id ≠ p.id) :
    { m with procs := p :: m.procs }.Stocked := by
  have hnone : ∀ l, l ∉ p.leases := by simp [hleases]
  refine ⟨⟨h.nodup, h.ids, h.sigs, h.fresh⟩, ?_, ?_, ?_, ?_⟩
  · refine nodup_cons.2 ⟨?_, h.procs⟩
    simpa using hnew
  · exact forall_mem_cons.2 ⟨fun l hl => absurd hl (hnone l), h.granted⟩
  · exact forall_mem_cons.2 ⟨fun l hl => absurd hl (hnone l), h.registered⟩
  · intro l hl
    obtain ⟨q, hq, hlq⟩ := h.owned l hl
    exact ⟨q, mem_cons_of_mem _ hq, hlq⟩

theorem grant (h : m.Stocked) (hp : p ∈ m.procs) (hg : Grant m.ip_leases m.next p l p') :
    ((m.register l).store p').Stocked := by
  have hid := hg.proc_id
  have hmem : ∀ q ∈ ((m.register l).store p').procs, q = p' ∨ q ∈ m.procs ∧ q.id ≠ p'.id := by
    intro q hq
    rcases Main.mem_store.1 hq with ⟨rfl, -⟩ | hq
    · exact .inl rfl
    · exact .inr hq
  have hmem' : p' ∈ ((m.register l).store p').procs :=
    Main.mem_store.2 (.inl ⟨rfl, hid ▸ mem_map_of_mem hp⟩)
  have hregistry := h.toRegistry.register hg.granted.lease_id fun _ l' hl' => hg.granted.free hl'
  refine ⟨⟨hregistry.nodup, hregistry.ids, hregistry.sigs, hregistry.fresh⟩, ?_, ?_, ?_, ?_⟩
  · rw [Main.ids_store]
    exact h.procs
  · intro q hq l' hl'
    rcases hmem q hq with rfl | ⟨hq, -⟩
    · rcases hg.mem_leases.1 hl' with rfl | hl'
      · exact ⟨_, _, hg.granted.of_config hg.config.1 hg.config.2⟩
      · obtain ⟨db, id, hgranted⟩ := h.granted p hp l' hl'
        exact ⟨db, id, hgranted.of_config hg.config.1 hg.config.2⟩
    · exact h.granted q hq l' hl'
  · intro q hq l' hl' hdb
    refine (m.mem_register l l').2 ?_
    rcases hmem q hq with rfl | ⟨hq, -⟩
    · rcases hg.mem_leases.1 hl' with rfl | hl'
      · exact .inl ⟨hdb, rfl⟩
      · exact .inr (h.registered p hp l' hl' hdb)
    · exact .inr (h.registered q hq l' hl' hdb)
  · intro l' hl'
    rcases (m.mem_register l l').1 hl' with ⟨hdb, rfl⟩ | hl'
    · exact ⟨p', hmem', hg.mem_leases.2 (.inl rfl), hdb⟩
    · obtain ⟨q, hq, hlq, hdb⟩ := h.owned l' hl'
      by_cases hqp : q.id = p.id
      · obtain rfl := inj_on_of_nodup_map h.procs hq hp hqp
        exact ⟨p', hmem', hg.mem_leases.2 (.inr hlq), hdb⟩
      · exact ⟨q, Main.mem_store.2 (.inr ⟨hq, hid ▸ hqp⟩), hlq, hdb⟩

theorem get (h : m.Stocked) (hp : p ∈ m.procs)
    (hget : m.get_ip_leases env p = .ok (m', p', ret)) : (m'.store p').Stocked := by
  have hinv := Main.get_ip_leases_rule
    (fun m₁ p₁ => p₁.id ∈ m₁.procs.map Proc.id ∧ (m₁.store p₁).Stocked) ?_
    ⟨mem_map_of_mem hp, by rwa [Main.store_self h.procs hp]⟩ hget
  · exact hinv.2
  · intro m₁ p₁ l p₂ ⟨hmem, hleased⟩ hg
    refine ⟨hg.proc_id ▸ hmem, ?_⟩
    have hgrant := hleased.grant (Main.mem_store.2 (.inl ⟨rfl, hmem⟩)) hg
    have hstore : ((m₁.store p₁).register l).store p₂ = (m₁.register l).store p₂ :=
      Main.store_store (m := m₁.register l) hg.proc_id
    rwa [hstore] at hgrant

end Main.Stocked

namespace Main.Leased

theorem remove (h : m.Leased) (hp : p ∈ m.procs) :
    { m.remove_ip_leases p with procs := m.procs.filter fun q => q.id ≠ p.id }.Stocked := by
  obtain ⟨hregistry, hmem⟩ := h.toRegistry.removed (h.registered p hp)
  have hprocs : ∀ q ∈ m.procs.filter (fun q => q.id ≠ p.id), q ∈ m.procs ∧ q.id ≠ p.id := by
    simp
  refine ⟨⟨hregistry.nodup, hregistry.ids, hregistry.sigs, hregistry.fresh⟩, ?_, ?_, ?_, ?_⟩
  · exact h.procs.sublist (filter_sublist.map _)
  · exact fun q hq => h.granted q (hprocs q hq).1
  · intro q hq l hl hdb
    obtain ⟨hq, hne⟩ := hprocs q hq
    refine (hmem l).2 ⟨h.registered q hq l hl hdb, fun l' hl' _ heq => ?_⟩
    exact absurd hdb (by simp [h.owner q hq p hp hne l hl l' hl' heq])
  · intro l hl
    obtain ⟨hl, hne⟩ := (hmem l).1 hl
    obtain ⟨q, hq, hlq, hdb⟩ := h.owned l hl
    have hid : q.id ≠ p.id := by
      intro hid
      obtain rfl := inj_on_of_nodup_map h.procs hq hp hid
      exact hne l hlq hdb rfl
    exact ⟨q, mem_filter.2 ⟨hq, decide_eq_true hid⟩, hlq, hdb⟩

theorem step (h : m.Leased) (hstep : LeaseStep m ev m') : m'.Leased := by
  constructor
  · rcases hstep.cases with ⟨p, -, hleases, hnew, rfl⟩ |
      ⟨w, env, p, m₁, p₁, ret, -, hfind, hget, rfl⟩ | ⟨w, p, -, hfind, rfl⟩
    · exact h.join hleases hnew
    · exact h.get (Main.find_proc_eq_some hfind).1 hget
    · obtain ⟨hp, rfl⟩ := Main.find_proc_eq_some hfind
      exact h.remove hp
  · -- a new lease is none of the registered ones
    refine h.owner.step (fun _ _ hne heq => heq ▸ hne heq.symm) hstep ?_
    rintro w env p - - db id l htable hgranted q hq - l' hl' rfl
    refine Bool.eq_false_iff.2 fun hdb => ?_
    exact hgranted.free (htable l (h.registered q hq l hl' hdb)) rfl

theorem reachable (h : Reachable Main.Unleased LeaseStep m) : m.Leased :=
  h.invariant (fun _ hinit => hinit.leased) fun _ _ _ hleased hstep => hleased.step hstep

/-- No two registered leases have the same key. -/
theorem sigs_nodup (h : m.Leased) : (m.ip_leases.toList.map IpLease.sig).Nodup :=
  h.nodup.map_on h.sigs

end Main.Leased

/-! ## What `get_ip_leases` registers -/

/-- An IPv4 lease from a pool has an address of the network that is not reserved. -/
theorem Granted.ipv4_address {db : LeaseDb} {id : Nat} {ip : BitVec 32} (h : Granted db id p l)
    (hpool : l.pool) (hrip : l.rip = .v4 ip) :
    ∃ pool, p.ipv4_pool = some pool ∧ ip &&& pool.mask = pool.network ∧ l.lip ≠ l.rip ∧
      l.sig = .v4 ip ∧
      (is_ipv4_p2p_mask pool.mask = false →
        ip ≠ pool.network ∧ ip ≠ pool.network ||| ~~~pool.mask) := by
  cases h with
  | @ipv4 pool a hl =>
    obtain rfl : a = ip := by simpa [hl.rip] using hrip
    have hsource : a &&& pool.mask = pool.network := by
      rcases hl.source with ⟨-, -, hin⟩ | ⟨hexplicit, -⟩
      · exact hin
      · simp [hexplicit] at hpool
    have hlip : l.lip ≠ l.rip := by
      rw [hl.lip, hl.rip]
      simpa using hl.lip_ne
    refine ⟨pool, hl.network, hsource, hlip, hl.sig, fun hp2p => ?_⟩
    simpa [is_ipv4_ok, hp2p] using (Bool.and_eq_true_iff.1 hl.ok).2
  | ipv6 hl => simp [hl.rip] at hrip

theorem Main.get_ip_leases_nonempty (hget : m.get_ip_leases env p = .ok (m', p', ret))
    (hret : 0 ≤ ret) : p'.leases ≠ [] := by
  obtain ⟨m₁, p₁, ret₁, -, ⟨-, hneg, -⟩ | ⟨ret₂, -, ⟨-, hneg⟩ | ⟨-, ⟨-, hneg⟩ | ⟨hne, -⟩⟩⟩⟩ :=
    Main.get_ip_leases_halves hget
  · omega
  · omega
  · omega
  · exact hne

/-- If `get_ip_leases` fails, it may have registered an IPv4 lease, which the worker keeps. -/
theorem Main.get_ip_leases_failed (hget : m.get_ip_leases env p = .ok (m', p', ret))
    (hret : ret < 0) :
    p'.ipv6 = p.ipv6 ∧ ∀ l, l ∈ m'.ip_leases.toList ↔
      l ∈ m.ip_leases.toList ∨ (p.ipv4 = none ∧ p'.ipv4 = some l ∧ l.db) := by
  obtain ⟨m₁, p₁, ret₁, h₁, h₂⟩ := Main.get_ip_leases_halves hget
  -- the second half changes nothing
  obtain ⟨rfl, rfl⟩ : m' = m₁ ∧ p' = p₁ := by
    rcases h₂ with ⟨-, -, hm, hp⟩ | ⟨ret₂, h₂, hcases⟩
    · exact ⟨hm, hp⟩
    · rcases Main.lease_ipv6_spec h₂ with hsame | ⟨l, hg, -, -, -, hret₂⟩
      · exact hsame
      · rcases hcases with ⟨hneg, -⟩ | ⟨-, ⟨hnil, -⟩ | ⟨-, hzero⟩⟩
        · omega
        · exact absurd (hg.mem_leases.2 (.inl rfl)) (hnil ▸ not_mem_nil)
        · omega
  rcases Main.lease_ipv4_spec h₁ with ⟨rfl, rfl⟩ | ⟨l, -, rfl, hnone, rfl, -⟩
  · refine ⟨rfl, fun l => ⟨.inl, ?_⟩⟩
    rintro (hl | ⟨hnone, hsome, -⟩)
    · exact hl
    · simp [hnone] at hsome
  · refine ⟨rfl, fun l' => ?_⟩
    rw [Main.mem_register, or_comm]
    refine or_congr_right ⟨?_, ?_⟩
    · rintro ⟨hdb, rfl⟩
      exact ⟨hnone, rfl, hdb⟩
    · rintro ⟨-, hsome, hdb⟩
      cases hsome
      exact ⟨hdb, rfl⟩

/-- In every run the table holds leases with different keys, each of a worker that is there.
The IPv4 leases from pools have addresses of the network of their worker that are not
reserved and not registered for another lease.  `get_ip_leases` registers the leases from
pools that it returns; if it fails it has registered at most an IPv4 lease, which the worker
has then. -/
theorem lease_table_sound (hreach : Reachable Main.Unleased LeaseStep m) :
    (∀ l ∈ m.ip_leases.toList, ∃ p ∈ m.procs, l ∈ p.leases) ∧
    (m.ip_leases.toList.map IpLease.sig).Nodup ∧
    (∀ p ∈ m.procs, ∀ l ∈ p.leases, l.pool = true → ∀ ip, l.rip = .v4 ip →
      ∃ pool, p.ipv4_pool = some pool ∧ ip &&& pool.mask = pool.network ∧ l.lip ≠ .v4 ip ∧
        (pool.mask ≠ 0xfffffffe → ip ≠ pool.network ∧ ip ≠ pool.network ||| ~~~pool.mask) ∧
        ∀ l' ∈ m.ip_leases.toList, l' ≠ l → l'.sig ≠ .v4 ip) ∧
    ∀ p ∈ m.procs, ∀ env m' p' ret, m.get_ip_leases env p = .ok (m', p', ret) →
      (0 ≤ ret → p'.leases ≠ [] ∧ ∀ l ∈ p'.leases, l.pool = true → l ∈ m'.ip_leases.toList) ∧
      (ret < 0 → p'.ipv6 = p.ipv6 ∧ ∀ l, l ∈ m'.ip_leases.toList ↔
        l ∈ m.ip_leases.toList ∨ (p.ipv4 = none ∧ p'.ipv4 = some l ∧ l.db = true)) := by
  have hleased := Main.Leased.reachable hreach
  refine ⟨fun l hl => ?_, hleased.sigs_nodup, ?_, ?_⟩
  · obtain ⟨p, hp, hlp, -⟩ := hleased.owned l hl
    exact ⟨p, hp, hlp⟩
  · intro p hp l hl hpool ip hrip
    obtain ⟨db, id, hgranted⟩ := hleased.granted p hp l hl
    obtain ⟨pool, hnetwork, hin, hlip, hsig, hreserved⟩ := hgranted.ipv4_address hpool hrip
    have hmem : l ∈ m.ip_leases.toList :=
      hleased.registered p hp l hl (hgranted.registered.trans hpool)
    refine ⟨pool, hnetwork, hin, hrip ▸ hlip, fun hmask => hreserved ?_, fun l' hl' hne heq => ?_⟩
    · simpa [is_ipv4_p2p_mask] using hmask
    · exact hne (hleased.sigs l' hl' l hmem (heq.trans hsig.symm))
  · intro p hp env m' p' ret hget
    refine ⟨fun hret => ⟨Main.get_ip_leases_nonempty hget hret, fun l hl hpool => ?_⟩,
      fun hret => Main.get_ip_leases_failed hget hret⟩
    have hleased' := hleased.get hp hget
    have hmem : p' ∈ (m'.store p').procs := by
      obtain ⟨hid, hprocs, -⟩ := Main.get_ip_leases_leases hget
      exact Main.mem_store.2 (.inl ⟨rfl, hid ▸ hprocs ▸ mem_map_of_mem hp⟩)
    obtain ⟨db, id, hgranted⟩ := hleased'.granted p' hmem l hl
    exact hleased'.registered p' hmem l hl (hgranted.registered.trans hpool)

end Leases

/-! ## Two runs -/

/-- A worker with the given settings. -/
def Sample.worker (id : Nat) (network : NetworkCfg) (config : GroupCfg) : Proc where
  id := id
  pid := 1
  remote_addr := SockBuf.zero
  our_addr := SockBuf.zero
  config := some config
  vhost := some { config.network := network }

section Example

local instance leasesPlatform : Platform := Platform.simple

private def net : NetworkCfg :=
  { ipv4 := some "10.0.0.0".toList, ipv4_netmask := some "255.255.255.0".toList }

private def noLeases : Main := { vconfig := Sample.vconfig {} }

private def leasedTwice : List LeaseEvent :=
  [.join (Sample.worker 1 net {}), .join (Sample.worker 2 net {}), .get 1 Sample.env,
    .get 2 Sample.env]

/-- Two workers with one seed get different addresses. -/
theorem lease_table_sound_two : ∃ P : Platform, ∃ m : @Main P,
    (m.ip_leases.toList.map IpLease.sig).Nodup ∧ m.ip_leases.toList.length = 2 := by
  have hunleased : noLeases.Unleased := ⟨rfl, rfl⟩
  obtain ⟨m, hreach, hlen⟩ := exists_reachable_of_exec (f := Main.lease_step)
    (P := fun m => m.ip_leases.toList.length = 2) leasedTwice hunleased
    (by decide +kernel)
  exact ⟨leasesPlatform, m, (lease_table_sound hreach).2.1, hlen⟩

/-- The network has room for one subnet, which is that of the server. -/
private def fullNet : NetworkCfg :=
  { net with ipv6 := some "2001:db8::".toList, ipv6_prefix_len := 64, ipv6_subnet_prefix_len := 64 }

/-- No subnet is left for the worker: `get_ip_leases` fails, and has registered an IPv4
address. -/
theorem lease_kept_on_failure : ∃ P : Platform, ∃ (m : @Main P) (env : MainEnv) (p : Proc)
    (m' : @Main P) (p' : Proc) (ret : Int), Reachable Main.Unleased LeaseStep m ∧ p ∈ m.procs ∧
      m.get_ip_leases env p = .ok (m', p', ret) ∧ ret < 0 ∧
      m'.ip_leases.toList ≠ m.ip_leases.toList := by
  have hjoin : LeaseStep noLeases (.join (Sample.worker 1 fullNet {}))
      { noLeases with procs := [Sample.worker 1 fullNet {}] } := rfl
  have hany : (Main.get_ip_leases Sample.env
      { noLeases with procs := [Sample.worker 1 fullNet {}] }
      (Sample.worker 1 fullNet {})).toOption.any
        (fun r => r.2.2 < 0 ∧ r.1.ip_leases.toList ≠ []) := by
    decide +kernel
  cases hget : Main.get_ip_leases Sample.env
      { noLeases with procs := [Sample.worker 1 fullNet {}] } (Sample.worker 1 fullNet {}) with
  | error f => simp [hget, Except.toOption] at hany
  | ok r =>
    obtain ⟨m', p', ret⟩ := r
    have hfail : ret < 0 ∧ m'.ip_leases.toList ≠ [] := by
      simpa [hget, Except.toOption] using hany
    exact ⟨leasesPlatform, _, _, _, m', p', ret, ⟨_, (Run.start ⟨rfl, rfl⟩).snoc hjoin⟩,
      mem_singleton.2 rfl, hget, hfail.1, hfail.2⟩

end Example
end Ocserv

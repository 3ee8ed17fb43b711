import Ocserv.Proofs.Leases

/-!
# Workers with the same address

The table of the leases knows the keys of the leases from pools, and nothing else.  This
leaves three ways in which two workers can have an address in common:

* an explicit address is not registered, so that a later worker may get it again;
* a session that is taken over takes its leases with it, and the previous worker keeps copies that
  are not registered: a session that is taken over from that worker again gets the copies;
* a key is compared for equality with the other ones, although subnets of different sizes
  have different keys and may still overlap.

The two theorems are about the runs in which this is excluded.
-/

namespace Ocserv

open HTable Outcome Runs

section Collisions

variable [Platform]

variable {m m' : Main} {ev : LeaseEvent} {p q : Proc} {l l' : IpLease} {db db' : LeaseDb}
  {id id' : Nat}

/-! ## Explicit addresses -/

/-- The leases are of one IPv4 address, or of one IPv6 subnet. -/
def IpLease.Collides (l l' : IpLease) : Prop :=
  match l.rip, l'.rip with
  | .v4 a, .v4 b => a = b
  | .v6 a, .v6 b => l.prefix_len = l'.prefix_len ∧ a ∈ Subnet.range b l.prefix_len
  | _, _ => False

instance (l l' : IpLease) : Decidable (l.Collides l') := by
  unfold IpLease.Collides
  split <;> infer_instance

/-- The settings of the worker allow a lease with this key. -/
def Proc.Eligible (p : Proc) : Addr → Prop
  | .v4 a =>
    ∃ pool ∈ p.ipv4_pool,
      match p.explicit_ipv4 with
      | some ip => a = ip
      | none => a &&& pool.mask = pool.network
  | .v6 a =>
    ∃ pool ∈ p.ipv6_pool,
      match p.explicit_ipv6 with
      | some ip => a = ip &&& Subnet.mask 128 pool.subnet_prefix_len
      | none => a &&& Subnet.mask 128 pool.prefix_len =
          pool.network &&& Subnet.mask 128 pool.subnet_prefix_len

instance (p : Proc) (sig : Addr) : Decidable (p.Eligible sig) := by
  unfold Proc.Eligible
  split <;> (split <;> infer_instance)

theorem Granted.eligible (h : Granted db id p l) : p.Eligible l.sig := by
  cases h with
  | @ipv4 pool ip hl =>
    rw [hl.sig]
    refine ⟨pool, hl.network, ?_⟩
    rcases hl.source with ⟨-, hexplicit, hin⟩ | ⟨-, hexplicit⟩
    · rw [hexplicit]
      exact hin
    · rw [hexplicit]
  | @ipv6 pool ip hl =>
    rw [hl.sig]
    refine ⟨pool, hl.network, ?_⟩
    rcases hl.source with ⟨-, hexplicit, hin⟩ | ⟨-, hexplicit⟩
    · rw [hexplicit]
      calc ip &&& Subnet.mask 128 pool.subnet_prefix_len &&& Subnet.mask 128 pool.prefix_len
          = ip &&& Subnet.mask 128 pool.prefix_len &&& Subnet.mask 128 pool.subnet_prefix_len := by
            rw [BitVec.and_assoc, BitVec.and_comm (Subnet.mask 128 pool.subnet_prefix_len),
              ← BitVec.and_assoc]
        _ = pool.network &&& Subnet.mask 128 pool.subnet_prefix_len := by rw [hin]
    · rw [hexplicit]

/-- Leases that collide have the same key. -/
theorem Granted.sig_eq (h : Granted db id p l) (h' : Granted db' id' q l')
    (hcollides : l.Collides l') : l.sig = l'.sig := by
  unfold IpLease.Collides at hcollides
  cases h with
  | ipv4 hl =>
    cases h' with
    | ipv4 hl' =>
      simp only [hl.rip, hl'.rip] at hcollides
      rw [hl.sig, hl'.sig, hcollides]
    | ipv6 hl' => simp [hl.rip, hl'.rip] at hcollides
  | ipv6 hl =>
    cases h' with
    | ipv4 hl' => simp [hl.rip, hl'.rip] at hcollides
    | ipv6 hl' =>
      simp only [hl.rip, hl'.rip, hl.prefix_len, hl'.prefix_len] at hcollides
      obtain ⟨hlen, hmem⟩ := hcollides
      rw [hl.sig, hl'.sig, ← hlen, Subnet.mem_range.1 hmem]

/-! ## Starts and ends of sessions -/

/-- Main, and the workers from which the session has been taken over. -/
structure Sessions where
  main : Main
  robbed : List Nat := []

/-- What happens to the sessions: a worker joins, gets its addresses or goes, or it presents the
cookie of the session of the worker `old`. -/
inductive SessionEvent
  | lease (ev : LeaseEvent)
  | reuse (w old : Nat)

/-- The worker that joins or gets its addresses. -/
def LeaseEvent.starter : LeaseEvent → Option Nat
  | .join p => some p.id
  | .get w _ => some w
  | .remove _ => none

/-- The state after an event.  A worker presents its cookie once, before it gets addresses. -/
def Sessions.step (s : Sessions) : SessionEvent → Option Sessions
  | .lease ev =>
    if ∀ w ∈ ev.starter, w ∉ s.robbed then
      (s.main.lease_step ev).map fun main => { s with main }
    else none
  | .reuse w old =>
    (s.main.find_proc w).bind fun p => (s.main.find_proc old).bind fun q =>
      if p.id ≠ q.id ∧ p.id ∉ s.robbed ∧ p.leases = [] ∧ p.username = q.username ∧ 0 < q.pid then
        let r := s.main.take_over q p
        some ⟨r.1.store r.2, q.id :: s.robbed⟩
      else none

def SessionStep (s : Sessions) (ev : SessionEvent) (s' : Sessions) : Prop := s.step ev = some s'

def Sessions.Initial (s : Sessions) : Prop := s.main.Unleased ∧ s.robbed = []

/-- The leases that the worker holds itself. -/
def Sessions.leases (s : Sessions) (p : Proc) : List IpLease :=
  if p.id ∈ s.robbed then [] else p.leases

/-- A worker asks for its addresses while no other one holds an explicit address that it may
get itself, and a session is taken over from a worker that still holds its leases. -/
def SessionEvent.Clear (s : Sessions) : SessionEvent → Prop
  | .lease (.get w _) => ∀ p ∈ s.main.find_proc w, ∀ q ∈ s.main.procs, q.id ≠ w →
      ∀ l ∈ s.leases q, l.pool = false → ¬ p.Eligible l.sig
  | .lease _ => True
  | .reuse _ old => old ∉ s.robbed

instance (s : Sessions) (ev : SessionEvent) : Decidable (ev.Clear s) := by
  unfold SessionEvent.Clear
  split <;> infer_instance

/-- Two workers of different users hold the same address. -/
def Sessions.Shared (s : Sessions) : Prop :=
  ∃ p ∈ s.main.procs, ∃ q ∈ s.main.procs, p.id ≠ q.id ∧ p.username ≠ q.username ∧
    ∃ l ∈ s.leases p, ∃ l' ∈ s.leases q, l.Collides l'

instance (s : Sessions) : Decidable s.Shared := by
  unfold Sessions.Shared
  infer_instance

/-- The workers hold leases with different keys, and what is registered is held. -/
structure Sessions.Held (s : Sessions) : Prop extends s.main.Registry where
  procs : (s.main.procs.map Proc.id).Nodup
  granted : ∀ p ∈ s.main.procs, ∀ l ∈ s.leases p, ∃ db id q, Granted db id q l
  registered : ∀ p ∈ s.main.procs, ∀ l ∈ p.leases, l.db →
    l ∈ s.leases p ∧ l ∈ s.main.ip_leases.toList
  keys : ∀ p ∈ s.main.procs, ∀ q ∈ s.main.procs, p.id ≠ q.id → ∀ l ∈ s.leases p,
    ∀ l' ∈ s.leases q, l.sig ≠ l'.sig

namespace Sessions

variable {s s' : Sessions} {env : MainEnv} {ret : Int} {m₁ : Main} {p₁ : Proc}

theorem mem_leases : l ∈ s.leases p ↔ p.id ∉ s.robbed ∧ l ∈ p.leases := by
  unfold leases
  split <;> simp [*]

theorem Initial.held (h : s.Initial) : s.Held := by
  obtain ⟨⟨hprocs, hleases⟩, -⟩ := h
  have hempty : s.main.ip_leases.toList = [] := by rw [hleases]; rfl
  refine ⟨⟨?_, ?_, ?_, ?_⟩, ?_, ?_, ?_, ?_⟩ <;> simp [hprocs, hempty]

theorem Held.join (h : s.Held) (hleases : p.leases = []) (hnew : ∀ q ∈ s.main.procs, q.id ≠ p.id) :
    Held { s with main := { s.main with procs := p :: s.main.procs } } := by
  have hnone : ∀ l, l ∉ s.leases p := fun l hl => by simp [mem_leases, hleases] at hl
  refine ⟨⟨h.nodup, h.ids, h.sigs, h.fresh⟩, ?_, ?_, ?_, ?_⟩
  · exact List.nodup_cons.2 ⟨by simpa using hnew, h.procs⟩
  · exact List.forall_mem_cons.2 ⟨fun l hl => absurd hl (hnone l), h.granted⟩
  · exact List.forall_mem_cons.2 ⟨fun l hl => by simp [hleases] at hl, h.registered⟩
  · refine List.forall_mem_cons.2 ⟨fun q _ _ l hl => absurd hl (hnone l), fun q hq => ?_⟩
    exact List.forall_mem_cons.2 ⟨fun _ _ _ l hl => absurd hl (hnone l), h.keys q hq⟩

/-- A lease that is granted gets a key that no other worker holds: those from pools are
registered, and explicit ones are out of reach. -/
theorem Held.free (h : s.Held) (hq : q ∈ s.main.procs) (hl' : l' ∈ s.leases q)
    (hclear : l'.pool = false → ¬ p.Eligible l'.sig)
    (htable : ∀ l ∈ s.main.ip_leases.toList, l ∈ db.toList) (hgranted : Granted db id p l) :
    l.sig ≠ l'.sig := by
  obtain ⟨db', id', q', hgranted'⟩ := h.granted q hq l' hl'
  cases hpool : l'.pool with
  | true =>
    have hmem := h.registered q hq l' (mem_leases.1 hl').2 (hgranted'.registered.trans hpool)
    exact (hgranted.free (htable l' hmem.2)).symm
  | false => exact fun hsig => hclear hpool (hsig ▸ hgranted.eligible)

theorem Held.get (h : s.Held) (hp : p ∈ s.main.procs) (hout : p.id ∉ s.robbed)
    (hclear : ∀ q ∈ s.main.procs, q.id ≠ p.id → ∀ l ∈ s.leases q, l.pool = false →
      ¬ p.Eligible l.sig)
    (hget : s.main.get_ip_leases env p = .ok (m₁, p₁, ret)) :
    Held { s with main := m₁.store p₁ } := by
  obtain ⟨hid, hprocs, -, -, hleases⟩ := Main.get_ip_leases_leases hget
  obtain ⟨hregistry, htable, hregistered⟩ := Main.get_ip_leases_registry h.toRegistry
    (fun l hl hdb => (h.registered p hp l hl hdb).2) hget
  have hown : ∀ l ∈ p₁.leases, (∃ db id q, Granted db id q l) ∧
      ∀ q ∈ s.main.procs, q.id ≠ p.id → ∀ l' ∈ s.leases q, l.sig ≠ l'.sig := by
    intro l hl
    rcases hleases l hl with hold | ⟨db, id, hdb, hgranted⟩
    · have hold := mem_leases.2 ⟨hout, hold⟩
      exact ⟨h.granted p hp l hold, fun q hq hne => h.keys p hp q hq hne.symm l hold⟩
    · exact ⟨⟨db, id, p, hgranted⟩, fun q hq hne l' hl' =>
        h.free hq hl' (hclear q hq hne l' hl') hdb hgranted⟩
  refine ⟨hregistry.congr rfl (Nat.le_refl _), ?_, ?_, ?_, ?_⟩
  · rw [Main.ids_store, hprocs]
    exact h.procs
  · refine Main.forall_store (fun q hq => h.granted q (hprocs ▸ hq)) fun l hl => ?_
    exact (hown l (mem_leases.1 hl).2).1
  · refine Main.forall_store (fun q hq l hl hdb => ?_) fun l hl hdb => ?_
    · exact ⟨(h.registered q (hprocs ▸ hq) l hl hdb).1,
        htable l (h.registered q (hprocs ▸ hq) l hl hdb).2⟩
    · exact ⟨mem_leases.2 ⟨hid ▸ hout, hl⟩, hregistered l hl hdb⟩
  · intro q hq r hr hne l hl l' hl'
    rcases Main.mem_store.1 hq with ⟨rfl, -⟩ | ⟨hq', hneq⟩
    · rcases Main.mem_store.1 hr with ⟨rfl, -⟩ | ⟨hr', hner⟩
      · exact absurd rfl hne
      · exact (hown l (mem_leases.1 hl).2).2 r (hprocs ▸ hr') (hid ▸ hner) l' hl'
    · rcases Main.mem_store.1 hr with ⟨rfl, -⟩ | ⟨hr', -⟩
      · exact ((hown l' (mem_leases.1 hl').2).2 q (hprocs ▸ hq') (hid ▸ hneq) l hl).symm
      · exact h.keys q (hprocs ▸ hq') r (hprocs ▸ hr') hne l hl l' hl'

theorem Held.remove (h : s.Held) (hp : p ∈ s.main.procs) :
    Held { s with main :=
      { s.main.remove_ip_leases p with procs := s.main.procs.filter fun q => q.id ≠ p.id } } := by
  obtain ⟨hregistry, hmem⟩ := h.toRegistry.removed fun l hl hdb => (h.registered p hp l hl hdb).2
  have hprocs : ∀ q ∈ s.main.procs.filter (fun q => q.id ≠ p.id),
      q ∈ s.main.procs ∧ q.id ≠ p.id := by simp
  refine ⟨hregistry.congr rfl (Nat.le_refl _), ?_, ?_, ?_, ?_⟩
  · exact h.procs.sublist (List.filter_sublist.map _)
  · exact fun q hq => h.granted q (hprocs q hq).1
  · intro q hq l hl hdb
    obtain ⟨hq, hne⟩ := hprocs q hq
    obtain ⟨hheld, htable⟩ := h.registered q hq l hl hdb
    refine ⟨hheld, (hmem l).2 ⟨htable, fun l' hl' hdb' heq => ?_⟩⟩
    exact h.keys q hq p hp hne l hheld l' (h.registered p hp l' hl' hdb').1 (congrArg _ heq)
  · exact fun q hq r hr => h.keys q (hprocs q hq).1 r (hprocs r hr).1

theorem Held.reuse (h : s.Held) (hq : q ∈ s.main.procs) (hne : p.id ≠ q.id)
    (hout : p.id ∉ s.robbed) (hholds : q.id ∉ s.robbed) (hpid : 0 < q.pid) :
    Held ⟨(s.main.take_over q p).1.store (s.main.take_over q p).2, q.id :: s.robbed⟩ := by
  rw [Main.take_over_snd, Main.take_over_fst hpid]
  generalize hm : (({ s.main with next := s.main.next + 2 }.emit (.sigterm q.id)).store
    (q.robbed s.main.next)).store (p.heir q) = m
  have hcopies : ∀ l ∈ (q.robbed s.main.next).leases, l.db = false := by
    simp only [Proc.leases, Proc.robbed, Main.copy_lease]
    cases q.ipv4 <;> cases q.ipv6 <;> simp
  have hprocs : ∀ r ∈ m.procs, r = p.heir q ∨ r = q.robbed s.main.next ∨
      r ∈ s.main.procs ∧ r.id ≠ p.id ∧ r.id ≠ q.id := by
    intro r hr
    rw [← hm] at hr
    rcases Main.mem_store.1 hr with ⟨rfl, -⟩ | ⟨hr, hrp⟩
    · exact .inl rfl
    · rcases Main.mem_store.1 hr with ⟨rfl, -⟩ | ⟨hr, hrq⟩
      · exact .inr (.inl rfl)
      · exact .inr (.inr ⟨hr, hrp, hrq⟩)
  -- the new worker holds what the previous one has held, and the others what they have held
  have hheld : ∀ r ∈ m.procs, ∀ l ∈ leases ⟨m, q.id :: s.robbed⟩ r, r.id ≠ q.id ∧
      ∃ r₀ ∈ s.main.procs, l ∈ s.leases r₀ ∧ r₀.id = if r.id = p.id then q.id else r.id := by
    intro r hr l hl
    obtain ⟨hmine, hl⟩ := mem_leases.1 hl
    obtain ⟨hrq, hmine⟩ := not_or.1 (List.mem_cons.not.1 hmine)
    refine ⟨hrq, ?_⟩
    rcases hprocs r hr with rfl | rfl | ⟨hr, hrp, -⟩
    · exact ⟨q, hq, mem_leases.2 ⟨hholds, hl⟩, (if_pos rfl).symm⟩
    · exact absurd rfl hrq
    · exact ⟨r, hr, mem_leases.2 ⟨hmine, hl⟩, (if_neg hrp).symm⟩
  refine ⟨hm ▸ h.toRegistry.congr rfl (Nat.le_add_right _ 2), ?_, ?_, ?_, ?_⟩
  · rw [← hm, Main.ids_store, Main.ids_store]
    exact h.procs
  · intro r hr l hl
    obtain ⟨-, r₀, hr₀, hl₀, -⟩ := hheld r hr l hl
    exact h.granted r₀ hr₀ l hl₀
  · intro r hr l hl hdb
    rw [mem_leases, show m.ip_leases = s.main.ip_leases from hm ▸ rfl]
    rcases hprocs r hr with rfl | rfl | ⟨hr, -, hrq⟩
    · exact ⟨⟨List.mem_cons.not.2 (not_or.2 ⟨hne, hout⟩), hl⟩, (h.registered q hq l hl hdb).2⟩
    · simp [hcopies l hl] at hdb
    · obtain ⟨hmine, htable⟩ := h.registered r hr l hl hdb
      exact ⟨⟨List.mem_cons.not.2 (not_or.2 ⟨hrq, (mem_leases.1 hmine).1⟩), hl⟩, htable⟩
  · intro r hr r' hr' hrr l hl l' hl'
    obtain ⟨hrq, r₀, hr₀, hl₀, hid⟩ := hheld r hr l hl
    obtain ⟨hrq', r₀', hr₀', hl₀', hid'⟩ := hheld r' hr' l' hl'
    refine h.keys r₀ hr₀ r₀' hr₀' ?_ l hl₀ l' hl₀'
    rw [hid, hid']
    split_ifs with hrp hrp' hrp'
    · exact absurd (hrp.trans hrp'.symm) hrr
    · exact hrq'.symm
    · exact hrq
    · exact hrr

theorem Held.step {ev : SessionEvent} (h : s.Held) (hclear : ev.Clear s)
    (hstep : SessionStep s ev s') : s'.Held := by
  cases ev with
  | lease ev =>
    simp only [SessionStep, Sessions.step, Option.ite_none_right_eq_some,
      Option.map_eq_some_iff] at hstep
    obtain ⟨hstarter, m', hlease, rfl⟩ := hstep
    rcases LeaseStep.cases hlease with ⟨p, rfl, hleases, hnew, rfl⟩ |
      ⟨w, env, p, m₁, p₁, ret, rfl, hfind, hget, rfl⟩ | ⟨w, p, rfl, hfind, rfl⟩
    · exact h.join hleases hnew
    · obtain ⟨hp, rfl⟩ := Main.find_proc_eq_some hfind
      exact h.get hp (hstarter p.id rfl) (hclear p hfind) hget
    · obtain ⟨hp, rfl⟩ := Main.find_proc_eq_some hfind
      exact h.remove hp
  | reuse w old =>
    simp only [SessionStep, Sessions.step, Option.bind_eq_some_iff, Option.ite_none_right_eq_some,
      Option.some.injEq] at hstep
    obtain ⟨p, -, q, hfind, ⟨hne, hout, -, -, hpid⟩, rfl⟩ := hstep
    obtain ⟨hq, rfl⟩ := Main.find_proc_eq_some hfind
    exact h.reuse hq hne hout hclear hpid

end Sessions

/-- In a run whose steps are clear, no two workers hold the same IPv4 address or the same
IPv6 subnet. -/
theorem leases_collision_free {s : Sessions}
    (hreach : ReachableBy Sessions.Initial SessionStep (fun t => t.label.Clear t.pre) s) :
    ∀ p ∈ s.main.procs, ∀ q ∈ s.main.procs, p.id ≠ q.id → ∀ l ∈ s.leases p, ∀ l' ∈ s.leases q,
      ¬ l.Collides l' := by
  have hheld : s.Held := hreach.invariant (fun _ hinit => hinit.held)
    fun _ _ _ hheld hstep hclear => hheld.step hclear hstep
  intro p hp q hq hne l hl l' hl' hcollides
  obtain ⟨db, id, p', hgranted⟩ := hheld.granted p hp l hl
  obtain ⟨db', id', q', hgranted'⟩ := hheld.granted q hq l' hl'
  exact hheld.keys p hp q hq hne l hl l' hl' (hgranted.sig_eq hgranted' hcollides)

end Collisions

section Example

local instance collisionsPlatform : Platform := Platform.simple

private def pooled : NetworkCfg :=
  { ipv4 := some "10.0.0.0".toList, ipv4_netmask := some "255.255.255.0".toList }

private def idle : Main := { vconfig := Sample.vconfig {} }

private def sessions : Sessions := { main := idle }

/-- A worker of the user, which takes what its seed says. -/
private def pooledWorker (id : Nat) (username : String) (cfg : GroupCfg) : Proc :=
  { Sample.worker id pooled cfg with
    username := username.toList
    ipv4_seed := 5
    pid := 100 + id }

private def started (p : Proc) : List SessionEvent :=
  [.lease (.join p), .lease (.get p.id Sample.env)]

/-- The session of the first worker is taken over by the second one. -/
private def reused : List SessionEvent :=
  started (pooledWorker 1 "alice" {}) ++ [.lease (.join (pooledWorker 2 "alice" {})), .reuse 2 1]

/-- An explicit address outside the network is no problem, and neither is a session that is taken
over. -/
theorem leases_collision_free_outside : ∃ P : Platform, ∃ s : @Sessions P,
    s.robbed = [1] ∧ ∃ p ∈ s.main.procs, ∃ q ∈ s.main.procs, ∃ l ∈ s.leases p, ∃ l' ∈ s.leases q,
      l.pool = false ∧ l'.pool = true ∧ ¬ l.Collides l' := by
  have hstart : sessions.Initial := ⟨⟨rfl, rfl⟩, rfl⟩
  obtain ⟨s, hreach, hs⟩ := exists_reachableBy_of_exec (f := Sessions.step)
    (C := fun s ev => SessionEvent.Clear s ev)
    (P := fun s => s.robbed = [1] ∧ ∃ p ∈ s.main.procs, ∃ q ∈ s.main.procs, p.id ≠ q.id ∧
      ∃ l ∈ s.leases p, ∃ l' ∈ s.leases q, l.pool = false ∧ l'.pool = true)
    (started (pooledWorker 3 "bob" { explicit_ipv4 := some "10.0.1.5".toList }) ++ reused)
    hstart (by decide +kernel)
  obtain ⟨hrobbed, p, hp, q, hq, hne, l, hl, l', hl', hpool, hpool'⟩ := hs
  exact ⟨collisionsPlatform, s, hrobbed, p, hp, q, hq, l, hl, l', hl', hpool, hpool',
    leases_collision_free hreach p hp q hq hne l hl l' hl'⟩

/-- An explicit address in the network is given to the second worker again.  Without explicit
addresses, a third worker takes the session over from the first one, which has only a copy of the
lease; when the second worker goes, the address is free for another user. -/
theorem explicit_address_shared : ∃ P : Platform, ∃ s s' : @Sessions P,
    Reachable Sessions.Initial SessionStep s ∧ s.Shared ∧
    Reachable Sessions.Initial SessionStep s' ∧ s'.Shared ∧
      ∀ p ∈ s'.main.procs, ∀ l ∈ p.leases, l.pool = true := by
  have hstart : sessions.Initial := ⟨⟨rfl, rfl⟩, rfl⟩
  obtain ⟨s, hreach, hs⟩ := exists_reachable_of_exec (f := Sessions.step) (P := Sessions.Shared)
    (started (pooledWorker 3 "bob" { explicit_ipv4 := some "10.0.0.5".toList }) ++
      started (pooledWorker 4 "carol" {})) hstart (by decide +kernel)
  obtain ⟨s', hreach', hs'⟩ := exists_reachable_of_exec (f := Sessions.step)
    (P := fun s => s.Shared ∧ ∀ p ∈ s.main.procs, ∀ l ∈ p.leases, l.pool = true)
    (reused ++ [.lease (.join (pooledWorker 3 "alice" {})), .reuse 3 1, .lease (.remove 2)] ++
      started (pooledWorker 4 "carol" {})) hstart (by decide +kernel)
  exact ⟨collisionsPlatform, s, s', hreach, hs, hreach', hs'⟩

end Example

/-! ## Subnets -/

section Subnets

variable [Platform]

variable {m m' : Main} {ev : LeaseEvent} {p q : Proc} {l l' : IpLease} {db db' : LeaseDb}
  {id id' : Nat}

/-- The IPv6 addresses that the client may use. -/
def IpLease.subnet (l : IpLease) : Set (BitVec 128) :=
  match l.rip with
  | .v4 _ => ∅
  | .v6 a => Subnet.range a l.prefix_len

/-- The subnets have no address in common, and neither has one of the addresses of the
server. -/
def IpLease.Apart (l l' : IpLease) : Prop :=
  Disjoint l.subnet l'.subnet ∧
    ∀ a, l.lip = .v6 a ∨ l'.lip = .v6 a → a ∉ l.subnet ∧ a ∉ l'.subnet

omit [Platform] in
theorem IpLease.Apart.symm (h : l.Apart l') : l'.Apart l :=
  ⟨h.1.symm, fun a ha => (h.2 a ha.symm).symm⟩

/-- The lease is a subnet of the same network and size, or it lies outside the network
together with the address of its server. -/
def Ipv6Pool.Compatible (pool : Ipv6Pool) (l : IpLease) : Prop :=
  match l.rip, l.lip with
  | .v6 a, .v6 s =>
    (s = pool.network ∧ l.prefix_len = pool.subnet_prefix_len) ∨
      (pool.network &&& Subnet.mask 128 (min pool.prefix_len l.prefix_len) ≠
          a &&& Subnet.mask 128 (min pool.prefix_len l.prefix_len) ∧
        s ∉ Subnet.range pool.network pool.prefix_len)
  | _, _ => True

instance (pool : Ipv6Pool) (l : IpLease) : Decidable (pool.Compatible l) := by
  unfold Ipv6Pool.Compatible
  split <;> infer_instance

/-- The worker gets its subnet from a network that is not smaller than a subnet. -/
def Proc.Divides (p : Proc) : Prop :=
  p.explicit_ipv6 = none ∧ ∀ pool ∈ p.ipv6_pool, pool.prefix_len ≤ pool.subnet_prefix_len

instance : DecidablePred Proc.Divides := fun p =>
  inferInstanceAs (Decidable (p.explicit_ipv6 = none ∧
    ∀ pool ∈ p.ipv6_pool, pool.prefix_len ≤ pool.subnet_prefix_len))

/-- Workers get their subnets from pools, and ask for them while those of the other workers
are compatible. -/
def LeaseEvent.Divided (m : Main) : LeaseEvent → Prop
  | .join p => p.Divides
  | .get w _ => ∀ p ∈ m.find_proc w, ∀ pool ∈ p.ipv6_pool, ∀ q ∈ m.procs, q.id ≠ w →
      ∀ l ∈ q.leases, pool.Compatible l
  | .remove _ => True

instance (m : Main) (ev : LeaseEvent) : Decidable (ev.Divided m) := by
  unfold LeaseEvent.Divided
  split <;> infer_instance

theorem Main.divides_step (h : ∀ p ∈ m.procs, p.Divides) (hdivided : ev.Divided m)
    (hstep : LeaseStep m ev m') : ∀ p ∈ m'.procs, p.Divides := by
  rcases hstep.cases with ⟨p, rfl, -, -, rfl⟩ | ⟨w, env, p, m₁, p₁, ret, -, hfind, hget, rfl⟩ |
    ⟨w, p, -, -, rfl⟩
  · exact List.forall_mem_cons.2 ⟨hdivided, h⟩
  · obtain ⟨-, hprocs, hconfig, hvhost, -⟩ := Main.get_ip_leases_leases hget
    intro q hq
    rcases Main.mem_store.1 hq with ⟨rfl, -⟩ | ⟨hq, -⟩
    · have hp := h p (Main.find_proc_eq_some hfind).1
      rw [Proc.Divides, Proc.explicit_ipv6, Proc.ipv6_pool, hconfig, hvhost]
      exact hp
    · exact h q (hprocs ▸ hq)
  · exact fun q hq => h q (List.mem_filter.1 hq).1

section Grants

variable {pool pool' : Ipv6Pool} {ip ip' : BitVec 128}

theorem Ipv6Grant.subnet (h : Ipv6Grant db id p pool ip l) :
    l.subnet = Subnet.range ip pool.subnet_prefix_len := by
  rw [IpLease.subnet, h.rip, h.prefix_len]

/-- A subnet does not contain the address of its server. -/
theorem Ipv6Grant.network_notMem (h : Ipv6Grant db id p pool ip l)
    (hlen : pool.prefix_len ≤ pool.subnet_prefix_len) : pool.network ∉ l.subnet := by
  rw [h.subnet, Subnet.mem_range]
  have hok := h.ok
  rw [is_ipv6_ok, Bool.and_eq_true, bne_iff_ne] at hok
  have hnetwork : pool.network &&& Subnet.mask 128 pool.subnet_prefix_len = pool.network := by
    rw [← pool.aligned, BitVec.and_assoc, BitVec.and_comm (Subnet.mask 128 pool.prefix_len),
      Subnet.mask_and_mask hlen]
  rw [hnetwork]
  exact hok.1.symm

/-- A subnet from a pool lies in its network. -/
theorem Ipv6Grant.subnet_subset (h : Ipv6Grant db id p pool ip l) (hpool : l.pool)
    (hlen : pool.prefix_len ≤ pool.subnet_prefix_len) :
    l.subnet ⊆ Subnet.range pool.network pool.prefix_len := by
  rw [h.subnet]
  refine Subnet.range_subset hlen ?_
  rcases h.source with ⟨-, -, hin⟩ | ⟨hexplicit, -⟩
  · rw [Subnet.mem_range, hin, pool.aligned]
  · simp [hexplicit] at hpool

theorem Ipv6Grant.apart (h : Ipv6Grant db id p pool ip l) (h' : Ipv6Grant db' id' q pool' ip' l')
    (hpool : l.pool) (hlen : pool.prefix_len ≤ pool.subnet_prefix_len)
    (hlen' : pool'.prefix_len ≤ pool'.subnet_prefix_len) (hsig : l'.sig ≠ l.sig)
    (hcompatible : pool.Compatible l') : l.Apart l' := by
  have hown := h.network_notMem hlen
  have hown' := h'.network_notMem hlen'
  simp only [Ipv6Pool.Compatible, h'.rip, h'.lip, h'.prefix_len] at hcompatible
  rcases hcompatible with ⟨hnetwork, hsize⟩ | ⟨hnetwork, hserver⟩
  · refine ⟨?_, fun a ha => ?_⟩
    · rw [h.subnet, h'.subnet, hsize, Subnet.disjoint_range_iff, Nat.min_self]
      intro heq
      refine hsig ?_
      rw [h.sig, h'.sig, hsize, heq]
    · obtain rfl : a = pool.network := by
        rcases ha with ha | ha
        · exact (Addr.v6.inj (h.lip.symm.trans ha)).symm
        · exact (Addr.v6.inj (h'.lip.symm.trans ha)).symm.trans hnetwork
      exact ⟨hown, hnetwork ▸ hown'⟩
  · have houtside : Disjoint (Subnet.range pool.network pool.prefix_len) l'.subnet := by
      rw [h'.subnet, Subnet.disjoint_range_iff]
      exact hnetwork
    have hsubset := h.subnet_subset hpool hlen
    refine ⟨houtside.mono_left hsubset, fun a ha => ?_⟩
    rcases ha with ha | ha
    · obtain rfl := Addr.v6.inj (h.lip.symm.trans ha)
      exact ⟨hown, Set.disjoint_left.1 houtside (Subnet.self_mem_range _ _)⟩
    · obtain rfl := Addr.v6.inj (h'.lip.symm.trans ha)
      exact ⟨fun hmem => hserver (hsubset hmem), hown'⟩

end Grants

/-- Leases of subnets are apart. -/
def IpLease.ApartSubnets (l l' : IpLease) : Prop :=
  ∀ a b, l.rip = .v6 a → l'.rip = .v6 b → l.Apart l'

theorem Granted.divided {a : BitVec 128} (h : Granted db id p l) (hp : p.Divides)
    (hrip : l.rip = .v6 a) :
    ∃ pool ip, Ipv6Grant db id p pool ip l ∧ l.pool ∧
      pool.prefix_len ≤ pool.subnet_prefix_len := by
  cases h with
  | ipv4 hl => simp [hl.rip] at hrip
  | ipv6 hl =>
    refine ⟨_, _, hl, ?_, hp.2 _ hl.network⟩
    rcases hl.source with ⟨hpool, -⟩ | ⟨-, hexplicit⟩
    · exact hpool
    · simp [hp.1] at hexplicit

theorem Main.Leased.divided_step (h : m.Leased) (hdivides : ∀ p ∈ m.procs, p.Divides)
    (hapart : m.Between IpLease.ApartSubnets) (hdivided : ev.Divided m)
    (hstep : LeaseStep m ev m') : m'.Between IpLease.ApartSubnets := by
  refine hapart.step (fun _ _ h a b ha hb => (h b a hb ha).symm) hstep ?_
  rintro w env p rfl hfind db id l htable hgranted q hq hne l' hl' a b hrip hrip'
  have hp := (Main.find_proc_eq_some hfind).1
  obtain ⟨db', id', hgranted'⟩ := h.granted q hq l' hl'
  obtain ⟨pool, ip, hl, hpool, hlen⟩ := hgranted.divided (hdivides p hp) hrip
  obtain ⟨pool', ip', hl'', hpool', hlen'⟩ := hgranted'.divided (hdivides q hq) hrip'
  have hmem := h.registered q hq l' hl' (hgranted'.registered.trans hpool')
  exact hl.apart hl'' hpool hlen hlen' (hgranted.free (htable l' hmem))
    (hdivided p hfind pool hl.network q hq hne l' hl')

/-- In a run in which the networks of the workers are the same and divided in the same way,
or have nothing in common, the subnets of different workers are apart. -/
theorem subnets_disjoint
    (hreach : ReachableBy Main.Unleased LeaseStep (fun t => t.label.Divided t.pre) m) :
    ∀ p ∈ m.procs, ∀ q ∈ m.procs, p.id ≠ q.id → ∀ l ∈ p.leases, ∀ l' ∈ q.leases,
      ∀ a b, l.rip = .v6 a → l'.rip = .v6 b → l.Apart l' := by
  have hinit : ∀ m : Main, m.Unleased →
      m.Leased ∧ (∀ p ∈ m.procs, p.Divides) ∧ m.Between IpLease.ApartSubnets :=
    fun m hinit => ⟨hinit.leased, by simp [hinit.1], hinit.between _⟩
  have hinv := hreach.invariant hinit fun m ev m' ⟨hleased, hdivides, hapart⟩ hstep hdivided =>
    ⟨hleased.step hstep, Main.divides_step hdivides hdivided hstep,
      hleased.divided_step hdivides hapart hdivided hstep⟩
  exact hinv.2.2

end Subnets

section Example

local instance subnetsPlatform : Platform := Platform.simple

private def divided (len : Nat) : NetworkCfg :=
  { ipv6 := some "2001:db8::".toList, ipv6_prefix_len := 48, ipv6_subnet_prefix_len := len }

/-- The random numbers lead to the given bits of an address. -/
private def rndEnv (r : Nat) : MainEnv :=
  { Sample.env with rnd_ipv6 := fun _ => some (BitVec.ofNat 128 (r / 2 ^ 32)) }

private def subnetAt (r : Nat) : Addr := .v6 (BitVec.ofNat 128 (0x20010db8 * 2 ^ 96 + r))

/-- Two workers get the subnets `2001:db8:0:1::/64` and `2001:db8:0:2::/64`. -/
theorem subnets_disjoint_two : ∃ P : Platform, ∃ m : @Main P, ∃ p ∈ m.procs, ∃ q ∈ m.procs,
    ∃ l ∈ p.leases, ∃ l' ∈ q.leases,
      l.rip = subnetAt (2 ^ 64) ∧ l'.rip = subnetAt (2 * 2 ^ 64) ∧ l.Apart l' := by
  have hidle : idle.Unleased := ⟨rfl, rfl⟩
  obtain ⟨m, hreach, hm⟩ := exists_reachableBy_of_exec (f := Main.lease_step)
    (C := fun m ev => LeaseEvent.Divided m ev)
    (P := fun m => ∃ p ∈ m.procs, ∃ q ∈ m.procs, p.id ≠ q.id ∧ ∃ l ∈ p.leases,
      ∃ l' ∈ q.leases, l.rip = subnetAt (2 ^ 64) ∧ l'.rip = subnetAt (2 * 2 ^ 64))
    [.join (Sample.worker 1 (divided 64) {}), .get 1 (rndEnv (2 ^ 64)),
      .join (Sample.worker 2 (divided 64) {}), .get 2 (rndEnv (2 * 2 ^ 64))]
    hidle (by decide +kernel)
  obtain ⟨p, hp, q, hq, hne, l, hl, l', hl', hrip, hrip'⟩ := hm
  exact ⟨subnetsPlatform, m, p, hp, q, hq, l, hl, l', hl', hrip, hrip',
    subnets_disjoint hreach p hp q hq hne l hl l' hl' _ _ hrip hrip'⟩

/-- The second worker gets a single address in the subnet of the first one. -/
theorem subnets_overlap : ∃ P : Platform, ∃ m : @Main P,
    Reachable Main.Unleased LeaseStep m ∧ ∃ p ∈ m.procs, ∃ q ∈ m.procs, p.id ≠ q.id ∧
      p.explicit_ipv6 = none ∧ q.explicit_ipv6 = none ∧
      ∃ l ∈ p.leases, ∃ l' ∈ q.leases, ¬ Disjoint l.subnet l'.subnet := by
  have hidle : idle.Unleased := ⟨rfl, rfl⟩
  obtain ⟨m, hreach, hm⟩ := exists_reachable_of_exec (f := Main.lease_step)
    (P := fun m => ∃ p ∈ m.procs, ∃ q ∈ m.procs, p.id ≠ q.id ∧ p.explicit_ipv6 = none ∧
      q.explicit_ipv6 = none ∧ ∃ l ∈ p.leases, ∃ l' ∈ q.leases,
      l.rip = subnetAt (2 ^ 64 + 2 ^ 32) ∧ l'.rip = subnetAt (2 ^ 64 + 2 ^ 32))
    [.join (Sample.worker 1 (divided 64) {}), .get 1 (rndEnv (2 ^ 64 + 2 ^ 32)),
      .join (Sample.worker 2 (divided 128) {}), .get 2 (rndEnv (2 ^ 64 + 2 ^ 32))]
    hidle (by decide +kernel)
  obtain ⟨p, hp, q, hq, hne, hpool, hpool', l, hl, l', hl', hrip, hrip'⟩ := hm
  refine ⟨subnetsPlatform, m, hreach, p, hp, q, hq, hne, hpool, hpool', l, hl, l', hl',
    ?_⟩
  rw [IpLease.subnet, IpLease.subnet, hrip, hrip']
  exact Set.not_disjoint_iff.2
    ⟨_, Subnet.self_mem_range _ l.prefix_len, Subnet.self_mem_range _ l'.prefix_len⟩

end Example
end Ocserv

import Ocserv.Main.Grant
import Ocserv.Proofs.System

/-!
# Who owns a session and its addresses

A worker that presents the cookie of a running session takes over the leases of the
worker that has it, and kills that worker.  The killed worker stays in the tables until it
is reaped.  As long as a session is only taken over from a worker that is not killed, and
all leases of subnets are of one size, every session has one owner and every address of a
pool is registered and has one owner.
-/

namespace Ocserv

open HTable List Option Outcome Runs SecMod

section Ownership

variable [Platform]

/-! ## The leases that main hands out -/

/-- How the registered address of a lease follows from its address, where subnets have
the prefix length `n`. -/
def IpLease.Keyed (n : Nat) (l : IpLease) : Prop :=
  match l.rip with
  | .v4 a => l.sig = .v4 a
  | .v6 a => ∃ mask, ipv6_prefix_to_mask n = some mask ∧ l.sig = .v6 (a &&& mask)

/-- The lease with the identity `id` can be added to the registered ones. -/
structure LeaseDb.Admits (n : Nat) (db : LeaseDb) (id : Nat) (l : IpLease) : Prop where
  id : l.id = id
  pool : l.db = l.pool
  free : l.db → ∀ l' ∈ db.toList, l'.sig ≠ l.sig
  keyed : l.pool → l.Keyed n

variable {env : MainEnv} {db : LeaseDb} {id n : Nat} {p p' q : Proc} {l : IpLease}

/-- The worker gets subnets with the prefix length `n`. -/
structure Proc.Subnets (n : Nat) (p : Proc) : Prop where
  config : ∀ config, p.config = some config → config.ipv6_subnet_prefix_len = some n
  vhost : ∀ vhost, p.vhost = some vhost → vhost.config.network.ipv6_subnet_prefix_len = n

omit [Platform] in
theorem Proc.Subnets.pool {pool : Ipv6Pool} (hn : p.Subnets n) (h : p.ipv6_pool = some pool) :
    pool.subnet_prefix_len = n := by
  simp only [Proc.ipv6_pool, Option.bind_eq_bind, bind_eq_some_iff] at h
  obtain ⟨config, hconfig, h⟩ := h
  have hown := hn.config config hconfig
  split at h
  · simpa [hown] using ipv6_pool_subnet_prefix_len h
  · obtain ⟨vhost, hvhost, h⟩ := bind_eq_some_iff.1 h
    exact (ipv6_pool_subnet_prefix_len h).trans (hn.vhost vhost hvhost)

theorem Granted.keyed (hn : p.Subnets n) (h : Granted db id p l) : l.Keyed n := by
  cases h with
  | ipv4 hl =>
    rw [IpLease.Keyed, hl.rip]
    exact hl.sig
  | ipv6 hl =>
    rw [IpLease.Keyed, hl.rip]
    obtain ⟨hpos, hle⟩ := hl.subnet_prefix_len
    obtain rfl := hn.pool hl.network
    exact ⟨_, ipv6_prefix_to_mask_eq_some.2 ⟨hpos, hle, rfl⟩, hl.sig⟩

theorem Granted.admits (hn : p.Subnets n) (h : Granted db id p l) : db.Admits n id l :=
  ⟨h.lease_id, h.registered, fun _ _ hl' => h.free hl', fun _ => h.keyed hn⟩

/-! ## The invariant -/

/-- The worker has a session, and has not been killed. -/
def Proc.live (p : Proc) : Prop := p.active_sid ∧ p.pid_killed = false

instance : DecidablePred Proc.live := fun p =>
  inferInstanceAs (Decidable (p.active_sid ∧ p.pid_killed = false))

/-- The sessions and the addresses of the workers that are not killed have one owner, and
the addresses from a pool are registered. -/
structure Main.Exclusive (m : Main) : Prop where
  session : ∀ p ∈ m.procs, ∀ q ∈ m.procs, p.live → q.live → p.sid = q.sid → p = q
  address : ∀ p ∈ m.procs, ∀ q ∈ m.procs, p.live → q.live → ∀ l ∈ p.leases, ∀ l' ∈ q.leases,
    l.pool → l'.pool → l.rip = l'.rip → p = q
  registered : ∀ p ∈ m.procs, p.live → ∀ l ∈ p.leases, l.pool → l ∈ m.ip_leases.toList

/-- The session and the registered leases of the worker are its own. -/
structure Main.Fits (n : Nat) (m : Main) (p : Proc) : Prop where
  session : p.live → ∀ q ∈ m.procs, q.id ≠ p.id → q.live → q.sid ≠ p.sid
  registered : ∀ l ∈ p.leases, l.db → l ∈ m.ip_leases.toList
  owner : ∀ l ∈ p.leases, l.db → ∀ q ∈ m.procs, q.id ≠ p.id → l ∉ q.leases
  /-- only a worker that has been killed holds a copy -/
  pool : p.pid_killed = false → ∀ l ∈ p.leases, l.pool → l.db
  keyed : ∀ l ∈ p.leases, l.pool → l.Keyed n
  subnets : p.Subnets n

/-- The registered leases are those of different addresses, and each belongs to one worker. -/
structure Main.Owned (n : Nat) (m : Main) : Prop extends m.Registry where
  fits : ∀ p ∈ m.procs, m.Fits n p

variable {m m' : Main} {s s' : Sys}

omit [Platform] in
theorem IpLease.Keyed.sig_eq {l l' : IpLease} (h : l.Keyed n) (h' : l'.Keyed n)
    (hrip : l.rip = l'.rip) : l.sig = l'.sig := by
  unfold IpLease.Keyed at h h'
  rw [← hrip] at h'
  cases hr : l.rip with
  | v4 a =>
    simp only [hr] at h h'
    rw [h, h']
  | v6 a =>
    simp only [hr] at h h'
    obtain ⟨mask, hmask, h⟩ := h
    obtain ⟨mask', hmask', h'⟩ := h'
    rw [h, h', some.inj (hmask.symm.trans hmask')]

theorem Main.Owned.exclusive (h : m.Owned n) (hids : (m.procs.map Proc.id).Nodup) :
    m.Exclusive := by
  have hdb : ∀ p ∈ m.procs, p.live → ∀ l ∈ p.leases, l.pool → l.db :=
    fun p hp hlive => (h.fits p hp).pool hlive.2
  constructor
  · intro p hp q hq hlive hlive' hsid
    refine inj_on_of_nodup_map hids hp hq (by_contra fun hne => ?_)
    exact (h.fits q hq).session hlive' p hp hne hlive hsid
  · intro p hp q hq hlive hlive' l hl l' hl' hpl hpl' hrip
    -- both leases are registered, under one address
    have hsig := ((h.fits p hp).keyed l hl hpl).sig_eq ((h.fits q hq).keyed l' hl' hpl') hrip
    have hldb := hdb p hp hlive l hl hpl
    obtain rfl := h.sigs l ((h.fits p hp).registered l hl hldb) l'
      ((h.fits q hq).registered l' hl' (hdb q hq hlive' l' hl' hpl')) hsig
    refine inj_on_of_nodup_map hids hp hq (by_contra fun hne => ?_)
    exact (h.fits q hq).owner l hl' hldb p hp hne hl
  · intro p hp hlive l hl hpl
    exact (h.fits p hp).registered l hl (hdb p hp hlive l hl hpl)

/-! ## Changes of one worker -/

/-- Other workers may go, and new ones may come that have neither sessions nor leases. -/
theorem Main.Fits.among (h : m.Fits n p)
    (hothers : ∀ q ∈ m'.procs, q.id ≠ p.id → q ∈ m.procs ∨ ¬ q.live ∧ q.leases = [])
    (hleases : ∀ l ∈ p.leases, l.db → l ∈ m.ip_leases.toList → l ∈ m'.ip_leases.toList) :
    m'.Fits n p :=
  { h with
    session := by
      intro hlive q hq hne hqlive
      rcases hothers q hq hne with hq | ⟨hdead, -⟩
      · exact h.session hlive q hq hne hqlive
      · exact absurd hqlive hdead
    registered := fun l hl hdb => hleases l hl hdb (h.registered l hl hdb)
    owner := by
      intro l hl hdb q hq hne
      rcases hothers q hq hne with hq | ⟨-, hnone⟩
      · exact h.owner l hl hdb q hq hne
      · simp [hnone] }

theorem Main.Owned.store (h : m.Owned n) (hfits : m.Fits n p)
    (hprocs : m'.procs = (m.store p).procs) (hleases : m'.ip_leases = m.ip_leases)
    (hnext : m.next ≤ m'.next) : m'.Owned n := by
  have hmem : ∀ q ∈ m'.procs, q = p ∨ q ∈ m.procs ∧ q.id ≠ p.id := by
    intro q hq
    rw [hprocs] at hq
    rcases Main.mem_store.1 hq with ⟨rfl, -⟩ | hq
    · exact .inl rfl
    · exact .inr hq
  refine ⟨h.toRegistry.congr hleases hnext, fun q hq => ?_⟩
  rcases hmem q hq with rfl | ⟨hq, hne⟩
  · refine hfits.among (fun r hr hner => .inl ?_) fun l _ _ hl => hleases.symm ▸ hl
    exact ((hmem r hr).resolve_left fun heq => hner (heq ▸ rfl)).1
  · have hown := h.fits q hq
    exact { hown with
      session := by
        intro hlive r hr hner hlive' hsid
        rcases hmem r hr with rfl | ⟨hr, -⟩
        · exact hfits.session hlive' q hq hne hlive hsid.symm
        · exact hown.session hlive r hr hner hlive' hsid
      registered := hleases ▸ hown.registered
      owner := by
        intro l hl hdb r hr hner hin
        rcases hmem r hr with rfl | ⟨hr, -⟩
        · exact hfits.owner l hin hdb q hq hne hl
        · exact hown.owner l hl hdb r hr hner hin }

/-- A change of a worker that gives it neither a session nor an address. -/
theorem Main.Fits.of_leases (h : m.Fits n p) (p' : Proc) (hid : p'.id = p.id)
    (hleases : p'.leases = p.leases)
    (hkilled : p'.pid_killed = false → p.pid_killed = false)
    (hsession : p'.live → p.live ∧ p'.sid = p.sid) (hsubnets : p'.Subnets n) : m.Fits n p' where
  session := by
    intro hlive q hq hne
    obtain ⟨hlive, hsid⟩ := hsession hlive
    rw [hsid]
    exact h.session hlive q hq (hid ▸ hne)
  registered := hleases ▸ h.registered
  owner := by
    rw [hleases, hid]
    exact h.owner
  pool := fun hk => hleases ▸ h.pool (hkilled hk)
  keyed := hleases ▸ h.keyed
  subnets := hsubnets

omit [Platform] in
theorem Proc.SameHolder.leases (h : p.SameHolder p') : p'.leases = p.leases := by
  rw [Proc.leases, Proc.leases, h.ipv4, h.ipv6]

omit [Platform] in
theorem Proc.SameHolder.live (h : p.SameHolder p') (hlive : p'.live) : p.live ∧ p'.sid = p.sid :=
  ⟨⟨h.active_sid ▸ hlive.1, h.pid_killed ▸ hlive.2⟩, h.sid⟩

/-! ## New leases -/

theorem Main.Owned.register (h : m.Owned n) (hl : m.ip_leases.Admits n m.next l) :
    (m.register l).Owned n :=
  ⟨h.toRegistry.register hl.id hl.free, fun p hp => (h.fits p hp).among (fun _ hq _ => .inl hq)
    fun l' _ _ hl' => (m.mem_register l l').2 (.inr hl')⟩

/-- The new lease goes to a worker. -/
theorem Main.Owned.grant (h : m.Owned n) (hp : p ∈ m.procs)
    (hg : Grant m.ip_leases m.next p l p') : ((m.register l).store p').Owned n := by
  have hl := hg.granted.admits (h.fits p hp).subnets
  have hregister := h.register hl
  have hown := hregister.fits p hp
  obtain ⟨hkilled, hsession⟩ : p'.pid_killed = p.pid_killed ∧
      (p'.live → p.live ∧ p'.sid = p.sid) := by
    cases hg <;> exact ⟨rfl, fun hlive => ⟨hlive, rfl⟩⟩
  have hfits : (m.register l).Fits n p' := by
    constructor
    · intro hlive
      obtain ⟨hlive, hsid⟩ := hsession hlive
      rw [hsid, hg.proc_id]
      exact hown.session hlive
    · intro l' hl' hdb
      rcases hg.mem_leases.1 hl' with rfl | hl'
      · exact (m.mem_register l' l').2 (.inl ⟨hdb, rfl⟩)
      · exact hown.registered l' hl' hdb
    · rw [hg.proc_id]
      intro l' hl' hdb q hq hne hin
      rcases hg.mem_leases.1 hl' with rfl | hl'
      · have hlt := h.fresh l' ((h.fits q hq).registered l' hin hdb)
        rw [hl.id] at hlt
        exact Nat.lt_irrefl _ hlt
      · exact hown.owner l' hl' hdb q hq hne hin
    · intro hk l' hl' hpool
      rcases hg.mem_leases.1 hl' with rfl | hl'
      · rw [hl.pool, hpool]
      · exact hown.pool (hkilled ▸ hk) l' hl' hpool
    · intro l' hl' hpool
      rcases hg.mem_leases.1 hl' with rfl | hl'
      · exact hl.keyed hpool
      · exact hown.keyed l' hl' hpool
    · exact ⟨hg.config.1 ▸ hown.subnets.config, hg.config.2 ▸ hown.subnets.vhost⟩
  exact hregister.store hfits rfl rfl (Nat.le_refl _)

theorem Main.Owned.phases (n : Nat) (env : MainEnv) : Phases (fun s => s.main.Owned n) env where
  quiet := by
    intro s s' h hq _
    refine ⟨h.toRegistry.congr hq.ip_leases hq.next.ge, fun p hp => ?_⟩
    exact (h.fits p (hq.procs ▸ hp)).among (fun _ hr _ => .inl (hq.procs ▸ hr))
      fun _ _ _ hl => hq.ip_leases.symm ▸ hl
  update := by
    intro s p p' h hfind hsame
    have hfits := h.fits p (Main.find_proc_eq_some hfind).1
    refine h.store (hfits.of_leases p' hsame.id hsame.leases (fun hk => hsame.pid_killed ▸ hk)
      hsame.live ⟨?_, ?_⟩) rfl rfl (Nat.le_refl _)
    · rw [hsame.config]
      exact hfits.subnets.config
    · rw [hsame.vhost]
      exact hfits.subnets.vhost
  kill := by
    intro s p h hfind
    have hfits := h.fits p (Main.find_proc_eq_some hfind).1
    refine h.store (hfits.of_leases { p with pid_killed := true } rfl rfl ?_ ?_
      ⟨hfits.subnets.config, hfits.subnets.vhost⟩) rfl rfl (Nat.le_refl _)
    · simp
    · intro hlive
      simp [Proc.live] at hlive
  lease4 := by
    intro s p l h hfind hnone hlease
    obtain ⟨pool, ip, hl⟩ := get_ipv4_lease_grant hlease
    exact h.grant (Main.find_proc_eq_some hfind).1 (.ipv4 hnone hl)
  lease6 := by
    intro s p l h hfind hnone hlease
    obtain ⟨pool, ip, hl⟩ := get_ipv6_lease_grant hlease
    exact h.grant (Main.find_proc_eq_some hfind).1 (.ipv6 hnone hl)

/-! ## Taking a session over -/

/-- The steps that keep the ownership: a session is taken over only from a worker that has
not been killed, and all subnets are of one size. -/
structure Sys.Orderly (n : Nat) (s : Sys) (l : Sys.Event × Sys.Env) : Prop where
  reuse : ∀ {w : Nat} {msg : WorkerMsg} {p old : Proc} {req : AuthCookieRequestMsg} {sid : Sid}
    {sec : SecMod}, l.1 = .worker w msg → s.main.find_proc w = some p →
    CookieReq s p msg req sid sec → s.main.proc_search_sid sid = some old → old.pid_killed = false
  vhosts : ∀ name, (find_vhost s.main.vconfig name).config.network.ipv6_subnet_prefix_len = n
  users : ∀ w config, (l.2 w).sec.sup_config = some config →
    config.ipv6_subnet_prefix_len = none ∨ config.ipv6_subnet_prefix_len = some n

section Cookie

variable {w : Nat} {msg : WorkerMsg} {req : AuthCookieRequestMsg} {sid : Sid} {sec sec₁ : SecMod}
  {m₁ : Main} {p₁ old : Proc} {result : Int} {info : SessionInfo}

theorem Proc.Loaded.subnets (hload : p.Loaded m.vconfig info p')
    (hvhosts : ∀ name, (find_vhost m.vconfig name).config.network.ipv6_subnet_prefix_len = n)
    (huser : info.config.ipv6_subnet_prefix_len = none ∨
      info.config.ipv6_subnet_prefix_len = some n) : p'.Subnets n := by
  constructor
  · intro config hconfig
    obtain rfl := some.inj (hload.config.symm.trans hconfig)
    rcases huser with huser | huser <;>
      simp [session_config, apply_default_config, huser, hvhosts]
  · intro vhost hvhost
    obtain rfl := some.inj (hload.vhost.symm.trans hvhost)
    exact hvhosts _

omit [Platform] in
theorem Proc.robbed_leases (old : Proc) (next : Nat) {l : IpLease}
    (hl : l ∈ (old.robbed next).leases) :
    l.db = false ∧ ∃ l₀ ∈ old.leases, l₀.rip = l.rip ∧ l₀.sig = l.sig ∧ l₀.pool = l.pool := by
  simp only [Proc.leases, Proc.robbed, mem_append, mem_toList, map_eq_some_iff] at hl
  rcases hl with ⟨l₀, hl₀, rfl⟩ | ⟨l₀, hl₀, rfl⟩
  · exact ⟨rfl, l₀, by simp [Proc.leases, hl₀], rfl, rfl, rfl⟩
  · exact ⟨rfl, l₀, by simp [Proc.leases, hl₀], rfl, rfl, rfl⟩

theorem Main.Owned.robbed (h : m.Owned n) (hold : old ∈ m.procs) (next : Nat) :
    m.Fits n (old.robbed next) where
  session := fun hlive => by simp [Proc.live, Proc.robbed] at hlive
  registered := fun l hl hdb => by simp [(Proc.robbed_leases old next hl).1] at hdb
  owner := fun l hl hdb => by simp [(Proc.robbed_leases old next hl).1] at hdb
  pool := fun hk => by simp [Proc.robbed] at hk
  keyed := by
    intro l hl hpool
    obtain ⟨-, l₀, hl₀, hrip, hsig, hpool₀⟩ := Proc.robbed_leases old next hl
    have hkeyed := (h.fits old hold).keyed l₀ hl₀ (hpool₀.trans hpool)
    unfold IpLease.Keyed at hkeyed ⊢
    rwa [hrip, hsig] at hkeyed
  subnets := ⟨(h.fits old hold).subnets.config, (h.fits old hold).subnets.vhost⟩

/-- The worker that gets the session of `old` with its leases fits in, once `old` has been
robbed. -/
theorem Main.Owned.heir (h : m.Owned n) (hold : old ∈ m.procs) (hlive : old.live)
    (hsid : p.sid = old.sid) (hleases : p.leases = old.leases)
    (hsubnets : p.Subnets n) (hprocs : m'.procs = (m.store (old.robbed m.next)).procs)
    (htable : m'.ip_leases = m.ip_leases) : m'.Fits n p := by
  have hown := h.fits old hold
  have hmem : ∀ q ∈ m'.procs, q = old.robbed m.next ∨ q ∈ m.procs ∧ q.id ≠ old.id := by
    intro q hq
    rw [hprocs] at hq
    rcases Main.mem_store.1 hq with ⟨rfl, -⟩ | hq
    · exact .inl rfl
    · exact .inr hq
  constructor
  · intro _ q hq _ hqlive hqsid
    rcases hmem q hq with rfl | ⟨hq, hqne⟩
    · simp [Proc.live, Proc.robbed] at hqlive
    · exact hown.session hlive q hq hqne hqlive (hqsid.trans hsid)
  · rw [hleases, htable]
    exact hown.registered
  · rw [hleases]
    intro l hl hdb q hq _ hin
    rcases hmem q hq with rfl | ⟨hq, hqne⟩
    · simp [(Proc.robbed_leases old m.next hin).1] at hdb
    · exact hown.owner l hl hdb q hq hqne hin
  · rw [hleases]
    exact fun _ => hown.pool hlive.2
  · rw [hleases]
    exact hown.keyed
  · exact hsubnets

theorem Main.Fits.attach (h : m.Fits n p) {hostname : Option CStr}
    (hfree : ∀ q ∈ m.procs, q.live → q.sid ≠ sid) : m.Fits n (m.attach p sid hostname).2 where
  session := fun _ q hq _ hlive => hfree q hq hlive
  registered := h.registered
  owner := h.owner
  pool := h.pool
  keyed := h.keyed
  subnets := ⟨h.subnets.config, h.subnets.vhost⟩

theorem Main.Owned.cookie (h : s.main.Owned n) (hwf : s.WF) (hfind : s.main.find_proc w = some p)
    (hreq : CookieReq s p msg req sid sec)
    (hans : Answered env s p req sid sec m₁ sec₁ p₁ result)
    (hreuse : ∀ old, s.main.proc_search_sid sid = some old → old.pid_killed = false)
    (hvhosts : ∀ name, (find_vhost s.main.vconfig name).config.network.ipv6_subnet_prefix_len = n)
    (husers : ∀ config, env.sec.sup_config = some config →
      config.ipv6_subnet_prefix_len = none ∨ config.ipv6_subnet_prefix_len = some n)
    (secs : List SecMod) : At (fun s => s.main.Owned n) secs w m₁ p₁ := by
  obtain ⟨hid, hids⟩ := hans.id hwf hreq
  obtain ⟨hmem, rfl⟩ := Main.find_proc_eq_some hfind
  refine ⟨hid, hids ▸ mem_map_of_mem hmem, ?_⟩
  -- the instance makes no difference
  have hfits : s.main.Fits n
      { p with sec_mod_instance_index := sec_mod_instance_index_get sid } :=
    (h.fits p hmem).of_leases _ rfl rfl (fun hk => hk) (fun hlive => ⟨hlive, rfl⟩)
      ⟨(h.fits p hmem).subnets.config, (h.fits p hmem).subnets.vhost⟩
  have hsubnets : ∀ {info : SessionInfo} {p₂ : Proc},
      (sec.handle_secm_session_open_cmd env.sec (p.openMsg sid)).reply = some (.ok info) →
      Proc.Loaded s.main.vconfig info
        { p with sec_mod_instance_index := sec_mod_instance_index_get sid } p₂ →
      p₂.Subnets n := by
    intro info p₂ hreply hload
    obtain ⟨e, hopened⟩ := session_open_opened env.sec sec rfl hreply
    refine hload.subnets hvhosts ?_
    have hconfig := hopened.config
    unfold sup_config at hconfig
    split at hconfig
    · exact husers _ hconfig
    · exact .inl (some.inj hconfig ▸ rfl)
  -- the worker still has its addresses, and the user of the session
  have hholds : ∀ {p₂ : Proc}, Proc.SameHolder
      { p with sec_mod_instance_index := sec_mod_instance_index_get sid } p₂ → p₂.Subnets n →
      s.main.Fits n p₂ := fun hsame =>
    hfits.of_leases _ hsame.id hsame.leases (fun hk => hsame.pid_killed ▸ hk) hsame.live
  have huser : ∀ {p₂ : Proc}, Proc.SameUser
      { p with sec_mod_instance_index := sec_mod_instance_index_get sid } p₂ → s.main.Fits n p₂ :=
    fun hsame => hholds hsame.toSameHolder
      ⟨hsame.config ▸ hfits.subnets.config, hsame.vhost ▸ hfits.subnets.vhost⟩
  cases hans.step hreq with
  | refused hsame => exact h.store (huser hsame.toSameUser) rfl rfl (Nat.le_refl _)
  | unopened hsame => exact h.store (huser hsame.toSameUser) rfl rfl (Nat.le_refl _)
  | lost hreply _ hload =>
    exact h.store (hholds hload.same (hsubnets hreply hload)) rfl rfl (Nat.le_refl _)
  | fresh hreply hnone hload =>
    have hfits₂ := hholds hload.same (hsubnets hreply hload)
    exact h.store (hfits₂.attach fun q hq hlive => hwf.search_none hnone hq hlive.1)
      (Sys.put_attach_procs _ _ _ _ _) rfl (Nat.le_refl _)
  | @taken _ old p₂ hreply hold _ _ hload =>
    obtain ⟨hmem', hact', hsid'⟩ := hwf.search hold
    have hm := @Main.take_over_fst _ s.main old p₂ (hwf.pid old hmem')
    generalize (s.main.take_over old p₂).1 = m₂ at hm
    have hprocs : m₂.procs = (s.main.store (old.robbed s.main.next)).procs := by rw [hm]; rfl
    have hleases : m₂.ip_leases = s.main.ip_leases := by rw [hm]; rfl
    have hnext : s.main.next ≤ m₂.next := by rw [hm]; exact Nat.le_add_right _ 2
    have hsub := hsubnets hreply hload
    have hheir : m₂.Fits n (m₂.attach (p₂.heir old) _ req.hostname).2 :=
      h.heir hmem' ⟨hact', hreuse old hold⟩ hsid'.symm rfl ⟨hsub.config, hsub.vhost⟩ hprocs hleases
    exact (h.store (h.robbed hmem' s.main.next) hprocs hleases hnext).store hheir
      (Sys.put_attach_procs _ _ _ _ _) rfl (Nat.le_refl _)

end Cookie

/-! ## Removing a worker -/

theorem Main.Owned.removed (h : s.main.Owned n) (hp : p ∈ s.main.procs)
    (hrem : Removed env s p s') : s'.main.Owned n := by
  have hprocs : ∀ q ∈ s'.main.procs, q ∈ s.main.procs ∧ q.id ≠ p.id := by
    intro q hq
    rw [hrem.procs, mem_filter, bne_iff_ne] at hq
    exact hq
  obtain ⟨hregistry, hmem⟩ := h.toRegistry.removed (h.fits p hp).registered
  refine ⟨hregistry.congr hrem.ip_leases hrem.next.ge, fun q hq => ?_⟩
  obtain ⟨hq, hne⟩ := hprocs q hq
  have hown := h.fits q hq
  refine hown.among (fun r hr _ => .inl (hprocs r hr).1) fun l hl hdb hin => ?_
  rw [hrem.ip_leases]
  exact (hmem l).2 ⟨hin, fun l' hl' _ heq => hown.owner l hl hdb p hp hne.symm (heq ▸ hl')⟩

/-! ## Steps and runs -/

theorem Main.Owned.accept (h : m.Owned n) (pid time : Int) (remote_addr our_addr : SockAddr) :
    (m.new_proc pid time remote_addr our_addr).Owned n := by
  generalize hm' : m.new_proc pid time remote_addr our_addr = m'
  obtain ⟨p, hprocs, hact, hnone, hconfig, hvhost⟩ : ∃ p : Proc, m'.procs = p :: m.procs ∧
      p.active_sid = false ∧ p.leases = [] ∧ p.config = none ∧ p.vhost = none :=
    ⟨_, by rw [← hm']; rfl, rfl, rfl, rfl, rfl⟩
  have hleases : m'.ip_leases = m.ip_leases := by rw [← hm']; rfl
  have hdead : ¬ p.live := fun hlive => absurd (hact.symm.trans hlive.1) (by decide)
  have hempty : ∀ l, l ∉ p.leases := fun l => hnone ▸ not_mem_nil
  have hnext : m.next ≤ m'.next := by rw [← hm']; exact Nat.le_succ _
  refine ⟨h.toRegistry.congr hleases hnext, ?_⟩
  rw [hprocs]
  refine forall_mem_cons.2 ⟨?_, fun q hq => (h.fits q hq).among (fun r hr _ => ?_) ?_⟩
  · exact
      { session := fun hlive => absurd hlive hdead
        registered := fun l hl => absurd hl (hempty l)
        owner := fun l hl => absurd hl (hempty l)
        pool := fun _ l hl => absurd hl (hempty l)
        keyed := fun l hl => absurd hl (hempty l)
        subnets := ⟨by simp [hconfig], by simp [hvhost]⟩ }
  · rw [hprocs] at hr
    rcases mem_cons.1 hr with rfl | hr
    · exact .inr ⟨hdead, hnone⟩
    · exact .inl hr
  · exact fun l _ _ hl => hleases.symm ▸ hl

theorem Main.Owned.step {l : Sys.Event × Sys.Env} (h : s.main.Owned n) (hwf : s.WF)
    (horderly : s.Orderly n l) (hstep : Sys.Step s l s') : s'.main.Owned n := by
  have hrule : EventRule (fun s => s.main.Owned n) s l s' :=
    { accept := fun _ _ => h.accept _ _ _ _
      cookie := fun hev hfind hreq hans => h.cookie hwf hfind hreq hans
        (fun _ hold => horderly.reuse hev hfind hreq hold) horderly.vhosts (horderly.users _) _
      remove := fun _ hat hrun =>
        hat.inv.removed (Main.find_proc_eq_some hat.find).1 (remove_proc_removed hrun)
      execute := fun h₁ _ _ => h₁ }
  exact hrule.step (fun w => Main.Owned.phases n (l.2 w)) hwf.ids hwf.pid h hstep

theorem Sys.Initial.owned (h : s.Initial) : s.main.Owned n := by
  have hleases : s.main.ip_leases.toList = [] := by rw [h.ip_leases]; rfl
  refine ⟨⟨?_, ?_, ?_, ?_⟩, by simp [h.procs]⟩
  · rw [hleases]; exact nodup_nil
  all_goals simp [hleases]

/-- In a run in which sessions are taken over only from workers that are not killed, and all
subnets are of one size, sessions and addresses have one owner. -/
theorem session_owner_exclusive {trace : List (Transition Sys (Sys.Event × Sys.Env))}
    (hrun : Run Sys.Initial Sys.Step trace s) (horderly : ∀ t ∈ trace, t.pre.Orderly n t.label) :
    s.main.Exclusive := by
  obtain ⟨hwf, -, howned⟩ := Sys.invariant_of_run (X := fun s => s.main.Owned n)
    (C := fun t => t.pre.Orderly n t.label) hrun horderly
    (fun s hinit => ⟨hinit.wf, hinit.idle, hinit.owned⟩)
    fun hwf _ howned hstep horderly => howned.step hwf horderly hstep
  exact howned.exclusive hwf.ids

end Ownership

/-! ## Two runs -/

section Example

open Sample

local instance ownershipPlatform : Platform := Platform.simple

private def second : Sys := working.after (connect 6 [49])

private def taken : Sys := second.after (cookie 2 (sid 0 1))

/-- The small system has no IPv6 network, so the condition is about the cookies only. -/
private theorem orderly_of_search {s : Sys} {ev : Sys.Event}
    (hconfig : s.main.vconfig = vconfig {})
    (hreuse : ∀ w req sid', ev = .worker w (.auth_cookie_req (some req)) →
      Sid.ofBytes? req.cookie = some sid' →
      ∀ old ∈ s.main.proc_search_sid sid', old.pid_killed = false) :
    s.Orderly 0 (ev, fun _ => env) := by
  constructor
  · intro w msg p old req sid' sec hev _ hreq hold
    exact hreuse w req sid' (hreq.msg ▸ hev) hreq.cookie old hold
  · intro name
    rw [hconfig]
    cases name <;> rfl
  · intro _ _ hsup
    simp [env, secEnv] at hsup

/-- A session that has been taken over once has one owner. -/
theorem session_owner_exclusive_taken : ∃ P : Platform, ∃ s : @Sys P,
    @Main.Exclusive P s.main ∧ s.main.procs.length = 2 ∧
      s.main.procs.countP (fun p => p.active_sid && !p.pid_killed) = 1 := by
  have hrun : Run Sys.Initial Sys.Step
      (⟨second, cookie 2 (sid 0 1), taken⟩ :: ⟨working, connect 6 [49], second⟩ :: _) taken :=
    (run_working.snoc (Sys.step_after (by decide +kernel))).snoc
      (Sys.step_after (by decide +kernel))
  have hcookie : ∀ {s : Sys} {w : Nat}, s.main.vconfig = vconfig {} →
      (∀ old ∈ s.main.proc_search_sid (sid 0 1), old.pid_killed = false) →
      s.Orderly 0 (cookie w (sid 0 1)) := by
    intro s w hconfig hsearch
    refine orderly_of_search hconfig fun w req sid' hev hsid => ?_
    obtain rfl : req = ⟨(sid 0 1).1, none⟩ := by injection hev; simp_all
    rwa [← some.inj ((Sid.ofBytes?_val (sid 0 1)).symm.trans hsid)]
  refine ⟨Platform.simple, taken, session_owner_exclusive (n := 0) hrun ?_, by decide +kernel,
    by decide +kernel⟩
  intro t ht
  simp only [mem_cons, not_mem_nil, or_false] at ht
  rcases ht with rfl | rfl | rfl | rfl | rfl
  · exact hcookie (by decide +kernel) (by decide +kernel)
  · exact orderly_of_search (by decide +kernel) fun _ _ _ hev => by cases hev
  · exact hcookie (by decide +kernel) (by decide +kernel)
  · exact orderly_of_search (by decide +kernel) fun _ _ _ hev => by cases hev
  · exact orderly_of_search (by decide +kernel) fun _ _ _ hev => by cases hev

/-- A cookie that is used three times while the first worker, already killed, is still
there has two owners, and one of them holds an address that is not registered. -/
theorem reused_session_has_two_owners : ∃ P : Platform, ∃ s : @Sys P,
    Reachable (@Sys.Initial P) (@Sys.Step P) s ∧ ∃ p ∈ s.main.procs, ∃ q ∈ s.main.procs,
      p.live ∧ q.live ∧ p ≠ q ∧ p.sid = q.sid ∧ ∃ l ∈ p.leases, ∃ l' ∈ q.leases,
        l.pool = true ∧ l'.pool = true ∧ l.rip = l'.rip ∧ l ∉ s.main.ip_leases.toList := by
  have hplay : ((start {} [0]).play
      [login 0 1 "alice".toList "1".toList, connect 5 [49], cookie 0 (sid 0 1), connect 6 [49],
        cookie 2 (sid 0 1), connect 7 [49], cookie 5 (sid 0 1)]).any
      (fun s => ∃ p ∈ s.main.procs, ∃ q ∈ s.main.procs,
        p.live ∧ q.live ∧ p ≠ q ∧ p.sid = q.sid ∧ ∃ l ∈ p.leases, ∃ l' ∈ q.leases,
          l.pool = true ∧ l'.pool = true ∧ l.rip = l'.rip ∧ l ∉ s.main.ip_leases.toList) := by
    decide +kernel
  exact ⟨Platform.simple, Sys.exists_of_play (start_initial _ rfl) hplay⟩

/-- Subnets of /128 for all users but one, who gets a /64. -/
private def mixedConfig : VConfig where
  default_vhost :=
    { auth := [⟨true, AUTH_TYPE_PLAIN, some ⟨false, true⟩⟩]
      get_sup_config := true
      config.network :=
        { ipv6_network := some "2001:db8::".toList, ipv6_prefix_len := 48
          ipv6_subnet_prefix_len := 128 } }

private def mixedEnv (len : Option Nat) : MainEnv :=
  { env with
    rnd_ipv6 := fun _ => some (BitVec.ofNat 128 (2 ^ 40 + 1))
    sec := { secEnv 0 with sup_config := some { ipv6_subnet_prefix_len := len } } }

-- the address of a /128 is registered as it is, that of a /64 as the subnet, so that two
-- workers can get the same address
example : (Sys.play
    { main := { vconfig := mixedConfig }
      secmods := [{ secmod {} 0 with vconfig := mixedConfig }] }
    [login 0 1 "alice".toList "1".toList, login 0 2 "bob".toList "1".toList, connect 5 [49],
      ((cookie 0 (sid 0 1)).1, fun _ => mixedEnv none), connect 6 [49],
      ((cookie 2 (sid 0 2)).1, fun _ => mixedEnv (some 64))]).any
    (fun s => decide (∃ p ∈ s.main.procs, ∃ q ∈ s.main.procs, p.live ∧ q.live ∧ p ≠ q ∧
      ∃ l ∈ p.leases, ∃ l' ∈ q.leases, l.pool ∧ l'.pool ∧ l.rip = l'.rip)) =
    true := by
  decide +kernel

end Example
end Ocserv

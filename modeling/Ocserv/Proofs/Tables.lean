import Ocserv.Proofs.Addresses
import Ocserv.Proofs.Peers

/-!
# The tables of the workers

Main finds a worker by the address of its client, by its DTLS session or by the session
identifier of its cookie.  The hash of a worker is computed from fields of the worker that
change while it is in the tables, and it is computed again when the worker is deleted: each
change has to go together with a change of the table.

`Main.Tabled` extends the invariant of the two tables by address to all four.  It is kept by
everything that main does to a worker, and `proc_tables_consistent` reads off it what holds
after every run.
-/

namespace Ocserv

open HTable List Option Outcome Runs

section Tables

variable [Platform]

variable {m m' : Main} {p p' q : Proc} {w : Nat} {s s' : Sys}

/-! ## The invariant -/

/-- The four tables are up to date.  A worker is entered when it gets its session, at the end
of the initial status. -/
structure Main.Tabled (m : Main) : Prop extends m.Indexed where
  dtls_id : Index m.rehash_dtls_id m.proc_table.db_dtls_id
  sid : Index m.rehash_sid m.proc_table.db_sid
  mem_dtls_id : ∀ id, id ∈ m.proc_table.db_dtls_id.toList ↔ id ∈ m.proc_table.db_ip.toList
  mem_sid : ∀ id, id ∈ m.proc_table.db_sid.toList ↔ id ∈ m.proc_table.db_ip.toList
  waiting : ∀ p ∈ m.procs, p.status = .inactive → p.id ∉ m.proc_table.db_ip.toList
  next : ∀ p ∈ m.procs, p.id < m.next

namespace Main

theorem hashOf_store_congr {key : Proc → Nat} (hid : p'.id = p.id) (hkey : key p' = key p) :
    (m.store p').hashOf key = (m.store p).hashOf key := by
  funext id
  simp only [hashOf, find_proc_store, hid]
  by_cases hne : id = p.id
  · rw [if_pos hne, if_pos hne]
    cases m.find_proc id with
    | none => rfl
    | some _ => exact hkey
  · rw [if_neg hne, if_neg hne]

/-- What the hashes do not depend on may be written before or after the worker is entered. -/
theorem store_proc_table_add (hid : p'.id = p.id) (hip : p'.rehash_ip = p.rehash_ip)
    (hdtls : p'.rehash_dtls_id = p.rehash_dtls_id) (hsid : p'.rehash_sid = p.rehash_sid) :
    ((m.store p).proc_table_add p).store p' = (m.store p').proc_table_add p' := by
  have hprocs : ((m.store p).store p').procs = (m.store p').procs := by rw [store_store hid]
  have htable : ((m.store p).proc_table_add p).proc_table =
      ((m.store p').proc_table_add p').proc_table := by
    have hash : ∀ {key : Proc → Nat}, key p' = key p →
        (m.store p').hashOf key = (m.store p).hashOf key := fun hkey => hashOf_store_congr hid hkey
    change ProcTable.mk (m.proc_table.db_ip.add ((m.store p).hashOf Proc.rehash_ip) _ _) _
      (m.proc_table.db_dtls_id.add ((m.store p).hashOf Proc.rehash_dtls_id) _ _)
      (m.proc_table.db_sid.add ((m.store p).hashOf Proc.rehash_sid) _ _) _ = _
    rw [← hash hip, ← hash hdtls, ← hash hsid, ← hip, ← hdtls, ← hsid, ← hid]
    rfl
  change { (m.store p).store p' with proc_table := ((m.store p).proc_table_add p).proc_table } = _
  rw [store_store hid, htable]
  rfl

end Main

namespace Main.Tabled

/-! ## Changes of a worker -/

/-- The worker `p` becomes `q`, and the tables by address follow. -/
theorem store_table {t : ProcTable} (h : m.Tabled) (hp : p ∈ m.procs) (hid : q.id = p.id)
    (hindexed : { m.store q with proc_table := t }.Indexed)
    (hmem : ∀ id, id ∈ t.db_ip.toList ↔ id ∈ m.proc_table.db_ip.toList)
    (hdtls_id : t.db_dtls_id = m.proc_table.db_dtls_id) (hsid : t.db_sid = m.proc_table.db_sid)
    (hkeys : p.id ∈ m.proc_table.db_ip.toList →
      q.dtls_session_id = p.dtls_session_id ∧ q.sid = p.sid ∧ q.status ≠ .inactive) :
    { m.store q with proc_table := t }.Tabled where
  toIndexed := hindexed
  dtls_id := by
    change Index _ t.db_dtls_id
    rw [hdtls_id]
    refine Main.index_store h.dtls_id h.ids hp hid fun hin => ?_
    rw [Proc.rehash_dtls_id, Proc.rehash_dtls_id, (hkeys ((h.mem_dtls_id _).1 hin)).1]
  sid := by
    change Index _ t.db_sid
    rw [hsid]
    refine Main.index_store h.sid h.ids hp hid fun hin => ?_
    rw [Proc.rehash_sid, Proc.rehash_sid, (hkeys ((h.mem_sid _).1 hin)).2.1]
  mem_dtls_id := by
    intro id
    rw [hdtls_id, hmem]
    exact h.mem_dtls_id id
  mem_sid := by
    intro id
    rw [hsid, hmem]
    exact h.mem_sid id
  waiting := Main.forall_store (fun r hr hst hin => h.waiting r hr hst ((hmem _).1 hin))
    fun hst hin => (hkeys (hid ▸ (hmem _).1 hin)).2.2 hst
  next := Main.forall_store h.next (hid ▸ h.next p hp)

/-- A worker that is in the tables keeps what they depend on; one that is not may get a
session. -/
theorem store (h : m.Tabled) (hp : p ∈ m.procs) (hid : p'.id = p.id)
    (hdtls : p'.dtls_remote_addr = p.dtls_remote_addr)
    (hkeys : p.id ∈ m.proc_table.db_ip.toList → p'.remote_addr = p.remote_addr ∧
      p'.dtls_session_id = p.dtls_session_id ∧ p'.sid = p.sid ∧ p'.status ≠ .inactive) :
    (m.store p').Tabled := by
  refine h.store_table hp hid ?_ (fun _ => Iff.rfl) rfl rfl fun hin => (hkeys hin).2
  refine h.toIndexed.store hid ?_ (fun _ => Iff.rfl) ?_ (hdtls ▸ h.registered p hp)
  · refine Main.index_store h.ip h.ids hp hid fun hin => ?_
    rw [Proc.rehash_ip, Proc.rehash_ip, (hkeys hin).1]
  · exact h.lists.keep h.ids hp hid (by rw [hdtls])
      (by rw [Proc.rehash_dtls_ip, Proc.rehash_dtls_ip, hdtls])

/-- The status of a worker that is in the tables is not the initial one. -/
theorem status_ne (h : m.Tabled) (hp : p ∈ m.procs) (hin : p.id ∈ m.proc_table.db_ip.toList) :
    p.status ≠ .inactive := fun hst => h.waiting p hp hst hin

theorem update_ip (h : m.Tabled) (hp : p ∈ m.procs) (addr : SockAddr) :
    (m.proc_table_update_ip p addr).1.Tabled := by
  have hindexed := h.toIndexed.update_ip hp addr
  rcases m.proc_table_update_ip_eq p addr with
    ⟨-, -, heq⟩ | ⟨p', t, len, hp', heq, hip, hdtls_id, hsid⟩
  · rw [heq]
    exact h
  · rw [heq] at hindexed ⊢
    have hid : p'.id = p.id := hp' ▸ rfl
    have hmem : ∀ id, id ∈ t.db_ip.toList ↔ id ∈ m.proc_table.db_ip.toList := by
      rw [hip]
      exact (Main.index_update h.ip h.ids hp hid).2
    refine h.store_table hp hid hindexed hmem hdtls_id hsid fun hin => ?_
    have hst := h.status_ne hp hin
    rw [hp']
    exact ⟨rfl, rfl, hst⟩

theorem update_dtls_ip (h : m.Tabled) (hp : p ∈ m.procs)
    (hregistered : p.id ∈ m.proc_table.db_ip.toList) (addr : SockAddr) :
    (m.proc_table_update_dtls_ip p addr).1.Tabled := by
  have hst := h.status_ne hp hregistered
  have hforget := h.store_table (q := { p with dtls_remote_addr.len := 0 }) hp rfl
    (h.toIndexed.forget_dtls hp) (fun _ => Iff.rfl) rfl rfl fun _ => ⟨rfl, rfl, hst⟩
  unfold proc_table_update_dtls_ip
  extract_lets same db_dtls_ip buf p₁ src src' m₁ p₂ m₂ t
  have hp₁ : p₁ ∈ m₁.procs := Main.mem_store_self hp rfl
  split_ifs with hsame haddr hcstp
  · exact h
  · exact hforget
  · exact hforget
  · have hlearn := hforget.toIndexed.learn_dtls hp₁ rfl hregistered haddr p₂ rfl
    exact hforget.store_table (q := p₂) hp₁ rfl hlearn (fun _ => Iff.rfl) rfl rfl
      fun _ => ⟨rfl, rfl, hst⟩

/-! ## Coming and going -/

theorem add (h : m.Tabled) (hp : p ∈ m.procs) (hnew : p.id ∉ m.proc_table.db_ip.toList)
    (hst : p.status ≠ .inactive) : (m.proc_table_add p).Tabled := by
  have hnew_id : p.id ∉ m.proc_table.db_dtls_id.toList := fun hin => hnew ((h.mem_dtls_id _).1 hin)
  have hnew_sid : p.id ∉ m.proc_table.db_sid.toList := fun hin => hnew ((h.mem_sid _).1 hin)
  have hmem : ∀ id, id ∈ (m.proc_table_add p).proc_table.db_ip.toList ↔
      id ∈ p.id :: m.proc_table.db_ip.toList := fun _ => (h.ip.wf.toList_add _ _).mem_iff
  constructor
  · exact h.toIndexed.add hp hnew
  · exact Main.index_add h.dtls_id h.ids hp hnew_id
  · exact Main.index_add h.sid h.ids hp hnew_sid
  · intro id
    rw [hmem]
    refine (h.dtls_id.wf.toList_add _ _).mem_iff.trans ?_
    rw [mem_cons, mem_cons, h.mem_dtls_id]
  · intro id
    rw [hmem]
    refine (h.sid.wf.toList_add _ _).mem_iff.trans ?_
    rw [mem_cons, mem_cons, h.mem_sid]
  · intro q hq hwait hin
    rcases mem_cons.1 ((hmem _).1 hin) with hid | hin
    · exact hst (inj_on_of_nodup_map h.ids hq hp hid ▸ hwait)
    · exact h.waiting q hq hwait hin
  · exact h.next

theorem del (h : m.Tabled) (hp : p ∈ m.procs) :
    { m.proc_table_del p with procs := m.procs.filter fun q => q.id ≠ p.id }.Tabled := by
  have hmem : ∀ id, id ∈ (m.proc_table_del p).proc_table.db_ip.toList ↔
      id ∈ m.proc_table.db_ip.toList ∧ id ≠ p.id :=
    fun _ => Main.mem_index_del h.ip h.ids hp
  have hmem_id : ∀ id, id ∈ (m.proc_table_del p).proc_table.db_dtls_id.toList ↔
      id ∈ m.proc_table.db_dtls_id.toList ∧ id ≠ p.id :=
    fun _ => Main.mem_index_del h.dtls_id h.ids hp
  have hmem_sid : ∀ id, id ∈ (m.proc_table_del p).proc_table.db_sid.toList ↔
      id ∈ m.proc_table.db_sid.toList ∧ id ≠ p.id :=
    fun _ => Main.mem_index_del h.sid h.ids hp
  constructor
  · exact h.toIndexed.del hp
  · exact Main.index_procs (Main.index_del h.dtls_id h.ids hp) fun id hin =>
      Main.find_proc_remove rfl ((hmem_id id).1 hin).2
  · exact Main.index_procs (Main.index_del h.sid h.ids hp) fun id hin =>
      Main.find_proc_remove rfl ((hmem_sid id).1 hin).2
  · exact fun id => by rw [hmem_id, hmem, h.mem_dtls_id]
  · exact fun id => by rw [hmem_sid, hmem, h.mem_sid]
  · exact fun q hq hst hin => h.waiting q (mem_of_mem_filter hq) hst ((hmem _).1 hin).1
  · exact fun q hq => h.next q (mem_of_mem_filter hq)

theorem new_proc (h : m.Tabled) (pid time : Int) (remote_addr our_addr : SockAddr) :
    (m.new_proc pid time remote_addr our_addr).Tabled := by
  have hnew : ∀ q ∈ m.procs, q.id ≠ m.next := fun q hq => (h.next q hq).ne
  have hjoin := h.toIndexed.join (p := {
    id := m.next
    pid
    conn_time := time
    remote_addr := SockBuf.zero.copy remote_addr
    our_addr := SockBuf.zero.copy our_addr }) hnew rfl
  have hfind : ∀ id ∈ m.proc_table.db_ip.toList,
      (m.new_proc pid time remote_addr our_addr).find_proc id = m.find_proc id := by
    intro id hin
    obtain ⟨q, hq, rfl⟩ := mem_map.1 (h.procs id hin)
    exact Main.find_proc_join rfl (hnew q hq)
  constructor
  · exact ⟨hjoin.ids, hjoin.ip, hjoin.procs, hjoin.dtls_ip, hjoin.dtls_procs, hjoin.registered⟩
  · exact Main.index_procs h.dtls_id fun id hin => hfind id ((h.mem_dtls_id id).1 hin)
  · exact Main.index_procs h.sid fun id hin => hfind id ((h.mem_sid id).1 hin)
  · exact h.mem_dtls_id
  · exact h.mem_sid
  · intro q hq hst hin
    rcases mem_cons.1 hq with rfl | hq
    · obtain ⟨r, hr, hid⟩ := mem_map.1 (h.procs _ hin)
      exact hnew r hr hid
    · exact h.waiting q hq hst hin
  · intro q hq
    rcases mem_cons.1 hq with rfl | hq
    · exact Nat.lt_succ_self _
    · exact (h.next q hq).trans (Nat.lt_succ_self _)

/-- The rest of main does not matter. -/
theorem congr (h : m.Tabled) (hprocs : m'.procs = m.procs) (htable : m'.proc_table = m.proc_table)
    (hnext : m.next ≤ m'.next) : m'.Tabled := by
  obtain ⟨vconfig, procs, proc_table, ip_leases, script_list, next, log⟩ := m'
  obtain rfl := hprocs
  obtain rfl := htable
  exact ⟨⟨h.ids, h.ip, h.procs, h.dtls_ip, h.dtls_procs, h.registered⟩, h.dtls_id, h.sid,
    h.mem_dtls_id, h.mem_sid, h.waiting, fun p hp => (h.next p hp).trans_le hnext⟩

end Main.Tabled

/-! ## Reports of addresses -/

/-- What the tables of the workers depend on. -/
structure Proc.SameKeys (p p' : Proc) : Prop where
  id : p'.id = p.id
  remote_addr : p'.remote_addr = p.remote_addr
  dtls_remote_addr : p'.dtls_remote_addr = p.dtls_remote_addr
  dtls_session_id : p'.dtls_session_id = p.dtls_session_id
  sid : p'.sid = p.sid
  /-- a worker does not return to the initial status -/
  status : p'.status = .inactive → p.status = .inactive

namespace Main.Tabled

/-- A change of a worker that the tables do not depend on. -/
theorem keys (h : m.Tabled) (hp : p ∈ m.procs) (hkeys : p.SameKeys p') : (m.store p').Tabled :=
  h.store hp hkeys.id hkeys.dtls_remote_addr fun hin =>
    ⟨hkeys.remote_addr, hkeys.dtls_session_id, hkeys.sid,
      fun hst => h.status_ne hp hin (hkeys.status hst)⟩

end Main.Tabled

/-- The point that a handler has reached that was called in the state `m₀`: the tables are up
to date if `p` is written back. -/
structure Main.Holds (m₀ m : Main) (p : Proc) : Prop where
  mem : p.id ∈ m.procs.map Proc.id
  tabled : (m.store p).Tabled
  ids : m.procs.map Proc.id = m₀.procs.map Proc.id
  next : m.next = m₀.next

namespace Main.Holds

variable {m₀ : Main} {env : MainEnv} {msg : SessionInfoMsg}

theorem of_mem (h : m.Tabled) (hp : p ∈ m.procs) (hids : m.procs.map Proc.id = m₀.procs.map Proc.id)
    (hnext : m.next = m₀.next) : m₀.Holds m p :=
  ⟨mem_map_of_mem hp, (Main.store_self h.ids hp).symm ▸ h, hids, hnext⟩

theorem logged (h : m₀.Holds m p) (hlogged : m.Logged m') : m₀.Holds m' p := by
  have hprocs : (m'.store p).procs = (m.store p).procs := by
    simp only [Main.store, hlogged.procs]
  exact ⟨hlogged.procs ▸ h.mem, h.tabled.congr hprocs hlogged.proc_table hlogged.next.ge,
    hlogged.procs ▸ h.ids, hlogged.next.trans h.next⟩

theorem keys (h : m₀.Holds m p) (hkeys : p.SameKeys p') : m₀.Holds m p' := by
  have hp : p ∈ (m.store p).procs := Main.mem_store.2 (.inl ⟨rfl, h.mem⟩)
  have hstore := h.tabled.keys hp hkeys
  rw [Main.store_store hkeys.id] at hstore
  exact ⟨hkeys.id ▸ h.mem, hstore, h.ids, h.next⟩

/-- It does not matter whether the worker has been written back before. -/
theorem update_ip_store (m : Main) (p : Proc) (addr : SockAddr) :
    m.proc_table_update_ip p addr = (m, p) ∨
      m.proc_table_update_ip p addr = (m.store p).proc_table_update_ip p addr := by
  unfold proc_table_update_ip
  split
  · exact .inl rfl
  · extract_lets r p₁ d same buf p₂ m₁ t r' d' p₂' m₂
    have hid : p₂.id = p.id := by
      by_cases hsame : same ∧ d.2
      · rw [show p₂ = { p₁ with dtls_remote_addr.len := 0 } from if_pos hsame]
      · rw [show p₂ = p₁ from if_neg hsame]
    have hstore : m₂ = m₁ := Main.store_store hid
    exact .inr (congrArg (fun m : Main => ({ m with
      proc_table :=
        { m.proc_table with
          db_ip := if r.2 then r.1.add m.rehash_ip p₂.rehash_ip p₂.id else r.1
          db_dtls_ip := if same then d.1 else m.proc_table.db_dtls_ip } }, p₂)) hstore.symm)

theorem update_ip (h : m₀.Holds m p) (addr : SockAddr) :
    m₀.Holds (m.proc_table_update_ip p addr).1 (m.proc_table_update_ip p addr).2 := by
  have hp : p ∈ (m.store p).procs := Main.mem_store.2 (.inl ⟨rfl, h.mem⟩)
  have hids : (m.store p).procs.map Proc.id = m₀.procs.map Proc.id :=
    (Main.ids_store m p).trans h.ids
  rcases update_ip_store m p addr with heq | heq
  · rw [heq]
    exact h
  · have htabled := h.tabled.update_ip hp addr
    rw [heq]
    rcases (m.store p).proc_table_update_ip_eq p addr with
      ⟨-, -, heq⟩ | ⟨p', t, len, hp', heq, -, -, -⟩
    · rw [heq]
      exact of_mem h.tabled hp hids h.next
    · rw [heq] at htabled ⊢
      exact of_mem htabled (Main.mem_store_self hp (hp' ▸ rfl))
        ((Main.ids_store (m.store p) p').trans hids) h.next

theorem update_remote_addr (h : m₀.Holds m p) (addr : SockAddr) :
    m₀.Holds (m.update_remote_addr env p addr).1 (m.update_remote_addr env p addr).2 := by
  unfold Main.update_remote_addr
  split
  · simp only
    split
    · exact ((h.update_ip addr).logged (Main.emit_logged _ _)).keys
        ⟨rfl, rfl, rfl, rfl, rfl, fun hst => hst⟩
    · exact h.update_ip addr
  · exact h

theorem handle_session_info (h : m₀.Holds m p)
    (hrun : m.handle_session_info env p msg = .ok (m', p')) : m₀.Holds m' p' := by
  refine (handle_session_info_rule m₀.Holds (fun _ _ hemits => ?_)
    (fun _ _ addr hholds => hholds.update_remote_addr addr) fun _ p₁ addr hholds => ?_).ok hrun
  · exact (h.logged hemits.logged).keys ⟨rfl, rfl, rfl, rfl, rfl, fun hst => hst⟩
  · refine hholds.keys ?_
    unfold update_our_addr
    split
    · exact ⟨rfl, rfl, rfl, rfl, rfl, fun hst => hst⟩
    · exact ⟨rfl, rfl, rfl, rfl, rfl, fun hst => hst⟩

end Main.Holds

/-! ## Cookie requests -/

namespace Main

variable {env : MainEnv} {sec sec₁ : SecMod} {req : AuthCookieRequestMsg} {m₁ : Main}
  {p₁ old : Proc}
  {result : Int}

/-- The previous owner of a session keeps its place in the tables. -/
theorem take_over_keys (m : Main) (old p : Proc) : ∃ m₁ old₁, old.SameKeys old₁ ∧
    { m with next := m.next + 2 }.Logged m₁ ∧ (m.take_over old p).1 = m₁.store old₁ := by
  by_cases hpid : 0 < old.pid
  · rw [take_over_fst hpid]
    exact ⟨_, old.robbed m.next, ⟨rfl, rfl, rfl, rfl, rfl, fun hst => hst⟩, emit_logged _ _, rfl⟩
  · simp only [take_over, steal_ip_leases, hpid, if_false]
    exact ⟨_, { old.robbed m.next with pid_killed := old.pid_killed },
      ⟨rfl, rfl, rfl, rfl, rfl, fun hst => hst⟩, .refl _, rfl⟩

theorem proc_search_sid_mem {sid : Sid} (h : m.Tabled) (hfind : m.proc_search_sid sid = some p) :
    p ∈ m.procs ∧ p.id ∈ m.proc_table.db_ip.toList := by
  obtain ⟨id, hget, hfind⟩ := bind_eq_some_iff.1 hfind
  obtain ⟨hp, rfl⟩ := find_proc_eq_some hfind
  exact ⟨hp, (h.mem_sid _).1 (h.sid.wf.get_some hget).1⟩

theorem proc_table_update_dtls_ip_ids (m : Main) (p : Proc) (addr : SockAddr) :
    (m.proc_table_update_dtls_ip p addr).1.procs.map Proc.id = m.procs.map Proc.id ∧
      (m.proc_table_update_dtls_ip p addr).1.next = m.next := by
  unfold proc_table_update_dtls_ip
  extract_lets same db_dtls_ip buf p₁ src src' m₁ p₂ m₂ t
  have hids₁ : m₁.procs.map Proc.id = m.procs.map Proc.id := ids_store m p₁
  split_ifs with hsame haddr hcstp
  · exact ⟨rfl, rfl⟩
  · exact ⟨hids₁, rfl⟩
  · exact ⟨hids₁, rfl⟩
  · exact ⟨(ids_store m₁ p₂).trans hids₁, rfl⟩

theorem forward_client_hello_ids (m : Main) (session_id : List UInt8) (cli_addr : SockAddr) :
    (m.forward_client_hello session_id cli_addr).procs.map Proc.id = m.procs.map Proc.id ∧
      (m.forward_client_hello session_id cli_addr).next = m.next := by
  unfold forward_client_hello
  split
  · exact ⟨rfl, rfl⟩
  · split
    · exact ⟨rfl, rfl⟩
    · exact m.proc_table_update_dtls_ip_ids _ cli_addr

namespace Tabled

variable {status : PsAuth}

theorem attach (h : m.Tabled) (hp : p ∈ m.procs) (hout : p.id ∉ m.proc_table.db_ip.toList)
    (hid : q.id = p.id) (hdtls : q.dtls_remote_addr = p.dtls_remote_addr)
    (hst : status ≠ .inactive) :
    (((m.store q).proc_table_add q).store { q with status }).Tabled := by
  have hstore : (m.store { q with status }).Tabled :=
    h.store hp hid hdtls fun hin => absurd hin hout
  have hadd : ((m.store q).proc_table_add q).store { q with status } =
      (m.store { q with status }).proc_table_add { q with status } :=
    Main.store_proc_table_add rfl rfl rfl rfl
  rw [hadd]
  refine hstore.add (Main.mem_store_self hp hid) ?_ hst
  exact fun hin => hout (hid ▸ hin)

theorem cookie (h : m.Tabled) (hp : p ∈ m.procs) (hwait : p.status = .inactive) {index : Nat}
    {sid : Sid}
    (hstep : CookieStep env m sec { p with sec_mod_instance_index := index } req sid m₁ sec₁ p₁
      result) (hst : status ≠ .inactive) :
    (m₁.store { p₁ with status }).Tabled ∧
      (m₁.store { p₁ with status }).procs.map Proc.id = m.procs.map Proc.id ∧ m.next ≤ m₁.next := by
  have hout := h.waiting p hp hwait
  have hback : ∀ {p₁ : Proc}, p₁.id = p.id → p₁.dtls_remote_addr = p.dtls_remote_addr →
      (m.store { p₁ with status }).Tabled ∧ m.procs.map Proc.id = m.procs.map Proc.id ∧
        m.next ≤ m.next := fun hid hdtls =>
    ⟨h.store hp hid hdtls fun hin => absurd hin hout, rfl, Nat.le_refl _⟩
  rw [Main.ids_store]
  cases hstep with
  | refused hsame => exact hback hsame.id hsame.dtls_remote_addr
  | unopened hsame => exact hback hsame.id hsame.dtls_remote_addr
  | lost _ _ hload => exact hback hload.same.id hload.dtls_remote_addr
  | fresh _ _ hload =>
    refine ⟨h.attach hp hout hload.same.id hload.dtls_remote_addr hst, ?_, Nat.le_refl _⟩
    exact Main.ids_store m _
  | @taken _ old p₂ _ hold _ _ hload =>
    obtain ⟨hold, hin⟩ := proc_search_sid_mem h hold
    obtain ⟨m₃, old₁, hkeys, hlogged, hfst⟩ := take_over_keys m old p₂
    generalize (m.take_over old p₂).1 = m₂ at hfst
    have hnext : m.next + 2 = m₃.next := hlogged.next.symm
    have htabled : m₃.Tabled := h.congr hlogged.procs hlogged.proc_table (by omega)
    have hne : p.id ≠ old₁.id := fun heq => hout (heq.trans hkeys.id ▸ hin)
    have hold₃ : old ∈ m₃.procs := hlogged.procs.symm ▸ hold
    have hp₃ : p ∈ m₂.procs := by
      rw [hfst]
      exact Main.mem_store.2 (.inr ⟨hlogged.procs.symm ▸ hp, hne⟩)
    have hout₃ : p.id ∉ m₂.proc_table.db_ip.toList := by
      rw [hfst]
      exact fun hin => hout (hlogged.proc_table ▸ hin)
    have htabled₂ : m₂.Tabled := hfst ▸ htabled.keys hold₃ hkeys
    have hid : (p₂.heir old).id = p.id := hload.same.id
    refine ⟨htabled₂.attach hp₃ hout₃ hid hload.dtls_remote_addr hst, ?_, ?_⟩
    · refine (Main.ids_store m₂ _).trans ?_
      rw [hfst, Main.ids_store, hlogged.procs]
    · change m.next ≤ m₂.next
      rw [hfst]
      exact (Nat.le_add_right _ 2).trans hnext.le

/-! ## DTLS sessions, and the end of a worker -/

theorem forward_client_hello (h : m.Tabled) (session_id : List UInt8) (cli_addr : SockAddr) :
    (m.forward_client_hello session_id cli_addr).Tabled := by
  unfold Main.forward_client_hello
  split
  · exact h
  · next p hfind =>
    obtain ⟨id, hget, hfind⟩ := bind_eq_some_iff.1 hfind
    obtain ⟨hp, rfl⟩ := find_proc_eq_some hfind
    split
    · exact h
    · exact h.update_dtls_ip hp ((h.mem_dtls_id _).1 (h.dtls_id.wf.get_some hget).1) cli_addr

/-- A worker that is written back before it goes. -/
theorem filter_store (m : Main) (p : Proc) :
    (m.store p).procs.filter (fun q => q.id ≠ p.id) = m.procs.filter fun q => q.id != p.id := by
  simp only [Main.store]
  induction m.procs with
  | nil => rfl
  | cons q procs ih =>
    by_cases hid : q.id = p.id
    · simpa [hid] using ih
    · simpa [hid] using ih

theorem remove (h : m.Tabled) (hp : p ∈ m.procs) (hended : p.Ended p₁) :
    { m.proc_table_del p₁ with procs := m.procs.filter fun q => q.id != p₁.id }.Tabled := by
  have hkeys : p.SameKeys p₁ := hended.eq ▸ ⟨rfl, rfl, rfl, rfl, rfl, fun hst => hst⟩
  have hdel := (h.keys hp hkeys).del (Main.mem_store_self hp hkeys.id)
  exact hdel.congr (filter_store m p₁).symm rfl (Nat.le_refl _)

end Tabled
end Main

/-! ## Runs -/

/-- What concerns the tables of the workers. -/
inductive TableEvent
  /-- a client connects, and a worker is started for it -/
  | new_proc (pid time : Int) (remote_addr our_addr : SockAddr)
  /-- a worker presents a cookie, after which it has the status that `handle_cookie_auth_res`
  gives it -/
  | auth_cookie_req (w : Nat) (env : MainEnv) (req : AuthCookieRequestMsg) (status : PsAuth)
  /-- a worker reports addresses -/
  | session_info (w : Nat) (env : MainEnv) (msg : SessionInfoMsg)
  /-- a DTLS session starts -/
  | client_hello (session_id : List UInt8) (cli_addr : SockAddr)
  /-- main writes something else into a worker -/
  | change (p : Proc)
  /-- a worker is removed -/
  | remove (w : Nat) (env : MainEnv) (flags : RProc)

omit [Platform] in
instance : Decidable (p.SameKeys p') :=
  decidable_of_iff (p'.id = p.id ∧ p'.remote_addr = p.remote_addr ∧
    p'.dtls_remote_addr = p.dtls_remote_addr ∧ p'.dtls_session_id = p.dtls_session_id ∧
    p'.sid = p.sid ∧ (p'.status = .inactive → p.status = .inactive))
    ⟨fun ⟨h₁, h₂, h₃, h₄, h₅, h₆⟩ => ⟨h₁, h₂, h₃, h₄, h₅, h₆⟩,
      fun ⟨h₁, h₂, h₃, h₄, h₅, h₆⟩ => ⟨h₁, h₂, h₃, h₄, h₅, h₆⟩⟩

namespace Sys

/-- The cookie request of the worker `p`, which has the given status afterwards. -/
def present_cookie (s : Sys) (p : Proc) (env : MainEnv) (req : AuthCookieRequestMsg)
    (status : PsAuth) : Option Sys :=
  (Sid.ofBytes? req.cookie).bind fun sid =>
    let index := sec_mod_instance_index_get sid
    s.secmods[index]?.map fun sec =>
      let r := s.main.handle_auth_cookie_req env sec { p with sec_mod_instance_index := index } req
      { main := r.1.store { r.2.2.1 with status }, secmods := s.secmods.set index r.2.1 }

/-- The state after an event; none, if the event cannot happen. -/
def table_step (s : Sys) : TableEvent → Option Sys
  | .new_proc pid time remote_addr our_addr =>
    some { s with main := s.main.new_proc pid time remote_addr our_addr }
  | .auth_cookie_req w env req status =>
    (s.main.find_proc w).bind fun p =>
      if p.status = .inactive ∧ status ≠ .inactive then s.present_cookie p env req status else none
  | .session_info w env msg =>
    (s.main.find_proc w).bind fun p =>
      if msg.Ok then
        (s.main.handle_session_info env p msg).toOption.map fun r =>
          { s with main := r.1.store r.2 }
      else none
  | .client_hello session_id cli_addr =>
    some { s with main := s.main.forward_client_hello session_id cli_addr }
  | .change p =>
    (s.main.find_proc p.id).bind fun q => if q.SameKeys p then some (s.put p) else none
  | .remove w env flags =>
    (s.main.find_proc w).bind fun p => (s.remove_proc env p flags).toOption

end Sys

/-- The event takes the state `s` to `s'`. -/
def TableStep (s : Sys) (e : TableEvent) (s' : Sys) : Prop := s.table_step e = some s'

/-- There are no workers yet, and the tables are those of `proc_table_init`. -/
def Sys.Unpeered (s : Sys) : Prop := s.main.Unpeered

/-- What an event does to the list of the workers. -/
inductive TableEvent.Ids (m m' : Main) : TableEvent → Prop
  | join {pid time : Int} {remote_addr our_addr : SockAddr} :
      m'.procs.map Proc.id = m.next :: m.procs.map Proc.id → m'.next = m.next + 1 →
      Ids m m' (.new_proc pid time remote_addr our_addr)
  | same {e : TableEvent} : m'.procs.map Proc.id = m.procs.map Proc.id → m.next ≤ m'.next →
      (∀ w env flags, e ≠ .remove w env flags) → Ids m m' e
  | leave {w : Nat} {env : MainEnv} {flags : RProc} : w ∈ m.procs.map Proc.id →
      m'.procs.map Proc.id = (m.procs.map Proc.id).filter (· != w) → m'.next = m.next →
      Ids m m' (.remove w env flags)

namespace Main.Tabled

theorem init (h : s.Unpeered) : s.main.Tabled := by
  have hindexed := Indexed.init h
  obtain ⟨hprocs, htable⟩ := h
  refine ⟨hindexed, ?_, ?_, ?_, ?_, ?_, ?_⟩
  all_goals simp [hprocs, htable]
  · exact .init
  · exact .init

theorem step {e : TableEvent} (h : s.main.Tabled) (hstep : TableStep s e s') :
    s'.main.Tabled ∧ e.Ids s.main s'.main := by
  cases e with
  | new_proc pid time remote_addr our_addr =>
    cases hstep
    exact ⟨h.new_proc pid time remote_addr our_addr, .join rfl rfl⟩
  | auth_cookie_req w env req status =>
    simp only [TableStep, Sys.table_step, Option.bind_eq_some_iff, Option.ite_none_right_eq_some,
      Sys.present_cookie, Option.map_eq_some_iff] at hstep
    obtain ⟨p, hfind, ⟨hwait, hst⟩, sid, hsid, sec, -, rfl⟩ := hstep
    obtain ⟨htabled, hids, hnext⟩ :=
      h.cookie (find_proc_eq_some hfind).1 hwait (handle_auth_cookie_req_step hsid rfl) hst
    exact ⟨htabled, .same hids hnext (by simp)⟩
  | session_info w env msg =>
    simp only [TableStep, Sys.table_step, Option.bind_eq_some_iff, Option.ite_none_right_eq_some,
      Option.map_eq_some_iff] at hstep
    obtain ⟨p, hfind, -, r, hrun, rfl⟩ := hstep
    have hholds := (Main.Holds.of_mem h (find_proc_eq_some hfind).1 rfl rfl).handle_session_info
      (toOption_eq_some.1 hrun)
    refine ⟨hholds.tabled, .same ?_ hholds.next.ge (by simp)⟩
    exact (Main.ids_store r.1 r.2).trans hholds.ids
  | client_hello session_id cli_addr =>
    cases hstep
    obtain ⟨hids, hnext⟩ := s.main.forward_client_hello_ids session_id cli_addr
    exact ⟨h.forward_client_hello session_id cli_addr, .same hids hnext.ge (by simp)⟩
  | change p =>
    simp only [TableStep, Sys.table_step, Option.bind_eq_some_iff, Option.ite_none_right_eq_some,
      Option.some.injEq] at hstep
    obtain ⟨q, hfind, hkeys, rfl⟩ := hstep
    refine ⟨h.keys (find_proc_eq_some hfind).1 hkeys, .same ?_ (Nat.le_refl _) (by simp)⟩
    exact Main.ids_store s.main p
  | remove w env flags =>
    simp only [TableStep, Sys.table_step, Option.bind_eq_some_iff] at hstep
    obtain ⟨p, hfind, hrun⟩ := hstep
    obtain ⟨hp, rfl⟩ := find_proc_eq_some hfind
    obtain ⟨m₁, p₁, hended, hlogged₁, -, -, hmain⟩ := remove_proc_main (toOption_eq_some.1 hrun)
    have hlogged := hlogged₁.trans (remove_iroutes_emits m₁ p₁).logged
    have htabled := (h.congr hlogged.procs hlogged.proc_table hlogged.next.ge).remove
      (hlogged.procs.symm ▸ hp) hended
    rw [hmain]
    refine ⟨htabled.congr rfl rfl (Nat.le_refl _), .leave (List.mem_map_of_mem hp) ?_ hlogged.next⟩
    rw [← hended.same.id, List.filter_map, ← hlogged.procs]
    rfl

theorem run {trace : List (Transition Sys TableEvent)}
    (hrun : Run Sys.Unpeered TableStep trace s) : s.main.Tabled := by
  have hinit : ∀ s : Sys, s.Unpeered → s.main.Tabled := fun s h => init h
  exact hrun.invariant hinit fun s e s' h hstep => (h.step hstep).1

end Main.Tabled

/-- The identity `w` is that of a worker that has been removed. -/
structure Sys.Gone (w : Nat) (s : Sys) : Prop where
  tabled : s.main.Tabled
  lt : w < s.main.next
  out : w ∉ s.main.procs.map Proc.id

/-- A worker that is gone does not come back, because identities are used once. -/
theorem Sys.Gone.step {e : TableEvent} (h : s.Gone w) (hstep : TableStep s e s') : s'.Gone w := by
  obtain ⟨htabled, hids⟩ := h.tabled.step hstep
  cases hids with
  | join hids hnext =>
    refine ⟨htabled, hnext ▸ h.lt.trans (Nat.lt_succ_self _), ?_⟩
    rw [hids]
    exact not_mem_cons_of_ne_of_not_mem h.lt.ne h.out
  | same hids hnext _ => exact ⟨htabled, h.lt.trans_le hnext, hids ▸ h.out⟩
  | leave _ hids hnext =>
    refine ⟨htabled, hnext ▸ h.lt, ?_⟩
    rw [hids]
    exact fun hin => h.out (mem_of_mem_filter hin)

theorem Sys.Gone.of_remove {env : MainEnv} {flags : RProc} (h : s.main.Tabled)
    (hstep : TableStep s (.remove w env flags) s') : s'.Gone w := by
  obtain ⟨htabled, hids⟩ := h.step hstep
  cases hids with
  | same _ _ hne => exact absurd rfl (hne w env flags)
  | leave hin hids hnext =>
    obtain ⟨p, hp, rfl⟩ := mem_map.1 hin
    refine ⟨htabled, hnext ▸ h.next p hp, ?_⟩
    rw [hids]
    simp

theorem gone_of_removed {trace : List (Transition Sys TableEvent)} {env : MainEnv} {flags : RProc}
    (hrun : Run Sys.Unpeered TableStep trace s) {t : Transition Sys TableEvent} (ht : t ∈ trace)
    (hremove : t.label = .remove w env flags) : s.Gone w := by
  have hsince :
      Since (fun _ t => t.label = TableEvent.remove w env flags) (fun _ => True) trace := by
    obtain ⟨later, earlier, rfl⟩ := append_of_mem ht
    exact ⟨later, t, earlier, rfl, hremove, fun _ _ => trivial⟩
  refine hrun.of_since ?_ (fun s e s' h hstep _ => h.step hstep) hsince
  rintro trace s e s' hrun hstep rfl
  exact .of_remove (Main.Tabled.run hrun) hstep

/-! ## The result -/

/-- Each entry of the table is a living worker, which is there once, and under the hash that it
has now: a search with that hash finds it. -/
structure Main.Consistent (m : Main) (key : Proc → Nat) (t : Table Nat) : Prop where
  alive : ∀ id ∈ t.toList, ∃ p ∈ m.procs, p.id = id
  once : t.toList.Nodup
  wf : t.WF (m.hashOf key)
  found : ∀ p ∈ m.procs, p.id ∈ t.toList → t.get (key p) (· == p.id) = some p.id

theorem Main.consistent_of_index {key : Proc → Nat} {t : Table Nat}
    (hids : (m.procs.map Proc.id).Nodup) (hi : Index (m.hashOf key) t)
    (halive : ∀ id ∈ t.toList, id ∈ m.procs.map Proc.id) : m.Consistent key t := by
  refine ⟨fun id hin => mem_map.1 (halive id hin), hi.nodup, hi.wf, fun p hp hin => ?_⟩
  rw [← Main.hashOf_of_mem key hids hp]
  exact hi.get_self hin

/-- After every run the entries of all four tables are living workers, each of them once and
under its present hash; a worker is in the table of the addresses for DTLS exactly if it has
one; and a worker that has been removed is in no table. -/
theorem proc_tables_consistent {trace : List (Transition Sys TableEvent)}
    (hrun : Run Sys.Unpeered TableStep trace s) :
    let t := s.main.proc_table
    s.main.Consistent Proc.rehash_ip t.db_ip ∧ s.main.Consistent Proc.rehash_dtls_ip t.db_dtls_ip ∧
      s.main.Consistent Proc.rehash_dtls_id t.db_dtls_id ∧
      s.main.Consistent Proc.rehash_sid t.db_sid ∧
      (∀ p ∈ s.main.procs, p.id ∈ t.db_dtls_ip.toList ↔ p.dtls_remote_addr.len ≠ 0) ∧
      ∀ r ∈ trace, ∀ w env flags, r.label = .remove w env flags →
        w ∉ t.db_ip.toList ∧ w ∉ t.db_dtls_ip.toList ∧ w ∉ t.db_dtls_id.toList ∧
          w ∉ t.db_sid.toList := by
  intro t
  have h := Main.Tabled.run hrun
  have halive_ip : ∀ id ∈ t.db_ip.toList, id ∈ s.main.procs.map Proc.id := h.procs
  have halive_dtls : ∀ id ∈ t.db_dtls_ip.toList, id ∈ s.main.procs.map Proc.id := fun id hin => by
    obtain ⟨p, hp, hid, -⟩ := (h.dtls_procs id).1 hin
    exact hid ▸ mem_map_of_mem hp
  have halive_id : ∀ id ∈ t.db_dtls_id.toList, id ∈ s.main.procs.map Proc.id :=
    fun id hin => halive_ip id ((h.mem_dtls_id id).1 hin)
  have halive_sid : ∀ id ∈ t.db_sid.toList, id ∈ s.main.procs.map Proc.id :=
    fun id hin => halive_ip id ((h.mem_sid id).1 hin)
  refine ⟨Main.consistent_of_index h.ids h.ip halive_ip,
    Main.consistent_of_index h.ids h.dtls_ip halive_dtls,
    Main.consistent_of_index h.ids h.dtls_id halive_id,
    Main.consistent_of_index h.ids h.sid halive_sid, ?_, ?_⟩
  · exact fun p hp => (h.mem_dtls hp).trans Nat.pos_iff_ne_zero
  · intro r hr w env flags hlabel
    have hgone := (gone_of_removed hrun hr hlabel).out
    exact ⟨fun hin => hgone (halive_ip w hin), fun hin => hgone (halive_dtls w hin),
      fun hin => hgone (halive_id w hin), fun hin => hgone (halive_sid w hin)⟩

end Tables

section Example

local instance tablesPlatform : Platform := Platform.simple

/-- An address of 192.0.2.`host`. -/
private def clientAt (host : UInt8) : SockAddr :=
  [2, 0, 0, 9, 192, 0, 2, host, 0, 0, 0, 0, 0, 0, 0, 0]

/-- A user has logged in. -/
private def tablesStart : Sys where
  main := { vconfig := Sample.vconfig {} }
  secmods := [(Sample.lone.exec (Sample.secEnv 1)
    (Sample.signIn "u".toList "192.0.2.1".toList 1)).1]

private theorem tablesStart_unpeered : tablesStart.Unpeered := ⟨rfl, rfl⟩

/-- The session of the user starts, and later its DTLS channel, from another address; a second
worker comes and goes. -/
private def tablesSession : List TableEvent :=
  [.new_proc 7 0 (clientAt 1) [], .auth_cookie_req 0 Sample.env ⟨(Sample.sid 0 1).1, none⟩
    .completed,
    .new_proc 8 0 (clientAt 1) [], .client_hello [] (clientAt 2),
    .remove 1 Sample.env ⟨true, false⟩]

/-- The worker of the session is in the table of the addresses for DTLS. -/
theorem proc_tables_consistent_session : ∃ P : Platform, ∃ s : @Sys P,
    s.main.proc_table.db_dtls_ip.toList = [0] ∧
      s.main.Consistent Proc.rehash_dtls_ip s.main.proc_table.db_dtls_ip := by
  obtain ⟨s, ⟨trace, hrun⟩, hdtls⟩ := exists_reachable_of_exec (f := Sys.table_step)
    (P := fun s => s.main.proc_table.db_dtls_ip.toList = [0]) tablesSession
    tablesStart_unpeered (by decide +kernel)
  exact ⟨tablesPlatform, s, hdtls, (proc_tables_consistent hrun).2.1⟩

end Example
end Ocserv

import Ocserv.Lib.Runs
import Ocserv.Main.Peers
import Ocserv.Proofs.System

/-!
# The worker of an address

`proc_search_single_ip` is meant to find a worker only if no other one has the address: a
packet that is matched by its address alone may belong to any client behind it.  It counts
the matches in the comparison, but the search ends at the first match, so that the count is
never more than one.

Both tables are up to date in every run of the functions that change them, and so a worker
is found whenever there is one; `single_ip_correct` says that the result is the right one
exactly if at most one worker has the address.
-/

namespace Ocserv

open HTable List Option Runs

section Peers

variable [Platform]

variable {m m' : Main} {p q : Proc} {id : Nat} {addr : SockAddr}

/-! ## Tables of workers -/

namespace Main

variable {key : Proc → Nat} {t : Table Nat} {p' : Proc}

theorem index_del_snd (hi : Index (m.hashOf key) t) (hids : (m.procs.map Proc.id).Nodup)
    (hp : p ∈ m.procs) : (t.del (key p) (· == p.id)).2 = true ↔ p.id ∈ t.toList := by
  rw [← hashOf_of_mem key hids hp]
  exact hi.del_snd

/-- The worker changes while it is out of the table, and is entered again if it was there. -/
theorem index_update (hi : Index (m.hashOf key) t) (hids : (m.procs.map Proc.id).Nodup)
    (hp : p ∈ m.procs) (hid : p'.id = p.id) :
    let r := t.del (key p) (· == p.id)
    let t' := if r.2 then r.1.add ((m.store p').hashOf key) (key p') p'.id else r.1
    Index ((m.store p').hashOf key) t' ∧ ∀ id, id ∈ t'.toList ↔ id ∈ t.toList := by
  intro r t'
  have hmem : ∀ id, id ∈ r.1.toList ↔ id ∈ t.toList ∧ id ≠ p.id :=
    fun _ => mem_index_del hi hids hp
  have hdel : Index ((m.store p').hashOf key) r.1 :=
    index_store_absent (index_del hi hids hp) fun h => ((hmem _).1 h).2 hid
  by_cases hr : r.2
  · have hin : p.id ∈ t.toList := (index_del_snd hi hids hp).1 hr
    have hself : (m.store p').hashOf key p'.id = key p' :=
      hashOf_store_self (hid ▸ mem_map_of_mem hp)
    have ht' : t' = r.1.add ((m.store p').hashOf key) ((m.store p').hashOf key p'.id) p'.id := by
      rw [hself]
      exact if_pos hr
    rw [ht']
    refine ⟨hdel.add fun h => ((hmem _).1 h).2 hid, fun id => ?_⟩
    rw [(hdel.wf.toList_add _ _).mem_iff, mem_cons, hmem, hid]
    by_cases hne : id = p.id
    · exact iff_of_true (.inl hne) (hne ▸ hin)
    · exact (or_iff_right hne).trans (and_iff_left hne)
  · have hout : p.id ∉ t.toList := fun hin => hr ((index_del_snd hi hids hp).2 hin)
    have ht' : t' = r.1 := if_neg hr
    rw [ht']
    refine ⟨hdel, fun id => (hmem id).trans (and_iff_left_of_imp fun hin hne => ?_)⟩
    exact hout (hne ▸ hin)

end Main

/-! ## The tables -/

/-- The tables of the addresses are up to date.  Workers are registered in the first one, and
are in the second one if they have an address for DTLS. -/
structure Main.Indexed (m : Main) : Prop where
  ids : (m.procs.map Proc.id).Nodup
  ip : Index m.rehash_ip m.proc_table.db_ip
  procs : ∀ id ∈ m.proc_table.db_ip.toList, id ∈ m.procs.map Proc.id
  dtls_ip : Index m.rehash_dtls_ip m.proc_table.db_dtls_ip
  dtls_procs : ∀ id, id ∈ m.proc_table.db_dtls_ip.toList ↔
    ∃ p ∈ m.procs, p.id = id ∧ 0 < p.dtls_remote_addr.len
  registered : ∀ p ∈ m.procs, 0 < p.dtls_remote_addr.len → p.id ∈ m.proc_table.db_ip.toList

namespace Main.Indexed

theorem lists (h : m.Indexed) :
    m.Lists Proc.rehash_dtls_ip (0 < ·.dtls_remote_addr.len) m.proc_table.db_dtls_ip :=
  ⟨h.dtls_ip, h.dtls_procs⟩

theorem mem_dtls (h : m.Indexed) (hp : p ∈ m.procs) :
    p.id ∈ m.proc_table.db_dtls_ip.toList ↔ 0 < p.dtls_remote_addr.len :=
  h.lists.mem_self h.ids hp

/-- The worker `p` becomes `p'`, and the tables follow. -/
theorem store {p' : Proc} {t : ProcTable} (h : m.Indexed) (hid : p'.id = p.id)
    (hip : Index (m.store p').rehash_ip t.db_ip)
    (hmem : ∀ id, id ∈ t.db_ip.toList ↔ id ∈ m.proc_table.db_ip.toList)
    (hdtls : (m.store p').Lists Proc.rehash_dtls_ip (0 < ·.dtls_remote_addr.len) t.db_dtls_ip)
    (hregistered : 0 < p'.dtls_remote_addr.len → p.id ∈ m.proc_table.db_ip.toList) :
    { m.store p' with proc_table := t }.Indexed where
  ids := (Main.ids_store m p').symm ▸ h.ids
  ip := hip
  procs := fun id hin => (Main.ids_store m p').symm ▸ h.procs id ((hmem id).1 hin)
  dtls_ip := hdtls.index
  dtls_procs := hdtls.mem
  registered := Main.forall_store (fun q hq hlen => (hmem _).2 (h.registered q hq hlen))
    fun hlen => (hmem _).2 (hid ▸ hregistered hlen)

/-! ## Changes of the tables -/

theorem update_ip (h : m.Indexed) (hp : p ∈ m.procs) (addr : SockAddr) :
    (m.proc_table_update_ip p addr).1.Indexed := by
  unfold proc_table_update_ip
  split
  · exact h
  · extract_lets r p₁ d same buf p₂ m₁ t
    have hdel : d.2 = true ↔ 0 < p.dtls_remote_addr.len :=
      (Main.index_del_snd h.dtls_ip h.ids hp).trans (h.mem_dtls hp)
    by_cases hsame : same
    · have hp₂ : p₂.id = p.id ∧ p₂.dtls_remote_addr.len = 0 := by
        by_cases hlen : d.2
        · have hp₂ : p₂ = { p₁ with dtls_remote_addr.len := 0 } := if_pos ⟨hsame, hlen⟩
          exact hp₂ ▸ ⟨rfl, rfl⟩
        · have hp₂ : p₂ = p₁ := if_neg fun h => hlen h.2
          exact hp₂ ▸ ⟨rfl, Nat.eq_zero_of_not_pos fun hpos => hlen (hdel.2 hpos)⟩
      obtain ⟨hip, hmem⟩ := Main.index_update h.ip h.ids hp hp₂.1
      refine h.store hp₂.1 hip hmem ?_ fun hpos => absurd hp₂.2 hpos.ne'
      rw [if_pos hsame]
      exact h.lists.leave (p := p) h.ids hp hp₂.1 hp₂.2.not_gt
    · have hp₂ : p₂ = p₁ := if_neg fun h => hsame h.1
      have hid : p₂.id = p.id := hp₂ ▸ rfl
      obtain ⟨hip, hmem⟩ := Main.index_update h.ip h.ids hp hid
      refine h.store hid hip hmem ?_ (by rw [hp₂]; exact h.registered p hp)
      rw [if_neg hsame]
      exact h.lists.keep h.ids hp hid (hp₂ ▸ Iff.rfl) (hp₂ ▸ rfl)

/-- The worker loses its address for DTLS, which is only looked for if there is one. -/
theorem forget_dtls (h : m.Indexed) (hp : p ∈ m.procs) :
    { m.store { p with dtls_remote_addr.len := 0 } with
      proc_table := { m.proc_table with
        db_dtls_ip :=
          if p.dtls_remote_addr.len ≠ 0 then
            (m.proc_table.db_dtls_ip.del p.rehash_dtls_ip (· == p.id)).1
          else m.proc_table.db_dtls_ip } }.Indexed := by
  refine h.store rfl (Main.index_store h.ip h.ids hp rfl fun _ => rfl) (fun _ => Iff.rfl) ?_
    fun hpos => absurd hpos (Nat.lt_irrefl 0)
  by_cases hlen : p.dtls_remote_addr.len ≠ 0
  · rw [if_pos hlen]
    exact h.lists.leave h.ids hp rfl (Nat.lt_irrefl 0)
  · rw [if_neg hlen]
    exact h.lists.keep h.ids hp rfl (by rw [not_not.1 hlen]) (by rw [← not_not.1 hlen])

/-- The worker gets an address for DTLS. -/
theorem learn_dtls (h : m.Indexed) (hp : p ∈ m.procs) (hnone : p.dtls_remote_addr.len = 0)
    (hregistered : p.id ∈ m.proc_table.db_ip.toList) (haddr : addr.length ≠ 0) (p' : Proc)
    (hp' : p' = { p with dtls_remote_addr := p.dtls_remote_addr.copy addr }) :
    { m.store p' with
      proc_table := { m.proc_table with
        db_dtls_ip :=
          m.proc_table.db_dtls_ip.add (m.store p').rehash_dtls_ip p'.rehash_dtls_ip
            p'.id } }.Indexed := by
  have hid : p'.id = p.id := hp' ▸ rfl
  have hlen : 0 < p'.dtls_remote_addr.len := by
    rw [hp']
    exact Nat.pos_of_ne_zero haddr
  refine h.store hid (Main.index_store h.ip h.ids hp hid fun _ => hp' ▸ rfl) (fun _ => Iff.rfl)
    ?_ fun _ => hregistered
  exact h.lists.enter h.ids hp hid hnone.not_gt hlen

theorem update_dtls_ip (h : m.Indexed) (hp : p ∈ m.procs)
    (hregistered : p.id ∈ m.proc_table.db_ip.toList) (addr : SockAddr) :
    (m.proc_table_update_dtls_ip p addr).1.Indexed := by
  have hforget := h.forget_dtls hp
  unfold proc_table_update_dtls_ip
  extract_lets same db_dtls_ip buf p₁ src src' m₁ p₂ m₂ t
  have hp₁ : p₁ ∈ m₁.procs := Main.mem_store_self hp rfl
  split_ifs with hsame haddr hcstp
  · exact h
  · exact hforget
  · exact hforget
  · exact hforget.learn_dtls hp₁ rfl hregistered haddr p₂ rfl

theorem add (h : m.Indexed) (hp : p ∈ m.procs) (hnew : p.id ∉ m.proc_table.db_ip.toList) :
    (m.proc_table_add p).Indexed := by
  have hmem : ∀ id, id ∈ (m.proc_table_add p).proc_table.db_ip.toList ↔
      id = p.id ∨ id ∈ m.proc_table.db_ip.toList := fun id => by
    rw [← mem_cons]
    exact (h.ip.wf.toList_add _ _).mem_iff
  constructor
  · exact h.ids
  · exact Main.index_add h.ip h.ids hp hnew
  · intro id hin
    rcases (hmem id).1 hin with rfl | hin
    · exact mem_map_of_mem hp
    · exact h.procs id hin
  · exact h.dtls_ip
  · exact h.dtls_procs
  · exact fun q hq hlen => (hmem _).2 (.inr (h.registered q hq hlen))

/-- The table without a worker that goes: its address is only looked for if there is one. -/
theorem del_dtls (h : m.Indexed) (hp : p ∈ m.procs) :
    let t := (m.proc_table_del p).proc_table.db_dtls_ip
    Index m.rehash_dtls_ip t ∧
      ∀ id, id ∈ t.toList ↔ id ∈ m.proc_table.db_dtls_ip.toList ∧ id ≠ p.id := by
  by_cases hlen : 0 < p.dtls_remote_addr.len
  · simp only [Main.proc_table_del, if_pos hlen]
    exact ⟨Main.index_del h.dtls_ip h.ids hp, fun _ => Main.mem_index_del h.dtls_ip h.ids hp⟩
  · simp only [Main.proc_table_del, if_neg hlen]
    refine ⟨h.dtls_ip, fun id => (and_iff_left_of_imp fun hin hid => ?_).symm⟩
    exact hlen ((h.mem_dtls hp).1 (hid ▸ hin))

theorem del (h : m.Indexed) (hp : p ∈ m.procs) :
    { m.proc_table_del p with procs := m.procs.filter fun q => q.id ≠ p.id }.Indexed := by
  have hmem : ∀ id, id ∈ (m.proc_table_del p).proc_table.db_ip.toList ↔
      id ∈ m.proc_table.db_ip.toList ∧ id ≠ p.id :=
    fun _ => Main.mem_index_del h.ip h.ids hp
  obtain ⟨hindex, hdtls⟩ := h.del_dtls hp
  have hlists : Main.Lists Proc.rehash_dtls_ip (0 < ·.dtls_remote_addr.len)
      { m.proc_table_del p with procs := m.procs.filter fun q => q.id ≠ p.id } _ :=
    h.lists.remove hindex hdtls rfl
  constructor
  · exact h.ids.sublist (filter_sublist.map _)
  · exact Main.index_procs (Main.index_del h.ip h.ids hp) fun id hin =>
      Main.find_proc_remove rfl ((hmem id).1 hin).2
  · intro id hin
    obtain ⟨hin, hne⟩ := (hmem id).1 hin
    obtain ⟨q, hq, rfl⟩ := mem_map.1 (h.procs id hin)
    exact mem_map_of_mem (mem_filter.2 ⟨hq, decide_eq_true hne⟩)
  · exact hlists.index
  · exact hlists.mem
  · intro q hq hlen
    obtain ⟨hq, hne⟩ := mem_filter.1 hq
    exact (hmem _).2 ⟨h.registered q hq hlen, of_decide_eq_true hne⟩

theorem join (h : m.Indexed) (hnew : ∀ q ∈ m.procs, q.id ≠ p.id)
    (hnone : p.dtls_remote_addr.len = 0) : { m with procs := p :: m.procs }.Indexed := by
  have hdtls : Main.Lists _ _ { m with procs := p :: m.procs } _ :=
    h.lists.join rfl hnew hnone.not_gt
  constructor
  · exact nodup_cons.2 ⟨fun hin => by
      obtain ⟨q, hq, hid⟩ := mem_map.1 hin
      exact hnew q hq hid, h.ids⟩
  · refine Main.index_procs h.ip fun id hin => Main.find_proc_join rfl ?_
    obtain ⟨q, hq, rfl⟩ := mem_map.1 (h.procs id hin)
    exact hnew q hq
  · exact fun id hin => mem_cons_of_mem _ (h.procs id hin)
  · exact hdtls.index
  · exact hdtls.mem
  · exact forall_mem_cons.2 ⟨fun hlen => absurd hnone hlen.ne', h.registered⟩

end Main.Indexed

/-! ## Runs -/

/-- What changes the tables of the addresses. -/
inductive PeerEvent
  /-- a worker appears, with any address for CSTP and none for DTLS -/
  | join (p : Proc)
  /-- the session of a worker starts -/
  | add (w : Nat)
  /-- a worker reports the address of its client -/
  | update_ip (w : Nat) (addr : SockAddr)
  /-- a DTLS session of a registered worker starts from an address -/
  | update_dtls_ip (w : Nat) (addr : SockAddr)
  /-- a worker goes -/
  | remove (w : Nat)

/-- The state after an event; none, if the event cannot happen. -/
def Main.peer_step (m : Main) : PeerEvent → Option Main
  | .join p =>
    if p.dtls_remote_addr.len = 0 ∧ ∀ q ∈ m.procs, q.id ≠ p.id then
      some { m with procs := p :: m.procs }
    else none
  | .add w =>
    (m.find_proc w).bind fun p =>
      if w ∈ m.proc_table.db_ip.toList then none else some (m.proc_table_add p)
  | .update_ip w addr => (m.find_proc w).map fun p => (m.proc_table_update_ip p addr).1
  | .update_dtls_ip w addr =>
    (m.find_proc w).bind fun p =>
      if w ∈ m.proc_table.db_ip.toList then some (m.proc_table_update_dtls_ip p addr).1 else none
  | .remove w =>
    (m.find_proc w).map fun p =>
      { m.proc_table_del p with procs := m.procs.filter fun q => q.id ≠ w }

/-- There are no workers yet, and the tables are those of `proc_table_init`. -/
def Main.Unpeered (m : Main) : Prop := m.procs = [] ∧ m.proc_table = {}

/-- The event takes the state `m` to `m'`. -/
def PeerStep (m : Main) (ev : PeerEvent) (m' : Main) : Prop := m.peer_step ev = some m'

namespace Main.Indexed

theorem init (h : m.Unpeered) : m.Indexed := by
  obtain ⟨hprocs, htable⟩ := h
  constructor
  all_goals simp only [hprocs, htable]
  · exact nodup_nil
  · exact .init
  · exact fun id hin => hin
  · exact .init
  · rintro id
    exact iff_of_false not_mem_nil (by simp)
  · simp

theorem step {ev : PeerEvent} (h : m.Indexed) (hstep : PeerStep m ev m') : m'.Indexed := by
  cases ev with
  | join p =>
    simp only [PeerStep, peer_step, ite_none_right_eq_some, some.injEq] at hstep
    obtain ⟨⟨hnone, hnew⟩, rfl⟩ := hstep
    exact h.join hnew hnone
  | add w =>
    simp only [PeerStep, peer_step, bind_eq_some_iff, ite_none_left_eq_some,
      some.injEq] at hstep
    obtain ⟨p, hfind, hnew, rfl⟩ := hstep
    obtain ⟨hp, rfl⟩ := Main.find_proc_eq_some hfind
    exact h.add hp hnew
  | update_ip w addr =>
    simp only [PeerStep, peer_step, map_eq_some_iff] at hstep
    obtain ⟨p, hfind, rfl⟩ := hstep
    exact h.update_ip (Main.find_proc_eq_some hfind).1 addr
  | update_dtls_ip w addr =>
    simp only [PeerStep, peer_step, bind_eq_some_iff, ite_none_right_eq_some,
      some.injEq] at hstep
    obtain ⟨p, hfind, hregistered, rfl⟩ := hstep
    obtain ⟨hp, rfl⟩ := Main.find_proc_eq_some hfind
    exact h.update_dtls_ip hp hregistered addr
  | remove w =>
    simp only [PeerStep, peer_step, map_eq_some_iff] at hstep
    obtain ⟨p, hfind, rfl⟩ := hstep
    obtain ⟨hp, rfl⟩ := Main.find_proc_eq_some hfind
    exact h.del hp

theorem reachable (h : Reachable Main.Unpeered PeerStep m) : m.Indexed :=
  h.invariant (fun _ hinit => init hinit) fun _ _ _ hm hstep => hm.step hstep

end Main.Indexed

/-! ## The search -/

/-- The address is that of the DTLS or of the CSTP channel of the worker. -/
def Proc.HasPeer (p : Proc) (addr : SockAddr) : Prop :=
  addr.length ≠ 0 ∧
    (p.dtls_remote_addr.len = addr.length ∧
        p.dtls_remote_addr.generic = sa_in_generic addr addr.length ∨
      p.remote_addr.len = addr.length ∧ p.remote_addr.generic = sa_in_generic addr addr.length)

instance : Decidable (p.HasPeer addr) := inferInstanceAs (Decidable (_ ∧ _))

namespace Main

omit [Platform] in
theorem local_ip_cmp_eq (found_ips : Nat) :
    local_ip_cmp addr p found_ips =
      if p.HasPeer addr then (true, found_ips + 1) else (false, found_ips) := by
  unfold local_ip_cmp
  split_ifs with haddr hpeer hdtls hpeer hcstp hpeer hpeer
  · exact absurd haddr hpeer.1
  · rfl
  · rfl
  · exact absurd ⟨haddr, .inl hdtls⟩ hpeer
  · rfl
  · exact absurd ⟨haddr, .inr hcstp⟩ hpeer
  · exact absurd hpeer.2 (not_or.2 ⟨hdtls, hcstp⟩)
  · rfl

/-- The first match ends the search, so that it is the only one counted. -/
theorem htable_get_ip_eq (ids : List Nat) (found_ips : Nat) :
    m.htable_get_ip addr ids found_ips =
      match (ids.filterMap m.find_proc).find? fun p => p.HasPeer addr with
      | none => (none, found_ips)
      | some p => (some p, found_ips + 1) := by
  induction ids with
  | nil => rfl
  | cons id ids ih =>
    rw [htable_get_ip]
    cases hfind : m.find_proc id with
    | none =>
      rw [filterMap_cons_none hfind]
      exact ih
    | some c =>
      rw [filterMap_cons_some hfind, List.find?_cons]
      simp only [local_ip_cmp_eq]
      by_cases hpeer : c.HasPeer addr
      · simp [hpeer]
      · simp [hpeer, ih]

/-- The workers that are compared with the address, in this order. -/
def compared (m : Main) (addr : SockAddr) : List Proc :=
  let h := Platform.hash_any (sa_in_generic addr addr.length)
  ((m.proc_table.db_dtls_ip.candidates h).map Prod.snd ++
    (m.proc_table.db_ip.candidates h).map Prod.snd).filterMap m.find_proc

/-- The search gives the first match, whether there are others or not. -/
theorem proc_search_single_ip_eq :
    m.proc_search_single_ip addr = (m.compared addr).find? fun p => p.HasPeer addr := by
  simp only [proc_search_single_ip, compared, htable_get_ip_eq, filterMap_append,
    List.find?_append]
  generalize ((m.proc_table.db_dtls_ip.candidates _).map Prod.snd).filterMap m.find_proc = first
  generalize ((m.proc_table.db_ip.candidates _).map Prod.snd).filterMap m.find_proc = second
  cases first.find? fun p => p.HasPeer addr with
  | some p => simp
  | none =>
    cases second.find? fun p => p.HasPeer addr with
    | some p => simp
    | none => simp

/-- A registered worker has the address. -/
def Peer (m : Main) (addr : SockAddr) (p : Proc) : Prop :=
  p ∈ m.procs ∧ p.id ∈ m.proc_table.db_ip.toList ∧ p.HasPeer addr

instance : Decidable (m.Peer addr p) := inferInstanceAs (Decidable (_ ∧ _))

/-- The worker is the only registered one that has the address. -/
def OnlyPeer (m : Main) (addr : SockAddr) (p : Proc) : Prop :=
  m.Peer addr p ∧ ∀ q, m.Peer addr q → q = p

theorem Indexed.compared (h : m.Indexed) :
    p ∈ m.compared addr ∧ p.HasPeer addr ↔ m.Peer addr p := by
  constructor
  · rintro ⟨hin, hpeer⟩
    obtain ⟨id, hid, hfind⟩ := mem_filterMap.1 hin
    obtain ⟨hp, rfl⟩ := find_proc_eq_some hfind
    rcases mem_append.1 hid with hid | hid
    · have hdtls : p.id ∈ m.proc_table.db_dtls_ip.toList := (h.dtls_ip.wf.mem_candidates.1 hid).1
      exact ⟨hp, h.registered p hp ((h.mem_dtls hp).1 hdtls), hpeer⟩
    · exact ⟨hp, (h.ip.wf.mem_candidates.1 hid).1, hpeer⟩
  · rintro ⟨hp, hregistered, hpeer⟩
    refine ⟨mem_filterMap.2 ⟨p.id, ?_, find_proc_of_mem h.ids hp⟩, hpeer⟩
    -- the table in which the worker is found under the hash of the address
    rcases hpeer.2 with ⟨hlen, hgeneric⟩ | ⟨hlen, hgeneric⟩
    · have hdtls : p.id ∈ m.proc_table.db_dtls_ip.toList :=
        (h.mem_dtls hp).2 (hlen ▸ Nat.pos_of_ne_zero hpeer.1)
      refine mem_append_left _ (h.dtls_ip.wf.mem_candidates.2 ⟨hdtls, ?_⟩)
      calc m.rehash_dtls_ip p.id = p.rehash_dtls_ip := hashOf_of_mem Proc.rehash_dtls_ip h.ids hp
        _ = Platform.hash_any (sa_in_generic addr addr.length) := congrArg _ hgeneric
    · refine mem_append_right _ (h.ip.wf.mem_candidates.2 ⟨hregistered, ?_⟩)
      calc m.rehash_ip p.id = p.rehash_ip := hashOf_of_mem Proc.rehash_ip h.ids hp
        _ = Platform.hash_any (sa_in_generic addr addr.length) := congrArg _ hgeneric

/-- A result of the search has the address. -/
theorem Indexed.search_sound (h : m.Indexed) (hsearch : m.proc_search_single_ip addr = some p) :
    m.Peer addr p := by
  rw [proc_search_single_ip_eq] at hsearch
  refine h.compared.1 ⟨mem_of_find?_eq_some hsearch, ?_⟩
  simpa using List.find?_some hsearch

/-- There is a result if a registered worker has the address. -/
theorem Indexed.search_complete (h : m.Indexed) (hp : m.Peer addr p) :
    ∃ q, m.proc_search_single_ip addr = some q := by
  obtain ⟨hin, hpeer⟩ := h.compared.2 hp
  rw [proc_search_single_ip_eq, ← isSome_iff_exists, List.find?_isSome]
  exact ⟨p, hin, decide_eq_true hpeer⟩

end Main

/-- The search is right about the workers with the address exactly if there are not several:
it gives the one worker there is, and otherwise the first of them. -/
theorem single_ip_correct (hreach : Reachable Main.Unpeered PeerStep m) (addr : SockAddr) :
    (∀ p, m.proc_search_single_ip addr = some p ↔ m.OnlyPeer addr p) ↔
      ∀ p q, m.Peer addr p → m.Peer addr q → p = q := by
  have h : m.Indexed := .reachable hreach
  constructor
  · intro hsearch p q hp hq
    obtain ⟨r, hr⟩ := h.search_complete hp
    have honly : m.OnlyPeer addr r := (hsearch r).1 hr
    calc p = r := honly.2 p hp
      _ = q := (honly.2 q hq).symm
  · intro hunique p
    constructor
    · intro hsearch
      have hp : m.Peer addr p := h.search_sound hsearch
      exact ⟨hp, fun q hq => hunique q p hq hp⟩
    · rintro ⟨hp, -⟩
      obtain ⟨r, hr⟩ := h.search_complete hp
      rw [hr, hunique r p (h.search_sound hr) hp]

end Peers

section Example

local instance peersPlatform : Platform := Platform.simple

/-- A port of 192.0.2.`host`. -/
private def endpoint (port host : UInt8) : SockAddr :=
  [2, 0, 0, port, 192, 0, 2, host, 0, 0, 0, 0, 0, 0, 0, 0]

/-- The worker of a client at 192.0.2.`host`. -/
private def workerAt (id : Nat) (host : UInt8) : Proc :=
  { id, pid := id, remote_addr := SockBuf.zero.copy (endpoint 1 host), our_addr := SockBuf.zero }

private def noPeers : Main := { vconfig := Sample.vconfig {} }

private theorem noPeers_unpeered : noPeers.Unpeered := ⟨rfl, rfl⟩

private def bothAt (host₁ host₂ : UInt8) : List PeerEvent :=
  [.join (workerAt 1 host₁), .join (workerAt 2 host₂), .add 1, .add 2]

/-- The worker of a packet from the address of its DTLS channel, while another worker moves to
the address of its CSTP channel. -/
theorem single_ip_correct_dtls : ∃ P : Platform, ∃ (m : @Main P) (addr : SockAddr) (p : Proc),
    m.proc_search_single_ip addr = some p ∧ m.OnlyPeer addr p := by
  obtain ⟨m, hreach, ⟨p, -, hp⟩, hunique⟩ := exists_reachable_of_exec (f := Main.peer_step)
    (P := fun m => (∃ p ∈ m.procs, m.Peer (endpoint 3 9) p) ∧
      ∀ p ∈ m.procs, ∀ q ∈ m.procs, m.Peer (endpoint 3 9) p → m.Peer (endpoint 3 9) q → p = q)
    (bothAt 1 2 ++ [.update_dtls_ip 1 (endpoint 2 9), .update_ip 2 (endpoint 5 1)])
    noPeers_unpeered (by decide +kernel)
  have honly : m.OnlyPeer (endpoint 3 9) p := ⟨hp, fun q hq => hunique q hq.1 p hp.1 hq hp⟩
  refine ⟨peersPlatform, m, endpoint 3 9, p, ?_, honly⟩
  exact ((single_ip_correct hreach _).2
    (fun p q hp hq => hunique p hp.1 q hq.1 hp hq) p).2 honly

/-- Two clients are behind one address: a packet from there is taken to be of one of them. -/
theorem single_ip_of_two : ∃ P : Platform, ∃ (m : @Main P) (addr : SockAddr) (p q : Proc),
    Reachable Main.Unpeered PeerStep m ∧ m.proc_search_single_ip addr = some p ∧
      m.Peer addr p ∧ m.Peer addr q ∧ p ≠ q := by
  obtain ⟨m, hreach, hpeers⟩ := exists_reachable_of_exec (f := Main.peer_step)
    (P := fun m => (m.proc_search_single_ip (endpoint 3 1)).any fun p =>
      m.Peer (endpoint 3 1) p ∧ ∃ q ∈ m.procs, m.Peer (endpoint 3 1) q ∧ p ≠ q)
    (bothAt 1 1) noPeers_unpeered (by decide +kernel)
  obtain ⟨p, hsearch, hp⟩ := (any_eq_true _ _).1 hpeers
  obtain ⟨hp, q, -, hq, hne⟩ := of_decide_eq_true hp
  exact ⟨peersPlatform, m, endpoint 3 1, p, q, hreach, hsearch, hp, hq, hne⟩

end Example
end Ocserv

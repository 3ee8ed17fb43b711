import Ocserv.Proofs.Events
import Ocserv.SecMod.Steps

/-!
# The tables of main and sec-mod agree

The invariant of the whole system that the later results rest on: the workers have
their own identities, the table by session identifier has exactly the workers with
an active session, and every entry of sec-mod carries the index of its instance.
-/

namespace Ocserv

open HTable Outcome Runs

section System

variable [Platform]

/-! ## Tables of workers -/

namespace Main

/-- The hash of the worker with the identity `id`; `rehash_sid` and its like are of this
form. -/
def hashOf (key : Proc → Nat) (m : Main) (id : Nat) : Nat := (m.find_proc id).elim 0 key

variable {m m' : Main} {p p' q : Proc} {id : Nat} {key : Proc → Nat} {sel : Proc → Prop}
  {t t' : Table Nat}

theorem hashOf_of_mem (key : Proc → Nat) (hids : (m.procs.map Proc.id).Nodup) (hp : p ∈ m.procs) :
    m.hashOf key p.id = key p := by
  rw [hashOf, find_proc_of_mem hids hp, Option.elim_some]

theorem mem_store_self (hp : p ∈ m.procs) (hid : p'.id = p.id) : p' ∈ (m.store p').procs :=
  mem_store.2 (.inl ⟨rfl, hid ▸ List.mem_map_of_mem hp⟩)

/-- What holds for all workers holds after one is written back for which it holds. -/
theorem forall_store {P : Proc → Prop} (h : ∀ q ∈ m.procs, P q) (hp : P p) :
    ∀ q ∈ (m.store p).procs, P q := by
  intro q hq
  rcases mem_store.1 hq with ⟨rfl, -⟩ | ⟨hq, -⟩
  · exact hp
  · exact h q hq

/-- Writing a worker back does not change the hashes of the others. -/
theorem hashOf_store (hne : id ≠ p.id) : (m.store p).hashOf key id = m.hashOf key id := by
  simp only [hashOf, find_proc_store, if_neg hne]

theorem hashOf_store_self (hp : p.id ∈ m.procs.map Proc.id) :
    (m.store p).hashOf key p.id = key p := by
  obtain ⟨q, hq⟩ := find_proc_isSome.2 hp
  simp only [hashOf, find_proc_store, if_true, hq, Option.map_some, Option.elim_some]

/-- A change of a worker that keeps its hash, if it is in the table. -/
theorem index_store (hi : Index (m.hashOf key) t) (hids : (m.procs.map Proc.id).Nodup)
    (hp : p ∈ m.procs) (hid : p'.id = p.id) (hkey : p.id ∈ t.toList → key p' = key p) :
    Index ((m.store p').hashOf key) t := by
  refine hi.congr fun id hin => ?_
  by_cases hne : id = p'.id
  · have hin' : p.id ∈ t.toList := hid ▸ hne ▸ hin
    rw [hne, hashOf_store_self (hid ▸ List.mem_map_of_mem hp), hid, hashOf_of_mem key hids hp,
      hkey hin']
  · exact hashOf_store hne

theorem index_store_absent (hi : Index (m.hashOf key) t) (hout : p'.id ∉ t.toList) :
    Index ((m.store p').hashOf key) t :=
  hi.congr fun _ hin => hashOf_store fun hid => hout (hid ▸ hin)

theorem index_del (hi : Index (m.hashOf key) t) (hids : (m.procs.map Proc.id).Nodup)
    (hp : p ∈ m.procs) : Index (m.hashOf key) (t.del (key p) (· == p.id)).1 := by
  rw [← hashOf_of_mem key hids hp]
  exact hi.del p.id

theorem mem_index_del (hi : Index (m.hashOf key) t) (hids : (m.procs.map Proc.id).Nodup)
    (hp : p ∈ m.procs) :
    id ∈ (t.del (key p) (· == p.id)).1.toList ↔ id ∈ t.toList ∧ id ≠ p.id := by
  rw [← hashOf_of_mem key hids hp]
  exact hi.mem_del

theorem index_add (hi : Index (m.hashOf key) t) (hids : (m.procs.map Proc.id).Nodup)
    (hp : p ∈ m.procs) (hnew : p.id ∉ t.toList) :
    Index (m.hashOf key) (t.add (m.hashOf key) (key p) p.id) := by
  rw [← hashOf_of_mem key hids hp]
  exact hi.add hnew

/-- Workers that are not in the table come and go. -/
theorem index_procs (hi : Index (m.hashOf key) t)
    (hfind : ∀ id ∈ t.toList, m'.find_proc id = m.find_proc id) : Index (m'.hashOf key) t := by
  refine hi.congr fun id hin => ?_
  rw [hashOf, hashOf, hfind id hin]

theorem find_proc_join (hprocs : m'.procs = p :: m.procs) (hne : id ≠ p.id) :
    m'.find_proc id = m.find_proc id := by
  rw [find_proc, hprocs]
  exact List.find?_cons_of_neg (by simpa using hne.symm)

theorem find_proc_remove (hprocs : m'.procs = m.procs.filter fun q => q.id ≠ p.id)
    (hne : id ≠ p.id) :
    m'.find_proc id = m.find_proc id := by
  simp only [find_proc, hprocs, List.find?_filter]
  congr 1
  funext q
  by_cases hq : q.id = id
  · simp [hq, hne]
  · simp [hq]

/-- The table has exactly the workers that meet `sel`, each under its hash. -/
structure Lists (key : Proc → Nat) (sel : Proc → Prop) (m : Main) (t : Table Nat) : Prop where
  index : Index (m.hashOf key) t
  mem : ∀ id, id ∈ t.toList ↔ ∃ p ∈ m.procs, p.id = id ∧ sel p

namespace Lists

theorem congr (h : m.Lists key sel t) (hprocs : m'.procs = m.procs) : m'.Lists key sel t := by
  refine ⟨index_procs h.index fun id _ => ?_, hprocs ▸ h.mem⟩
  rw [find_proc, find_proc, hprocs]

theorem mem_self (h : m.Lists key sel t) (hids : (m.procs.map Proc.id).Nodup) (hp : p ∈ m.procs) :
    p.id ∈ t.toList ↔ sel p := by
  rw [h.mem]
  constructor
  · rintro ⟨q, hq, hid, hsel⟩
    exact List.inj_on_of_nodup_map hids hq hp hid ▸ hsel
  · exact fun hsel => ⟨p, hp, rfl, hsel⟩

/-- The worker `p` becomes `p'`, and the table follows. -/
theorem store (h : m.Lists key sel t) (hp : p ∈ m.procs) (hid : p'.id = p.id)
    (hindex : Index ((m.store p').hashOf key) t')
    (hothers : ∀ id ≠ p.id, id ∈ t'.toList ↔ id ∈ t.toList) (hself : p.id ∈ t'.toList ↔ sel p') :
    (m.store p').Lists key sel t' := by
  refine ⟨hindex, fun id => ?_⟩
  by_cases hne : id = p.id
  · subst hne
    rw [hself]
    constructor
    · exact fun hsel => ⟨p', mem_store_self hp hid, hid, hsel⟩
    · rintro ⟨q, hq, hqid, hsel⟩
      rcases mem_store.1 hq with ⟨rfl, -⟩ | ⟨-, hqne⟩
      · exact hsel
      · exact absurd (hqid.trans hid.symm) hqne
  · rw [hothers id hne, h.mem]
    constructor
    · rintro ⟨q, hq, rfl, hsel⟩
      exact ⟨q, mem_store.2 (.inr ⟨hq, hid ▸ hne⟩), rfl, hsel⟩
    · rintro ⟨q, hq, rfl, hsel⟩
      rcases mem_store.1 hq with ⟨rfl, -⟩ | ⟨hq, -⟩
      · exact absurd hid hne
      · exact ⟨q, hq, rfl, hsel⟩

/-- The table does not depend on what has changed. -/
theorem keep (h : m.Lists key sel t) (hids : (m.procs.map Proc.id).Nodup) (hp : p ∈ m.procs)
    (hid : p'.id = p.id) (hsel : sel p' ↔ sel p) (hkey : key p' = key p) :
    (m.store p').Lists key sel t :=
  h.store hp hid (index_store h.index hids hp hid fun _ => hkey) (fun _ _ => Iff.rfl)
    ((h.mem_self hids hp).trans hsel.symm)

theorem leave (h : m.Lists key sel t) (hids : (m.procs.map Proc.id).Nodup) (hp : p ∈ m.procs)
    (hid : p'.id = p.id) (hsel : ¬ sel p') :
    (m.store p').Lists key sel (t.del (key p) (· == p.id)).1 := by
  have hmem : ∀ id, id ∈ (t.del (key p) (· == p.id)).1.toList ↔ id ∈ t.toList ∧ id ≠ p.id :=
    fun _ => mem_index_del h.index hids hp
  refine h.store hp hid ?_ (fun id hne => (hmem id).trans (and_iff_left hne)) ?_
  · exact index_store_absent (index_del h.index hids hp) fun hin => ((hmem _).1 hin).2 hid
  · exact iff_of_false (fun hin => ((hmem _).1 hin).2 rfl) hsel

theorem enter (h : m.Lists key sel t) (hids : (m.procs.map Proc.id).Nodup) (hp : p ∈ m.procs)
    (hid : p'.id = p.id) (hout : ¬ sel p) (hsel : sel p') :
    (m.store p').Lists key sel (t.add ((m.store p').hashOf key) (key p') p'.id) := by
  have hnew : p'.id ∉ t.toList := fun hin => hout ((h.mem_self hids hp).1 (hid ▸ hin))
  have hstored : Index ((m.store p').hashOf key) t := index_store_absent h.index hnew
  have hmem : ∀ id, id ∈ (t.add ((m.store p').hashOf key) (key p') p'.id).toList ↔
      id = p.id ∨ id ∈ t.toList := by
    intro id
    rw [(hstored.wf.toList_add _ _).mem_iff, List.mem_cons, hid]
  refine h.store hp hid ?_ (fun id hne => (hmem id).trans (or_iff_right hne)) ?_
  · exact index_add hstored (ids_store m p' ▸ hids) (mem_store_self hp hid) hnew
  · exact iff_of_true ((hmem _).2 (.inl rfl)) hsel

theorem join (h : m.Lists key sel t) (hprocs : m'.procs = p :: m.procs)
    (hnew : ∀ q ∈ m.procs, q.id ≠ p.id) (hsel : ¬ sel p) : m'.Lists key sel t := by
  constructor
  · refine index_procs h.index fun id hin => find_proc_join hprocs ?_
    obtain ⟨q, hq, rfl, -⟩ := (h.mem id).1 hin
    exact hnew q hq
  · intro id
    rw [h.mem, hprocs]
    constructor
    · rintro ⟨q, hq, hid, hq'⟩
      exact ⟨q, List.mem_cons_of_mem _ hq, hid, hq'⟩
    · rintro ⟨q, hq, hid, hq'⟩
      rcases List.mem_cons.1 hq with rfl | hq
      · exact absurd hq' hsel
      · exact ⟨q, hq, hid, hq'⟩

theorem remove (h : m.Lists key sel t) (hindex : Index (m.hashOf key) t')
    (hmem : ∀ id, id ∈ t'.toList ↔ id ∈ t.toList ∧ id ≠ p.id)
    (hprocs : m'.procs = m.procs.filter fun q => q.id ≠ p.id) : m'.Lists key sel t' := by
  constructor
  · exact index_procs hindex fun id hin => find_proc_remove hprocs ((hmem id).1 hin).2
  · intro id
    rw [hmem, h.mem, hprocs]
    constructor
    · rintro ⟨⟨q, hq, rfl, hsel⟩, hne⟩
      exact ⟨q, List.mem_filter.2 ⟨hq, decide_eq_true hne⟩, rfl, hsel⟩
    · rintro ⟨q, hq, rfl, hsel⟩
      obtain ⟨hq, hne⟩ := List.mem_filter.1 hq
      exact ⟨⟨q, hq, rfl, hsel⟩, of_decide_eq_true hne⟩

end Lists
end Main

/-! ## The invariant -/

/-- The workers, their table and the instances of sec-mod fit together. -/
structure Sys.WF (s : Sys) : Prop where
  ids : (s.main.procs.map Proc.id).Nodup
  fresh : ∀ p ∈ s.main.procs, p.id < s.main.next
  pid : ∀ p ∈ s.main.procs, 0 < p.pid
  index : ∀ p ∈ s.main.procs, p.active_sid →
    p.sec_mod_instance_index = sec_mod_instance_index_get p.sid
  table : s.main.proc_table.db_sid.WF s.main.rehash_sid
  linked : ∀ id, id ∈ s.main.proc_table.db_sid.toList ↔
    ∃ p ∈ s.main.procs, p.id = id ∧ p.active_sid
  unique : s.main.proc_table.db_sid.toList.Nodup
  secmods : ∀ (i : Nat) (sec : SecMod), s.secmods[i]? = some sec →
    sec.Indexed ∧ sec.sec_mod_instance_index = i

variable {s s' : Sys} {m m' : Main} {p p' q : Proc}

/-! ## Changes of one worker -/

/-- The worker has the same session. -/
structure Proc.SameLink (p p' : Proc) : Prop where
  id : p'.id = p.id
  pid : p'.pid = p.pid
  sid : p'.sid = p.sid
  active_sid : p'.active_sid = p.active_sid
  index : p.active_sid → p'.sec_mod_instance_index = p.sec_mod_instance_index

/-- What the phases do to a worker: besides, it serves the same user, and does not return to
an earlier state. -/
structure Proc.Proceeds (p p' : Proc) : Prop extends p.SameLink p' where
  status : p'.status = .inactive → p.status = .inactive
  invalidated : p.invalidated → p'.invalidated
  pid_killed : p.pid_killed → p'.pid_killed
  username : p'.username = p.username

theorem Sys.WF.lists (h : s.WF) :
    s.main.Lists Proc.rehash_sid (·.active_sid) s.main.proc_table.db_sid :=
  ⟨⟨h.table, h.unique⟩, h.linked⟩

theorem Sys.WF.of_lists (ids : (s.main.procs.map Proc.id).Nodup)
    (fresh : ∀ p ∈ s.main.procs, p.id < s.main.next) (pid : ∀ p ∈ s.main.procs, 0 < p.pid)
    (index : ∀ p ∈ s.main.procs, p.active_sid →
      p.sec_mod_instance_index = sec_mod_instance_index_get p.sid)
    (lists : s.main.Lists Proc.rehash_sid (·.active_sid) s.main.proc_table.db_sid)
    (secmods : ∀ (i : Nat) (sec : SecMod), s.secmods[i]? = some sec →
      sec.Indexed ∧ sec.sec_mod_instance_index = i) : s.WF :=
  ⟨ids, fresh, pid, index, lists.index.wf, lists.mem, lists.index.nodup, secmods⟩

/-- A worker is replaced by one with the same session. -/
theorem Sys.WF.put (h : s.WF) (hfind : s.main.find_proc p.id = some p) (hlink : p.SameLink p')
    (hprocs : s'.main.procs = (s.main.store p').procs)
    (hdb : s'.main.proc_table.db_sid = s.main.proc_table.db_sid)
    (hnext : s.main.next ≤ s'.main.next)
    (hsecs : s'.secmods = s.secmods) : s'.WF := by
  obtain ⟨hmem, -⟩ := Main.find_proc_eq_some hfind
  have hkey : Proc.rehash_sid p' = Proc.rehash_sid p := by
    rw [Proc.rehash_sid, Proc.rehash_sid, hlink.sid]
  have hlists := (h.lists.keep h.ids hmem hlink.id (by rw [hlink.active_sid]) hkey).congr hprocs
  refine .of_lists ?_ ?_ ?_ ?_ (hdb ▸ hlists) (hsecs ▸ h.secmods)
  · rw [hprocs, Main.ids_store]
    exact h.ids
  · rw [hprocs]
    refine Main.forall_store (fun q hq => (h.fresh q hq).trans_le hnext) ?_
    rw [hlink.id]
    exact (h.fresh p hmem).trans_le hnext
  · rw [hprocs]
    exact Main.forall_store h.pid (hlink.pid ▸ h.pid p hmem)
  · rw [hprocs]
    refine Main.forall_store h.index fun hact => ?_
    rw [hlink.active_sid] at hact
    rw [hlink.index hact, hlink.sid]
    exact h.index p hmem hact

theorem Sys.WF.quiet (h : s.WF) (hq : s.main.Quiet s'.main) (hsecs : s'.secmods = s.secmods) :
    s'.WF := by
  have hlists := h.lists.congr hq.procs
  refine .of_lists ?_ ?_ ?_ ?_ (hq.db_sid ▸ hlists) (hsecs ▸ h.secmods)
  · rw [hq.procs]; exact h.ids
  · rw [hq.procs, hq.next]; exact h.fresh
  · rw [hq.procs]; exact h.pid
  · rw [hq.procs]; exact h.index

/-- A property that depends on the workers only, and not on their leases, is kept by the
phases. -/
theorem phases_of_put {Inv : Sys → Prop}
    (hquiet : ∀ {s s' : Sys}, Inv s → s.main.Quiet s'.main → s'.secmods = s.secmods → Inv s')
    (hput : ∀ {s s' : Sys} {p p' : Proc}, Inv s → s.main.find_proc p.id = some p → p.Proceeds p' →
      s'.main.procs = (s.main.store p').procs →
      s'.main.proc_table.db_sid = s.main.proc_table.db_sid → s.main.next ≤ s'.main.next →
      s'.secmods = s.secmods → Inv s') (env : MainEnv) : Phases Inv env where
  quiet := hquiet
  update := by
    intro s p p' h hfind hsame
    have hlink : p.SameLink p' :=
      ⟨hsame.id, hsame.pid, hsame.sid, hsame.active_sid, fun _ => hsame.index⟩
    have hproc : p.Proceeds p' := ⟨hlink, hsame.status, hsame.invalidated,
      fun hk => hsame.pid_killed ▸ hk, hsame.username⟩
    exact hput h hfind hproc rfl rfl (Nat.le_refl _) rfl
  kill := by
    intro s p h hfind
    have hproc : p.Proceeds { p with pid_killed := true } :=
      ⟨⟨rfl, rfl, rfl, rfl, fun _ => rfl⟩, id, id, fun _ => rfl, rfl⟩
    exact hput h hfind hproc rfl rfl (Nat.le_refl _) rfl
  lease4 := by
    intro s p l h hfind _ _
    have hproc : p.Proceeds { p with ipv4 := some l } :=
      ⟨⟨rfl, rfl, rfl, rfl, fun _ => rfl⟩, id, id, id, rfl⟩
    exact hput h hfind hproc rfl rfl (Nat.le_succ _) rfl
  lease6 := by
    intro s p l h hfind _ _
    have hproc : p.Proceeds { p with ipv6 := some l } :=
      ⟨⟨rfl, rfl, rfl, rfl, fun _ => rfl⟩, id, id, id, rfl⟩
    exact hput h hfind hproc rfl rfl (Nat.le_succ _) rfl

theorem Sys.WF.phases (env : MainEnv) : Phases Sys.WF env :=
  phases_of_put Sys.WF.quiet (fun h hfind hproc => h.put hfind hproc.toSameLink) env

/-! ## Instances of sec-mod -/

variable {P : Nat → SecEnv → SecMod.Cmd → Prop} {secs : List SecMod}

variable {env : MainEnv} {msg : WorkerMsg} {req : AuthCookieRequestMsg} {sid : Sid}
  {sec sec₁ : SecMod} {m₁ : Main} {p₁ old : Proc} {result : Int} {o : Option Nat}
  {l : Sys.Event × Sys.Env} {trace : List (Transition Sys (Sys.Event × Sys.Env))} {s₀ : Sys}
  {ls : List (Sys.Event × Sys.Env)}

/-- The instance of a worker that is removed may have closed its session. -/
theorem Removed.executed (h : Removed env s p s') :
    Sys.Executed (fun _ _ c => ∃ req, c = .session_close req) s.secmods s'.secmods := by
  cases hact : p.active_sid with
  | false =>
    rw [h.idle hact]
    exact .refl _
  | true =>
    obtain ⟨sec, _, hsec, -, hsecs⟩ := h.closed hact
    rw [hsecs]
    exact Sys.executed_set (c := .session_close p.closeMsg) hsec ⟨_, rfl⟩

/-- The instance that is asked about a cookie may have opened its session. -/
theorem Answered.executed (hreq : CookieReq s p msg req sid sec)
    (hans : Answered env s p req sid sec m₁ sec₁ p₁ result) :
    Sys.Executed (fun _ _ c => ∃ req, c = .session_open req) s.secmods
      (s.secmods.set (sec_mod_instance_index_get sid) sec₁) := by
  have hopened : ∀ req', Sys.Executed (fun _ _ c => ∃ req, c = .session_open req) s.secmods
      (s.secmods.set (sec_mod_instance_index_get sid)
        (sec.handle_secm_session_open_cmd env.sec req').sec) :=
    fun req' => Sys.executed_set (c := .session_open req') hreq.sec ⟨_, rfl⟩
  cases hans.step hreq with
  | refused _ =>
    obtain ⟨hlt, hsec⟩ := List.getElem?_eq_some_iff.1 hreq.sec
    rw [← hsec, List.set_getElem_self hlt]
    exact .refl _
  | unopened | lost | fresh | taken => exact hopened _

theorem Sys.WF.executed (h : s.WF) (hmain : s'.main = s.main)
    (hsecs : Sys.Executed P s.secmods s'.secmods) : s'.WF := by
  obtain ⟨main, secmods⟩ := s'
  obtain rfl := hmain
  refine .of_lists h.ids h.fresh h.pid h.index h.lists fun i sec' hsec' => ?_
  obtain ⟨sec, hsec, hexec⟩ := hsecs i sec' hsec'
  obtain ⟨hindexed, hindex⟩ := h.secmods i sec hsec
  rcases hexec with rfl | ⟨env, c, -, rfl⟩
  · exact ⟨hindexed, hindex⟩
  · exact ⟨hindexed.exec env c, (SecMod.exec_static env sec c).index.trans hindex⟩

/-! ## Finding the owner of a session -/

theorem Sys.WF.search (h : s.WF) (hfind : s.main.proc_search_sid sid = some q) :
    q ∈ s.main.procs ∧ q.active_sid ∧ q.sid = sid := by
  obtain ⟨id, hget, hid⟩ := Option.bind_eq_some_iff.1 hfind
  obtain ⟨hmem, -, hcmp⟩ := h.table.get_some hget
  obtain ⟨r, hr, rfl, hact⟩ := (h.linked id).1 hmem
  rw [Main.find_proc_of_mem h.ids hr] at hid hcmp
  cases hid
  exact ⟨hr, hact, by simpa using hcmp⟩

theorem Sys.WF.search_none (h : s.WF) (hfind : s.main.proc_search_sid sid = none)
    (hq : q ∈ s.main.procs) (hact : q.active_sid) : q.sid ≠ sid := by
  intro hsid
  have hfound := Main.find_proc_of_mem h.ids hq
  have hmem := (h.linked q.id).2 ⟨q, hq, rfl, hact⟩
  have hhash : s.main.rehash_sid q.id = Platform.hash_any sid.1 := by
    simp only [Main.rehash_sid, hfound, Option.elim_some, Proc.rehash_sid, hsid]
  cases hget : s.main.proc_table.db_sid.get (Platform.hash_any sid.1) (fun id =>
    (s.main.find_proc id).any fun p => p.sid = sid) with
  | none =>
    have hcmp := h.table.get_none hget hmem hhash
    simp [hfound, hsid] at hcmp
  | some id =>
    obtain ⟨hmem', -, -⟩ := h.table.get_some hget
    obtain ⟨r, hr, rfl, -⟩ := (h.linked id).1 hmem'
    simp only [Main.proc_search_sid, hget, Option.bind_some,
      Main.find_proc_of_mem h.ids hr] at hfind
    simp at hfind

/-! ## Taking a session over -/

variable {w : Nat} {secmods : List SecMod} {sid : Sid}

/-- Writing back a worker that has just been given a session. -/
theorem Sys.put_attach_procs (m : Main) (p : Proc) (sid : Sid) (hostname : Option CStr)
    (secmods : List SecMod) :
    (Sys.put ⟨(m.attach p sid hostname).1, secmods⟩ (m.attach p sid hostname).2).main.procs =
      (m.store (m.attach p sid hostname).2).procs := by
  change ((m.store (m.attach p sid hostname).2).store (m.attach p sid hostname).2).procs = _
  rw [Main.store_store rfl]

/-- The session becomes that of a worker that had none. -/
theorem Sys.WF.attach (h : At Sys.WF secmods w m p) (hact : p.active_sid = false)
    (hindex : p.sec_mod_instance_index = sec_mod_instance_index_get sid) (hostname : Option CStr) :
    At Sys.WF secmods w (m.attach p sid hostname).1 (m.attach p sid hostname).2 := by
  have hpfind := h.find
  obtain ⟨hid, hmem, hwf⟩ := h
  obtain ⟨hpmem, -⟩ := Main.find_proc_eq_some hpfind
  have hprocs := Sys.put_attach_procs m p sid hostname secmods
  -- the worker that is stored
  generalize hp' : (m.attach p sid hostname).2 = p' at hprocs ⊢
  have hp'id : p'.id = p.id := by rw [← hp']; rfl
  have hp'act : p'.active_sid := by rw [← hp']; rfl
  have hm' : (m.attach p sid hostname).1 = (m.store p').proc_table_add p' := by rw [← hp']; rfl
  have hstore : (m.store p).store p' = m.store p' := Main.store_store hp'id
  have hlists := hwf.lists.enter hwf.ids hpmem hp'id (by simp [hact]) hp'act
  change ((m.store p).store p').Lists _ _
    (m.proc_table.db_sid.add (((m.store p).store p').hashOf _) _ _) at hlists
  rw [hstore] at hlists
  rw [hm'] at hprocs ⊢
  refine ⟨hp'id.trans hid, ?_, ?_⟩
  · change w ∈ (m.store p').procs.map Proc.id
    rwa [Main.ids_store]
  refine .of_lists ?_ ?_ ?_ ?_ (hlists.congr hprocs) hwf.secmods
  · rw [hprocs, Main.ids_store]
    exact Main.ids_store m p ▸ hwf.ids
  all_goals rw [hprocs, ← hstore]
  · exact Main.forall_store hwf.fresh (hp'id ▸ hwf.fresh p hpmem)
  · exact Main.forall_store hwf.pid (by rw [← hp']; exact hwf.pid p hpmem)
  · exact Main.forall_store hwf.index fun _ => by rw [← hp']; exact hindex

theorem Sys.WF.take_over (h : At Sys.WF secmods w m p) (hold : m.find_proc old.id = some old)
    (hne : old.id ≠ w) : At Sys.WF secmods w (m.take_over old p).1 (p.heir old) := by
  obtain ⟨hid, hmem, hwf⟩ := h
  have hne' : p.id ≠ old.id := fun heq => hne (heq ▸ hid)
  have hfind : (m.store p).find_proc old.id = some old := by
    rw [Main.find_proc_store, if_neg hne'.symm, hold]
  rw [Main.take_over_fst (hwf.pid old (Main.find_proc_eq_some hfind).1)]
  refine ⟨hid, ?_, ?_⟩
  · change w ∈ (m.store (old.robbed m.next)).procs.map Proc.id
    rwa [Main.ids_store]
  -- first the previous owner changes, then the new one
  have hrobbed : old.SameLink (old.robbed m.next) := ⟨rfl, rfl, rfl, rfl, fun _ => rfl⟩
  have hwf₁ : Sys.WF (Sys.put { main := { m.store p with next := m.next + 2 }, secmods }
      (old.robbed m.next)) :=
    hwf.put hfind hrobbed rfl rfl (Nat.le_add_right _ 2) rfl
  have hp : (Sys.put { main := { m.store p with next := m.next + 2 }, secmods }
      (old.robbed m.next)).main.find_proc p.id = some p := by
    change ((m.store p).store (old.robbed m.next)).find_proc p.id = some p
    obtain ⟨q, hq⟩ := Main.find_proc_isSome.2 (hid ▸ hmem : p.id ∈ m.procs.map Proc.id)
    have hne'' : p.id ≠ (old.robbed m.next).id := hne'
    rw [Main.find_proc_store, if_neg hne'', Main.find_proc_store, if_pos rfl, hq, Option.map_some]
  have hlink : p.SameLink (p.heir old) := ⟨rfl, rfl, rfl, rfl, fun _ => rfl⟩
  refine hwf₁.put hp hlink ?_ rfl (Nat.le_refl _) rfl
  change ((m.store (old.robbed m.next)).store (p.heir old)).procs =
    (((m.store p).store (old.robbed m.next)).store (p.heir old)).procs
  rw [Main.store_comm (m := m) (p := p) (q := old.robbed m.next) hne',
    Main.store_store (p := p) (q := p.heir old) rfl]

theorem Sys.WF.cookie (h : s.WF) (hfind : s.main.find_proc w = some p) (hact : p.active_sid = false)
    (hreq : CookieReq s p msg req sid sec) (hans : Answered env s p req sid sec m₁ sec₁ p₁ result) :
    At Sys.WF (s.secmods.set (sec_mod_instance_index_get sid) sec₁) w m₁ p₁ := by
  obtain ⟨hmem, rfl⟩ := Main.find_proc_eq_some hfind
  -- the worker with its instance, which has answered
  have hat : ∀ {p' : Proc},
      Proc.SameHolder { p with sec_mod_instance_index := sec_mod_instance_index_get sid } p' →
      At Sys.WF (s.secmods.set (sec_mod_instance_index_get sid) sec₁) p.id s.main p' := by
    intro p' hsame
    have hlink : p.SameLink p' :=
      ⟨hsame.id, hsame.pid, hsame.sid, hsame.active_sid, fun htrue => by simp [hact] at htrue⟩
    have hwf : Sys.WF ⟨s.main, s.secmods.set (sec_mod_instance_index_get sid) sec₁⟩ :=
      h.executed rfl (hans.executed hreq)
    refine ⟨hsame.id, List.mem_map_of_mem hmem, hwf.put hfind hlink rfl rfl (Nat.le_refl _) rfl⟩
  cases hans.step hreq with
  | refused hsame => exact hat hsame.toSameHolder
  | unopened hsame => exact hat hsame.toSameHolder
  | lost _ _ hload => exact hat hload.same
  | fresh _ _ hload =>
    exact Sys.WF.attach (hat hload.same) (hload.same.active_sid.trans hact) hload.same.index _
  | @taken _ old _ _ hold _ _ hload =>
    obtain ⟨hmem', hact', -⟩ := h.search hold
    have hne : old.id ≠ p.id := by
      intro heq
      obtain rfl := List.inj_on_of_nodup_map h.ids hmem' hmem heq
      simp [hact] at hact'
    have htaken := Sys.WF.take_over (hat hload.same) (Main.find_proc_of_mem h.ids hmem') hne
    exact Sys.WF.attach htaken (hload.same.active_sid.trans hact) hload.same.index _

/-! ## New and removed workers -/

theorem Sys.WF.accept (h : s.WF) {pid time : Int} (hpid : 0 < pid)
    (remote_addr our_addr : SockAddr) :
    Sys.WF { s with main := s.main.new_proc pid time remote_addr our_addr } := by
  generalize hs' : { s with main := s.main.new_proc pid time remote_addr our_addr } = s'
  obtain ⟨p, hprocs, hid, hpos, hact⟩ : ∃ p : Proc, s'.main.procs = p :: s.main.procs ∧
      p.id = s.main.next ∧ 0 < p.pid ∧ p.active_sid = false :=
    ⟨_, by rw [← hs']; rfl, rfl, hpid, rfl⟩
  have hnext : s'.main.next = s.main.next + 1 := by rw [← hs']; rfl
  have hdb : s'.main.proc_table.db_sid = s.main.proc_table.db_sid := by rw [← hs']; rfl
  have hsecs : s'.secmods = s.secmods := by rw [← hs']
  have hne : ∀ q ∈ s.main.procs, q.id ≠ p.id := fun q hq =>
    hid ▸ Nat.ne_of_lt (h.fresh q hq)
  refine .of_lists ?_ ?_ ?_ ?_ (hdb ▸ h.lists.join hprocs hne (by simp [hact]))
    (hsecs ▸ h.secmods)
  · rw [hprocs, List.map_cons, List.nodup_cons]
    refine ⟨fun hin => ?_, h.ids⟩
    obtain ⟨q, hq, heq⟩ := List.mem_map.1 hin
    exact hne q hq heq
  · rw [hprocs, hnext]
    refine List.forall_mem_cons.2 ⟨by omega, fun q hq => ?_⟩
    exact Nat.lt_succ_of_lt (h.fresh q hq)
  · rw [hprocs]
    exact List.forall_mem_cons.2 ⟨hpos, h.pid⟩
  · rw [hprocs]
    exact List.forall_mem_cons.2 ⟨fun htrue => by simp [hact] at htrue, h.index⟩

theorem Sys.WF.removed (h : s.WF) (hfind : s.main.find_proc p.id = some p)
    (hrem : Removed env s p s') : s'.WF := by
  obtain ⟨hmem, -⟩ := Main.find_proc_eq_some hfind
  have hprocs : s'.main.procs = s.main.procs.filter fun q => q.id ≠ p.id := by
    rw [hrem.procs]
    exact List.filter_congr fun q _ => by simp [bne, beq_eq_decide]
  have hleft : ∀ q ∈ s'.main.procs, q ∈ s.main.procs :=
    fun q hq => List.mem_of_mem_filter (hprocs ▸ hq)
  have hlists := h.lists.remove (Main.index_del h.lists.index h.ids hmem)
    (fun _ => Main.mem_index_del h.lists.index h.ids hmem) hprocs
  rw [← hrem.db_sid] at hlists
  have hexecuted : Sys.WF ⟨s.main, s'.secmods⟩ := h.executed rfl hrem.executed
  refine .of_lists ?_ ?_ (fun q hq => h.pid q (hleft q hq)) (fun q hq => h.index q (hleft q hq))
    hlists hexecuted.secmods
  · rw [hrem.procs]
    exact h.ids.sublist (List.filter_sublist.map _)
  · intro q hq
    rw [hrem.next]
    exact h.fresh q (hleft q hq)

/-! ## Workers that have not presented a cookie -/

/-- A worker that has not presented a cookie has no session; the worker `o` is left out. -/
def Sys.IdleBut (o : Option Nat) (s : Sys) : Prop :=
  ∀ p ∈ s.main.procs, o ≠ some p.id → p.status = .inactive → p.active_sid = false

abbrev Sys.Idle (s : Sys) : Prop := s.IdleBut none

theorem Sys.IdleBut.phases (o : Option Nat) (env : MainEnv) : Phases (Sys.IdleBut o) env := by
  refine phases_of_put ?_ ?_ env
  · intro s s' h hq _ p hp
    exact h p (hq.procs ▸ hp)
  · intro s s' p p' h hfind hproc hprocs _ _ _
    rw [Sys.IdleBut, hprocs]
    refine Main.forall_store h fun ho hst => ?_
    rw [hproc.active_sid]
    exact h p (Main.find_proc_eq_some hfind).1 (hproc.id ▸ ho) (hproc.status hst)

theorem Sys.IdleBut.accept (h : s.IdleBut o) (pid time : Int) (remote_addr our_addr : SockAddr) :
    Sys.IdleBut o { s with main := s.main.new_proc pid time remote_addr our_addr } := by
  intro p hp ho hst
  rcases List.mem_cons.1 hp with rfl | hp
  · rfl
  · exact h p hp ho hst

theorem Sys.IdleBut.removed (h : s.IdleBut o) (hrem : Removed env s p s') : s'.IdleBut o := by
  intro q hq
  rw [hrem.procs] at hq
  exact h q (List.mem_of_mem_filter hq)

/-- A cookie request changes no other worker, except that it robs the previous owner. -/
theorem Answered.mem_procs (h : s.WF) (hans : Answered env s p req sid sec m₁ sec₁ p₁ result)
    (hreq : CookieReq s p msg req sid sec) (hq : q ∈ m₁.procs) (hne : q.id ≠ p.id) :
    q ∈ s.main.procs ∨ ∃ old ∈ s.main.procs, q = old.robbed s.main.next := by
  have hattach : ∀ {m₂ : Main} {p₂ : Proc}, p₂.id = p.id →
      q ∈ (m₂.attach p₂ sid req.hostname).1.procs → q ∈ m₂.procs := by
    intro m₂ p₂ hid hin
    rcases Main.mem_store.1 hin with ⟨rfl, -⟩ | ⟨hin, -⟩
    · exact absurd hid hne
    · exact hin
  cases hans.step hreq with
  | refused | unopened | lost => exact .inl hq
  | fresh _ _ hload => exact .inl (hattach hload.same.id hq)
  | @taken _ old p₂ _ hold _ _ hload =>
    obtain ⟨hmem, -, -⟩ := h.search hold
    have hin := @hattach _ (p₂.heir old) hload.same.id hq
    rw [Main.take_over_fst (h.pid old hmem)] at hin
    rcases Main.mem_store.1 hin with ⟨rfl, -⟩ | ⟨hin, -⟩
    · exact .inr ⟨old, hmem, rfl⟩
    · exact .inl hin

theorem Answered.id (h : s.WF) (hans : Answered env s p req sid sec m₁ sec₁ p₁ result)
    (hreq : CookieReq s p msg req sid sec) :
    p₁.id = p.id ∧ m₁.procs.map Proc.id = s.main.procs.map Proc.id := by
  cases hans.step hreq with
  | refused hsame => exact ⟨hsame.id, rfl⟩
  | unopened hsame => exact ⟨hsame.id, rfl⟩
  | lost _ _ hload => exact ⟨hload.same.id, rfl⟩
  | fresh _ _ hload => exact ⟨hload.same.id, Main.ids_store _ _⟩
  | @taken _ old _ _ hold _ _ hload =>
    obtain ⟨hmem, -, -⟩ := h.search hold
    rw [Main.take_over_fst (h.pid old hmem)]
    exact ⟨hload.same.id, (Main.ids_store _ _).trans (Main.ids_store _ _)⟩

theorem Sys.IdleBut.cookie (hwf : s.WF) (h : s.IdleBut (some p.id)) (hmem : p ∈ s.main.procs)
    (hreq : CookieReq s p msg req sid sec) (hans : Answered env s p req sid sec m₁ sec₁ p₁ result)
    (secs : List SecMod) : At (Sys.IdleBut (some p.id)) secs p.id m₁ p₁ := by
  obtain ⟨hid, hids⟩ := hans.id hwf hreq
  refine ⟨hid, hids ▸ List.mem_map_of_mem hmem, ?_⟩
  intro q hq ho hst
  have hne : q.id ≠ p.id := fun heq => ho (congrArg some heq.symm)
  rcases Main.mem_store.1 hq with ⟨rfl, -⟩ | ⟨hq, -⟩
  · exact absurd hid hne
  · rcases hans.mem_procs hwf hreq hq hne with hq | ⟨old, hold, rfl⟩
    · exact h q hq ho hst
    · exact h old hold ho hst

/-- After an event no worker without a cookie has a session. -/
theorem Sys.Idle.step (hwf : s.WF) (h : s.Idle) (hstep : Sys.Step s l s') : s'.Idle := by
  by_cases hcookie : ∃ w msg p req sid sec, l.1 = .worker w msg ∧ s.main.find_proc w = some p ∧
      CookieReq s p msg req sid sec
  · -- the worker has a session already while it is still in its first state
    obtain ⟨w, msg, p, req, sid, sec, hev, hfind, hreq⟩ := hcookie
    obtain ⟨hmem, rfl⟩ := Main.find_proc_eq_some hfind
    obtain ⟨m₁, sec₁, p₁, result, hans⟩ : ∃ m₁ sec₁ p₁ result,
        Answered (l.2 p.id) s p req sid sec m₁ sec₁ p₁ result := ⟨_, _, _, _, rfl⟩
    have hbut : s.IdleBut (some p.id) := fun q hq _ hst => h q hq (by simp) hst
    obtain ⟨s₂, p₂, hat, hstatus, hend⟩ := Phases.cookie_event hstep hev hfind hreq hans
      (Sys.IdleBut.phases (some p.id) _) (hbut.cookie hwf hmem hreq hans _)
    have hidle : (s₂.put p₂).Idle := by
      intro q hq _ hst
      by_cases hid : q.id = p.id
      · rcases Main.mem_store.1 hq with ⟨rfl, -⟩ | ⟨-, hne⟩
        · exact absurd hst hstatus
        · exact absurd (hid.trans hat.id.symm) hne
      · exact hat.inv q hq (fun heq => hid (Option.some.inj heq).symm) hst
    rcases hend with rfl | ⟨kill, hremove⟩
    · exact hidle
    · exact hidle.removed (remove_proc_removed hremove)
  · refine EventRule.step ?_ (fun w => Sys.IdleBut.phases none (l.2 w)) hwf.ids hwf.pid h hstep
    exact
      { accept := fun _ _ => h.accept _ _ _ _
        cookie := fun hev hfind hreq _ => absurd ⟨_, _, _, _, _, _, hev, hfind, hreq⟩ hcookie
        remove := fun _ hat hrun => hat.inv.removed (remove_proc_removed hrun)
        execute := fun h _ _ => h }

/-! ## Steps and runs -/

theorem Sys.WF.step (h : s.WF) (hidle : s.Idle) (hstep : Sys.Step s l s') : s'.WF := by
  refine EventRule.step ?_ (fun w => Sys.WF.phases (l.2 w)) h.ids h.pid h hstep
  exact
    { accept := fun _ hpid => h.accept hpid _ _
      cookie := fun _ hfind hreq hans =>
        h.cookie hfind (hidle _ (Main.find_proc_eq_some hfind).1 (by simp) hreq.status) hreq hans
      remove := fun _ hat hrun => hat.inv.removed hat.find (remove_proc_removed hrun)
      execute := fun hwf _ hexec => hwf.executed rfl hexec }

/-- A property of the instances that every command keeps is kept by a step.  Of the
commands that come from workers only the one of the event is executed. -/
theorem Sys.forall_secmods_step {J : Nat → SecMod → Prop} (hwf : s.WF)
    (hJ : ∀ i sec env c, (Sys.FromWorkers c → l.1 = .secmod i env c) → J i sec →
      J i (sec.exec env c).1)
    (h : ∀ i sec, s.secmods[i]? = some sec → J i sec) (hstep : Sys.Step s l s') :
    ∀ i sec, s'.secmods[i]? = some sec → J i sec := by
  have hmain : ∀ {c : SecMod.Cmd}, ¬ Sys.FromWorkers c → ∀ i sec env, J i sec →
      J i (sec.exec env c).1 := fun hc i sec env => hJ i sec env _ fun hfrom => absurd hfrom hc
  have hphases : ∀ env, Phases (fun s => ∀ i sec, s.secmods[i]? = some sec → J i sec) env :=
    fun _ =>
      { quiet := fun h _ hsecs => hsecs ▸ h
        update := fun h _ _ => h
        kill := fun h _ => h
        lease4 := fun h _ _ _ => h
        lease6 := fun h _ _ _ => h }
  refine EventRule.step ?_ (fun w => hphases (l.2 w)) hwf.ids hwf.pid h hstep
  exact
    { accept := fun _ _ => h
      cookie := by
        intro w p msg req sid sec m₁ sec₁ p₁ result _ hfind hreq hans
        obtain ⟨hmem, rfl⟩ := Main.find_proc_eq_some hfind
        obtain ⟨hid, hids⟩ := hans.id hwf hreq
        refine ⟨hid, hids ▸ List.mem_map_of_mem hmem, ?_⟩
        refine (hans.executed hreq).forall h ?_
        rintro i sec env c ⟨req, rfl⟩
        exact hmain (c := .session_open req) (fun hfrom => hfrom) i sec env
      remove := by
        intro w s₁ p₁ kill _ hat hrun
        refine (remove_proc_removed hrun).executed.forall hat.inv ?_
        rintro i sec env c ⟨req, rfl⟩
        exact hmain (c := .session_close req) (fun hfrom => hfrom) i sec env
      execute := by
        intro s₁ secs hall _ hexec
        refine hexec.forall hall ?_
        intro i sec env c hc
        cases hc with
        | command hl => exact hJ i sec env c fun _ => hl
        | @terminate_user username =>
          exact hmain (c := .terminate_user_sessions (some username)) (fun h => h) i sec env
        | @terminate_session safe_id =>
          exact hmain (c := .terminate_session safe_id) (fun h => h) i sec env }

theorem Sys.Initial.wf (h : s.Initial) : s.WF := by
  constructor
  · rw [h.procs]; exact List.nodup_nil
  · rw [h.procs]; simp
  · rw [h.procs]; simp
  · rw [h.procs]; simp
  · rw [h.proc_table]; exact .init
  · rw [h.proc_table, h.procs]; simp [Table.toList_init]
  · rw [h.proc_table]; simp [Table.toList_init]
  · intro i sec hsec
    obtain ⟨hempty, hindex⟩ := h.secmods i sec hsec
    exact ⟨SecMod.indexed_empty hempty, hindex⟩

theorem Sys.Initial.idle (h : s.Initial) : s.Idle := by
  intro p hp
  rw [h.procs] at hp
  simp at hp

/-- What the steps of a run keep that meet `C`, as long as the tables agree. -/
theorem Sys.invariant_of_run {init X : Sys → Prop} {C : Transition Sys (Sys.Event × Sys.Env) → Prop}
    (hrun : Run init Sys.Step trace s) (hall : ∀ t ∈ trace, C t)
    (hinit : ∀ s, init s → s.WF ∧ s.Idle ∧ X s)
    (hstep : ∀ {s l s'}, s.WF → s.Idle → X s → Sys.Step s l s' → C ⟨s, l, s'⟩ → X s') :
    s.WF ∧ s.Idle ∧ X s :=
  hrun.invariant_of_forall hinit (fun _ _ _ ⟨hwf, hidle, hX⟩ hs hC =>
    ⟨hwf.step hidle hs, hidle.step hwf hs, hstep hwf hidle hX hs hC⟩) hall

/-- In every reachable state the tables of main and sec-mod agree, and the workers that
have not presented a cookie have no session. -/
theorem Sys.sound_of_reachable (h : Reachable Sys.Initial Sys.Step s) : s.WF ∧ s.Idle := by
  have hinit : ∀ s : Sys, s.Initial → s.WF ∧ s.Idle := fun s hinit => ⟨hinit.wf, hinit.idle⟩
  have hstep : ∀ s l s', s.WF ∧ s.Idle → Sys.Step s l s' → s'.WF ∧ s'.Idle :=
    fun s l s' hs hstep => ⟨hs.1.step hs.2 hstep, hs.2.step hs.1 hstep⟩
  exact h.invariant hinit hstep

/-- The search for a session gives a worker that holds it, and fails only if there is none. -/
theorem session_search_exact (h : Reachable Sys.Initial Sys.Step s) (sid : Sid) :
    (∀ q, s.main.proc_search_sid sid = some q → q ∈ s.main.procs ∧ q.active_sid ∧ q.sid = sid) ∧
      (s.main.proc_search_sid sid = none ↔ ∀ q ∈ s.main.procs, q.active_sid → q.sid ≠ sid) := by
  obtain ⟨hwf, -⟩ := Sys.sound_of_reachable h
  refine ⟨fun q => hwf.search, fun hnone q => hwf.search_none hnone, fun hall => ?_⟩
  refine Option.eq_none_iff_forall_ne_some.2 fun q hq => ?_
  obtain ⟨hmem, hact, hsid⟩ := hwf.search hq
  exact hall q hmem hact hsid

/-! ## Playing events -/

instance : DecidablePred Sys.FromWorkers := fun cmd =>
  match cmd with
  | .auth_init _ _ | .auth_cont _ | .cli_stats _ _ | .ban_ip_reply _ | .cleanup => isTrue trivial
  | .session_open _ | .session_close _ | .terminate_user_sessions _ | .terminate_session _ =>
    isFalse fun h => h

/-- Whether the event is one that can happen. -/
def Sys.Event.allowed : Sys.Event → Bool
  | .secmod _ _ cmd => decide (Sys.FromWorkers cmd)
  | _ => true

/-- The state after an event, if main goes on after it. -/
def Sys.advance (s : Sys) (l : Sys.Event × Sys.Env) : Option Sys :=
  if l.1.allowed then (s.exec l.2 l.1).bind Except.toOption else none

theorem Sys.step_of_advance (h : s.advance l = some s') :
    Sys.Step s l s' := by
  obtain ⟨hallowed, h⟩ := Option.ite_none_right_eq_some.1 h
  refine ⟨?_, fun index env cmd hev => ?_⟩
  · obtain ⟨r, hexec, hr⟩ := Option.bind_eq_some_iff.1 h
    cases r with
    | error f => simp [Except.toOption] at hr
    | ok s₁ => rw [hexec, Option.some.inj hr]
  · rw [hev] at hallowed
    exact of_decide_eq_true hallowed

/-- The state after an event that main survives. -/
def Sys.after (s : Sys) (l : Sys.Event × Sys.Env) : Sys := (s.advance l).getD s

theorem Sys.step_after (h : (s.advance l).isSome) :
    Sys.Step s l (s.after l) := by
  obtain ⟨s', hs'⟩ := Option.isSome_iff_exists.1 h
  rw [Sys.after, hs']
  exact Sys.step_of_advance hs'

/-- The state after a list of events. -/
def Sys.play (s : Sys) (ls : List (Sys.Event × Sys.Env)) : Option Sys :=
  Runs.exec Sys.advance (fun _ _ => True) ls s

/-- Events that lead to a state with `P` show that it can be reached. -/
theorem Sys.exists_of_play {P : Sys → Prop} [DecidablePred P] (hinit : s₀.Initial)
    (h : (s₀.play ls).any (P ·)) : ∃ s, Reachable Sys.Initial Sys.Step s ∧ P s := by
  obtain ⟨s, hs, hP⟩ := (Option.any_eq_true _ _).1 h
  exact ⟨s, ((ReachableBy.start hinit).exec (fun _ _ _ => Sys.step_of_advance) hs).reachable,
    of_decide_eq_true hP⟩

/-- Play events one after the other, and record the transitions. -/
def Sys.replay (s : Sys) (trace : List (Transition Sys (Sys.Event × Sys.Env))) :
    List (Sys.Event × Sys.Env) → Option (List (Transition Sys (Sys.Event × Sys.Env)) × Sys)
  | [] => some (trace, s)
  | l :: ls => (s.advance l).bind fun s' => s'.replay (⟨s, l, s'⟩ :: trace) ls

theorem Sys.run_of_replay {trace' : List (Transition Sys (Sys.Event × Sys.Env))}
    (hrun : Run Sys.Initial Sys.Step trace s₀) (h : s₀.replay trace ls = some (trace', s)) :
    Run Sys.Initial Sys.Step trace' s := by
  induction ls generalizing trace s₀ with
  | nil =>
    cases h
    exact hrun
  | cons l ls ih =>
    obtain ⟨s₁, hadv, hplay⟩ := Option.bind_eq_some_iff.1 h
    exact ih (hrun.snoc (Sys.step_of_advance hadv)) hplay

end System

/-! ## A small system on which events can be played -/

namespace Sample

local instance systemPlatform : Platform := Platform.simple

/-- Main succeeds in everything. -/
def env : MainEnv where
  time := 100
  sec := secEnv 0
  rnd_dtls_id := some []
  rnd_ipv4 n := some (BitVec.ofNat 32 (n + 2))
  rnd_ipv6 n := some (BitVec.ofNat 128 (n + 2))
  icmp_ping4 _ _ := 0
  icmp_ping6 _ _ := 0
  os_open_tun := some "vpns0".toList
  set_network_info := 0
  set_mtu := 0
  fork := 1
  send_msg_to_worker := 0
  route_cmd _ := 0
  script_status := ⟨0, by decide⟩
  waitpid_ok := true
  add_str_ip_to_ban_list := 0
  check_if_banned := false

/-- One virtual host with a password method, and a network to take addresses from. -/
def vconfig (config : Cfg) : VConfig where
  default_vhost :=
    { auth := [⟨true, AUTH_TYPE_PLAIN, some ⟨false, true⟩⟩]
      config :=
        { config with
          network :=
            { ipv4_network := some "10.0.0.0".toList
              ipv4_netmask := some "255.255.255.0".toList } } }

def secmod (config : Cfg) (index : Fin 256) : SecMod where
  vconfig := vconfig config
  sec_mod_instance_index := index
  index_le := Nat.le_trans (Nat.le_of_lt index.2) (by decide)
  hmac_key := []

/-- Main and its instances of sec-mod. -/
def start (config : Cfg) (instances : List (Fin 256)) : Sys where
  main := { vconfig := vconfig config }
  secmods := instances.map (secmod config)

/-- The index of the first instance. -/
def first : Fin 256 := 0

/-- The only instance of sec-mod, with the default configuration. -/
def lone : SecMod := secmod {} 0

/-- The server with one instance of sec-mod and the default configuration. -/
def single : Sys := start {} [0]

/-- The worker with this pid starts an authentication with a password. -/
def signIn (user remote_ip : CStr) (pid : Nat) : SecMod.Cmd :=
  .auth_init (initMsg user remote_ip) pid

/-- A user logs in with a password from the address `remote_ip` and gets the identifier
with the number `n`. -/
def login (index : Nat) (n : UInt8) (user remote_ip : CStr) : Sys.Event × Sys.Env :=
  (.secmod index (secEnv n) (signIn user remote_ip (n.toNat + 1)), fun _ => env)

/-- A client connects from the address `remote_addr`. -/
def connect (pid : Int) (remote_addr : SockAddr) : Sys.Event × Sys.Env :=
  (.accept pid 100 remote_addr [], fun _ => env)

/-- The worker `w` presents a cookie. -/
def cookie (w : Nat) (sid : Sid) : Sys.Event × Sys.Env :=
  (.worker w (.auth_cookie_req (some ⟨sid.1, none⟩)), fun _ => env)

/-- The worker `w` is gone. -/
def hangup (w : Nat) : Sys.Event × Sys.Env :=
  (.worker w (.unreadable ERR_WORKER_TERMINATED (by decide)), fun _ => env)

theorem start_initial (config : Cfg) {instances : List (Fin 256)}
    (h : instances.map Fin.val = List.range instances.length) :
    (start config instances).Initial := by
  refine ⟨rfl, rfl, rfl, rfl, rfl, fun i sec hsec => ?_⟩
  change (instances.map (secmod config))[i]? = some sec at hsec
  rw [List.getElem?_map] at hsec
  obtain ⟨index, hindex, rfl⟩ := Option.map_eq_some_iff.1 hsec
  have hval : (instances.map Fin.val)[i]? = some index.val := by
    rw [List.getElem?_map, hindex, Option.map_some]
  rw [h, List.getElem?_range (List.getElem?_eq_some_iff.1 hindex).1] at hval
  exact ⟨rfl, (Option.some.inj hval).symm⟩

/-! A user has logged in, a worker has been started for the client, and has presented the
cookie. -/

def enrolled : Sys := single.after (login 0 1 "alice".toList "1".toList)

def joined : Sys := enrolled.after (connect 5 [49])

def working : Sys := joined.after (cookie 0 (sid 0 1))

theorem run_working : Run Sys.Initial Sys.Step
    [⟨joined, cookie 0 (sid 0 1), working⟩, ⟨enrolled, connect 5 [49], joined⟩,
      ⟨single, login 0 1 "alice".toList "1".toList, enrolled⟩] working :=
  .snoc (.snoc (.snoc (.start (start_initial {} rfl)) (Sys.step_after (by decide +kernel)))
    (Sys.step_after (by decide +kernel))) (Sys.step_after (by decide +kernel))

theorem session_search_working : ∃ P : Platform, ∃ s : @Sys P, ∃ q ∈ s.main.procs,
    s.main.proc_search_sid (sid 0 1) = some q ∧ q.sid = sid 0 1 := by
  have hsome : (working.main.proc_search_sid (sid 0 1)).isSome := by decide +kernel
  obtain ⟨q, hq⟩ := Option.isSome_iff_exists.1 hsome
  obtain ⟨hmem, -, hsid⟩ := (session_search_exact ⟨_, run_working⟩ _).1 q hq
  exact ⟨_, working, q, hmem, hq, hsid⟩

end Sample
end Ocserv

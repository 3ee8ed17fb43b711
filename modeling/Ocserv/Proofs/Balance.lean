import Ocserv.Lib.Members
import Ocserv.Proofs.System

/-!
# The sessions that sec-mod counts and the workers that hold them

Sec-mod counts a session when it answers an open request, and main closes the session
of a worker that it removes.  The counters are right as long as main takes every session
that is opened for it, and closes no session whose entry has failed in the meantime.
-/

namespace Ocserv

open HTable List Option Outcome Runs SecMod

section Balance

variable [Platform]

/-- Whether the worker holds the session. -/
def Proc.holds (p : Proc) (sid : Sid) : Bool := p.active_sid && p.sid == sid

/-- The number of workers of main that hold the session. -/
def Main.holders (m : Main) (sid : Sid) : Nat := m.procs.countP fun p => p.holds sid

/-- The counter of every entry is the number of workers that hold the session. -/
def Sys.Balanced (s : Sys) : Prop :=
  ∀ (i : Nat) (sec : SecMod) (sid : Sid) (e : ClientEntry), s.secmods[i]? = some sec →
    sec.client_db.find sid = some e → e.in_use = s.main.holders sid

/-- The entry of the session that the worker `o` holds has not failed. -/
def Sys.Settled (o : Option Nat) (s : Sys) : Prop :=
  ∀ p ∈ s.main.procs, o = some p.id → p.active_sid → ∀ (sec : SecMod) (e : ClientEntry),
    s.secmods[p.sec_mod_instance_index]? = some sec → sec.client_db.find p.sid = some e →
    e.status = .completed

variable {s s' : Sys} {m m' : Main} {p p' q : Proc} {sid : Sid} {o : Option Nat}

/-! ## Counting the holders -/

omit [Platform] in
theorem Proc.holds_iff : p.holds sid = true ↔ p.active_sid ∧ p.sid = sid := by
  rw [Proc.holds, Bool.and_eq_true, beq_iff_eq]

omit [Platform] in
theorem Proc.holds_of_inactive (h : p.active_sid = false) (sid : Sid) : p.holds sid = false := by
  rw [Proc.holds, h, Bool.false_and]

omit [Platform] in
theorem Proc.SameLink.holds (h : p.SameLink p') (sid : Sid) : p'.holds sid = p.holds sid := by
  rw [Proc.holds, Proc.holds, h.active_sid, h.sid]

theorem Main.holders_others (hids : (m.procs.map Proc.id).Nodup) (hmem : p ∈ m.procs) (sid : Sid) :
    m.holders sid = (Members.others Proc.id p.id m.procs).countP (fun q => q.holds sid) +
      if p.holds sid then 1 else 0 := by
  rw [Main.holders, (Members.perm_cons_others hids hmem).countP_eq, countP_cons]

/-- Writing back a worker changes its own share only. -/
theorem Main.holders_store (hids : (m.procs.map Proc.id).Nodup) (hmem : p ∈ m.procs)
    (hid : p'.id = p.id) (sid : Sid) :
    (m.store p').holders sid + (if p.holds sid then 1 else 0) =
      m.holders sid + if p'.holds sid then 1 else 0 := by
  have hstored : (m.store p').procs.Perm (p' :: Members.others Proc.id p.id m.procs) :=
    Members.perm_store hids hmem hid
  rw [Main.holders_others hids hmem, Main.holders, hstored.countP_eq, countP_cons]
  omega

theorem Main.holders_store_sameLink (hids : (m.procs.map Proc.id).Nodup) (hmem : p ∈ m.procs)
    (hlink : p.SameLink p') (sid : Sid) : (m.store p').holders sid = m.holders sid := by
  have hstore := Main.holders_store hids hmem hlink.id sid
  rw [hlink.holds] at hstore
  omega

/-! ## What the commands do to the counters -/

variable (env : SecEnv) (sec : SecMod) {e' : ClientEntry}

/-- The commands that sec-mod gets from workers, and the terminations, keep the counters
of the entries that stay; a new entry has none. -/
theorem SecMod.exec_in_use {c : Cmd} (hopen : ∀ req, c ≠ .session_open req)
    (hclose : ∀ req, c ≠ .session_close req)
    (hfind : (sec.exec env c).1.client_db.find sid = some e') :
    (∃ e, sec.client_db.find sid = some e ∧ e'.in_use = e.in_use) ∨
      e'.in_use = 0 ∧ Generated env sec sid ∧ ∃ req pid, c = .auth_init req pid := by
  obtain ⟨new, hstep, -⟩ := exec_entryStep env sec c sid
  have hsid := ClientDb.find_sid hfind
  rw [hfind] at hstep
  generalize hpre : sec.client_db.find sid = o at hstep
  cases hstep with
  | idle => exact .inl ⟨e', rfl, rfl⟩
  | init hcreated => exact .inr ⟨hcreated.in_use, hsid ▸ hcreated.generated, _, _, rfl⟩
  | cont_failed hprogress => exact .inl ⟨_, rfl, hprogress.sameSession.in_use⟩
  | cont_step _ _ hout => exact .inl ⟨_, rfl, hout.progress.sameSession.in_use⟩
  | banned => exact .inl ⟨_, rfl, rfl⟩
  | reported => exact .inl ⟨_, rfl, rfl⟩
  | opening => exact absurd rfl (hopen _)
  | closing => exact absurd rfl (hclose _)

/-- An open request that is not answered by a session leaves the counters alone. -/
theorem SecMod.session_open_in_use {req : SecmSessionOpenMsg}
    (hreply : ∀ info, (sec.handle_secm_session_open_cmd env req).reply ≠ some (.ok info))
    (hfind : (sec.handle_secm_session_open_cmd env req).sec.client_db.find sid = some e') :
    ∃ e, sec.client_db.find sid = some e ∧ e'.in_use = e.in_use := by
  obtain ⟨new, hstep, -⟩ := exec_entryStep env sec (.session_open req) sid
  rw [show (exec env sec (.session_open req)).1.client_db.find sid = some e' from hfind] at hstep
  generalize sec.client_db.find sid = o at hstep
  cases hstep with
  | idle => exact ⟨e', rfl, rfl⟩
  | opening _ _ hwrite hr =>
    refine ⟨_, rfl, ?_⟩
    cases hwrite with
    | expired | denied | deferred => rfl
    | opened => exact absurd hr (hreply _)

/-- A close request that is answered takes one from the counter of a completed entry. -/
theorem SecMod.session_close_in_use {req : SecmSessionCloseMsg} {reply : CloseReply} {sid' : Sid}
    (hsid : req.sid = sid.1) (hreply : (sec.handle_secm_session_close_cmd env req).2.1 = some reply)
    (hfind : (sec.handle_secm_session_close_cmd env req).1.client_db.find sid' = some e') :
    ∃ e, sec.client_db.find sid' = some e ∧ (sid' ≠ sid → e'.in_use = e.in_use) ∧
      (sid' = sid → e.status = .completed → e'.in_use = e.in_use - 1) := by
  obtain ⟨new, hstep, -⟩ := exec_entryStep env sec (.session_close req) sid'
  rw [show (exec env sec (.session_close req)).1.client_db.find sid' = some e' from hfind] at hstep
  generalize hpre : sec.client_db.find sid' = o at hstep
  cases hstep with
  | idle hno =>
    refine ⟨e', rfl, fun _ => rfl, fun heq hst => absurd ⟨congrArg some ?_, hst⟩ (hno e' rfl)⟩
    rw [hsid, ← heq, ClientDb.find_sid hpre]
  | @closing _ e _ _ _ hreq _ hwrite hr =>
    have hown : sid' = sid := by
      rw [← ClientDb.find_sid hpre]
      exact Subtype.ext (hreq.symm.trans hsid)
    refine ⟨e, rfl, fun hne => absurd hown hne, fun _ _ => ?_⟩
    have hsome := hr.symm.trans hreply
    cases hwrite with
    | unanswered => cases hsome
    | left => rfl

/-! ## The invariant -/

/-- The counters are right, and the worker `o` can be removed. -/
structure Sys.Counting (o : Option Nat) (s : Sys) : Prop where
  wf : s.WF
  balanced : s.Balanced
  settled : s.Settled o

theorem Sys.Balanced.of_holders (h : s.Balanced) (hsecs : s'.secmods = s.secmods)
    (hholders : ∀ sid, s'.main.holders sid = s.main.holders sid) : s'.Balanced := by
  intro i sec sid e hsec hfind
  rw [hsecs] at hsec
  rw [hholders]
  exact h i sec sid e hsec hfind

theorem Sys.Counting.put (h : s.Counting o) (hfind : s.main.find_proc p.id = some p)
    (hlink : p.SameLink p') (hprocs : s'.main.procs = (s.main.store p').procs)
    (hdb : s'.main.proc_table.db_sid = s.main.proc_table.db_sid)
    (hnext : s.main.next ≤ s'.main.next) (hsecs : s'.secmods = s.secmods) : s'.Counting o := by
  obtain ⟨hmem, -⟩ := Main.find_proc_eq_some hfind
  refine ⟨h.wf.put hfind hlink hprocs hdb hnext hsecs, ?_, ?_⟩
  · refine h.balanced.of_holders hsecs fun sid => ?_
    rw [← Main.holders_store_sameLink h.wf.ids hmem hlink sid, Main.holders, Main.holders, hprocs]
  · intro q hq ho hact sec e hsec hentry
    rw [hprocs] at hq
    rw [hsecs] at hsec
    rcases Main.mem_store.1 hq with ⟨rfl, -⟩ | ⟨hq, -⟩
    · rw [hlink.active_sid] at hact
      rw [hlink.index hact] at hsec
      rw [hlink.sid] at hentry
      exact h.settled p hmem (hlink.id ▸ ho) hact sec e hsec hentry
    · exact h.settled q hq ho hact sec e hsec hentry

theorem Sys.Counting.quiet (h : s.Counting o) (hq : s.main.Quiet s'.main)
    (hsecs : s'.secmods = s.secmods) : s'.Counting o := by
  refine ⟨h.wf.quiet hq hsecs, h.balanced.of_holders hsecs fun sid => ?_, ?_⟩
  · rw [Main.holders, Main.holders, hq.procs]
  · rw [Sys.Settled, hq.procs, hsecs]
    exact h.settled

theorem Sys.Counting.phases (o : Option Nat) (env : MainEnv) : Phases (Sys.Counting o) env :=
  phases_of_put Sys.Counting.quiet (fun h hfind hproc => h.put hfind hproc.toSameLink) env

/-! ## Opening a session -/

/-- The holders after a session has been attached to a worker that had none. -/
theorem Main.attach_holders {hostname : Option CStr} (hids : (m.procs.map Proc.id).Nodup)
    (hmem : q ∈ m.procs) (hid : p.id = q.id)
    (hact : q.active_sid = false) (sid' : Sid) :
    ((m.attach p sid hostname).1.store (m.attach p sid hostname).2).holders sid' =
      m.holders sid' + if sid' = sid then 1 else 0 := by
  have hprocs := Sys.put_attach_procs m p sid hostname []
  rw [Sys.put] at hprocs
  generalize hp' : (m.attach p sid hostname).2 = p' at hprocs ⊢
  have hhold : p'.holds sid' = decide (sid' = sid) := by
    rw [← hp']
    simp only [Proc.holds, Main.attach, Bool.true_and]
    rw [Bool.beq_eq_decide_eq, decide_eq_decide]
    exact eq_comm
  have hp'id : p'.id = q.id := by rw [← hp', ← hid]; rfl
  have hstore := Main.holders_store hids hmem hp'id sid'
  rw [Proc.holds_of_inactive hact, hhold] at hstore
  rw [Main.holders, hprocs]
  simpa [Main.holders] using hstore

/-- The steps that keep the counters right. -/
structure Sys.Accounted (s : Sys) (l : Sys.Event × Sys.Env) : Prop where
  /-- main takes the session that a cookie opens: the address may be used, and the worker
  that has the session belongs to the same user -/
  accepted : ∀ {w : Nat} {msg : WorkerMsg} {p : Proc} {req : AuthCookieRequestMsg} {sid : Sid}
    {sec : SecMod} {e : ClientEntry} {config : GroupCfg}, l.1 = .worker w msg →
    s.main.find_proc w = some p → CookieReq s p msg req sid sec →
    sec.client_db.find sid = some e → sup_config (l.2 w).sec e = some config →
    roaming_denied (session_config s.main.vconfig e.vhost.name config) p.remote_addr
        e.acct_info.remote_ip = false ∧
      ∀ old, s.main.proc_search_sid sid = some old →
        old.username = strlcpy e.acct_info.username MAX_USERNAME_SIZE
  /-- the entry of a worker that may be removed has not failed -/
  settled : s.Settled l.1.about
  /-- no new session gets the identifier of one that a worker still holds -/
  unused : ∀ {index : Nat} {env : SecEnv} {req : SecAuthInitMsg} {pid : Nat} {sec : SecMod}
    {sid : Sid}, l.1 = .secmod index env (.auth_init req pid) → s.secmods[index]? = some sec →
    Generated env sec sid → s.main.holders sid = 0

section Cookie

variable {w : Nat} {env : MainEnv} {msg : WorkerMsg} {req : AuthCookieRequestMsg}
  {sec sec₁ : SecMod}
  {m₁ : Main} {p₁ : Proc} {result : Int}

/-- The counters stay right if those of one instance do, and the sessions of the others have
the same holders. -/
theorem Sys.Balanced.set {i : Nat} (hwf : s.WF) (h : s.Balanced)
    (hsecs : s'.secmods = s.secmods.set i sec₁)
    (hown : ∀ sid e, sec₁.client_db.find sid = some e → e.in_use = s'.main.holders sid)
    (hothers : ∀ sid, i ≠ sec_mod_instance_index_get sid →
      s'.main.holders sid = s.main.holders sid) : s'.Balanced := by
  intro j sec' sid e hsec' hfind
  rw [hsecs, List.getElem?_set] at hsec'
  split at hsec'
  · split at hsec'
    · cases hsec'
      exact hown sid e hfind
    · simp at hsec'
  · next hne =>
    obtain ⟨hindexed, hindex⟩ := hwf.secmods j sec' hsec'
    rw [hothers sid fun heq => hne (heq.trans ((hindexed.index sid e hfind).trans hindex))]
    exact h j sec' sid e hsec' hfind

theorem Sys.Counting.cookie (h : s.Counting (some w)) (hfind : s.main.find_proc w = some p)
    (hact : p.active_sid = false) (hreq : CookieReq s p msg req sid sec)
    (hans : Answered env s p req sid sec m₁ sec₁ p₁ result)
    (haccepted : ∀ e config, sec.client_db.find sid = some e → sup_config env.sec e = some config →
      roaming_denied (session_config s.main.vconfig e.vhost.name config) p.remote_addr
          e.acct_info.remote_ip = false ∧
        ∀ old, s.main.proc_search_sid sid = some old →
          old.username = strlcpy e.acct_info.username MAX_USERNAME_SIZE) :
    At (Sys.Counting (some w)) (s.secmods.set (sec_mod_instance_index_get sid) sec₁) w m₁ p₁ := by
  obtain ⟨hid, hmem₁, hwf⟩ := h.wf.cookie hfind hact hreq hans
  obtain ⟨hmem, rfl⟩ := Main.find_proc_eq_some hfind
  -- the counter of the session and the number of its holders grow together
  suffices hcount : ∃ δ, (∀ sid' e', sec₁.client_db.find sid' = some e' → ∃ e,
        sec.client_db.find sid' = some e ∧ e'.in_use = e.in_use + if sid' = sid then δ else 0) ∧
      (∀ sid', (m₁.store p₁).holders sid' = s.main.holders sid' + if sid' = sid then δ else 0) ∧
      (p₁.active_sid → p₁.sec_mod_instance_index = sec_mod_instance_index_get sid ∧
        ∀ e, sec₁.client_db.find p₁.sid = some e → e.status = .completed) by
    obtain ⟨δ, hcounts, hholders, hsettled⟩ := hcount
    refine ⟨hid, hmem₁, hwf,
      h.balanced.set h.wf rfl (fun sid' e' hfind' => ?_) fun sid' hne => ?_, ?_⟩
    · obtain ⟨e, hfind₀, huse⟩ := hcounts sid' e' hfind'
      rw [huse, h.balanced _ sec sid' e hreq.sec hfind₀]
      exact (hholders sid').symm
    · refine (hholders sid').trans ?_
      rw [if_neg (by rintro rfl; exact hne rfl), Nat.add_zero]
    · intro q hq ho hact' sec' e' hsec' hfind'
      rcases Main.mem_store.1 hq with ⟨rfl, -⟩ | ⟨-, hne⟩
      · obtain ⟨hindex, hstatus⟩ := hsettled hact'
        change (s.secmods.set _ sec₁)[q.sec_mod_instance_index]? = some sec' at hsec'
        rw [hindex, List.getElem?_set_self (List.getElem?_eq_some_iff.1 hreq.sec).1] at hsec'
        exact hstatus e' (some.inj hsec' ▸ hfind')
      · exact absurd ((some.inj ho).symm.trans hid.symm) hne
  -- the worker has got no session
  have hnone : ∀ {p₂ : Proc}, p₁ = p₂ → m₁ = s.main → Proc.SameHolder
      { p with sec_mod_instance_index := sec_mod_instance_index_get sid } p₂ →
      (∀ sid', (m₁.store p₁).holders sid' = s.main.holders sid' + if sid' = sid then 0 else 0) ∧
        (p₁.active_sid → p₁.sec_mod_instance_index = sec_mod_instance_index_get sid ∧
          ∀ e, sec₁.client_db.find p₁.sid = some e → e.status = .completed) := by
    rintro p₂ rfl rfl hsame
    have hlink : p.SameLink p₁ :=
      ⟨hsame.id, hsame.pid, hsame.sid, hsame.active_sid, by simp [hact]⟩
    refine ⟨fun sid' => ?_, by simp [hlink.active_sid, hact]⟩
    rw [ite_self]
    exact Main.holders_store_sameLink h.wf.ids hmem hlink sid'
  cases hans.step hreq with
  | refused hsame =>
    exact ⟨0, fun _ e' hfind' => ⟨e', hfind', by simp⟩, hnone rfl rfl hsame.toSameHolder⟩
  | unopened hsame hreply =>
    refine ⟨0, fun sid' e' hfind' => ?_, hnone rfl rfl hsame.toSameHolder⟩
    simpa using SecMod.session_open_in_use env.sec sec hreply hfind'
  | @lost info _ hreply hlost hload =>
    obtain ⟨e, hopened⟩ := session_open_opened env.sec sec rfl hreply
    obtain ⟨hroam, hname⟩ := haccepted e info.config hopened.find hopened.config
    rw [hopened.vhost, hopened.ip, hopened.username] at hlost
    rcases hlost with hdenied | ⟨old, hold, hne⟩
    · exact absurd (hroam.symm.trans hdenied) (by decide)
    · exact absurd (hname old hold).symm hne
  | fresh hreply _ hload =>
    obtain ⟨e, hopened⟩ := session_open_opened env.sec sec rfl hreply
    exact ⟨1, hopened.counts, Main.attach_holders h.wf.ids hmem hload.same.id hact,
      fun _ => ⟨hload.same.index, hopened.status⟩⟩
  | @taken _ old p₂ hreply hold _ _ hload =>
    obtain ⟨e, hopened⟩ := session_open_opened env.sec sec rfl hreply
    obtain ⟨hmem', hact', -⟩ := h.wf.search hold
    have hne : p.id ≠ old.id := by
      intro heq
      obtain rfl := inj_on_of_nodup_map h.wf.ids hmem hmem' heq
      simp [hact] at hact'
    have hrobbed : old.SameLink (old.robbed s.main.next) := ⟨rfl, rfl, rfl, rfl, fun _ => rfl⟩
    have hfst := @Main.take_over_fst _ s.main old p₂ (h.wf.pid old hmem')
    refine ⟨1, hopened.counts, fun sid' => ?_, fun _ => ⟨hload.same.index, hopened.status⟩⟩
    refine (Main.attach_holders (q := p) (p := p₂.heir old) ?_ ?_ hload.same.id hact sid').trans ?_
    · rw [hfst, Main.ids_store]
      exact h.wf.ids
    · rw [hfst]
      exact Main.mem_store.2 (.inr ⟨hmem, hne⟩)
    · rw [hfst]
      exact congrArg (· + _) (Main.holders_store_sameLink (m := s.main) h.wf.ids hmem' hrobbed sid')

end Cookie

/-! ## Closing a session -/

theorem Sys.Counting.removed {env : MainEnv} (h : s.Counting (some p.id))
    (hfind : s.main.find_proc p.id = some p) (hrem : Removed env s p s') :
    s'.Counting (some p.id) := by
  obtain ⟨hmem, -⟩ := Main.find_proc_eq_some hfind
  have hholders : ∀ sid, s.main.holders sid =
      s'.main.holders sid + if p.holds sid then 1 else 0 := by
    intro sid
    rw [Main.holders_others h.wf.ids hmem, Main.holders, hrem.procs]
    rfl
  refine ⟨h.wf.removed hfind hrem, ?_, ?_⟩
  · cases hact : p.active_sid with
    | false =>
      refine h.balanced.of_holders (hrem.idle hact) fun sid => ?_
      rw [hholders, Proc.holds_of_inactive hact]
      rfl
    | true =>
      obtain ⟨sec, reply, hsec, hreply, hsecs⟩ := hrem.closed hact
      have hindex := h.wf.index p hmem hact
      refine h.balanced.set h.wf hsecs (fun sid e' hfind' => ?_) fun sid hne => ?_
      · obtain ⟨e, hfind₀, hother, hsame⟩ :=
          SecMod.session_close_in_use env.sec sec rfl hreply hfind'
        have hshare := hholders sid
        rw [← h.balanced _ sec sid e hsec hfind₀] at hshare
        by_cases heq : sid = p.sid
        · have hst := h.settled p hmem rfl hact sec e hsec (heq ▸ hfind₀)
          rw [hsame heq hst, hshare, if_pos (Proc.holds_iff.2 ⟨hact, heq.symm⟩)]
          omega
        · rw [hother heq, hshare, if_neg fun hh => heq (Proc.holds_iff.1 hh).2.symm]
          omega
      · have hnot : ¬ p.holds sid := fun hh => hne (hindex.trans (by rw [(Proc.holds_iff.1 hh).2]))
        rw [hholders, if_neg hnot]
        rfl
  · intro q hq ho
    rw [hrem.procs, mem_filter, bne_iff_ne] at hq
    exact absurd (some.inj ho).symm hq.2

/-! ## Other events -/

theorem Sys.Counting.accept (h : s.Counting o) {pid time : Int} (hpid : 0 < pid)
    (remote_addr our_addr : SockAddr) :
    Sys.Counting o { s with main := s.main.new_proc pid time remote_addr our_addr } := by
  refine ⟨h.wf.accept hpid remote_addr our_addr, h.balanced.of_holders rfl fun sid => ?_, ?_⟩
  · simp only [Main.holders, Main.new_proc, countP_cons, Proc.holds, Bool.false_and,
      Bool.false_eq_true, if_false, Nat.add_zero]
  · intro q hq ho hact
    rcases mem_cons.1 hq with rfl | hq
    · simp at hact
    · exact h.settled q hq ho hact

/-- Commands that are no requests of main. -/
theorem Sys.Balanced.executed {P : Nat → SecEnv → Cmd → Prop} (h : s.Balanced)
    (hmain : s'.main = s.main) (hexec : Sys.Executed P s.secmods s'.secmods)
    (hopen : ∀ i env req, ¬ P i env (.session_open req))
    (hclose : ∀ i env req, ¬ P i env (.session_close req))
    (hunused : ∀ (i : Nat) env req pid sec sid, P i env (.auth_init req pid) →
      s.secmods[i]? = some sec → Generated env sec sid → s.main.holders sid = 0) :
    s'.Balanced := by
  intro i sec' sid e' hsec' hfind
  rw [hmain]
  obtain ⟨sec, hsec, hcmd⟩ := hexec i sec' hsec'
  rcases hcmd with rfl | ⟨env, c, hc, rfl⟩
  · exact h i sec' sid e' hsec hfind
  · rcases SecMod.exec_in_use env sec (fun req heq => hopen i env req (heq ▸ hc))
      (fun req heq => hclose i env req (heq ▸ hc)) hfind with
      ⟨e, hfind₀, huse⟩ | ⟨huse, hgen, req, pid, rfl⟩
    · rw [huse]
      exact h i sec sid e hsec hfind₀
    · rw [huse, hunused i env req pid sec sid hc hsec hgen]

/-! ## Steps and runs -/

theorem Sys.Balanced.step {l : Sys.Event × Sys.Env} (h : s.Balanced) (hwf : s.WF) (hidle : s.Idle)
    (hacc : s.Accounted l) (hstep : Sys.Step s l s') : s'.Balanced := by
  have hcounting : s.Counting l.1.about := ⟨hwf, h, hacc.settled⟩
  have hrule : EventRule (Sys.Counting l.1.about) s l s' :=
    { accept := fun _ hpid => hcounting.accept hpid _ _
      cookie := by
        intro w p msg req sid sec m₁ sec₁ p₁ result hev hfind hreq hans
        have habout : l.1.about = some w := by rw [hev]; rfl
        rw [habout] at hcounting ⊢
        have hact := hidle p (Main.find_proc_eq_some hfind).1 (by simp) hreq.status
        exact hcounting.cookie hfind hact hreq hans
          fun e config hentry hconfig => hacc.accepted hev hfind hreq hentry hconfig
      remove := by
        intro w s₁ p₁ kill habout hat hrun
        rw [habout] at hat ⊢
        obtain rfl := hat.id
        exact hat.inv.removed hat.find (remove_proc_removed hrun)
      execute := by
        intro s₁ secs h₁ hsame hexec
        refine ⟨h₁.wf.executed rfl hexec, h₁.balanced.executed rfl hexec ?_ ?_ ?_, ?_⟩
        · rintro i env req (⟨-, hfrom⟩)
          exact hfrom
        · rintro i env req (⟨-, hfrom⟩)
          exact hfrom
        · rintro i env req pid sec sid (⟨hl, -⟩) hsec hgen
          obtain rfl := hsame i env _ hl
          exact hacc.unused hl hsec hgen
        · intro p hp ho hact sec' e' hsec' hfind'
          obtain ⟨sec, hsec, hcmd⟩ := hexec _ sec' hsec'
          rcases hcmd with rfl | ⟨env, c, hc, rfl⟩
          · exact h₁.settled p hp ho hact sec' e' hsec hfind'
          -- a termination takes entries away and leaves the others as they are
          obtain ⟨new, hentry, -⟩ := exec_entryStep env sec c p.sid
          rw [hfind'] at hentry
          generalize hpre : sec.client_db.find p.sid = o at hentry
          cases hc with
          | command hl => simp [hl, Sys.Event.about] at ho
          | terminate_user => cases hentry; exact h₁.settled p hp ho hact sec e' hsec hpre
          | terminate_session => cases hentry; exact h₁.settled p hp ho hact sec e' hsec hpre }
  exact (hrule.step (fun w => Sys.Counting.phases _ (l.2 w)) hwf.ids hwf.pid hcounting
    hstep).balanced

/-- In a run whose steps are all accounted for, the counter of every entry that exists is
the number of workers that hold its session. -/
theorem session_count_balanced {trace : List (Transition Sys (Sys.Event × Sys.Env))}
    (hrun : Run Sys.Initial Sys.Step trace s) (hacc : ∀ t ∈ trace, t.pre.Accounted t.label) :
    s.Balanced := by
  refine (Sys.invariant_of_run (C := fun t => t.pre.Accounted t.label) hrun hacc ?_
    fun hwf hidle hbal hstep hacc => Sys.Balanced.step hbal hwf hidle hacc hstep).2.2
  intro s hinit
  refine ⟨hinit.wf, hinit.idle, fun i sec sid e hsec hfind => ?_⟩
  rw [(hinit.secmods i sec hsec).1, ClientDb.find_empty] at hfind
  simp at hfind

end Balance

/-! ## Two runs -/

section Example

open Sample

local instance balancePlatform : Platform := Platform.simple

/-- After a login and a cookie request the session is counted and held once. -/
theorem session_count_balanced_opened : ∃ P : Platform, ∃ s : @Sys P,
    @Sys.Balanced P s ∧ @Main.holders P s.main (sid 0 1) = 1 := by
  have hinactive : ∀ p ∈ joined.main.procs, p.active_sid = false := by decide +kernel
  have hroaming : ∀ sec ∈ joined.secmods, ∀ e ∈ sec.client_db.toList,
      e.vhost.get_sup_config = false ∧ e.vhost.name = none := by decide +kernel
  have hdenied : (find_vhost joined.main.vconfig none).config.deny_roaming = false := by
    decide +kernel
  have hfree : joined.main.proc_search_sid (sid 0 1) = none := by decide +kernel
  refine ⟨Platform.simple, working, session_count_balanced run_working ?_, by decide +kernel⟩
  intro t ht
  simp only [mem_cons, not_mem_nil, or_false] at ht
  rcases ht with rfl | rfl | rfl
  · generalize joined = s at hinactive hroaming hdenied hfree ⊢
    refine ⟨?_, ?_, fun hev => by cases hev⟩
    · intro w msg p req sid' sec e config hev hfind hreq hentry hconfig
      obtain ⟨-, rfl⟩ := Sys.Event.worker.inj hev
      obtain rfl : ⟨(sid 0 1).1, none⟩ = req := by simpa using hreq.msg
      obtain ⟨hsup, hname⟩ := hroaming sec (mem_of_getElem? hreq.sec) e
        (ClientDb.find_eq_some.1 hentry).1
      simp only [sup_config, hsup, Bool.false_eq_true, if_false, some.injEq] at hconfig
      refine ⟨?_, fun old hold => ?_⟩
      · rw [hname, ← hconfig]
        simp [roaming_denied, session_config, apply_default_config, hdenied]
      · obtain rfl : sid 0 1 = sid' := some.inj ((Sid.ofBytes?_val _).symm.trans hreq.cookie)
        cases hfree.symm.trans hold
    · intro p hp _ hact
      simp [hinactive p hp] at hact
  · exact ⟨fun hev => (by cases hev), fun _ _ ho => (by cases ho), fun hev => (by cases hev)⟩
  · exact ⟨fun hev => (by cases hev), fun _ _ ho => (by cases ho), fun _ _ _ => rfl⟩

/-- A session that main refuses because of the address of the client stays counted after
the worker is gone. -/
theorem refused_session_stays_counted : ∃ P : Platform, ∃ s : @Sys P,
    Reachable (@Sys.Initial P) (@Sys.Step P) s ∧ s.main.procs = [] ∧ ¬ @Sys.Balanced P s := by
  have hplay : ((start { deny_roaming := true } [0]).play
      [login 0 1 "alice".toList "1".toList, connect 5 [50], cookie 0 (sid 0 1), hangup 0]).any
        (fun s => s.main.procs = [] ∧ ∃ sec ∈ s.secmods[0]?,
          ∃ e ∈ sec.client_db.find (sid 0 1), e.in_use = 1) := by
    decide +kernel
  obtain ⟨s, hreach, hprocs, sec, hsec, e, hfind, huse⟩ :=
    Sys.exists_of_play (start_initial _ rfl) hplay
  refine ⟨Platform.simple, s, hreach, hprocs, fun hbal => ?_⟩
  have hzero := hbal 0 sec _ e hsec hfind
  rw [huse, Main.holders, hprocs] at hzero
  simp at hzero

end Example
end Ocserv

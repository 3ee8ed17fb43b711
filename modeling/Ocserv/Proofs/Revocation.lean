import Ocserv.Proofs.Termination

/-!
# A disconnect command revokes the cookie

The command marks the worker as invalidated.  While the worker is there main refuses
its cookie, and when it is removed sec-mod is told that the server has ended the session.
Sec-mod then deletes the entry, but only if nobody else is counted in it: the session of
a worker that shares its identifier with another one can be opened again.
-/

namespace Ocserv

open List Option Outcome Runs

section Revocation

variable [Platform]

/-! ## What is demanded -/

/-- No open request with this identifier is granted from now on, unless it is issued
again. -/
def Sys.Revoked (s : Sys) (sid : Sid) : Prop :=
  ∀ trace s', Run (· = s) Step trace s' → (∀ t ∈ trace, ¬ t.label.1.Issues sid) →
    ∀ sec ∈ s'.secmods, ∀ env req, req.sid = sid.1 →
      ∀ info, (sec.handle_secm_session_open_cmd env req).reply ≠ some (.ok info)

/-- No new session gets the identifier of one that a worker holds. -/
def Sys.Unheld (t : Transition Sys (Sys.Event × Sys.Env)) : Prop :=
  ∀ p ∈ t.pre.main.procs, p.active_sid → ¬ t.label.1.Issues p.sid

variable {s s' : Sys} {p q : Proc} {w : Nat} {sid : Sid} {l : Sys.Event × Sys.Env}

/-! ## The entry of a session that is closed or opened -/

namespace SecMod

variable {env : SecEnv} {sec : SecMod} {req : SecmSessionCloseMsg} {reply : CloseReply}
  {e : ClientEntry}

theorem session_close_answered (hsid : req.sid = sid.1)
    (hreply : (sec.handle_secm_session_close_cmd env req).2.1 = some reply)
    (hfind : sec.client_db.find sid = some e) (hst : e.status = .completed) :
    ∃ new, CloseWrite env req e ((sec.handle_secm_session_close_cmd env req).1.client_db.find sid)
      new (some reply) := by
  obtain ⟨new, hstep, -⟩ := exec_entryStep env sec (.session_close req) sid
  show ∃ new, CloseWrite env req e ((exec env sec (.session_close req)).1.client_db.find sid) new _
  have hown : req.sid = e.sid.1 := by rw [hsid, ClientDb.find_sid hfind]
  rw [hfind] at hstep
  generalize (exec env sec (.session_close req)).1.client_db.find sid = o at hstep
  cases hstep with
  | idle hno => exact absurd ⟨congrArg some hown, hst⟩ (hno e rfl)
  | freed hdiscards => cases hdiscards
  | closing _ _ hwrite hr => exact ⟨_, hr.symm.trans hreply ▸ hwrite⟩

/-- The last worker leaves a session that the server has ended. -/
theorem session_close_deletes (hsid : req.sid = sid.1) (hserver : req.server_disconnected)
    (hreply : (sec.handle_secm_session_close_cmd env req).2.1 = some reply)
    (hfind : sec.client_db.find sid = some e) (hst : e.status = .completed)
    (hcookies : e.vhost.config.persistent_cookies = false) (hone : e.in_use ≤ 1) :
    (sec.handle_secm_session_close_cmd env req).1.client_db.find sid = none := by
  have hinv : (save_stats (close_entry env req e)).invalidated := by
    simp [ClientEntry.invalidated, save_stats, close_entry, hcookies, hserver]
  obtain ⟨new, hwrite⟩ := session_close_answered hsid hreply hfind hst
  generalize (sec.handle_secm_session_close_cmd env req).1.client_db.find sid = o at hwrite
  cases hwrite with
  | ended => rfl
  | left _ hvalid => exact absurd (hinv.symm.trans (hvalid (by omega))) (by decide)

/-- A worker leaves a session in which another one is counted. -/
theorem session_close_keeps (hsid : req.sid = sid.1)
    (hreply : (sec.handle_secm_session_close_cmd env req).2.1 = some reply)
    (hfind : sec.client_db.find sid = some e) (hst : e.status = .completed)
    (hmore : 1 < e.in_use) : ∃ e',
      (sec.handle_secm_session_close_cmd env req).1.client_db.find sid = some e' ∧
        e'.status = .completed ∧ 0 < e'.in_use := by
  obtain ⟨new, hwrite⟩ := session_close_answered hsid hreply hfind hst
  generalize (sec.handle_secm_session_close_cmd env req).1.client_db.find sid = o at hwrite
  cases hwrite with
  | ended hlast => omega
  | left => exact ⟨_, rfl, hst, by show 0 < e.in_use - 1; omega⟩

/-- An environment in which the generator, the modules and the channel to main work. -/
def willing : SecEnv :=
  { Sample.secEnv 0 with time := fun _ => 0, rnd_sid := fun _ => none, sup_config := some {} }

theorem open_admitted_granted (sec : SecMod) (e : ClientEntry) :
    ∃ info, (open_admitted willing sec e).reply = some (.ok info) := by
  have hsup : sup_config willing { e with session_is_open := true } = some {} := by
    simp [sup_config, willing]
  have hseed : ∃ seed, ipv4_seed willing { e with session_is_open := true } = some seed := by
    unfold ipv4_seed
    split
    · exact ⟨_, rfl⟩
    · exact ⟨0, rfl⟩
  obtain ⟨seed, hseed⟩ := hseed
  simp only [open_admitted, hseed, hsup]
  exact ⟨_, rfl⟩

/-- A session that somebody is counted in can be opened. -/
theorem session_open_granted (hindex : sec_mod_instance_index_get sid = sec.sec_mod_instance_index)
    (hfind : sec.client_db.find sid = some e) (hst : e.status = .completed)
    (huse : 0 < e.in_use) : ∃ info,
      (sec.handle_secm_session_open_cmd willing ⟨sid.1, none, none⟩).reply = some (.ok info) := by
  have hexp : e.expired (willing.time 0) = false := by
    have hne : (e.in_use == 0) = false := by simpa using Nat.ne_of_gt huse
    rw [ClientEntry.expired, hne, Bool.and_false]
  have hacct : ¬ willing.acct_open_session < 0 := by decide
  have hopen : ∃ info, (open_completed willing sec ⟨sid.1, none, none⟩ e).reply =
      some (.ok info) := by
    unfold open_completed
    rw [hexp]
    simp only [Bool.false_eq_true, if_false, if_neg hacct]
    split
    · exact open_admitted_granted _ _
    · exact open_admitted_granted _ _
  simpa [handle_secm_session_open_cmd, hindex, hfind, hst] using hopen

end SecMod

/-! ## The sessions that workers hold -/

/-- The authentication of this session is over, as far as the instance knows it. -/
def SecMod.Decided (sec : SecMod) (sid : Sid) : Prop :=
  ∀ e, sec.client_db.find sid = some e → e.status = .completed ∨ e.status = .failed

variable {sec sec₁ : SecMod} {msg : WorkerMsg} {req : AuthCookieRequestMsg} {m₁ : Main} {p₁ : Proc}
  {result : Int} {trace : List (Transition Sys (Sys.Event × Sys.Env))}

theorem SecMod.Decided.exec {env : SecEnv} {c : SecMod.Cmd} (h : sec.Decided sid)
    (hgen : ∀ req pid, c = .auth_init req pid → ¬ Generated env sec sid) :
    (sec.exec env c).1.Decided sid := by
  intro e' hfind
  rcases SecMod.exec_entry hfind with ⟨req, pid, hc, hnew, -⟩ | ⟨e, he, -, hst⟩
  · exact absurd hnew (hgen req pid hc)
  · rcases h e he with hdone | hdone
    · simpa [hdone, or_comm] using hst
    · exact .inr (by simpa [hdone] using hst)

/-- A worker only holds sessions whose authentication is over. -/
def Sys.Vetted (s : Sys) : Prop :=
  ∀ p ∈ s.main.procs, p.active_sid → ∀ sec ∈ s.secmods, sec.Decided p.sid

theorem Sys.Vetted.phases (env : MainEnv) : Phases Sys.Vetted env := by
  refine phases_of_put ?_ ?_ env
  · exact fun h hq hsecs p hp hact sec hsec => h p (hq.procs ▸ hp) hact sec (hsecs ▸ hsec)
  · intro s s' p p' h hfind hproc hprocs _ _ hsecs
    rw [Sys.Vetted, hprocs, hsecs]
    refine Main.forall_store h fun hact => ?_
    rw [hproc.sid]
    exact h p (Main.find_proc_eq_some hfind).1 (hproc.active_sid ▸ hact)

/-- The sessions that are held stay decided whatever the instances execute, unless an
identifier is issued again. -/
theorem Sys.Vetted.decided {P : Nat → SecEnv → SecMod.Cmd → Prop} {secs : List SecMod}
    (h : s.Vetted) (hexec : Sys.Executed P s.secmods secs)
    (hgen : ∀ i env req pid (sec : SecMod), P i env (.auth_init req pid) →
      s.secmods[i]? = some sec → ¬ SecMod.Generated env sec p.sid)
    (hp : p ∈ s.main.procs) (hact : p.active_sid) : ∀ sec ∈ secs, sec.Decided p.sid := by
  intro sec' hsec'
  obtain ⟨i, hi⟩ := List.getElem?_of_mem hsec'
  obtain ⟨sec, hsec, rfl | ⟨env, c, hP, rfl⟩⟩ := hexec i sec' hi
  · exact h p hp hact _ (mem_of_getElem? hsec)
  · refine (h p hp hact sec (mem_of_getElem? hsec)).exec ?_
    rintro req pid rfl
    exact hgen i env req pid sec hP hsec

/-- The session that a worker is given has been authenticated. -/
theorem Answered.decided {env : MainEnv} (hwf : s.WF) (hact : p.active_sid = false)
    (hreq : CookieReq s p msg req sid sec) (hans : Answered env s p req sid sec m₁ sec₁ p₁ result)
    (hact₁ : p₁.active_sid) :
    ∀ sec' ∈ s.secmods.set (sec_mod_instance_index_get sid) sec₁, sec'.Decided p₁.sid := by
  have hinactive : ∀ {q : Proc},
      Proc.SameHolder { p with sec_mod_instance_index := sec_mod_instance_index_get sid } q →
      q.active_sid ≠ true := by
    intro q hsame htrue
    have hfalse : q.active_sid = false := hsame.active_sid.trans hact
    simp [hfalse] at htrue
  -- the entry is that of the session which has just been opened
  have hopened : ∀ {env' : SecEnv} {req' : SecmSessionOpenMsg} {info : SessionInfo},
      req'.sid = sid.1 →
      (sec.handle_secm_session_open_cmd env' req').reply = some (.ok info) →
      sec₁ = (sec.handle_secm_session_open_cmd env' req').sec →
      ∀ sec' ∈ s.secmods.set (sec_mod_instance_index_get sid) sec₁, sec'.Decided sid := by
    intro env' req' info hsid hreply hsec₁ sec' hsec' e hfind
    obtain ⟨e₀, hfrom⟩ := SecMod.session_open_opened env' sec hsid hreply
    obtain ⟨i, hi⟩ := List.getElem?_of_mem hsec'
    by_cases hindex : i = sec_mod_instance_index_get sid
    · subst hindex
      have hlt := (List.getElem?_eq_some_iff.1 hreq.sec).1
      rw [List.getElem?_set_self hlt, some.injEq] at hi
      rw [← hi, hsec₁] at hfind
      exact .inl (hfrom.status e hfind)
    · rw [List.getElem?_set_ne (Ne.symm hindex)] at hi
      obtain ⟨hindexed, hi'⟩ := hwf.secmods i sec' hi
      exact absurd ((hindexed.index sid e hfind).trans hi').symm hindex
  cases hans.step hreq with
  | refused hsame => exact absurd hact₁ (hinactive hsame.toSameHolder)
  | unopened hsame => exact absurd hact₁ (hinactive hsame.toSameHolder)
  | lost _ _ hload => exact absurd hact₁ (hinactive hload.same)
  | fresh hreply => exact hopened rfl hreply rfl
  | taken hreply => exact hopened rfl hreply rfl

theorem Sys.Vetted.cookie {env : MainEnv} (hwf : s.WF) (h : s.Vetted) (hmem : p ∈ s.main.procs)
    (hact : p.active_sid = false) (hreq : CookieReq s p msg req sid sec)
    (hans : Answered env s p req sid sec m₁ sec₁ p₁ result) :
    At Sys.Vetted (s.secmods.set (sec_mod_instance_index_get sid) sec₁) p.id m₁ p₁ := by
  obtain ⟨hid, hids⟩ := hans.id hwf hreq
  refine ⟨hid, hids ▸ mem_map_of_mem hmem, ?_⟩
  have hold : ∀ q ∈ s.main.procs, q.active_sid →
      ∀ sec' ∈ s.secmods.set (sec_mod_instance_index_get sid) sec₁, sec'.Decided q.sid := by
    intro q hq hqact
    refine h.decided (hans.executed hreq) ?_ hq hqact
    intro i env' req' pid sec' hopen
    obtain ⟨_, heq⟩ := hopen
    cases heq
  intro q hq hqact
  rcases Main.mem_store.1 hq with ⟨rfl, -⟩ | ⟨hq, hne⟩
  · exact hans.decided hwf hact hreq hqact
  · rcases hans.mem_procs hwf hreq hq (hid ▸ hne) with hq | ⟨old, hmem', rfl⟩
    · exact hold q hq hqact
    · exact hold old hmem' hqact

theorem Sys.Vetted.step (hwf : s.WF) (hidle : s.Idle) (h : s.Vetted) (hstep : Sys.Step s l s')
    (hunheld : Sys.Unheld ⟨s, l, s'⟩) : s'.Vetted := by
  refine EventRule.step ?_ (fun w => Sys.Vetted.phases (l.2 w)) hwf.ids hwf.pid h hstep
  exact
    { accept := by
        intro pid time remote_addr our_addr _ _ p hp hact
        rcases mem_cons.1 hp with rfl | hp
        · cases hact
        · exact h p hp hact
      cookie := by
        intro w p msg req sid sec m₁ sec₁ p₁ result _ hfind hreq hans
        obtain ⟨hmem, rfl⟩ := Main.find_proc_eq_some hfind
        exact h.cookie hwf hmem (hidle p hmem (by simp) hreq.status) hreq hans
      remove := by
        intro w s₁ p₁ kill _ hat hrun p hp hact
        have hremoved := remove_proc_removed hrun
        rw [hremoved.procs] at hp
        refine hat.inv.decided hremoved.executed ?_ (mem_of_mem_filter hp) hact
        intro i env req pid sec hclose
        obtain ⟨_, heq⟩ := hclose
        cases heq
      execute := by
        intro s₁ secs hvetted hsame hexec p hp hact
        refine hvetted.decided hexec ?_ hp hact
        rintro i env' req pid sec' (⟨hl, -⟩) hsec' ⟨k, bytes, hrnd, heq⟩
        obtain rfl := hsame i env' _ hl
        have hissues : l.1.Issues p.sid := by
          rw [hl]
          exact ⟨k, bytes, hrnd, (hwf.secmods i sec' hsec').2 ▸ heq⟩
        exact hunheld p hp hact hissues }

/-! ## Invalidated workers -/

/-- What stays of a worker that has a session: it keeps the session, and it stays
invalidated. -/
structure Proc.Kept (p q : Proc) : Prop extends p.SameLink q where
  invalidated : p.invalidated → q.invalidated

omit [Platform] in
theorem Proc.Kept.proceeds {r : Proc} (h₁ : p.Kept q) (h₂ : q.Proceeds r) : p.Kept r where
  id := h₂.id.trans h₁.id
  pid := h₂.pid.trans h₁.pid
  sid := h₂.sid.trans h₁.sid
  active_sid := h₂.active_sid.trans h₁.active_sid
  index := fun hact => (h₂.index (h₁.active_sid.trans hact)).trans (h₁.index hact)
  invalidated := fun hinv => h₂.invalidated (h₁.invalidated hinv)

/-- The worker `p`, as far as it is still there. -/
structure Sys.Keeps (p : Proc) (s : Sys) : Prop where
  fresh : p.id < s.main.next
  worker : ∀ q ∈ s.main.procs, q.id = p.id → p.Kept q

theorem Sys.Keeps.phases (p : Proc) (env : MainEnv) : Phases (Sys.Keeps p) env := by
  refine phases_of_put ?_ ?_ env
  · exact fun h hq _ => ⟨hq.next ▸ h.fresh, fun q hmem hid => h.worker q (hq.procs ▸ hmem) hid⟩
  · intro s s' r r' h hfind hproc hprocs _ hnext _
    refine ⟨Nat.lt_of_lt_of_le h.fresh hnext, ?_⟩
    rw [hprocs]
    refine Main.forall_store h.worker fun hid => ?_
    exact (h.worker r (Main.find_proc_eq_some hfind).1 (hproc.id.symm.trans hid)).proceeds hproc

theorem Answered.next_le {env : MainEnv} (h : s.WF)
    (hans : Answered env s p req sid sec m₁ sec₁ p₁ result) (hreq : CookieReq s p msg req sid sec) :
    s.main.next ≤ m₁.next := by
  cases hans.step hreq with
  | refused | unopened | lost | fresh => exact Nat.le_refl _
  | @taken _ old _ _ hold =>
    obtain ⟨hmem, -, -⟩ := h.search hold
    rw [Main.take_over_fst (h.pid old hmem)]
    exact Nat.le_add_right _ 2

theorem Sys.Keeps.step (hwf : s.WF) (hidle : s.Idle) (hact : p.active_sid) (h : s.Keeps p)
    (hstep : Sys.Step s l s') : s'.Keeps p := by
  refine EventRule.step ?_ (fun w => Sys.Keeps.phases p (l.2 w)) hwf.ids hwf.pid h hstep
  exact
    { accept := by
        intro pid time remote_addr our_addr _ _
        refine ⟨Nat.lt_succ_of_lt h.fresh, fun q hq hid => ?_⟩
        rcases mem_cons.1 hq with rfl | hq
        · exact absurd hid (Nat.ne_of_gt h.fresh)
        · exact h.worker q hq hid
      cookie := by
        intro w r msg req sid sec m₁ sec₁ p₁ result _ hfind hreq hans
        obtain ⟨hmem, rfl⟩ := Main.find_proc_eq_some hfind
        obtain ⟨hid, hids⟩ := hans.id hwf hreq
        have hnext := hans.next_le hwf hreq
        refine ⟨hid, hids ▸ mem_map_of_mem hmem, Nat.lt_of_lt_of_le h.fresh hnext,
          fun q hq hqid => ?_⟩
        -- a worker that presents a cookie has no session yet
        have hother : r.id ≠ p.id := fun heq => by
          have hinactive := hidle r hmem (by simp) hreq.status
          rw [(h.worker r hmem heq).active_sid, hact] at hinactive
          cases hinactive
        rcases Main.mem_store.1 hq with ⟨rfl, -⟩ | ⟨hq, hne⟩
        · exact absurd (hid.symm.trans hqid) hother
        · rcases hans.mem_procs hwf hreq hq (hid ▸ hne) with hq | ⟨old, hmem', rfl⟩
          · exact h.worker q hq hqid
          · exact (h.worker old hmem' hqid).proceeds
              ⟨⟨rfl, rfl, rfl, rfl, fun _ => rfl⟩, id, id, fun _ => rfl, rfl⟩
      remove := by
        intro w s₁ p₁ kill _ hat hrun
        have hremoved := remove_proc_removed hrun
        refine ⟨hremoved.next ▸ hat.inv.fresh, fun q hq hid => ?_⟩
        rw [hremoved.procs] at hq
        exact hat.inv.worker q (mem_of_mem_filter hq) hid
      execute := fun h _ _ => ⟨h.fresh, h.worker⟩ }

/-! ## The command -/

theorem Sys.mem_foldl_signalled {procs : List Proc} (h : q ∈ (procs.foldl signalled s).main.procs) :
    q ∈ s.main.procs ∧ q.id ∉ procs.map Proc.id ∨
      ∃ p ∈ procs, q = { p with invalidated := true } := by
  induction procs generalizing s with
  | nil => exact .inl ⟨h, by simp⟩
  | cons p procs ih =>
    rcases ih h with ⟨hq, hnot⟩ | ⟨p', hp', heq⟩
    · rcases Main.mem_store.1 hq with ⟨rfl, -⟩ | ⟨hq, hne⟩
      · exact .inr ⟨p, List.mem_cons_self, rfl⟩
      · refine .inl ⟨hq, ?_⟩
        rw [map_cons, mem_cons, not_or]
        exact ⟨hne, hnot⟩
    · exact .inr ⟨p', mem_cons_of_mem _ hp', heq⟩

theorem Sys.main_of_disconnects (hwf : s.WF) (hstep : Sys.Step s l s')
    (hp : p ∈ l.1.disconnects s.main) :
    s'.main = ((l.1.disconnects s.main).foldl Sys.signalled s).main := by
  have hadmin : l.1.admin := by
    obtain ⟨ev, env⟩ := l
    cases ev <;> first | rfl | cases hp
  have hexec := hstep.1
  rw [Sys.exec_admin hwf.pid l.2 hadmin, some_inj, Except.ok.injEq] at hexec
  rw [← hexec]
  exact Sys.administered_rule (Q := fun s₁ => s₁.main = _) l.1 (l.2 0).sec rfl fun h _ => h

theorem Sys.Keeps.disconnected (hwf : s.WF) (hstep : Sys.Step s l s')
    (hp : p ∈ l.1.disconnects s.main) : s'.Keeps { p with invalidated := true } := by
  have hsub := l.1.disconnects_sublist s.main
  have hmem := hsub.subset hp
  have hmain := Sys.main_of_disconnects hwf hstep hp
  refine ⟨?_, fun q hq hid => ?_⟩
  · have hnext : ∀ (procs : List Proc) (s₁ : Sys),
        (procs.foldl Sys.signalled s₁).main.next = s₁.main.next := by
      intro procs
      induction procs with
      | nil => exact fun _ => rfl
      | cons q procs ih => exact fun s₁ => ih (s₁.signalled q)
    rw [hmain, hnext]
    exact hwf.fresh p hmem
  · rw [hmain] at hq
    rcases Sys.mem_foldl_signalled hq with ⟨-, hnot⟩ | ⟨p', hp', rfl⟩
    · exact absurd (List.mem_map.2 ⟨p, hp, hid.symm⟩) hnot
    · obtain rfl := inj_on_of_nodup_map hwf.ids (hsub.subset hp') hmem hid
      exact ⟨⟨rfl, rfl, rfl, rfl, fun _ => rfl⟩, fun _ => rfl⟩

/-! ## The removal -/

/-- Sec-mod has closed the session of the worker `p`, and nothing else has changed in the
instances. -/
def Sys.Ended (s : Sys) (p : Proc) (secs : List SecMod) : Prop :=
  ∃ (env : SecEnv) (q : Proc) (sec : SecMod) (reply : SecMod.CloseReply), p.Kept q ∧
    s.secmods[q.sec_mod_instance_index]? = some sec ∧
    (sec.handle_secm_session_close_cmd env q.closeMsg).2.1 = some reply ∧
    secs = s.secmods.set q.sec_mod_instance_index
      (sec.handle_secm_session_close_cmd env q.closeMsg).1

/-- An event about the worker `p`: sec-mod is not involved before the worker is removed. -/
structure Sys.Ending (s : Sys) (p : Proc) (s₁ : Sys) : Prop where
  live : p.id ∈ s₁.main.procs.map Proc.id →
    s₁.secmods = s.secmods ∧ ∀ q ∈ s₁.main.procs, q.id = p.id → p.Kept q
  gone : p.id ∉ s₁.main.procs.map Proc.id → s.Ended p s₁.secmods

theorem Sys.Ending.phases (s : Sys) (p : Proc) (env : MainEnv) : Phases (s.Ending p) env := by
  refine phases_of_put ?_ ?_ env
  · intro s₁ s₂ h hq hsecs
    constructor
    · rw [hq.procs, hsecs]
      exact h.live
    · rw [hq.procs, hsecs]
      exact h.gone
  · intro s₁ s₂ r r' h hfind hproc hprocs _ _ hsecs
    have hids : s₂.main.procs.map Proc.id = s₁.main.procs.map Proc.id :=
      hprocs ▸ Main.ids_store _ _
    constructor
    · intro hin
      obtain ⟨hsame, hworker⟩ := h.live (hids ▸ hin)
      refine ⟨hsecs.trans hsame, ?_⟩
      rw [hprocs]
      refine Main.forall_store hworker fun hid => ?_
      exact (hworker r (Main.find_proc_eq_some hfind).1 (hproc.id.symm.trans hid)).proceeds hproc
    · intro hnot
      rw [hsecs]
      exact h.gone (hids ▸ hnot)

/-- A worker is only removed in an event about it. -/
theorem Sys.about_of_gone (hwf : s.WF) (hmem : p ∈ s.main.procs) (hstep : Sys.Step s l s')
    (hgone : p.id ∉ s'.main.procs.map Proc.id) : l.1.about = some p.id := by
  by_contra habout
  have hput : ∀ {s₁ : Sys} {q : Proc}, p.id ∈ s₁.main.procs.map Proc.id →
      p.id ∈ (s₁.put q).main.procs.map Proc.id := fun hin => (Main.ids_store _ _).symm ▸ hin
  have hphases : ∀ env, Phases (fun s₁ => p.id ∈ s₁.main.procs.map Proc.id) env := fun _ =>
    { quiet := fun hin hq _ => hq.procs.symm ▸ hin
      update := fun hin _ _ => hput hin
      kill := fun hin _ => hput hin
      lease4 := fun hin _ _ _ => hput hin
      lease6 := fun hin _ _ _ => hput hin }
  have hin : p.id ∈ s.main.procs.map Proc.id := mem_map_of_mem hmem
  refine hgone (EventRule.step ?_ (fun w => hphases (l.2 w)) hwf.ids hwf.pid hin hstep)
  exact
    { accept := fun _ _ => mem_cons_of_mem _ hin
      cookie := by
        intro w r msg req sid sec m₁ sec₁ p₁ result _ hfind hreq hans
        obtain ⟨hr, rfl⟩ := Main.find_proc_eq_some hfind
        obtain ⟨hid, hids⟩ := hans.id hwf hreq
        exact ⟨hid, hids ▸ mem_map_of_mem hr, hput (hids ▸ hin)⟩
      remove := by
        intro w s₁ p₁ kill hw hat hrun
        obtain ⟨q, hq, hid⟩ := mem_map.1 hat.inv
        refine mem_map.2 ⟨q, ?_, hid⟩
        rw [(remove_proc_removed hrun).procs, mem_filter, bne_iff_ne, hid, hat.id]
        exact ⟨hq, fun heq => habout (heq ▸ hw)⟩
      execute := fun hin _ _ => hin }

/-- The session of a worker that is removed has been closed. -/
theorem Sys.ended_of_gone (hwf : s.WF) (hidle : s.Idle) (hmem : p ∈ s.main.procs)
    (hact : p.active_sid) (hstep : Sys.Step s l s')
    (hgone : p.id ∉ s'.main.procs.map Proc.id) : s.Ended p s'.secmods := by
  have hin : p.id ∈ s.main.procs.map Proc.id := mem_map_of_mem hmem
  have hstart : s.Ending p s := by
    refine ⟨fun _ => ⟨rfl, fun q hq hid => ?_⟩, fun hnot => absurd hin hnot⟩
    obtain rfl := inj_on_of_nodup_map hwf.ids hq hmem hid
    exact ⟨⟨rfl, rfl, rfl, rfl, fun _ => rfl⟩, id⟩
  refine Sys.Ending.gone (p := p) ?_ hgone
  refine (Sys.Ending.phases s p (l.2 p.id)).about (Sys.about_of_gone hwf hmem hstep hgone) hwf.ids
    hstart ?_ ?_ hstep
  · intro r msg req sid sec m₁ sec₁ p₁ result _ hfind hreq _
    obtain rfl : p = r := some.inj ((Main.find_proc_of_mem hwf.ids hmem).symm.trans hfind)
    have hinactive := hidle p hmem (by simp) hreq.status
    rw [hact] at hinactive
    cases hinactive
  · intro s₁ p₁ kill hat hrun
    have hremoved := remove_proc_removed hrun
    have hmem₁ := (Main.find_proc_eq_some hat.find).1
    obtain ⟨hsecs, hworker⟩ := hat.inv.live (mem_map.2 ⟨p₁, hmem₁, hat.id⟩)
    have hkept := hworker p₁ hmem₁ hat.id
    obtain ⟨sec, reply, hsec, hreply, hset⟩ := hremoved.closed (hkept.active_sid.trans hact)
    refine ⟨fun hin' => ?_, fun _ => ⟨(l.2 p.id).sec, p₁, sec, reply, hkept, ?_, hreply, ?_⟩⟩
    · rw [hremoved.procs] at hin'
      obtain ⟨q, hq, hid⟩ := mem_map.1 hin'
      rw [mem_filter, bne_iff_ne] at hq
      exact absurd (hid.trans hat.id.symm) hq.2
    · rw [← hsecs]
      exact hsec
    · rw [← hsecs]
      exact hset

/-! ## The cookie -/

/-- A state whose run has issued no identifier that was held. -/
theorem Sys.vetted_of_run (hrun : Run Sys.Initial Sys.Step trace s)
    (hunheld : ∀ t ∈ trace, Sys.Unheld t) :
    s.WF ∧ s.Idle ∧ s.Vetted := by
  refine Sys.invariant_of_run hrun hunheld ?_ fun hwf hidle hvetted hstep hunheld =>
    hvetted.step hwf hidle hstep hunheld
  intro s hinit
  refine ⟨hinit.wf, hinit.idle, fun p hp => ?_⟩
  rw [hinit.procs] at hp
  cases hp

theorem Sys.keeps_of_run {s₁ : Sys} (hwf : s₁.WF) (hidle : s₁.Idle) (hact : p.active_sid)
    (hkeeps : s₁.Keeps p) (hrun : Run (· = s₁) Sys.Step trace s) : s.Keeps p :=
  (Sys.invariant_of_run (C := fun _ => True) hrun (fun _ _ => trivial)
    (by rintro s rfl; exact ⟨hwf, hidle, hkeeps⟩)
    fun hwf hidle hkeeps hstep _ => hkeeps.step hwf hidle hact hstep).2.2

/-- The session of an invalidated worker ends with it exactly if nobody else is counted in
its entry. -/
theorem Sys.revoked_iff (hwf : s.WF) (hidle : s.Idle) (hvetted : s.Vetted)
    (hmem : p ∈ s.main.procs) (hact : p.active_sid) (hinv : p.invalidated)
    (hcookies : ∀ e, s.Entry e → e.sid = p.sid → e.vhost.config.persistent_cookies = false)
    (hstep : Sys.Step s l s') (hgone : p.id ∉ s'.main.procs.map Proc.id) :
    s'.Revoked p.sid ↔
      ∀ e, s.Entry e → e.sid = p.sid → e.status = .completed → e.in_use ≤ 1 := by
  have hwf' := hwf.step hidle hstep
  obtain ⟨env, q, sec, reply, hkept, hsec, hreply, hsecs⟩ :=
    Sys.ended_of_gone hwf hidle hmem hact hstep hgone
  have hsid : q.closeMsg.sid = p.sid.1 := congrArg Subtype.val hkept.sid
  have hserver : q.closeMsg.server_disconnected := hkept.invalidated hinv
  have hmem_sec := mem_of_getElem? hsec
  have hlt := (List.getElem?_eq_some_iff.1 hsec).1
  have hindex : sec_mod_instance_index_get p.sid = q.sec_mod_instance_index :=
    (hwf.index p hmem hact).symm.trans (hkept.index hact).symm
  constructor
  · intro hrevoked e he hesid hst
    by_contra hmore
    -- the entry is left, and a request at once is granted
    obtain ⟨sec', hsec', hin⟩ := he
    obtain ⟨i, hi⟩ := List.getElem?_of_mem hsec'
    obtain rfl : i = q.sec_mod_instance_index := by
      rw [← hindex, ← hesid, hwf.entry_index hi hin]
    obtain rfl := some.inj (hsec.symm.trans hi)
    have hfind : sec.client_db.find p.sid = some e := ClientDb.find_eq_some.2 ⟨hin, hesid⟩
    obtain ⟨e', hfind', hst', huse⟩ :=
      SecMod.session_close_keeps hsid hreply hfind hst (Nat.lt_of_not_le hmore)
    have hleft : s'.secmods[q.sec_mod_instance_index]? =
        some (sec.handle_secm_session_close_cmd env q.closeMsg).1 := by
      rw [hsecs, List.getElem?_set_self hlt]
    obtain ⟨info, hinfo⟩ := SecMod.session_open_granted
      (hindex.trans (hwf'.secmods _ _ hleft).2.symm) hfind' hst' huse
    exact hrevoked [] s' (.start rfl) (by simp) _ (mem_of_getElem? hleft) _ _ rfl info hinfo
  · intro hone trace s'' hrun hissues
    refine Sys.Termination.refused_of_spent hwf' (hidle.step hwf hstep) ?_ hrun hissues
    intro sec' hsec' e' hfind'
    obtain ⟨i, hi⟩ := List.getElem?_of_mem hsec'
    rw [hsecs] at hi
    by_cases hiq : i = q.sec_mod_instance_index
    · rw [hiq, List.getElem?_set_self hlt, some.injEq] at hi
      subst hi
      cases hfind : sec.client_db.find p.sid with
      | none =>
        rcases SecMod.exec_entry (c := .session_close q.closeMsg) hfind' with
          ⟨req, pid, hc, -⟩ | ⟨e₀, he₀, -⟩
        · cases hc
        · cases hfind.symm.trans he₀
      | some e =>
        obtain ⟨hin, hesid⟩ := ClientDb.find_eq_some.1 hfind
        have he : s.Entry e := ⟨sec, hmem_sec, hin⟩
        rcases hvetted p hmem hact sec hmem_sec e hfind with hst | hst
        · have hnone := SecMod.session_close_deletes hsid hserver hreply hfind hst
            (hcookies e he hesid) (hone e he hesid hst)
          rw [hnone] at hfind'
          cases hfind'
        · rcases SecMod.exec_entry (c := .session_close q.closeMsg) hfind' with
            ⟨req, pid, hc, -⟩ | ⟨e₀, he₀, -, hst'⟩
          · cases hc
          · obtain rfl := some.inj (hfind.symm.trans he₀)
            simpa [hst] using hst'
    · rw [List.getElem?_set_ne (Ne.symm hiq)] at hi
      have hother := hwf.entry_index hi (ClientDb.find_eq_some.1 hfind').1
      rw [ClientDb.find_sid hfind', hindex] at hother
      exact absurd hother.symm hiq

/-- A command disconnects a worker with a session, and later the worker is removed: the
session cannot be opened again exactly if nobody else was counted in its entry. -/
theorem disconnect_revokes_iff {earlier later : List (Transition Sys (Sys.Event × Sys.Env))}
    {s₀ s₁ : Sys} {l₀ : Sys.Event × Sys.Env}
    (hrun : Run Sys.Initial Sys.Step (later ++ ⟨s₀, l₀, s₁⟩ :: earlier) s)
    (hunheld : ∀ t ∈ later ++ ⟨s₀, l₀, s₁⟩ :: earlier, Sys.Unheld t)
    (hp : p ∈ l₀.1.disconnects s₀.main) (hact : p.active_sid = true)
    (hstep : Sys.Step s l s') (hlive : p.id ∈ s.main.procs.map Proc.id)
    (hgone : p.id ∉ s'.main.procs.map Proc.id)
    (hcookies : ∀ e, s.Entry e → e.sid = p.sid → e.vhost.config.persistent_cookies = false) :
    s'.Revoked p.sid ↔
      ∀ e, s.Entry e → e.sid = p.sid → e.status = .completed → e.in_use ≤ 1 := by
  obtain ⟨hearlier, hdis, hlater⟩ := hrun.split
  obtain ⟨hwf, hidle, hvetted⟩ := Sys.vetted_of_run hrun hunheld
  obtain ⟨hwf₀, hidle₀⟩ := Sys.sound_of_reachable ⟨_, hearlier⟩
  -- from the command on the worker is invalidated
  have hkeeps : s.Keeps { p with invalidated := true } :=
    Sys.keeps_of_run (hwf₀.step hidle₀ hdis) (hidle₀.step hwf₀ hdis) hact
      (Sys.Keeps.disconnected hwf₀ hdis hp) hlater
  obtain ⟨q, hq, hid⟩ := mem_map.1 hlive
  have hkept := hkeeps.worker q hq hid
  have hsid : q.sid = p.sid := hkept.sid
  rw [← hsid] at hcookies ⊢
  exact Sys.revoked_iff hwf hidle hvetted hq (hkept.active_sid.trans hact)
    (hkept.invalidated rfl) hcookies hstep (hid.symm ▸ hgone)

end Revocation

/-! ## Two commands -/

section Example

open Sample

local instance revocationPlatform : Platform := Platform.simple

/-- The administrator disconnects the worker with this pid. -/
private def dismiss (pid : Int) : Sys.Event × Sys.Env := (.disconnect_id pid, fun _ => env)

private def dismissed : Sys := working.after (dismiss 5)

private def departed : Sys := dismissed.after (hangup 0)

/-- The only worker of a session is disconnected. -/
theorem disconnect_revokes_sole_worker : ∃ P : Platform, ∃ s s' : @Sys P, ∃ p ∈ s.main.procs,
    p.active_sid = true ∧ s'.main.procs = [] ∧ @Sys.Revoked P s' p.sid := by
  have hrun : Run Sys.Initial Sys.Step ([] ++ ⟨working, dismiss 5, dismissed⟩ :: _) dismissed :=
    run_working.snoc (Sys.step_after (by decide +kernel))
  have hworker : ∃ p ∈ (dismiss 5).1.disconnects working.main, p.active_sid = true ∧
      p.id ∈ dismissed.main.procs.map Proc.id := by decide +kernel
  obtain ⟨p, hp, hact, hlive⟩ := hworker
  have hempty : departed.main.procs = [] := by decide +kernel
  have hentries : ∀ sec ∈ dismissed.secmods, ∀ e ∈ sec.client_db.toList,
      e.vhost.config.persistent_cookies = false ∧ e.in_use = 1 := by decide +kernel
  have hentry : ∀ e, dismissed.Entry e → e.vhost.config.persistent_cookies = false ∧
      e.in_use = 1 := fun e ⟨sec, hsec, he⟩ => hentries sec hsec e he
  have hmem := ((dismiss 5).1.disconnects_sublist working.main).subset hp
  refine ⟨Platform.simple, working, departed, p, hmem, hact, hempty, ?_⟩
  refine (disconnect_revokes_iff hrun ?_ hp hact (Sys.step_after (by decide +kernel)) hlive ?_
    (fun e he _ => (hentry e he).1)).2 fun e he _ _ => Nat.le_of_eq (hentry e he).2
  · -- only the login issues an identifier, and then there is no worker
    intro t ht
    simp only [nil_append, mem_cons, not_mem_nil, or_false] at ht
    rcases ht with rfl | rfl | rfl | rfl
    · exact fun _ _ _ hissues => hissues
    · exact fun _ _ _ hissues => hissues
    · exact fun _ _ _ hissues => hissues
    · exact fun q hq => by cases hq
  · change p.id ∉ departed.main.procs.map Proc.id
    rw [hempty]
    simp

private def grants : Option SessionReply → Bool
  | some (.ok _) => true
  | _ => false

private theorem eq_ok_of_grants {reply : Option SessionReply} (h : grants reply) :
    ∃ info, reply = some (.ok info) := by
  cases reply with
  | none => cases h
  | some r =>
    cases r with
    | failed => cases h
    | ok info => exact ⟨info, rfl⟩

/-- Two workers share a session when the first is disconnected, and the session can be
opened again. -/
theorem disconnected_session_reopened : ∃ P : Platform, ∃ (s₀ s₁ s' : @Sys P) (p : Proc),
    Reachable (@Sys.Initial P) (@Sys.Step P) s₀ ∧
      p ∈ @Sys.Event.disconnects P s₀.main (dismiss 5).1 ∧ p.active_sid = true ∧
      @Sys.Step P s₀ (dismiss 5) s₁ ∧ @Sys.Step P s₁ (hangup 0) s' ∧
      p.id ∈ s₁.main.procs.map Proc.id ∧ p.id ∉ s'.main.procs.map Proc.id ∧
      (∀ e, @Sys.Entry P s₁ e → e.vhost.config.persistent_cookies = false) ∧
      ¬ @Sys.Revoked P s' p.sid := by
  have hplay : ((start {} [0]).play [login 0 1 "alice".toList "1".toList, connect 5 [49],
      cookie 0 (sid 0 1), connect 6 [49], cookie 2 (sid 0 1)]).any (fun s₀ =>
        ∃ s₁ ∈ s₀.advance (dismiss 5), ∃ s' ∈ s₁.advance (hangup 0),
          ∃ p ∈ (dismiss 5).1.disconnects s₀.main, p.active_sid = true ∧
            p.id ∈ s₁.main.procs.map Proc.id ∧ p.id ∉ s'.main.procs.map Proc.id ∧
            (∀ sec ∈ s₁.secmods, ∀ e ∈ sec.client_db.toList,
              e.vhost.config.persistent_cookies = false) ∧
            ∃ sec ∈ s'.secmods, grants
              (sec.handle_secm_session_open_cmd (secEnv 0) ⟨p.sid.1, none, none⟩).reply) := by
    decide +kernel
  obtain ⟨s₀, hreach, s₁, hs₁, s', hs', p, hp, hact, hlive, hgone, hentries, sec, hsec, hreply⟩ :=
    Sys.exists_of_play (start_initial {} rfl) hplay
  refine ⟨Platform.simple, s₀, s₁, s', p, hreach, hp, hact, Sys.step_of_advance hs₁,
    Sys.step_of_advance hs', hlive, hgone, fun e ⟨sec, hsec, he⟩ => hentries sec hsec e he,
    fun hrevoked => ?_⟩
  obtain ⟨info, hinfo⟩ := eq_ok_of_grants hreply
  exact hrevoked [] s' (.start rfl) (by simp) sec hsec _ _ rfl info hinfo

end Example
end Ocserv

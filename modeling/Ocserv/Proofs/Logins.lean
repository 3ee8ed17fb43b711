import Ocserv.Lib.Members
import Ocserv.Proofs.Revocation

/-!
# The limit on the workers of a user

`check_multiple_users` counts the workers of the user when a worker is to be accepted, in
whatever phase of their login they are, and leaves out those that have been killed.  A worker
keeps its user once it has been accepted, so that the workers of a user that have been
accepted are never more than the limit that was in force when the last of them was.
-/

namespace Ocserv

open List Option Outcome Runs

/-- A worker that `accept_user` has accepted, with the limit for its user. -/
structure Acceptance where
  proc : Nat
  username : CStr
  max_same_clients : Nat
deriving DecidableEq, Repr

/-- The worker is one of the given ones, serves the user and has not been killed. -/
def Proc.serves (accepted : Nat → Bool) (u : CStr) (p : Proc) : Bool :=
  accepted p.id && p.username == u && !p.pid_killed

section Logins

variable [Platform]

/-! ## What is demanded -/

/-- The worker that `accept_user` accepts in an event.  Its connect script may still be
running. -/
def Sys.acceptance (s : Sys) : Sys.Event × Sys.Env → Option Acceptance
  | (.worker w (.auth_cookie_req (some req)), env) => do
      let p ← s.main.find_proc w
      if p.status ≠ .inactive then none
      else
        let sid ← Sid.ofBytes? req.cookie
        let sec ← s.secmods[sec_mod_instance_index_get sid]?
        let (m, _, p, result) := s.main.handle_auth_cookie_req (env w) sec
          { p with sec_mod_instance_index := sec_mod_instance_index_get sid } req
        if result ≠ 0 then none
        else
          let (_, _, ret) ← (m.accept_user (env w) p).toOption
          let config ← p.config
          if 0 ≤ ret ∨ ret = ERR_WAIT_FOR_SCRIPT then
            some ⟨w, p.username, config.max_same_clients.getD 0⟩
          else none
  | _ => none

/-- The workers that have been accepted in a run. -/
def Sys.accepted (trace : List (Transition Sys (Sys.Event × Sys.Env))) (w : Nat) : Bool :=
  trace.any fun t => (t.pre.acceptance t.label).any fun a => a.proc == w

/-- How many of the given workers serve the user. -/
def Main.logins (accepted : Nat → Bool) (u : CStr) (m : Main) : Nat :=
  m.procs.countP (Proc.serves accepted u)

variable {accepted : Nat → Bool} {u : CStr} {max : Nat} {s s' : Sys} {m m' : Main} {p p' q : Proc}

/-! ## Counting -/

theorem Main.logins_store_le (p' : Proc)
    (h : ∀ q ∈ m.procs, q.id = p'.id → p'.serves accepted u → q.serves accepted u) :
    (m.store p').logins accepted u ≤ m.logins accepted u := by
  rw [logins, logins, store, countP_map]
  refine countP_mono_left fun q hq hserves => ?_
  rw [Function.comp_apply] at hserves
  split at hserves
  · next hid => exact h q hq hid hserves
  · exact hserves

/-- A worker that is not counted may be written back. -/
theorem Main.logins_store_idle (hserves : p'.serves accepted u = false) :
    (m.store p').logins accepted u ≤ m.logins accepted u :=
  logins_store_le p' fun _ _ _ hcounted => nomatch hserves.symm.trans hcounted

theorem Main.logins_store (hids : (m.procs.map Proc.id).Nodup) (hmem : p.id ∈ m.procs.map Proc.id) :
    (m.store p).logins accepted u = (if p.serves accepted u then 1 else 0) +
      m.procs.countP fun q => q.serves accepted u && q.id != p.id := by
  obtain ⟨q, hq, hid⟩ := mem_map.1 hmem
  have hperm : (m.store p).procs.Perm (p :: Members.others Proc.id q.id m.procs) :=
    Members.perm_store hids hq hid.symm
  rw [logins, hperm.countP_eq, countP_cons, Members.others, countP_filter, hid,
    Nat.add_comm]

/-- The bound, for workers with identities of their own. -/
structure Sys.Within (accepted : Nat → Bool) (u : CStr) (max : Nat) (s : Sys) : Prop where
  ids : (s.main.procs.map Proc.id).Nodup
  count : s.main.logins accepted u ≤ max

namespace Sys.Within

theorem phases (accepted : Nat → Bool) (u : CStr) (max : Nat) (env : MainEnv) :
    Phases (Sys.Within accepted u max) env := by
  refine phases_of_put ?_ ?_ env
  · intro s s' h hq _
    exact ⟨hq.procs ▸ h.ids, by rw [Main.logins, hq.procs]; exact h.count⟩
  · intro s s' p p' h hfind hproc hprocs _ _ _
    refine ⟨by rw [hprocs, Main.ids_store]; exact h.ids, ?_⟩
    calc s'.main.logins accepted u
        = (s.main.store p').logins accepted u := by rw [Main.logins, hprocs, Main.logins]
      _ ≤ s.main.logins accepted u := by
          refine Main.logins_store_le p' fun q hq hqid hserves => ?_
          have hfind' := Main.find_proc_of_mem h.ids hq
          rw [hqid, hproc.id, hfind] at hfind'
          cases hfind'
          simp only [Proc.serves, hproc.id, hproc.username, Bool.and_eq_true, beq_iff_eq,
            Bool.not_eq_true'] at hserves ⊢
          exact ⟨hserves.1, Bool.eq_false_iff.2 fun hk => by
            simp [hproc.pid_killed hk] at hserves⟩
      _ ≤ max := h.count

theorem removed {env : MainEnv} (h : s.Within accepted u max) (hrem : Removed env s p s') :
    s'.Within accepted u max := by
  have hsub : s'.main.procs.Sublist s.main.procs := hrem.procs ▸ filter_sublist
  exact ⟨h.ids.sublist (hsub.map _), Nat.le_trans hsub.countP_le h.count⟩

theorem mono {accepted' : Nat → Bool} (h : s.Within accepted u max)
    (hsub : ∀ p ∈ s.main.procs, p.serves accepted' u → p.serves accepted u) :
    s.Within accepted' u max :=
  ⟨h.ids, Nat.le_trans (countP_mono_left hsub) h.count⟩

end Sys.Within

/-! ## The cookie request -/

variable {env : MainEnv} {req : AuthCookieRequestMsg} {sid : Sid} {sec sec₁ : SecMod} {m₁ : Main}
  {p₁ : Proc} {result : Int}

/-- A cookie request adds no worker to those that have been accepted before. -/
theorem Answered.logins_le (hwf : s.WF) (hans : Answered env s p req sid sec m₁ sec₁ p₁ result)
    (hreq : CookieReq s p msg req sid sec) (hnew : accepted p.id = false) :
    (m₁.store p₁).logins accepted u ≤ s.main.logins accepted u := by
  have hidle : ∀ {q : Proc}, q.id = p.id → q.serves accepted u = false := by
    intro q hid
    simp [Proc.serves, hid, hnew]
  -- the worker is written back once more when the session is attached
  have hattach : ∀ {m₂ : Main} {p₂ : Proc}, p₂.id = p.id →
      m₂.logins accepted u ≤ s.main.logins accepted u →
      ((m₂.attach p₂ sid req.hostname).1.store (m₂.attach p₂ sid req.hostname).2).logins
        accepted u ≤ s.main.logins accepted u := by
    intro m₂ p₂ hid hle
    have hid' : (m₂.attach p₂ sid req.hostname).2.id = p.id := hid
    calc _ ≤ (m₂.store (m₂.attach p₂ sid req.hostname).2).logins accepted u :=
          Main.logins_store_idle (hidle hid')
      _ ≤ m₂.logins accepted u := Main.logins_store_idle (hidle hid')
      _ ≤ s.main.logins accepted u := hle
  cases hans.step hreq with
  | refused hsame => exact Main.logins_store_idle (hidle hsame.id)
  | unopened hsame => exact Main.logins_store_idle (hidle hsame.id)
  | lost _ _ hload => exact Main.logins_store_idle (hidle hload.same.id)
  | fresh _ _ hload => exact hattach hload.same.id (Nat.le_refl _)
  | @taken _ old _ _ hold _ _ hload =>
    obtain ⟨hmem, -, -⟩ := hwf.search hold
    rw [Main.take_over_fst (hwf.pid old hmem)]
    -- the previous owner of the session has been killed
    have hkilled : (old.robbed s.main.next).serves accepted u = false := by
      simp [Proc.serves, Proc.robbed]
    exact hattach hload.same.id (@Main.logins_store_idle _ accepted u s.main _ hkilled)

theorem Sys.Within.cookie (hwf : s.WF) (h : s.Within accepted u max) (hmem : p ∈ s.main.procs)
    (hnew : accepted p.id = false) (hreq : CookieReq s p msg req sid sec)
    (hans : Answered env s p req sid sec m₁ sec₁ p₁ result) (secs : List SecMod) :
    At (Sys.Within accepted u max) secs p.id m₁ p₁ := by
  obtain ⟨hid, hids⟩ := hans.id hwf hreq
  refine ⟨hid, hids ▸ mem_map_of_mem hmem, ?_, Nat.le_trans (hans.logins_le hwf hreq hnew) h.count⟩
  exact (Main.ids_store m₁ p₁).trans hids ▸ h.ids

/-! ## The check -/

/-- The check counts every worker of the user but those that have been killed. -/
theorem Main.logins_of_check {n : Nat} (hids : (m.procs.map Proc.id).Nodup)
    (hpid : ∀ q ∈ m.procs, q.id ≠ p.id → 0 < q.pid) (hmem : p.id ∈ m.procs.map Proc.id)
    (hpos : 0 < n) (hcheck : m.check_multiple_users p n) :
    (m.store p).logins (fun _ => true) p.username ≤ n := by
  have hcount : 1 + m.procs.countP (fun q => q.id != p.id && q.pid != -1 && !q.pid_killed &&
      p.username == q.username) ≤ n := by
    have hzero : (n == 0) = false := beq_false_of_ne (Nat.ne_of_gt hpos)
    simpa [check_multiple_users, hzero] using hcheck
  have hothers : m.procs.countP (fun q => q.serves (fun _ => true) p.username && q.id != p.id) ≤
      m.procs.countP fun q => q.id != p.id && q.pid != -1 && !q.pid_killed &&
        p.username == q.username := by
    refine countP_mono_left fun q hq hserves => ?_
    simp only [Proc.serves, Bool.true_and, Bool.and_eq_true, beq_iff_eq, bne_iff_ne] at hserves ⊢
    obtain ⟨⟨hname, hkilled⟩, hne⟩ := hserves
    have hlive := hpid q hq hne
    exact ⟨⟨⟨hne, by omega⟩, hkilled⟩, hname.symm⟩
  have hself : (if p.serves (fun _ => true) p.username then 1 else 0) ≤ 1 := by split <;> omega
  calc (m.store p).logins (fun _ => true) p.username
      = _ := logins_store hids hmem
    _ ≤ _ := Nat.add_le_add hself hothers
    _ ≤ n := hcount

theorem Main.accept_user_checked {m' : Main} {ret : Int}
    (h : m.accept_user env p = .ok (m', p', ret)) (hret : 0 ≤ ret ∨ ret = ERR_WAIT_FOR_SCRIPT) :
    ∃ config, p.config = some config ∧
      m.check_multiple_users p (config.max_same_clients.getD 0) := by
  simp only [accept_user, bind_eq_ok] at h
  obtain ⟨config, hconfig, h⟩ := h
  refine ⟨config, deref_eq_ok.1 hconfig, ?_⟩
  split at h
  · obtain ⟨-, -, rfl⟩ := by simpa only [pure_eq_ok, Prod.mk.injEq] using h
    exact absurd hret (by decide)
  · next hcheck => simpa using hcheck

theorem Sys.acceptance_eq_some {l : Sys.Event × Sys.Env} {a : Acceptance}
    (h : s.acceptance l = some a) : ∃ p msg req sid sec m₁ sec₁ p₁, l.1 = .worker a.proc msg ∧
      s.main.find_proc a.proc = some p ∧ CookieReq s p msg req sid sec ∧
      Answered (l.2 a.proc) s p req sid sec m₁ sec₁ p₁ 0 ∧ p₁.username = a.username ∧
      m₁.check_multiple_users p₁ a.max_same_clients := by
  unfold acceptance at h
  split at h
  · next w req env =>
    rw [Option.bind_eq_bind, bind_eq_some_iff] at h
    obtain ⟨p, hfind, h⟩ := h
    split at h
    · cases h
    · next hstatus =>
      simp only [Option.bind_eq_bind, bind_eq_some_iff] at h
      obtain ⟨sid, hsid, sec, hsec, h⟩ := h
      rcases hans : s.main.handle_auth_cookie_req (env w) sec
        { p with sec_mod_instance_index := sec_mod_instance_index_get sid } req with
        ⟨m₁, sec₁, p₁, result⟩
      simp only [hans] at h
      split at h
      · cases h
      · next hresult =>
        obtain rfl := Decidable.not_not.1 hresult
        simp only [bind_eq_some_iff] at h
        obtain ⟨⟨m₂, p₂, ret⟩, haccept, config, hconfig, h⟩ := h
        split at h
        · next hret =>
          cases h
          have hok : m₁.accept_user (env w) p₁ = .ok (m₂, p₂, ret) := by
            cases hrun : m₁.accept_user (env w) p₁ with
            | error e => simp [hrun, Except.toOption] at haccept
            | ok r => rw [hrun] at haccept; exact congrArg _ (some.inj haccept)
          obtain ⟨config', hconfig', hcheck⟩ := Main.accept_user_checked hok hret
          obtain rfl := some.inj (hconfig.symm.trans hconfig')
          exact ⟨p, _, req, sid, sec, m₁, sec₁, p₁, rfl, hfind,
            ⟨rfl, Decidable.not_not.1 hstatus, hsid, hsec⟩, hans, rfl, hcheck⟩
        · cases h
  · cases h

/-! ## Workers that have been accepted -/

/-- The accepted workers have presented their cookie, and will not present another. -/
def Sys.Started (accepted : Nat → Bool) (s : Sys) : Prop :=
  ∀ p ∈ s.main.procs, accepted p.id → p.status ≠ .inactive

namespace Sys.Started

theorem phases (accepted : Nat → Bool) (env : MainEnv) : Phases (Sys.Started accepted) env := by
  refine phases_of_put ?_ ?_ env
  · exact fun h hq _ p hp => h p (hq.procs ▸ hp)
  · intro s s' p p' h hfind hproc hprocs _ _ _
    rw [Sys.Started, hprocs]
    refine Main.forall_store h fun haccepted hst => ?_
    exact h p (Main.find_proc_eq_some hfind).1 (hproc.id ▸ haccepted) (hproc.status hst)

theorem removed (h : s.Started accepted) (hrem : Removed env s p s') : s'.Started accepted :=
  fun q hq => h q (mem_of_mem_filter (hrem.procs ▸ hq))

/-- A worker that presents a cookie has not been accepted. -/
theorem new (h : s.Started accepted) (hmem : p ∈ s.main.procs) (hstatus : p.status = .inactive) :
    accepted p.id = false :=
  Bool.eq_false_iff.2 fun haccepted => h p hmem haccepted hstatus

theorem cookie (hwf : s.WF) (h : s.Started accepted) (hmem : p ∈ s.main.procs)
    (hnew : accepted p.id = false) (hreq : CookieReq s p msg req sid sec)
    (hans : Answered env s p req sid sec m₁ sec₁ p₁ result) (secs : List SecMod) :
    At (Sys.Started accepted) secs p.id m₁ p₁ := by
  obtain ⟨hid, hids⟩ := hans.id hwf hreq
  refine ⟨hid, hids ▸ mem_map_of_mem hmem, fun q hq haccepted => ?_⟩
  have hne : q.id ≠ p.id := fun heq => nomatch (heq ▸ haccepted).symm.trans hnew
  rcases Main.mem_store.1 hq with ⟨rfl, -⟩ | ⟨hq, -⟩
  · exact absurd hid hne
  · rcases hans.mem_procs hwf hreq hq hne with hq | ⟨old, hold, rfl⟩
    · exact h q hq haccepted
    · exact h old hold haccepted

end Sys.Started

/-! ## Steps -/

variable {l : Sys.Event × Sys.Env}

/-- Identities are not given twice. -/
theorem Sys.next_le_step (hwf : s.WF) (hstep : Sys.Step s l s') : s.main.next ≤ s'.main.next := by
  have hphases : ∀ env, Phases (fun s₁ => s.main.next ≤ s₁.main.next) env := fun _ =>
    { quiet := fun h hq _ => hq.next ▸ h
      update := fun h _ _ => h
      kill := fun h _ => h
      lease4 := fun h _ _ _ => Nat.le_succ_of_le h
      lease6 := fun h _ _ _ => Nat.le_succ_of_le h }
  refine EventRule.step ?_ (fun w => hphases (l.2 w)) hwf.ids hwf.pid (Nat.le_refl _) hstep
  exact
    { accept := fun _ _ => Nat.le_succ _
      cookie := by
        intro w p msg req sid sec m₁ sec₁ p₁ result _ hfind hreq hans
        obtain ⟨hmem, rfl⟩ := Main.find_proc_eq_some hfind
        obtain ⟨hid, hids⟩ := hans.id hwf hreq
        have hnext := hans.next_le hwf hreq
        exact ⟨hid, hids ▸ mem_map_of_mem hmem, hnext⟩
      remove := fun _ hat hrun => (remove_proc_removed hrun).next ▸ hat.inv
      execute := fun h _ _ => h }

/-- What is known of the workers that have been accepted. -/
structure Sys.Limited (accepted : Nat → Bool) (u : CStr) (max : Nat) (s : Sys) : Prop where
  within : s.Within accepted u max
  started : s.Started accepted
  fresh : ∀ w, accepted w → w < s.main.next

/-- An event keeps the bound for the workers that have been accepted before. -/
theorem Sys.Limited.step (hwf : s.WF) (h : s.Limited accepted u max) (hstep : Sys.Step s l s') :
    s'.Limited accepted u max := by
  have hnew : accepted s.main.next = false :=
    Bool.eq_false_iff.2 fun hw => Nat.lt_irrefl _ (h.fresh _ hw)
  refine ⟨?_, ?_, fun w hw => Nat.lt_of_lt_of_le (h.fresh w hw) (Sys.next_le_step hwf hstep)⟩
  · refine EventRule.step ?_ (fun w => Sys.Within.phases accepted u max (l.2 w)) hwf.ids hwf.pid
      h.within hstep
    exact
      { accept := by
          intro pid time remote_addr our_addr _ _
          refine ⟨nodup_cons.2 ⟨fun hmem => ?_, hwf.ids⟩, ?_⟩
          · obtain ⟨q, hq, hid⟩ := mem_map.1 hmem
            exact Nat.ne_of_lt (hwf.fresh q hq) hid
          · refine Nat.le_trans (Nat.le_of_eq (countP_cons_of_neg ?_)) h.within.count
            simp [Proc.serves, hnew]
        cookie := by
          intro w p msg req sid sec m₁ sec₁ p₁ result _ hfind hreq hans
          obtain ⟨hmem, rfl⟩ := Main.find_proc_eq_some hfind
          exact h.within.cookie hwf hmem (h.started.new hmem hreq.status) hreq hans _
        remove := fun _ hat hrun => hat.inv.removed (remove_proc_removed hrun)
        execute := fun h _ _ => ⟨h.ids, h.count⟩ }
  · refine EventRule.step ?_ (fun w => Sys.Started.phases accepted (l.2 w)) hwf.ids hwf.pid
      h.started hstep
    exact
      { accept := by
          intro pid time remote_addr our_addr _ _ q hq haccepted
          rcases mem_cons.1 hq with rfl | hq
          · exact nomatch hnew.symm.trans haccepted
          · exact h.started q hq haccepted
        cookie := by
          intro w p msg req sid sec m₁ sec₁ p₁ result _ hfind hreq hans
          obtain ⟨hmem, rfl⟩ := Main.find_proc_eq_some hfind
          exact h.started.cookie hwf hmem (h.started.new hmem hreq.status) hreq hans _
        remove := fun _ hat hrun => hat.inv.removed (remove_proc_removed hrun)
        execute := fun h _ _ => h }

/-- An event that accepts a worker keeps the bound for all of them. -/
theorem Sys.Limited.accept {a : Acceptance} (hwf : s.WF) (h : s.Limited accepted u max)
    (hpos : 0 < max) (haccept : s.acceptance l = some a)
    (hmax : a.username = u → a.max_same_clients = max) (hstep : Sys.Step s l s') :
    s'.Limited (fun w => a.proc == w || accepted w) u max := by
  obtain ⟨p, msg, req, sid, sec, m₁, sec₁, p₁, hev, hfind, hreq, hans, hname, hcheck⟩ :=
    Sys.acceptance_eq_some haccept
  obtain ⟨hmem, hid⟩ := Main.find_proc_eq_some hfind
  obtain ⟨proc, username, n⟩ := a
  obtain rfl : p.id = proc := hid
  obtain rfl : p₁.username = username := hname
  obtain ⟨hid₁, hids₁⟩ := hans.id hwf hreq
  have hnew := h.started.new hmem hreq.status
  have hmem₁ : p₁.id ∈ m₁.procs.map Proc.id := hid₁ ▸ hids₁ ▸ mem_map_of_mem hmem
  -- the bound when sec-mod has answered
  have hwithin : At (Sys.Within (fun w => p.id == w || accepted w) u max)
      (s.secmods.set (sec_mod_instance_index_get sid) sec₁) p.id m₁ p₁ := by
    have hold := h.within.cookie hwf hmem hnew hreq hans
      (s.secmods.set (sec_mod_instance_index_get sid) sec₁)
    refine ⟨hid₁, hold.mem, ?_⟩
    by_cases hu : p₁.username = u
    · -- the check has counted all workers of the user
      obtain rfl := hmax hu
      obtain rfl := hu
      have hpid : ∀ q ∈ m₁.procs, q.id ≠ p₁.id → 0 < q.pid := by
        intro q hq hne
        rcases hans.mem_procs hwf hreq hq (hid₁ ▸ hne) with hq | ⟨old, hold, rfl⟩
        · exact hwf.pid q hq
        · exact hwf.pid old hold
      have hall : Sys.Within (fun _ => true) p₁.username n (Sys.put ⟨m₁, _⟩ p₁) :=
        ⟨hold.inv.ids, Main.logins_of_check (hids₁ ▸ hwf.ids) hpid hmem₁ hpos hcheck⟩
      refine hall.mono fun q _ hserves => ?_
      simp only [Proc.serves, Bool.and_eq_true] at hserves ⊢
      exact ⟨⟨trivial, hserves.1.2⟩, hserves.2⟩
    · -- the new worker is not one of the user
      refine hold.inv.mono fun q hq hserves => ?_
      simp only [Proc.serves, Bool.and_eq_true, Bool.or_eq_true, beq_iff_eq] at hserves ⊢
      obtain ⟨⟨hid | haccepted, hname⟩, hkilled⟩ := hserves
      · rcases Main.mem_store.1 hq with ⟨rfl, -⟩ | ⟨-, hne⟩
        · exact absurd hname hu
        · exact absurd (hid.symm.trans hid₁.symm) hne
      · exact ⟨⟨haccepted, hname⟩, hkilled⟩
  have hnext := Sys.next_le_step hwf hstep
  refine ⟨?_, ?_, fun w hw => Nat.lt_of_lt_of_le ?_ hnext⟩
  · obtain ⟨s₂, p₂, hat, -, heq | ⟨kill, hremove⟩⟩ :=
      Phases.cookie_event hstep hev hfind hreq hans (Sys.Within.phases _ u max _) hwithin
    · exact heq ▸ hat.inv
    · exact hat.inv.removed (remove_proc_removed hremove)
  · obtain ⟨s₂, p₂, hat, hstatus, hend⟩ := Phases.cookie_event hstep hev hfind hreq hans
      (Sys.Started.phases accepted _) (h.started.cookie hwf hmem hnew hreq hans _)
    have hstarted : (s₂.put p₂).Started fun w => p.id == w || accepted w := by
      intro q hq haccepted
      rcases Main.mem_store.1 hq with ⟨rfl, -⟩ | ⟨-, hne⟩
      · exact hstatus
      · rcases Bool.or_eq_true_iff.1 haccepted with hw | hw
        · exact absurd ((beq_iff_eq.1 hw).symm.trans hat.id.symm) hne
        · exact hat.inv q hq hw
    rcases hend with rfl | ⟨kill, hremove⟩
    · exact hstarted
    · exact hstarted.removed (remove_proc_removed hremove)
  · rcases Bool.or_eq_true_iff.1 hw with hw | hw
    · exact beq_iff_eq.1 hw ▸ hwf.fresh p hmem
    · exact h.fresh w hw

/-! ## Runs -/

theorem Sys.Initial.limited (h : s.Initial) : s.Limited (Sys.accepted []) u max := by
  refine ⟨⟨by simp [h.procs], ?_⟩, by simp [Sys.Started, h.procs], fun w hw => nomatch hw⟩
  rw [Main.logins, h.procs]
  exact Nat.zero_le max

theorem Sys.limited_of_run {trace : List (Transition Sys (Sys.Event × Sys.Env))} (hpos : 0 < max)
    (hrun : Run Sys.Initial Sys.Step trace s)
    (hmax : ∀ t ∈ trace, ∀ a, t.pre.acceptance t.label = some a → a.username = u →
      a.max_same_clients = max) : s.Limited (Sys.accepted trace) u max := by
  induction hrun with
  | start hinit => exact hinit.limited
  | @snoc trace s s' l hrun hstep ih =>
    have hlimited := ih fun t ht => hmax t (mem_cons_of_mem _ ht)
    have hwf := (Sys.sound_of_reachable ⟨trace, hrun⟩).1
    have haccepted : Sys.accepted (⟨s, l, s'⟩ :: trace) = fun w =>
      (s.acceptance l).any (fun a => a.proc == w) || Sys.accepted trace w := rfl
    rw [haccepted]
    cases haccept : s.acceptance l with
    | none => exact hlimited.step hwf hstep
    | some a => exact hlimited.accept hwf hpos haccept (hmax _ List.mem_cons_self a haccept) hstep

/-- In every run with a constant limit for the user, the workers of the user that have been
accepted and not been killed are at most as many as the limit. -/
theorem simultaneous_logins_limited {trace : List (Transition Sys (Sys.Event × Sys.Env))}
    (hrun : Run Sys.Initial Sys.Step trace s) (hpos : 0 < max)
    (hmax : ∀ t ∈ trace, ∀ a, t.pre.acceptance t.label = some a → a.username = u →
      a.max_same_clients = max) : s.main.logins (Sys.accepted trace) u ≤ max :=
  (Sys.limited_of_run hpos hrun hmax).within.count

end Logins

section Example

open Sample

local instance loginsPlatform : Platform := Platform.simple

/-- One worker for each user. -/
private def loneLogins : Sys := start { max_same_clients := 1 } [first]

/-- The same user logs in twice, and two workers present the cookies. -/
private def twoLogins : List (Sys.Event × Sys.Env) :=
  [login 0 1 "alice".toList "1".toList, connect 5 [49], cookie 0 (sid 0 1),
    login 0 2 "alice".toList "1".toList, connect 6 [49], cookie 2 (sid 0 2)]

/-- The first worker is accepted, the second is refused. -/
theorem simultaneous_logins_limited_one : ∃ P : Platform, ∃ trace, ∃ s : @Sys P,
    Run (@Sys.Initial P) (@Sys.Step P) trace s ∧
      @Main.logins P (@Sys.accepted P trace) "alice".toList s.main ≤ 1 ∧
      @Sys.accepted P trace 0 = true ∧ @Sys.accepted P trace 2 = false := by
  have hplay : ∃ r ∈ loneLogins.replay [] twoLogins,
      (∀ t ∈ r.1, ∀ a ∈ t.pre.acceptance t.label, a.max_same_clients = 1) ∧
        Sys.accepted r.1 0 = true ∧ Sys.accepted r.1 2 = false := by
    decide +kernel
  obtain ⟨⟨trace, s⟩, hs, hmax, haccepted⟩ := hplay
  have hrun := Sys.run_of_replay (.start (start_initial _ rfl)) hs
  exact ⟨Platform.simple, trace, s, hrun,
    simultaneous_logins_limited hrun (by decide) fun t ht a ha _ => hmax t ht a ha, haccepted⟩

end Example
end Ocserv

import Ocserv.Proofs.Handlers

/-!
# The phases of an event

`Phases Inv env` says that a property of the system is kept by everything a handler
does to a worker on its own: quiet changes, a change of the worker that leaves its
session and addresses alone, a kill, and a new lease.  For such a property each
event comes down to the phases that touch sec-mod or the list of the workers: the
cookie request, and the removal of the worker.
-/

namespace Ocserv

open List Option Outcome

section Events

variable [Platform]

/-- `Inv` does not depend on anything but the workers that hold sessions, their
leases, and sec-mod. -/
structure Local (Inv : Sys → Prop) : Prop where
  quiet : ∀ {s s' : Sys}, Inv s → s.main.Quiet s'.main → s'.secmods = s.secmods → Inv s'
  update : ∀ {s : Sys} {p p' : Proc}, Inv s → s.main.find_proc p.id = some p → p.SameUser p' →
    Inv (s.put p')

/-- What `Inv` has to be kept by. -/
structure Phases (Inv : Sys → Prop) (env : MainEnv) : Prop extends Local Inv where
  kill : ∀ {s : Sys} {p : Proc}, Inv s → s.main.find_proc p.id = some p →
    Inv (s.put { p with pid_killed := true })
  lease4 : ∀ {s : Sys} {p : Proc} {l : IpLease}, Inv s → s.main.find_proc p.id = some p →
    p.ipv4 = none → get_ipv4_lease env s.main.ip_leases s.main.next p = .ok (.lease l) →
    Inv ({ s with main := s.main.register l }.put { p with ipv4 := some l })
  lease6 : ∀ {s : Sys} {p : Proc} {l : IpLease}, Inv s → s.main.find_proc p.id = some p →
    p.ipv6 = none → get_ipv6_lease env s.main.ip_leases s.main.next p = .ok (.lease l) →
    Inv ({ s with main := s.main.register l }.put { p with ipv6 := some l })

/-- The point that a handler has reached: `p` is the worker with the identity `w`, and
`Inv` holds if `p` is written back to `m`. -/
structure At (Inv : Sys → Prop) (secmods : List SecMod) (w : Nat) (m : Main) (p : Proc) : Prop where
  id : p.id = w
  mem : w ∈ m.procs.map Proc.id
  inv : Inv (Sys.put ⟨m, secmods⟩ p)

variable {Inv : Sys → Prop} {env : MainEnv} {secmods : List SecMod} {w : Nat} {m m' : Main}
  {p p' : Proc} {ret : Int}

theorem At.find (h : At Inv secmods w m p) :
    (Sys.put ⟨m, secmods⟩ p).main.find_proc p.id = some p := by
  obtain ⟨q, hq⟩ := Main.find_proc_isSome.2 (h.id ▸ h.mem)
  simp only [Sys.put, Main.find_proc_store, if_pos, hq, map_some]

theorem Sys.put_put (s : Sys) (p q : Proc) (hid : q.id = p.id) : (s.put p).put q = s.put q := by
  simp only [Sys.put, Main.store_store hid]

theorem Main.Quiet.store (h : m.Quiet m') (p : Proc) : (m.store p).Quiet (m'.store p) :=
  ⟨h.1, by simp only [Main.store, h.procs], h.3, h.4, h.5⟩

variable {s s' : Sys} {sec : SecMod} {flags : RProc} {procs : List Proc} {l : Sys.Event × Sys.Env}

/-- The handler of a cookie request goes on with what sec-mod has answered. -/
theorem handle_worker_commands_cookie {msg : WorkerMsg} {req : AuthCookieRequestMsg} {sid : Sid}
    {sec₁ : SecMod} {m₁ : Main} {p₁ : Proc} {result : Int} (hreq : CookieReq s p msg req sid sec)
    (hans : Answered env s p req sid sec m₁ sec₁ p₁ result) :
    s.handle_worker_commands env p msg = (do
      let r ← m₁.handle_cookie_auth_res env p₁ result
      return (⟨r.1, s.secmods.set (sec_mod_instance_index_get sid) sec₁⟩, r.2.1, r.2.2)) := by
  obtain ⟨rfl, hstatus, hcookie, hsec⟩ := hreq
  rw [Answered] at hans
  have hinactive : ¬ p.status ≠ .inactive := not_not_intro hstatus
  simp only [Sys.handle_worker_commands, if_neg hinactive, Sys.handle_cookie_cmd, hcookie, hsec,
    hans]

namespace Phases

variable (ph : Phases Inv env)
include ph

theorem at_quiet (h : At Inv secmods w m p) (hq : m.Quiet m') : At Inv secmods w m' p :=
  ⟨h.id, hq.procs ▸ h.mem, ph.quiet h.inv (hq.store p) rfl⟩

theorem at_update (h : At Inv secmods w m p) (hsame : p.SameUser p') :
    At Inv secmods w m p' := by
  have hinv := ph.update h.inv h.find hsame
  rw [Sys.put_put _ p p' hsame.id] at hinv
  exact ⟨hsame.id.trans h.id, h.mem, hinv⟩

theorem at_kill (h : At Inv secmods w m p) :
    At Inv secmods w m { p with pid_killed := true } := by
  have hinv := ph.kill h.inv h.find
  rw [Sys.put_put _ p { p with pid_killed := true } rfl] at hinv
  exact ⟨h.id, h.mem, hinv⟩

/-- Everything that a handler does to its worker, but for the cookie request. -/
theorem at_moved (h : At Inv secmods w m p) (hmoved : Moved env m p m' p') :
    At Inv secmods w m' p' := by
  induction hmoved with
  | refl => exact h
  | emits _ hemits ih => exact ph.at_quiet ih hemits.logged.quiet
  | update _ hsame _ ih => exact ph.at_update ih hsame
  | @table m₁ p₁ t _ hsid ih =>
    have hprocs : ((m₁.store p₁).store p₁).procs = (m₁.store p₁).procs := by
      rw [Main.store_store rfl]
    have hquiet : (m₁.store p₁).Quiet ({ m₁.store p₁ with proc_table := t }.store p₁) :=
      ⟨rfl, hprocs, hsid, rfl, rfl⟩
    exact ⟨ih.id, (Main.ids_store m₁ p₁).symm ▸ ih.mem, ph.quiet ih.inv hquiet rfl⟩
  | kill _ ih => exact ph.at_kill ih
  | @lease4 m₁ p₁ l _ hnone hlease ih =>
    have hput := Sys.put_put ⟨m₁.register l, secmods⟩ p₁ { p₁ with ipv4 := some l } rfl
    exact ⟨ih.id, ih.mem, hput ▸ ph.lease4 ih.inv ih.find hnone hlease⟩
  | @lease6 m₁ p₁ l _ hnone hlease ih =>
    have hput := Sys.put_put ⟨m₁.register l, secmods⟩ p₁ { p₁ with ipv6 := some l } rfl
    exact ⟨ih.id, ih.mem, hput ▸ ph.lease6 ih.inv ih.find hnone hlease⟩

theorem at_resolving (h : At Inv secmods w m p) (hres : Resolving env m p m' p' ret) :
    At Inv secmods w m' p' ∧ p'.status ≠ .inactive := by
  obtain ⟨m₁, p₁, hmoved, hlogged, hsame, hstatus⟩ := hres.spec
  exact ⟨ph.at_update (ph.at_quiet (ph.at_moved h hmoved) hlogged.quiet) hsame, hstatus⟩

/-! ## Events of a worker -/

variable {s s' : Sys} {msg : WorkerMsg}

/-- The handler of a message keeps `Inv`, if the cookie request does. -/
theorem handle_worker_commands (h : At Inv s.secmods w s.main p)
    (hcookie : ∀ req sid sec m₁ sec₁ p₁ result, CookieReq s p msg req sid sec →
      Answered env s p req sid sec m₁ sec₁ p₁ result →
      At Inv (s.secmods.set (sec_mod_instance_index_get sid) sec₁) w m₁ p₁)
    (hrun : s.handle_worker_commands env p msg = .ok (s', p', ret)) :
    At Inv s'.secmods w s'.main p' := by
  cases (Sys.handle_worker_commands_post msg).ok hrun with
  | moved hmoved => exact ph.at_moved h hmoved
  | unknown _ _ hres => exact (ph.at_resolving h hres).1
  | cookie hreq hans hres => exact (ph.at_resolving (hcookie _ _ _ _ _ _ _ hreq hans) hres).1

/-- A message of a worker, which may end with its removal. -/
theorem cmd_watcher_cb (h : At Inv s.secmods w s.main p)
    (hcookie : ∀ req sid sec m₁ sec₁ p₁ result, CookieReq s p msg req sid sec →
      Answered env s p req sid sec m₁ sec₁ p₁ result →
      At Inv (s.secmods.set (sec_mod_instance_index_get sid) sec₁) w m₁ p₁)
    (hremove : ∀ {s₁ : Sys} {p₁ : Proc} {kill : Bool}, At Inv s₁.secmods w s₁.main p₁ →
      (s₁.put p₁).remove_proc env p₁ { kill } = .ok s' → Inv s')
    (hrun : s.cmd_watcher_cb env p msg = .ok s') : Inv s' := by
  simp only [Sys.cmd_watcher_cb, bind_eq_ok] at hrun
  obtain ⟨⟨s₁, p₁, ret₁⟩, hcmd, hrun⟩ := hrun
  have hat := ph.handle_worker_commands h hcookie hcmd
  split at hrun
  · exact hremove hat hrun
  · rw [pure_eq_ok] at hrun
    exact hrun ▸ hat.inv

omit ph in
/-- After a cookie request the worker has left its first state, and is written back or
removed. -/
theorem cookie_event {l : Sys.Event × Sys.Env} {req : AuthCookieRequestMsg} {sid : Sid}
    {sec sec₁ : SecMod} {m₁ : Main} {p₁ : Proc} {result : Int} (hstep : Sys.Step s l s')
    (hev : l.1 = .worker w msg) (hfind : s.main.find_proc w = some p)
    (hreq : CookieReq s p msg req sid sec)
    (hans : Answered (l.2 w) s p req sid sec m₁ sec₁ p₁ result) (ph : Phases Inv (l.2 w))
    (h : At Inv (s.secmods.set (sec_mod_instance_index_get sid) sec₁) w m₁ p₁) :
    ∃ (s₂ : Sys) (p₂ : Proc), At Inv s₂.secmods w s₂.main p₂ ∧ p₂.status ≠ .inactive ∧
      (s' = s₂.put p₂ ∨ ∃ kill, (s₂.put p₂).remove_proc (l.2 w) p₂ { kill } = .ok s') := by
  obtain ⟨ev, env⟩ := l
  obtain rfl : ev = .worker w msg := hev
  obtain ⟨p', hfind', hrun⟩ := map_eq_some_iff.1 hstep.1
  obtain rfl := some.inj (hfind.symm.trans hfind')
  simp only [Sys.cmd_watcher_cb, handle_worker_commands_cookie hreq hans, bind_eq_ok,
    pure_eq_ok] at hrun
  obtain ⟨_, ⟨⟨m₂, p₂, ret⟩, hres, rfl⟩, hrun⟩ := hrun
  obtain ⟨hat, hstatus⟩ :=
    ph.at_resolving h ((m₁.handle_cookie_auth_res_post (env w) p₁ result).ok hres)
  refine ⟨⟨m₂, _⟩, p₂, hat, hstatus, ?_⟩
  split at hrun
  · exact .inr ⟨_, hrun⟩
  · rw [pure_eq_ok] at hrun
    exact .inl hrun.symm

/-- The exit of a connect script, which may end with the removal of the worker. -/
theorem script_child_watcher_cb {stmp : ScriptWait} {rstatus : WaitStatus}
    (h : At Inv s.secmods w s.main p)
    (hremove : ∀ {s₁ : Sys} {p₁ : Proc} {kill : Bool}, At Inv s₁.secmods w s₁.main p₁ →
      (s₁.put p₁).remove_proc env p₁ { kill } = .ok s' → Inv s')
    (hrun : s.script_child_watcher_cb env stmp p rstatus = .ok s') : Inv s' := by
  simp only [Sys.script_child_watcher_cb, bind_eq_ok] at hrun
  obtain ⟨⟨m₁, p₁, ret₁⟩, hexit, hrun⟩ := hrun
  obtain ⟨hlogged, hsame⟩ := ((Main.handle_script_exit_post _ _ _ _).ok hexit).spec
  have hquiet₀ : s.main.Quiet m₁ := by
    refine Main.Quiet.trans ?_ hlogged.quiet
    split <;> exact ⟨rfl, rfl, rfl, rfl, rfl⟩
  have hat := ph.at_update (ph.at_quiet h hquiet₀) hsame
  split at hrun
  · exact @hremove ⟨m₁, s.secmods⟩ p₁ true hat hrun
  · rw [pure_eq_ok] at hrun
    exact hrun ▸ hat.inv

omit ph in
/-- The timeout of a worker that has not authenticated. -/
theorem kill_auth_timeout (h : At Inv s.secmods w s.main p) (hself : s.put p = s)
    (hremove : ∀ {s₁ : Sys} {p₁ : Proc} {kill : Bool}, At Inv s₁.secmods w s₁.main p₁ →
      (s₁.put p₁).remove_proc env p₁ { kill } = .ok s' → Inv s')
    (hrun : s.kill_auth_timeout env p = .ok s') : Inv s' := by
  unfold Sys.kill_auth_timeout at hrun
  split at hrun
  · exact hremove h (hself.symm ▸ hrun)
  · rw [pure_eq_ok] at hrun
    exact hrun ▸ hself ▸ h.inv

end Phases

/-! ## The removal of a worker -/

/-- The system after the removal of the worker `p`. -/
structure Removed (env : MainEnv) (s : Sys) (p : Proc) (s' : Sys) : Prop where
  vconfig : s'.main.vconfig = s.main.vconfig
  procs : s'.main.procs = s.main.procs.filter fun q => q.id != p.id
  db_sid : s'.main.proc_table.db_sid =
    (s.main.proc_table.db_sid.del p.rehash_sid (· == p.id)).1
  ip_leases : s'.main.ip_leases = p.leases.foldl LeaseDb.unref_ip_lease s.main.ip_leases
  next : s'.main.next = s.main.next
  idle : p.active_sid = false → s'.secmods = s.secmods
  closed : p.active_sid → ∃ sec reply,
    s.secmods[p.sec_mod_instance_index]? = some sec ∧
      (sec.handle_secm_session_close_cmd env.sec p.closeMsg).2.1 = some reply ∧
      s'.secmods = s.secmods.set p.sec_mod_instance_index
        (sec.handle_secm_session_close_cmd env.sec p.closeMsg).1

/-- The worker, with what sec-mod says at the end of its session. -/
structure Proc.Ended (p p' : Proc) : Prop where
  eq : p' =
    { p with
      bytes_in := p'.bytes_in
      bytes_out := p'.bytes_out
      discon_reason := p'.discon_reason }

omit [Platform] in
theorem Proc.Ended.refl (p : Proc) : p.Ended p := ⟨rfl⟩

omit [Platform] in
theorem Proc.Ended.same (h : p.Ended p') : p.SameUser p' := by
  rw [h.eq]
  exact ⟨⟨rfl, fun h => h, fun h => h⟩, rfl, rfl, rfl⟩

theorem session_close_post : Post (session_close env sec p)
    (fun r => r.1 = (sec.handle_secm_session_close_cmd env.sec p.closeMsg).1 ∧ p.Ended r.2.1 ∧
      (0 ≤ r.2.2 → ∃ reply,
        (sec.handle_secm_session_close_cmd env.sec p.closeMsg).2.1 = some reply))
    fun _ => p.vhost = none := by
  unfold session_close
  dsimp only
  split
  · exact .pure ⟨rfl, .refl p, fun h => absurd h (show ¬ (0 : Int) ≤ -1 by decide)⟩
  · next reply hreply =>
    have hvhost := (deref_post .null_vhost p.vhost).mono_error fun _ h => h.1
    exact hvhost.bind fun _ _ _ => .pure ⟨rfl, ⟨rfl⟩, fun _ => ⟨reply, hreply⟩⟩

theorem Sys.signal_emits (s : Sys) (p : Proc) (flags : RProc) :
    s.main.Emits Effect.Plain (s.signal p flags).main ∧ (s.signal p flags).secmods = s.secmods := by
  unfold Sys.signal
  split
  · exact ⟨.emit ⟨rfl, rfl⟩, rfl⟩
  · exact ⟨.refl _, rfl⟩

/-- The end of a session is between main's copy of the worker and sec-mod. -/
theorem Sys.end_session_post : Post (s.end_session env p flags)
    (fun r => r.1.main = s.main ∧ p.Ended r.2)
    fun f => f = .no_instance ∨ f = .exit ∨ p.active_sid ∧ p.vhost = none := by
  unfold Sys.end_session Sys.close_session
  split
  · next hact =>
    have hactive : p.active_sid := (Bool.and_eq_true_iff.1 hact).1
    refine ((deref_post _ _).mono_error fun _ h => .inl h.2).bind fun sec _ _ => ?_
    refine (session_close_post.mono_error fun _ h => .inr (.inr ⟨hactive, h⟩)).bind
      fun r _ hclose => ?_
    dsimp only
    split
    · exact .inr (.inl rfl)
    · exact .pure ⟨rfl, hclose.2.1⟩
  · exact .pure ⟨rfl, .refl p⟩

/-- What the removal of a worker does to main: the scripts are finished, and then everything
that the worker has in main is given back. -/
theorem remove_proc_main (h : s.remove_proc env p flags = .ok s') :
    ∃ m₁ p₁, p.Ended p₁ ∧ s.main.Logged m₁ ∧ m₁.ledger = s.main.ledger ∧ Ended env s.main p m₁ ∧
      s'.main = { ((m₁.remove_iroutes p₁).remove_ip_leases p₁).proc_table_del p₁ with
        procs := (m₁.remove_iroutes p₁).procs.filter fun q => q.id != p₁.id } := by
  simp only [Sys.remove_proc, Main.release, bind_eq_ok, pure_eq_ok] at h
  obtain ⟨⟨s₁, p₁⟩, hend, _, ⟨m₁, hscripts, rfl⟩, rfl⟩ := h
  obtain ⟨hmain, hended⟩ := Sys.end_session_post.ok hend
  dsimp only at hscripts hmain hended
  obtain ⟨hlogged, hledger, hfinished⟩ := Main.finish_scripts_post.ok hscripts
  have hsignal : s.main.Emits Effect.Plain s₁.main := hmain ▸ (s.signal_emits p flags).1
  obtain ⟨hlist, hphases⟩ := hfinished
  rw [hsignal.script_list, hended.same.id] at hlist hphases
  rw [hsignal.phases fun _ he => he.1, show p₁.status = p.status by rw [hended.eq]] at hphases
  exact ⟨m₁, p₁, hended, hsignal.logged.trans hlogged,
    hledger.trans (hsignal.ledger fun _ he => he.2), ⟨hlist, hphases⟩, rfl⟩

theorem remove_proc_removed {kill : Bool} (h : s.remove_proc env p { kill } = .ok s') :
    Removed env s p s' := by
  obtain ⟨m₀, p₁, hended, hlogged₀, -, -, hmain⟩ := remove_proc_main h
  have hlogged := hlogged₀.trans (Main.remove_iroutes_emits m₀ p₁).logged
  have hsame := hended.same
  have hleases : p₁.leases = p.leases := by simp only [Proc.leases, hsame.ipv4, hsame.ipv6]
  have hhash : p₁.rehash_sid = p.rehash_sid := by simp only [Proc.rehash_sid, hsame.sid]
  -- the session
  have hsession : (p.active_sid = false → s'.secmods = s.secmods) ∧
      (p.active_sid → ∃ sec reply, s.secmods[p.sec_mod_instance_index]? = some sec ∧
        (sec.handle_secm_session_close_cmd env.sec p.closeMsg).2.1 = some reply ∧
        s'.secmods = s.secmods.set p.sec_mod_instance_index
          (sec.handle_secm_session_close_cmd env.sec p.closeMsg).1) := by
    simp only [Sys.remove_proc, bind_eq_ok, pure_eq_ok] at h
    obtain ⟨⟨s₁, p₂⟩, hend, m₂, -, rfl⟩ := h
    rw [← (s.signal_emits p { kill }).2]
    unfold Sys.end_session at hend
    cases hact : p.active_sid with
    | false =>
      simp only [hact, Bool.false_and, Bool.false_eq_true, if_false, pure_eq_ok,
        Prod.mk.injEq] at hend
      obtain ⟨rfl, rfl⟩ := hend
      exact ⟨fun _ => rfl, by simp⟩
    | true =>
      simp only [hact, Bool.not_false, Bool.and_self, if_true, Sys.close_session,
        bind_eq_ok] at hend
      obtain ⟨sec, hsec, ⟨sec', p', ret'⟩, hclose, hend⟩ := hend
      obtain ⟨rfl, hended', hreply⟩ := session_close_post.ok hclose
      split at hend
      · simp at hend
      · next hret =>
        simp only [pure_eq_ok, Prod.mk.injEq] at hend
        obtain ⟨rfl, rfl⟩ := hend
        obtain ⟨reply, hreply⟩ := hreply (by simpa using hret)
        refine ⟨by simp, fun _ => ⟨sec, reply, deref_eq_ok.1 hsec, hreply, ?_⟩⟩
        rw [hended'.same.index]
  refine ⟨?_, ?_, ?_, ?_, ?_, hsession.1, hsession.2⟩
  all_goals rw [hmain]
  · exact hlogged.vconfig
  · change (m₀.remove_iroutes p₁).procs.filter (fun q => q.id != p₁.id) = _
    rw [hlogged.procs, hsame.id]
  · change ((m₀.remove_iroutes p₁).proc_table.db_sid.del p₁.rehash_sid (· == p₁.id)).1 = _
    rw [hlogged.proc_table, hhash, hsame.id]
  · change p₁.leases.foldl LeaseDb.unref_ip_lease (m₀.remove_iroutes p₁).ip_leases = _
    rw [hlogged.ip_leases, hleases]
  · exact hlogged.next

/-! ## Administrative commands -/

/-- The worker has been told to terminate, and its session cannot be used again. -/
def Sys.signalled (s : Sys) (p : Proc) : Sys :=
  { s with main := (s.main.store { p with invalidated := true }).emit (.sigterm p.id) }

theorem Sys.disconnect_proc_eq (hpid : 0 < p.pid) :
    s.disconnect_proc env p = .ok (s.signalled p) := by
  have hpos : p.pid ≠ -1 ∧ p.pid ≠ 0 := by omega
  simp only [disconnect_proc, if_pos hpos]
  rfl

theorem Sys.disconnect_procs_eq {env : Nat → MainEnv} (hpid : ∀ p ∈ procs, 0 < p.pid) (s : Sys) :
    s.disconnect_procs env procs = .ok (procs.foldl Sys.signalled s) := by
  induction procs generalizing s with
  | nil => rfl
  | cons p procs ih =>
    obtain ⟨hp, hprocs⟩ := forall_mem_cons.1 hpid
    rw [disconnect_procs, disconnect_proc_eq hp]
    exact ih hprocs _

theorem Local.signalled (hl : Local Inv) (h : Inv s) (hfind : s.main.find_proc p.id = some p) :
    Inv (s.signalled p) := by
  have hsame : p.SameUser { p with invalidated := true } :=
    ⟨⟨rfl, fun h => h, fun _ => rfl⟩, rfl, rfl, rfl⟩
  exact hl.quiet (hl.update h hfind hsame) (Main.emit_logged _ _).quiet rfl

theorem Local.foldl_signalled (hl : Local Inv) (h : Inv s) (hids : (procs.map Proc.id).Nodup)
    (hfind : ∀ p ∈ procs, s.main.find_proc p.id = some p) :
    Inv (procs.foldl Sys.signalled s) := by
  induction procs generalizing s with
  | nil => exact h
  | cons p procs ih =>
    obtain ⟨hp, hprocs⟩ := forall_mem_cons.1 hfind
    rw [map_cons, nodup_cons] at hids
    refine ih (hl.signalled h hp) hids.2 ?_
    -- the others are still as they were
    intro q hq
    have hne : q.id ≠ p.id := fun heq => hids.1 (heq ▸ mem_map_of_mem hq)
    change (s.main.store { p with invalidated := true }).find_proc q.id = some q
    rw [Main.find_proc_store, if_neg hne, hprocs q hq]

/-- The workers that an administrative command disconnects. -/
def Sys.Event.disconnects (m : Main) : Sys.Event → List Proc
  | .disconnect_name username | .terminate_user username =>
    m.procs.filter fun p => p.username = username
  | .disconnect_id id =>
    let procs := m.procs.filter fun p => p.pid = id
    if id ≠ -1 then procs.take 1 else procs
  | .terminate_id id => (m.procs.find? fun p => p.pid = id).toList
  | _ => []

theorem Sys.Event.disconnects_sublist (m : Main) (ev : Sys.Event) :
    (ev.disconnects m).Sublist m.procs := by
  cases ev with
  | disconnect_name | terminate_user => exact filter_sublist
  | disconnect_id id =>
    simp only [disconnects]
    split
    · exact (take_sublist _ _).trans filter_sublist
    · exact filter_sublist
  | terminate_id id =>
    simp only [disconnects]
    cases hfind : m.procs.find? fun p => p.pid = id with
    | none => exact nil_sublist _
    | some p => exact singleton_sublist.2 (mem_of_find?_eq_some hfind)
  | _ => exact nil_sublist _

/-- The event is an administrative command. -/
def Sys.Event.admin : Sys.Event → Bool
  | .disconnect_name _ | .disconnect_id _ | .terminate_user _ | .terminate_id _
  | .terminate_session _ => true
  | _ => false

/-- The state after an administrative command: the workers are signalled first, and then the
sessions may be terminated. -/
def Sys.administered (s : Sys) (ev : Sys.Event) : Sys :=
  let s₁ := (ev.disconnects s.main).foldl Sys.signalled s
  match ev with
  | .terminate_user username => (s₁.terminate_user_sessions_in_secmod username).1
  | .terminate_id id =>
    ((s.main.procs.find? fun p => p.pid = id).elim s₁ fun p =>
      (s₁.terminate_session_in_secmod (Platform.calc_safe_id p.sid)).1)
  | .terminate_session safe_id =>
    if safe_id = [] then s₁ else (s₁.terminate_session_in_secmod safe_id).1
  | _ => s₁

theorem Sys.exec_admin (hpid : ∀ p ∈ s.main.procs, 0 < p.pid) (env : Sys.Env) {ev : Sys.Event}
    (hev : ev.admin) : s.exec env ev = some (.ok (s.administered ev)) := by
  have hsignalled : s.disconnect_procs env (ev.disconnects s.main) =
      .ok ((ev.disconnects s.main).foldl Sys.signalled s) :=
    Sys.disconnect_procs_eq (fun p hp => hpid p ((ev.disconnects_sublist s.main).subset hp)) s
  cases ev with
  | disconnect_name | disconnect_id => exact congrArg some hsignalled
  | terminate_user username =>
    refine congrArg some ?_
    show (s.disconnect_procs env ((Sys.Event.terminate_user username).disconnects s.main) >>= _) = _
    rw [hsignalled]
    rfl
  | terminate_id id =>
    simp only [Sys.exec, Sys.method_terminate_id, Sys.administered, Sys.Event.disconnects]
    cases hfind : s.main.procs.find? fun p => p.pid = id with
    | none => rfl
    | some p =>
      simp only [Sys.disconnect_proc_eq (hpid p (mem_of_find?_eq_some hfind))]
      rfl
  | terminate_session => rfl
  | _ => cases hev

/-! ## Instances of sec-mod -/

/-- Every instance is as before, or has executed one command that `P` allows. -/
def Sys.Executed (P : Nat → SecEnv → SecMod.Cmd → Prop) (secs secs' : List SecMod) : Prop :=
  ∀ (i : Nat) (sec' : SecMod), secs'[i]? = some sec' → ∃ sec, secs[i]? = some sec ∧
    (sec' = sec ∨ ∃ env c, P i env c ∧ sec' = (sec.exec env c).1)

variable {P : Nat → SecEnv → SecMod.Cmd → Prop} {secs : List SecMod}

theorem Sys.Executed.refl (secs : List SecMod) : Sys.Executed P secs secs :=
  fun _ sec hsec => ⟨sec, hsec, .inl rfl⟩

theorem Sys.executed_set {i : Nat} {env : SecEnv} {c : SecMod.Cmd} (hsec : secs[i]? = some sec)
    (hc : P i env c) :
    Sys.Executed P secs (secs.set i (sec.exec env c).1) := by
  intro j sec' hsec'
  rw [List.getElem?_set] at hsec'
  split at hsec'
  · next hij =>
    split at hsec'
    · exact ⟨sec, hij ▸ hsec, .inr ⟨env, c, hij ▸ hc, (some.inj hsec').symm⟩⟩
    · simp at hsec'
  · exact ⟨sec', hsec', .inl rfl⟩

/-- The instances that a termination reaches have executed it. -/
theorem Sys.executed_terminate {request : SecMod → SecMod × Bool} (env : SecEnv) (c : SecMod.Cmd)
    (hrequest : ∀ sec, (request sec).1 = (sec.exec env c).1) (hc : ∀ i, P i env c)
    (secs : List SecMod) :
    Sys.Executed P secs (Sys.terminate_in_secmod request secs).1 := by
  have hfirst : ∀ {sec sec' : SecMod} (i : Nat), some (request sec).1 = some sec' →
      ∃ env c, P i env c ∧ sec' = (sec.exec env c).1 := by
    intro sec sec' i heq
    rw [hrequest] at heq
    exact ⟨env, c, hc i, (some.inj heq).symm⟩
  induction secs generalizing P with
  | nil =>
    intro i sec' hsec'
    simp [terminate_in_secmod] at hsec'
  | cons sec secs ih =>
    intro i sec' hsec'
    simp only [terminate_in_secmod] at hsec'
    cases hdone : (request sec).2 with
    | true =>
      simp only [hdone, if_true] at hsec'
      cases i with
      | zero => exact ⟨sec, rfl, .inr (hfirst 0 hsec')⟩
      | succ i => exact ⟨sec', hsec', .inl rfl⟩
    | false =>
      simp only [hdone, Bool.false_eq_true, if_false] at hsec'
      cases i with
      | zero => exact ⟨sec, rfl, .inr (hfirst 0 hsec')⟩
      | succ i =>
        exact ih (P := fun i => P (i + 1)) (fun i => hc (i + 1)) (fun i => hfirst (i + 1)) i
          sec' hsec'

/-- A property of the instances that the commands keep. -/
theorem Sys.Executed.forall {J : Nat → SecMod → Prop} {secs' : List SecMod}
    (h : Sys.Executed P secs secs') (hall : ∀ i sec, secs[i]? = some sec → J i sec)
    (hJ : ∀ i sec env c, P i env c → J i sec → J i (sec.exec env c).1) :
    ∀ i sec, secs'[i]? = some sec → J i sec := by
  intro i sec' hsec'
  obtain ⟨sec, hsec, rfl | ⟨env, c, hc, rfl⟩⟩ := h i sec' hsec'
  · exact hall i sec' hsec
  · exact hJ i sec env c hc (hall i sec hsec)

/-- The commands that the instances of sec-mod execute in an event, besides the requests that
main makes for a worker. -/
inductive Sys.Event.Orders (ev : Sys.Event) : Nat → SecEnv → SecMod.Cmd → Prop
  | command {i : Nat} {env : SecEnv} {c : SecMod.Cmd} : ev = .secmod i env c → Sys.FromWorkers c →
      Orders ev i env c
  | terminate_user {i : Nat} {env : SecEnv} {username : CStr} :
      Orders ev i env (.terminate_user_sessions (some username))
  | terminate_session {i : Nat} {env : SecEnv} {safe_id : CStr} :
      Orders ev i env (.terminate_session safe_id)

theorem Sys.administered_rule {Q : Sys → Prop} (ev : Sys.Event) (env : SecEnv)
    (h : Q ((ev.disconnects s.main).foldl Sys.signalled s))
    (hexec : ∀ {s₁ : Sys} {secs : List SecMod}, Q s₁ → Sys.Executed ev.Orders s₁.secmods secs →
      Q { s₁ with secmods := secs }) :
    Q (s.administered ev) := by
  have hsession : ∀ {s₁ : Sys} {safe_id : CStr}, Q s₁ →
      Q (s₁.terminate_session_in_secmod safe_id).1 := fun {_ safe_id} h₁ =>
    hexec h₁ (Sys.executed_terminate env (.terminate_session safe_id) (fun _ => rfl)
      (fun _ => .terminate_session) _)
  unfold Sys.administered
  split
  · next username =>
    exact hexec h (Sys.executed_terminate env (.terminate_user_sessions (some username))
      (fun _ => rfl) (fun _ => .terminate_user) _)
  · next id =>
    cases s.main.procs.find? fun p => p.pid = id with
    | none => exact h
    | some p => exact hsession h
  · split
    · exact h
    · exact hsession h
  · exact h

/-! ## Steps -/

/-- The worker that an event of main is about. -/
def Sys.Event.about : Sys.Event → Option Nat
  | .worker w _ => some w
  | .script_exit stmp _ => some stmp.proc
  | .auth_timeout w => some w
  | _ => none

/-- An event about a worker keeps what its phases keep, if its cookie request and its
removal do. -/
theorem Phases.about (ph : Phases Inv (l.2 w)) (habout : l.1.about = some w)
    (hids : (s.main.procs.map Proc.id).Nodup) (h : Inv s)
    (hcookie : ∀ {p msg req sid sec m₁ sec₁ p₁ result}, l.1 = .worker w msg →
      s.main.find_proc w = some p → CookieReq s p msg req sid sec →
      Answered (l.2 w) s p req sid sec m₁ sec₁ p₁ result →
      At Inv (s.secmods.set (sec_mod_instance_index_get sid) sec₁) w m₁ p₁)
    (hremove : ∀ {s₁ : Sys} {p₁ : Proc} {kill : Bool}, At Inv s₁.secmods w s₁.main p₁ →
      (s₁.put p₁).remove_proc (l.2 w) p₁ { kill } = .ok s' → Inv s')
    (hstep : Sys.Step s l s') : Inv s' := by
  obtain ⟨ev, env⟩ := l
  have hexec : s.exec env ev = some (.ok s') := hstep.1
  have hat : ∀ {p}, s.main.find_proc w = some p → At Inv s.secmods w s.main p ∧ s.put p = s := by
    intro p hfind
    obtain ⟨hmem, hid⟩ := Main.find_proc_eq_some hfind
    have hself : s.put p = s := by rw [Sys.put, Main.store_self hids hmem]
    exact ⟨⟨hid, hid ▸ mem_map_of_mem hmem, hself.symm ▸ h⟩, hself⟩
  cases ev with
  | worker w' msg =>
    cases habout
    obtain ⟨p, hfind, hrun⟩ := map_eq_some_iff.1 hexec
    exact ph.cmd_watcher_cb (hat hfind).1
      (fun _ _ _ _ _ _ _ hreq hans => hcookie rfl hfind hreq hans) hremove hrun
  | script_exit stmp rstatus =>
    cases habout
    simp only [Sys.exec] at hexec
    split at hexec
    · obtain ⟨p, hfind, hrun⟩ := map_eq_some_iff.1 hexec
      exact ph.script_child_watcher_cb (hat hfind).1 hremove hrun
    · simp at hexec
  | auth_timeout w' =>
    cases habout
    obtain ⟨p, hfind, hrun⟩ := map_eq_some_iff.1 hexec
    exact Phases.kill_auth_timeout (hat hfind).1 (hat hfind).2 hremove hrun
  | _ => cases habout

/-- What has to be shown of the events that do more than the phases of a worker. -/
structure EventRule (Inv : Sys → Prop) (s : Sys) (l : Sys.Event × Sys.Env) (s' : Sys) : Prop where
  accept : ∀ {pid time : Int} {remote_addr our_addr : SockAddr},
    l.1 = .accept pid time remote_addr our_addr → 0 < pid →
    Inv { s with main := s.main.new_proc pid time remote_addr our_addr }
  cookie : ∀ {w : Nat} {p : Proc} {msg : WorkerMsg} {req : AuthCookieRequestMsg} {sid : Sid}
    {sec : SecMod} {m₁ : Main} {sec₁ : SecMod} {p₁ : Proc} {result : Int}, l.1 = .worker w msg →
    s.main.find_proc w = some p → CookieReq s p msg req sid sec →
    Answered (l.2 w) s p req sid sec m₁ sec₁ p₁ result →
    At Inv (s.secmods.set (sec_mod_instance_index_get sid) sec₁) w m₁ p₁
  remove : ∀ {w : Nat} {s₁ : Sys} {p₁ : Proc} {kill : Bool}, l.1.about = some w →
    At Inv s₁.secmods w s₁.main p₁ →
    (s₁.put p₁).remove_proc (l.2 w) p₁ { kill } = .ok s' → Inv s'
  execute : ∀ {s₁ : Sys} {secs : List SecMod}, Inv s₁ →
    (∀ i env c, l.1 = .secmod i env c → s₁ = s) → Sys.Executed l.1.Orders s₁.secmods secs →
    Inv { s₁ with secmods := secs }

/-- A property that is kept by the phases of the workers and that the other events meet
is kept by a step. -/
theorem EventRule.step (rule : EventRule Inv s l s') (hph : ∀ w, Phases Inv (l.2 w))
    (hids : (s.main.procs.map Proc.id).Nodup) (hpid : ∀ p ∈ s.main.procs, 0 < p.pid) (h : Inv s)
    (hstep : Sys.Step s l s') : Inv s' := by
  have habout : ∀ w, l.1.about = some w → Inv s' := fun w hw =>
    (hph w).about hw hids h rule.cookie (rule.remove hw) hstep
  have hadmin : l.1.admin → Inv s' := by
    intro hev
    have hsub := l.1.disconnects_sublist s.main
    have hsame := hstep.1
    rw [Sys.exec_admin hpid l.2 hev, some_inj, Except.ok.injEq] at hsame
    rw [← hsame]
    refine Sys.administered_rule l.1 (l.2 0).sec ?_ fun h₁ => rule.execute h₁ fun i env c hl => ?_
    · exact (hph 0).toLocal.foldl_signalled h (hids.sublist (hsub.map _))
        fun p hp => Main.find_proc_of_mem hids (hsub.subset hp)
    · rw [hl] at hev
      cases hev
  obtain ⟨hexec, hcmd⟩ := hstep
  obtain ⟨ev, env⟩ := l
  cases ev with
  | accept pid time remote_addr our_addr =>
    simp only [Sys.exec] at hexec
    split at hexec
    · next hpos =>
      rw [← Except.ok.inj (some.inj hexec)]
      exact rule.accept rfl hpos
    · simp at hexec
  | worker w msg => exact habout w rfl
  | script_exit stmp rstatus => exact habout stmp.proc rfl
  | auth_timeout w => exact habout w rfl
  | secmod index env' cmd =>
    obtain ⟨sec, hsec, hrun⟩ := map_eq_some_iff.1 hexec
    rw [← Except.ok.inj hrun]
    exact rule.execute h (fun _ _ _ _ => rfl)
      (Sys.executed_set hsec (.command rfl (hcmd _ _ _ rfl)))
  | _ => exact hadmin rfl

end Events
end Ocserv

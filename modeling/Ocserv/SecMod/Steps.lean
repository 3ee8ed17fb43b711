import Ocserv.SecMod.Session

/-!
# What one command does to one entry

Seen from a single session identifier, sec-mod is a small automaton whose state is
the entry of that identifier, if there is one.  `EntryStep` lists its moves, and
`exec_entryStep` says that every command makes one of them at every identifier.
The invariants of sec-mod are proved over `EntryStep`; only this file opens the
handlers.

The moves of the authentication itself are in `AuthOutcome`: an authentication
step fails, waits for another answer, or completes the entry.
-/

namespace Ocserv

open List Option

/-! ## Entries that differ in their progress only -/

/-- The fields that are settled when an entry is attached to its method, and the
reference counter. -/
structure ClientEntry.Session where
  sid : Sid
  safe_id : CStr
  vhost : VhostCfg
  in_use : Nat
  auth_type : AuthType
  amod : Option AuthMod
  tls_auth_ok : Bool
  req_group_name : CStr
  cert_user_name : CStr
  cert_group_names : List CStr

def ClientEntry.session (e : ClientEntry) : ClientEntry.Session where
  sid := e.sid
  safe_id := e.acct_info.safe_id
  vhost := e.vhost
  in_use := e.in_use
  auth_type := e.auth_type
  amod := e.amod
  tls_auth_ok := e.tls_auth_ok
  req_group_name := e.req_group_name
  cert_user_name := e.cert_user_name
  cert_group_names := e.cert_group_names

def SameSession (e e' : ClientEntry) : Prop := e'.session = e.session

namespace SameSession

variable {e e' : ClientEntry} (h : SameSession e e')
include h

theorem sid : e'.sid = e.sid := congrArg ClientEntry.Session.sid h

theorem safe_id : e'.acct_info.safe_id = e.acct_info.safe_id :=
  congrArg ClientEntry.Session.safe_id h

theorem vhost : e'.vhost = e.vhost := congrArg ClientEntry.Session.vhost h

theorem in_use : e'.in_use = e.in_use := congrArg ClientEntry.Session.in_use h

theorem auth_type : e'.auth_type = e.auth_type := congrArg ClientEntry.Session.auth_type h

theorem amod : e'.amod = e.amod := congrArg ClientEntry.Session.amod h

theorem tls_auth_ok : e'.tls_auth_ok = e.tls_auth_ok := congrArg ClientEntry.Session.tls_auth_ok h

theorem req_group_name : e'.req_group_name = e.req_group_name :=
  congrArg ClientEntry.Session.req_group_name h

theorem cert_user_name : e'.cert_user_name = e.cert_user_name :=
  congrArg ClientEntry.Session.cert_user_name h

theorem cert_group_names : e'.cert_group_names = e.cert_group_names :=
  congrArg ClientEntry.Session.cert_group_names h

end SameSession

variable {a b c e e' : ClientEntry}

theorem SameSession.trans (h₁ : SameSession a b) (h₂ : SameSession b c) :
    SameSession a c :=
  Eq.trans h₂ h₁

/-! ## What an authentication writes -/

/-- The entry differs in the fields that the steps of an authentication write. -/
def Progress (e e' : ClientEntry) : Prop :=
  ∃ status msg_str passwd_counter username groupname, e' =
    { e with
      status, msg_str, passwd_counter
      acct_info := { e.acct_info with username, groupname } }

theorem Progress.trans (h₁ : Progress a b) (h₂ : Progress b c) :
    Progress a c := by
  obtain ⟨_, _, _, _, _, rfl⟩ := h₁
  obtain ⟨_, _, _, _, _, rfl⟩ := h₂
  exact ⟨_, _, _, _, _, rfl⟩

theorem Progress.sameSession (h : Progress e e') : SameSession e e' := by
  obtain ⟨_, _, _, _, _, rfl⟩ := h
  rfl

theorem check_cert_progress (h : check_cert_user_group_status e = some e') :
    Progress e e' ∧ e'.status = e.status := by
  simp only [check_cert_user_group_status] at h
  split_ifs at h <;> obtain rfl := some.inj h <;> exact ⟨⟨_, _, _, _, _, rfl⟩, rfl⟩

theorem group_from_module_progress (env : SecEnv) (e : ClientEntry) :
    Progress e (group_from_module env e).1 ∧ (group_from_module env e).1.status = e.status := by
  unfold group_from_module
  split <;> exact ⟨⟨_, _, _, _, _, rfl⟩, rfl⟩

theorem group_from_cert_progress (h : group_from_cert e = some e') :
    Progress e e' ∧ e'.status = e.status := by
  unfold group_from_cert at h
  split_ifs at h <;> obtain rfl := some.inj h <;> exact ⟨⟨_, _, _, _, _, rfl⟩, rfl⟩

theorem check_group_progress (env : SecEnv) (e : ClientEntry) :
    Progress e (check_group env e).1 ∧ (check_group env e).1.status = e.status := by
  have hmod := group_from_module_progress env e
  unfold check_group
  simp only
  split
  · exact hmod
  · split
    · exact hmod
    · next e₁ hcert =>
      have h₁ := group_from_cert_progress hcert
      have hgroup := And.intro (hmod.1.trans h₁.1) (h₁.2.trans hmod.2)
      split
      · exact hgroup
      · next e₂ hstatus =>
        have h₂ := check_cert_progress hstatus
        exact ⟨hgroup.1.trans h₂.1, h₂.2.trans hgroup.2⟩

/-- A method with the certificate bit accepts only a connection that presented a
certificate. -/
theorem check_group_tls_auth_ok {env : SecEnv} (h : (check_group env e).2)
    (hcert : e.withCert) : e.tls_auth_ok := by
  have hmod := (group_from_module_progress env e).1.sameSession
  unfold check_group at h
  simp only at h
  split at h
  · simp at h
  · split at h
    · simp at h
    · next e₁ hgroup =>
      have hsame := hmod.trans (group_from_cert_progress hgroup).1.sameSession
      have hcert₁ : e₁.withCert := by
        simpa only [ClientEntry.withCert, hsame.auth_type] using hcert
      split at h
      · simp at h
      · next e₂ hstatus =>
        rw [← hsame.tls_auth_ok]
        by_contra hno
        simp [check_cert_user_group_status, hcert₁, hno] at hstatus

/-! ## Authentication steps -/

namespace SecMod

/-- The entry after the module has been asked for its prompt. -/
def prompted (env : SecEnv) (e : ClientEntry) : ClientEntry :=
  if e.amod.isSome then
    { e with msg_str := env.auth_msg_str, passwd_counter := env.auth_msg_counter }
  else e

theorem prompted_progress (env : SecEnv) (e : ClientEntry) :
    Progress e (prompted env e) ∧ (prompted env e).status = e.status := by
  unfold prompted
  split <;> exact ⟨⟨_, _, _, _, _, rfl⟩, rfl⟩

/-- What `handle_sec_auth_res` does with an entry `e` on the result of the
module: the entry that is left, and the code returned. -/
inductive AuthOutcome (env : SecEnv) (e : ClientEntry) (result : Int) : ClientEntry → Int → Prop
  /-- the step fails, and with it the entry -/
  | failed {e' : ClientEntry} {ret : Int} : Progress e e' → e'.status = .failed → ret < 0 →
      AuthOutcome env e result e' ret
  /-- the module waits for another answer of the user -/
  | waiting {e' : ClientEntry} : result = ERR_AUTH_CONTINUE → Progress e e' →
      e'.status = e.status → AuthOutcome env e result e' 0
  /-- the module is satisfied and the group is accepted -/
  | completed : result = 0 → e.status ≠ .failed → (check_group env (prompted env e)).2 →
      AuthOutcome env e result
        { complete_entry env (check_group env (prompted env e)).1 with msg_str := none } 0

theorem complete_entry_progress (env : SecEnv) (e : ClientEntry) :
    Progress e (complete_entry env e) := by
  simp only [complete_entry]
  split <;> exact ⟨_, _, _, _, _, rfl⟩

theorem completed_progress (env : SecEnv) (e : ClientEntry) :
    Progress e { complete_entry env (check_group env e).1 with msg_str := none } :=
  ((check_group_progress env e).1.trans (complete_entry_progress env _)).trans ⟨_, _, _, _, _, rfl⟩

variable {env : SecEnv} {e e' : ClientEntry} {result ret : Int}

theorem AuthOutcome.progress (h : AuthOutcome env e result e' ret) : Progress e e' := by
  cases h with
  | failed hprogress => exact hprogress
  | waiting _ hprogress => exact hprogress
  | completed => exact (prompted_progress env e).1.trans (completed_progress env _)

/-- A result that is neither zero nor a request for more fails the entry. -/
theorem AuthOutcome.refused (h : AuthOutcome env e result e' ret) (hneg : result < 0)
    (hmore : result ≠ ERR_AUTH_CONTINUE) :
    e'.status = .failed := by
  cases h with
  | failed _ hst => exact hst
  | waiting hres => exact absurd hres hmore
  | completed hres => omega

end SecMod

/-! ## Updates of the database -/

/-- The effect is a call of the accounting module for this session. -/
def SecEffect.isCall (sid : Sid) : SecEffect → Bool
  | .open_session s _ | .session_stats s _ | .close_session s _ _ => s = sid
  | _ => false

section Handlers

variable [Platform]

/-- `db'` is `db` with the entry of `e'` replaced by `e'`. -/
def ClientDb.Updates (db : ClientDb) (e' : ClientEntry) (db' : ClientDb) : Prop :=
  ∀ sid, db'.find sid = if sid = e'.sid then some e' else db.find sid

theorem ClientDb.updates_store {db : ClientDb} {e : ClientEntry} (e' : ClientEntry)
    (h : db.find e'.sid = some e) : db.Updates e' (db.store e') := by
  intro sid
  rw [find_store]
  split
  · next heq => rw [heq, h, map_some]
  · rfl

theorem ClientDb.Updates.store {db db' : ClientDb} {e e' : ClientEntry} (h : db.Updates e db')
    (hsid : e'.sid = e.sid) : db.Updates e' (db'.store e') := by
  intro sid
  rw [find_store, h sid, hsid]
  split
  · rw [map_some]
  · rfl

namespace SecMod

/-- The calls for a session, newest first. -/
def calls (sec : SecMod) (sid : Sid) : List SecEffect := sec.log.filter (·.isCall sid)

@[simp] theorem store_client_db (sec : SecMod) (e : ClientEntry) :
    (sec.store e).client_db = sec.client_db.store e := rfl

@[simp] theorem clean_entries_client_db (sec : SecMod) (es : List ClientEntry) :
    (sec.clean_entries es).client_db = sec.client_db := rfl

/-- The configuration and the place of an instance. -/
structure SameStatic (sec sec' : SecMod) : Prop where
  vconfig : sec'.vconfig = sec.vconfig
  index : sec'.sec_mod_instance_index = sec.sec_mod_instance_index

theorem SameStatic.trans {a b c : SecMod} (h₁ : SameStatic a b) (h₂ : SameStatic b c) :
    SameStatic a c :=
  ⟨h₂.vconfig.trans h₁.vconfig, h₂.index.trans h₁.index⟩

/-- There are messages about authentications, and other statistics. -/
structure Noted (sec sec' : SecMod) : Prop extends SameStatic sec sec' where
  client_db : sec'.client_db = sec.client_db
  calls : ∀ sid, sec'.calls sid = sec.calls sid

namespace Noted

theorem refl (sec : SecMod) : sec.Noted sec := ⟨⟨rfl, rfl⟩, rfl, fun _ => rfl⟩

theorem trans {a b c : SecMod} (h₁ : a.Noted b) (h₂ : b.Noted c) : a.Noted c :=
  ⟨h₁.toSameStatic.trans h₂.toSameStatic, h₂.client_db.trans h₁.client_db,
    fun sid => (h₂.calls sid).trans (h₁.calls sid)⟩

theorem effect (sec : SecMod) {x : SecEffect} (hx : ∀ sid, x.isCall sid = false) :
    sec.Noted { sec with log := x :: sec.log } :=
  ⟨⟨rfl, rfl⟩, rfl, fun sid => filter_cons_of_neg (by simp [hx sid])⟩

end Noted

/-- The entry `e` has been written back, and nothing else has changed but what is noted. -/
structure Stored (sec : SecMod) (e : ClientEntry) (sec' : SecMod) : Prop
    extends SameStatic sec sec' where
  client_db : sec'.client_db = sec.client_db.store e
  calls : ∀ sid, sec'.calls sid = sec.calls sid

variable {sec sec₁ : SecMod} {bytes : List UInt8} {pid : Nat}

theorem Noted.store (h : sec.Noted sec₁) (e : ClientEntry) :
    sec.Stored e (sec₁.store e) :=
  ⟨⟨h.vconfig, h.index⟩, by rw [store_client_db, h.client_db], h.calls⟩

/-- The entry `e` is in the place of the one with its identifier, and the calls `new` have
been made for its session. -/
structure Replaced (sec : SecMod) (e : ClientEntry) (new : List SecEffect) (sec' : SecMod) :
    Prop extends SameStatic sec sec' where
  updates : sec.client_db.Updates e sec'.client_db
  calls : ∀ sid, sec'.calls sid = (if e.sid = sid then new else []) ++ sec.calls sid

variable {env : SecEnv} {sec sec' : SecMod} {e e' : ClientEntry} {c : Cmd} {new : List SecEffect}

theorem Stored.replaced (h : sec.Stored e' sec') (hfind : sec.client_db.find e'.sid = some e) :
    sec.Replaced e' [] sec' where
  toSameStatic := h.toSameStatic
  updates := by
    rw [h.client_db]
    exact ClientDb.updates_store e' hfind
  calls sid := by rw [h.calls, ite_self, nil_append]

theorem Replaced.stored (h : sec.Replaced e new sec₁) (hs : sec₁.Stored e' sec')
    (hsid : e'.sid = e.sid) : sec.Replaced e' new sec' where
  toSameStatic := h.toSameStatic.trans hs.toSameStatic
  updates := by
    rw [hs.client_db]
    exact h.updates.store hsid
  calls sid := by rw [hs.calls, h.calls, hsid]

/-- The calls are those that are new in the log. -/
theorem calls_of_log {b : Bool} {x : SecEffect}
    (hlog : sec'.log = (if b then [x] else []) ++ sec.log)
    (hx : ∀ sid, x.isCall sid = decide (e.sid = sid)) (sid : Sid) : sec'.calls sid =
      (if e.sid = sid then if b then [x] else [] else []) ++ sec.calls sid := by
  rw [calls, hlog, filter_append]
  cases b <;> by_cases heq : e.sid = sid <;> simp [hx, heq, calls]

theorem add_score_noted (sec : SecMod) (e : ClientEntry) (ip : CStr) (points : Nat) :
    sec.Noted (sec.sec_mod_add_score_to_ip e ip points) := by
  unfold sec_mod_add_score_to_ip
  split
  · exact .refl sec
  · exact .effect sec fun _ => rfl

theorem send_sec_auth_reply_spec (env : SecEnv) (sec : SecMod) (e : ClientEntry) (r : AuthRep) :
    sec.Noted (send_sec_auth_reply env sec e r).1 ∧ (send_sec_auth_reply env sec e r).2 =
      if env.send_ok then ({ e with msg_str := none }, 0) else (e, -1) := by
  have hstats : sec.Noted (if r = .ok then sec.update_auth_time_stats (env.time 2 - e.created)
      else { sec with auth_failures := sec.auth_failures + 1 }) := by
    simp only [update_auth_time_stats]
    split_ifs <;> exact ⟨⟨rfl, rfl⟩, rfl, fun _ => rfl⟩
  simp only [send_sec_auth_reply]
  split
  · exact ⟨hstats.trans (.effect _ fun _ => rfl), rfl⟩
  · exact ⟨hstats, rfl⟩

theorem send_sec_auth_reply_msg_spec (env : SecEnv) (sec : SecMod) (e : ClientEntry) :
    sec.Noted (send_sec_auth_reply_msg env sec e).1 ∧ (send_sec_auth_reply_msg env sec e).2 =
      ({ e with msg_str := none }, if env.send_ok then 0 else -1) := by
  unfold send_sec_auth_reply_msg
  split
  · exact ⟨.effect sec fun _ => rfl, rfl⟩
  · exact ⟨.refl sec, rfl⟩

omit [Platform] in
theorem neg_one_lt : (-1 : Int) < 0 := by decide

theorem auth_res_continue_spec (env : SecEnv) (sec : SecMod) (e : ClientEntry) (retries : Bool) :
    ∃ e', sec.Stored e' (auth_res_continue env sec e retries).1 ∧ Progress e e' ∧
      (e'.status = .failed ∧ (auth_res_continue env sec e retries).2 < 0 ∨
        e'.status = e.status ∧ (auth_res_continue env sec e retries).2 = 0) := by
  simp only [auth_res_continue]
  generalize hsec₁ : (if (decide (e.status ≠ .init) && e.amod.any (·.allows_retries) &&
    retries) = true then _ else _) = sec₁
  have hscore : sec.Noted sec₁ := by
    rw [← hsec₁]
    split
    · exact add_score_noted _ _ _ _
    · exact .refl sec
  obtain ⟨hsent, hreply⟩ := send_sec_auth_reply_msg_spec env sec₁ e
  rw [hreply]
  cases env.send_ok with
  | false => exact ⟨_, (hscore.trans hsent).store _, ⟨_, _, _, _, _, rfl⟩, .inl ⟨rfl, neg_one_lt⟩⟩
  | true => exact ⟨_, (hscore.trans hsent).store _, ⟨_, _, _, _, _, rfl⟩, .inr ⟨rfl, rfl⟩⟩

theorem auth_res_failure_spec (env : SecEnv) (sec : SecMod) (e : ClientEntry) (result : Int) :
    ∃ e', sec.Stored e' (auth_res_failure env sec e result).1 ∧ Progress e e' ∧
      e'.status = .failed ∧ (auth_res_failure env sec e result).2 < 0 := by
  have hret : ∀ r : Int, (if r < 0 then r else ERR_BAD_COMMAND) < 0 := by
    intro r
    split
    · assumption
    · decide
  have hscore := add_score_noted sec { e with status := .failed } e.acct_info.remote_ip
    e.vhost.config.ban_points_wrong_password
  obtain ⟨hsent, hreply⟩ := send_sec_auth_reply_spec env
    (sec.sec_mod_add_score_to_ip { e with status := .failed } e.acct_info.remote_ip
      e.vhost.config.ban_points_wrong_password) { e with status := .failed } .failed
  simp only [auth_res_failure, hreply]
  cases env.send_ok with
  | false => exact ⟨_, (hscore.trans hsent).store _, ⟨_, _, _, _, _, rfl⟩, rfl, neg_one_lt⟩
  | true => exact ⟨_, (hscore.trans hsent).store _, ⟨_, _, _, _, _, rfl⟩, rfl, hret result⟩

theorem auth_res_success_spec (env : SecEnv) (sec : SecMod) (e : ClientEntry) :
    ∃ e', sec.Stored e' (auth_res_success env sec e).1 ∧ Progress e e' ∧
      (e'.status = .failed ∧ (auth_res_success env sec e).2 < 0 ∨
        (check_group env e).2 ∧ (auth_res_success env sec e).2 = 0 ∧
          e' = { complete_entry env (check_group env e).1 with msg_str := none }) := by
  have hgroup := (check_group_progress env e).1
  have hcompleted := hgroup.trans (complete_entry_progress env _)
  obtain ⟨hsent, hreply⟩ := send_sec_auth_reply_spec env sec
    (complete_entry env (check_group env e).1) .ok
  simp only [auth_res_success, hreply]
  cases hok : (check_group env e).2 with
  | false =>
    exact ⟨_, (Noted.refl sec).store _, hgroup.trans ⟨_, _, _, _, _, rfl⟩, .inl ⟨rfl, neg_one_lt⟩⟩
  | true =>
    cases env.send_ok with
    | false =>
      exact ⟨_, hsent.store _, hcompleted.trans ⟨_, _, _, _, _, rfl⟩, .inl ⟨rfl, neg_one_lt⟩⟩
    | true => exact ⟨_, hsent.store _, completed_progress env e, .inr ⟨rfl, rfl, rfl⟩⟩

theorem handle_sec_auth_res_spec (env : SecEnv) (sec : SecMod) (e : ClientEntry) (result : Int) :
    ∃ e', sec.Stored e' (handle_sec_auth_res env sec e result).1 ∧
      AuthOutcome env e result e' (handle_sec_auth_res env sec e result).2 := by
  unfold handle_sec_auth_res
  dsimp only
  split
  · next hmsg =>
    have hneg : env.auth_msg < 0 := of_decide_eq_true (Bool.and_eq_true_iff.1 hmsg).2
    exact ⟨_, (Noted.refl sec).store _, .failed ⟨_, _, _, _, _, rfl⟩ rfl hneg⟩
  · -- the module, if it is asked, has delivered its prompt
    generalize he₁ : (if ((result == ERR_AUTH_CONTINUE || result == 0) && e.amod.isSome) = true then
      { e with msg_str := env.auth_msg_str, passwd_counter := env.auth_msg_counter } else e) = e₁
    have hprompt : Progress e e₁ ∧ e₁.status = e.status := by
      rw [← he₁]
      split <;> exact ⟨⟨_, _, _, _, _, rfl⟩, rfl⟩
    split
    · next hcont =>
      obtain ⟨e', hstored, hstep, hend⟩ := auth_res_continue_spec env sec e₁
        (!((result == ERR_AUTH_CONTINUE || result == 0) && e.amod.isSome &&
          decide (e.passwd_counter < env.auth_msg_counter)))
      refine ⟨e', hstored, ?_⟩
      rcases hend with ⟨hfailed, hneg⟩ | ⟨hsame, hzero⟩
      · exact .failed (hprompt.1.trans hstep) hfailed hneg
      · rw [hzero]
        exact .waiting hcont (hprompt.1.trans hstep) (hsame.trans hprompt.2)
    · split
      · next hok =>
        obtain rfl : e₁ = prompted env e := by
          rw [← he₁, hok.1]
          simp [prompted]
        obtain ⟨e', hstored, hstep, hend⟩ := auth_res_success_spec env sec (prompted env e)
        refine ⟨e', hstored, ?_⟩
        rcases hend with ⟨hfailed, hneg⟩ | ⟨hgroup, hzero, rfl⟩
        · exact .failed (hprompt.1.trans hstep) hfailed hneg
        · rw [hzero]
          exact .completed hok.1 (hprompt.2 ▸ hok.2) hgroup
      · obtain ⟨e', hstored, hstep, hfailed, hneg⟩ := auth_res_failure_spec env sec e₁ result
        exact ⟨e', hstored, .failed (hprompt.1.trans hstep) hfailed hneg⟩

/-! ## The entry that a command is about -/

omit [Platform] in
/-- The session identifier that a command carries. -/
def Cmd.target : Cmd → Option (List UInt8)
  | .auth_cont req => some req.sid
  | .cli_stats req _ => some req.sid
  | .session_open req => some req.sid
  | .session_close req => some req.sid
  | .ban_ip_reply msg => some msg.sid
  | _ => none

/-- The command carries the identifier of the entry `e`, and does something with it. -/
def Cmd.Concerns (sec : SecMod) (e : ClientEntry) (c : Cmd) : Prop :=
  c.target = some e.sid.1 ∧ match c with
    | .auth_cont _ => True
    | .ban_ip_reply msg => msg.reply ≠ .ok
    | .session_open _ => e.status = .completed ∧
        sec_mod_instance_index_get e.sid = sec.sec_mod_instance_index
    | _ => e.status = .completed

omit [Platform] in
/-- Whether the command may free the entry `e` without a close of its session. -/
def Cmd.discards (env : SecEnv) (e : ClientEntry) : Cmd → Bool
  | .auth_init _ pid => e.acct_info.id = pid && e.status = .failed && e.in_use = 0
  | .terminate_user_sessions username => username = some e.acct_info.username
  | .terminate_session safe_id => e.acct_info.safe_id = safe_id
  | .cleanup => e.expired (env.time 0)
  | _ => false

omit [Platform] in
/-- Whether the command is a report or a close that the entry `e` takes. -/
def Cmd.counts (e : ClientEntry) : Cmd → Bool
  | .cli_stats req _ => req.sid = e.sid.1 && e.status = .completed
  | .session_close req => req.sid = e.sid.1 && e.status = .completed
  | _ => false

theorem Cmd.not_concerns (h : c.target = none) : ¬ c.Concerns sec e := by
  rintro ⟨htarget, -⟩
  cases h.symm.trans htarget

theorem Cmd.Concerns.sid_eq (h : c.Concerns sec e') (htarget : c.target = some e.sid.1) :
    e'.sid = e.sid :=
  Subtype.ext (some.inj (h.1.symm.trans htarget))

/-- The entry that the command finds is the only one that it may concern. -/
theorem Cmd.Concerns.eq_found (h : c.Concerns sec e') (htarget : c.target = some e.sid.1)
    (hfind : sec.client_db.find e.sid = some e) (hfind' : sec.client_db.find e'.sid = some e') :
    e' = e := by
  rw [h.sid_eq htarget, hfind] at hfind'
  exact (some.inj hfind').symm

theorem not_concerns_of_bytes (htarget : c.target = some bytes)
    (h : (Sid.ofBytes? bytes).bind sec.client_db.find = none)
    (hfind : sec.client_db.find e.sid = some e) : ¬ c.Concerns sec e := by
  rintro ⟨hsid, -⟩
  rw [some.inj (htarget.symm.trans hsid), Sid.ofBytes?_val, bind_some, hfind] at h
  cases h

theorem find_of_bytes {db : ClientDb} (h : (Sid.ofBytes? bytes).bind db.find = some e) :
    db.find e.sid = some e ∧ bytes = e.sid.1 := by
  obtain ⟨sid, hbytes, hfind⟩ := bind_eq_some_iff.1 h
  obtain rfl := ClientDb.find_sid hfind
  exact ⟨hfind, Sid.ofBytes?_eq_some.1 hbytes⟩

/-! ## Opening and closing -/

/-- The entry with the addresses of an open request. -/
def addressed (req : SecmSessionOpenMsg) (e : ClientEntry) : ClientEntry :=
  { e with
    acct_info :=
      { e.acct_info with
        ipv4 := copyField req.ipv4 MAX_IP_STR e.acct_info.ipv4
        ipv6 := copyField req.ipv6 MAX_IP_STR e.acct_info.ipv6 } }

/-- The session is not open for the accounting module, if there is one. -/
def unannounced (e : ClientEntry) : Bool :=
  e.vhost.acct.any (·.open_session) && !e.session_is_open

/-- The entry has not expired, and the accounting does not deny its session. -/
def Admitted (env : SecEnv) (e : ClientEntry) : Prop :=
  e.expired (env.time 0) = false ∧ (unannounced e → 0 ≤ env.acct_open_session)

/-- What an open request writes to a completed entry `e`, the calls that it makes, and the
reply. -/
inductive OpenWrite (env : SecEnv) (req : SecmSessionOpenMsg) (e : ClientEntry) :
    ClientEntry → List SecEffect → Option SessionReply → Prop
  | expired {reply : Option SessionReply} : e.expired (env.time 0) →
      (∀ info, reply ≠ some (.ok info)) →
      OpenWrite env req e { e with status := .failed } [] reply
  | denied {reply : Option SessionReply} : unannounced e → env.acct_open_session < 0 →
      (∀ info, reply ≠ some (.ok info)) →
      OpenWrite env req e { addressed req e with status := .failed }
        [.open_session e.sid false] reply
  /-- the session is open, but the reply is negative or cannot be sent -/
  | deferred {reply : Option SessionReply} : Admitted env e → (∀ info, reply ≠ some (.ok info)) →
      OpenWrite env req e { addressed req e with session_is_open := true }
        (if unannounced e then [.open_session e.sid true] else []) reply
  /-- the session is counted -/
  | opened {seed : BitVec 32} {config : GroupCfg} : Admitted env e →
      sup_config env e = some config →
      OpenWrite env req e
        { addressed req e with
          session_is_open := true
          discon_reason := 0
          exptime := env.time 1 + e.vhost.config.cookie_timeout + AUTH_SLACK_TIME
          in_use := e.in_use + 1 }
        (if unannounced e then [.open_session e.sid true] else [])
        (some (.ok (session_info { addressed req e with session_is_open := true } seed config)))

/-- An open request fails, or writes to a completed entry of this instance. -/
inductive OpenRun (env : SecEnv) (sec : SecMod) (req : SecmSessionOpenMsg) : OpenResult → Prop
  | failed {reply : Option SessionReply} {ret : Int} :
      (∀ e, sec.client_db.find e.sid = some e → ¬ (Cmd.session_open req).Concerns sec e) →
      (∀ info, reply ≠ some (.ok info)) → OpenRun env sec req ⟨sec, reply, ret⟩
  | wrote {e e' : ClientEntry} {new : List SecEffect} {sec' : SecMod} {reply : Option SessionReply}
      {ret : Int} : sec.client_db.find e.sid = some e → req.sid = e.sid.1 → e.status = .completed →
      sec.Replaced e' new sec' → OpenWrite env req e e' new reply →
      OpenRun env sec req ⟨sec', reply, ret⟩

theorem send_failed_eq (env : SecEnv) (sec : SecMod) : ∃ reply ret,
    send_failed_session_open_reply env sec = ⟨sec, reply, ret⟩ ∧
      ∀ info, reply ≠ some (.ok info) := by
  unfold send_failed_session_open_reply
  split
  · exact ⟨some .failed, 0, rfl, by simp⟩
  · exact ⟨none, ERR_BAD_COMMAND, rfl, by simp⟩

theorem open_completed_run (env : SecEnv) (req : SecmSessionOpenMsg)
    (hfind : sec.client_db.find e.sid = some e) : ∃ e' new,
      sec.Replaced e' new (open_completed env sec req e).sec ∧
        OpenWrite env req e e' new (open_completed env sec req e).reply := by
  have hfailed : ∀ {sec₁ : SecMod} {e' : ClientEntry} {new : List SecEffect},
      sec.Replaced e' new sec₁ → (∀ reply : Option SessionReply,
        (∀ info, reply ≠ some (.ok info)) → OpenWrite env req e e' new reply) → ∃ e' new,
      sec.Replaced e' new (send_failed_session_open_reply env sec₁).sec ∧
        OpenWrite env req e e' new (send_failed_session_open_reply env sec₁).reply := by
    intro sec₁ e' new hreplaced hwrite
    obtain ⟨reply, ret, heq, hreply⟩ := send_failed_eq env sec₁
    rw [heq]
    exact ⟨e', new, hreplaced, hwrite reply hreply⟩
  have hadmitted : ∀ {sec₁ : SecMod}, SameStatic sec sec₁ → sec₁.client_db = sec.client_db →
      sec₁.log = (if unannounced e then [.open_session e.sid true] else []) ++ sec.log →
      Admitted env e → ∃ e' new,
      sec.Replaced e' new (open_admitted env sec₁ (addressed req e)).sec ∧
        OpenWrite env req e e' new (open_admitted env sec₁ (addressed req e)).reply := by
    intro sec₁ hstatic hdb hlog hadm
    have hopen : sec.client_db.Updates { addressed req e with session_is_open := true }
        (sec₁.client_db.store { addressed req e with session_is_open := true }) := by
      rw [hdb]
      exact ClientDb.updates_store _ hfind
    have hcalls := calls_of_log (e := e) hlog fun _ => rfl
    have hstored : sec.Replaced { addressed req e with session_is_open := true } _
        (sec₁.store { addressed req e with session_is_open := true }) :=
      ⟨⟨hstatic.vconfig, hstatic.index⟩, hopen, hcalls⟩
    unfold open_admitted
    dsimp only
    split
    · exact ⟨_, _, hstored, .deferred hadm (by simp)⟩
    · split
      · exact hfailed hstored fun _ => .deferred hadm
      · next config hconfig =>
        split
        · exact ⟨_, _, hstored, .deferred hadm (by simp)⟩
        · exact ⟨_, _, ⟨⟨hstatic.vconfig, hstatic.index⟩, hopen.store rfl, hcalls⟩,
            .opened hadm hconfig⟩
  unfold open_completed
  split
  · next hexp =>
    exact hfailed (((Noted.refl sec).store _).replaced hfind) fun _ => .expired hexp
  · next hexp =>
    rw [Bool.not_eq_true] at hexp
    dsimp only
    split
    · next hacct =>
      have hnew : unannounced e := hacct
      split
      · next hneg =>
        refine hfailed ⟨⟨rfl, rfl⟩, ClientDb.updates_store _ hfind,
          calls_of_log (b := true) ?_ fun _ => rfl⟩ fun _ => .denied hnew hneg
        rw [decide_eq_false (by omega)]
        rfl
      · next hpos =>
        refine hadmitted ⟨rfl, rfl⟩ rfl ?_ ⟨hexp, fun _ => Int.not_lt.1 hpos⟩
        rw [if_pos hnew, decide_eq_true (by omega)]
        rfl
    · next hacct =>
      have hold : ¬ unannounced e := hacct
      exact hadmitted ⟨rfl, rfl⟩ rfl (by rw [if_neg hold]; rfl) ⟨hexp, fun h => absurd h hold⟩

theorem session_open_run (env : SecEnv) (sec : SecMod) (req : SecmSessionOpenMsg) :
    OpenRun env sec req (handle_secm_session_open_cmd env sec req) := by
  obtain ⟨reply, ret, heq, hreply⟩ := send_failed_eq env sec
  unfold handle_secm_session_open_cmd
  rw [heq]
  split
  · next hbytes =>
    exact .failed (fun e => not_concerns_of_bytes rfl (by rw [hbytes]; rfl)) hreply
  · next sid hbytes =>
    have hreq := Sid.ofBytes?_eq_some.1 hbytes
    split
    · next hidx =>
      refine .failed (fun e _ hc => hidx ?_) hreply
      rw [Subtype.ext (hreq.symm.trans (some.inj hc.1))]
      exact hc.2.2
    · split
      · next hfind =>
        refine .failed (fun e => not_concerns_of_bytes rfl ?_) hreply
        rw [hbytes, bind_some, hfind]
      · next e hfind =>
        obtain rfl := ClientDb.find_sid hfind
        split
        · next hst =>
          refine .failed (fun e' hfind' hc => hst ?_) hreply
          exact hc.eq_found (congrArg some hreq) hfind hfind' ▸ hc.2.1
        · next hst =>
          obtain ⟨e', new, hreplaced, hwrite⟩ := open_completed_run env req hfind
          exact .wrote hfind hreq (not_not.1 hst) hreplaced hwrite

/-- The entry of a session that has just been opened, and what is said about it. -/
structure OpenedFrom (env : SecEnv) (sec : SecMod) (sid : Sid) (info : SessionInfo)
    (sec' : SecMod) (e : ClientEntry) : Prop where
  find : sec.client_db.find sid = some e
  username : info.username = e.acct_info.username
  ip : info.ip = e.acct_info.remote_ip
  vhost : info.vhost = e.vhost.name
  config : sup_config env e = some info.config
  /-- the counter of this entry has grown by one, and the others are as before -/
  counts : ∀ sid' e', sec'.client_db.find sid' = some e' → ∃ e, sec.client_db.find sid' = some e ∧
    e'.in_use = e.in_use + if sid' = sid then 1 else 0
  status : ∀ e', sec'.client_db.find sid = some e' → e'.status = .completed

theorem session_open_opened (env : SecEnv) (sec : SecMod) {req : SecmSessionOpenMsg}
    {info : SessionInfo} {sid : Sid} (hsid : req.sid = sid.1)
    (hreply : (sec.handle_secm_session_open_cmd env req).reply = some (.ok info)) :
    ∃ e, OpenedFrom env sec sid info (sec.handle_secm_session_open_cmd env req).sec e := by
  have hrun := session_open_run env sec req
  generalize sec.handle_secm_session_open_cmd env req = r at hrun hreply ⊢
  cases hrun with
  | failed _ hno => exact absurd hreply (hno info)
  | @wrote e _ _ _ _ _ hfind hreq hst hreplaced hwrite =>
    obtain rfl : sid = e.sid := Subtype.ext (hsid.symm.trans hreq)
    obtain rfl := hreply
    refine ⟨e, ?_⟩
    cases hwrite with
    | expired _ hno | denied _ _ hno | deferred _ hno => exact absurd rfl (hno info)
    | opened _ hconfig =>
      refine ⟨hfind, rfl, rfl, rfl, hconfig, ?_, ?_⟩
      · intro sid' e' hfind'
        rw [hreplaced.updates] at hfind'
        split at hfind'
        · next heq =>
          have heq : sid' = e.sid := heq
          cases hfind'
          exact ⟨e, heq ▸ hfind, by rw [if_pos heq]⟩
        · next hne =>
          have hne : sid' ≠ e.sid := hne
          exact ⟨e', hfind', by rw [if_neg hne]; rfl⟩
      · intro e' hfind'
        have hsame : e.sid = (addressed req e).sid := rfl
        rw [hreplaced.updates, if_pos hsame] at hfind'
        exact some.inj hfind' ▸ hst

/-- What a close request makes of a completed entry `e`, the calls that it makes, and the
reply. -/
inductive CloseWrite (env : SecEnv) (req : SecmSessionCloseMsg) (e : ClientEntry) :
    Option ClientEntry → List SecEffect → Option CloseReply → Prop
  /-- nothing is saved when the reply cannot be sent -/
  | unanswered : env.send_ok = false → CloseWrite env req e (some (close_entry env req e)) [] none
  /-- the session is over for good -/
  | ended {reply : Option CloseReply} : e.in_use - 1 = 0 → CloseWrite env req e none
      (sec_auth_user_deinit { save_stats (close_entry env req e) with in_use := e.in_use - 1 })
        reply
  /-- the entry lingers until it expires, unless there are other users -/
  | left {exptime : Int} {id : Nat} {reply : Option CloseReply} :
      id = (if e.in_use - 1 = 0 then 0 else e.acct_info.id) →
      (e.in_use - 1 = 0 → (save_stats (close_entry env req e)).invalidated = false) →
      CloseWrite env req e
        (some { save_stats (close_entry env req e) with
          in_use := e.in_use - 1
          exptime
          acct_info := { (close_entry env req e).acct_info with id } }) [] reply

/-! ## New entries -/

/-- The entry that `handle_sec_auth_init` has attached to its method, before the
first result of the module is acted upon. -/
structure Attached (vconfig : VConfig) (req : SecAuthInitMsg) (e : ClientEntry) : Prop where
  method : ∃ m, select_method e.vhost req.auth_type = some m ∧ e.amod = m.amod ∧
    e.auth_type = m.type
  filled : ∃ pid now, e = fill_entry req
    { init_entry (find_vhost vconfig req.vhost) req.remote_ip pid e.sid now with
      amod := e.amod
      auth_type := e.auth_type }

/-- The identifier is one that the random values of this command give in this
instance. -/
def Generated (env : SecEnv) (sec : SecMod) (sid : Sid) : Prop :=
  ∃ i bytes, env.rnd_sid i = some bytes ∧
    sid = sec_mod_instance_index_put bytes sec.sec_mod_instance_index

theorem fresh_sid_spec {rnd : Nat → Option Sid} {fuel k : Nat}
    {r : { sid : Sid // sec.client_db.find sid = none }} (h : sec.fresh_sid rnd fuel k = some r) :
    ∃ i bytes, rnd i = some bytes ∧
      r.1 = sec_mod_instance_index_put bytes sec.sec_mod_instance_index := by
  induction fuel generalizing k with
  | zero => simp [fresh_sid] at h
  | succ fuel ih =>
    unfold fresh_sid at h
    split at h
    · simp at h
    · next bytes hrnd =>
      simp only at h
      split at h
      · cases h
        exact ⟨k, bytes, hrnd, rfl⟩
      · exact ih h

/-- The new entry is in the table, under an identifier of this instance that was
not there, and nothing else has changed. -/
theorem new_client_entry_spec {vhost : VhostCfg} {ip : CStr}
    (h : sec.new_client_entry env vhost ip pid = some (sec', e)) :
    ∃ sid, e = init_entry vhost ip pid sid (env.time 1) ∧ sec.client_db.find sid = none ∧
      sec.Replaced e [] sec' ∧ Generated env sec sid := by
  unfold new_client_entry at h
  split at h
  · simp at h
  · next sid hfree hfresh =>
    simp only [some.injEq, Prod.mk.injEq] at h
    obtain ⟨rfl, rfl⟩ := h
    exact ⟨sid, rfl, hfree, ⟨⟨rfl, rfl⟩, fun sid' => ClientDb.find_add hfree,
      fun sid' => by rw [ite_self]; rfl⟩, fresh_sid_spec hfresh⟩

theorem find_by_pid_some {old : ClientEntry} (h : sec.find_client_entry_by_pid pid = some old) :
    sec.client_db.find old.sid = some old ∧ old.acct_info.id = pid ∧ pid ≠ 0 := by
  unfold find_client_entry_by_pid at h
  split at h
  · cases h
  · next hpid =>
    exact ⟨ClientDb.find_self (mem_of_find?_eq_some h), by simpa using List.find?_some h, hpid⟩

/-- What becomes of an entry that is attached to the pid already. -/
inductive DetachRun (sec : SecMod) (pid : Nat) : SecMod × Bool → Prop
  | absent : DetachRun sec pid (sec, true)
  | freed {old : ClientEntry} : sec.client_db.find old.sid = some old → old.acct_info.id = pid →
      old.status = .failed → old.in_use = 0 → DetachRun sec pid (sec.del_client_entry old, true)
  | kept {sec₁ : SecMod} : sec.Noted sec₁ → DetachRun sec pid (sec₁, false)

theorem detach_old_run (sec : SecMod) (pid : Nat) : DetachRun sec pid (sec.detach_old pid) := by
  unfold detach_old
  split
  · exact .absent
  · next old hold =>
    obtain ⟨hfind, hpid, -⟩ := find_by_pid_some hold
    split
    · next hfailed => exact .freed hfind hpid hfailed.1 hfailed.2
    · exact .kept (add_score_noted _ _ _ _)

theorem detach_old_static (sec : SecMod) (pid : Nat) : SameStatic sec (sec.detach_old pid).1 := by
  have hrun := detach_old_run sec pid
  generalize sec.detach_old pid = r at hrun
  cases hrun with
  | absent | freed => exact ⟨rfl, rfl⟩
  | kept hnoted => exact hnoted.toSameStatic

/-- The entry that the first step of an authentication is made for, and its result. -/
inductive Begins (env : SecEnv) (req : SecAuthInitMsg) (vhost : VhostCfg) (e : ClientEntry) :
    ClientEntry → Int → Prop
  | unknown : Begins env req vhost e e (-1)
  | refused {m : AuthMethod} : env.auth_init < 0 → env.auth_init ≠ ERR_AUTH_CONTINUE →
      Begins env req vhost e { e with amod := m.amod, auth_type := m.type } env.auth_init
  | attached {m : AuthMethod} {result : Int} : select_method vhost req.auth_type = some m →
      (result = 0 → m.amod = none ∨ 0 ≤ env.auth_init) → Begins env req vhost e
        (fill_entry req { e with amod := m.amod, auth_type := m.type }) result

theorem start_auth_run (env : SecEnv) (sec : SecMod) (req : SecAuthInitMsg) (vhost : VhostCfg)
    (e : ClientEntry) : ∃ e₁ result, Begins env req vhost e e₁ result ∧
      start_auth env sec req vhost e = handle_sec_auth_res env sec e₁ result := by
  unfold start_auth
  split
  · exact ⟨_, _, .unknown, rfl⟩
  · next e₁ hset =>
    obtain ⟨m, hm, rfl⟩ := map_eq_some_iff.1 hset
    split
    · next hbad =>
      simp only [Bool.and_eq_true, decide_eq_true_eq, bne_iff_ne] at hbad
      exact ⟨_, _, .refused hbad.1.2 hbad.2, rfl⟩
    · next hgood =>
      refine ⟨_, _, .attached hm fun hres => ?_, rfl⟩
      -- a result of zero means that the module, if any, did not report an error
      simp only [Bool.and_eq_true, decide_eq_true_eq, bne_iff_ne] at hgood
      split at hres
      · exact absurd hres (by decide)
      · next hncont =>
        simp only [Bool.and_eq_true, beq_iff_eq] at hncont
        refine or_iff_not_imp_left.2 fun hsome => ?_
        have hs : m.amod.isSome := isSome_iff_ne_none.2 hsome
        by_contra hneg
        exact hgood ⟨⟨hs, by omega⟩, fun heq => hncont ⟨hs, heq⟩⟩

/-- The identifier of the entry that the start of an authentication creates. -/
def issued (env : SecEnv) (sec : SecMod) (req : SecAuthInitMsg) (pid : Nat) : Option Sid :=
  if init_authentic env sec req && (sec.detach_old pid).2 then
    ((sec.detach_old pid).1.new_client_entry env (find_vhost sec.vconfig req.vhost)
      req.remote_ip pid).map fun r => r.2.sid
  else none

/-- The entry that the start of an authentication has created. -/
structure Created (env : SecEnv) (sec : SecMod) (req : SecAuthInitMsg) (pid : Nat)
    (e : ClientEntry) : Prop where
  issued : issued env sec req pid = some e.sid
  generated : Generated env sec e.sid
  vhost : e.vhost = find_vhost sec.vconfig req.vhost
  id : e.acct_info.id = pid
  safe_id : e.acct_info.safe_id = Platform.calc_safe_id e.sid
  in_use : e.in_use = 0
  session_is_open : e.session_is_open = false
  stats : e.stats = {}
  saved_stats : e.saved_stats = {}

/-- The first step of the authentication of a new entry: it fails, or it is that of the
method that the entry is attached to. -/
inductive Starts (env : SecEnv) (vconfig : VConfig) (req : SecAuthInitMsg) (e' : ClientEntry) : Prop
  | failed : e'.status = .failed → Starts env vconfig req e'
  | attached {e : ClientEntry} {result ret : Int} : Attached vconfig req e → e.status = .init →
      (result = 0 → e.amod = none ∨ 0 ≤ env.auth_init) → AuthOutcome env e result e' ret →
      Starts env vconfig req e'

/-- What the start of an authentication does: nothing, or it deals with the entry attached to
the pid, and then creates an entry or does not. -/
inductive InitRun (env : SecEnv) (sec : SecMod) (req : SecAuthInitMsg) (pid : Nat) : SecMod → Prop
  | refused : issued env sec req pid = none → InitRun env sec req pid sec
  | detached : issued env sec req pid = none → InitRun env sec req pid (sec.detach_old pid).1
  | started {e : ClientEntry} {sec' : SecMod} : Created env sec req pid e →
      Starts env sec.vconfig req e → (sec.detach_old pid).2 →
      (sec.detach_old pid).1.client_db.find e.sid = none →
      (sec.detach_old pid).1.Replaced e [] sec' → InitRun env sec req pid sec'

theorem auth_init_run (env : SecEnv) (sec : SecMod) (req : SecAuthInitMsg) (pid : Nat) :
    InitRun env sec req pid (handle_sec_auth_init env sec req pid).1 := by
  unfold handle_sec_auth_init
  dsimp only
  cases hauth : init_authentic env sec req with
  | false => exact .refused (by simp [issued, hauth])
  | true =>
    cases hgone : (sec.detach_old pid).2 with
    | false => exact .detached (by simp [issued, hauth, hgone])
    | true =>
      simp only [Bool.not_true, Bool.false_eq_true, if_false]
      split
      · next hnew => exact .detached (by simp [issued, hauth, hgone, hnew])
      · next sec₁ e hnew =>
        have hissued : issued env sec req pid = some e.sid := by simp [issued, hauth, hgone, hnew]
        obtain ⟨sid, rfl, hfree, hreplaced, hgen⟩ := new_client_entry_spec hnew
        obtain ⟨e₁, result, hbegins, heq⟩ := start_auth_run env sec₁ req
          (find_vhost sec.vconfig req.vhost) (init_entry _ req.remote_ip pid sid (env.time 1))
        obtain ⟨e', hstored, hout⟩ := handle_sec_auth_res_spec env sec₁ e₁ result
        have hprogress := hout.progress
        rw [heq]
        simp only [Generated, (detach_old_static sec pid).index] at hgen
        have hcreated : Created env sec req pid e' := by
          obtain ⟨_, _, _, _, _, rfl⟩ := hprogress
          cases hbegins <;> exact ⟨hissued, hgen, rfl, rfl, rfl, rfl, rfl, rfl, rfl⟩
        have hsid : e'.sid = sid := some.inj (hcreated.issued.symm.trans hissued)
        refine .started hcreated ?_ hgone (hsid ▸ hfree) (hreplaced.stored hstored hsid)
        cases hbegins with
        | unknown => exact .failed (hout.refused neg_one_lt (by decide))
        | refused hneg hcont => exact .failed (hout.refused hneg hcont)
        | @attached m _ hm hres => exact .attached ⟨⟨m, hm, rfl, rfl⟩, _, _, rfl⟩ rfl hres hout

/-! ## The automaton of one identifier -/

/-- The entry after a report of a worker. -/
def report_entry (req : CliStatsMsg) (pid : Nat) (e : ClientEntry) (remote_ip ipv4 ipv6 : CStr)
    (uptime : Int) : ClientEntry :=
  { e with
    stats := e.stats.raise ⟨req.bytes_in, req.bytes_out⟩
    discon_reason := if req.discon_reason.getD 0 = 0 then e.discon_reason
      else req.discon_reason.getD 0
    acct_info := { e.acct_info with id := pid, remote_ip, ipv4, ipv6, uptime } }

/-- The moves at one session identifier, for an instance with the configuration
and the index of `sec`, and the calls of the accounting module that are made for it. -/
inductive EntryStep (env : SecEnv) (sec : SecMod) :
    Cmd → Option ClientEntry → Option ClientEntry → List SecEffect → Prop
  | idle {c : Cmd} {o : Option ClientEntry} : (∀ e ∈ o, ¬ c.Concerns sec e) →
      EntryStep env sec c o o []
  | freed {c : Cmd} {e : ClientEntry} : c.discards env e →
      EntryStep env sec c (some e) none (sec_auth_user_deinit e)
  /-- a new entry; one that has failed may have had the same identifier -/
  | init {req : SecAuthInitMsg} {pid : Nat} {o : Option ClientEntry} {e' : ClientEntry} :
      Created env sec req pid e' → Starts env sec.vconfig req e' →
      (∀ e ∈ o, (Cmd.auth_init req pid).discards env e) →
      EntryStep env sec (.auth_init req pid) o (some e') (o.elim [] sec_auth_user_deinit)
  | cont_failed {req : SecAuthContMsg} {e e' : ClientEntry} : Progress e e' →
      e'.status = .failed → EntryStep env sec (.auth_cont req) (some e) (some e') []
  | cont_step {req : SecAuthContMsg} {e e' : ClientEntry} {ret : Int} : req.sid = e.sid.1 →
      e.status = .init ∨ e.status = .cont →
      AuthOutcome env { e with status := .cont } env.auth_pass e' ret →
      EntryStep env sec (.auth_cont req) (some e) (some e') []
  | banned {msg : BanIpReplyMsg} {e : ClientEntry} :
      EntryStep env sec (.ban_ip_reply msg) (some e) (some { e with status := .failed }) []
  | reported {req : CliStatsMsg} {pid : Nat} {e : ClientEntry} {remote_ip ipv4 ipv6 : CStr}
      {uptime : Int} : req.sid = e.sid.1 → e.status = .completed →
      EntryStep env sec (.cli_stats req pid) (some e)
        (some (report_entry req pid e remote_ip ipv4 ipv6 uptime))
        (if e.vhost.acct.any (·.session_stats) then
          [.session_stats e.sid
            (stats_add_to (e.stats.raise ⟨req.bytes_in, req.bytes_out⟩) e.saved_stats)]
        else [])
  | opening {req : SecmSessionOpenMsg} {e e' : ClientEntry} {new : List SecEffect}
      {reply : Option SessionReply} : req.sid = e.sid.1 → e.status = .completed →
      OpenWrite env req e e' new reply → (handle_secm_session_open_cmd env sec req).reply = reply →
      EntryStep env sec (.session_open req) (some e) (some e') new
  | closing {req : SecmSessionCloseMsg} {e : ClientEntry} {o' : Option ClientEntry}
      {new : List SecEffect} {reply : Option CloseReply} : req.sid = e.sid.1 →
      e.status = .completed → CloseWrite env req e o' new reply →
      (handle_secm_session_close_cmd env sec req).2.1 = reply →
      EntryStep env sec (.session_close req) (some e) o' new

/-- A command makes a move at the identifier. -/
def EntryMove (env : SecEnv) (sec : SecMod) (c : Cmd) (sid : Sid) (sec' : SecMod) : Prop :=
  ∃ new, EntryStep env sec c (sec.client_db.find sid) (sec'.client_db.find sid) new ∧
    sec'.calls sid = new ++ sec.calls sid

variable {sid : Sid}

theorem EntryMove.of_same (hfind : sec'.client_db.find sid = sec.client_db.find sid)
    (hcalls : sec'.calls sid = sec.calls sid)
    (hc : ∀ e, sec.client_db.find sid = some e → ¬ c.Concerns sec e) :
    EntryMove env sec c sid sec' :=
  ⟨[], by rw [hfind]; exact .idle hc, hcalls⟩

/-! ## Freeing entries -/

omit [Platform] in
theorem isCall_deinit (e : ClientEntry) (sid : Sid) :
    (sec_auth_user_deinit e).filter (·.isCall sid) =
      if e.sid = sid then sec_auth_user_deinit e else [] := by
  unfold sec_auth_user_deinit
  split
  · by_cases hsid : e.sid = sid <;> simp [SecEffect.isCall, hsid]
  · simp

theorem clean_entry_calls (sec : SecMod) (e : ClientEntry) (sid : Sid) :
    (sec.clean_entries [e]).calls sid =
      (if e.sid = sid then sec_auth_user_deinit e else []) ++ sec.calls sid := by
  rw [← isCall_deinit, calls, calls, ← filter_append]
  rfl

/-- Of the entries that are freed together, at most one is that of the session. -/
theorem clean_entries_calls (sec : SecMod) (sid : Sid) {es : List ClientEntry}
    (hnodup : (es.map ClientEntry.sid).Nodup) : (sec.clean_entries es).calls sid =
      ((es.find? fun e => e.sid = sid).elim [] sec_auth_user_deinit) ++ sec.calls sid := by
  induction es generalizing sec with
  | nil => rfl
  | cons e es ih =>
    rw [map_cons, nodup_cons] at hnodup
    have hcons : sec.clean_entries (e :: es) = (sec.clean_entries [e]).clean_entries es := rfl
    rw [hcons, ih _ hnodup.2, clean_entry_calls, List.find?_cons]
    by_cases hsid : e.sid = sid
    · have hnone : es.find? (fun e' => decide (e'.sid = sid)) = none := by
        rw [List.find?_eq_none]
        intro e' he' heq
        refine hnodup.1 (mem_map.2 ⟨e', he', ?_⟩)
        rw [hsid, of_decide_eq_true heq]
      simp [hsid, hnone]
    · simp [hsid]

theorem find_swept (db : ClientDb) (p : ClientEntry → Bool) (sid : Sid) :
    (db.swept p).find? (fun e => e.sid = sid) = (db.find sid).filter p := by
  cases hfind : (db.swept p).find? (fun e => e.sid = sid) with
  | none =>
    rw [List.find?_eq_none] at hfind
    symm
    rw [filter_eq_none_iff]
    intro e he hp
    obtain ⟨hmem, hsid⟩ := ClientDb.find_eq_some.1 he
    exact hfind e (ClientDb.mem_swept.2 ⟨hmem, hp⟩) (decide_eq_true hsid)
  | some e =>
    obtain ⟨hmem, hp⟩ := ClientDb.mem_swept.1 (mem_of_find?_eq_some hfind)
    have hsid : e.sid = sid := by simpa using List.find?_some hfind
    rw [← hsid, ClientDb.find_self hmem, filter_some, if_pos hp]

theorem nodup_swept (db : ClientDb) (p : ClientEntry → Bool) :
    ((db.swept p).map ClientEntry.sid).Nodup := by
  rw [ClientDb.swept, db.wf.swept_sweep]
  exact db.nodup.sublist (filter_sublist.map _)

/-- A pass that takes out the entries that meet `p`. -/
theorem sweep_move {p : ClientEntry → Bool} (hp : ∀ e, p e → c.discards env e)
    (hc : c.target = none) (sid : Sid) : EntryMove env sec c sid
      ({ sec with client_db := sec.client_db.sweep p }.clean_entries (sec.client_db.swept p)) := by
  have hcalls := clean_entries_calls { sec with client_db := sec.client_db.sweep p } sid
    (nodup_swept sec.client_db p)
  rw [find_swept] at hcalls
  refine ⟨_, ?_, hcalls⟩
  rw [clean_entries_client_db, ClientDb.find_sweep]
  cases hfind : sec.client_db.find sid with
  | none => exact .idle fun e he => by cases he
  | some e =>
    rw [filter_some, filter_some]
    cases hpe : p e with
    | true => exact .freed (hp e hpe)
    | false => exact .idle fun e _ => Cmd.not_concerns hc

theorem terminate_session_move (env : SecEnv) (sec : SecMod) (safe_id : CStr) (sid : Sid) :
    EntryMove env sec (.terminate_session safe_id) sid
      (sec.terminate_session_by_sid safe_id).1 := by
  have hc : ∀ e, ¬ (Cmd.terminate_session safe_id).Concerns sec e := fun _ => Cmd.not_concerns rfl
  unfold terminate_session_by_sid
  split
  · exact .of_same rfl rfl fun e _ => hc e
  · simp only
    split
    · exact .of_same rfl rfl fun e _ => hc e
    · next e hremoved =>
      have hfirst := hremoved
      rw [ClientDb.removed_eq] at hfirst
      have hfind := ClientDb.find_self (mem_of_find?_eq_some hfirst)
      have hsafe : e.acct_info.safe_id = safe_id := by simpa using List.find?_some hfirst
      have hcalls := clean_entry_calls { sec with
        client_db := sec.client_db.removeFirst fun e => e.acct_info.safe_id == safe_id } e sid
      by_cases hsid : e.sid = sid
      · subst hsid
        rw [if_pos rfl] at hcalls
        refine ⟨_, ?_, hcalls⟩
        rw [clean_entries_client_db, ClientDb.find_removeFirst, hremoved, hfind,
          filter_some, if_neg (by simp)]
        exact .freed (decide_eq_true hsafe)
      · refine .of_same ?_ ?_ fun e _ => hc e
        · rw [clean_entries_client_db, ClientDb.find_removeFirst, hremoved]
          cases hother : sec.client_db.find sid with
          | none => rfl
          | some e₁ =>
            have hne : e ≠ e₁ := fun h => hsid (h ▸ ClientDb.find_sid hother)
            simp [hne]
        · rw [hcalls, if_neg hsid]
          rfl

theorem find_del_client_entry (sec : SecMod) (e : ClientEntry) (sid : Sid) :
    (sec.del_client_entry e).client_db.find sid =
      if sid = e.sid then none else sec.client_db.find sid := by
  rw [del_client_entry, clean_entries_client_db, ClientDb.find_erase]

theorem del_client_entry_calls (sec : SecMod) (e : ClientEntry) (sid : Sid) :
    (sec.del_client_entry e).calls sid =
      (if e.sid = sid then sec_auth_user_deinit e else []) ++ sec.calls sid :=
  clean_entry_calls { sec with client_db := sec.client_db.erase e.sid } e sid

/-! ## Commands that are addressed to a session -/

/-- What such a command does: nothing, or it changes or deletes the entry of the session. -/
inductive Addressed (env : SecEnv) (sec : SecMod) (c : Cmd) : SecMod → Prop
  | ignored :
      (∀ e, sec.client_db.find e.sid = some e → ¬ c.Concerns sec e) → Addressed env sec c sec
  | wrote {e e' : ClientEntry} {new : List SecEffect} {sec' : SecMod} :
      sec.client_db.find e.sid = some e → c.target = some e.sid.1 → e'.sid = e.sid →
      sec.Replaced e' new sec' → EntryStep env sec c (some e) (some e') new →
      Addressed env sec c sec'
  | deleted {e e' : ClientEntry} : sec.client_db.find e.sid = some e →
      c.target = some e.sid.1 → e'.sid = e.sid →
      EntryStep env sec c (some e) none (sec_auth_user_deinit e') →
      Addressed env sec c (sec.del_client_entry e')

theorem Addressed.static (h : Addressed env sec c sec') : SameStatic sec sec' := by
  cases h with
  | ignored | deleted => exact ⟨rfl, rfl⟩
  | wrote _ _ _ hreplaced => exact hreplaced.toSameStatic

theorem Addressed.move (h : Addressed env sec c sec') (sid : Sid) :
    EntryMove env sec c sid sec' := by
  -- the entries of the other identifiers are left alone
  have hother : ∀ {e e' : ClientEntry} {new : List SecEffect}, c.target = some e.sid.1 →
      e'.sid = e.sid → e.sid ≠ sid → sec'.client_db.find sid = sec.client_db.find sid →
      sec'.calls sid = (if e'.sid = sid then new else []) ++ sec.calls sid →
      EntryMove env sec c sid sec' := by
    intro e e' new htarget hsid hne hfind hcalls
    refine .of_same hfind (by rw [hcalls, hsid, if_neg hne, nil_append]) fun e₁ he₁ hc => ?_
    exact hne ((hc.sid_eq htarget).symm.trans (ClientDb.find_sid he₁))
  cases h with
  | ignored hno => exact .of_same rfl rfl fun e he => hno e (ClientDb.find_sid he ▸ he)
  | @wrote e e' new _ hfind htarget hsid hreplaced hstep =>
    have hupd := hreplaced.updates sid
    have hcalls := hreplaced.calls sid
    by_cases heq : e.sid = sid
    · refine ⟨new, ?_, by rw [hcalls, if_pos (hsid.trans heq)]⟩
      rw [hupd, if_pos (hsid.trans heq).symm, ← heq, hfind]
      exact hstep
    · exact hother htarget hsid heq (by rw [hupd, hsid, if_neg (Ne.symm heq)]) hcalls
  | @deleted e e' hfind htarget hsid hstep =>
    have hcalls := del_client_entry_calls sec e' sid
    have hdel := find_del_client_entry sec e' sid
    by_cases heq : e.sid = sid
    · refine ⟨_, ?_, by rw [hcalls, if_pos (hsid.trans heq)]⟩
      rw [hdel, if_pos (hsid.trans heq).symm, ← heq, hfind]
      exact hstep
    · exact hother htarget hsid heq (by rw [hdel, hsid, if_neg (Ne.symm heq)]) hcalls

theorem auth_cont_addressed (env : SecEnv) (sec : SecMod) (req : SecAuthContMsg) :
    Addressed env sec (.auth_cont req) (handle_sec_auth_cont env sec req).1 := by
  unfold handle_sec_auth_cont
  split
  · next hbind => exact .ignored fun e => not_concerns_of_bytes rfl hbind
  · next e hbind =>
    obtain ⟨hfind, hreq⟩ := find_of_bytes hbind
    have hrefused : Addressed env sec (.auth_cont req) (handle_sec_auth_res env sec e (-1)).1 := by
      obtain ⟨e', hstored, hout⟩ := handle_sec_auth_res_spec env sec e (-1)
      have hsid := hout.progress.sameSession.sid
      exact .wrote hfind (congrArg some hreq) hsid (hstored.replaced (hsid ▸ hfind))
        (.cont_failed hout.progress (hout.refused neg_one_lt (by decide)))
    split
    · exact hrefused
    · next hst =>
      split
      · exact hrefused
      · have hst' : e.status = .init ∨ e.status = .cont := by tauto
        obtain ⟨e', hstored, hout⟩ := handle_sec_auth_res_spec env sec { e with status := .cont }
          env.auth_pass
        have hsid : e'.sid = e.sid := hout.progress.sameSession.sid
        exact .wrote hfind (congrArg some hreq) hsid (hstored.replaced (hsid ▸ hfind))
          (.cont_step hreq hst' hout)

theorem ban_ip_reply_addressed (env : SecEnv) (sec : SecMod) (msg : BanIpReplyMsg) :
    Addressed env sec (.ban_ip_reply msg) (handle_sec_auth_ban_ip_reply sec msg) := by
  unfold handle_sec_auth_ban_ip_reply
  split
  · next hbind => exact .ignored fun e => not_concerns_of_bytes rfl hbind
  · next e hbind =>
    obtain ⟨hfind, hreq⟩ := find_of_bytes hbind
    split
    · exact .wrote hfind (congrArg some hreq) (by rfl) (((Noted.refl sec).store _).replaced hfind)
        .banned
    · next hreply => exact .ignored fun e _ hc => hreply hc.2

theorem cli_stats_addressed (env : SecEnv) (sec : SecMod) (req : CliStatsMsg) (pid : Nat) :
    Addressed env sec (.cli_stats req pid) (handle_sec_auth_stats_cmd env sec req pid).1 := by
  unfold handle_sec_auth_stats_cmd
  split
  · next hbind => exact .ignored fun e => not_concerns_of_bytes rfl hbind
  · next e hbind =>
    obtain ⟨hfind, hreq⟩ := find_of_bytes hbind
    split
    · next hst =>
      refine .ignored fun e' hfind' hc => hst ?_
      exact hc.eq_found (congrArg some hreq) hfind hfind' ▸ hc.2
    · next hst =>
      dsimp only
      split
      · next hno =>
        have hno : ¬ e.vhost.acct.any (·.session_stats) := by simpa using hno
        refine .wrote hfind (congrArg some hreq) (by rfl)
          ⟨⟨rfl, rfl⟩, ClientDb.updates_store _ hfind,
          calls_of_log ?_ fun _ => rfl⟩ (.reported hreq (not_not.1 hst))
        rw [if_neg hno]
        rfl
      · next hstats =>
        have hstats : e.vhost.acct.any (·.session_stats) := by simpa using hstats
        refine .wrote hfind (congrArg some hreq) (by rfl)
          ⟨⟨rfl, rfl⟩, ClientDb.updates_store _ hfind,
          calls_of_log ?_ fun _ => rfl⟩ (.reported hreq (not_not.1 hst))
        rw [if_pos hstats]
        rfl

theorem session_open_addressed (env : SecEnv) (sec : SecMod) (req : SecmSessionOpenMsg) :
    Addressed env sec (.session_open req) (handle_secm_session_open_cmd env sec req).sec := by
  have hrun := session_open_run env sec req
  generalize hr : handle_secm_session_open_cmd env sec req = r at hrun
  cases hrun with
  | failed hno => exact .ignored hno
  | wrote hfind hreq hst hreplaced hwrite =>
    refine .wrote hfind (congrArg some hreq) ?_ hreplaced (.opening hreq hst hwrite (by rw [hr]))
    cases hwrite <;> rfl

theorem session_close_addressed (env : SecEnv) (sec : SecMod) (req : SecmSessionCloseMsg) :
    Addressed env sec (.session_close req) (handle_secm_session_close_cmd env sec req).1 := by
  generalize hr : handle_secm_session_close_cmd env sec req = r
  have hrun := hr
  unfold handle_secm_session_close_cmd at hrun
  split at hrun
  · next hbytes =>
    subst hrun
    exact .ignored fun e => not_concerns_of_bytes rfl (by rw [hbytes]; rfl)
  · next sid hbytes =>
    have hreq := Sid.ofBytes?_eq_some.1 hbytes
    split at hrun
    · next hfind =>
      have hnone : (Sid.ofBytes? req.sid).bind sec.client_db.find = none := by
        rw [hbytes, bind_some, hfind]
      split at hrun <;> subst hrun <;> exact .ignored fun e => not_concerns_of_bytes rfl hnone
    · next e hfind =>
      obtain rfl := ClientDb.find_sid hfind
      split at hrun
      · next hst =>
        have hno : ∀ e', sec.client_db.find e'.sid = some e' →
            ¬ (Cmd.session_close req).Concerns sec e' := by
          intro e' hfind' hc
          exact PsAuth.code_lt_completed.1 hst
            (hc.eq_found (congrArg some hreq) hfind hfind' ▸ hc.2)
        split at hrun <;> subst hrun <;> exact .ignored hno
      · next hst =>
        have hcompl : e.status = .completed := by
          by_contra hne
          exact hst (PsAuth.code_lt_completed.2 hne)
        have hwrote : ∀ {e' : ClientEntry} {reply : Option CloseReply} {ret : Int},
            e'.sid = e.sid → CloseWrite env req e (some e') [] reply →
            handle_secm_session_close_cmd env sec req = (sec.store e', reply, ret) →
            Addressed env sec (.session_close req) (sec.store e') := fun hsid hwrite hr =>
          .wrote hfind (congrArg some hreq) hsid
            (((Noted.refl sec).store _).replaced (hsid ▸ hfind))
            (.closing hreq hcompl hwrite (by rw [hr]))
        dsimp only at hrun
        split at hrun
        · next hsend =>
          subst hrun
          exact hwrote rfl (.unanswered (by simpa using hsend)) hr
        · unfold expire_client_entry at hrun
          dsimp only at hrun
          split at hrun
          · next hzero =>
            have hlast : e.in_use - 1 = 0 := hzero
            split at hrun
            · subst hrun
              exact .deleted hfind (congrArg some hreq) rfl
                (.closing hreq hcompl (.ended hlast) (by rw [hr]))
            · next hvalid =>
              subst hrun
              exact hwrote rfl (.left (if_pos hlast).symm fun _ => Bool.eq_false_iff.2 hvalid) hr
          · next hmore =>
            have hmore : ¬ e.in_use - 1 = 0 := hmore
            subst hrun
            exact hwrote rfl (.left (if_neg hmore).symm fun h => absurd h hmore) hr

/-! ## Every command -/

/-- An entry attached to this pid is left alone, or freed if it has failed. -/
theorem detach_old_account (env : SecEnv) (sec : SecMod) (req : SecAuthInitMsg) (pid : Nat)
    (sid : Sid) :
    ((sec.detach_old pid).1.client_db.find sid = sec.client_db.find sid ∧
      (sec.detach_old pid).1.calls sid = sec.calls sid) ∨
    ∃ old, sec.client_db.find sid = some old ∧
      (Cmd.auth_init req pid).discards env old ∧
      (sec.detach_old pid).1.client_db.find sid = none ∧
      (sec.detach_old pid).1.calls sid = sec_auth_user_deinit old ++ sec.calls sid := by
  have hrun := detach_old_run sec pid
  generalize sec.detach_old pid = r at hrun
  cases hrun with
  | absent => exact .inl ⟨rfl, rfl⟩
  | kept hnoted => exact .inl ⟨by rw [hnoted.client_db], hnoted.calls sid⟩
  | @freed old hfind hpid hfailed hfree =>
    dsimp only
    rw [del_client_entry_calls, find_del_client_entry]
    by_cases hsid : old.sid = sid
    · rw [if_pos hsid, if_pos hsid.symm]
      exact .inr ⟨old, hsid ▸ hfind, by simp [Cmd.discards, hpid, hfailed, hfree], rfl, rfl⟩
    · rw [if_neg hsid, if_neg fun h => hsid h.symm]
      exact .inl ⟨rfl, rfl⟩

theorem auth_init_move (env : SecEnv) (sec : SecMod) (req : SecAuthInitMsg) (pid : Nat)
    (sid : Sid) :
    EntryMove env sec (.auth_init req pid) sid (handle_sec_auth_init env sec req pid).1 := by
  have hc : ∀ e, sec.client_db.find sid = some e → ¬ (Cmd.auth_init req pid).Concerns sec e :=
    fun _ _ => Cmd.not_concerns rfl
  have hold := detach_old_account env sec req pid sid
  have hdetach : ∀ sec' : SecMod,
      sec'.client_db.find sid = (sec.detach_old pid).1.client_db.find sid →
      sec'.calls sid = (sec.detach_old pid).1.calls sid →
      EntryMove env sec (.auth_init req pid) sid sec' := by
    intro sec' hfind hcalls
    rcases hold with ⟨hfind₀, hcalls₀⟩ | ⟨old, hsome, hdis, hnone, hcalls₀⟩
    · exact .of_same (hfind.trans hfind₀) (hcalls.trans hcalls₀) hc
    · refine ⟨_, ?_, hcalls.trans hcalls₀⟩
      rw [hfind, hnone, hsome]
      exact .freed hdis
  have hrun := auth_init_run env sec req pid
  generalize (handle_sec_auth_init env sec req pid).1 = sec' at hrun ⊢
  cases hrun with
  | refused => exact .of_same rfl rfl hc
  | detached => exact hdetach _ rfl rfl
  | @started e' _ hcreated hstarts _ hfree hreplaced =>
    have hfind' := hreplaced.updates sid
    have hcalls := hreplaced.calls sid
    rw [ite_self, nil_append] at hcalls
    by_cases hsid : sid = e'.sid
    · rw [if_pos hsid] at hfind'
      rw [hsid, hfree, ← hsid] at hold
      rcases hold with ⟨hfind₀, hcalls₀⟩ | ⟨old, hsome, hdis, -, hcalls₀⟩
      · refine ⟨[], ?_, by rw [hcalls, hcalls₀, nil_append]⟩
        rw [← hfind₀, hfind']
        exact .init hcreated hstarts fun e he => by cases he
      · refine ⟨_, ?_, by rw [hcalls, hcalls₀]⟩
        rw [hsome, hfind']
        exact .init hcreated hstarts fun e he => some.inj he ▸ hdis
    · rw [if_neg hsid] at hfind'
      exact hdetach _ hfind' hcalls

/-- A command is addressed to a session, or it has no target. -/
theorem exec_addressed (env : SecEnv) (sec : SecMod) (h : c.target ≠ none) :
    Addressed env sec c (exec env sec c).1 := by
  cases c with
  | auth_cont req => exact auth_cont_addressed env sec req
  | cli_stats req pid => exact cli_stats_addressed env sec req pid
  | session_open req => exact session_open_addressed env sec req
  | session_close req => exact session_close_addressed env sec req
  | ban_ip_reply msg => exact ban_ip_reply_addressed env sec msg
  | _ => exact absurd rfl h

/-- Every command makes one move at every session identifier. -/
theorem exec_entryStep (env : SecEnv) (sec : SecMod) (c : Cmd) (sid : Sid) :
    EntryMove env sec c sid (exec env sec c).1 := by
  cases c with
  | auth_init req pid => exact auth_init_move env sec req pid sid
  | terminate_user_sessions username =>
    have hsame : EntryMove env sec (.terminate_user_sessions username) sid sec :=
      .of_same rfl rfl fun _ _ => Cmd.not_concerns rfl
    cases username with
    | none => exact hsame
    | some u =>
      simp only [exec, elim_some, terminate_user_sessions]
      split
      · exact hsame
      · refine sweep_move (fun e he => ?_) rfl sid
        exact decide_eq_true (congrArg some (beq_iff_eq.1 he).symm)
  | terminate_session safe_id => exact terminate_session_move env sec safe_id sid
  | cleanup => exact sweep_move (fun _ he => he) rfl sid
  | _ => exact (exec_addressed env sec (by simp [Cmd.target])).move sid

theorem exec_static (env : SecEnv) (sec : SecMod) (c : Cmd) :
    SameStatic sec (exec env sec c).1 := by
  cases c with
  | auth_init req pid =>
    have hrun := auth_init_run env sec req pid
    show SameStatic sec (handle_sec_auth_init env sec req pid).1
    generalize (handle_sec_auth_init env sec req pid).1 = sec' at hrun
    cases hrun with
    | refused => exact ⟨rfl, rfl⟩
    | detached => exact detach_old_static sec pid
    | started _ _ _ _ hreplaced => exact (detach_old_static sec pid).trans hreplaced.toSameStatic
  | terminate_user_sessions username =>
    cases username with
    | none => exact ⟨rfl, rfl⟩
    | some u =>
      simp only [exec, elim_some, terminate_user_sessions]
      split <;> exact ⟨rfl, rfl⟩
  | terminate_session safe_id =>
    simp only [exec, terminate_session_by_sid]
    split
    · exact ⟨rfl, rfl⟩
    · split <;> exact ⟨rfl, rfl⟩
  | cleanup => exact ⟨rfl, rfl⟩
  | _ => exact (exec_addressed env sec (by simp [Cmd.target])).static

/-- An entry that is there after a command is new, or the one that was there with its session;
once the authentication is over, the status can only become that of a failure. -/
theorem exec_entry (h : (exec env sec c).1.client_db.find sid = some e') :
    (∃ req pid, c = .auth_init req pid ∧ Generated env sec sid ∧ Created env sec req pid e' ∧
      Starts env sec.vconfig req e') ∨
    ∃ e, sec.client_db.find sid = some e ∧ SameSession { e with in_use := e'.in_use } e' ∧
      (e'.status = .failed ∨ e'.status = e.status ∨ e.status = .init ∨ e.status = .cont) := by
  obtain ⟨new, hstep, -⟩ := exec_entryStep env sec c sid
  have hsid := ClientDb.find_sid h
  rw [h] at hstep
  generalize sec.client_db.find sid = o at hstep
  cases hstep with
  | idle => exact .inr ⟨e', rfl, rfl, .inr (.inl rfl)⟩
  | init hcreated hstarts =>
    exact .inl ⟨_, _, rfl, hsid ▸ hcreated.generated, hcreated, hstarts⟩
  | cont_failed hprogress hst =>
    obtain ⟨_, _, _, _, _, rfl⟩ := hprogress
    exact .inr ⟨_, rfl, rfl, .inl hst⟩
  | cont_step _ hst hout =>
    obtain ⟨_, _, _, _, _, rfl⟩ := hout.progress
    exact .inr ⟨_, rfl, rfl, .inr (.inr hst)⟩
  | banned => exact .inr ⟨_, rfl, rfl, .inl rfl⟩
  | reported => exact .inr ⟨_, rfl, rfl, .inr (.inl rfl)⟩
  | opening _ _ hwrite =>
    cases hwrite with
    | expired | denied => exact .inr ⟨_, rfl, rfl, .inl rfl⟩
    | deferred | opened => exact .inr ⟨_, rfl, rfl, .inr (.inl rfl)⟩
  | closing _ _ hwrite => cases hwrite <;> exact .inr ⟨_, rfl, rfl, .inr (.inl rfl)⟩

/-- A completed entry that stays completed has its session and its name. -/
theorem completed_kept (hpre : sec.client_db.find sid = some e) (hst : e.status = .completed)
    (hpost : (exec env sec c).1.client_db.find sid = some e') (hst' : e'.status = .completed) :
    SameSession { e with in_use := e'.in_use } e' ∧
      e'.acct_info.username = e.acct_info.username := by
  obtain ⟨new, hstep, -⟩ := exec_entryStep env sec c sid
  rw [hpre, hpost] at hstep
  cases hstep with
  | idle => exact ⟨rfl, rfl⟩
  | init _ _ hold => simp [Cmd.discards, hst] at hold
  | cont_failed _ hfailed => simp [hfailed] at hst'
  | cont_step _ hopen => simp [hst] at hopen
  | banned => cases hst'
  | reported => exact ⟨rfl, rfl⟩
  | opening _ _ hwrite => cases hwrite <;> exact ⟨rfl, rfl⟩
  | closing _ _ hwrite => cases hwrite <;> exact ⟨rfl, rfl⟩

/-- The entry that a command completes, at the last step of its authentication. -/
inductive Concluding (env : SecEnv) (sec : SecMod) (sid : Sid) : Cmd → ClientEntry → Prop
  | init {req : SecAuthInitMsg} {pid : Nat} {e : ClientEntry} : Attached sec.vconfig req e →
      e.sid = sid → e.amod = none ∨ 0 ≤ env.auth_init →
      Concluding env sec sid (.auth_init req pid) e
  | cont {req : SecAuthContMsg} {e : ClientEntry} : sec.client_db.find sid = some e →
      req.sid = sid.1 → e.status = .init ∨ e.status = .cont → env.auth_pass = 0 →
      Concluding env sec sid (.auth_cont req) { e with status := .cont }

/-- The step that completes an entry concludes its authentication. -/
theorem exec_concluded (hpre : ∀ e, sec.client_db.find sid = some e → e.status ≠ .completed)
    (hpost : (exec env sec c).1.client_db.find sid = some e') (hdone : e'.status = .completed) :
    ∃ e, Concluding env sec sid c e ∧ (check_group env (prompted env e)).2 ∧
      e' = { complete_entry env (check_group env (prompted env e)).1 with msg_str := none } := by
  have hsid := ClientDb.find_sid hpost
  obtain ⟨new, hstep, -⟩ := exec_entryStep env sec c sid
  rw [hpost] at hstep
  generalize ho : sec.client_db.find sid = o at hstep hpre
  cases hstep with
  | idle => exact absurd hdone (hpre e' rfl)
  | init _ hstarts =>
    cases hstarts with
    | failed hfailed => simp [hfailed] at hdone
    | attached hatt hinit hmod hout =>
      have hsid' := hout.progress.sameSession.sid.symm.trans hsid
      cases hout with
      | failed _ hfailed => simp [hfailed] at hdone
      | waiting _ _ hst => simp [hst, hinit] at hdone
      | completed hres _ hcheck => exact ⟨_, .init hatt hsid' (hmod hres), hcheck, rfl⟩
  | cont_failed _ hfailed => simp [hfailed] at hdone
  | cont_step hreq hst₀ hout =>
    have hsid' := ClientDb.find_sid ho
    cases hout with
    | failed _ hfailed => simp [hfailed] at hdone
    | waiting _ _ hst => simp [hst] at hdone
    | completed hres _ hcheck => exact ⟨_, .cont ho (hsid' ▸ hreq) hst₀ hres, hcheck, rfl⟩
  | banned => cases hdone
  | reported _ hst => exact absurd hst (hpre _ rfl)
  | opening _ hst => exact absurd hst (hpre _ rfl)
  | closing _ hst => exact absurd hst (hpre _ rfl)

/-! ## Instances -/

/-- Every entry carries the index of the instance, and the printable form of its
identifier. -/
structure Indexed (sec : SecMod) : Prop where
  index : ∀ sid e, sec.client_db.find sid = some e →
    sec_mod_instance_index_get sid = sec.sec_mod_instance_index
  safe_id : ∀ sid e, sec.client_db.find sid = some e →
    e.acct_info.safe_id = Platform.calc_safe_id sid

theorem indexed_empty (h : sec.client_db = ClientDb.empty) : Indexed sec :=
  ⟨fun sid e hfind => by simp [h] at hfind, fun sid e hfind => by simp [h] at hfind⟩

theorem Generated.index (h : Generated env sec sid) :
    sec_mod_instance_index_get sid = sec.sec_mod_instance_index := by
  obtain ⟨_, bytes, -, rfl⟩ := h
  exact sec_mod_instance_index_get_put bytes sec.index_le

theorem Indexed.exec (h : Indexed sec) (env : SecEnv) (c : Cmd) : Indexed (exec env sec c).1 := by
  constructor
  · intro sid e' hpost
    rw [(exec_static env sec c).index]
    rcases exec_entry hpost with ⟨req, pid, -, hgen, -⟩ | ⟨e, hpre, -⟩
    · exact hgen.index
    · exact h.index sid e hpre
  · intro sid e' hpost
    rcases exec_entry hpost with ⟨req, pid, -, -, hcreated, -⟩ | ⟨e, hpre, hsame, -⟩
    · exact ClientDb.find_sid hpost ▸ hcreated.safe_id
    · exact hsame.safe_id.trans (h.safe_id sid e hpre)

end SecMod
end Handlers
end Ocserv

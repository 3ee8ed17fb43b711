import Ocserv.Lib.Runs
import Ocserv.SecMod.Steps

/-!
# The authentication gate of sec-mod

Main obtains a session from sec-mod for whoever presents a cookie, so everything
rests on sec-mod answering `OK` only for an entry whose authentication has been
completed.  Here a sec-mod instance runs through any sequence of commands, with
arbitrary answers of its modules.

An entry is completed by exactly one step: the `auth init` or `auth cont` in which
its module reports success and `check_group` accepts it (`Completes`), and the
method it was checked against is the one `set_module` had chosen when the entry was
created (`Attaches`).  From then on the status can only become `failed`, and no
step leaves `failed`.

One refusal does not end the session: when the additional configuration of the user
cannot be read, the open request is refused but the entry stays completed, so a
later request with the same cookie is granted.
-/

namespace Ocserv.SecMod

open Runs

section Gate

variable [Platform]

/-! ## Runs of one instance -/

/-- A command with the environment it runs in. -/
abbrev Label := SecEnv × Cmd

def Step (sec : SecMod) (l : Label) (sec' : SecMod) : Prop := sec' = (exec l.1 sec l.2).1

/-- An instance starts with an empty database. -/
def Initial (sec : SecMod) : Prop := sec.client_db = .empty

abbrev Trans := Transition SecMod Label

/-! ## What a step does to an entry -/

/-- The step creates the entry of `sid` and attaches it to the first enabled method
that contains the type asked for. -/
def Attaches (sid : Sid) (type : AuthType) (amod : Option AuthMod) (t : Trans) : Prop :=
  ∃ req pid m, t.label.2 = .auth_init req pid ∧ Generated t.label.1 t.pre sid ∧
    select_method (find_vhost t.pre.vconfig req.vhost) req.auth_type = some m ∧
    m.type = type ∧ m.amod = amod

/-- The step completes the entry of `sid`: the module of its method, if it has one,
has reported success, and the group check has accepted the entry, with a
certificate presented if the method asks for one. -/
def Completes (sid : Sid) (type : AuthType) (amod : Option AuthMod) (t : Trans) : Prop :=
  ((∃ req pid, t.label.2 = .auth_init req pid ∧ (amod = none ∨ 0 ≤ t.label.1.auth_init)) ∨
      ∃ req, t.label.2 = .auth_cont req ∧ req.sid = sid.1 ∧ t.label.1.auth_pass = 0) ∧
    ∃ e, e.sid = sid ∧ e.auth_type = type ∧ e.amod = amod ∧
      (type.has AUTH_TYPE_CERTIFICATE → e.tls_auth_ok) ∧
      (check_group t.label.1 e).2 ∧
      t.post.client_db.find sid =
        some { complete_entry t.label.1 (check_group t.label.1 e).1 with msg_str := none }

/-- The entry of `sid` is there before and after the step. -/
def Keeps (sid : Sid) (t : Trans) : Prop :=
  (t.pre.client_db.find sid).isSome ∧ (t.post.client_db.find sid).isSome

/-- A failed continuation of the authentication of `sid`. -/
def FailedCont (sid : Sid) (t : Trans) : Prop :=
  ∃ req, t.label.2 = .auth_cont req ∧ req.sid = sid.1 ∧
    (handle_sec_auth_cont t.label.1 t.pre req).2 < 0

/-- Main reports that the address behind `sid` is banned. -/
def NegativeBanReply (sid : Sid) (t : Trans) : Prop :=
  ∃ msg, t.label.2 = .ban_ip_reply msg ∧ msg.sid = sid.1 ∧ msg.reply ≠ .ok

/-- An open request for `sid` that is not answered `OK`. -/
def RefusedOpen (sid : Sid) (t : Trans) : Prop :=
  ∃ req, t.label.2 = .session_open req ∧ req.sid = sid.1 ∧
    ∀ info, (handle_secm_session_open_cmd t.label.1 t.pre req).reply ≠ some (.ok info)

/-- An open request for `sid` that is refused because the entry has expired or the
accounting module denies the session. -/
def DeniedOpen (sid : Sid) (t : Trans) : Prop :=
  RefusedOpen sid t ∧ ∃ e, t.pre.client_db.find sid = some e ∧
    (e.expired (t.label.1.time 0) = true ∨
      e.vhost.acct.any (·.open_session) ∧ e.session_is_open = false ∧
        t.label.1.acct_open_session < 0)

/-- The entry stays, and no failed authentication step, negative ban reply or open
request refused as in `Refused` touches it. -/
def Untouched (Refused : Sid → Trans → Prop) (sid : Sid) (t : Trans) : Prop :=
  Keeps sid t ∧ ¬ FailedCont sid t ∧ ¬ NegativeBanReply sid t ∧ ¬ Refused sid t

/-- The entry was attached to a method, completed with it, and untouched since. -/
def Authenticated (Refused : Sid → Trans → Prop) (sid : Sid) (e : ClientEntry)
    (trace : List Trans) : Prop :=
  Since (fun older t => Completes sid e.auth_type e.amod t ∧
      (Attaches sid e.auth_type e.amod t ∨
        Since (fun _ a => Attaches sid e.auth_type e.amod a) (Keeps sid) older))
    (Untouched Refused sid) trace

/-- Whenever an open request is answered `OK`, its entry is authenticated, in the
sense that no refusal as in `Refused` has touched it since, and not expired. -/
def Gate (Refused : Sid → Trans → Prop) : Prop :=
  ∀ trace sec, Run Initial Step trace sec → ∀ env req info,
    (handle_secm_session_open_cmd env sec req).reply = some (.ok info) →
    ∃ sid e, req.sid = sid.1 ∧ sec.client_db.find sid = some e ∧
      e.expired (env.time 0) = false ∧ Authenticated Refused sid e trace

/-! ## An entry under authentication is attached -/

/-- The authentication of the entry of `sid` is going on or completed, with this
method. -/
def InProgress (sid : Sid) (type : AuthType) (amod : Option AuthMod) (sec : SecMod) : Prop :=
  ∃ e, sec.client_db.find sid = some e ∧ e.status ≠ .inactive ∧ e.status ≠ .failed ∧
    e.auth_type = type ∧ e.amod = amod

variable {sid : Sid} {e e' : ClientEntry} {type : AuthType} {amod : Option AuthMod} {sec : SecMod}
  {l : Label} {trace : List Trans} {env : SecEnv} {c : Cmd}

theorem keeps_of_some {t : Trans} (hpre : t.pre.client_db.find sid = some e)
    (hpost : t.post.client_db.find sid = some e') :
    Keeps sid t := by
  simp [Keeps, hpre, hpost]

/-- A step that leads to an entry under authentication attaches the entry, or finds
it under authentication with the same method. -/
theorem inProgress_step (h : InProgress sid type amod (exec l.1 sec l.2).1) :
    Attaches sid type amod ⟨sec, l, (exec l.1 sec l.2).1⟩ ∨
      Keeps sid ⟨sec, l, (exec l.1 sec l.2).1⟩ ∧ InProgress sid type amod sec := by
  obtain ⟨env, c⟩ := l
  obtain ⟨e', hpost, hne, hnf, rfl, rfl⟩ := h
  rcases exec_entry hpost with ⟨req, pid, hc, hgen, hcreated, hstarts⟩ | ⟨e, hpre, hsame, hst⟩
  · cases hstarts with
    | failed hfailed => exact absurd hfailed hnf
    | attached hatt _ _ hout =>
      obtain ⟨m, hm, hmod, htype⟩ := hatt.method
      have hsame := hout.progress.sameSession
      rw [← hsame.vhost, hcreated.vhost] at hm
      exact .inl ⟨req, pid, m, hc, hgen, hm, (hsame.auth_type.trans htype).symm,
        (hsame.amod.trans hmod).symm⟩
  · have hgoing : e.status ≠ .inactive ∧ e.status ≠ .failed := by
      rcases hst with hfailed | heq | hinit | hcont
      · exact absurd hfailed hnf
      · exact ⟨heq ▸ hne, heq ▸ hnf⟩
      · simp [hinit]
      · simp [hcont]
    exact .inr ⟨keeps_of_some hpre hpost, e, hpre, hgoing.1, hgoing.2, hsame.auth_type.symm,
      hsame.amod.symm⟩

theorem not_inProgress_initial (h : Initial sec) : ¬ InProgress sid type amod sec := by
  rintro ⟨e, hfind, -⟩
  rw [h, ClientDb.find_empty] at hfind
  simp at hfind

theorem attached_since (hrun : Run Initial Step trace sec) (h : InProgress sid type amod sec) :
    Since (fun _ a => Attaches sid type amod a) (Keeps sid) trace := by
  refine hrun.since (fun _ => not_inProgress_initial) ?_ h
  rintro _ sec l _ - rfl h'
  exact inProgress_step h'

/-! ## The gate -/

/-- The entry of `sid` is completed, with this method. -/
def Completed (sid : Sid) (type : AuthType) (amod : Option AuthMod) (sec : SecMod) : Prop :=
  ∃ e, sec.client_db.find sid = some e ∧ e.status = .completed ∧ e.auth_type = type ∧
    e.amod = amod

theorem indexed_of_run (hrun : Run Initial Step trace sec) :
    Indexed sec := by
  refine hrun.invariant ?_ ?_
  · intro sec hinit
    exact indexed_empty hinit
  · rintro sec l _ h rfl
    exact h.exec l.1 l.2

/-- A step between two states in which the entry is completed does not touch it. -/
theorem untouched_of_completed (hindexed : Indexed sec) (hpre : sec.client_db.find sid = some e)
    (hst : e.status = .completed) (hpost : (exec l.1 sec l.2).1.client_db.find sid = some e')
    (hst' : e'.status = .completed) :
    Untouched DeniedOpen sid ⟨sec, l, (exec l.1 sec l.2).1⟩ := by
  obtain ⟨env, c⟩ := l
  obtain rfl := ClientDb.find_sid hpre
  obtain ⟨new, hstep, -⟩ := exec_entryStep env sec c e.sid
  simp only at hpost
  rw [hpre, hpost] at hstep
  -- each of the three would have failed the entry
  refine ⟨keeps_of_some hpre hpost, ?_, ?_, ?_⟩
  · rintro ⟨req, rfl, hreq, -⟩
    cases hstep with
    | idle hno => exact hno e rfl ⟨congrArg some hreq, trivial⟩
    | cont_failed _ hfailed => simp [hfailed] at hst'
    | cont_step _ hgoing => simp [hst] at hgoing
  · rintro ⟨msg, rfl, hsid, hreply⟩
    cases hstep with
    | idle hno => exact hno e rfl ⟨congrArg some hsid, hreply⟩
    | banned => cases hst'
  · rintro ⟨⟨req, rfl, hreq, -⟩, e₁, hpre₁, hwhy⟩
    obtain rfl : e = e₁ := Option.some.inj (hpre.symm.trans hpre₁)
    cases hstep with
    | idle hno => exact hno e rfl ⟨congrArg some hreq, hst, hindexed.index _ e hpre⟩
    | opening _ _ hwrite =>
      have hadm : Admitted env e := by
        cases hwrite with
        | expired | denied => cases hst'
        | deferred hadm | opened hadm => exact hadm
      rcases hwhy with hexp | ⟨hacct, hclosed, hneg⟩
      · simp [hadm.1] at hexp
      · have hpos := hadm.2 (by simp [unannounced, hacct, hclosed])
        simp only at hneg
        omega

/-- The conclusion of an authentication gives what `Completes` asks for. -/
theorem Concluding.completes (h : Concluding env sec sid c e)
    (hgroup : (check_group env (prompted env e)).2)
    (hpost : (exec env sec c).1.client_db.find sid =
      some { complete_entry env (check_group env (prompted env e)).1 with msg_str := none }) :
    Completes sid e.auth_type e.amod ⟨sec, (env, c), (exec env sec c).1⟩ := by
  have hprompt := (prompted_progress env e).1.sameSession
  refine ⟨?_, prompted env e, ?_, hprompt.auth_type, hprompt.amod, fun hcert => ?_, hgroup, hpost⟩
  · cases h with
    | init _ _ hmod => exact .inl ⟨_, _, rfl, hmod⟩
    | cont _ hreq _ hpass => exact .inr ⟨_, rfl, hreq, hpass⟩
  · rw [hprompt.sid]
    cases h with
    | init _ hsid => exact hsid
    | cont hfind =>
      have hsid := ClientDb.find_sid hfind
      exact hsid
  · refine check_group_tls_auth_ok hgroup ?_
    rw [ClientEntry.withCert, hprompt.auth_type]
    exact hcert

/-- A step that leads to a completed entry completes it, or finds it completed and
does not touch it. -/
theorem completed_step (hrun : Run Initial Step trace sec)
    (h : Completed sid type amod (exec l.1 sec l.2).1) :
    (Completes sid type amod ⟨sec, l, (exec l.1 sec l.2).1⟩ ∧
        (Attaches sid type amod ⟨sec, l, (exec l.1 sec l.2).1⟩ ∨
          Since (fun _ a => Attaches sid type amod a) (Keeps sid) trace)) ∨
      Untouched DeniedOpen sid ⟨sec, l, (exec l.1 sec l.2).1⟩ ∧ Completed sid type amod sec := by
  obtain ⟨e', hpost, hst, rfl, rfl⟩ := h
  have hprogress : InProgress sid e'.auth_type e'.amod (exec l.1 sec l.2).1 :=
    ⟨e', hpost, by simp [hst], by simp [hst], rfl, rfl⟩
  have hattach : Attaches sid e'.auth_type e'.amod ⟨sec, l, (exec l.1 sec l.2).1⟩ ∨
      Since (fun _ a => Attaches sid e'.auth_type e'.amod a) (Keeps sid) trace :=
    (inProgress_step hprogress).imp id fun h => attached_since hrun h.2
  by_cases hpre : ∃ e, sec.client_db.find sid = some e ∧ e.status = .completed
  · obtain ⟨e, hfind, hpre_st⟩ := hpre
    have hsame := (completed_kept hfind hpre_st hpost hst).1
    exact .inr ⟨untouched_of_completed (indexed_of_run hrun) hfind hpre_st hpost hst, e, hfind,
      hpre_st, hsame.auth_type.symm, hsame.amod.symm⟩
  · obtain ⟨e, hconcl, hgroup, rfl⟩ := exec_concluded
      (fun e he hdone => hpre ⟨e, he, hdone⟩) hpost hst
    have hsame := ((prompted_progress l.1 e).1.trans (completed_progress l.1 _)).sameSession
    refine .inl ⟨?_, hattach⟩
    rw [hsame.auth_type, hsame.amod]
    exact hconcl.completes hgroup hpost

theorem authenticated_of_completed (hrun : Run Initial Step trace sec)
    (hfind : sec.client_db.find sid = some e) (hst : e.status = .completed) :
    Authenticated DeniedOpen sid e trace := by
  refine hrun.since (P := Completed sid e.auth_type e.amod) ?_ ?_ ⟨e, hfind, hst, rfl, rfl⟩
  · rintro sec hinit ⟨e', hfind', -⟩
    rw [hinit, ClientDb.find_empty] at hfind'
    simp at hfind'
  · rintro older sec l _ hrun' rfl h'
    exact completed_step hrun' h'

/-- No step leaves the status `failed`: the entry stays failed or is deleted, unless
the step is the start of another authentication, whose new entry is given the same
identifier. -/
theorem failed_stays (hpre : sec.client_db.find sid = some e) (hst : e.status = .failed)
    (hpost : (exec env sec c).1.client_db.find sid = some e') :
    e'.status = .failed ∨ Generated env sec sid := by
  rcases exec_entry hpost with ⟨req, pid, -, hgen, -⟩ | ⟨e₀, hpre₀, -, hst'⟩
  · exact .inr hgen
  · obtain rfl := Option.some.inj (hpre.symm.trans hpre₀)
    exact .inl (by simpa [hst] using hst')

/-- An open request is answered `OK` only for an entry that was attached to the
first suitable method, completed by the success of its module and of the group
check, and that no failed authentication step, negative ban reply or open request
denied for expiry or by the accounting has touched since; and `failed` is final. -/
theorem session_open_authenticated :
    Gate DeniedOpen ∧
      ∀ trace sec, Run Initial Step trace sec → ∀ env c sid e e',
        sec.client_db.find sid = some e → e.status = .failed →
        (exec env sec c).1.client_db.find sid = some e' →
        e'.status = .failed ∨ Generated env sec sid := by
  refine ⟨?_, fun _ _ _ _ _ _ _ _ hpre hst hpost => failed_stays hpre hst hpost⟩
  intro trace sec hrun env req info hok
  have hopen := session_open_run env sec req
  generalize handle_secm_session_open_cmd env sec req = r at hopen hok
  cases hopen with
  | failed _ hno => exact absurd hok (hno info)
  | @wrote e _ _ _ _ _ hfind hreq hst _ hwrite =>
    obtain rfl := hok
    cases hwrite with
    | expired _ hno | denied _ _ hno | deferred _ hno => exact absurd rfl (hno info)
    | opened hadm =>
      exact ⟨e.sid, e, hreq, hfind, hadm.1, authenticated_of_completed hrun hfind hst⟩

/-! ## A session that is in use -/

/-- The command closes the session, or is a termination. -/
def Cmd.ends (sid : Sid) : Cmd → Bool
  | .session_close req => req.sid = sid.1
  | .terminate_user_sessions _ | .terminate_session _ => true
  | _ => false

/-- Sec-mod has the session of the entry, with no fewer users. -/
def StillUsed (sid : Sid) (e : ClientEntry) (sec : SecMod) : Prop :=
  ∃ e', sec.client_db.find sid = some e' ∧
    e'.session = { e.session with in_use := e'.in_use } ∧ e.in_use ≤ e'.in_use

theorem exec_in_use_kept (hfind : sec.client_db.find sid = some e) (huse : 0 < e.in_use)
    (hc : c.ends sid = false) : StillUsed sid e (exec env sec c).1 := by
  obtain ⟨new, hstep, -⟩ := exec_entryStep env sec c sid
  rw [hfind] at hstep
  unfold StillUsed
  generalize (exec env sec c).1.client_db.find sid = o at hstep
  have hsame {e' : ClientEntry} (h : SameSession e e') :
      e'.session = { e.session with in_use := e'.in_use } ∧ e.in_use ≤ e'.in_use :=
    ⟨by rw [h.in_use]; exact h, h.in_use.ge⟩
  cases hstep with
  | idle => exact ⟨e, rfl, hsame rfl⟩
  | freed hfree =>
    -- only an entry without users may be freed
    cases c <;> simp_all [Cmd.discards, Cmd.ends, ClientEntry.expired]
  | init _ _ hold =>
    have hfree := hold e rfl
    simp_all [Cmd.discards]
  | cont_failed hprogress => exact ⟨_, rfl, hsame hprogress.sameSession⟩
  | cont_step _ _ hout => exact ⟨_, rfl, hsame hout.progress.sameSession⟩
  | banned | reported => exact ⟨_, rfl, hsame rfl⟩
  | opening _ _ hwrite =>
    cases hwrite with
    | expired | denied | deferred => exact ⟨_, rfl, hsame rfl⟩
    | opened => exact ⟨_, rfl, rfl, Nat.le_succ _⟩
  | closing hreq => simp [Cmd.ends, hreq, ClientDb.find_sid hfind] at hc

/-- Sec-mod does not forget a session that is in use, whatever happens to it before it is
closed or terminated. -/
theorem session_in_use_kept {trace : List Trans} {sec' : SecMod}
    (hrun : Run (· = sec) Step trace sec') (hfind : sec.client_db.find sid = some e)
    (huse : 0 < e.in_use) (hcmds : ∀ t ∈ trace, t.label.2.ends sid = false) :
    StillUsed sid e sec' := by
  refine hrun.invariant_of_forall ?_ ?_ hcmds
  · rintro _ rfl
    exact ⟨e, hfind, rfl, Nat.le_refl _⟩
  · rintro s l _ ⟨e₁, hfind₁, hsame₁, hle₁⟩ rfl hc
    obtain ⟨e₂, hfind₂, hsame₂, hle₂⟩ := exec_in_use_kept hfind₁ (huse.trans_le hle₁) hc
    exact ⟨e₂, hfind₂, hsame₂.trans (by rw [hsame₁]), hle₁.trans hle₂⟩

end Gate

/-! ## A refusal that is not remembered -/

section Example

local instance authGatePlatform : Platform := Platform.simple

/-- One password method, and a module for additional configuration. -/
private def exampleSec : SecMod := Sample.secFor
  { auth := [⟨true, AUTH_TYPE_PLAIN, some ⟨false, true⟩⟩], get_sup_config := true }

private def exampleSid : Sid := Sample.sid 0 0

/-- The module accepts the user at once; the additional configuration is `config`. -/
private def exampleEnv (config : Option GroupCfg) : SecEnv :=
  { Sample.secEnv 0 with sup_config := config }

private def exampleInit : Cmd := .auth_init (Sample.initMsg "alice".toList "192.0.2.1".toList) 7

private def exampleOpen : SecmSessionOpenMsg := ⟨exampleSid.1, none, none⟩

private def afterInit : SecMod := (exec (exampleEnv none) exampleSec exampleInit).1

private def afterRefusal : SecMod :=
  (exec (exampleEnv none) afterInit (.session_open exampleOpen)).1

/-- The second open request is granted although the first one, made after the
authentication was completed, was refused. -/
theorem session_open_granted_after_refusal : ∃ P : Platform, ¬ @Gate P (@RefusedOpen P) := by
  refine ⟨Platform.simple, fun hgate => ?_⟩
  have hrun : Run Initial Step
      [⟨afterInit, (exampleEnv none, .session_open exampleOpen), afterRefusal⟩,
        ⟨exampleSec, (exampleEnv none, exampleInit), afterInit⟩] afterRefusal :=
    .snoc (.snoc (.start rfl) rfl) rfl
  have hrefused : (handle_secm_session_open_cmd (exampleEnv none) afterInit exampleOpen).reply =
      some .failed := by decide +kernel
  have hgranted : ∃ info, (handle_secm_session_open_cmd (exampleEnv (some {})) afterRefusal
      exampleOpen).reply = some (.ok info) := ⟨_, rfl⟩
  obtain ⟨info, hok⟩ := hgranted
  obtain ⟨sid, e, hsid, -, -, recent, t, older, htrace, ⟨hcompletes, -⟩, huntouched⟩ :=
    hgate _ _ hrun _ exampleOpen info hok
  cases recent with
  | nil =>
    -- the refused request is not the step that completed the entry
    obtain ⟨rfl, -⟩ := List.cons.inj htrace
    rcases hcompletes.1 with ⟨_, _, hlabel, -⟩ | ⟨_, hlabel, -⟩ <;> cases hlabel
  | cons r rest =>
    obtain ⟨rfl, -⟩ := List.cons.inj htrace
    refine (huntouched _ List.mem_cons_self).2.2.2 ⟨exampleOpen, rfl, hsid, fun info' h => ?_⟩
    rw [hrefused] at h
    simp at h

/-- The clean-up leaves the session that has just been opened. -/
theorem session_in_use_kept_cleanup : ∃ P : Platform, ∃ sec : @SecMod P,
    ((@exec P (exampleEnv none) sec .cleanup).1.client_db.find exampleSid).isSome := by
  have hopen : ((exec (exampleEnv (some {})) afterInit (.session_open exampleOpen)).1.client_db.find
      exampleSid).any (0 < ·.in_use) = true := by decide +kernel
  obtain ⟨e, hfind, huse⟩ := (Option.any_eq_true _ _).1 hopen
  generalize (exec _ afterInit _).1 = sec at hfind
  have hrun : Run (· = sec) Step [⟨sec, (exampleEnv none, .cleanup), _⟩] _ :=
    .snoc (.start rfl) rfl
  obtain ⟨e', hfind', -⟩ := session_in_use_kept hrun hfind (of_decide_eq_true huse) (by simp; rfl)
  exact ⟨_, _, by rw [hfind']; rfl⟩

end Example

end Ocserv.SecMod

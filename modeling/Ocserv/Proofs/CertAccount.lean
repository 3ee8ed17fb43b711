import Ocserv.Proofs.AuthGate

/-!
# The certificate and the account

For a method with a certificate, sec-mod compares the account with the user name and the
groups that the certificate gives.  The comparison is made once, in `check_group`.  After
it the module of the method may still rename the account, and an account that has no name
yet takes that of the certificate without its group being compared.  Here it is worked out
for which answers of the module an entry that is completed agrees with its certificate.
-/

namespace Ocserv

theorem strlcpy_of_lt {s : CStr} {size : Nat} (h : s.length < size) : strlcpy s size = s :=
  List.take_of_length_le (by omega)

theorem strlcpy_length_lt (s : CStr) {size : Nat} (h : 0 < size) :
    (strlcpy s size).length < size := by
  simp only [strlcpy, List.length_take]
  omega

namespace SecMod

open Runs

/-! ## Agreement -/

/-- The account is that of the certificate. -/
structure Agrees (e : ClientEntry) : Prop where
  username : e.acct_info.username = e.cert_user_name
  groupname : e.vhost.config.cert_group_oid.isSome →
    e.acct_info.groupname ∈ e.cert_group_names

/-- The group of the account when the module has had its say. -/
def moduleGroup (env : SecEnv) (e : ClientEntry) : CStr :=
  (group_from_module env e).1.acct_info.groupname

/-- The module gives back the name of the certificate, and for an account without a name it
gives no group, or one of the certificate; if none is asked for either, there is a first
group that fits the field. -/
structure Agreeing (env : SecEnv) (e : ClientEntry) : Prop where
  username : e.amod = none ∨
    strlcpy (env.auth_user e.cert_user_name) ACCT_USERNAME_SIZE = e.cert_user_name
  groupname : e.vhost.config.cert_group_oid.isSome → e.acct_info.username = [] →
    (moduleGroup env e ≠ [] → moduleGroup env e ∈ e.cert_group_names) ∧
    (moduleGroup env e = [] → e.req_group_name = [] →
      ∃ g, e.cert_group_names.head? = some g ∧ strlcpy g MAX_GROUPNAME_SIZE ∈ e.cert_group_names)

/-- The fields that come from the worker fit their buffers. -/
structure Fits (e : ClientEntry) : Prop where
  cert_user_name : e.cert_user_name.length < MAX_USERNAME_SIZE
  req_group_name : e.req_group_name.length < MAX_GROUPNAME_SIZE

variable {env : SecEnv} {e e₁ e₂ e' : ClientEntry}

/-! ## The group check -/

/-- With a certificate group configured, the requested group is taken when the module has
given none, and it is one of the certificate. -/
theorem group_from_cert_eq (h : group_from_cert e₁ = some e₂) (hcert : e₁.withCert)
    (hgroup : e₁.vhost.config.cert_group_oid.isSome) (hfits : Fits e₁) :
    (e₁.acct_info.groupname ≠ [] → e₂.acct_info.groupname = e₁.acct_info.groupname) ∧
      (e₁.acct_info.groupname = [] → e₂.acct_info.groupname = e₁.req_group_name ∧
        (e₁.req_group_name ≠ [] → e₁.req_group_name ∈ e₁.cert_group_names)) := by
  unfold group_from_cert at h
  split at h
  · next hcond =>
    simp only [Bool.and_eq_true, beq_iff_eq, bne_iff_ne] at hcond
    split at h
    · next hin =>
      cases h
      refine ⟨fun hne => absurd hcond.1.1.2 hne, fun _ => ⟨?_, fun _ => ?_⟩⟩
      · exact strlcpy_of_lt hfits.req_group_name
      · simpa using hin
    · simp at h
  · next hcond =>
    cases h
    simp only [Bool.and_eq_true, beq_iff_eq, bne_iff_ne, hcert, hgroup, true_and, and_true,
      not_and, not_not] at hcond
    refine ⟨fun _ => rfl, fun hnil => ⟨?_, fun hne => absurd (hcond hnil) hne⟩⟩
    rw [hnil, hcond hnil]

/-- An account that passes has the name of the certificate; its group has been compared if
the account had a name. -/
theorem check_cert_eq (h : check_cert_user_group_status e₁ = some e₂) (hcert : e₁.withCert)
    (huser : e₁.vhost.config.cert_user_oid.isSome) (hfits : Fits e₁) :
    e₂.acct_info.username = e₁.cert_user_name ∧
      (e₁.vhost.config.cert_group_oid.isSome →
        (e₁.acct_info.username ≠ [] → e₂.acct_info.groupname ∈ e₁.cert_group_names) ∧
        (e₁.acct_info.username = [] → e₁.acct_info.groupname ≠ [] →
          e₂.acct_info.groupname = e₁.acct_info.groupname) ∧
        (e₁.acct_info.username = [] → e₁.acct_info.groupname = [] →
          e₂.acct_info.groupname = (e₁.cert_group_names.head?.elim [] fun g =>
            strlcpy g MAX_GROUPNAME_SIZE))) := by
  have hlen : e₁.cert_user_name.length < ACCT_USERNAME_SIZE :=
    Nat.lt_of_lt_of_le hfits.cert_user_name (by decide)
  simp only [check_cert_user_group_status, hcert, huser, Bool.not_true, Bool.false_eq_true,
    if_false,
    Bool.true_and, Bool.and_true] at h
  split at h
  · simp at h
  · next hname =>
    rw [beq_iff_eq] at hname
    split at h
    · simp at h
    · split at h
      · next hempty =>
        obtain rfl := by simpa only [beq_iff_eq, hname, if_false, Option.some.injEq] using h
        rw [beq_iff_eq] at hempty
        refine ⟨strlcpy_of_lt hlen, fun hgroup => ⟨fun hne => absurd hempty hne, ?_, ?_⟩⟩
        · intro _ hne
          simp [hne]
        · intro _ hnil
          simp only [hgroup, hnil, beq_self_eq_true, Bool.and_self, if_true]
          cases e₁.cert_group_names <;> rfl
      · next hnonempty =>
        rw [beq_iff_eq] at hnonempty
        split at h
        · simp at h
        · next hsame =>
          split at h
          · simp at h
          · next hgroups =>
            cases h
            refine ⟨?_, fun hgroup => ⟨fun _ => ?_, fun hnil => absurd hnil hnonempty,
              fun hnil => absurd hnil hnonempty⟩⟩
            · by_contra hne
              exact hsame (by simp [hname, hne])
            · by_contra hnot
              exact hgroups (by simp [hgroup, hnot])

theorem group_from_module_username (env : SecEnv) (e : ClientEntry) :
    (group_from_module env e).1.acct_info.username = e.acct_info.username := by
  unfold group_from_module
  split <;> rfl

theorem group_from_cert_username (h : group_from_cert e₁ = some e₂) :
    e₂.acct_info.username = e₁.acct_info.username := by
  unfold group_from_cert at h
  split at h
  · split at h
    · exact Option.some.inj h ▸ rfl
    · simp at h
  · exact Option.some.inj h ▸ rfl

theorem check_group_stages (h : (check_group env e).2) : ∃ e₂ e₃,
    group_from_cert (group_from_module env e).1 = some e₂ ∧
      check_cert_user_group_status e₂ = some e₃ ∧ (check_group env e).1 = e₃ := by
  unfold check_group at h ⊢
  simp only at h ⊢
  split at h
  · simp at h
  · next hok =>
    rw [if_neg hok]
    split at h
    · simp at h
    · next e₂ hgroup =>
      split at h
      · simp at h
      · next e₃ hstatus =>
        exact ⟨e₂, e₃, hgroup, hstatus, rfl⟩

theorem Fits.of_sameSession (h : Fits e) (hsame : SameSession e e') : Fits e' :=
  ⟨hsame.cert_user_name ▸ h.cert_user_name, hsame.req_group_name ▸ h.req_group_name⟩

theorem withCert_of_sameSession (hsame : SameSession e e') : e'.withCert = e.withCert := by
  simp only [ClientEntry.withCert, hsame.auth_type]

theorem check_group_username (h : (check_group env e).2) (hcert : e.withCert)
    (huser : e.vhost.config.cert_user_oid.isSome) (hfits : Fits e) :
    (check_group env e).1.acct_info.username = e.cert_user_name := by
  obtain ⟨e₂, e₃, hgroup, hstatus, heq⟩ := check_group_stages h
  have hsame := (group_from_module_progress env e).1.sameSession.trans
      (group_from_cert_progress hgroup).1.sameSession
  rw [heq, (check_cert_eq hstatus ((withCert_of_sameSession hsame).trans hcert)
    (hsame.vhost ▸ huser) (hfits.of_sameSession hsame)).1, hsame.cert_user_name]

theorem check_group_groupname (h : (check_group env e).2) (hcert : e.withCert)
    (huser : e.vhost.config.cert_user_oid.isSome)
    (hoid : e.vhost.config.cert_group_oid.isSome) (hfits : Fits e) :
    (check_group env e).1.acct_info.groupname ∈ e.cert_group_names ↔
      (e.acct_info.username = [] →
        (moduleGroup env e ≠ [] → moduleGroup env e ∈ e.cert_group_names) ∧
        (moduleGroup env e = [] → e.req_group_name = [] →
          ∃ g, e.cert_group_names.head? = some g ∧
            strlcpy g MAX_GROUPNAME_SIZE ∈ e.cert_group_names)) := by
  obtain ⟨e₂, e₃, hgroup, hstatus, heq⟩ := check_group_stages h
  have hsame₁ := (group_from_module_progress env e).1.sameSession
  have hsame := hsame₁.trans (group_from_cert_progress hgroup).1.sameSession
  have hname : e₂.acct_info.username = e.acct_info.username :=
    (group_from_cert_username hgroup).trans (group_from_module_username env e)
  obtain ⟨hset, hunset⟩ := group_from_cert_eq hgroup ((withCert_of_sameSession hsame₁).trans hcert)
    (hsame₁.vhost ▸ hoid) (hfits.of_sameSession hsame₁)
  obtain ⟨-, hcheck⟩ := check_cert_eq hstatus ((withCert_of_sameSession hsame).trans hcert)
    (hsame.vhost ▸ huser) (hfits.of_sameSession hsame)
  obtain ⟨hnamed, hkept, hfirst⟩ := hcheck (hsame.vhost ▸ hoid)
  rw [hname, hsame.cert_group_names] at hnamed
  rw [hname] at hkept hfirst
  rw [hsame.cert_group_names] at hfirst
  rw [hsame₁.req_group_name, hsame₁.cert_group_names] at hunset
  change moduleGroup env e ≠ [] → _ at hset
  change moduleGroup env e = [] → _ at hunset
  rw [heq]
  by_cases hempty : e.acct_info.username = []
  · by_cases hmod : moduleGroup env e = []
    · obtain ⟨hreq, hin⟩ := hunset hmod
      by_cases hno : e.req_group_name = []
      · rw [hfirst hempty (hreq.trans hno)]
        cases e.cert_group_names <;> simp [hempty, hmod, hno]
      · rw [hkept hempty (hreq ▸ hno), hreq]
        simp [hempty, hmod, hno, hin]
    · have hkeep : e₃.acct_info.groupname = moduleGroup env e := by
        rw [hkept hempty (by rw [hset hmod]; exact hmod), hset hmod]
        rfl
      simp [hkeep, hempty, hmod]
  · simp [hnamed hempty, hempty]

/-! ## Completion -/

theorem prompted_agreeing_iff : Agreeing env (prompted env e) ↔ Agreeing env e := by
  have hgroup : moduleGroup env (prompted env e) = moduleGroup env e := by
    unfold moduleGroup group_from_module prompted
    split <;> split <;> rfl
  have hname : (prompted env e).acct_info.username = e.acct_info.username := by
    unfold prompted
    split <;> rfl
  have hsame := (prompted_progress env e).1.sameSession
  constructor
  · rintro ⟨h₁, h₂⟩
    rw [hsame.amod, hsame.cert_user_name] at h₁
    rw [hgroup, hname, hsame.vhost, hsame.cert_group_names, hsame.req_group_name] at h₂
    exact ⟨h₁, h₂⟩
  · rintro ⟨h₁, h₂⟩
    constructor
    · rwa [hsame.amod, hsame.cert_user_name]
    · rwa [hgroup, hname, hsame.vhost, hsame.cert_group_names, hsame.req_group_name]

theorem agrees_completed_iff (h : (check_group env e).2) (hcert : e.withCert)
    (huser : e.vhost.config.cert_user_oid.isSome) (hfits : Fits e) :
    Agrees { complete_entry env (check_group env e).1 with msg_str := none } ↔ Agreeing env e := by
  have hsame := (check_group_progress env e).1.sameSession
  have hname := check_group_username h hcert huser hfits
  have huser_iff :
      (complete_entry env (check_group env e).1).acct_info.username = e.cert_user_name ↔
      e.amod = none ∨
        strlcpy (env.auth_user e.cert_user_name) ACCT_USERNAME_SIZE = e.cert_user_name := by
    simp only [complete_entry, hsame.amod]
    cases e.amod with
    | none => simp [hname]
    | some m => simp [hname]
  have hgroup : (complete_entry env (check_group env e).1).acct_info.groupname =
      (check_group env e).1.acct_info.groupname := by
    simp only [complete_entry]
    split <;> rfl
  have hsame' := hsame.trans (complete_entry_progress env _).sameSession
  constructor
  · rintro ⟨h₁, h₂⟩
    refine ⟨huser_iff.1 (h₁.trans hsame'.cert_user_name), fun hoid => ?_⟩
    have hin := h₂ (hsame'.vhost ▸ hoid)
    change (complete_entry env (check_group env e).1).acct_info.groupname ∈
      (complete_entry env (check_group env e).1).cert_group_names at hin
    rw [hgroup, hsame'.cert_group_names] at hin
    exact (check_group_groupname h hcert huser hoid hfits).1 hin
  · rintro ⟨h₁, h₂⟩
    refine ⟨(huser_iff.2 h₁).trans hsame'.cert_user_name.symm, fun hoid => ?_⟩
    change
      (complete_entry env (check_group env e).1).vhost.config.cert_group_oid.isSome = true at hoid
    rw [hsame'.vhost] at hoid
    change (complete_entry env (check_group env e).1).acct_info.groupname ∈
      (complete_entry env (check_group env e).1).cert_group_names
    rw [hgroup, hsame'.cert_group_names]
    exact (check_group_groupname h hcert huser hoid hfits).2 (h₂ hoid)

/-! ## Runs -/

section Runs

variable [Platform] {sec : SecMod} {sid : Sid} {c : Cmd}

/-- The entry whose authentication the command may conclude: that of a new session with the
fields of the message, or one that the user continues. -/
inductive Concludes (sec : SecMod) (sid : Sid) : Cmd → ClientEntry → Prop
  | init {req : SecAuthInitMsg} {pid : Nat} {e : ClientEntry} : Attached sec.vconfig req e →
      e.sid = sid → Concludes sec sid (.auth_init req pid) e
  | cont {req : SecAuthContMsg} {e : ClientEntry} : sec.client_db.find sid = some e →
      req.sid = sid.1 → e.status = .init ∨ e.status = .cont →
      Concludes sec sid (.auth_cont req) { e with status := .cont }

theorem Attached.fits {vconfig : VConfig} {req : SecAuthInitMsg} (h : Attached vconfig req e) :
    Fits e := by
  have hcopy : ∀ (field : Option CStr) {size : Nat}, 0 < size →
      (copyField field size []).length < size := by
    intro field size hsize
    cases field with
    | none => exact hsize
    | some v => exact strlcpy_length_lt v hsize
  obtain ⟨pid, now, heq⟩ := h.filled
  constructor
  · rw [show e.cert_user_name = copyField req.cert_user_name MAX_USERNAME_SIZE [] from
      congrArg ClientEntry.cert_user_name heq]
    exact hcopy _ (by decide)
  · rw [show e.req_group_name = copyField req.group_name MAX_GROUPNAME_SIZE [] from
      congrArg ClientEntry.req_group_name heq]
    exact hcopy _ (by decide)

/-- The entries that have not failed fit their buffers. -/
theorem fits_exec (env : SecEnv) (c : Cmd)
    (h : ∀ sid e, sec.client_db.find sid = some e → e.status ≠ .failed → Fits e) :
    ∀ sid e, (exec env sec c).1.client_db.find sid = some e → e.status ≠ .failed → Fits e := by
  intro sid e' hpost hst
  rcases exec_entry hpost with ⟨req, pid, -, -, -, hstarts⟩ | ⟨e, hpre, hsame, hst'⟩
  · cases hstarts with
    | failed hfailed => exact absurd hfailed hst
    | attached hatt _ _ hout => exact hatt.fits.of_sameSession hout.progress.sameSession
  · have hfits := h sid e hpre fun hfailed => hst (by simpa [hfailed] using hst')
    have hfits' : Fits { e with in_use := e'.in_use } :=
      ⟨hfits.cert_user_name, hfits.req_group_name⟩
    exact hfits'.of_sameSession hsame

theorem fits_of_run {trace : List Trans} (hrun : Run Initial Step trace sec) :
    ∀ sid e, sec.client_db.find sid = some e → e.status ≠ .failed → Fits e := by
  induction hrun with
  | start hinit =>
    intro sid e hfind
    rw [hinit, ClientDb.find_empty] at hfind
    simp at hfind
  | @snoc _ _ _ l _ hstep ih =>
    obtain rfl := hstep
    exact fits_exec l.1 l.2 ih

theorem Concluding.concludes (h : Concluding env sec sid c e) : Concludes sec sid c e := by
  cases h with
  | init hatt hsid => exact .init hatt hsid
  | cont hfind hreq hst => exact .cont hfind hreq hst

/-- An entry that reaches completion with a method that includes the certificate, where the
certificate is to name the user, agrees with its certificate exactly if the module does. -/
theorem cert_account_agree_iff {trace : List Trans} (hrun : Run Initial Step trace sec)
    (hpre : ∀ e, sec.client_db.find sid = some e → e.status ≠ .completed)
    (hpost : (exec env sec c).1.client_db.find sid = some e') (hdone : e'.status = .completed)
    (hcert : e'.withCert = true) (huser : e'.vhost.config.cert_user_oid.isSome = true) :
    ∃ e, Concludes sec sid c e ∧ (Agrees e' ↔ Agreeing env e) := by
  obtain ⟨e, hconcluding, hcheck, rfl⟩ := exec_concluded hpre hpost hdone
  have hconcl := hconcluding.concludes
  refine ⟨e, hconcl, ?_⟩
  have hfits : Fits e := by
    cases hconcl with
    | init hatt _ => exact hatt.fits
    | cont hfind _ hst =>
      have hfits := fits_of_run hrun sid _ hfind (by rcases hst with heq | heq <;> simp [heq])
      exact ⟨hfits.cert_user_name, hfits.req_group_name⟩
  -- the entry that the check has seen
  have hprompted := (prompted_progress env e).1.sameSession
  have hsame := (check_group_progress env (prompted env e)).1.sameSession.trans
    (complete_entry_progress env _).sameSession
  have hcert' : (prompted env e).withCert = true := (withCert_of_sameSession hsame).symm.trans hcert
  have huser' : (prompted env e).vhost.config.cert_user_oid.isSome = true := hsame.vhost ▸ huser
  rw [agrees_completed_iff hcheck hcert' huser' (hfits.of_sameSession hprompted),
    prompted_agreeing_iff]

end Runs

/-! ## A certificate alone, and one with a ticket -/

section Example

local instance certAccountPlatform : Platform := Platform.simple

/-- One method, which includes the certificate; the certificate names the user. -/
private def certSec (type : AuthType) (amod : Option AuthMod) : SecMod := Sample.secFor
  { auth := [⟨true, AUTH_TYPE_CERTIFICATE ||| type, amod⟩]
    config := { cert_user_oid := some "0.9.2342.19200300.100.1.1".toList } }

private def certSid : Sid := Sample.sid 0 0

/-- The module accepts, and names the user `bob`. -/
private def certEnv : SecEnv := { Sample.secEnv 0 with auth_user := fun _ => "bob".toList }

/-- The certificate of the connection is that of `alice`. -/
private def certInit (auth_type : AuthType) : Cmd :=
  .auth_init
    { Sample.initMsg [] "192.0.2.1".toList with
      tls_auth_ok := true, user_name := none, cert_user_name := some "alice".toList, auth_type } 7

/-- The entry after the first message. -/
private def certEntry (type : AuthType) (amod : Option AuthMod) : Option ClientEntry :=
  (exec certEnv (certSec type amod) (certInit (AUTH_TYPE_CERTIFICATE ||| type))).1.client_db.find
    certSid

/-- With a certificate alone the account is that of the certificate. -/
theorem cert_account_agree_alone : ∃ P : Platform, ∃ trace sec, Run Initial (@Step P) trace sec ∧
    ∃ env c sid e', (@exec P env sec c).1.client_db.find sid = some e' ∧ e'.status = .completed ∧
      e'.withCert = true ∧ e'.vhost.config.cert_user_oid.isSome = true ∧ Agrees e' := by
  have hplay : ∃ e' ∈ certEntry 0 none, e'.status = .completed ∧ e'.withCert = true ∧
      e'.vhost.config.cert_user_oid.isSome = true := by
    decide +kernel
  obtain ⟨e', hpost, hdone, hcert, huser⟩ := hplay
  have hrun : Run Initial Step [] (certSec 0 none) := .start rfl
  have hpre : ∀ e, (certSec 0 none).client_db.find certSid = some e → e.status ≠ .completed := by
    intro e hfind
    cases hfind
  obtain ⟨e, hconcl, hiff⟩ := cert_account_agree_iff hrun hpre hpost hdone hcert huser
  refine ⟨Platform.simple, [], _, hrun, certEnv, _, certSid, e', hpost, hdone, hcert, huser,
    hiff.2 ?_⟩
  obtain ⟨req, hatt⟩ : ∃ req, Attached (certSec 0 none).vconfig req e := by
    cases hconcl with
    | init hatt _ => exact ⟨_, hatt⟩
  have hvhost : e.vhost = (certSec 0 none).vconfig.default_vhost := by
    obtain ⟨pid, now, heq⟩ := hatt.filled
    refine (congrArg ClientEntry.vhost heq).trans ?_
    cases req.vhost <;> rfl
  obtain ⟨m, hm, hamod, -⟩ := hatt.method
  constructor
  · -- the only method has no module
    rw [hvhost, select_method] at hm
    split at hm
    · simp at hm
    · obtain rfl : m = ⟨true, AUTH_TYPE_CERTIFICATE ||| 0, none⟩ := by
        simpa [certSec, Sample.secFor] using List.mem_of_find?_eq_some hm
      exact .inl hamod
  · intro hoid
    rw [hvhost] at hoid
    cases hoid

/-- With a ticket of another user the account is that of the ticket. -/
theorem cert_account_renamed : ∃ P : Platform, ∃ trace sec, Run Initial (@Step P) trace sec ∧
    ∃ env c sid e', sec.client_db.find sid = none ∧
      (@exec P env sec c).1.client_db.find sid = some e' ∧ e'.status = .completed ∧
      e'.withCert = true ∧ e'.vhost.config.cert_user_oid.isSome = true ∧ ¬ Agrees e' := by
  have hplay : ∃ e' ∈ certEntry AUTH_TYPE_GSSAPI (some ⟨false, true⟩), e'.status = .completed ∧
      e'.withCert = true ∧ e'.vhost.config.cert_user_oid.isSome = true ∧
      e'.acct_info.username ≠ e'.cert_user_name := by
    decide +kernel
  obtain ⟨e', hpost, hdone, hcert, huser, hname⟩ := hplay
  exact ⟨Platform.simple, [], certSec AUTH_TYPE_GSSAPI (some ⟨false, true⟩), .start rfl, certEnv, _,
    certSid, e', rfl, hpost, hdone, hcert, huser, fun hagrees => hname hagrees.username⟩

end Example

end SecMod
end Ocserv

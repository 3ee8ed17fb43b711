import Ocserv.Proofs.CertAccount
import Ocserv.Proofs.OidcLogin
import Ocserv.Proofs.System

/-!
# Who a worker is registered as

The name of a user passes through three buffers: that of the OpenID Connect module and
that of main's worker have `MAX_USERNAME_SIZE` bytes, that of sec-mod's entry twice as
many.  A completed entry keeps its name until the session is opened
(`completed_kept`), so the worker has the name of the entry as far as it fits, and
with it the name that the ID token gave (`Identity.registered`).  Two users are kept apart
exactly if their names differ in the part that fits (`registered_names_differ_iff`).
-/

namespace Ocserv

open Runs

/-! ## The identity behind a registration -/

section Identity

variable [Platform]

/-- The user of an ID token that the module has accepted, in bearer mode or from a
browser login, and the session that came of it. -/
inductive TokenUser (name : CStr) : OidcSt → Prop
  | bearer {v v' : OidcVctx} {jws : CStr → Jws} {now : Int} {token : CStr} {claims : Json}
      {ct : OidcSt} (hverify : v.oidc_verify_token jws now token none = (v', some ct))
      (hjws : jws token = .verified (some claims))
      (hname : v.config.user_name_claim.bind claims.get = some (.string name)) : TokenUser name ct
  | login {kd : SsoKeyData} {older : List (Transition OidcSys OidcEvent)} {token : CStr} {now : Int}
      {ct : OidcSt} (login : Login kd older token now ct) (hname : login.name = name) :
      TokenUser name ct

variable {name : CStr} {sid : Sid}

theorem TokenUser.auth_user {ct : OidcSt} (h : TokenUser name ct) :
    ct.oidc_auth_user ACCT_USERNAME_SIZE = some (strlcpy name MAX_USERNAME_SIZE) := by
  cases h with
  | bearer hverify hjws hname =>
    obtain ⟨claims, name', hjws', -, -, -, -, hname', husername, hverified⟩ :=
      verify_token_eq_some hverify
    obtain rfl : claims = _ := by simpa [hjws] using hjws'.symm
    obtain rfl : name' = name := by simpa [hname] using hname'.symm
    unfold OidcSt.oidc_auth_user
    rw [if_pos hverified, husername, strlcpy_strlcpy _ (by decide)]
  | login login hname =>
    rw [← hname]
    exact login.session

/-- The step completes the entry of `sid` for the user `name` of an ID token: the answers
of the module in it are those of this user's session. -/
def TokenConcludes (sid : Sid) (name : CStr) (t : SecMod.Trans) : Prop :=
  (∃ ct, TokenUser name ct ∧
    ∀ old, t.label.1.auth_user old = (ct.oidc_auth_user ACCT_USERNAME_SIZE).getD old) ∧
  (∀ e, t.pre.client_db.find sid = some e → e.status ≠ .completed) ∧
  ∃ e', t.post.client_db.find sid = some e' ∧ e'.status = .completed ∧ e'.amod.isSome

/-- The entry of `sid` is a completed one after the step. -/
def StaysCompleted (sid : Sid) (t : SecMod.Trans) : Prop :=
  ∃ e', t.post.client_db.find sid = some e' ∧ e'.status = .completed

/-- The identity of the user of a session: the name that sec-mod's entry holds, or the
name in the ID token for which the entry was completed. -/
inductive Identity (trace : List SecMod.Trans) (sec : SecMod) (sid : Sid) : CStr → Prop
  | entry {e : ClientEntry} (hfind : sec.client_db.find sid = some e) :
      Identity trace sec sid e.acct_info.username
  | token {name : CStr}
      (hsince : Since (fun _ t => TokenConcludes sid name t) (StaysCompleted sid) trace) :
      Identity trace sec sid name

/-- The completed entry with the name that is left of `name`. -/
def HoldsName (sid : Sid) (name : CStr) (sec : SecMod) : Prop :=
  ∃ e, sec.client_db.find sid = some e ∧ e.status = .completed ∧
    e.acct_info.username = strlcpy name MAX_USERNAME_SIZE

theorem TokenConcludes.holdsName {t : SecMod.Trans} (hstep : SecMod.Step t.pre t.label t.post)
    (h : TokenConcludes sid name t) :
    HoldsName sid name t.post := by
  obtain ⟨⟨ct, huser, hauth⟩, hpre, e', hpost, hdone, hamod⟩ := h
  have hpost' := hpost
  rw [hstep] at hpost'
  obtain ⟨e, -, -, heq⟩ := SecMod.exec_concluded hpre hpost' hdone
  refine ⟨e', hpost, hdone, ?_⟩
  generalize (check_group t.label.1 (SecMod.prompted t.label.1 e)).1 = g at heq
  have hg : g.amod.isSome := by
    have hsame := (SecMod.complete_entry_progress t.label.1 g).sameSession
    rw [heq] at hamod
    exact hsame.amod ▸ hamod
  have hname : (SecMod.complete_entry t.label.1 g).acct_info.username =
      strlcpy (t.label.1.auth_user g.acct_info.username) ACCT_USERNAME_SIZE := by
    simp [SecMod.complete_entry, hg]
  rw [heq]
  show (SecMod.complete_entry t.label.1 g).acct_info.username = _
  rw [hname, hauth, huser.auth_user, Option.getD_some, strlcpy_strlcpy _ (by decide)]

theorem Identity.registered {trace : List SecMod.Trans} {sec sec' : SecMod} {env : MainEnv}
    {vconfig : VConfig} {worker proc : Proc} (h : Identity trace sec sid name)
    (hrun : Run SecMod.Initial SecMod.Step trace sec)
    (hopen : session_open env vconfig sec worker sid = (sec', proc, 0)) :
    proc.username = strlcpy name MAX_USERNAME_SIZE := by
  obtain ⟨e, hfind, husername⟩ : ∃ e, sec.client_db.find sid = some e ∧
      proc.username = strlcpy e.acct_info.username MAX_USERNAME_SIZE := by
    rcases session_open_cases env vconfig sec worker sid with ⟨-, heq⟩ | ⟨info, hreply, heq⟩
    · simp [heq] at hopen
    · obtain ⟨e, hopened⟩ := SecMod.session_open_opened env.sec sec rfl hreply
      rw [heq] at hopen
      obtain ⟨-, rfl, -⟩ := by simpa only [Prod.mk.injEq] using hopen
      exact ⟨e, hopened.find, congrArg (strlcpy · MAX_USERNAME_SIZE) hopened.username⟩
  cases h with
  | entry hentry =>
    obtain rfl := Option.some.inj (hfind.symm.trans hentry)
    exact husername
  | token hsince =>
    have hA : ∀ trace s l s', Run SecMod.Initial SecMod.Step trace s → SecMod.Step s l s' →
        TokenConcludes sid name ⟨s, l, s'⟩ → HoldsName sid name s' :=
      fun _ s l s' _ hs hconcl => hconcl.holdsName (t := ⟨s, l, s'⟩) hs
    have hB : ∀ s l s', HoldsName sid name s → SecMod.Step s l s' →
        StaysCompleted sid ⟨s, l, s'⟩ → HoldsName sid name s' := by
      rintro s l s' ⟨e, hpre, hdone, hname⟩ hs ⟨e', hpost, hdone'⟩
      have hpost' := hpost
      rw [hs] at hpost'
      exact ⟨e', hpost, hdone', (SecMod.completed_kept hpre hdone hpost' hdone').2.trans hname⟩
    obtain ⟨e₁, hfind₁, -, hname⟩ := hrun.of_since hA hB hsince
    obtain rfl := Option.some.inj (hfind.symm.trans hfind₁)
    rw [husername, hname, strlcpy_strlcpy _ (Nat.le_refl _)]

/-- A worker that main registers for a session of a user. -/
structure Registration where
  trace : List SecMod.Trans
  sec : SecMod
  run : Run SecMod.Initial SecMod.Step trace sec
  sid : Sid
  identity : CStr
  identified : Identity trace sec sid identity
  env : MainEnv
  vconfig : VConfig
  worker : Proc
  sec' : SecMod
  proc : Proc
  opened : session_open env vconfig sec worker sid = (sec', proc, 0)

/-- The workers of two users have different names exactly if the identities differ in the
characters that fit into a user name. -/
theorem registered_names_differ_iff (r₁ r₂ : Registration) :
    r₁.proc.username ≠ r₂.proc.username ↔
      r₁.identity.take (MAX_USERNAME_SIZE - 1) ≠ r₂.identity.take (MAX_USERNAME_SIZE - 1) := by
  rw [r₁.identified.registered r₁.run r₁.opened, r₂.identified.registered r₂.run r₂.opened]
  rfl

end Identity

/-! ### Two users with long names -/

section Example

local instance identityPlatform : Platform := Platform.simple

/-- The session of the bearer of an ID token for `name`. -/
private def bearer (name : CStr) : OidcSt :=
  { username := strlcpy name MAX_USERNAME_SIZE, token_verified := true, groups := [] }

private def bearerCfg : Json := .object
  [("user_name_claim".toList, .string "sub".toList)]

private theorem bearer_user (name : CStr) : TokenUser name (bearer name) := by
  have hverify : OidcVctx.oidc_verify_token
      { config := OidcCfg.read .bearer bearerCfg, metadata := ⟨none, none, none⟩ }
      (fun _ => .verified (some (OidcDemo.claims name))) 100 [] none =
      ({ config := OidcCfg.read .bearer bearerCfg, metadata := ⟨none, none, none⟩ },
        some (bearer name)) := rfl
  exact .bearer hverify rfl rfl

/-- Sec-mod with the OpenID Connect method. -/
private def oidcSec : SecMod :=
  Sample.secFor { auth := [⟨true, AUTH_TYPE_OIDC, some ⟨true, true⟩⟩] }

private def oidcEnv (name : CStr) : SecEnv :=
  { Sample.secEnv 0 with
    auth_user := fun old => ((bearer name).oidc_auth_user ACCT_USERNAME_SIZE).getD old }

private def oidcInit : SecMod.Cmd :=
  .auth_init
    { Sample.initMsg [] "192.0.2.1".toList with user_name := none, auth_type := AUTH_TYPE_OIDC } 7

private def oidcDone (name : CStr) : SecMod := (SecMod.exec (oidcEnv name) oidcSec oidcInit).1

private def oidcWorker : Proc :=
  { id := 0, pid := 7, remote_addr := SockBuf.zero, our_addr := SockBuf.zero }

/-- Main opens the session of the bearer. -/
private def oidcOpened (name : CStr) : SecMod × Proc × Int :=
  session_open Sample.env oidcSec.vconfig (oidcDone name) oidcWorker (Sample.sid 0 0)

/-- The registration of the bearer of an ID token, when the session could be opened. -/
private def bearerRegistration (name : CStr) (hopen : (oidcOpened name).2.2 = 0)
    (hdone : ∃ e ∈ (oidcDone name).client_db.find (Sample.sid 0 0),
      e.status = .completed ∧ e.amod.isSome) : Registration where
  trace := [⟨oidcSec, (oidcEnv name, oidcInit), oidcDone name⟩]
  sec := oidcDone name
  run := .snoc (.start rfl) rfl
  sid := Sample.sid 0 0
  identity := name
  identified := by
    refine .token (.now ⟨⟨bearer name, bearer_user name, fun old => rfl⟩, fun e he => ?_, hdone⟩)
    cases he
  env := Sample.env
  vconfig := oidcSec.vconfig
  worker := oidcWorker
  sec' := (oidcOpened name).1
  proc := (oidcOpened name).2.1
  opened := Prod.ext rfl (Prod.ext rfl hopen)

/-- Two users whose names differ in the last of 64 characters are one user to main. -/
theorem registered_names_merged :
    ∃ r₁ r₂ : Registration, r₁.identity ≠ r₂.identity ∧ r₁.proc.username = r₂.proc.username :=
  ⟨bearerRegistration (List.replicate 63 'a' ++ ['1']) (by decide +kernel) (by decide +kernel),
    bearerRegistration (List.replicate 63 'a' ++ ['2']) (by decide +kernel) (by decide +kernel),
    by decide, by decide +kernel⟩

end Example
end Ocserv

import Ocserv.Lib.Coroutine
import Ocserv.Auth.Plain

/-!
# Authentication with PAM

The module of `auth/pam.c`.  The PAM library calls back for every password it needs, while sec-mod
has to go on with other work.  `co_auth_user` therefore runs in a coroutine: `ocserv_conv` gives
control back at every prompt, and `pam_auth_pass` resumes it with a password.  The field `state` of
the context is all that caller and coroutine know of each other.

The library with its modules is a parameter, a transition system `PamLib` that may ask for any
conversation at any time; it may also never return.
-/

namespace Ocserv

namespace Pam

def MAX_PASSWORD_SIZE : Nat := 64

/-- The results of the library. -/
inductive PamRet where
  | success
  | new_authtok_reqd
  | conv_err
  | error (code : Nat)
deriving DecidableEq, Repr

/-- The calls of the library in `co_auth_user`. -/
inductive Call where
  | authenticate
  | acct_mgmt
  | chauthtok
deriving DecidableEq, Repr

inductive MsgStyle where
  | error_msg
  | text_info
  | prompt_echo_off
  | prompt_echo_on
  | other
deriving DecidableEq, Repr

/-- `struct pam_message`. -/
structure PamMessage where
  msg_style : MsgStyle
  msg : Option CStr := none
deriving DecidableEq, Repr

/-- What the library does next inside a call: it returns, or it starts a conversation, whose
replies it gets unless the conversation fails. -/
inductive LibStep (σ : Type) where
  | ret (code : PamRet) (next : σ)
  | conv (msgs : List PamMessage) (next : Option (List (Option CStr)) → σ)

/-- The library and its modules, with states in `σ`. -/
structure PamLib (σ : Type) where
  enter : Call → σ → σ
  step : σ → LibStep σ

/-- `PAM_S_INIT`, `PAM_S_WAIT_FOR_PASS` and `PAM_S_COMPLETE`. -/
inductive PamState where
  | init
  | wait_for_pass
  | complete
deriving DecidableEq, Repr

/-- Where the coroutine is. -/
inductive Co (σ : Type) where
  | created (s : σ)
  /-- inside a call of the library -/
  | lib (call : Call) (s : σ)
  /-- in the loop of `ocserv_conv`, with the replies so far and the messages to come -/
  | conv (call : Call) (replies : List (Option CStr)) (msgs : List PamMessage)
      (next : Option (List (Option CStr)) → σ)
  /-- suspended in that loop, at a prompt -/
  | prompt (call : Call) (replies : List (Option CStr)) (msgs : List PamMessage)
      (next : Option (List (Option CStr)) → σ)
  /-- in the last loop of `co_auth_user` -/
  | wait

/-- What has happened in the coroutine. -/
inductive PamEvent where
  | returned (call : Call) (code : PamRet)
  | delivered (resp : Option CStr)
deriving DecidableEq, Repr

/-- `pam_st`. -/
structure PamSt (σ : Type) where
  state : PamState := .init
  cr : Co σ
  cr_ret : PamRet := .success
  password : CStr := []
  msg : CStr := []
  sent_msg : Bool := false
  changing : Bool := false
  aborted : Bool := false
  passwd_counter : Nat := 0
  prev_prompt_hash : Nat := 0
  log : List PamEvent := []

variable {σ : Type}

/-! ## The coroutine -/

/-- The end of a call in `co_auth_user`, and whether control is given back. -/
def call_returned (lib : PamLib σ) (pctx : PamSt σ) (call : Call) (code : PamRet) (s : σ) :
    PamSt σ × Bool :=
  let pctx := { pctx with log := pctx.log ++ [PamEvent.returned call code] }
  match call, code with
  | .authenticate, .success => ({ pctx with cr := .lib .acct_mgmt (lib.enter .acct_mgmt s) }, false)
  | .acct_mgmt, .new_authtok_reqd =>
    ({ pctx with changing := true, cr := .lib .chauthtok (lib.enter .chauthtok s) }, false)
  | .acct_mgmt, .success | .chauthtok, .success =>
    ({ pctx with state := .complete, cr_ret := .success, cr := .wait }, true)
  | _, code => ({ pctx with cr_ret := code, cr := .wait }, true)

/-- One message of a conversation. -/
def conv_message (pctx : PamSt σ) (call : Call) (replies : List (Option CStr)) (m : PamMessage)
    (msgs : List PamMessage) (next : Option (List (Option CStr)) → σ) : PamSt σ × Bool :=
  match m.msg_style with
  | .error_msg | .text_info =>
    ({ pctx with
        msg := pctx.msg ++ m.msg.getD [] ++ [' ']
        sent_msg := true
        cr := .conv call (replies ++ [none]) msgs next }, false)
  | .prompt_echo_off | .prompt_echo_on =>
    ({ pctx with
        msg := (if pctx.sent_msg then pctx.msg else []) ++ m.msg.getD []
        sent_msg := true
        state := .wait_for_pass
        cr_ret := .success
        cr := .prompt call replies msgs next }, true)
  | .other => ({ pctx with cr := .conv call (replies ++ [none]) msgs next }, false)

/-- What a prompt gets for a password. -/
def response (password : CStr) : Option CStr := if password = [] then none else some password

/-- One step of the coroutine, and whether control is given back. -/
def co_step (lib : PamLib σ) (pctx : PamSt σ) : PamSt σ × Bool :=
  match pctx.cr with
  | .created s =>
    ({ pctx with state := .init, cr := .lib .authenticate (lib.enter .authenticate s) }, false)
  | .lib call s =>
    match lib.step s with
    | .ret code next => call_returned lib pctx call code next
    | .conv [] next => ({ pctx with cr := .lib call (next (some [])) }, false)
    | .conv msgs next => ({ pctx with msg := [], cr := .conv call [] msgs next }, false)
  | .conv call replies [] next => ({ pctx with cr := .lib call (next (some replies)) }, false)
  | .conv call replies (m :: msgs) next => conv_message pctx call replies m msgs next
  | .prompt call replies msgs next =>
    -- the user may have gone meanwhile
    if pctx.aborted then ({ pctx with cr := .lib call (next none) }, false)
    else
      ({ pctx with
          state := .init
          sent_msg := false
          log := pctx.log ++ [PamEvent.delivered (response pctx.password)]
          cr := .conv call (replies ++ [response pctx.password]) msgs next }, false)
  | .wait => (pctx, true)

def co_call (lib : PamLib σ) (fuel : Nat) (pctx : PamSt σ) : Option (PamSt σ) :=
  Coroutine.resume (co_step lib) fuel pctx

/-! ## The module -/

/-- The context that `pam_auth_init` creates. -/
def pam_auth_init (s : σ) : PamSt σ := { cr := .created s }

/-- `passwd_msg_st`. -/
structure PasswdMsg where
  msg_str : Option CStr := none
  counter : Nat := 0
deriving DecidableEq, Repr

/-- A prompt with another hash is one for another password. -/
def note_prompt (pctx : PamSt σ) (prompt_hash : Nat) : PamSt σ :=
  { pctx with
    passwd_counter := if pctx.prev_prompt_hash ≠ prompt_hash then pctx.passwd_counter + 1
      else pctx.passwd_counter
    prev_prompt_hash := prompt_hash }

/-- The prompt for the user. -/
def prompt_msg [Platform] (pctx : PamSt σ) : PamSt σ × PasswdMsg :=
  if pctx.msg = [] then
    (note_prompt pctx 0,
      { msg_str := if pctx.changing then some "Please enter the new password.".toList else none
        counter := pctx.passwd_counter })
  else
    let msg := pctx.msg ++ ['\x00']
    (note_prompt { pctx with msg } (Platform.hash_any msg.bytes),
      { msg_str := some (Plain.c_string msg), counter := pctx.passwd_counter })

def pam_auth_msg [Platform] (lib : PamLib σ) (fuel : Nat) (pctx : PamSt σ) :
    Option (PamSt σ × Int × PasswdMsg) :=
  match pctx.state with
  | .complete => some (pctx, 0, {})
  | .wait_for_pass => some ((prompt_msg pctx).1, 0, (prompt_msg pctx).2)
  | .init =>
    (co_call lib fuel { pctx with cr_ret := .conv_err }).map fun pctx =>
      if pctx.cr_ret ≠ .success then (pctx, ERR_AUTH_FAIL, {})
      else ((prompt_msg pctx).1, 0, (prompt_msg pctx).2)

/-- Whether a password is refused before the coroutine sees it. -/
def refused_at_once (pctx : PamSt σ) (pass : Option CStr) : Bool :=
  match pass with
  | none => true
  | some pass => MAX_PASSWORD_SIZE < pass.length + 1 || pctx.state != .wait_for_pass

def pam_auth_pass (lib : PamLib σ) (fuel : Nat) (pctx : PamSt σ) (pass : Option CStr) :
    Option (PamSt σ × Int) :=
  match pass with
  | none => some (pctx, -1)
  | some pass =>
    if MAX_PASSWORD_SIZE < pass.length + 1 then some (pctx, -1)
    else if pctx.state ≠ .wait_for_pass then some (pctx, ERR_AUTH_FAIL)
    else
      (co_call lib fuel { pctx with password := pass, cr_ret := .conv_err }).map fun pctx =>
        let pctx := { pctx with password := [] }
        if pctx.cr_ret ≠ .success then (pctx, ERR_AUTH_FAIL)
        else if pctx.state ≠ .complete then (pctx, ERR_AUTH_CONTINUE)
        else (pctx, 0)

/-- The context as `pam_auth_deinit` frees it: a conversation that waits for a password is
aborted. -/
def pam_auth_deinit (lib : PamLib σ) (fuel : Nat) (pctx : PamSt σ) : Option (PamSt σ) :=
  match pctx.state with
  | .wait_for_pass => co_call lib fuel { pctx with aborted := true }
  | _ => some pctx

/-! ## Runs -/

/-- What sec-mod has called, and what it got. -/
inductive PamCall where
  | auth_msg (result : Int)
  | auth_pass (pass : Option CStr) (result : Int)
  | auth_deinit
deriving DecidableEq, Repr

/-- One call on a context, until it is freed. -/
inductive PamStep [Platform] (lib : PamLib σ) : Option (PamSt σ) → PamCall → Option (PamSt σ) → Prop
  | auth_msg {fuel : Nat} {pctx pctx' : PamSt σ} {result : Int} {pst : PasswdMsg} :
      pam_auth_msg lib fuel pctx = some (pctx', result, pst) →
        PamStep lib (some pctx) (.auth_msg result) (some pctx')
  | auth_pass {fuel : Nat} {pctx pctx' : PamSt σ} {pass : Option CStr} {result : Int} :
      pam_auth_pass lib fuel pctx pass = some (pctx', result) →
        PamStep lib (some pctx) (.auth_pass pass result) (some pctx')
  | auth_deinit {fuel : Nat} {pctx pctx' : PamSt σ} :
      pam_auth_deinit lib fuel pctx = some pctx' → PamStep lib (some pctx) .auth_deinit none

end Pam

end Ocserv

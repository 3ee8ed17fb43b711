import Ocserv.Auth.Pam
import Ocserv.Lib.Runs

/-!
# The conversation with PAM

Whenever sec-mod has control, the coroutine is suspended at one of three places: it has not been
started, it waits at a prompt, or it has come to its end; and the state of the context tells which
(`Placed`).  Along the way the results of the library are those that lead to the place.  A success
of `pam_auth_pass` is the end that is reached when all calls of the library have succeeded.
-/

namespace Ocserv

namespace Pam

open Runs

variable {σ : Type} {lib : PamLib σ} {fuel : Nat} {pctx pctx' : PamSt σ} {call : Call}
  {code : PamRet}
  {pass : CStr} {result : Int}

/-! ## The log -/

/-- The results of the library. -/
def returns (log : List PamEvent) : List (Call × PamRet) :=
  log.filterMap fun
    | .returned call code => some (call, code)
    | .delivered _ => none

/-- What the prompts have got. -/
def deliveries (log : List PamEvent) : List (Option CStr) :=
  log.filterMap fun
    | .returned _ _ => none
    | .delivered resp => some resp

@[simp] theorem returns_returned (log : List PamEvent) (call : Call) (code : PamRet) :
    returns (log ++ [.returned call code]) = returns log ++ [(call, code)] := by
  simp [returns]

@[simp] theorem returns_delivered (log : List PamEvent) (resp : Option CStr) :
    returns (log ++ [.delivered resp]) = returns log := by
  simp [returns]

@[simp] theorem deliveries_returned (log : List PamEvent) (call : Call) (code : PamRet) :
    deliveries (log ++ [.returned call code]) = deliveries log := by
  simp [deliveries]

@[simp] theorem deliveries_delivered (log : List PamEvent) (resp : Option CStr) :
    deliveries (log ++ [.delivered resp]) = deliveries log ++ [resp] := by
  simp [deliveries]

/-- The results with which a call is reached. -/
def path : Call → List (Call × PamRet)
  | .authenticate => []
  | .acct_mgmt => [(.authenticate, .success)]
  | .chauthtok => [(.authenticate, .success), (.acct_mgmt, .new_authtok_reqd)]

/-- The user and the account are accepted, if need be with a new password. -/
def Accepted (results : List (Call × PamRet)) : Prop :=
  results = [(.authenticate, .success), (.acct_mgmt, .success)] ∨
    results = [(.authenticate, .success), (.acct_mgmt, .new_authtok_reqd), (.chauthtok, .success)]

/-- A call that has failed: an account whose password has expired is not refused yet. -/
def Fails (call : Call) (code : PamRet) : Prop :=
  code ≠ .success ∧ ¬ (call = .acct_mgmt ∧ code = .new_authtok_reqd)

/-- The authentication has ended with a call that has failed. -/
def Refused (results : List (Call × PamRet)) : Prop :=
  ∃ call code, results = path call ++ [(call, code)] ∧ Fails call code

theorem not_fails_of_mem_path {call' : Call} (h : (call, code) ∈ path call') :
    ¬ Fails call code := by
  cases call' <;> simp [path, Fails] at h ⊢ <;> grind

theorem Accepted.not_fails {results : List (Call × PamRet)} (h : Accepted results)
    (hmem : (call, code) ∈ results) : ¬ Fails call code := by
  rcases h with rfl | rfl <;> simp [Fails] at hmem ⊢ <;> grind

/-! ## Where the coroutine is -/

/-- The state of the context, and the results of the library, at each place of the coroutine. -/
def Placed (pctx : PamSt σ) : Prop :=
  pctx.aborted = false ∧
    match pctx.cr with
    | .created _ => pctx.state = .init ∧ returns pctx.log = []
    | .lib call _ | .conv call _ _ _ => pctx.state = .init ∧ returns pctx.log = path call
    | .prompt call _ _ _ => pctx.state = .wait_for_pass ∧ returns pctx.log = path call
    | .wait => (pctx.state = .complete ∧ Accepted (returns pctx.log)) ∨
        (pctx.state = .init ∧ Refused (returns pctx.log))

variable {s : σ} {pass : Option CStr}

theorem call_returned_of_fails (h : Fails call code) :
    call_returned lib pctx call code s =
      ({ pctx with
          log := pctx.log ++ [.returned call code]
          cr_ret := code
          cr := .wait }, true) := by
  obtain ⟨hne, hacct⟩ := h
  cases call <;> cases code <;>
    first
    | rfl
    | exact absurd rfl hne
    | exact absurd ⟨rfl, rfl⟩ hacct

theorem log_call_returned :
    (call_returned lib pctx call code s).1.log = pctx.log ++ [.returned call code] := by
  cases call <;> cases code <;> rfl

theorem placed_call_returned (haborted : pctx.aborted = false) (hstate : pctx.state = .init)
    (hpath : returns pctx.log = path call) :
    Placed (call_returned lib pctx call code s).1 := by
  by_cases hfails : Fails call code
  · rw [call_returned_of_fails hfails]
    exact ⟨haborted, .inr ⟨hstate, call, code, by rw [returns_returned, hpath], hfails⟩⟩
  · have hlog :
        returns (call_returned lib pctx call code s).1.log = path call ++ [(call, code)] := by
      rw [log_call_returned, returns_returned, hpath]
    cases call with
    | authenticate =>
      obtain rfl : code = .success := by simpa [Fails] using hfails
      exact ⟨haborted, hstate, hlog⟩
    | acct_mgmt =>
      by_cases hcode : code = .success
      · subst hcode
        exact ⟨haborted, .inl ⟨rfl, .inl hlog⟩⟩
      · obtain rfl : code = .new_authtok_reqd := by simpa [Fails, hcode] using hfails
        exact ⟨haborted, hstate, hlog⟩
    | chauthtok =>
      obtain rfl : code = .success := by simpa [Fails] using hfails
      exact ⟨haborted, .inl ⟨rfl, .inr hlog⟩⟩

theorem Placed.step (h : Placed pctx) : Placed (co_step lib pctx).1 := by
  obtain ⟨haborted, hplace⟩ := h
  cases hcr : pctx.cr with
  | created s =>
    rw [hcr] at hplace
    simp only [co_step, hcr]
    exact ⟨haborted, rfl, hplace.2⟩
  | lib call s =>
    rw [hcr] at hplace
    cases hstep : lib.step s with
    | ret code next =>
      simp only [co_step, hcr, hstep]
      exact placed_call_returned haborted hplace.1 hplace.2
    | conv msgs next =>
      cases msgs with
      | nil =>
        simp only [co_step, hcr, hstep]
        exact ⟨haborted, hplace⟩
      | cons m msgs =>
        simp only [co_step, hcr, hstep]
        exact ⟨haborted, hplace⟩
  | conv call replies msgs next =>
    rw [hcr] at hplace
    cases msgs with
    | nil =>
      simp only [co_step, hcr]
      exact ⟨haborted, hplace⟩
    | cons m msgs =>
      simp only [co_step, hcr, conv_message]
      cases m.msg_style with
      | error_msg | text_info | other => exact ⟨haborted, hplace⟩
      | prompt_echo_off | prompt_echo_on => exact ⟨haborted, rfl, hplace.2⟩
  | prompt call replies msgs next =>
    rw [hcr] at hplace
    simp only [co_step, hcr, haborted, Bool.false_eq_true, if_false]
    exact ⟨rfl, rfl, by rw [returns_delivered]; exact hplace.2⟩
  | wait =>
    rw [hcr] at hplace
    simp only [co_step, hcr]
    exact ⟨haborted, by rw [hcr]; exact hplace⟩

/-- The coroutine is not at a prompt. -/
def Running (pctx : PamSt σ) : Prop :=
  match pctx.cr with
  | .prompt _ _ _ _ => False
  | _ => True

/-- Between two prompts nothing is delivered, and control is given back at the next one. -/
theorem Running.step (h : Running pctx) :
    deliveries (co_step lib pctx).1.log = deliveries pctx.log ∧
      ((co_step lib pctx).2 = false → Running (co_step lib pctx).1) := by
  cases hcr : pctx.cr with
  | prompt call replies msgs next => simp [Running, hcr] at h
  | created s => simp [co_step, hcr, Running]
  | wait => simp [co_step, hcr]
  | lib call s =>
    cases hstep : lib.step s with
    | ret code next =>
      simp only [co_step, hcr, hstep]
      refine ⟨by rw [log_call_returned, deliveries_returned], ?_⟩
      cases call <;> cases code <;> simp [call_returned, Running]
    | conv msgs next =>
      cases msgs with
      | nil => simp [co_step, hcr, hstep, Running]
      | cons m msgs => simp [co_step, hcr, hstep, Running]
  | conv call replies msgs next =>
    cases msgs with
    | nil => simp [co_step, hcr, Running]
    | cons m msgs =>
      cases hstyle : m.msg_style <;> simp [co_step, hcr, conv_message, hstyle, Running]

/-! ## Resuming the coroutine -/

theorem Placed.co_call (h : Placed pctx) (hcall : co_call lib fuel pctx = some pctx') :
    Placed pctx' :=
  Coroutine.resume_rule Placed Placed (fun _ hs _ => hs.step) (fun _ hs _ => hs.step) h hcall

/-- The coroutine waits at a prompt when the context says so. -/
theorem Placed.prompt_of_wait (h : Placed pctx) (hstate : pctx.state = .wait_for_pass) :
    ∃ call replies msgs next, pctx.cr = .prompt call replies msgs next := by
  obtain ⟨-, hplace⟩ := h
  cases hcr : pctx.cr with
  | prompt call replies msgs next => exact ⟨call, replies, msgs, next, rfl⟩
  | created s | lib call s | conv call replies msgs next =>
    rw [hcr, hstate] at hplace
    exact absurd hplace.1 (by decide)
  | wait =>
    rw [hcr, hstate] at hplace
    rcases hplace with ⟨hcomplete, -⟩ | ⟨hinit, -⟩
    · exact absurd hcomplete (by decide)
    · exact absurd hinit (by decide)

theorem Running.co_call (h : Running pctx) (hcall : co_call lib fuel pctx = some pctx') :
    deliveries pctx'.log = deliveries pctx.log :=
  Coroutine.resume_rule (fun s => Running s ∧ deliveries s.log = deliveries pctx.log)
    (fun s => deliveries s.log = deliveries pctx.log)
    (fun _ hs hback => ⟨hs.1.step.2 hback, hs.1.step.1.trans hs.2⟩)
    (fun _ hs _ => hs.1.step.1.trans hs.2) ⟨h, rfl⟩ hcall

/-- Resumed at a prompt, the coroutine delivers the password to that prompt and nothing more. -/
theorem deliveries_co_call {call : Call} {replies : List (Option CStr)} {msgs : List PamMessage}
    {next : Option (List (Option CStr)) → σ} (hcr : pctx.cr = .prompt call replies msgs next)
    (haborted : pctx.aborted = false) (hcall : co_call lib fuel pctx = some pctx') :
    deliveries pctx'.log = deliveries pctx.log ++ [response pctx.password] := by
  have hstep : co_step lib pctx =
      ({ pctx with
          state := .init
          sent_msg := false
          log := pctx.log ++ [.delivered (response pctx.password)]
          cr := .conv call (replies ++ [response pctx.password]) msgs next }, false) := by
    simp only [co_step, hcr, haborted, Bool.false_eq_true, if_false]
  obtain ⟨fuel', hrest⟩ := Coroutine.resume_of_step (by rw [hstep]) hcall
  have hrunning : Running (co_step lib pctx).1 := by
    rw [hstep]
    trivial
  rw [hrunning.co_call hrest, hstep]
  exact deliveries_delivered _ _

/-! ## The calls of sec-mod -/

section Calls

variable [Platform]

theorem prompt_msg_same (pctx : PamSt σ) :
    (prompt_msg pctx).1.cr = pctx.cr ∧ (prompt_msg pctx).1.state = pctx.state ∧
      (prompt_msg pctx).1.aborted = pctx.aborted ∧ (prompt_msg pctx).1.log = pctx.log := by
  by_cases hmsg : pctx.msg = []
  · rw [prompt_msg, if_pos hmsg]
    exact ⟨rfl, rfl, rfl, rfl⟩
  · rw [prompt_msg, if_neg hmsg]
    exact ⟨rfl, rfl, rfl, rfl⟩

theorem Placed.prompt_msg (h : Placed pctx) : Placed (prompt_msg pctx).1 := by
  obtain ⟨hcr, hstate, haborted, hlog⟩ := prompt_msg_same pctx
  rw [Placed, hcr, hstate, haborted, hlog]
  exact h

/-- What a call of `pam_auth_msg` can do. -/
inductive MsgStep (lib : PamLib σ) (fuel : Nat) (pctx : PamSt σ) : PamSt σ → Int → Prop
  | complete (hstate : pctx.state = .complete) : MsgStep lib fuel pctx pctx 0
  | waiting (hstate : pctx.state = .wait_for_pass) :
      MsgStep lib fuel pctx (Pam.prompt_msg pctx).1 0
  | refused (hstate : pctx.state = .init) {pctx' : PamSt σ}
      (hcall : Pam.co_call lib fuel { pctx with cr_ret := .conv_err } = some pctx')
      (hret : pctx'.cr_ret ≠ .success) : MsgStep lib fuel pctx pctx' ERR_AUTH_FAIL
  | prompted (hstate : pctx.state = .init) {pctx' : PamSt σ}
      (hcall : Pam.co_call lib fuel { pctx with cr_ret := .conv_err } = some pctx')
      (hret : pctx'.cr_ret = .success) : MsgStep lib fuel pctx (Pam.prompt_msg pctx').1 0

theorem msgStep {pst : PasswdMsg} (h : pam_auth_msg lib fuel pctx = some (pctx', result, pst)) :
    MsgStep lib fuel pctx pctx' result := by
  unfold pam_auth_msg at h
  split at h
  · next hstate =>
    cases h
    exact .complete hstate
  · next hstate =>
    cases h
    exact .waiting hstate
  · next hstate =>
    obtain ⟨pctx₁, hcall, heq⟩ := Option.map_eq_some_iff.1 h
    by_cases hret : pctx₁.cr_ret = .success
    · rw [if_neg (not_not.2 hret)] at heq
      cases heq
      exact .prompted hstate hcall hret
    · rw [if_pos hret] at heq
      cases heq
      exact .refused hstate hcall hret

theorem MsgStep.placed (hstep : MsgStep lib fuel pctx pctx' result) (h : Placed pctx) :
    Placed pctx' := by
  have hresumed : Placed { pctx with cr_ret := .conv_err } := h
  cases hstep with
  | complete hstate => exact h
  | waiting hstate => exact h.prompt_msg
  | refused hstate hcall hret => exact hresumed.co_call hcall
  | prompted hstate hcall hret => exact (hresumed.co_call hcall).prompt_msg

end Calls

/-- What a call of `pam_auth_pass` can do. -/
inductive PassStep (lib : PamLib σ) (fuel : Nat) (pctx : PamSt σ) (pass : Option CStr) :
    PamSt σ → Int → Prop
  | at_once (hrefused : refused_at_once pctx pass) {result : Int} (hneg : result < 0) :
      PassStep lib fuel pctx pass pctx result
  | resumed {password : CStr} (hpass : pass = some password)
      (hstate : pctx.state = .wait_for_pass) {pctx' : PamSt σ}
      (hcall : Pam.co_call lib fuel { pctx with password, cr_ret := .conv_err } = some pctx')
      {result : Int} (hresult : result = 0 → pctx'.state = .complete) :
      PassStep lib fuel pctx pass { pctx' with password := [] } result

theorem passStep (h : pam_auth_pass lib fuel pctx pass = some (pctx', result)) :
    PassStep lib fuel pctx pass pctx' result := by
  cases pass with
  | none =>
    cases h
    exact .at_once rfl (by decide)
  | some password =>
    rw [pam_auth_pass] at h
    dsimp only at h
    split at h
    · next hlong =>
      cases h
      exact .at_once (by simp [refused_at_once, hlong]) (by decide)
    · split at h
      · next hstate =>
        cases h
        exact .at_once (by simp [refused_at_once, hstate]) (by decide)
      · next hstate =>
        obtain ⟨pctx₁, hcall, heq⟩ := Option.map_eq_some_iff.1 h
        have hwait : pctx.state = .wait_for_pass := not_not.1 hstate
        split at heq
        · cases heq
          exact .resumed rfl hwait hcall (fun hzero => absurd hzero (by decide))
        · split at heq
          · cases heq
            exact .resumed rfl hwait hcall (fun hzero => absurd hzero (by decide))
          · next hcomplete =>
            cases heq
            exact .resumed rfl hwait hcall (fun _ => not_not.1 hcomplete)

theorem PassStep.placed (hstep : PassStep lib fuel pctx pass pctx' result) (h : Placed pctx) :
    Placed pctx' := by
  cases hstep with
  | at_once hrefused hneg => exact h
  | @resumed password hpass hstate pctx₁ hcall result hresult =>
    have hready : Placed { pctx with password, cr_ret := .conv_err } := h
    have hplaced : Placed pctx₁ := hready.co_call hcall
    exact hplaced

/-- The context is complete when the library has accepted the user. -/
theorem Placed.accepted_of_complete (h : Placed pctx) (hstate : pctx.state = .complete) :
    Accepted (returns pctx.log) := by
  obtain ⟨-, hplace⟩ := h
  cases hcr : pctx.cr with
  | created s | lib call s | conv call replies msgs next | prompt call replies msgs next =>
    rw [hcr, hstate] at hplace
    exact absurd hplace.1 (by decide)
  | wait =>
    rw [hcr, hstate] at hplace
    rcases hplace with ⟨-, haccepted⟩ | ⟨hinit, -⟩
    · exact haccepted
    · exact absurd hinit (by decide)

theorem PassStep.accepted (hstep : PassStep lib fuel pctx pass pctx' result) (h : Placed pctx)
    (hzero : result = 0) : Accepted (returns pctx'.log) := by
  have hplaced' := hstep.placed h
  cases hstep with
  | at_once hrefused hneg => omega
  | resumed hpass hstate hcall hresult => exact hplaced'.accepted_of_complete (hresult hzero)

theorem PassStep.deliveries {password : CStr}
    (hstep : PassStep lib fuel pctx (some password) pctx' result) (h : Placed pctx)
    (hresumed : refused_at_once pctx (some password) = false) :
    deliveries pctx'.log = deliveries pctx.log ++ [response password] := by
  cases hstep with
  | at_once hrefused hneg => exact absurd (hresumed.symm.trans hrefused) (by decide)
  | @resumed pass hpass hstate pctx₁ hcall result hresult =>
    cases hpass
    obtain ⟨call, replies, msgs, next, hcr⟩ := h.prompt_of_wait hstate
    have hready : ({ pctx with password, cr_ret := .conv_err } : PamSt σ).cr =
        .prompt call replies msgs next := hcr
    have hdelivered := deliveries_co_call hready h.1 hcall
    exact hdelivered

/-! ## Runs -/

section Reached

variable [Platform]

/-- A context that has not been freed is placed. -/
def AllPlaced (c : Option (PamSt σ)) : Prop := ∀ pctx ∈ c, Placed pctx

theorem placed_of_reachable {s : σ}
    (h : Reachable (· = some (pam_auth_init s)) (PamStep lib) (some pctx)) : Placed pctx := by
  have hall : AllPlaced (some pctx) := by
    refine h.invariant ?_ ?_
    · rintro _ rfl pctx' hmem
      cases hmem
      exact ⟨rfl, rfl, rfl⟩
    · intro c label c' hc hstep pctx' hmem
      cases hstep with
      | auth_msg hmsg =>
        cases hmem
        exact (msgStep hmsg).placed (hc _ rfl)
      | auth_pass hpass =>
        cases hmem
        exact (passStep hpass).placed (hc _ rfl)
      | auth_deinit hdeinit => cases hmem
  exact hall pctx rfl

omit [Platform] in
/-- When a call of the library has failed, the coroutine has come to its end. -/
theorem Placed.wait_of_fails (h : Placed pctx) (hmem : (call, code) ∈ returns pctx.log)
    (hfails : Fails call code) : pctx.cr = .wait ∧ pctx.state = .init := by
  obtain ⟨-, hplace⟩ := h
  cases hcr : pctx.cr with
  | created s =>
    rw [hcr] at hplace
    rw [hplace.2] at hmem
    cases hmem
  | lib call' s | conv call' replies msgs next | prompt call' replies msgs next =>
    rw [hcr] at hplace
    rw [hplace.2] at hmem
    exact absurd hfails (not_fails_of_mem_path hmem)
  | wait =>
    rw [hcr] at hplace
    rcases hplace with ⟨-, haccepted⟩ | ⟨hinit, -⟩
    · exact absurd hfails (haccepted.not_fails hmem)
    · exact ⟨rfl, hinit⟩

omit [Platform] in
/-- Resumed at its end, the coroutine gives control back at once. -/
theorem co_call_of_wait (hcr : pctx.cr = .wait) (h : co_call lib fuel pctx = some pctx') :
    pctx' = pctx := by
  cases fuel with
  | zero => cases h
  | succ fuel =>
    rw [co_call, Coroutine.resume, co_step, hcr] at h
    exact (Option.some.inj h).symm

/-- After a failure of the library the context is of no use. -/
theorem Placed.final (h : Placed pctx) (hmem : (call, code) ∈ returns pctx.log)
    (hfails : Fails call code) :
    (∀ pass pctx' result, pam_auth_pass lib fuel pctx pass = some (pctx', result) →
        result ≠ 0) ∧
      ∀ pctx' result pst, pam_auth_msg lib fuel pctx = some (pctx', result, pst) → result ≠ 0 := by
  obtain ⟨hcr, hstate⟩ := h.wait_of_fails hmem hfails
  constructor
  · intro pass pctx' result hpass
    cases passStep hpass with
    | at_once hrefused hneg => exact Int.ne_of_lt hneg
    | resumed hpass hwait hcall hresult => exact absurd (hstate.symm.trans hwait) (by decide)
  · intro pctx' result pst hmsg
    cases msgStep hmsg with
    | complete hcomplete => exact absurd (hstate.symm.trans hcomplete) (by decide)
    | waiting hwait => exact absurd (hstate.symm.trans hwait) (by decide)
    | refused hinit hcall hret => decide
    | prompted hinit hcall hret =>
      have hend : ({ pctx with cr_ret := .conv_err } : PamSt σ).cr = .wait := hcr
      rw [co_call_of_wait hend hcall] at hret
      exact PamRet.noConfusion hret

/-- The prompt for the user delivers nothing. -/
theorem MsgStep.deliveries (hstep : MsgStep lib fuel pctx pctx' result) (h : Placed pctx) :
    deliveries pctx'.log = deliveries pctx.log := by
  have hrunning : pctx.state = .init → Running { pctx with cr_ret := .conv_err } := by
    intro hstate
    cases hcr : pctx.cr with
    | prompt call replies msgs next =>
      have hplace := h.2
      rw [hcr, hstate] at hplace
      exact absurd hplace.1 (by decide)
    | _ => simp [Running]
  cases hstep with
  | complete hstate => rfl
  | waiting hstate => rw [(prompt_msg_same pctx).2.2.2]
  | refused hstate hcall hret => exact (hrunning hstate).co_call hcall
  | @prompted hstate pctx₁ hcall hret =>
    rw [(prompt_msg_same pctx₁).2.2.2]
    exact (hrunning hstate).co_call hcall

/-- The conversation: success needs the consent of the library, a refusal is final, and every
password that gets to the coroutine is delivered to one prompt. -/
theorem pam_conversation {s : σ}
    (h : Reachable (· = some (pam_auth_init s)) (PamStep lib) (some pctx)) (fuel : Nat) :
    (∀ pass pctx', pam_auth_pass lib fuel pctx pass = some (pctx', 0) →
      Accepted (returns pctx'.log)) ∧
    ((∃ call code, (call, code) ∈ returns pctx.log ∧ Fails call code) →
      (∀ pass pctx' result, pam_auth_pass lib fuel pctx pass = some (pctx', result) →
        result ≠ 0) ∧
      ∀ pctx' result pst, pam_auth_msg lib fuel pctx = some (pctx', result, pst) → result ≠ 0) ∧
    (∀ pass pctx' result, pam_auth_pass lib fuel pctx (some pass) = some (pctx', result) →
      refused_at_once pctx (some pass) = false →
        deliveries pctx'.log = deliveries pctx.log ++ [response pass]) ∧
    ∀ pctx' result pst, pam_auth_msg lib fuel pctx = some (pctx', result, pst) →
      deliveries pctx'.log = deliveries pctx.log := by
  have hplaced := placed_of_reachable h
  refine ⟨fun pass pctx' hpass => (passStep hpass).accepted hplaced rfl, ?_,
    fun pass pctx' result hpass => (passStep hpass).deliveries hplaced,
    fun pctx' result pst hmsg => (msgStep hmsg).deliveries hplaced⟩
  rintro ⟨call, code, hmem, hfails⟩
  exact hplaced.final hmem hfails

end Reached

/-! ## One password -/

section Example

local instance pamPlatform : Platform := Platform.simple

/-- The states of a library that asks for one password. -/
private inductive Asking where
  | ask
  | got (accepted : Bool)
deriving DecidableEq

private def askingLib : PamLib Asking where
  enter call s := if call = .authenticate then .ask else s
  step
    | .ask => .conv [⟨.prompt_echo_off, none⟩] fun replies =>
      .got (replies == some [some "secret".toList])
    | .got accepted => .ret (if accepted then .success else .error 7) (.got accepted)

/-- The context when the password has been asked for. -/
private def asked : PamSt Asking where
  state := .wait_for_pass
  cr := .prompt .authenticate [] [] fun replies => .got (replies == some [some "secret".toList])
  sent_msg := true

/-- The password is accepted, and the library has accepted the user and the account. -/
theorem pam_conversation_accepted : ∃ pctx',
    pam_auth_msg askingLib 9 (pam_auth_init .ask) = some (asked, 0, {}) ∧
      pam_auth_pass askingLib 9 asked (some "secret".toList) = some (pctx', 0) ∧
      Accepted (returns pctx'.log) := by
  have hmsg : pam_auth_msg askingLib 9 (pam_auth_init .ask) = some (asked, 0, {}) := rfl
  have hreach : Reachable (· = some (pam_auth_init .ask)) (PamStep askingLib) (some asked) :=
    ⟨_, .snoc (.start rfl) (.auth_msg hmsg)⟩
  have hpass : ∃ pctx', pam_auth_pass askingLib 9 asked (some "secret".toList) = some (pctx', 0) :=
    ⟨_, rfl⟩
  obtain ⟨pctx', hpass⟩ := hpass
  exact ⟨pctx', hmsg, hpass, (pam_conversation hreach 9).1 _ pctx' hpass⟩

end Example

end Pam

end Ocserv

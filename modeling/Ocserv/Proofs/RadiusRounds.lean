import Ocserv.Auth.Radius

/-!
# The rounds of a RADIUS login

`radius_auth_pass` asks for another password when the server rejects one and when it challenges
the client.  `retries` counts the rejections; `passwd_counter` counts the prompts of the
challenges, and after `MAX_CHALLENGES` of them a challenge is refused.  A prompt is counted only if
it differs from the last one, so each round uses up one of the two counters (`budget`), or it
repeats a prompt.
-/

namespace Ocserv

namespace Radius

section Rounds

variable [Platform] [NetText]

/-- The calls of `radius_auth_pass` in one authentication, each with its context: as long as a
call asks for another password, the next prompt is made and the next password is submitted. -/
def passes (pctx : RadiusSt) : List Reply → List (RadiusSt × Reply)
  | [] => []
  | reply :: replies =>
    let r := radius_auth_pass pctx reply
    (pctx, reply) ::
      if r.2 = ERR_AUTH_CONTINUE then passes (radius_auth_msg r.1).1 replies else []

/-- The client is asked to continue. -/
def asks (call : RadiusSt × Reply) : Bool :=
  (radius_auth_pass call.1 call.2).2 = ERR_AUTH_CONTINUE

omit [NetText] in
/-- A challenge with the prompt of the last one, as far as their hashes tell. -/
def repeats (call : RadiusSt × Reply) : Bool :=
  call.2.code = .challenge && call.1.prev_prompt_hash = Platform.hash_any call.2.msg.bytes

/-- The rejections and the prompts that are left. -/
def budget (pctx : RadiusSt) : Nat :=
  (MAX_PASSWORD_TRIES - 1 - pctx.retries) + (MAX_CHALLENGES - pctx.passwd_counter)

variable {pctx pctx' : RadiusSt} {reply : Reply}

/-! ## One round -/

/-- How a call comes to ask for another password. -/
inductive Asked (pctx : RadiusSt) (reply : Reply) (pctx' : RadiusSt) : Prop
  | rejected (hretries : pctx.retries < MAX_PASSWORD_TRIES - 1) (hstate : pctx'.state = none)
      (hretries' : pctx'.retries = pctx.retries + 1)
      (hcounter : pctx'.passwd_counter = pctx.passwd_counter)
  | challenged (hcode : reply.code = .challenge) (hcounter : pctx.passwd_counter < MAX_CHALLENGES)
      (hstate : pctx'.state ≠ none) (hmsg : pctx'.pass_msg = reply.msg)
      (hretries : pctx'.retries = pctx.retries)
      (hcounter' : pctx'.passwd_counter = pctx.passwd_counter)
      (hprompt : pctx'.prev_prompt_hash = pctx.prev_prompt_hash)

omit [Platform] [NetText] in
theorem asked_of_auth_failed {failed : RadiusSt} (hretries : failed.retries = pctx.retries)
    (hcounter : failed.passwd_counter = pctx.passwd_counter) (hstate : failed.state = none)
    (h : (auth_failed failed).2 = ERR_AUTH_CONTINUE) :
    Asked pctx reply (auth_failed failed).1 := by
  have hleft : failed.retries < MAX_PASSWORD_TRIES - 1 := by
    by_contra hover
    have hfail : (auth_failed failed).2 = ERR_AUTH_FAIL := if_neg fun hleft => hover hleft.1
    exact absurd (h.symm.trans hfail) (by decide)
  have hsum : (failed.retries + 1) % 4294967296 = pctx.retries + 1 := by
    unfold MAX_PASSWORD_TRIES at hleft
    omega
  exact .rejected (hretries ▸ hleft) hstate hsum hcounter

omit [Platform] [NetText] in
/-- The attributes of a challenge change the state only. -/
theorem foldl_challenge_attr (recvd : List ValuePair) (pctx : RadiusSt) :
    ∃ state id, recvd.foldl challenge_attr pctx = { pctx with state, id } := by
  induction recvd generalizing pctx with
  | nil => exact ⟨pctx.state, pctx.id, rfl⟩
  | cons vp recvd ih =>
    obtain ⟨state, id, hrest⟩ := ih (challenge_attr pctx vp)
    refine ⟨state, id, ?_⟩
    rw [List.foldl_cons, hrest]
    unfold challenge_attr
    split <;> rfl

omit [Platform] in
theorem asked_of_continue (h : (radius_auth_pass pctx reply).2 = ERR_AUTH_CONTINUE) :
    Asked pctx reply (radius_auth_pass pctx reply).1 := by
  unfold radius_auth_pass at h ⊢
  cases hbuilt : reply.built with
  | false => simp [hbuilt, ERR_AUTH_FAIL, ERR_AUTH_CONTINUE] at h
  | true =>
    simp only [hbuilt, if_true] at h ⊢
    cases hcode : reply.code with
    | ok =>
      simp only [hcode] at h ⊢
      split at h
      next => exact absurd h (show (0 : Int) ≠ ERR_AUTH_CONTINUE by decide)
      next hrefused =>
        rw [if_neg hrefused]
        exact asked_of_auth_failed rfl rfl rfl h
    | challenge =>
      simp only [hcode, auth_challenged] at h ⊢
      obtain ⟨state, id, hfold⟩ :=
        foldl_challenge_attr reply.recvd { pctx with state := none, pass_msg := reply.msg }
      rw [hfold] at h ⊢
      split at h
      next => exact absurd h (show ERR_AUTH_FAIL ≠ ERR_AUTH_CONTINUE by decide)
      next hgood =>
        rw [if_neg hgood]
        simp only [not_or, Nat.not_le] at hgood
        exact .challenged hcode hgood.2.2 hgood.2.1 rfl rfl rfl rfl
    | other code =>
      simp only [hcode] at h ⊢
      exact asked_of_auth_failed rfl rfl rfl h

/-- A round that asks for another password uses up a part of the budget, or repeats the prompt. -/
theorem budget_round (h : (radius_auth_pass pctx reply).2 = ERR_AUTH_CONTINUE) :
    budget (radius_auth_msg (radius_auth_pass pctx reply).1).1 + 1 ≤
      budget pctx + (if repeats (pctx, reply) then 1 else 0) := by
  generalize hnext : (radius_auth_pass pctx reply).1 = next
  have hasked : Asked pctx reply next := hnext ▸ asked_of_continue h
  cases hasked with
  | rejected hretries hstate hretries' hcounter =>
    have hmsg : (radius_auth_msg next).1 = next := by simp only [radius_auth_msg, hstate]
    rw [hmsg, budget, budget, hretries', hcounter]
    omega
  | challenged hcode hcounter hstate hmsg hretries hcounter' hprompt =>
    obtain ⟨state, hsome⟩ := Option.ne_none_iff_exists'.1 hstate
    unfold MAX_CHALLENGES at hcounter
    simp only [radius_auth_msg, hsome, budget, repeats, hcode, hmsg, hretries, hcounter', hprompt,
      MAX_CHALLENGES, decide_true, Bool.true_and, decide_eq_true_eq]
    split <;> omega

/-! ## A login -/

/-- However the server answers, the client is not asked more often than the budget allows and
prompts are repeated. -/
theorem countP_asks_le (pctx : RadiusSt) (replies : List Reply) :
    (passes pctx replies).countP asks ≤ budget pctx + (passes pctx replies).countP repeats := by
  induction replies generalizing pctx with
  | nil => simp [passes]
  | cons reply replies ih =>
    unfold passes
    simp only [List.countP_cons]
    by_cases h : (radius_auth_pass pctx reply).2 = ERR_AUTH_CONTINUE
    · have hround := budget_round h
      have hrest := ih (radius_auth_msg (radius_auth_pass pctx reply).1).1
      have hasks : asks (pctx, reply) := decide_eq_true h
      rw [if_pos h, if_pos hasks]
      omega
    · have hasks : ¬ asks (pctx, reply) := by simpa [asks] using h
      rw [if_neg h, if_neg hasks, List.countP_nil]
      omega

/-- When no challenge repeats the prompt of the one before it, the number of rounds is bounded by
the two limits. -/
theorem radius_rounds_le {username : CStr} {id : Nat} {group_separator : CStr} {pctx : RadiusSt}
    (hinit : radius_auth_init username id group_separator = some pctx) (replies : List Reply)
    (hnew : ∀ call ∈ passes pctx replies, repeats call = false) :
    (passes pctx replies).countP asks ≤ MAX_CHALLENGES + MAX_PASSWORD_TRIES := by
  have hrepeats : (passes pctx replies).countP repeats = 0 := by
    rw [List.countP_eq_zero]
    intro call hcall
    rw [hnew call hcall]
    exact Bool.false_ne_true
  have hbudget : budget pctx ≤ MAX_CHALLENGES + MAX_PASSWORD_TRIES := by
    obtain rfl : { id, group_separator } = pctx :=
      Option.some.inj (Option.ite_none_left_eq_some.1 hinit).2
    show MAX_PASSWORD_TRIES - 1 - 0 + (MAX_CHALLENGES - 0) ≤ MAX_CHALLENGES + MAX_PASSWORD_TRIES
    omega
  have hle := countP_asks_le pctx replies
  omega

end Rounds

/-! ## An example -/

section Example

/-- A hash that tells prompts of different lengths apart. -/
local instance radiusPlatform : Platform :=
  { Platform.simple with hash_any := fun bytes => bytes.length }

local instance radiusNetText : NetText := NetText.simple

/-- A challenge with a state. -/
def challenge (msg : CStr) : Reply where
  code := .challenge
  recvd := [{ attr := .state, type := .string, lvalue := 1, strvalue := [1] }]
  msg

/-- Two challenges and an accepted password. -/
theorem radius_rounds_le_two :
    (passes { id := 7 } [challenge "PIN".toList, challenge "Token".toList, { code := .ok }]).countP
      asks ≤ MAX_CHALLENGES + MAX_PASSWORD_TRIES :=
  radius_rounds_le (show radius_auth_init ['u'] 7 [';'] = some _ from rfl) _ (by decide +kernel)

/-- A server that asks the same question over and over is always answered. -/
theorem radius_rounds_repeated :
    ∃ pctx, radius_auth_init ['u'] 7 [';'] = some pctx ∧
      ¬ (passes pctx (List.replicate 20 (challenge "PIN".toList))).countP asks ≤
        MAX_CHALLENGES + MAX_PASSWORD_TRIES :=
  ⟨_, rfl, by decide +kernel⟩

end Example

end Radius

end Ocserv

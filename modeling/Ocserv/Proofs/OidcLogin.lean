import Ocserv.Proofs.OidcTables

/-!
# The integrity of a browser login

A session that a login token opens goes back to one callback and to one request: the
token was issued by that callback, for the user of an ID token that is valid for the
nonce of that request (`ValidIdToken`), and the request was created by an earlier start.
Nothing here needs the tags to be unforgeable: what counts is that a value is found in a
table, and only the calls of this module put values there.

One-time use is the same argument for both tables.  Once an entry has been taken, its
sealed value is `Spent`: it has been drawn, so it is never drawn again, and no entry
carries it.

The name of the user is copied into a buffer of `MAX_USERNAME_SIZE` bytes, so the session
has the name of the token exactly if that name fits (`oidc_login_integrity`).
-/

namespace Ocserv

open HTable List OidcVctx Option Runs

/-! ## Valid ID tokens -/

/-- What an ID token of the code flow has to say at a time: it is within its lifetime, has
the required claims, comes from the provider, is meant for this client and was issued to
it, and answers the request with this nonce. -/
structure ValidIdToken (cfg : OidcCfg) (issuer : Option CStr) (now : Int) (nonce : CStr)
    (claims : Json) : Prop where
  not_before : ∀ j, claims.get "nbf".toList = some j → ∃ n, j = .integer n ∧ n ≤ now
  unexpired : ∃ n, claims.get "exp".toList = some (.integer n) ∧ n ≠ 0 ∧ now ≤ n
  issued : ∃ n, claims.get "iat".toList = some (.integer n) ∧ n ≠ 0
  required : ∀ r ∈ cfg.required_claims,
    ∃ j, claims.get r.1 = some j ∧ r.2.equal j
  issuer : ∃ iss, issuer = some iss ∧ claims.get "iss".toList = some (.string iss)
  audience : ∃ id, cfg.client_id = some id ∧
    (claims.get "aud".toList = some (.string id) ∨
      ∃ items, claims.get "aud".toList = some (.array items) ∧ .string id ∈ items ∧
        (1 < items.length → (claims.get "azp".toList).isSome))
  authorized : ∀ j, claims.get "azp".toList = some j → cfg.client_id.map .string = some j
  nonce : claims.get "nonce".toList = some (.string nonce)

theorem Json.string_value_eq_some {j : Json} {s : CStr} :
    j.string_value = some s ↔ j = .string s := by
  cases j <;> simp [Json.string_value]

theorem is_string_iff {j : Json} {s : CStr} : is_string j s = true ↔ j = .string s := by
  unfold is_string
  rw [decide_eq_true_iff, Json.string_value_eq_some]

theorem any_is_string_iff {o : Option Json} {s : CStr} :
    o.any (is_string · s) = true ↔ o = some (.string s) := by
  cases o with
  | none => simp
  | some j => simp [is_string_iff]

/-- A number claim counts as missing when it is zero or not an integer. -/
theorem integer_claim {o : Option Json} (h : ¬ o.all (fun j => j.integer_value = 0)) :
    ∃ n, o = some (.integer n) ∧ n ≠ 0 := by
  cases o with
  | none => simp at h
  | some j =>
    cases j with
    | integer n => exact ⟨n, rfl, fun hzero => h (decide_eq_true hzero)⟩
    | _ => simp [Json.integer_value] at h

theorem verify_lifetime_spec {claims : Json} {now : Int}
    (h : oidc_verify_lifetime claims now) :
    (∀ j, claims.get "nbf".toList = some j → ∃ n, j = .integer n ∧ n ≤ now) ∧
    (∃ n, claims.get "exp".toList = some (.integer n) ∧ n ≠ 0 ∧ now ≤ n) ∧
    ∃ n, claims.get "iat".toList = some (.integer n) ∧ n ≠ 0 := by
  unfold oidc_verify_lifetime at h
  dsimp only at h
  split at h
  · simp at h
  · next hinteger =>
    split at h
    · simp at h
    · next hexp =>
      split at h
      · simp at h
      · next hiat =>
        split at h
        · simp at h
        · next hnbf =>
          split at h
          · simp at h
          · next hlate =>
            obtain ⟨n, hn, hne⟩ := integer_claim hexp
            refine ⟨?_, ⟨n, hn, hne, ?_⟩, integer_claim hiat⟩
            · intro j hj
              rw [hj] at hinteger hnbf
              cases j with
              | integer n =>
                exact ⟨n, rfl, Int.not_lt.1 fun hlt => hnbf (decide_eq_true hlt)⟩
              | _ => simp [Json.is_integer] at hinteger
            · rw [hn] at hlate
              exact Int.not_lt.1 fun hlt => hlate (decide_eq_true hlt)

theorem verify_required_claims_spec {required : List (CStr × Json)} {claims : Json}
    (h : oidc_verify_required_claims required claims) :
    ∀ r ∈ required, ∃ j, claims.get r.1 = some j ∧ r.2.equal j := by
  intro r hr
  have hr := List.all_eq_true.1 h r hr
  rwa [Option.any_eq_true] at hr

theorem audience_found_spec {aud azp : Option Json} {id : CStr}
    (h : audience_found aud azp id) :
    aud = some (.string id) ∨ ∃ items, aud = some (.array items) ∧ .string id ∈ items ∧
      (1 < items.length → azp.isSome) := by
  unfold audience_found at h
  split at h
  · next s =>
    rw [beq_iff_eq] at h
    exact .inl (by rw [h])
  · next items =>
    rw [Bool.and_eq_true, List.any_eq_true] at h
    obtain ⟨⟨j, hj, hstring⟩, hseveral⟩ := h
    rw [is_string_iff] at hstring
    refine .inr ⟨items, rfl, hstring ▸ hj, fun hlen => ?_⟩
    cases azp with
    | none => simp [hlen] at hseveral
    | some j => rfl
  · simp at h

theorem verify_issuer_audience_spec {claims : Json} {issuer client_id : Option CStr}
    (h : oidc_verify_issuer_audience claims issuer client_id) :
    (∃ iss, issuer = some iss ∧ claims.get "iss".toList = some (.string iss)) ∧
    (∃ id, client_id = some id ∧
      (claims.get "aud".toList = some (.string id) ∨
        ∃ items, claims.get "aud".toList = some (.array items) ∧ .string id ∈ items ∧
          (1 < items.length → (claims.get "azp".toList).isSome))) ∧
    ∀ j, claims.get "azp".toList = some j → client_id.map .string = some j := by
  unfold oidc_verify_issuer_audience at h
  split at h
  · next iss id =>
    dsimp only at h
    split at h
    · simp at h
    · next hiss =>
      split at h
      · simp at h
      · next haud =>
        rw [Bool.not_eq_true', Bool.not_eq_false] at hiss haud
        refine ⟨⟨iss, rfl, any_is_string_iff.1 hiss⟩, ⟨id, rfl, audience_found_spec haud⟩, ?_⟩
        intro j hj
        rw [hj, all_some, is_string_iff] at h
        rw [h, map_some]
  · simp at h

/-- A token that passes has passed every check, and names the user. -/
theorem verify_token_eq_some {v v' : OidcVctx} {jws : CStr → Jws} {now : Int} {token : CStr}
    {nonce : Option CStr} {ct : OidcSt}
    (h : v.oidc_verify_token jws now token nonce = (v', some ct)) :
    ∃ claims name, jws token = .verified (some claims) ∧
      oidc_verify_lifetime claims now ∧
      oidc_verify_required_claims v.config.required_claims claims ∧
      (nonce.isSome → oidc_verify_issuer_audience claims v.metadata.issuer v.config.client_id) ∧
      (∀ n ∈ nonce, claims.get "nonce".toList = some (.string n)) ∧
      v.config.user_name_claim.bind claims.get = some (.string name) ∧
      ct.username = strlcpy name MAX_USERNAME_SIZE ∧ ct.token_verified := by
  unfold oidc_verify_token at h
  split at h
  · simp at h
  · simp at h
  · simp at h
  · simp at h
  · next claims hjws =>
    split at h
    · simp at h
    · next hlifetime =>
      split at h
      · simp at h
      · next hrequired =>
        split at h
        · simp at h
        · next hissuer =>
          split at h
          · simp at h
          · next hnonce =>
            rw [Bool.not_eq_true', Bool.not_eq_false] at hlifetime hrequired
            unfold oidc_map_user_name at h
            cases hname : (v.config.user_name_claim.bind claims.get).bind
                Json.string_value with
            | none => simp [hname] at h
            | some name =>
              obtain ⟨j, hj, hstring⟩ := bind_eq_some_iff.1 hname
              rw [Json.string_value_eq_some.1 hstring] at hj
              rw [hname, Prod.mk.injEq, some_inj] at h
              refine ⟨claims, name, hjws, hlifetime, hrequired, ?_, ?_, hj, ?_, ?_⟩
              · intro hsome
                simpa [hsome] using hissuer
              · rintro n rfl
                rwa [any_some, Bool.not_eq_true', Bool.not_eq_false,
                  any_is_string_iff] at hnonce
              · rw [← h.2]
              · rw [← h.2]

theorem verify_token_valid {v v' : OidcVctx} {jws : CStr → Jws} {now : Int} {token nonce : CStr}
    {ct : OidcSt} (h : v.oidc_verify_token jws now token (some nonce) = (v', some ct)) :
    ∃ claims name, jws token = .verified (some claims) ∧
      ValidIdToken v.config v.metadata.issuer now nonce claims ∧
      v.config.user_name_claim.bind claims.get = some (.string name) ∧
      ct.username = strlcpy name MAX_USERNAME_SIZE := by
  obtain ⟨claims, name, hjws, hlifetime, hrequired, hissuer, hnonce, hname, husername, -⟩ :=
    verify_token_eq_some h
  obtain ⟨hnbf, hexp, hiat⟩ := verify_lifetime_spec hlifetime
  obtain ⟨hiss, haud, hazp⟩ := verify_issuer_audience_spec (hissuer rfl)
  exact ⟨claims, name, hjws, ⟨hnbf, hexp, hiat, verify_required_claims_spec hrequired, hiss, haud,
    hazp, hnonce nonce rfl⟩, hname, husername⟩

/-! ## Sealed values from outside -/

section Login

variable [Platform] {kd : SsoKeyData} {v : OidcVctx} {s s' : OidcSys} {ev : OidcEvent}
  {trace : List (Transition OidcSys OidcEvent)} {clock : Int}

/-- A value that passes the tag check has the length of the buffer it is copied to. -/
theorem lookupKey_of_check {label : CStr} {value : CStr}
    (h : oidc_sealed_token_check kd label (some value)) : lookupKey value = value := by
  unfold oidc_sealed_token_check at h
  dsimp only at h
  split at h
  · simp at h
  · next hlen =>
    apply take_of_length_le
    omega

omit [Platform] in
/-- The request behind a state that was taken, and what taking it leaves. -/
theorem OidcVctx.Ok.taken (h : v.Ok clock) {now : Int} {state : Option CStr} {q : SsoState}
    (htake : (v.oidc_sso_state_take now state).2 = some q) :
    q ∈ (v.oidc_sso_state_expire now).sso_states.list ∧ state.map lookupKey = some q.state ∧
      (v.oidc_sso_state_take now state).1 = (v.oidc_sso_state_expire now).oidc_sso_pending_del q :=
  (h.state_take_lookup now state).of_some htake

omit [Platform] in
theorem OidcVctx.Ok.claimed (h : v.Ok clock) {now : Int} {token : Option CStr} {e : SsoState}
    (htake : (v.oidc_sso_claim_take now token).2 = some e) :
    e ∈ (v.oidc_sso_state_expire now).sso_claims.list ∧ token.map lookupKey = some e.token ∧
      (v.oidc_sso_claim_take now token).1.sso_claims.list =
        (v.oidc_sso_state_expire now).sso_claims.list.erase e := by
  obtain ⟨hmem, hkey, heq⟩ := (h.claim_take_lookup now token).of_some htake
  exact ⟨hmem, hkey, by rw [heq]; rfl⟩

/-! ## Where entries come from -/

/-- The call that created a pending request. -/
def CreatedBy (kd : SsoKeyData) (q : SsoState) (t : Transition OidcSys OidcEvent) : Prop :=
  ∃ remote_ip strap env rnd, t.label = .start remote_ip strap env ∧
    Created kd t.pre.vctx.config remote_ip strap env rnd q

/-- The callback that completed a login; its request was created before. -/
def CompletedBy (kd : SsoKeyData) (e : SsoState) (older : List (Transition OidcSys OidcEvent))
    (t : Transition OidcSys OidcEvent) : Prop :=
  ∃ code state env q ct rnd, t.label = .finish code state env ∧ t.pre.Ok kd ∧
    Completed kd t.pre.vctx code state env q ct rnd ∧
    e = completed_request kd q ct env.done_at rnd ∧ ∃ g ∈ older, CreatedBy kd q g

omit [Platform] in
theorem OidcSys.Init.empty (h : s.Init) :
    s.vctx.sso_states.list = [] ∧ s.vctx.sso_claims.list = [] := by
  obtain ⟨⟨mode, config, fetched, hinit⟩, -⟩ := h
  obtain ⟨cfg, metadata, heq⟩ := vhost_init_empty hinit
  rw [heq]
  exact ⟨rfl, rfl⟩

theorem OidcVctx.Change.mem_pending {v' : OidcVctx} (h : Change kd v v' ev) {q : SsoState}
    (hq : q ∈ v'.sso_states.list) : q ∈ v.sso_states.list ∨
      ∃ remote_ip strap env rnd, ev = .start remote_ip strap env ∧
        Created kd v.config remote_ip strap env rnd q := by
  cases h with
  | drops hdrops => exact .inl (hdrops.pending.subset hq)
  | @created remote_ip strap env rnd e hcreated hdrops =>
    rcases mem_append.1 (hdrops.pending.subset hq) with hmem | hmem
    · exact .inl hmem
    · obtain rfl := mem_singleton.1 hmem
      exact .inr ⟨remote_ip, strap, env, rnd, rfl, hcreated⟩
  | completed _ hdrops => exact .inl (hdrops.pending.subset hq)

theorem OidcVctx.Change.mem_claims {v' : OidcVctx} (h : Change kd v v' ev) {e : SsoState}
    (he : e ∈ v'.sso_claims.list) : e ∈ v.sso_claims.list ∨
      ∃ code state env q ct rnd, ev = .finish code state env ∧
        Completed kd v code state env q ct rnd ∧ e = completed_request kd q ct env.done_at rnd := by
  cases h with
  | drops hdrops => exact .inl (hdrops.claims.subset he)
  | created _ hdrops => exact .inl (hdrops.claims.subset he)
  | @completed code state env q ct rnd hcompleted hdrops =>
    rcases mem_append.1 (hdrops.claims.subset he) with hmem | hmem
    · exact .inl hmem
    · exact .inr ⟨code, state, env, q, ct, rnd, rfl, hcompleted, mem_singleton.1 hmem⟩

theorem pending_created (hrun : OidcSys.Run kd trace s) {q : SsoState}
    (hq : q ∈ s.vctx.sso_states.list) : ∃ t ∈ trace, CreatedBy kd q t := by
  induction hrun with
  | start hinit => simp [hinit.empty] at hq
  | snoc hrun hs ih =>
    rcases ((OidcSys.Ok.of_run hrun).change hs).mem_pending hq with hmem | hcreated
    · obtain ⟨t, ht, hby⟩ := ih hmem
      exact ⟨t, mem_cons_of_mem _ ht, hby⟩
    · exact ⟨_, List.mem_cons_self, hcreated⟩

theorem claim_completed (hrun : OidcSys.Run kd trace s) {e : SsoState}
    (he : e ∈ s.vctx.sso_claims.list) : Since (CompletedBy kd e) (fun _ => True) trace := by
  apply hrun.since (P := fun s => e ∈ s.vctx.sso_claims.list) ?_ ?_ he
  · intro s hinit
    simp [hinit.empty]
  · intro trace s ev s' hrun hs hmem
    have hok := OidcSys.Ok.of_run hrun
    rcases (hok.change hs).mem_claims hmem with hmem | hcompleted
    · exact .inr ⟨trivial, hmem⟩
    · obtain ⟨code, state, env, q, ct, rnd, rfl, hcompleted, rfl⟩ := hcompleted
      have hpending := (expire_drops _ _).pending.subset (hok.tables.taken hcompleted.taken).1
      exact .inl ⟨code, state, env, q, ct, rnd, rfl, hok, hcompleted, rfl,
        pending_created hrun hpending⟩

/-! ## One-time values -/

/-- A value that was drawn and is on no entry any more. -/
structure Spent (stamp : OidcRandom → CStr) (value : SsoState → CStr) (drawn : List OidcRandom)
    (list : List SsoState) (x : CStr) : Prop where
  drawn : ∃ rnd ∈ drawn, x = stamp rnd
  gone : ∀ e ∈ list, value e ≠ x

namespace Spent

variable {stamp : OidcRandom → CStr} {value : SsoState → CStr} {drawn : List OidcRandom}
  {list list' : List SsoState} {x : CStr} {rnd : OidcRandom} {e : SsoState}

omit [Platform] in
/-- The value of an entry is spent when the entry is taken. -/
theorem of_erase (h : Sealed stamp value drawn list) (he : e ∈ list) :
    Spent stamp value drawn (list.erase e) (value e) := by
  refine ⟨h.drawn e he, fun y hy heq => ?_⟩
  have hperm := (perm_cons_erase he).map value
  have hnodup := hperm.nodup_iff.1 h.nodup
  rw [map_cons, nodup_cons] at hnodup
  exact hnodup.1 (mem_map.2 ⟨y, hy, heq⟩)

omit [Platform] in
theorem keep (h : Spent stamp value drawn list x) (hsub : list'.Sublist list)
    (draws : List OidcRandom) : Spent stamp value (draws ++ drawn) list' x := by
  obtain ⟨rnd, hrnd, heq⟩ := h.drawn
  exact ⟨⟨rnd, mem_append_right draws hrnd, heq⟩, fun e he => h.gone e (hsub.subset he)⟩

omit [Platform] in
theorem append (h : Spent stamp value drawn list x)
    (hinj : ∀ {rnd rnd'}, stamp rnd = stamp rnd' → rnd = rnd') (hrnd : rnd ∉ drawn)
    (hvalue : value e = stamp rnd) : Spent stamp value drawn (list ++ [e]) x := by
  refine ⟨h.drawn, fun y hy => ?_⟩
  rcases mem_append.1 hy with hy | hy
  · exact h.gone y hy
  · obtain ⟨rnd', hdrawn, rfl⟩ := h.drawn
    rw [mem_singleton.1 hy, hvalue]
    intro heq
    have hsame : rnd = rnd' := hinj heq
    exact hrnd (hsame ▸ hdrawn)

end Spent

/-- The state value was taken. -/
def SpentState (kd : SsoKeyData) (x : CStr) (s : OidcSys) : Prop :=
  Spent (oidc_sealed_token kd SEAL_LABEL_NEW_STATE) SsoState.state s.drawn s.vctx.sso_states.list x

/-- The login token was taken. -/
def SpentToken (kd : SsoKeyData) (x : CStr) (s : OidcSys) : Prop :=
  Spent (oidc_sealed_token kd SEAL_LABEL_TOKEN) SsoState.token s.drawn s.vctx.sso_claims.list x

theorem SpentState.step {x : CStr} (h : SpentState kd x s) (hok : s.Ok kd)
    (hstep : s.step kd ev = some s') : SpentState kd x s' := by
  have hchange := hok.change hstep
  obtain ⟨hadmits, rfl⟩ := OidcSys.step_eq_some.1 hstep
  cases hchange with
  | drops hdrops => exact h.keep hdrops.pending _
  | @created remote_ip strap env rnd e hcreated hdrops =>
    have hfresh : rnd ∉ s.drawn := hadmits.2 rnd (by simp [OidcEvent.draws, hcreated.drawn])
    have hvalue : e.state = oidc_sealed_token kd SEAL_LABEL_NEW_STATE rnd := by
      rw [hcreated.eq]
      rfl
    exact (h.append oidc_sealed_token_inj hfresh hvalue).keep hdrops.pending _
  | completed _ hdrops => exact h.keep hdrops.pending _

theorem SpentToken.step {x : CStr} (h : SpentToken kd x s) (hok : s.Ok kd)
    (hstep : s.step kd ev = some s') : SpentToken kd x s' := by
  have hchange := hok.change hstep
  obtain ⟨hadmits, rfl⟩ := OidcSys.step_eq_some.1 hstep
  cases hchange with
  | drops hdrops => exact h.keep hdrops.claims _
  | created _ hdrops => exact h.keep hdrops.claims _
  | @completed code state env q ct rnd hcompleted hdrops =>
    have hfresh : rnd ∉ s.drawn := hadmits.2 rnd (by simp [OidcEvent.draws, hcompleted.drawn])
    have hadded := h.append oidc_sealed_token_inj hfresh
      (e := completed_request kd q ct env.done_at rnd) rfl
    exact hadded.keep hdrops.claims _

/-- What the steps of a run keep, once the invariant holds. -/
theorem kept_later {P : OidcSys → Prop}
    (hP : ∀ s ev s', P s → s.Ok kd → s.step kd ev = some s' → P s') {s₁ : OidcSys}
    (hrun : Runs.Run (· = s₁) (fun s ev s' => s.step kd ev = some s') trace s)
    (hok : s₁.Ok kd) (h : P s₁) : P s := by
  have hinit : ∀ t, t = s₁ → t.Ok kd ∧ P t := by
    rintro t rfl
    exact ⟨hok, h⟩
  have hstep : ∀ t ev t', t.Ok kd ∧ P t → t.step kd ev = some t' → t'.Ok kd ∧ P t' :=
    fun t ev t' ht hs => ⟨ht.1.step hs, hP t ev t' ht.2 ht.1 hs⟩
  exact (hrun.invariant hinit hstep).2

omit [Platform] in
theorem state_take_metadata (v : OidcVctx) (now : Int) (state : Option CStr) :
    (v.oidc_sso_state_take now state).1.metadata = v.metadata := by
  unfold oidc_sso_state_take
  have hfind : (v.oidc_sso_state_find now state).1.metadata = v.metadata := by
    unfold oidc_sso_state_find
    split
    · rfl
    · rfl
    · exact expire_metadata v now
  dsimp only
  split
  · exact hfind
  · next e _ =>
    obtain ⟨ips, heq⟩ := pending_del_frame (v.oidc_sso_state_find now state).1 e
    rw [heq]
    exact hfind

/-- A callback with a valid tag leaves of the pending requests what `state_take` leaves. -/
theorem finish_pending {code : CStr} {state : Option CStr} {env : FinishEnv}
    (hcheck : oidc_sealed_token_check kd SEAL_LABEL_NEW_STATE state) :
    (v.oidc_sso_finish kd code state env).vctx.sso_states =
      (v.oidc_sso_state_take env.now state).1.sso_states := by
  have hcases := finish_cases kd v code state env
  generalize v.oidc_sso_finish kd code state env = r at hcases
  cases hcases with
  | unchecked hfail => exact absurd hcheck (by simp [hfail])
  | unknown => rfl
  | failed => rfl
  | completed => rfl

theorem finish_requested {code : CStr} {state : Option CStr} {env : FinishEnv}
    (h : (v.oidc_sso_finish kd code state env).requested) :
    oidc_sealed_token_check kd SEAL_LABEL_NEW_STATE state ∧
      ∃ q, (v.oidc_sso_state_take env.now state).2 = some q := by
  have hcases := finish_cases kd v code state env
  generalize v.oidc_sso_finish kd code state env = r at hcases h
  cases hcases with
  | unchecked => simp at h
  | unknown => simp at h
  | failed _ _ hcheck htake => exact ⟨hcheck, _, htake⟩
  | completed hcompleted => exact ⟨hcompleted.checked, _, hcompleted.taken⟩

/-- The state of a request that a callback takes, with the request. -/
theorem OidcSys.Ok.taken_state (h : s.Ok kd) {state : Option CStr} {now : Int} {q : SsoState}
    (hcheck : oidc_sealed_token_check kd SEAL_LABEL_NEW_STATE state)
    (htake : (s.vctx.oidc_sso_state_take now state).2 = some q) :
    q ∈ s.vctx.sso_states.list ∧ state = some q.state := by
  obtain ⟨hmem, hkey, -⟩ := h.tables.taken htake
  refine ⟨(expire_drops _ _).pending.subset hmem, ?_⟩
  cases state with
  | none => simp at hkey
  | some value =>
    rw [map_some, lookupKey_of_check hcheck] at hkey
    exact hkey

theorem finish_spends {code : CStr} {state : Option CStr} {env : FinishEnv} {q : SsoState}
    (h : s.Ok kd) (hstep : s.step kd (.finish code state env) = some s')
    (hcheck : oidc_sealed_token_check kd SEAL_LABEL_NEW_STATE state)
    (htake : (s.vctx.oidc_sso_state_take env.now state).2 = some q) : SpentState kd q.state s' := by
  obtain ⟨hadmits, rfl⟩ := OidcSys.step_eq_some.1 hstep
  obtain ⟨hmem, -, hleft⟩ := h.tables.taken htake
  have hsealed := h.states.sublist (expire_drops s.vctx env.now).pending
  have hspent := (Spent.of_erase hsealed hmem).keep (.refl _)
    (OidcEvent.finish code state env).draws
  unfold SpentState
  dsimp only [OidcSys.call]
  rw [finish_pending hcheck, hleft, pending_del_list]
  exact hspent

/-- How a login token opens a session. -/
theorem auth_init_token {info : OidcAuthInfo} {jws : CStr → Jws} {now : Int} {token : CStr}
    {ct : OidcSt} (htoken : info.oidc_token = some token) (hne : token ≠ [])
    (h : (v.oidc_auth_init kd info jws now).2 = some ct) :
    oidc_sealed_token_check kd SEAL_LABEL_TOKEN (some token) ∧
      (v.oidc_auth_init kd info jws now).1 = (v.oidc_sso_claim_take now (some token)).1 ∧
      ∃ e, (v.oidc_sso_claim_take now (some token)).2 = some e ∧
        ct = { username := strlcpy e.username MAX_USERNAME_SIZE, token_verified := true
               groups := e.groups } := by
  have hfilter : info.oidc_token.filter (· ≠ []) = some token := by simp [htoken, hne]
  unfold oidc_auth_init at h ⊢
  rw [hfilter] at h ⊢
  dsimp only at h ⊢
  split at h
  · simp at h
  · next hcheck =>
    rw [if_neg hcheck]
    obtain ⟨e, he, hct⟩ := map_eq_some_iff.1 h
    exact ⟨by simpa using hcheck, rfl, e, he, hct.symm⟩

theorem auth_init_spends {info : OidcAuthInfo} {jws : CStr → Jws} {now : Int} {token : CStr}
    {ct : OidcSt} (h : s.Ok kd) (htoken : info.oidc_token = some token) (hne : token ≠ [])
    (hstep : s.step kd (.auth_init info jws now) = some s')
    (hauth : (s.vctx.oidc_auth_init kd info jws now).2 = some ct) : SpentToken kd token s' := by
  obtain ⟨hadmits, rfl⟩ := OidcSys.step_eq_some.1 hstep
  obtain ⟨hcheck, hfst, e, he, -⟩ := auth_init_token htoken hne hauth
  obtain ⟨hmem, hkey, hleft⟩ := h.tables.claimed he
  rw [map_some, lookupKey_of_check hcheck, some_inj] at hkey
  have hsealed := h.tokens.sublist (expire_drops s.vctx now).claims
  have hspent := (Spent.of_erase hsealed hmem).keep (.refl _)
    (OidcEvent.auth_init info jws now).draws
  unfold SpentToken
  dsimp only [OidcSys.call]
  rw [hfst, hleft, hkey]
  exact hspent

/-! ## The login behind a session -/

/-- What is behind a session that a login token opens at the time `now`: the callback that
issued the token, with its request and the ID token it obtained for it. -/
structure Login (kd : SsoKeyData) (older : List (Transition OidcSys OidcEvent)) (token : CStr)
    (now : Int) (ct : OidcSt) where
  mid : List (Transition OidcSys OidcEvent)
  callback : Transition OidcSys OidcEvent
  first : List (Transition OidcSys OidcEvent)
  code : CStr
  env : FinishEnv
  request : SsoState
  claims : Json
  name : CStr
  earlier : older = mid ++ callback :: first
  label : callback.label = .finish code (some request.state) env
  /-- the request was pending, created by this instance, and is consumed -/
  pending : request ∈ callback.pre.vctx.sso_states.list
  created : ∃ g ∈ first, CreatedBy kd request g
  consumed : request ∉ callback.post.vctx.sso_states.list
  /-- the ID token has a good signature, passes every check and answers the request -/
  signed : ∃ response id_token, env.provider code request.verifier = some response ∧
    response.get "id_token".toList = some (.string id_token) ∧
    env.jws id_token = .verified (some claims)
  valid : ValidIdToken callback.pre.vctx.config callback.pre.vctx.metadata.issuer
    env.verified_at request.nonce claims
  /-- the token is the one that the callback issued -/
  issued : ∃ rnd, env.token_rnd = some rnd ∧ token = oidc_sealed_token kd SEAL_LABEL_TOKEN rnd
  /-- the session has the name in the configured claim, when it fits into the buffer -/
  claimed : callback.pre.vctx.config.user_name_claim.bind claims.get = some (.string name)
  session : ct.oidc_auth_user ACCT_USERNAME_SIZE = some (strlcpy name MAX_USERNAME_SIZE)
  username : ct.oidc_auth_user ACCT_USERNAME_SIZE = some name ↔ name.length < MAX_USERNAME_SIZE
  in_time : env.done_at ≤ now ∧ now < env.done_at + OIDC_CLAIM_TIMEOUT

omit [Platform] in
theorem strlcpy_eq_self_iff {name : CStr} {size : Nat} (hsize : 0 < size) :
    strlcpy name size = name ↔ name.length < size := by
  rw [strlcpy, take_eq_self_iff]
  omega

theorem exists_login {older : List (Transition OidcSys OidcEvent)} {info : OidcAuthInfo}
    {jws : CStr → Jws} {now : Int} {token : CStr} {ct : OidcSt}
    (hrun : OidcSys.Run kd older s) (hstep : s.step kd (.auth_init info jws now) = some s')
    (htoken : info.oidc_token = some token) (hne : token ≠ [])
    (hauth : (s.vctx.oidc_auth_init kd info jws now).2 = some ct) :
    Nonempty (Login kd older token now ct) := by
  have hok := OidcSys.Ok.of_run hrun
  obtain ⟨hadmits, -⟩ := OidcSys.step_eq_some.1 hstep
  obtain ⟨hcheck, -, e, he, rfl⟩ := auth_init_token htoken hne hauth
  obtain ⟨hmem, hkey, -⟩ := hok.tables.claimed he
  rw [map_some, lookupKey_of_check hcheck, some_inj] at hkey
  have halive := hok.tables.claims_alive e hmem
  have hmem := (expire_drops _ _).claims.subset hmem
  have huntil := hok.tables.claims_until e hmem
  obtain ⟨mid, ⟨pre, label, post⟩, first, rfl, hcompleted, -⟩ := claim_completed hrun hmem
  obtain ⟨code, state, env, q, ct, rnd, rfl, hpre, hcompleted, rfl, hcreated⟩ := hcompleted
  obtain ⟨-, hfinish, -⟩ := hrun.split
  obtain ⟨hpending, rfl⟩ := hpre.taken_state hcompleted.checked hcompleted.taken
  have hspent := finish_spends hpre hfinish hcompleted.checked hcompleted.taken
  obtain ⟨response, id_token, hresponse, hid, hverify⟩ := hcompleted.verified
  obtain ⟨claims, name, hjws, hvalid, hname, husername⟩ := verify_token_valid hverify
  rw [(hpre.tables.state_take _ _).2.config] at hvalid hname
  rw [state_take_metadata] at hvalid
  obtain ⟨j, hj, hstring⟩ := bind_eq_some_iff.1 hid
  rw [Json.string_value_eq_some.1 hstring] at hj
  have hclock : s.clock ≤ now := by simpa [OidcEvent.times] using hadmits.1
  have hsession : OidcSt.oidc_auth_user
      { username := strlcpy (completed_request kd q ct env.done_at rnd).username MAX_USERNAME_SIZE
        token_verified := true
        groups := (completed_request kd q ct env.done_at rnd).groups } ACCT_USERNAME_SIZE =
      some (strlcpy name MAX_USERNAME_SIZE) := by
    -- all buffers on the way have room for what the first one holds
    show some (strlcpy (strlcpy (strlcpy ct.username _) _) _) = _
    rw [husername, strlcpy_strlcpy _ (Nat.le_refl _), strlcpy_strlcpy _ (Nat.le_refl _),
      strlcpy_strlcpy _ (by decide)]
  refine ⟨⟨mid, _, first, code, env, q, claims, name, rfl, rfl, hpending, hcreated, ?_,
    ⟨response, id_token, hresponse, hj, hjws⟩, hvalid, ⟨rnd, hcompleted.drawn, hkey⟩, hname,
    hsession, ?_, ?_⟩⟩
  · exact fun hmem => hspent.gone q hmem rfl
  · rw [hsession, some_inj]
    exact strlcpy_eq_self_iff (by decide)
  · have hexpires : (completed_request kd q ct env.done_at rnd).expires =
        env.done_at + OIDC_CLAIM_TIMEOUT := rfl
    rw [hexpires] at halive huntil
    omega

/-- In every run: behind each session that a login token opens there is a login, whose ID
token names the user of the session as far as the name fits; a state leads to at most one
request to the token endpoint; a login token opens at most one session; and a value that
fails the tag check changes nothing. -/
theorem oidc_login_integrity (hrun : OidcSys.Run kd trace s) :
    (∀ recent older pre post info jws now token ct,
      trace = recent ++ ⟨pre, .auth_init info jws now, post⟩ :: older →
      info.oidc_token = some token → token ≠ [] →
      (pre.vctx.oidc_auth_init kd info jws now).2 = some ct →
      Nonempty (Login kd older token now ct)) ∧
    (∀ recent mid older pre post code env pre' post' code' env' state,
      trace = recent ++ ⟨pre', .finish code' state env', post'⟩ ::
        (mid ++ ⟨pre, .finish code state env, post⟩ :: older) →
      (pre.vctx.oidc_sso_finish kd code state env).requested = true →
      (pre'.vctx.oidc_sso_finish kd code' state env').requested = false) ∧
    (∀ recent mid older pre post info jws now pre' post' info' jws' now' token ct,
      trace = recent ++ ⟨pre', .auth_init info' jws' now', post'⟩ ::
        (mid ++ ⟨pre, .auth_init info jws now, post⟩ :: older) →
      info.oidc_token = some token → info'.oidc_token = some token → token ≠ [] →
      (pre.vctx.oidc_auth_init kd info jws now).2 = some ct →
      (pre'.vctx.oidc_auth_init kd info' jws' now').2 = none) ∧
    ∀ v : OidcVctx,
      (∀ code state env, oidc_sealed_token_check kd SEAL_LABEL_NEW_STATE state = false →
        v.oidc_sso_finish kd code state env = ⟨v, false, none⟩) ∧
      ∀ info jws now token, info.oidc_token = some token → token ≠ [] →
        oidc_sealed_token_check kd SEAL_LABEL_TOKEN (some token) = false →
        v.oidc_auth_init kd info jws now = (v, none) := by
  refine ⟨?_, ?_, ?_, fun v => ⟨?_, ?_⟩⟩
  · rintro recent older pre post info jws now token ct rfl htoken hne hauth
    obtain ⟨holder, hstep, -⟩ := hrun.split
    exact exists_login holder hstep htoken hne hauth
  · rintro recent mid older pre post code env pre' post' code' env' state rfl hreq
    obtain ⟨hbefore, -, -⟩ := hrun.split
    obtain ⟨holder, hstep, hmid⟩ := hbefore.split
    have hok := OidcSys.Ok.of_run holder
    obtain ⟨hcheck, q, htake⟩ := finish_requested hreq
    have hspent : SpentState kd q.state pre' :=
      kept_later (fun _ _ _ h hok hs => h.step hok hs) hmid (hok.step hstep)
        (finish_spends hok hstep hcheck htake)
    by_contra hreq'
    rw [Bool.not_eq_false] at hreq'
    obtain ⟨hcheck', q', htake'⟩ := finish_requested hreq'
    obtain ⟨hmem, hstate⟩ := (OidcSys.Ok.of_run hbefore).taken_state hcheck' htake'
    obtain ⟨-, hstate₁⟩ := hok.taken_state hcheck htake
    exact hspent.gone q' hmem (some.inj (hstate.symm.trans hstate₁))
  · rintro recent mid older pre post info jws now pre' post' info' jws' now' token ct rfl htoken
      htoken' hne hauth
    obtain ⟨hbefore, -, -⟩ := hrun.split
    obtain ⟨holder, hstep, hmid⟩ := hbefore.split
    have hok := OidcSys.Ok.of_run holder
    have hspent : SpentToken kd token pre' :=
      kept_later (fun _ _ _ h hok hs => h.step hok hs) hmid (hok.step hstep)
        (auth_init_spends hok htoken hne hstep hauth)
    cases hauth' : (pre'.vctx.oidc_auth_init kd info' jws' now').2 with
    | none => rfl
    | some ct' =>
      obtain ⟨hcheck, -, e, he, -⟩ := auth_init_token htoken' hne hauth'
      obtain ⟨hmem, hkey, -⟩ := (OidcSys.Ok.of_run hbefore).tables.claimed he
      rw [map_some, lookupKey_of_check hcheck, some_inj] at hkey
      exact absurd hkey.symm (hspent.gone e ((expire_drops _ _).claims.subset hmem))
  · intro code state env hfail
    unfold oidc_sso_finish
    rw [hfail]
    rfl
  · intro info jws now token htoken hne hfail
    have hfilter : info.oidc_token.filter (· ≠ []) = some token := by simp [htoken, hne]
    unfold oidc_auth_init
    rw [hfilter]
    dsimp only
    rw [hfail]
    rfl

end Login

/-! ### A login, and one with a long name -/

section Demo

local instance oidcLoginPlatform : Platform := Platform.simple

open OidcDemo

/-- The token that the demonstration's callback issues. -/
private def demoInfo : OidcAuthInfo :=
  ⟨some (oidc_sealed_token kd SEAL_LABEL_TOKEN (rnd 2)), []⟩

/-- A login whose user is called `name`, up to the session. -/
private theorem demo_login (name user : CStr)
    (h : ((exec (OidcSys.step kd) (fun _ _ => True) [start 1 100, finish 1 2 110 name]
      booted).bind fun s => (s.vctx.oidc_auth_init kd demoInfo (fun _ => .malformed) 120).2.bind
        fun ct => (s.step kd (.auth_init demoInfo (fun _ => .malformed) 120)).bind
          fun _ => ct.oidc_auth_user ACCT_USERNAME_SIZE) = some user) :
    ∃ trace s s' ct, OidcSys.Run kd trace s ∧
      trace.map (·.label) = [finish 1 2 110 name, start 1 100] ∧
      s.step kd (.auth_init demoInfo (fun _ => .malformed) 120) = some s' ∧
      (s.vctx.oidc_auth_init kd demoInfo (fun _ => .malformed) 120).2 = some ct ∧
      ct.oidc_auth_user ACCT_USERNAME_SIZE = some user := by
  obtain ⟨s, hexec, h⟩ := bind_eq_some_iff.1 h
  obtain ⟨ct, hct, h⟩ := bind_eq_some_iff.1 h
  obtain ⟨s', hs', huser⟩ := bind_eq_some_iff.1 h
  have hstart : OidcSys.Run kd [] booted := .start booted_init
  obtain ⟨later, hrun, hlabels⟩ := hstart.exec hexec
  rw [append_nil] at hrun
  exact ⟨later, s, s', ct, hrun, hlabels, hs', hct, huser⟩

/-- The session of a login is that of the user whom the provider named. -/
theorem oidc_login_integrity_alice :
    ∃ trace s ct token, OidcSys.Run kd trace s ∧
      trace.map (·.label) = [finish 1 2 110 "alice".toList, start 1 100] ∧
      ct.oidc_auth_user ACCT_USERNAME_SIZE = some "alice".toList ∧
      Nonempty (Login kd trace token 120 ct) := by
  obtain ⟨trace, s, s', ct, hrun, hlabels, hstep, hct, huser⟩ :=
    demo_login "alice".toList "alice".toList (by decide +kernel)
  have hall := oidc_login_integrity (hrun.snoc hstep)
  refine ⟨trace, s, ct, _, hrun, hlabels, huser, hall.1 [] trace s s' demoInfo _ 120 _ ct rfl
    rfl ?_ hct⟩
  decide +kernel

/-- A name of 64 characters does not fit: the session belongs to a user with another name. -/
theorem oidc_username_truncated :
    ∃ trace s ct,
      OidcSys.Run kd trace s ∧
      trace.map (·.label) = [finish 1 2 110 (List.replicate 64 'a'), start 1 100] ∧
      booted.vctx.config.user_name_claim.bind (claims (List.replicate 64 'a')).get =
        some (.string (List.replicate 64 'a')) ∧
      (s.vctx.oidc_auth_init kd
        ⟨some (oidc_sealed_token kd SEAL_LABEL_TOKEN (rnd 2)), []⟩ (fun _ => .malformed) 120).2 =
          some ct ∧
      ct.oidc_auth_user ACCT_USERNAME_SIZE ≠ some (List.replicate 64 'a') := by
  obtain ⟨trace, s, s', ct, hrun, hlabels, -, hct, huser⟩ :=
    demo_login (List.replicate 64 'a') (List.replicate 63 'a') (by decide +kernel)
  refine ⟨trace, s, ct, hrun, hlabels, rfl, hct, ?_⟩
  rw [huser]
  decide

end Demo
end Ocserv

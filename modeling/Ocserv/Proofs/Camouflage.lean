import Mathlib.Data.List.TakeDrop
import Ocserv.Lib.Runs
import Ocserv.Worker.Http

/-!
# The camouflage gate

With camouflage a worker is to look like an ordinary web server to everyone who does not
know the secret: a request is answered by a decoy unless the secret is the first parameter
of its URL, and the handlers never see the secret.  The gate is open for good once it has
been passed, and it is also opened by the authentication state, which a cookie header sets
without anyone having accepted the cookie.  So the result holds of connections on which no
such cookie comes before the secret, and the secret comes only once.
-/

namespace Ocserv

open List Runs WorkerSt

/-! ## What the gate is for -/

/-- The secret is the first parameter of the URL `url`, and `rest` is the URL without it. -/
inductive Presents (secret : CStr) : CStr → CStr → Prop
  | last {path : CStr} : '?' ∉ path → Presents secret (path ++ '?' :: secret) path
  | params {path params : CStr} : '?' ∉ path →
      Presents secret (path ++ '?' :: (secret ++ '&' :: params)) (path ++ '?' :: params)

/-- Without the secret, and with no cookie or credential accepted, every answer is the decoy;
with the secret a request is dispatched under its URL without the secret. -/
structure Camouflaged (secret : CStr) (realm : Option CStr)
    (trace : List (Transition WorkerSt Exchange)) : Prop where
  declined : (∀ t ∈ trace, (∀ rest, ¬ Presents secret t.label.req.url rest) ∧
    t.label.res.accepted = false) → ∀ t ∈ trace, t.label.answer = .declined realm
  stripped : ∀ t ∈ trace, ∀ rest, Presents secret t.label.req.url rest →
    ∃ fn, t.label.answer = .dispatched rest fn

section Camouflage

variable [Platform]

/-- A cookie header of the request has a session cookie that can be decoded. -/
def Request.CarriesCookie (req : Request) : Prop :=
  ∃ value, (.cookie, value) ∈ req.headers ∧ ∃ token ∈ cookie_tokens value,
    "webvpn=".toList.isPrefixOf token ∧
      (decode_cookie (trim_end (token.drop 7))).isSome

/-- While the gate is closed no request carries a cookie, and once it is open none presents
the secret. -/
structure Discreet (secret : CStr) (ws : WorkerSt) (req : Request) : Prop where
  cookie : ws.camouflage_check_passed = false → ¬ req.CarriesCookie
  once : ∀ rest, Presents secret req.url rest → ws.camouflage_check_passed = false

variable {secret url rest : CStr} {ws ws' : WorkerSt} {req : Request} {x : Exchange}

/-! ## URLs -/

omit [Platform] in
theorem span_query {path query : CStr} (h : '?' ∉ path) :
    (path ++ '?' :: query).span (· ≠ '?') = (path, '?' :: query) := by
  rw [span_eq_takeWhile_dropWhile, takeWhile_append_of_pos, dropWhile_append_of_pos]
  · simp
  · intro c hc
    simpa using fun heq : c = '?' => h (heq ▸ hc)
  · intro c hc
    simpa using fun heq : c = '?' => h (heq ▸ hc)

omit [Platform] in
theorem check_camouflage_url_of_presents (hsecret : ws.config.camouflage_secret = some secret)
    (hauth : ws.auth_state.code < AuthState.cookie.code) (h : Presents secret ws.url rest) :
    ws.check_camouflage_url = { ws with url := rest, camouflage_check_passed := true } := by
  generalize hurl : ws.url = url at h
  simp only [check_camouflage_url, hsecret, if_neg (Nat.not_le.2 hauth), hurl]
  cases h with
  | last hpath =>
    rw [span_query hpath]
    simp
  | params hpath =>
    rw [span_query hpath]
    simp

omit [Platform] in
theorem check_camouflage_url_of_not_presents (hsecret : ws.config.camouflage_secret = some secret)
    (hauth : ws.auth_state.code < AuthState.cookie.code)
    (h : ∀ rest, ¬ Presents secret ws.url rest) : ws.check_camouflage_url = ws := by
  simp only [check_camouflage_url, hsecret, if_neg (Nat.not_le.2 hauth)]
  split
  · rfl
  · next path c query hspan =>
    rw [span_eq_takeWhile_dropWhile, Prod.mk.injEq] at hspan
    obtain ⟨hpath, hquery⟩ := hspan
    have hurl : ws.url = path ++ c :: query := by
      rw [← hpath, ← hquery, takeWhile_append_dropWhile]
    have hfree : '?' ∉ path := by
      intro hmem
      rw [← hpath] at hmem
      simpa using mem_takeWhile_imp hmem
    obtain rfl : c = '?' := by
      have hhead := List.head?_dropWhile_not (· ≠ '?') ws.url
      rw [hquery] at hhead
      simpa using hhead
    split
    · rfl
    · next htake =>
      rw [not_not] at htake
      have hsplit : query = secret ++ query.drop secret.length := by
        conv_lhs => rw [← take_append_drop secret.length query, htake]
      split
      · next hnil =>
        rw [hnil, append_nil] at hsplit
        rw [hurl, hsplit] at h
        exact absurd (.last hfree) (h path)
      · next params hparams =>
        rw [hparams] at hsplit
        rw [hurl, hsplit] at h
        exact absurd (.params hfree) (h (path ++ '?' :: params))
      · rfl

/-! ## Headers -/

/-- What the gate looks at, besides the authentication state. -/
def WorkerSt.gate (ws : WorkerSt) : WorkerCfg × Bool × CStr :=
  (ws.config, ws.camouflage_check_passed, ws.url)

theorem process_tokens_gate (ws : WorkerSt) (tokens : List CStr) :
    (ws.process_tokens tokens).gate = ws.gate := by
  induction tokens generalizing ws with
  | nil => rfl
  | cons token tokens ih =>
    simp only [process_tokens]
    split
    · split
      · split <;> exact ih _
      · rfl
    · split
      · split
        · split <;> exact ih _
        · rfl
      · exact ih ws

/-- Only a session cookie changes the authentication state. -/
theorem process_tokens_auth_state (ws : WorkerSt) {tokens : List CStr}
    (h : ∀ token ∈ tokens, "webvpn=".toList.isPrefixOf token →
      decode_cookie (trim_end (token.drop 7)) = none) :
    (ws.process_tokens tokens).auth_state = ws.auth_state := by
  induction tokens generalizing ws with
  | nil => rfl
  | cons token tokens ih =>
    obtain ⟨htoken, htokens⟩ := forall_mem_cons.1 h
    simp only [process_tokens]
    split
    · next hwebvpn =>
      rw [htoken hwebvpn]
      split
      · exact ih _ htokens
      · rfl
    · split
      · split
        · split <;> exact ih _ htokens
        · rfl
      · exact ih ws htokens

theorem foldl_headers_gate (headers : List (HeaderId × CStr)) (ws : WorkerSt) :
    (headers.foldl header_value_check ws).gate = ws.gate := by
  induction headers generalizing ws with
  | nil => rfl
  | cons header headers ih =>
    rw [foldl_cons, ih]
    unfold header_value_check
    split
    · split
      · rfl
      · exact process_tokens_gate _ _
    · rfl

theorem foldl_headers_auth_state {headers : List (HeaderId × CStr)} (ws : WorkerSt)
    (h : ∀ value, (.cookie, value) ∈ headers → ∀ token ∈ cookie_tokens value,
      "webvpn=".toList.isPrefixOf token → decode_cookie (trim_end (token.drop 7)) = none) :
    (headers.foldl header_value_check ws).auth_state = ws.auth_state := by
  induction headers generalizing ws with
  | nil => rfl
  | cons header headers ih =>
    rw [foldl_cons, ih _ fun value hmem => h value (mem_cons_of_mem _ hmem)]
    unfold header_value_check
    split
    · split
      · rfl
      · exact process_tokens_auth_state _ (h _ List.mem_cons_self)
    · rfl

theorem receive_gate (ws : WorkerSt) (req : Request) :
    (ws.receive req).gate = (ws.config, ws.camouflage_check_passed, req.url) :=
  foldl_headers_gate req.headers { ws with url := req.url }

theorem receive_auth_state (ws : WorkerSt) (h : ¬ req.CarriesCookie) :
    (ws.receive req).auth_state = ws.auth_state := by
  refine foldl_headers_auth_state { ws with url := req.url }
    fun value hvalue token htoken hwebvpn => ?_
  cases hcookie : decode_cookie (trim_end (token.drop 7)) with
  | none => rfl
  | some cookie => exact absurd ⟨value, hvalue, token, htoken, hwebvpn, by simp [hcookie]⟩ h

/-! ## One request -/

omit [Platform] in
theorem dispatch_answer (ws : WorkerSt) (req : Request) (res : HandlerResult)
    (fn : Option Handler) :
    (ws.dispatch req res fn).2 = .dispatched ws.url fn := by
  cases fn <;> rfl

omit [Platform] in
theorem dispatch_gate (ws : WorkerSt) (req : Request) (res : HandlerResult) (fn : Option Handler) :
    (ws.dispatch req res fn).1.config = ws.config ∧
      (ws.dispatch req res fn).1.camouflage_check_passed = ws.camouflage_check_passed := by
  cases fn with
  | none => exact ⟨rfl, rfl⟩
  | some h =>
    simp only [dispatch, run_handler, restart, close]
    split_ifs <;> exact ⟨rfl, rfl⟩

/-- The gate is open: the request is dispatched as it is. -/
theorem serve_of_passed (res : HandlerResult) (hmethod : req.method = .get ∨ req.method = .post)
    (hpassed : (ws.receive req).camouflage_check_passed) :
    ∃ fn, ws.serve req res = (ws.receive req).dispatch req res fn := by
  have hgated : (ws.receive req).gated req = false := by simp [gated, hpassed]
  simp only [serve, hgated, Bool.false_eq_true, if_false, Bool.false_and]
  rcases hmethod with h | h <;> simp only [h] <;> exact ⟨_, rfl⟩

/-- The gate is closed: the request is declined, unless it opens the gate. -/
theorem serve_of_closed (res : HandlerResult) (hmethod : req.method = .get ∨ req.method = .post)
    (hcam : (ws.receive req).config.camouflage)
    (hclosed : (ws.receive req).camouflage_check_passed = false) {ws₁ : WorkerSt}
    (hcheck : (ws.receive req).check_camouflage_url = ws₁) :
    (ws₁.camouflage_check_passed = false →
      ws.serve req res = (ws₁.close, .declined ws₁.config.camouflage_realm)) ∧
    (ws₁.camouflage_check_passed → ∃ fn, ws.serve req res = ws₁.dispatch req res fn) := by
  have hgated : (ws.receive req).gated req := by
    rcases hmethod with h | h <;> simp [gated, hcam, hclosed, h]
  simp only [serve, hgated, if_true, hcheck, Bool.true_and]
  constructor
  · intro h
    simp [h]
  · intro h
    simp only [h, Bool.not_true, Bool.false_eq_true, if_false]
    rcases hmethod with hm | hm <;> simp only [hm] <;> exact ⟨_, rfl⟩

/-- The ways in which a request of a discreet client is served. -/
inductive ServeStep (secret : CStr) (ws : WorkerSt) (req : Request) : WorkerSt → Answer → Prop
  | passed {ws' : WorkerSt} {url : CStr} {fn : Option Handler} : ws.camouflage_check_passed →
      (∀ rest, ¬ Presents secret req.url rest) → ws'.camouflage_check_passed →
      ServeStep secret ws req ws' (.dispatched url fn)
  | opened {ws' : WorkerSt} {rest : CStr} {fn : Option Handler} : Presents secret req.url rest →
      ws'.camouflage_check_passed → ServeStep secret ws req ws' (.dispatched rest fn)
  | declined {ws' : WorkerSt} : ws.camouflage_check_passed = false →
      (∀ rest, ¬ Presents secret req.url rest) → ws'.camouflage_check_passed = false →
      ws'.auth_state = ws.auth_state →
      ServeStep secret ws req ws' (.declined ws.config.camouflage_realm)

theorem serve_step (hcam : ws.config.camouflage)
    (hsecret : ws.config.camouflage_secret = some secret)
    (hauth : ws.camouflage_check_passed = false → ws.auth_state.code < AuthState.cookie.code)
    (hmethod : req.method = .get ∨ req.method = .post) (hdis : Discreet secret ws req)
    (res : HandlerResult) :
    (ws.serve req res).1.config = ws.config ∧
      ServeStep secret ws req (ws.serve req res).1 (ws.serve req res).2 := by
  obtain ⟨hconfig, hflag, hurl⟩ := by
    simpa only [WorkerSt.gate, Prod.mk.injEq] using receive_gate ws req
  cases hpassed : ws.camouflage_check_passed with
  | true =>
    rw [hpassed] at hflag
    obtain ⟨fn, hserve⟩ := serve_of_passed res hmethod hflag
    obtain ⟨hcfg', hflag'⟩ := dispatch_gate (ws.receive req) req res fn
    rw [hserve, dispatch_answer]
    refine ⟨hcfg'.trans hconfig, .passed hpassed (fun rest hpres => ?_) (hflag'.trans hflag)⟩
    simpa [hpassed] using hdis.once rest hpres
  | false =>
    rw [hpassed] at hflag
    have hstate := receive_auth_state ws (hdis.cookie hpassed)
    have hlt : (ws.receive req).auth_state.code < AuthState.cookie.code := hstate ▸ hauth hpassed
    rw [← hconfig] at hcam hsecret
    by_cases hpres : ∃ rest, Presents secret req.url rest
    · obtain ⟨rest, hpres⟩ := hpres
      have hcheck := check_camouflage_url_of_presents hsecret hlt (hurl.symm ▸ hpres)
      obtain ⟨fn, hserve⟩ := (serve_of_closed res hmethod hcam hflag hcheck).2 rfl
      obtain ⟨hcfg', hflag'⟩ := dispatch_gate
        { ws.receive req with url := rest, camouflage_check_passed := true } req res fn
      rw [hserve, dispatch_answer]
      exact ⟨hcfg'.trans hconfig, .opened hpres hflag'⟩
    · rw [not_exists] at hpres
      have hcheck := check_camouflage_url_of_not_presents hsecret hlt (hurl.symm ▸ hpres)
      rw [(serve_of_closed res hmethod hcam hflag hcheck).1 hflag, hconfig]
      exact ⟨hconfig, .declined hpassed hpres hflag hstate⟩

omit [Platform] in
/-- What is left of a URL without the secret is determined by it. -/
theorem Presents.unique {rest' : CStr} (h : Presents secret url rest)
    (h' : Presents secret url rest') : rest = rest' := by
  -- the gate would leave both
  let ws : WorkerSt := { config := ⟨true, some secret, none, [], false⟩, url }
  have hlt : AuthState.inactive.code < AuthState.cookie.code := by decide
  have hleft : ∀ r, Presents secret ws.url r → ws.check_camouflage_url.url = r := by
    intro r hr
    rw [check_camouflage_url_of_presents rfl hlt hr]
  exact (hleft rest h).symm.trans (hleft rest' h')

omit [Platform] in
theorem Presents.mem (h : Presents secret url rest) : '?' ∈ url := by
  cases h <;> simp

/-! ## Connections -/

/-- What holds of a connection of a discreet client after the exchanges of `trace`. -/
structure Watched (secret : CStr) (cfg : WorkerCfg) (trace : List (Transition WorkerSt Exchange))
    (ws : WorkerSt) : Prop where
  config : ws.config = cfg
  auth_state : ws.camouflage_check_passed = false → ws.auth_state.code < AuthState.cookie.code
  /-- as long as the secret has not come, the gate is closed -/
  closed : (∀ t ∈ trace, ∀ rest, ¬ Presents secret t.label.req.url rest) →
    ws.camouflage_check_passed = false ∧
      ∀ t ∈ trace, t.label.answer = .declined cfg.camouflage_realm
  stripped : ∀ t ∈ trace, ∀ rest, Presents secret t.label.req.url rest →
    ∃ fn, t.label.answer = .dispatched rest fn

theorem Watched.step {config : WorkerCfg} {trace : List (Transition WorkerSt Exchange)}
    (h : Watched secret config trace ws) (hstep : Step ws x ws') (hcam : config.camouflage)
    (hsecret : config.camouflage_secret = some secret)
    (hmethod : x.req.method = .get ∨ x.req.method = .post) (hdis : Discreet secret ws x.req) :
    Watched secret config (⟨ws, x, ws'⟩ :: trace) ws' := by
  obtain ⟨rfl, hauth, hclosed, hstripped⟩ := h
  obtain ⟨hconfig, hserve⟩ := serve_step hcam hsecret hauth hmethod hdis x.res
  rw [hstep.2] at hconfig hserve
  dsimp only at hconfig hserve
  generalize hans : x.answer = answer at hserve
  refine ⟨hconfig, ?_, ?_, ?_⟩
  · intro hflag
    cases hserve with
    | passed _ _ hpassed => simp [hpassed] at hflag
    | opened _ hpassed => simp [hpassed] at hflag
    | declined hprev _ _ hstate => exact hstate ▸ hauth hprev
  · intro hno
    obtain ⟨hx, hrest⟩ := forall_mem_cons.1 hno
    obtain ⟨hprev, hdeclined⟩ := hclosed hrest
    rw [forall_mem_cons]
    cases hserve with
    | passed hpassed _ _ => simp [hpassed] at hprev
    | opened hpres _ => exact absurd hpres (hx _)
    | declined _ _ hflag _ => exact ⟨hflag, hans, hdeclined⟩
  · rw [forall_mem_cons]
    refine ⟨fun rest hpres => ?_, hstripped⟩
    cases hserve with
    | passed _ hno _ => exact absurd hpres (hno rest)
    | opened hpres' _ => exact ⟨_, hpres.unique hpres' ▸ hans⟩
    | declined _ hno _ _ => exact absurd hpres (hno rest)

/-- On a connection with camouflage, if no session cookie comes while the gate is closed and
no secret while it is open, everything without the secret gets the decoy, and the secret is
taken out of every URL that begins with it. -/
theorem camouflage_gate {config : WorkerCfg} {trace : List (Transition WorkerSt Exchange)}
    (hrun : Run (Initial config) Step trace ws) (hcam : config.camouflage = true)
    (hsecret : config.camouflage_secret = some secret)
    (hmethod : ∀ t ∈ trace, t.label.req.method = .get ∨ t.label.req.method = .post)
    (hdis : ∀ t ∈ trace, Discreet secret t.pre t.label.req) :
    Camouflaged secret config.camouflage_realm trace := by
  have hwatched : Watched secret config trace ws := by
    induction hrun with
    | start hinit =>
      obtain rfl := hinit
      exact ⟨rfl, fun _ => Nat.zero_lt_succ 2, fun _ => ⟨rfl, by simp⟩, by simp⟩
    | snoc hrun hstep ih =>
      obtain ⟨hx, hrest⟩ := forall_mem_cons.1 hmethod
      obtain ⟨hdx, hdrest⟩ := forall_mem_cons.1 hdis
      exact (ih hrest hdrest).step hstep hcam hsecret hx hdx
  exact ⟨fun hno => (hwatched.closed fun t ht => (hno t ht).1).2, hwatched.stripped⟩

end Camouflage

/-! ## Two connections -/

section Example

local instance camouflagePlatform : Platform := Platform.simple

private def decoyConfig : WorkerCfg where
  camouflage := true
  camouflage_secret := some "s".toList
  camouflage_realm := some "r".toList

private def get (url : String) (headers : List (HeaderId × CStr))
    (h : url.toList.length < MAX_URL_SIZE := by decide) : Request where
  method := .get
  url := url.toList
  headers := headers
  url_lt := h

private def handled : HandlerResult where
  auth_state := .inactive
  cookie := []
  cookie_set := false
  sid := []
  sid_set := false
  ret := 0
  exits := false
  accepted := false

/-- The exchange for a request, with the states around it. -/
private def exchange (ws : WorkerSt) (req : Request) : Transition WorkerSt Exchange :=
  ⟨ws, ⟨req, handled, (ws.serve req handled).2⟩, (ws.serve req handled).1⟩

private def visitor : WorkerSt := { config := decoyConfig }

private def invited : WorkerSt := (visitor.serve (get "/auth?s&a" []) handled).1

/-- A client that presents the secret is served, now and later. -/
theorem camouflage_gate_opened : ∃ P : Platform, ∃ trace, ∃ ws,
    @Run _ _ (Initial decoyConfig) (@Step P) trace ws ∧
      Camouflaged "s".toList (some "r".toList) trace ∧
      trace.map (fun t => t.label.answer) = [.dispatched "/".toList (some .get_auth_handler),
        .dispatched "/auth?a".toList (some .get_auth_handler)] := by
  have hrun : Run (Initial decoyConfig) Step
      [exchange invited (get "/" []), exchange visitor (get "/auth?s&a" [])]
      (invited.serve (get "/" []) handled).1 :=
    .snoc (.snoc (.start rfl) ⟨rfl, rfl⟩) ⟨by decide +kernel, rfl⟩
  have hpassed : invited.camouflage_check_passed = true := by decide +kernel
  refine ⟨Platform.simple, _, _, hrun, camouflage_gate hrun rfl rfl ?_ ?_, by decide +kernel⟩
  · simp [exchange, get]
  · rw [forall_mem_cons, forall_mem_singleton]
    constructor
    · refine ⟨fun hflag => ?_, fun rest hpres => ?_⟩
      · rw [show (exchange invited (get "/" [])).pre = invited from rfl, hpassed] at hflag
        simp at hflag
      · simpa [exchange, get] using hpres.mem
    · refine ⟨fun _ => ?_, fun _ _ => rfl⟩
      rintro ⟨value, hvalue, -⟩
      simp [exchange, get] at hvalue

private def forged : Request :=
  get "/" [(.cookie, "webvpn=".toList ++ List.replicate 43 'A' ++ ['='])]

/-- A cookie that no one has accepted opens the gate. -/
theorem camouflage_gate_bypassed : ∃ P : Platform, ∃ config secret trace ws,
    @Run _ _ (Initial config) (@Step P) trace ws ∧ config.camouflage = true ∧
      config.camouflage_secret = some secret ∧
      (∀ t ∈ trace, t.label.req.method = .get ∨ t.label.req.method = .post) ∧
      ¬ Camouflaged secret config.camouflage_realm trace := by
  have hanswer : (visitor.serve forged handled).2 =
      .dispatched "/".toList (some .get_auth_handler) := by
    decide +kernel
  have hurl : '?' ∉ forged.url := by decide +kernel
  refine ⟨Platform.simple, decoyConfig, "s".toList, [exchange visitor forged], _,
    .snoc (.start rfl) ⟨rfl, rfl⟩, rfl, rfl, ?_, fun hcam => ?_⟩
  · intro t ht
    obtain rfl := mem_singleton.1 ht
    exact .inl rfl
  · have hdecoy := hcam.declined ?_ _ List.mem_cons_self
    · simp only [exchange, hanswer] at hdecoy
      cases hdecoy
    · intro t ht
      obtain rfl := mem_singleton.1 ht
      exact ⟨fun rest hpres => hurl hpres.mem, rfl⟩

-- a second request with the secret is dispatched with the secret in its URL
example : (invited.serve (get "/auth?s&b" []) handled).2 =
    .dispatched "/auth?s&b".toList (some .get_auth_handler) := by
  decide +kernel

end Example
end Ocserv

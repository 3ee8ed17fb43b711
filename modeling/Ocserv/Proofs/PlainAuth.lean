import Ocserv.Proofs.PasswdFile

/-!
# The two stages of the password module

A user with a hash and a one-time password is asked for the password first and for the one-time
password then; the hash in the context is cleared in between.  `PassStep` lists what a call of
`plain_auth_pass` can do.  Along every sequence of submissions the hash in the context is the first
one, or it has been matched (`Staged`), and a success is one of the last stage.  The hash of a user
is that of a line of the password file (`stored_hash`); the context has it if the lines up to the
entry of the user are not cut (`Legible`).
-/

namespace Ocserv

namespace Plain

/-- A password, and what the call that checks it gets from outside. -/
structure Submission where
  env : PlainEnv
  pass : CStr

def Submission.matches (sub : Submission) (hash : CStr) : Prop :=
  sub.env.crypt sub.pass hash = some hash

/-- The context after some submissions. -/
def submit (pctx : PlainSt) (subs : List Submission) : PlainSt :=
  subs.foldl (fun pctx sub => (plain_auth_pass sub.env pctx sub.pass).1) pctx

/-- What is answered to each submission, with whether it was wrong and the next prompt. -/
def rounds (pctx : PlainSt) : List Submission → List (Bool × Int × Option String)
  | [] => []
  | sub :: subs =>
    let r := plain_auth_pass sub.env pctx sub.pass
    (wrong_pass sub.env pctx sub.pass, r.2, r.1.pass_msg) :: rounds r.1 subs

variable {env : PlainEnv} {pctx pctx' pctx₀ : PlainSt} {pass username : CStr} {sub : Submission}
  {subs done : List Submission} {config : PlainCfg} {result : Int}

/-! ## One call -/

/-- What a call can do. -/
inductive PassStep (env : PlainEnv) (pctx : PlainSt) (pass : CStr) : PlainSt → Int → Prop
  | wrong_asked (hwrong : wrong_pass env pctx pass)
      (hretries : pctx.retries < MAX_PASSWORD_TRIES - 1) :
      PassStep env pctx pass
        { pctx with
          retries := (pctx.retries + 1) % 4294967296
          pass_msg := some pass_msg_failed } ERR_AUTH_CONTINUE
  | wrong_refused (hwrong : wrong_pass env pctx pass)
      (hretries : ¬ pctx.retries < MAX_PASSWORD_TRIES - 1) :
      PassStep env pctx pass
        { pctx with retries := (pctx.retries + 1) % 4294967296 } ERR_AUTH_FAIL
  | empty_refused (hright : wrong_pass env pctx pass = false)
      (hotp : pctx.config.otp_file = none) (hcpass : pctx.cpass = []) :
      PassStep env pctx pass pctx ERR_AUTH_FAIL
  | password_accepted (hright : wrong_pass env pctx pass = false)
      (hotp : pctx.config.otp_file = none) (hcpass : pctx.cpass ≠ []) :
      PassStep env pctx pass pctx 0
  | otp_asked (hright : wrong_pass env pctx pass = false) (otp_file : CStr)
      (hotp : pctx.config.otp_file = some otp_file) (hcpass : pctx.cpass ≠ []) :
      PassStep env pctx pass
        { pctx with cpass := [], pass_msg := some pass_msg_otp } ERR_AUTH_CONTINUE
  | otp_accepted (hright : wrong_pass env pctx pass = false) (otp_file : CStr)
      (hotp : pctx.config.otp_file = some otp_file) (hcpass : pctx.cpass = [])
      (hok : env.oath_ok otp_file pctx.username pass) :
      PassStep env pctx pass pctx 0
  | otp_refused (hright : wrong_pass env pctx pass = false) (otp_file : CStr)
      (hotp : pctx.config.otp_file = some otp_file) (hcpass : pctx.cpass = []) :
      PassStep env pctx pass pctx ERR_AUTH_FAIL

theorem passStep (env : PlainEnv) (pctx : PlainSt) (pass : CStr) :
    PassStep env pctx pass (plain_auth_pass env pctx pass).1 (plain_auth_pass env pctx pass).2 := by
  unfold plain_auth_pass
  cases hwrong : wrong_pass env pctx pass with
  | true =>
    by_cases hretries : pctx.retries < MAX_PASSWORD_TRIES - 1
    · simpa [hretries] using .wrong_asked hwrong hretries
    · simpa [hretries] using .wrong_refused hwrong hretries
  | false =>
    cases hotp : pctx.config.otp_file with
    | none =>
      by_cases hcpass : pctx.cpass = []
      · simpa [hcpass] using .empty_refused hwrong hotp hcpass
      · simpa [hcpass] using .password_accepted hwrong hotp hcpass
    | some otp_file =>
      by_cases hcpass : pctx.cpass = []
      · by_cases hok : env.oath_ok otp_file pctx.username pass
        · simpa [hcpass, hok] using .otp_accepted hwrong otp_file hotp hcpass hok
        · simpa [hcpass, hok] using .otp_refused hwrong otp_file hotp hcpass
      · simpa [hcpass] using .otp_asked hwrong otp_file hotp hcpass

theorem known_of_right (h : wrong_pass env pctx pass = false) : pctx.unknown_user = false :=
  (Bool.or_eq_false_iff.1 h).1

/-- A password that is not wrong matches the hash. -/
theorem matches_of_right (h : wrong_pass sub.env pctx sub.pass = false) (hcpass : pctx.cpass ≠ []) :
    sub.matches pctx.cpass := by
  have hcrypt := (Bool.or_eq_false_iff.1 h).2
  rw [PlainSt.salt, if_pos hcpass] at hcrypt
  cases hp : sub.env.crypt sub.pass pctx.cpass with
  | none => simp [hp] at hcrypt
  | some p =>
    have hsame : p = pctx.cpass := by simpa [hp, hcpass] using hcrypt
    rw [Submission.matches, hp, hsame]

theorem wrong_of_not_matches (hcpass : pctx.cpass ≠ []) (h : ¬ sub.matches pctx.cpass) :
    wrong_pass sub.env pctx sub.pass := by
  rw [← Bool.not_eq_false]
  exact fun hright => h (matches_of_right hright hcpass)

/-! ## A sequence of calls -/

/-- What holds of the context after the submissions `done`. -/
structure Staged (pctx₀ : PlainSt) (done : List Submission) (pctx : PlainSt) : Prop where
  username : pctx.username = pctx₀.username
  config : pctx.config = pctx₀.config
  unknown_user : pctx.unknown_user = pctx₀.unknown_user
  cpass : pctx.cpass = pctx₀.cpass ∨ pctx.cpass = [] ∧ ∃ sub ∈ done, sub.matches pctx₀.cpass

theorem Staged.start : Staged pctx₀ [] pctx₀ := ⟨rfl, rfl, rfl, .inl rfl⟩

theorem Staged.step (h : Staged pctx₀ done pctx)
    (hstep : PassStep sub.env pctx sub.pass pctx' result) : Staged pctx₀ (done ++ [sub]) pctx' := by
  have hkept : pctx.cpass = pctx₀.cpass ∨
      pctx.cpass = [] ∧ ∃ s ∈ done ++ [sub], s.matches pctx₀.cpass :=
    h.cpass.imp_right fun ⟨hnil, s, hs, hmatches⟩ => ⟨hnil, s, List.mem_append_left _ hs, hmatches⟩
  cases hstep with
  | otp_asked hright otp_file hotp hcpass =>
    -- the only call that changes the hash
    refine ⟨h.username, h.config, h.unknown_user, .inr ⟨rfl, sub, by simp, ?_⟩⟩
    rcases h.cpass with hsame | ⟨hnil, -⟩
    · exact hsame ▸ matches_of_right hright hcpass
    · exact absurd hnil hcpass
  | _ => exact ⟨h.username, h.config, h.unknown_user, hkept⟩

theorem staged (pctx₀ : PlainSt) (done : List Submission) :
    Staged pctx₀ done (submit pctx₀ done) := by
  induction done using List.reverseRecOn with
  | nil => exact .start
  | append_singleton done sub ih =>
    rw [submit, List.foldl_append]
    exact ih.step (passStep _ _ _)

/-- What a success says about the submissions. -/
structure Passed (pctx₀ : PlainSt) (done : List Submission) (sub : Submission) : Prop where
  known : pctx₀.unknown_user = false
  hash : pctx₀.cpass ≠ [] → ∃ s ∈ done ++ [sub], s.matches pctx₀.cpass
  otp : ∀ otp_file, pctx₀.config.otp_file = some otp_file →
    sub.env.oath_ok otp_file pctx₀.username sub.pass ∧
      (pctx₀.cpass ≠ [] → ∃ s ∈ done, s.matches pctx₀.cpass)
  some_stage : pctx₀.cpass ≠ [] ∨ pctx₀.config.otp_file ≠ none

theorem Staged.passed (h : Staged pctx₀ done pctx)
    (hstep : PassStep sub.env pctx sub.pass pctx' result) (hresult : result = 0) :
    Passed pctx₀ done sub := by
  cases hstep with
  | wrong_asked hwrong hretries => exact absurd hresult (by decide)
  | wrong_refused hwrong hretries => exact absurd hresult (by decide)
  | empty_refused hright hotp hcpass => exact absurd hresult (by decide)
  | otp_asked hright otp_file hotp hcpass => exact absurd hresult (by decide)
  | otp_refused hright otp_file hotp hcpass => exact absurd hresult (by decide)
  | password_accepted hright hotp hcpass =>
    have hsame : pctx.cpass = pctx₀.cpass := h.cpass.resolve_right fun hnil => hcpass hnil.1
    rw [h.config] at hotp
    refine ⟨h.unknown_user ▸ known_of_right hright, fun _ => ⟨sub, by simp, ?_⟩, ?_, ?_⟩
    · exact hsame ▸ matches_of_right hright hcpass
    · intro otp_file hsome
      rw [hotp] at hsome
      cases hsome
    · exact .inl (hsame ▸ hcpass)
  | otp_accepted hright otp_file hotp hcpass hok =>
    have hearlier : pctx₀.cpass ≠ [] → ∃ s ∈ done, s.matches pctx₀.cpass := by
      intro hne
      rcases h.cpass with hsame | ⟨-, hdone⟩
      · exact absurd (hsame ▸ hcpass) hne
      · exact hdone
    rw [h.config] at hotp
    refine ⟨h.unknown_user ▸ known_of_right hright, fun hne => ?_, ?_, ?_⟩
    · obtain ⟨s, hs, hmatches⟩ := hearlier hne
      exact ⟨s, List.mem_append_left _ hs, hmatches⟩
    · intro file hsome
      obtain rfl := Option.some.inj (hotp.symm.trans hsome)
      exact ⟨h.username ▸ hok, hearlier⟩
    · exact .inr (by rw [hotp]; exact Option.some_ne_none _)

/-! ## Wrong passwords -/

/-- A wrong password after which the user is asked again. -/
def wrong_asked (round : Bool × Int × Option String) : Bool :=
  round.1 && round.2.1 == ERR_AUTH_CONTINUE

theorem PassStep.retries_of_continue (hstep : PassStep env pctx pass pctx' result)
    (hresult : result = ERR_AUTH_CONTINUE) :
    (wrong_pass env pctx pass ∧ pctx.retries < MAX_PASSWORD_TRIES - 1 ∧
        pctx'.retries = pctx.retries + 1) ∨
      wrong_pass env pctx pass = false ∧ pctx'.retries = pctx.retries := by
  cases hstep with
  | wrong_asked hwrong hretries =>
    have hsmall : pctx.retries < 2 := hretries
    exact .inl ⟨hwrong, hretries, Nat.mod_eq_of_lt (by omega)⟩
  | otp_asked hright otp_file hotp hcpass => exact .inr ⟨hright, rfl⟩
  | _ => exact absurd hresult (by decide)

theorem mem_dropLast_cons {α : Type} {a x : α} {l : List α} (h : x ∈ l.dropLast) :
    x ∈ (a :: l).dropLast := by
  cases l with
  | nil => simp at h
  | cons b l => exact List.mem_cons_of_mem a h

/-- The counter bounds how often a user is asked again, as long as the module is not called
after it has given its answer. -/
theorem countP_wrong_asked_le (hretries : pctx.retries ≤ MAX_PASSWORD_TRIES - 1)
    (hasked : ∀ round ∈ (rounds pctx subs).dropLast, round.2.1 = ERR_AUTH_CONTINUE) :
    pctx.retries + (rounds pctx subs).countP wrong_asked ≤ MAX_PASSWORD_TRIES - 1 := by
  induction subs generalizing pctx with
  | nil => exact hretries
  | cons sub subs ih =>
    have hstep := passStep sub.env pctx sub.pass
    rw [rounds] at hasked ⊢
    rw [List.countP_cons]
    by_cases hcontinue : (plain_auth_pass sub.env pctx sub.pass).2 = ERR_AUTH_CONTINUE
    · have hrest := fun hle => ih hle fun round hround => hasked round (mem_dropLast_cons hround)
      rcases hstep.retries_of_continue hcontinue with ⟨hwrong, hlt, hretry⟩ | ⟨hright, hretry⟩
      · have hle := hrest (by omega)
        simp only [wrong_asked, hwrong, hcontinue, beq_self_eq_true, Bool.and_self, if_true]
        omega
      · have hle := hrest (by omega)
        simp only [wrong_asked, hright, Bool.false_and, Bool.false_eq_true, if_false]
        omega
    · -- this was the last submission
      cases subs with
      | nil => simpa [rounds, wrong_asked, hcontinue] using hretries
      | cons next subs => exact absurd (hasked _ List.mem_cons_self) hcontinue

/-! ## Unknown users -/

/-- A context in which every password is wrong. -/
def Hopeless (pctx : PlainSt) (subs : List Submission) : Prop :=
  pctx.unknown_user = true ∨ pctx.cpass ≠ [] ∧ ∀ sub ∈ subs, ¬ sub.matches pctx.cpass

theorem Hopeless.wrong (h : Hopeless pctx (sub :: subs)) :
    wrong_pass sub.env pctx sub.pass := by
  rcases h with hunknown | ⟨hcpass, hnever⟩
  · rw [wrong_pass, hunknown, Bool.true_or]
  · exact wrong_of_not_matches hcpass (hnever sub List.mem_cons_self)

/-- A wrong password changes the counter and the prompt only. -/
theorem plain_auth_pass_of_wrong (h : wrong_pass env pctx pass) :
    plain_auth_pass env pctx pass =
      ({ pctx with
          retries := (pctx.retries + 1) % 4294967296
          pass_msg := if pctx.retries < MAX_PASSWORD_TRIES - 1 then some pass_msg_failed
            else pctx.pass_msg },
        if pctx.retries < MAX_PASSWORD_TRIES - 1 then ERR_AUTH_CONTINUE else ERR_AUTH_FAIL) := by
  rw [plain_auth_pass, if_pos h]
  by_cases hretries : pctx.retries < MAX_PASSWORD_TRIES - 1
  · simp only [if_pos hretries]
  · simp only [if_neg hretries]

/-- All that is seen of such a context are its counter and its prompt. -/
theorem rounds_of_hopeless (h : Hopeless pctx subs) (h' : Hopeless pctx' subs)
    (hretries : pctx.retries = pctx'.retries) (hmsg : pctx.pass_msg = pctx'.pass_msg) :
    rounds pctx subs = rounds pctx' subs := by
  induction subs generalizing pctx pctx' with
  | nil => rfl
  | cons sub subs ih =>
    have htail : ∀ {p : PlainSt}, Hopeless p (sub :: subs) → Hopeless p subs := fun hp =>
      hp.imp_right fun ⟨hcpass, hnever⟩ =>
        ⟨hcpass, fun s hs => hnever s (List.mem_cons_of_mem sub hs)⟩
    rw [rounds, rounds, h.wrong, h'.wrong, plain_auth_pass_of_wrong h.wrong,
      plain_auth_pass_of_wrong h'.wrong]
    simp only [hretries, hmsg]
    refine congrArg _ (ih ?_ ?_ rfl rfl)
    · exact htail h
    · exact htail h'

/-! ## The authentication -/

/-- The hash of the user: that of the first line of the password file that is an entry of the
user, and the empty one if there is no password file. -/
def stored_hash (env : PlainEnv) (config : PlainCfg) (username : CStr) : Option CStr :=
  match config.passwd with
  | none => some []
  | some passwd =>
    (env.fopen passwd).bind fun file => (first_entry username (file_lines file)).map Prod.snd

/-- What is needed for the password file to be read as it is meant: the lines up to the entry of
the user are read whole, and so is the name. -/
structure Legible (env : PlainEnv) (config : PlainCfg) (username : CStr) : Prop where
  name : username.length < MAX_USERNAME_SIZE
  lines : ∀ passwd, config.passwd = some passwd → ∀ file, env.fopen passwd = some file →
    ∀ line ∈ until_entry username (file_lines file), Readable username line

/-- The loop of `read_auth_pass` leaves the rest of the context as it is. -/
theorem read_lines_frame (pctx : PlainSt) (lines : List (List Char)) :
    (read_lines pctx lines).username = pctx.username ∧
      (read_lines pctx lines).config = pctx.config ∧
      (read_lines pctx lines).retries = pctx.retries ∧
      (read_lines pctx lines).pass_msg = pctx.pass_msg := by
  rcases read_lines_cases pctx lines with ⟨groups, salt, hread⟩ | ⟨line, -, g, hash, salt, -, hread⟩
  · rw [hread]
    exact ⟨rfl, rfl, rfl, rfl⟩
  · rw [hread]
    exact ⟨rfl, rfl, rfl, rfl⟩

/-- A new context has the hash of the user. -/
theorem read_auth_pass_spec (hread : Legible env config username)
    (h : read_auth_pass env { username, config } = some pctx') :
    (pctx'.username = username ∧ pctx'.config = config ∧ pctx'.retries = 0 ∧
        pctx'.pass_msg = none) ∧
      stored_hash env config username =
        if pctx'.unknown_user then none else some pctx'.cpass := by
  unfold read_auth_pass at h
  rw [stored_hash]
  cases hpasswd : config.passwd with
  | none =>
    rw [hpasswd] at h
    cases h
    exact ⟨⟨rfl, rfl, rfl, rfl⟩, rfl⟩
  | some passwd =>
    rw [hpasswd] at h
    obtain ⟨file, hopen, rfl⟩ := Option.map_eq_some_iff.1 h
    refine ⟨read_lines_frame _ _, ?_⟩
    have hlookup : LooksUp { username, config, unknown_user := true } (passwd_lines file)
        (file_lines file) := (lookup_iff rfl).2 (hread.lines passwd hpasswd file hopen)
    have hyields := hlookup.2
    simp only [hopen, Option.bind_some]
    cases hfirst : first_entry username (file_lines file) with
    | none =>
      rw [hfirst] at hyields
      exact (if_pos hyields).symm
    | some entry =>
      rw [hfirst] at hyields
      obtain ⟨hknown, -, hcpass⟩ := hyields
      rw [hknown, hcpass]
      rfl

/-- What the context of an authentication that can go on is. -/
theorem plain_auth_init_spec (hread : Legible env config username)
    (h : plain_auth_init env config (some username) = (result, some pctx₀)) :
    (pctx₀.username = username ∧ pctx₀.config = config ∧ pctx₀.retries = 0) ∧
      stored_hash env config username =
        (if pctx₀.unknown_user then none else some pctx₀.cpass) ∧
      (pctx₀.unknown_user = true ∨ pctx₀.cpass ≠ [] →
        result = ERR_AUTH_CONTINUE ∧ pctx₀.pass_msg = none) := by
  unfold plain_auth_init at h
  dsimp only at h
  split at h
  · exact absurd (Prod.mk.inj h).2 (by simp)
  · rw [(strlcpy_eq_iff (by decide)).2 hread.name] at h
    cases hpass : read_auth_pass env { username, config } with
    | none =>
      rw [hpass] at h
      exact absurd (Prod.mk.inj h).2 (by simp)
    | some pctx =>
      obtain ⟨⟨husername, hconfig, hretries, hmsg⟩, hstored⟩ := read_auth_pass_spec hread hpass
      rw [hpass] at h
      dsimp only at h
      split at h
      · -- no password is asked for, or only the one-time password
        next hempty =>
        have hno : ¬ (pctx.unknown_user = true ∨ pctx.cpass ≠ []) := by
          simp [hempty.1, hempty.2]
        split at h
        all_goals
          obtain ⟨-, hctx⟩ := Prod.mk.inj h
          cases hctx
          exact ⟨⟨husername, hconfig, hretries⟩, hstored, fun h => absurd h hno⟩
      · obtain ⟨hresult, hctx⟩ := Prod.mk.inj h
        cases hctx
        exact ⟨⟨husername, hconfig, hretries⟩, hstored, fun _ => ⟨hresult.symm, hmsg⟩⟩

/-- The contexts of two users that are told apart by no password have the same answers. -/
theorem same_answers {env' : PlainEnv} {config' : PlainCfg} {username' : CStr} {result' : Int}
    (hread : Legible env config username) (hread' : Legible env' config' username')
    (h : plain_auth_init env config (some username) = (result, some pctx))
    (h' : plain_auth_init env' config' (some username') = (result', some pctx'))
    (hhopeless : Hopeless pctx subs) (hhopeless' : Hopeless pctx' subs) :
    result = result' ∧ rounds pctx subs = rounds pctx' subs := by
  have hasked : ∀ {p : PlainSt}, Hopeless p subs → p.unknown_user = true ∨ p.cpass ≠ [] :=
    fun hp => hp.imp_right And.left
  obtain ⟨⟨-, -, hretries⟩, -, hrest⟩ := plain_auth_init_spec hread h
  obtain ⟨⟨-, -, hretries'⟩, -, hrest'⟩ := plain_auth_init_spec hread' h'
  obtain ⟨hresult, hmsg⟩ := hrest (hasked hhopeless)
  obtain ⟨hresult', hmsg'⟩ := hrest' (hasked hhopeless')
  exact ⟨hresult.trans hresult'.symm, rounds_of_hopeless hhopeless hhopeless'
    (hretries.trans hretries'.symm) (hmsg.trans hmsg'.symm)⟩

/-- Two-stage authentication with a password file that is read as it is meant. -/
theorem plain_two_stage (hread : Legible env config username)
    (hinit : plain_auth_init env config (some username) = (result, some pctx₀)) :
    (∀ done sub, (plain_auth_pass sub.env (submit pctx₀ done) sub.pass).2 = 0 →
      ∃ hash, stored_hash env config username = some hash ∧
        (hash ≠ [] → ∃ s ∈ done ++ [sub], s.matches hash) ∧
        (∀ otp_file, config.otp_file = some otp_file →
          sub.env.oath_ok otp_file username sub.pass = true ∧
            (hash ≠ [] → ∃ s ∈ done, s.matches hash)) ∧
        (hash ≠ [] ∨ config.otp_file ≠ none)) ∧
    (∀ subs, (∀ round ∈ (rounds pctx₀ subs).dropLast, round.2.1 = ERR_AUTH_CONTINUE) →
      (rounds pctx₀ subs).countP wrong_asked ≤ MAX_PASSWORD_TRIES - 1) ∧
    (stored_hash env config username = none →
      ∀ env' config' username' result' pctx hash subs, Legible env' config' username' →
        plain_auth_init env' config' (some username') = (result', some pctx) →
        stored_hash env' config' username' = some hash → hash ≠ [] →
        (∀ sub ∈ subs, ¬ Submission.matches sub hash) →
          result = result' ∧ rounds pctx₀ subs = rounds pctx subs) := by
  obtain ⟨⟨husername, hconfig, hretries⟩, hstored, -⟩ := plain_auth_init_spec hread hinit
  refine ⟨fun done sub hsuccess => ?_, fun subs hasked => ?_, ?_⟩
  · have hpassed := (staged pctx₀ done).passed (passStep _ _ _) hsuccess
    rw [hpassed.known] at hstored
    rw [← hconfig, ← husername]
    exact ⟨pctx₀.cpass, husername ▸ hconfig ▸ hstored, hpassed.hash, hpassed.otp,
      hpassed.some_stage⟩
  · have hle := countP_wrong_asked_le (by rw [hretries]; exact Nat.zero_le _) hasked
    rwa [hretries, Nat.zero_add] at hle
  · intro hnone env' config' username' result' pctx hash subs hread' hinit' hsome hhash hnever
    obtain ⟨-, hstored', -⟩ := plain_auth_init_spec hread' hinit'
    have hunknown : pctx₀.unknown_user = true := by
      by_contra hknown
      rw [if_neg hknown, hnone] at hstored
      cases hstored
    rw [hsome] at hstored'
    obtain ⟨-, hcpass⟩ := Option.ite_none_left_eq_some.1 hstored'.symm
    obtain rfl := Option.some.inj hcpass
    exact same_answers hread hread' hinit hinit' (.inl hunknown) (.inr ⟨hhash, hnever⟩)

/-! ## A password and a one-time password -/

section Example

/-- A password is its own hash, and the one-time password is `123456`. -/
private def otpEnv (file : List Char) : PlainEnv where
  fopen _ := some file
  crypt pass _ := some pass
  oath_ok _ _ pass := pass == "123456".toList

private def otpCfg : PlainCfg where
  passwd := some "ocpasswd".toList
  otp_file := some "otp".toList

private def otpCtx : PlainSt where
  username := "alice".toList
  cpass := "secret".toList
  groupnames := []
  config := otpCfg

private def aliceEnv : PlainEnv := otpEnv "alice:*:secret\n".toList

/-- The one-time password is accepted after the password. -/
theorem plain_two_stage_otp :
    plain_auth_init aliceEnv otpCfg (some "alice".toList) = (ERR_AUTH_CONTINUE, some otpCtx) ∧
      (plain_auth_pass aliceEnv (submit otpCtx [⟨aliceEnv, "secret".toList⟩])
        "123456".toList).2 = 0 ∧
      ∃ hash, stored_hash aliceEnv otpCfg "alice".toList = some hash ∧
        (hash ≠ [] →
          ∃ s ∈ [(⟨aliceEnv, "secret".toList⟩ : Submission)], s.matches hash) := by
  have hread : Legible aliceEnv otpCfg "alice".toList := by
    refine ⟨by decide, fun passwd _ file hfile => ?_⟩
    obtain rfl := Option.some.inj hfile
    decide +kernel
  have hinit : plain_auth_init aliceEnv otpCfg (some "alice".toList) =
      (ERR_AUTH_CONTINUE, some otpCtx) := by decide +kernel
  have hsuccess : (plain_auth_pass aliceEnv (submit otpCtx [⟨aliceEnv, "secret".toList⟩])
      "123456".toList).2 = 0 := by decide +kernel
  obtain ⟨hash, hstored, -, hotp, -⟩ :=
    (plain_two_stage hread hinit).1 _ ⟨aliceEnv, "123456".toList⟩ hsuccess
  exact ⟨hinit, hsuccess, hash, hstored, (hotp _ rfl).2⟩

/-- One line of one user, whose groups do not fit. -/
private def eveEnv : PlainEnv :=
  otpEnv ("bob:".toList ++ List.replicate 506 'g' ++ "eve:*:$5$c\n".toList)

private def eveCtx : PlainSt where
  username := "eve".toList
  cpass := "$5$c".toList
  config := { passwd := some "ocpasswd".toList }

/-- A user whose name is in the middle of the line of another user has no entry, and is let in. -/
theorem plain_no_entry_accepted :
    stored_hash eveEnv eveCtx.config "eve".toList = none ∧
      plain_auth_init eveEnv eveCtx.config (some "eve".toList) = (ERR_AUTH_CONTINUE, some eveCtx) ∧
      (plain_auth_pass eveEnv eveCtx "$5$c".toList).2 = 0 := by
  refine ⟨?_, ?_, ?_⟩ <;> decide +kernel

end Example

end Plain

end Ocserv

import Ocserv.Lib.Runs
import Ocserv.SecMod.Resume

/-!
# What the cache for TLS sessions gives back

The cache is meant to be a dictionary: a session that has been stored is found again by its
identifier, for the same virtual host and client, until it is deleted or expires.  The code
falls short of it in three ways:

* the names of two virtual hosts are compared as pointers in the end, so that a session of
  a named virtual host is never found;
* the reply to a fetch request always says `OK`; a worker notices by the missing data that
  nothing was found;
* a session may be stored under an identifier that is in use, and only one of the two is
  deleted then.

`resume_fetch_answered` says exactly which fetch requests are answered as they should be in
the runs that do not use an identifier twice, and `resume_cache_sound` is about the counter
and about deletions.
-/

namespace Ocserv

open HTable List Option Runs

section Resume

variable [Platform]

namespace TlsDb

variable {env : ResumeEnv} {db db' : TlsDb} {c : TlsCache} {cmd : Cmd}
  {req : SessionResumeStoreReqMsg} {f : SessionResumeFetchMsg} {id : List UInt8}

/-! ## What the commands do to the table -/

/-- Why a request to store a session is refused. -/
def refuses (env : ResumeEnv) (db : TlsDb) (req : SessionResumeStoreReqMsg) : Bool :=
  decide (GNUTLS_MAX_SESSION_ID < req.session_id.length) ||
    decide (req.session_data.length = 0 ∨ MAX_SESSION_DATA_SIZE < req.session_data.length) ||
    decide (env.max ≤ db.entries) ||
    decide (req.cli_addr.length = 0 ∨ SOCKADDR_STORAGE_SIZE < req.cli_addr.length)

theorem store_refused (h : db.refuses env req) :
    db.handle_resume_store_req env req = (db, -1) := by
  simp only [refuses, Bool.or_eq_true, decide_eq_true_eq] at h
  unfold handle_resume_store_req
  split
  · rfl
  · split
    · rfl
    · split
      · rfl
      · split
        · rfl
        · next h₁ h₂ h₃ h₄ =>
          rcases h with ((h | h) | h) | h <;> contradiction

/-- A session that is stored becomes one more element of the table. -/
theorem store_accepted (h : db.refuses env req = false) :
    (db.handle_resume_store_req env req).2 = 0 ∧
      (db.handle_resume_store_req env req).1.entries = db.entries + 1 ∧ db.entries < env.max ∧
      (db.handle_resume_store_req env req).1.toList.Perm (cache req :: db.toList) := by
  simp only [refuses, Bool.or_eq_false_iff, decide_eq_false_iff_not] at h
  obtain ⟨⟨⟨hid, hdata⟩, hmax⟩, haddr⟩ := h
  unfold handle_resume_store_req
  rw [if_neg hid, if_neg hdata, if_neg hmax, if_neg haddr]
  exact ⟨rfl, rfl, Nat.lt_of_not_le hmax, db.wf.toList_add _ _⟩

/-- A deletion takes out one element with the identifier, if there is one. -/
theorem delete_spec (db : TlsDb) (f : SessionResumeFetchMsg) :
    ((∀ c ∈ db.toList, c.session_id ≠ f.session_id) ∧ (db.handle_resume_delete_req f).1 = db) ∨
      ∃ c ∈ db.toList, c.session_id = f.session_id ∧
        db.toList.Perm (c :: (db.handle_resume_delete_req f).1.toList) ∧
        (db.handle_resume_delete_req f).1.entries = db.entries - 1 := by
  by_cases hex : ∃ c ∈ db.toList, c.session_id = f.session_id
  · right
    have hcmp : ∃ c ∈ db.ht.toList, c.rehash = Platform.hash_any f.session_id ∧
        decide (f.session_id = c.session_id) := by
      obtain ⟨c, hc, hid⟩ := hex
      exact ⟨c, hc, by rw [TlsCache.rehash, hid], decide_eq_true hid.symm⟩
    obtain ⟨c, hc, -, hid, hperm⟩ := db.wf.perm_del hcmp
    exact ⟨c, hc, (of_decide_eq_true hid).symm, hperm, if_pos (db.wf.del_snd.2 hcmp)⟩
  · left
    have hne : ∀ c ∈ db.toList, c.session_id ≠ f.session_id :=
      fun c hc hid => hex ⟨c, hc, hid⟩
    refine ⟨hne, ?_⟩
    have hsame := db.wf.del_of_forall (h := Platform.hash_any f.session_id)
      fun c hc _ => decide_eq_false (hne c hc).symm
    have hflag : ¬ (db.ht.del (Platform.hash_any f.session_id)
        fun c => f.session_id = c.session_id).2 := by
      rw [db.wf.del_snd]
      rintro ⟨c, hc, -, hid⟩
      exact hne c hc (of_decide_eq_true hid).symm
    simp only [handle_resume_delete_req, hsame, if_neg hflag]

theorem expire_toList (db : TlsDb) (now : Int) :
    (db.expire_tls_sessions env now).toList = db.toList.filter fun c => !expired env now c :=
  db.wf.toList_sweep _

theorem expire_entries (db : TlsDb) (now : Int) :
    (db.expire_tls_sessions env now).entries =
      db.entries - (db.toList.filter (expired env now)).length := by
  rw [expire_tls_sessions, toList, ← db.wf.swept_sweep]

/-! ## Runs -/

/-- The cache is new. -/
def Initial (db : TlsDb) : Prop := db = tls_cache_init

/-- The command takes the cache `db` to `db'`. -/
def Step (env : ResumeEnv) (db : TlsDb) (cmd : Cmd) (db' : TlsDb) : Prop := db' = db.exec env cmd

/-- The counter is the number of the elements, and is bounded. -/
structure Counted (env : ResumeEnv) (db : TlsDb) : Prop where
  entries : db.entries = db.toList.length
  le_max : db.entries ≤ env.max

theorem Counted.step (h : db.Counted env) (hstep : Step env db cmd db') : db'.Counted env := by
  obtain rfl := hstep
  cases cmd with
  | store req =>
    cases hrefuses : db.refuses env req with
    | true =>
      rw [exec, store_refused hrefuses]
      exact h
    | false =>
      obtain ⟨-, hentries, hlt, hperm⟩ := store_accepted hrefuses
      rw [exec]
      refine ⟨?_, ?_⟩
      · rw [hentries, hperm.length_eq, h.entries, length_cons]
      · omega
  | fetch f => exact h
  | delete f =>
    rw [exec]
    rcases db.delete_spec f with ⟨-, hsame⟩ | ⟨c, -, -, hperm, hentries⟩
    · rw [hsame]
      exact h
    · have hlen := hperm.length_eq
      rw [length_cons] at hlen
      have hcount := h.entries
      have hmax := h.le_max
      exact ⟨by omega, by omega⟩
  | expire now =>
    rw [exec]
    have hsplit := length_eq_length_filter_add (l := db.toList) (expired env now)
    have hcount := h.entries
    have hmax := h.le_max
    refine ⟨?_, ?_⟩
    · rw [expire_entries, expire_toList]
      omega
    · rw [expire_entries]
      omega

theorem Counted.initial (h : db.Initial) : db.Counted env := by
  obtain rfl := h
  exact ⟨rfl, Nat.zero_le _⟩

variable {trace : List (Transition TlsDb Cmd)} {cs : List TlsCache} {data : List UInt8}

theorem Counted.run (hrun : Run Initial (Step env) trace db) : db.Counted env :=
  hrun.invariant (fun _ hinit => Counted.initial hinit) fun _ _ _ h hstep => h.step hstep

/-! ## The search -/

/-- The request is for this session: the identifier is the same, the names of the virtual
hosts are the same up to case or missing, and so is the address of the client. -/
structure Matches (f : SessionResumeFetchMsg) (c : TlsCache) : Prop where
  session_id : f.session_id = c.session_id
  vhost : match f.vhost, c.vhostname with
    | none, none => True
    | some v, some v' => strcasecmp_eq v v'
    | _, _ => False
  addr : f.cli_addr.length = c.remote_addr.length ∧ ip_cmp_eq f.cli_addr c.remote_addr

omit [Platform] in
/-- Only a session that matches is found, and only without virtual hosts. -/
theorem resume_search_some (h : (resume_search f cs).session_data = some data) :
    f.vhost = none ∧ ∃ c ∈ cs, Matches f c ∧ data = c.session_data := by
  induction cs with
  | nil => simp [resume_search] at h
  | cons c cs ih =>
    have hlater : (resume_search f cs).session_data = some data →
        f.vhost = none ∧ ∃ c' ∈ c :: cs, Matches f c' ∧ data = c'.session_data := by
      intro h
      obtain ⟨hvhost, c', hc', hmatch⟩ := ih h
      exact ⟨hvhost, c', mem_cons_of_mem _ hc', hmatch⟩
    unfold resume_search at h
    split at h
    · next hid =>
      split at h
      · simp at h
      · split at h
        · simp at h
        · next hnames =>
          split at h
          · next haddr =>
            obtain ⟨hvhost, hname⟩ : f.vhost = none ∧ c.vhostname = none := by
              simpa using hnames
            refine ⟨hvhost, c, List.mem_cons_self, ⟨hid, ?_, haddr⟩, ?_⟩
            · rw [hvhost, hname]
              trivial
            · exact (some.inj h).symm
          · exact hlater h
    · exact hlater h

omit [Platform] in
/-- A session that matches is found, if it is the only one with its identifier. -/
theorem resume_search_of_mem (hc : c ∈ cs) (hmatch : Matches f c) (hvhost : f.vhost = none)
    (honly : ∀ c' ∈ cs, c'.session_id = c.session_id → c' = c) :
    resume_search f cs = { reply := .ok, session_data := some c.session_data } := by
  have hname : c.vhostname = none := by
    have h := hmatch.vhost
    rw [hvhost] at h
    cases hname : c.vhostname with
    | none => rfl
    | some name => simp [hname] at h
  induction cs with
  | nil => simp at hc
  | cons c' cs ih =>
    obtain ⟨honly', honly⟩ := forall_mem_cons.1 honly
    unfold resume_search
    split
    · next hid =>
      obtain rfl := honly' (hid.symm.trans hmatch.session_id)
      simp [hvhost, hname, hmatch.addr]
    · next hid =>
      rcases mem_cons.1 hc with rfl | hc
      · exact absurd hmatch.session_id hid
      · exact ih hc honly

/-! ## Deletions -/

/-- No session has this identifier. -/
def Absent (id : List UInt8) (db : TlsDb) : Prop := ∀ c ∈ db.toList, c.session_id ≠ id

theorem Absent.fetch (h : db.Absent f.session_id) :
    recv_resume_fetch_reply (db.resume_fetch_rep f) = none := by
  have hdata : (db.resume_fetch_rep f).session_data = none := by
    cases hsome : (db.resume_fetch_rep f).session_data with
    | none => rfl
    | some data =>
      obtain ⟨-, c, hc, hmatch, -⟩ := resume_search_some (f := f) hsome
      exact absurd hmatch.session_id.symm (h c (db.wf.mem_candidates.1 hc).1)
  simp [recv_resume_fetch_reply, hdata]

/-- A request to store a session is accepted. -/
def Accepts (env : ResumeEnv) (db : TlsDb) (req : SessionResumeStoreReqMsg) : Prop :=
  (db.handle_resume_store_req env req).2 = 0

instance (env : ResumeEnv) (db : TlsDb) (req : SessionResumeStoreReqMsg) :
    Decidable (db.Accepts env req) :=
  inferInstanceAs (Decidable ((db.handle_resume_store_req env req).2 = 0))

theorem accepts_iff : db.Accepts env req ↔ db.refuses env req = false := by
  cases hrefuses : db.refuses env req with
  | true => simp [Accepts, store_refused hrefuses]
  | false => simp [Accepts, (store_accepted hrefuses).1]

theorem mem_store (env : ResumeEnv) (db : TlsDb) (req : SessionResumeStoreReqMsg) :
    c ∈ (db.handle_resume_store_req env req).1.toList ↔
      c ∈ db.toList ∨ db.Accepts env req ∧ c = cache req := by
  rw [accepts_iff]
  cases hrefuses : db.refuses env req with
  | true => simp [store_refused hrefuses]
  | false =>
    rw [(store_accepted hrefuses).2.2.2.mem_iff, mem_cons]
    simp [or_comm]

theorem mem_delete (hc : c ∈ (db.handle_resume_delete_req f).1.toList) : c ∈ db.toList := by
  rcases db.delete_spec f with ⟨-, hsame⟩ | ⟨c', -, -, hperm, -⟩
  · rwa [hsame] at hc
  · exact hperm.mem_iff.2 (mem_cons_of_mem _ hc)

theorem Absent.step (h : db.Absent id) (hstep : Step env db cmd db')
    (hother : ∀ req, cmd = .store req → db.Accepts env req → req.session_id ≠ id) :
    db'.Absent id := by
  obtain rfl := hstep
  intro c hc
  cases cmd with
  | store req =>
    rcases (mem_store env db req).1 hc with hc | ⟨haccepts, rfl⟩
    · exact h c hc
    · exact hother req rfl haccepts
  | fetch f => exact h c hc
  | delete f => exact h c (mem_delete hc)
  | expire now =>
    rw [exec, expire_toList] at hc
    exact h c (mem_filter.1 hc).1

/-- A session is only deleted when at most one has its identifier. -/
def LoneDelete (t : Transition TlsDb Cmd) : Prop :=
  ∀ f, t.label = .delete f → t.pre.toList.countP (fun c => c.session_id = f.session_id) ≤ 1

theorem absent_delete (hlone : db.toList.countP (fun c => c.session_id = f.session_id) ≤ 1) :
    (db.handle_resume_delete_req f).1.Absent f.session_id := by
  rcases db.delete_spec f with ⟨hnone, hsame⟩ | ⟨c, -, hid, hperm, -⟩
  · rwa [hsame]
  · rw [hperm.countP_eq, countP_cons_of_pos (by simpa using hid)] at hlone
    have hzero : (db.handle_resume_delete_req f).1.toList.countP
        (fun c => c.session_id = f.session_id) = 0 := by omega
    simpa [Absent] using hzero

/-- In every run the counter is the number of the sessions in the table, and bounded.  If
sessions are only deleted when at most one has their identifier, then no worker gets a
deleted session until one is stored under its identifier again. -/
theorem resume_cache_sound {trace : List (Transition TlsDb Cmd)}
    (hrun : Run Initial (Step env) trace db) :
    db.entries = db.toList.length ∧ db.entries ≤ env.max ∧
      ((∀ t ∈ trace, LoneDelete t) → ∀ id,
        Since (fun _ t => ∃ f, t.label = .delete f ∧ f.session_id = id)
          (fun t => ∀ req, t.label = .store req → t.pre.Accepts env req → req.session_id ≠ id)
          trace →
        ∀ f, f.session_id = id → recv_resume_fetch_reply (db.resume_fetch_rep f) = none) := by
  have hcounted := Counted.run hrun
  refine ⟨hcounted.entries, hcounted.le_max, fun hlone id hsince f hf => ?_⟩
  have habsent : db.Absent id := by
    refine (hrun.restrict hlone).of_since ?_ ?_ hsince
    · rintro _ db _ _ _ ⟨rfl, hlone⟩ ⟨f, rfl, rfl⟩
      exact absent_delete (hlone f rfl)
    · exact fun db cmd db' h hstep hother => h.step hstep.1 hother
  exact Absent.fetch (hf ▸ habsent)

/-! ## Identifiers that are used once -/

/-- Sessions are stored under identifiers that are not in use. -/
def FreshStore (t : Transition TlsDb Cmd) : Prop :=
  ∀ req, t.label = .store req → t.pre.Absent req.session_id

/-- No two sessions in the table have the same identifier. -/
structure Proper (db : TlsDb) : Prop where
  nodup : (db.toList.map TlsCache.session_id).Nodup

theorem Proper.only (h : db.Proper) {c' : TlsCache} (hc : c ∈ db.toList) (hc' : c' ∈ db.toList)
    (hid : c'.session_id = c.session_id) : c' = c :=
  inj_on_of_nodup_map h.nodup hc' hc hid

theorem toList_init : tls_cache_init.toList = [] := rfl

theorem Proper.initial (h : db.Initial) : db.Proper := by
  obtain rfl := h
  constructor
  simp [toList_init]

theorem Proper.countP_le_one (h : db.Proper) (id : List UInt8) :
    db.toList.countP (fun c => c.session_id = id) ≤ 1 := by
  have hcount := nodup_iff_count_le_one.1 h.nodup id
  rw [List.count, countP_map] at hcount
  calc db.toList.countP (fun c => c.session_id = id)
      = db.toList.countP ((· == id) ∘ TlsCache.session_id) := by
        apply countP_congr
        simp
    _ ≤ 1 := hcount

/-- The commands that do not store anything leave some of the sessions. -/
theorem Proper.sublist (h : db.Proper) (hperm : cs.Subperm db.toList) (hcs : db'.toList = cs) :
    db'.Proper := by
  constructor
  rw [hcs]
  obtain ⟨cs', hperm', hsublist⟩ := hperm
  exact (hperm'.map _).nodup_iff.1 (h.nodup.sublist (hsublist.map _))

theorem Proper.store (h : db.Proper) (habsent : db.Absent req.session_id) :
    (db.handle_resume_store_req env req).1.Proper := by
  cases hrefuses : db.refuses env req with
  | true => rwa [store_refused hrefuses]
  | false =>
    obtain ⟨-, -, -, hperm⟩ := store_accepted hrefuses
    constructor
    rw [(hperm.map _).nodup_iff, map_cons, nodup_cons]
    refine ⟨fun hmem => ?_, h.nodup⟩
    obtain ⟨c, hc, hid⟩ := mem_map.1 hmem
    exact habsent c hc hid

theorem Proper.step (h : db.Proper) (hstep : Step env db cmd db')
    (hfresh : FreshStore ⟨db, cmd, db'⟩) : db'.Proper := by
  obtain rfl := hstep
  cases cmd with
  | store req => exact h.store (hfresh req rfl)
  | fetch f => exact h
  | delete f =>
    rw [exec]
    rcases db.delete_spec f with ⟨-, hsame⟩ | ⟨c, -, -, hperm, -⟩
    · rwa [hsame]
    · exact h.sublist ((sublist_cons_self c _).subperm.trans hperm.symm.subperm) rfl
  | expire now =>
    rw [exec]
    exact h.sublist filter_sublist.subperm (db.expire_toList now)

theorem Proper.run (hrun : Run Initial (Step env) trace db) (hfresh : ∀ t ∈ trace, FreshStore t) :
    db.Proper :=
  hrun.invariant_of_forall (fun _ hinit => Proper.initial hinit)
    (fun _ _ _ h hstep hfresh => h.step hstep hfresh) hfresh

/-! ## Sessions that are in the table -/

/-- The session of the request is stored. -/
def Stored (env : ResumeEnv) (req : SessionResumeStoreReqMsg) (t : Transition TlsDb Cmd) : Prop :=
  t.label = .store req ∧ t.pre.Accepts env req

/-- The session of the request is not deleted and does not expire, and no other one is
stored under its identifier. -/
def Keeps (env : ResumeEnv) (req : SessionResumeStoreReqMsg) (t : Transition TlsDb Cmd) : Prop :=
  match t.label with
  | .store req' => t.pre.Accepts env req' → req'.session_id ≠ req.session_id
  | .fetch _ => True
  | .delete f => f.session_id ≠ req.session_id
  | .expire now => expired env now (cache req) = false

theorem mem_of_since (hrun : Run Initial (Step env) trace db)
    (hsince : Since (fun _ => Stored env req) (Keeps env req) trace) : cache req ∈ db.toList := by
  refine hrun.of_since (P := fun db => cache req ∈ db.toList) ?_ ?_ hsince
  · rintro _ db _ _ _ rfl ⟨rfl, haccepts⟩
    exact (mem_store env db req).2 (.inr ⟨haccepts, rfl⟩)
  · rintro db cmd _ hmem rfl hkeeps
    cases cmd with
    | store req' => exact (mem_store env db req').2 (.inl hmem)
    | fetch f => exact hmem
    | delete f =>
      rw [exec]
      rcases db.delete_spec f with ⟨-, hsame⟩ | ⟨c, -, hid, hperm, -⟩
      · rwa [hsame]
      · rcases mem_cons.1 (hperm.mem_iff.1 hmem) with rfl | hmem
        · exact absurd hid.symm hkeeps
        · exact hmem
    | expire now =>
      rw [exec, expire_toList]
      exact mem_filter.2 ⟨hmem, by rw [hkeeps]; rfl⟩

theorem since_of_mem (hrun : Run Initial (Step env) trace db) (hfresh : ∀ t ∈ trace, FreshStore t)
    (hmem : cache req ∈ db.toList) : Since (fun _ => Stored env req) (Keeps env req) trace := by
  refine (hrun.restrict hfresh).since (P := fun db => cache req ∈ db.toList) ?_ ?_ hmem
  · rintro _ rfl
    simp [toList_init]
  · rintro trace db cmd _ hprev ⟨rfl, hfresh⟩ hmem
    have hproper : db.Proper := by
      refine hprev.invariant (fun _ hinit => Proper.initial hinit) ?_
      exact fun _ _ _ h hstep => h.step hstep.1 hstep.2
    cases cmd with
    | store req' =>
      rcases (mem_store env db req').1 hmem with hmem | ⟨haccepts, heq⟩
      · exact .inr ⟨fun _ hid => hfresh req' rfl (cache req) hmem hid.symm, hmem⟩
      · obtain rfl : req' = req := by
          cases req'
          cases req
          simpa [cache, and_comm, and_assoc, eq_comm] using heq
        exact .inl ⟨rfl, haccepts⟩
    | fetch f => exact .inr ⟨trivial, hmem⟩
    | delete f =>
      refine .inr ⟨fun hid => ?_, mem_delete hmem⟩
      exact absent_delete (hproper.countP_le_one _) (cache req) hmem hid.symm
    | expire now =>
      rw [exec, expire_toList, mem_filter] at hmem
      have hkept : expired env now (cache req) = false := by simpa using hmem.2
      exact .inr ⟨hkept, hmem.1⟩

/-! ## Fetch requests -/

/-- How a fetch request should be answered: with the data of a matching session that has
been stored and kept since, and with `FAILED` if no session in the table matches. -/
structure Answers (env : ResumeEnv) (trace : List (Transition TlsDb Cmd)) (db : TlsDb)
    (f : SessionResumeFetchMsg) : Prop where
  found : ∀ req, Since (fun _ => Stored env req) (Keeps env req) trace → Matches f (cache req) →
    db.resume_fetch_rep f = { reply := .ok, session_data := some req.session_data }
  failed : (∀ c ∈ db.toList, ¬ Matches f c) → (db.resume_fetch_rep f).reply = .failed

theorem Proper.fetch (h : db.Proper) (hc : c ∈ db.toList) (hmatch : Matches f c)
    (hvhost : f.vhost = none) :
    db.resume_fetch_rep f = { reply := .ok, session_data := some c.session_data } := by
  have hmem : c ∈ (db.ht.candidates (Platform.hash_any f.session_id)).map Prod.snd :=
    db.wf.mem_candidates.2 ⟨hc, by rw [TlsCache.rehash, hmatch.session_id]⟩
  have hsearch := resume_search_of_mem hmem hmatch hvhost fun c' hc' hid =>
    h.only hc (db.wf.mem_candidates.1 hc').1 hid
  simp [resume_fetch_rep, handle_resume_fetch_req, hsearch]

/-- In the runs that do not use an identifier twice, a fetch request is answered as it should
be if and only if it names no virtual host and there is a session that matches. -/
theorem resume_fetch_answered {trace : List (Transition TlsDb Cmd)}
    (hrun : Run Initial (Step env) trace db) (hfresh : ∀ t ∈ trace, FreshStore t)
    (f : SessionResumeFetchMsg) :
    Answers env trace db f ↔ f.vhost = none ∧ ∃ c ∈ db.toList, Matches f c := by
  have hproper := Proper.run hrun hfresh
  constructor
  · intro hanswers
    -- the reply never says that the request has failed
    have hex : ∃ c ∈ db.toList, Matches f c := by
      by_contra hnone
      have hfailed := hanswers.failed fun c hc hmatch => hnone ⟨c, hc, hmatch⟩
      simp [resume_fetch_rep, handle_resume_fetch_req] at hfailed
    refine ⟨?_, hex⟩
    obtain ⟨c, hc, hmatch⟩ := hex
    have hrep := hanswers.found ⟨c.session_id, c.session_data, c.remote_addr, c.vhostname⟩
      (since_of_mem hrun hfresh hc) hmatch
    exact (resume_search_some (f := f) (congrArg SessionResumeReplyMsg.session_data hrep)).1
  · rintro ⟨hvhost, c, hc, hmatch⟩
    refine ⟨fun req hsince hreq => ?_, fun hnone => absurd hmatch (hnone c hc)⟩
    exact hproper.fetch (mem_of_since hrun hsince) hreq hvhost

end TlsDb
end Resume

/-! ## Runs of the cache -/

section Example

open TlsDb

local instance resumePlatform : Platform := Platform.simple

private def resumeEnv : ResumeEnv := ⟨0, 300, fun _ => 0⟩

private def client : SockAddr := [2, 0, 0, 0, 192, 0, 2, 1] ++ List.replicate 8 0

private def session (vhost : Option CStr) : SessionResumeStoreReqMsg := ⟨[1], [7, 7], client, vhost⟩

private def ask (vhost : Option CStr) : SessionResumeFetchMsg := ⟨[1], client, vhost⟩

private def emptyDb : TlsDb := tls_cache_init

private def cached (vhost : Option CStr) : TlsDb := emptyDb.exec resumeEnv (.store (session vhost))

private def storing (vhost : Option CStr) : Transition TlsDb Cmd :=
  ⟨emptyDb, .store (session vhost), cached vhost⟩

private theorem run_cached (vhost : Option CStr) :
    Run Initial (Step resumeEnv) [storing vhost] (cached vhost) :=
  .snoc (.start rfl) rfl

private theorem emptyDb_storing (vhost : Option CStr) : ∀ t ∈ [storing vhost], FreshStore t := by
  simp [FreshStore, storing, emptyDb, Absent, toList_init]

/-- A session of the default virtual host is found again. -/
theorem resume_fetch_answered_default : ∃ P : Platform, ∃ (env : ResumeEnv)
    (trace : List (Transition (@TlsDb P) Cmd)) (db : @TlsDb P) (f : SessionResumeFetchMsg),
    db.toList.length = 1 ∧ Answers env trace db f := by
  have hmatch : ∃ c ∈ (cached none).toList, Matches (ask none) c :=
    ⟨cache (session none), by decide +kernel, rfl, trivial, rfl, by decide⟩
  exact ⟨resumePlatform, resumeEnv, _, _, ask none, by decide +kernel,
    (resume_fetch_answered (run_cached none) (emptyDb_storing none) (ask none)).2 ⟨rfl, hmatch⟩⟩

/-- A session of a named virtual host is not found again, and the reply to a request that
nothing matches says `OK`. -/
theorem resume_fetch_misanswered : ∃ P : Platform, ∃ env : ResumeEnv,
    (∃ (trace : List (Transition (@TlsDb P) Cmd)) (db : @TlsDb P) (f : SessionResumeFetchMsg),
      Run Initial (Step env) trace db ∧ (∃ c ∈ db.toList, Matches f c) ∧
        ¬ Answers env trace db f) ∧
    ∃ (trace : List (Transition (@TlsDb P) Cmd)) (db : @TlsDb P) (f : SessionResumeFetchMsg),
      Run Initial (Step env) trace db ∧ f.vhost = none ∧ ¬ Answers env trace db f := by
  have hmatch : Matches (ask (some ['a'])) (cache (session (some ['a']))) :=
    ⟨rfl, (by decide : strcasecmp_eq ['a'] ['a'] = true), rfl, by decide⟩
  refine ⟨resumePlatform, resumeEnv, ⟨_, _, ask (some ['a']), run_cached (some ['a']),
    ⟨_, by decide +kernel, hmatch⟩, fun hanswers => ?_⟩,
    ⟨[], emptyDb, ask none, .start rfl, rfl, fun hanswers => ?_⟩⟩
  · have hfound := hanswers.found _ (.now ⟨rfl, by decide +kernel⟩) hmatch
    exact absurd hfound (by decide +kernel)
  · have hfailed := hanswers.failed (by simp [emptyDb, toList_init])
    exact absurd hfailed (by decide +kernel)

private def deleted : TlsDb := (cached none).exec resumeEnv (.delete (ask none))

/-- A session that has been stored and deleted is not found any more. -/
theorem resume_cache_sound_deleted : ∃ P : Platform, ∃ (db : @TlsDb P) (f : SessionResumeFetchMsg),
    db.entries = db.toList.length ∧ recv_resume_fetch_reply (db.resume_fetch_rep f) = none := by
  have hrun : Run Initial (Step resumeEnv)
      [⟨cached none, .delete (ask none), deleted⟩, storing none] deleted :=
    (run_cached none).snoc rfl
  have hlone : ∀ t ∈ [⟨cached none, .delete (ask none), deleted⟩, storing none], LoneDelete t := by
    refine forall_mem_cons.2 ⟨?_, forall_mem_singleton.2 ?_⟩
    · intro f hf
      obtain rfl := Cmd.delete.inj hf
      decide +kernel
    · exact fun f hf => by cases hf
  obtain ⟨hentries, -, hdeleted⟩ := resume_cache_sound hrun
  exact ⟨resumePlatform, deleted, ask none, hentries,
    hdeleted hlone [1] (.now ⟨ask none, rfl, rfl⟩) (ask none) rfl⟩

private def cachedTwice : TlsDb := (cached none).exec resumeEnv (.store (session none))

private def deletedOnce : TlsDb := cachedTwice.exec resumeEnv (.delete (ask none))

/-- A session that has been stored twice is still found after it has been deleted. -/
theorem resume_deleted_found : ∃ P : Platform, ∃ (env : ResumeEnv)
    (trace : List (Transition (@TlsDb P) Cmd)) (db : @TlsDb P) (id : List UInt8)
    (f : SessionResumeFetchMsg), Run Initial (Step env) trace db ∧
      Since (fun _ t => ∃ f, t.label = .delete f ∧ f.session_id = id)
        (fun t => ∀ req, t.label = .store req → t.pre.Accepts env req → req.session_id ≠ id)
        trace ∧
      f.session_id = id ∧ recv_resume_fetch_reply (db.resume_fetch_rep f) = some [7, 7] := by
  have hrun : Run Initial (Step resumeEnv)
      [⟨cachedTwice, .delete (ask none), deletedOnce⟩,
        ⟨cached none, .store (session none), cachedTwice⟩, storing none] deletedOnce :=
    ((run_cached none).snoc rfl).snoc rfl
  exact ⟨resumePlatform, resumeEnv, _, deletedOnce, [1], ask none, hrun,
    .now ⟨ask none, rfl, rfl⟩, rfl, by decide +kernel⟩

end Example
end Ocserv

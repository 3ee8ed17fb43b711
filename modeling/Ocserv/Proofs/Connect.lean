import Ocserv.Proofs.System

/-!
# The course of a worker

Between its cookie request and its first packet a worker passes through main's connect
script, the reply and the routes; when it is removed, the script of the other end may be
run.  What main knows of one worker and has done about it is its `Course`, and an event
about one worker leaves the courses of the others alone.  So a property of all workers comes
down to what one event does to one course: `Course.Turn` before the worker is written back
or removed, and `Course.Ended` when it is removed (`Sys.courses_step`).
-/

namespace Ocserv

open Ledger List Option Outcome Runs

/-! ## What is followed -/

/-- What main has done about a worker. -/
structure Track where
  scripts : List ScriptWait := []
  /-- how often its connect phase has started -/
  started : Nat := 0
  ended : Nat := 0
  ledger : List (Entry (Nat × CStr)) := []

structure Course extends Track where
  profile : Option Proc.Profile := none

/-- What a worker has got beyond its first state comes with the data of its session. -/
structure Proc.Profile.Filled (f : Proc.Profile) : Prop where
  hostname : f.hostname ≠ [] → f.config.isSome
  active : f.active_sid → f.vhost.isSome
  completed : f.status = .completed → f.config.isSome

/-- A worker has at most one script, and waits for it. -/
structure Course.Ok (c : Course) : Prop where
  filled : ∀ f, c.profile = some f → f.Filled
  unapplied : ∀ f, c.profile = some f → f.status = .inactive → f.applied_iroutes = false
  waiting : c.scripts = [] ∨ ∃ stmp f, c.scripts = [stmp] ∧ 0 < stmp.pid ∧ c.profile = some f ∧
    f.status = .failed ∧ f.applied_iroutes = false ∧ f.config.isSome

/-- A worker that has just been started. -/
def Proc.Profile.fresh (id : Nat) : Proc.Profile where
  id := id
  hostname := []
  status := .inactive
  active_sid := false
  config := none
  vhost := none
  applied_iroutes := false

section Connect

variable [Platform]

def Main.track (m : Main) (id : Nat) : Track where
  scripts := m.script_list.filter fun stmp => stmp.proc = id
  started := m.phases.count (.connected id)
  ended := m.phases.count (.user_disconnected id)
  ledger := m.ledger.filter fun e => e.key.1 = id

def Main.course (m : Main) (id : Nat) : Course where
  toTrack := m.track id
  profile := (m.find_proc id).map Proc.profile

/-- The other workers are as they were, and `t` has been done about the worker `w`. -/
structure Main.Steady (w : Nat) (t : Track) (m m' : Main) : Prop where
  others : ∀ id, id ≠ w → m'.course id = m.course id
  own : m'.track w = t
  here : (m'.find_proc w).isSome = (m.find_proc w).isSome
  next : m.next ≤ m'.next
  vconfig : m'.vconfig = m.vconfig

/-- Nothing has been done about `w` either. -/
abbrev Main.Silent (w : Nat) (m m' : Main) : Prop := m.Steady w (m.track w) m'

variable {env : MainEnv} {w : Nat} {t t' : Track} {m m₁ m₂ m' : Main} {p p' q : Proc} {ret : Int}

theorem Main.track_congr (hscripts : m'.script_list = m.script_list)
    (hphases : m'.phases = m.phases) (hledger : m'.ledger = m.ledger) (id : Nat) :
    m'.track id = m.track id := by
  rw [track, track, hscripts, hphases, hledger]

theorem Main.course_store (m : Main) (q : Proc) (id : Nat) :
    (m.store q).course id =
      if id = q.id then { m.course id with profile := (m.find_proc id).map fun _ => q.profile }
      else m.course id := by
  have htrack : (m.store q).track id = m.track id := rfl
  rw [course, course, htrack, find_proc_store]
  split
  · rw [Option.map_map]
    rfl
  · rfl

theorem Main.course_store_same {q₀ : Proc} (hfind : m.find_proc q.id = some q₀)
    (hprofile : q.profile = q₀.profile) (id : Nat) : (m.store q).course id = m.course id := by
  rw [course_store]
  split
  · next hid => rw [course, hid, hfind, map_some, map_some, hprofile]
  · rfl

namespace Main.Steady

theorem of_procs (hprocs : m'.procs = m.procs) (hnext : m.next ≤ m'.next)
    (hvconfig : m'.vconfig = m.vconfig) (htrack : ∀ id, id ≠ w → m'.track id = m.track id)
    (hown : m'.track w = t) : m.Steady w t m' := by
  have hfind : ∀ id, m'.find_proc id = m.find_proc id := fun id => by
    rw [find_proc, find_proc, hprocs]
  refine ⟨fun id hne => ?_, hown, by rw [hfind], hnext, hvconfig⟩
  rw [course, course, htrack id hne, hfind]

/-- Only the list of the scripts has changed. -/
theorem of_scripts {scripts : List ScriptWait} (hprocs : m'.procs = m.procs)
    (hnext : m.next ≤ m'.next) (hvconfig : m'.vconfig = m.vconfig) (hphases : m'.phases = m.phases)
    (hledger : m'.ledger = m.ledger)
    (hothers : ∀ id, id ≠ w → m'.script_list.filter (fun stmp => stmp.proc = id) =
      m.script_list.filter fun stmp => stmp.proc = id)
    (hown : m'.script_list.filter (fun stmp => stmp.proc = w) = scripts) :
    m.Steady w { m.track w with scripts } m' := by
  refine .of_procs hprocs hnext hvconfig (fun id hne => ?_) ?_
  · rw [track, track, hothers id hne, hphases, hledger]
  · rw [track, hown, hphases, hledger]
    rfl

theorem trans (h₁ : m.Steady w t m₁) (h₂ : m₁.Steady w t' m₂) : m.Steady w t' m₂ where
  others id hne := (h₂.others id hne).trans (h₁.others id hne)
  own := h₂.own
  here := h₂.here.trans h₁.here
  next := Nat.le_trans h₁.next h₂.next
  vconfig := h₂.vconfig.trans h₁.vconfig

/-- Nothing more is done about the worker. -/
theorem silent (h₁ : m.Steady w t m₁) (h₂ : m₁.Silent w m₂) : m.Steady w t m₂ :=
  h₁.trans (h₁.own ▸ h₂)

theorem store (h : m.Steady w t m') (hid : p.id = w) : m.Steady w t (m'.store p) := by
  refine ⟨fun id hne => ?_, h.own, ?_, h.next, h.vconfig⟩
  · rw [course_store, if_neg (hid ▸ hne)]
    exact h.others id hne
  · rw [find_proc_store, if_pos hid.symm, isSome_map]
    exact h.here

theorem store_same {o : Proc} (h : m.Steady w t m') (hfind : m'.find_proc q.id = some o)
    (hprofile : q.profile = o.profile) : m.Steady w t (m'.store q) := by
  refine ⟨fun id hne => ?_, h.own, ?_, h.next, h.vconfig⟩
  · rw [course_store_same hfind hprofile]
    exact h.others id hne
  · rw [← h.here, find_proc_store]
    split
    · exact isSome_map
    · rfl

theorem written (h : m.Steady w t m') (hid : p'.id = w) (hfind : m.find_proc w = some p) :
    (m'.store p').course w = ⟨t, some p'.profile⟩ := by
  have hsome : (m'.find_proc w).isSome := by rw [h.here, hfind]; rfl
  obtain ⟨q, hq⟩ := isSome_iff_exists.1 hsome
  rw [course_store, if_pos hid.symm, hq, course, h.own]
  rfl

theorem config (h : m.Steady w t m') : m'.config = m.config := by
  rw [Main.config, Main.config, h.vconfig]

end Main.Steady

theorem Main.Silent.of_log (hprocs : m'.procs = m.procs) (hnext : m.next ≤ m'.next)
    (hvconfig : m'.vconfig = m.vconfig) (hscripts : m'.script_list = m.script_list)
    (hlog : m'.log = m.log) : m.Silent w m' := by
  have htrack := Main.track_congr hscripts (by rw [Main.phases, hlog]; rfl)
    (by rw [Main.ledger, hlog]; rfl)
  exact .of_procs hprocs hnext hvconfig (fun id _ => htrack id) (htrack w)

theorem Main.Silent.refl (m : Main) : m.Silent w m := .of_log rfl (Nat.le_refl _) rfl rfl rfl

theorem Main.Emits.silent (h : m.Emits Effect.Plain m') : m.Silent w m' := by
  have hlogged := h.logged
  have htrack := Main.track_congr h.script_list (h.phases fun _ he => he.1)
    (h.ledger fun _ he => he.2)
  exact .of_procs hlogged.procs hlogged.next.ge hlogged.vconfig (fun id _ => htrack id) (htrack w)

theorem Moved.silent (h : Moved env m p m' p') : m.Silent p.id m' := by
  induction h with
  | refl => exact .refl m
  | emits _ hemits ih => exact ih.silent hemits.silent
  | table hmoved _ ih =>
    have hstored := ih.store (congrArg Proc.Profile.id hmoved.profile)
    exact ⟨hstored.others, hstored.own, hstored.here, hstored.next, hstored.vconfig⟩
  | update _ _ _ ih | kill _ ih => exact ih
  | lease4 _ _ _ ih | lease6 _ _ _ ih =>
    exact ih.silent (.of_log rfl (Nat.le_succ _) rfl rfl rfl)

variable {cfg : Cfg} {f : Proc.Profile} {c : Course}

omit [Platform] in
theorem Routed.key {new : List (Entry (Nat × CStr))} {applied : Bool}
    (h : Routed cfg f new applied) :
    ∀ e ∈ new, e.key.1 = f.id := by
  have hcredit : ∀ routes, ∀ e ∈ (ownedBy f.id routes).map Entry.credit, e.key.1 = f.id := by
    simp [ownedBy, Entry.key]
  have hdebit : ∀ routes, ∀ e ∈ (ownedBy f.id routes).map Entry.debit, e.key.1 = f.id := by
    simp [ownedBy, Entry.key]
  cases h with
  | untold => simp
  | applied =>
    split
    · exact hcredit _
    · simp
  | undone => exact forall_mem_append.2 ⟨hdebit _, hcredit _⟩

/-- The connect phase of `w` starts, and its routes are entered. -/
theorem Main.Emits.steady {new : List (Entry (Nat × CStr))}
    (h : (m.emit (.connected w)).Emits (·.isPhase = false) m')
    (hledger : m'.ledger = new ++ m.ledger) (hkey : ∀ e ∈ new, e.key.1 = w) :
    m.Steady w
      { m.track w with started := (m.track w).started + 1, ledger := new ++ (m.track w).ledger }
      m' := by
  have hphases : m'.phases = .connected w :: m.phases := h.phases fun _ he => he
  have hlogged := (m.emit_logged (.connected w)).trans h.logged
  refine .of_procs hlogged.procs hlogged.next.ge hlogged.vconfig (fun id hne => ?_) ?_
  · have hnone : new.filter (fun e => e.key.1 = id) = [] :=
      filter_eq_nil_iff.2 fun e he => by simpa [hkey e he] using hne.symm
    rw [track, track, h.script_list, hphases, hledger, filter_append, hnone,
      count_cons_of_ne (by simpa using hne.symm), count_cons_of_ne (by simp)]
    rfl
  · have hall : new.filter (fun e => e.key.1 = w) = new :=
      filter_eq_self.2 fun e he => by simpa using hkey e he
    rw [track, h.script_list, hphases, hledger, filter_append, hall, count_cons_self,
      count_cons_of_ne (by simp)]
    rfl

/-! ## What an event does to a course -/

/-- The routes are those that the additional configuration of a user gives. -/
def MainEnv.Gives (env : MainEnv) (iroutes : List CStr) : Prop :=
  ∃ e gc, SecMod.sup_config env.sec e = some gc ∧ gc.iroutes = iroutes

/-- Up to the answer of sec-mod a cookie request only loads the session. -/
structure Proc.Profile.Loaded (env : MainEnv) (f g : Proc.Profile) : Prop where
  id : g.id = f.id
  status : g.status = f.status
  applied_iroutes : g.applied_iroutes = f.applied_iroutes
  opened : g.config.isSome ∧ g.vhost.isSome ∨ g = f
  iroutes : ∀ config, g.config = some config → f.config = some config ∨ env.Gives config.iroutes

omit [Platform] in
theorem Proc.Profile.Loaded.refl (f : Proc.Profile) : f.Loaded env f :=
  ⟨rfl, rfl, rfl, .inr rfl, fun _ h => .inl h⟩

/-- The event can start a connect phase. -/
def Sys.Event.connects : Sys.Event → Bool
  | .worker _ (.auth_cookie_req _) => true
  | .script_exit _ rstatus => rstatus.succeeded
  | _ => false

/-- The event is the exit of a script. -/
def Sys.Event.exits : Sys.Event → Bool
  | .script_exit _ _ => true
  | _ => false

/-- What main makes of a worker in an event about it, before it writes the worker back or
removes it. -/
inductive Course.Turn (env : MainEnv) (cfg : Cfg) (ev : Sys.Event) (c : Course)
    (f : Proc.Profile) : Course → Int → Prop
  | plain {ret : Int} : ev.exits = false → Turn env cfg ev c f c ret
  /-- the cookie is refused -/
  | refused {g : Proc.Profile} {ret : Int} : ev.exits = false → f.status = .inactive →
      f.Loaded env g →
      Turn env cfg ev c f { c with profile := some { g with status := .failed } } ret
  /-- the connect script has been started -/
  | waiting {g : Proc.Profile} {pid : Int} : f.status = .inactive → f.Loaded env g →
      g.config.isSome → 0 < pid →
      Turn env cfg ev c f
        { c with profile := some { g with status := .failed }, scripts := [⟨f.id, pid⟩] } 0
  /-- the worker is connected, and it may be impossible to tell it so -/
  | connected {g : Proc.Profile} {new : List (Entry (Nat × CStr))} {status : PsAuth}
      {applied_iroutes : Bool} {ret : Int} : ev.connects → f.status ≠ .completed →
      f.applied_iroutes = false → f.Loaded env g → g.config.isSome →
      Routed cfg g new applied_iroutes →
      status = .completed ∧ ret = 0 ∨ status = .failed ∧ ret < 0 ∧ ¬ env.Delivers →
      Turn env cfg ev c f
        { c with
          profile := some { g with status, applied_iroutes }
          scripts := []
          started := c.started + 1
          ledger := new ++ c.ledger } ret
  /-- the script has failed -/
  | exited {ret : Int} : Turn env cfg ev c f { c with scripts := [] } ret

/-- The course of a worker that is removed. -/
structure Course.Ended (env : MainEnv) (cfg : Cfg) (c : Course) (f : Proc.Profile) (c' : Course) :
    Prop where
  profile : c'.profile = none
  scripts : c'.scripts = []
  started : c'.started = c.started + (env.closing f.status c.scripts.head?).1.toNat
  ended : c'.ended = c.ended + (env.closing f.status c.scripts.head?).2.toNat
  ledger : ∃ dev, c'.ledger =
    (if f.applied_iroutes then
      (ownedBy f.id (cfg.deleted dev ((f.config.map (·.iroutes)).getD []))).map .debit
    else []) ++ c.ledger

omit [Platform] in
/-- A worker that is still in its first state does not wait for a script. -/
theorem Course.Ok.idle (h : c.Ok) (hf : c.profile = some f) (hst : f.status ≠ .failed) :
    c.scripts = [] := by
  rcases h.waiting with hnil | ⟨stmp, g, -, -, hg, hfailed, -⟩
  · exact hnil
  · obtain rfl := some.inj (hf.symm.trans hg)
    exact absurd hfailed hst

omit [Platform] in
theorem Course.Ok.turn {ev : Sys.Event} {c₁ : Course} (h : c.Ok) (hf : c.profile = some f)
    (hturn : Turn env cfg ev c f c₁ ret) : c₁.Ok := by
  -- the session is loaded, or the worker is as before
  have hloaded : ∀ {g : Proc.Profile} {status : PsAuth} {applied_iroutes : Bool},
      f.Loaded env g → (status = .completed → g.config.isSome) →
      Proc.Profile.Filled { g with status, applied_iroutes } := by
    intro g status applied_iroutes hload hstatus
    rcases hload.opened with ⟨hconfig, hvhost⟩ | rfl
    · exact ⟨fun _ => hconfig, fun _ => hvhost, fun _ => hconfig⟩
    · exact ⟨(h.filled _ hf).hostname, (h.filled _ hf).active, hstatus⟩
  have hone : ∀ {g g' : Proc.Profile}, some g = some g' → g.Filled → g'.Filled :=
    fun heq hg => some.inj heq ▸ hg
  cases hturn with
  | plain => exact h
  | refused _ hst hload =>
    refine ⟨fun g hg => hone hg (hloaded hload nofun), fun g hg hin => ?_, .inl ?_⟩
    · rw [← some.inj hg] at hin
      exact nomatch hin
    · exact h.idle hf (by rw [hst]; decide)
  | @waiting g pid hst hload hconfig hpid =>
    have happlied := hload.applied_iroutes.trans (h.unapplied f hf hst)
    exact ⟨fun g' hg => hone hg (hloaded hload nofun), fun g' hg hin => some.inj hg ▸ happlied,
      .inr ⟨_, _, rfl, hpid, rfl, rfl, happlied, hconfig⟩⟩
  | connected _ _ _ hload hconfig _ hend =>
    refine ⟨fun g hg => hone hg (hloaded hload fun _ => hconfig), fun g hg hin => ?_, .inl rfl⟩
    rw [← some.inj hg] at hin
    rcases hend with ⟨hst, -⟩ | ⟨hst, -⟩
    · exact nomatch hst.symm.trans hin
    · exact nomatch hst.symm.trans hin
  | exited => exact ⟨h.filled, h.unapplied, .inl rfl⟩

omit [Platform] in
theorem Course.Ended.ok {c' : Course} (h : Course.Ended env cfg c f c') : c'.Ok :=
  ⟨fun _ hf => absurd (h.profile.symm.trans hf) nofun,
    fun _ hf => absurd (h.profile.symm.trans hf) nofun, .inl h.scripts⟩

/-! ## Messages -/

theorem Main.take_over_silent {old : Proc} (hpid : 0 < old.pid)
    (hold : m.find_proc old.id = some old) : m.Silent w (m.take_over old p).1 := by
  have hnext : m.Silent w { m with next := m.next + 2 } :=
    .of_log rfl (Nat.le_add_right _ 2) rfl rfl rfl
  rw [take_over_fst hpid]
  exact (hnext.silent (Main.Emits.emit ⟨rfl, rfl⟩).silent).store_same (o := old) hold rfl

theorem Main.attach_silent (sid : Sid) (hostname : Option CStr) :
    m.Silent p.id (m.attach p sid hostname).1 := by
  have hstored : m.Silent p.id (m.store (m.attach p sid hostname).2) := (Silent.refl m).store rfl
  exact ⟨hstored.others, hstored.own, hstored.here, hstored.next, hstored.vconfig⟩

theorem handle_auth_cookie_req_loaded {sec sec₁ : SecMod} {req : AuthCookieRequestMsg} {sid : Sid}
    {p₁ : Proc} {result : Int} (hpid : ∀ q ∈ m.procs, 0 < q.pid)
    (h : CookieStep env m sec p req sid m₁ sec₁ p₁ result) :
    m.Silent p.id m₁ ∧ p.profile.Loaded env p₁.profile := by
  have hwaits : ∀ {p₁ : Proc}, p.Waits p₁ → m.Silent p.id m ∧ p.profile.Loaded env p₁.profile :=
    fun hwaits => ⟨.refl m, hwaits.profile ▸ .refl _⟩
  -- what sec-mod has told of the session
  have hopened : ∀ {info : SessionInfo} {p₂ : Proc} {active_sid : Bool} {hostname : CStr},
      (sec.handle_secm_session_open_cmd env.sec (p.openMsg sid)).reply = some (.ok info) →
      p.Loaded m.vconfig info p₂ →
      p.profile.Loaded env { p₂.profile with active_sid, hostname } := by
    intro info p₂ active_sid hostname hreply hload
    obtain ⟨e, hfrom⟩ := SecMod.session_open_opened env.sec sec rfl hreply
    have hstatus : p₂.status = p.status := congrArg Proc.Profile.status hload.profile
    have happlied : p₂.applied_iroutes = p.applied_iroutes :=
      congrArg Proc.Profile.applied_iroutes hload.profile
    refine ⟨hload.same.id, hstatus, happlied, .inl ⟨?_, ?_⟩, fun config hsome => .inr ?_⟩
    · show p₂.config.isSome
      rw [hload.config]
      rfl
    · show p₂.vhost.isSome
      rw [hload.vhost]
      rfl
    · obtain rfl := some.inj (hload.config.symm.trans hsome)
      exact ⟨e, info.config, hfrom.config, rfl⟩
  cases h with
  | refused h => exact hwaits h
  | unopened h => exact hwaits h
  | lost hreply _ hload => exact ⟨.refl m, hopened hreply hload⟩
  | @fresh _ p₂ hreply _ hload =>
    have hid : p₂.id = p.id := hload.same.id
    exact ⟨hid ▸ Main.attach_silent sid req.hostname, hopened hreply hload⟩
  | @taken _ old p₂ hreply hold _ _ hload =>
    obtain ⟨n, -, hfind⟩ := bind_eq_some_iff.1 hold
    obtain ⟨hmem, rfl⟩ := Main.find_proc_eq_some hfind
    have hsilent : m.Silent p.id (m.take_over old p₂).1 :=
      Main.take_over_silent (hpid old hmem) hfind
    have hid : (p₂.heir old).id = p.id := hload.same.id
    exact ⟨hsilent.silent (hid ▸ Main.attach_silent sid req.hostname),
      @hopened _ p₂ _ _ hreply hload⟩

/-- The worker `p` has become `p'`, which is not yet written back. -/
structure Turned (env : MainEnv) (m : Main) (p : Proc) (ev : Sys.Event) (m' : Main) (p' : Proc)
    (ret : Int) : Prop where
  id : p'.id = p.id
  course : ∃ t, m.Steady p.id t m' ∧
    Course.Turn env m.config ev (m.course p.id) p.profile ⟨t, some p'.profile⟩ ret

theorem Main.course_eq (hfind : m.find_proc w = some p) :
    m.course w = ⟨m.track w, some p.profile⟩ := by
  rw [course, hfind]
  rfl

theorem Main.course_profile (hfind : m.find_proc w = some p) :
    (m.course w).profile = some p.profile := by
  rw [course_eq hfind]

/-- A cookie request that has been resolved. -/
theorem Resolving.turned {ev : Sys.Event} (hfind : m.find_proc p.id = some p)
    (hok : (m.course p.id).Ok) (hst : p.status = .inactive) (hconnects : ev.connects)
    (hexits : ev.exits = false) (hsilent : m.Silent p.id m₁)
    (hload : p.profile.Loaded env q.profile)
    (h : Resolving env m₁ q m' p' ret) : Turned env m p ev m' p' ret := by
  have hid : q.id = p.id := hload.id
  have hscripts : (m.course p.id).scripts = [] :=
    hok.idle (Main.course_profile hfind)
      (by rw [show p.profile.status = .inactive from hst]; decide)
  have hmove : ∀ {m₂ : Main} {p₂ : Proc}, Moved env m₁ q m₂ p₂ →
      m.Silent p.id m₂ ∧ p₂.profile = q.profile ∧ p₂.id = p.id := fun hmoved =>
    ⟨hsilent.silent (hid ▸ hmoved.silent), hmoved.profile,
      (congrArg Proc.Profile.id hmoved.profile).trans hid⟩
  -- the phase has started, whether or not the worker can be told
  have hconnected : ∀ {m₂ : Main} {p₂ : Proc} {new : List (Entry (Nat × CStr))} {status : PsAuth}
      {applied_iroutes : Bool}, Moved env m₁ q m₂ p₂ → q.config.isSome →
      (m₂.emit (.connected p₂.id)).Emits (·.isPhase = false) m' → m'.ledger = new ++ m₂.ledger →
      Routed m₂.config p₂.profile new applied_iroutes →
      p'.profile = { p₂.profile with status, applied_iroutes } →
      status = .completed ∧ ret = 0 ∨ status = .failed ∧ ret < 0 ∧ ¬ env.Delivers →
      Turned env m p ev m' p' ret := by
    intro m₂ p₂ new status applied_iroutes hmoved hconfig hemits hledger hrouted hp' hend
    obtain ⟨hsilent₂, hprofile, hid₂⟩ := hmove hmoved
    rw [hprofile] at hp'
    have hkey := hrouted.key
    rw [hid₂] at hemits
    rw [hsilent₂.config, hprofile] at hrouted
    refine ⟨(congrArg Proc.Profile.id hp').trans hid, _,
      hsilent₂.trans (hemits.steady hledger ?_), ?_⟩
    · intro e he
      exact (hkey e he).trans hid₂
    · rw [hp', hsilent₂.own]
      have hturn := Course.Turn.connected (c := m.course p.id) hconnects
        (by rw [show p.profile.status = .inactive from hst]; decide)
        (hok.unapplied _ (Main.course_profile hfind) hst) hload hconfig hrouted hend
      rw [← hscripts] at hturn
      exact hturn
  cases h with
  | @refused m₂ m₃ p₂ _ _ hmoved hemits =>
    obtain ⟨hsilent₂, hprofile, hid₂⟩ := hmove hmoved
    refine ⟨hid₂, _, hsilent₂.silent hemits.silent, ?_⟩
    have hturn : Course.Turn env m.config ev (m.course p.id) p.profile _ ret :=
      .refused hexits hst hload
    rw [← hprofile] at hturn
    exact hturn
  | @waiting m₂ p₂ hmoved hconfig hfork =>
    obtain ⟨hsilent₂, hprofile, hid₂⟩ := hmove hmoved
    have hlist : m₂.Steady p.id { m₂.track p.id with scripts := [⟨p.id, env.fork⟩] }
        { m₂.emit (.script .connect p₂.id) with
          script_list := ⟨p₂.id, env.fork⟩ :: m₂.script_list } := by
      refine .of_scripts rfl (Nat.le_refl _) rfl rfl rfl (fun id hne => ?_) ?_
      · exact filter_cons_of_neg (by simpa [hid₂] using hne.symm)
      · have hnil : m₂.script_list.filter (fun stmp => stmp.proc = p.id) = [] :=
          (congrArg Track.scripts hsilent₂.own).trans hscripts
        rw [filter_cons_of_pos (by simpa using hid₂), hnil, hid₂]
    refine ⟨hid₂, _, hsilent₂.trans hlist, ?_⟩
    have hturn : Course.Turn env m.config ev (m.course p.id) p.profile _ 0 :=
      .waiting hst hload hconfig hfork
    rw [← hprofile] at hturn
    rw [hsilent₂.own]
    exact hturn
  | accepted hmoved hconfig hemits hledger hrouted =>
    exact hconnected hmoved hconfig hemits hledger hrouted rfl (.inl ⟨rfl, rfl⟩)
  | dropped hmoved hconfig hemits hledger hrouted hneg henv =>
    exact hconnected hmoved hconfig hemits hledger hrouted rfl (.inr ⟨rfl, hneg, henv⟩)

theorem Handling.turned {s s' : Sys} {msg : WorkerMsg} (hpid : ∀ q ∈ s.main.procs, 0 < q.pid)
    (hfind : s.main.find_proc p.id = some p) (hok : (s.main.course p.id).Ok)
    (h : Handling env s p msg s' p' ret) :
    Turned env s.main p (.worker p.id msg) s'.main p' ret := by
  cases h with
  | moved hmoved =>
    refine ⟨congrArg Proc.Profile.id hmoved.profile, _, hmoved.silent, ?_⟩
    rw [hmoved.profile, ← Main.course_eq hfind]
    exact .plain rfl
  | unknown hmsg hstatus hres =>
    exact hres.turned hfind hok hstatus (by rw [hmsg]; rfl) rfl (.refl _) (.refl _)
  | cookie hreq hans hres =>
    obtain ⟨hsilent, hload⟩ := handle_auth_cookie_req_loaded hpid (hans.step hreq)
    exact hres.turned hfind hok hreq.status (by rw [hreq.msg]; rfl) rfl hsilent
      ⟨hload.id, hload.status, hload.applied_iroutes, hload.opened, hload.iroutes⟩

/-! ## The exit of a connect script -/

omit [Platform] in
/-- The code that main acts on is zero for a success only. -/
theorem WaitStatus.estatus_eq_zero (rstatus : WaitStatus) :
    (if rstatus.WIFSIGNALED then 1 else (rstatus.WEXITSTATUS : Int)) = 0 ↔
      rstatus.succeeded := by
  unfold WaitStatus.succeeded WaitStatus.WIFEXITED WaitStatus.WIFSIGNALED
  by_cases hexit : rstatus.raw % 128 = 0 <;> simp [hexit]

/-- The work of `script_child_watcher_cb` before the worker is written back. -/
def Main.script_exited (env : MainEnv) (m : Main) (stmp : ScriptWait) (p : Proc)
    (rstatus : WaitStatus) : Except Fault (Main × Proc × Int) :=
  let m := { m with script_list := m.script_list.erase stmp }
  let m := if rstatus.succeeded then m.emit (.connected p.id) else m
  m.handle_script_exit env p (if rstatus.WIFSIGNALED then 1 else rstatus.WEXITSTATUS)

theorem Main.script_exited_turned {stmp : ScriptWait} {rstatus : WaitStatus}
    (hfind : m.find_proc p.id = some p) (hok : (m.course p.id).Ok) (hstmp : stmp ∈ m.script_list)
    (hproc : stmp.proc = p.id) (h : m.script_exited env stmp p rstatus = .ok (m', p', ret)) :
    Turned env m p (.script_exit stmp rstatus) m' p' ret := by
  have hexit := (Main.handle_script_exit_post _ _ _ _).ok h
  have hmem : stmp ∈ (m.course p.id).scripts := mem_filter.2 ⟨hstmp, by simpa using hproc⟩
  -- the worker waits for this script and for no other
  obtain ⟨hscripts, hst, happlied, hconfig⟩ : (m.course p.id).scripts = [stmp] ∧
      p.status = .failed ∧ p.applied_iroutes = false ∧ p.config.isSome := by
    rcases hok.waiting with hnil | ⟨stmp', f, hone, -, hf, hst, happlied, hconfig⟩
    · simp [hnil] at hmem
    · rw [hone, mem_singleton] at hmem
      obtain rfl := some.inj (hf.symm.trans (Main.course_profile hfind))
      exact ⟨hmem ▸ hone, hst, happlied, hconfig⟩
  have hlist : m.Steady p.id { m.track p.id with scripts := [] }
      { m with script_list := m.script_list.erase stmp } := by
    refine .of_scripts rfl (Nat.le_refl _) rfl rfl rfl (fun id hne => ?_) ?_
    · rw [← erase_filter, erase_of_not_mem (by simpa [hproc] using fun _ => hne.symm)]
    · have hself : m.script_list.filter (fun stmp => stmp.proc = p.id) = [stmp] := hscripts
      rw [← erase_filter, hself, erase_cons_head]
  have hconnected : ∀ {new : List (Entry (Nat × CStr))} {a : PsAuth} {applied_iroutes : Bool},
      rstatus.succeeded →
      ({ m with script_list := m.script_list.erase stmp }.emit (.connected p.id)).Emits
        (·.isPhase = false) m' → m'.ledger = new ++ m.ledger →
      Routed m.config p.profile new applied_iroutes →
      p'.profile = { p.profile with status := a, applied_iroutes } →
      a = .completed ∧ ret = 0 ∨ a = .failed ∧ ret < 0 ∧ ¬ env.Delivers →
      Turned env m p (.script_exit stmp rstatus) m' p' ret := by
    intro new a applied_iroutes hsucc hemits hledger hrouted hp' hend
    refine ⟨congrArg Proc.Profile.id hp', _, hlist.trans (hemits.steady hledger hrouted.key), ?_⟩
    rw [hp', hlist.own]
    have hne : p.profile.status ≠ .completed := by
      rw [show p.profile.status = .failed from hst]
      decide
    exact .connected hsucc hne happlied (.refl _) hconfig hrouted hend
  cases hsucc : rstatus.succeeded with
  | false =>
    simp only [hsucc, Bool.false_eq_true, if_false] at hexit
    have hcode : (if rstatus.WIFSIGNALED then 1 else (rstatus.WEXITSTATUS : Int)) ≠ 0 :=
      fun hzero =>
      Bool.false_ne_true (hsucc.symm.trans (rstatus.estatus_eq_zero.1 hzero))
    generalize
      (if rstatus.WIFSIGNALED then 1 else (rstatus.WEXITSTATUS : Int)) = code at hexit hcode
    cases hexit with
    | refused _ hemits =>
      refine ⟨rfl, _, hlist.silent hemits.silent, ?_⟩
      rw [Main.course_eq hfind]
      exact .exited
    | completed | dropped => exact absurd rfl hcode
  | true =>
    simp only [hsucc, if_true, rstatus.estatus_eq_zero.2 hsucc] at hexit
    cases hexit with
    | completed hemits _ hledger hrouted =>
      exact hconnected hsucc hemits hledger hrouted rfl (.inl ⟨rfl, rfl⟩)
    | dropped hemits hledger hrouted hneg henv =>
      exact hconnected (a := .failed) hsucc hemits hledger hrouted (by rw [← hst]; rfl)
        (.inr ⟨rfl, hneg, henv⟩)
    | refused hcode => exact absurd rfl hcode

/-! ## The removal -/

omit [Platform] in
theorem filter_eraseP_proc (l : List ScriptWait) (w id : Nat) :
    (l.eraseP fun stmp => stmp.proc = w).filter (fun stmp => stmp.proc = id) =
      if id = w then (l.filter fun stmp => stmp.proc = id).tail
      else l.filter fun stmp => stmp.proc = id := by
  induction l with
  | nil => simp
  | cons stmp l ih =>
    by_cases hw : stmp.proc = w
    · rw [eraseP_cons_of_pos (by simpa using hw)]
      by_cases hid : id = w
      · simp [hw, hid]
      · simp [hw, hid, Ne.symm hid]
    · rw [eraseP_cons_of_neg (by simpa using hw)]
      by_cases hid : id = w
      · simpa [hw, hid] using ih
      · simp only [filter_cons, ih, if_neg hid]

omit [Platform] in
theorem count_closed (w id : Nat) (r : Bool × Bool) (phases : List Effect) :
    (closed w r phases).count (.connected id) =
        phases.count (.connected id) + (if id = w then r.1.toNat else 0) ∧
      (closed w r phases).count (.user_disconnected id) =
        phases.count (.user_disconnected id) + if id = w then r.2.toNat else 0 := by
  obtain ⟨started, ended⟩ := r
  by_cases hid : id = w
  · cases started <;> cases ended <;> simp [closed, hid]
  · cases started <;> cases ended <;> simp [closed, hid, Ne.symm hid]

theorem remove_proc_course {s s' : Sys} {kill : Bool} (hok : (s.main.course p.id).Ok)
    (hrun : s.remove_proc env p { kill } = .ok s') :
    (∀ id, id ≠ p.id → s'.main.course id = s.main.course id) ∧
      Course.Ended env s.main.config (s.main.course p.id) p.profile (s'.main.course p.id) := by
  obtain ⟨m₁, p₁, hended, hlogged, hledger, hend, hmain⟩ := remove_proc_main hrun
  have hcfg : m₁.config = s.main.config := by rw [Main.config, hlogged.vconfig]; rfl
  have hprofile : p₁.profile = p.profile := by rw [hended.eq]; rfl
  have hid : p₁.id = p.id := congrArg Proc.Profile.id hprofile
  have hemits := Main.remove_iroutes_emits m₁ p₁
  have hphases : s'.main.phases = m₁.phases := by
    rw [hmain]
    exact hemits.phases fun _ he => Effect.isPhase_of_isRoute he
  rw [hend.phases, List.head?_filter.symm] at hphases
  have hlist : s'.main.script_list = s.main.script_list.eraseP fun stmp => stmp.proc = p.id := by
    rw [hmain]
    exact hemits.script_list.trans hend.script_list
  have hprocs : s'.main.procs = s.main.procs.filter fun q => q.id != p.id := by
    rw [hmain]
    show (m₁.remove_iroutes p₁).procs.filter (fun q => q.id != p₁.id) = _
    rw [hemits.logged.procs, hlogged.procs, hid]
  have hentered : s'.main.ledger = (if p.applied_iroutes then (ownedBy p.id (s.main.config.deleted
      p₁.tun_name ((p.config.map (·.iroutes)).getD []))).map .debit else []) ++ s.main.ledger := by
    have hsame : s'.main.ledger = (m₁.remove_iroutes p₁).ledger := by rw [hmain]; rfl
    have happlied : p₁.applied_iroutes = p.applied_iroutes :=
      congrArg Proc.Profile.applied_iroutes hprofile
    have hconfig : p₁.config = p.config := congrArg Proc.Profile.config hprofile
    rw [hsame, Main.remove_iroutes_ledger, hcfg, hledger, happlied, hconfig, hid]
  generalize hnew : (if p.applied_iroutes then _ else []) = new at hentered
  have hkey : ∀ e ∈ new, e.key.1 = p.id := by
    rw [← hnew]
    split
    · simp [ownedBy, Entry.key]
    · simp
  constructor
  · intro id hne
    have hfindp : s'.main.find_proc id = s.main.find_proc id := by
      rw [Main.find_proc, Main.find_proc, hprocs, List.find?_filter]
      congr 1
      funext q
      by_cases hq : q.id = id
      · simp [hq, hne]
      · simp [hq]
    have hnone : new.filter (fun e => e.key.1 = id) = [] :=
      filter_eq_nil_iff.2 fun e he => by simpa [hkey e he] using hne.symm
    have htrack : s'.main.track id = s.main.track id := by
      rw [Main.track, Main.track, hlist, filter_eraseP_proc, if_neg hne, hentered,
        filter_append, hnone, hphases, (count_closed ..).1, (count_closed ..).2, if_neg hne,
        if_neg hne]
      rfl
    rw [Main.course, Main.course, htrack, hfindp]
  · have hall : new.filter (fun e => e.key.1 = p.id) = new :=
      filter_eq_self.2 fun e he => by simpa using hkey e he
    refine ⟨?_, ?_, ?_, ?_, p₁.tun_name, ?_⟩
    · show (s'.main.find_proc p.id).map Proc.profile = none
      rw [Main.find_proc, hprocs, List.find?_filter, map_eq_none_iff, List.find?_eq_none]
      simp
    · show s'.main.script_list.filter _ = []
      rw [hlist, filter_eraseP_proc, if_pos rfl]
      show (s.main.course p.id).scripts.tail = []
      rcases hok.waiting with hnil | ⟨stmp, f, hone, -⟩
      · rw [hnil, tail_nil]
      · rw [hone, tail_cons]
    · show s'.main.phases.count _ = _
      rw [hphases, (count_closed ..).1, if_pos rfl]
      rfl
    · show s'.main.phases.count _ = _
      rw [hphases, (count_closed ..).2, if_pos rfl]
      rfl
    · show s'.main.ledger.filter _ = _ ++ s.main.ledger.filter _
      rw [hentered, filter_append, hall, ← hnew]
      rfl

/-! ## Steps -/

/-- The courses are in order, and nothing has happened yet to the workers to come. -/
structure Sys.Tracked (s : Sys) : Prop where
  ok : ∀ id, (s.main.course id).Ok
  unborn : ∀ id, s.main.next ≤ id → s.main.course id = {}

/-- What a step of the system does to the courses. -/
inductive Sys.CourseStep (s : Sys) (l : Sys.Event × Sys.Env) (s' : Sys) : Prop
  | accept : s.main.next < s'.main.next →
      (∀ id, s'.main.course id = if id = s.main.next
        then { s.main.course id with profile := some (.fresh id) } else s.main.course id) →
      Sys.CourseStep s l s'
  | calm : (∀ id, s'.main.course id = s.main.course id) → Sys.CourseStep s l s'
  /-- the worker of the event is written back, or removed -/
  | turned {w : Nat} {f : Proc.Profile} {c₁ : Course} {ret : Int} : l.1.about = some w →
      (s.main.course w).profile = some f → f.id = w →
      (∀ id, id ≠ w → s'.main.course id = s.main.course id) →
      Course.Turn (l.2 w) s.main.config l.1 (s.main.course w) f c₁ ret →
      s'.main.course w = c₁ ∨ ret < 0 ∧ (∃ f₁, c₁.profile = some f₁ ∧ f₁.id = w ∧
        Course.Ended (l.2 w) s.main.config c₁ f₁ (s'.main.course w)) → Sys.CourseStep s l s'

section Steps

variable {s s' : Sys} {l : Sys.Event × Sys.Env}

theorem foldl_signalled_silent {procs : List Proc} (hnodup : (procs.map Proc.id).Nodup)
    (h : m.Silent w s.main) (hprocs : ∀ p ∈ procs, s.main.find_proc p.id = some p) :
    m.Silent w (procs.foldl Sys.signalled s).main := by
  induction procs generalizing s with
  | nil => exact h
  | cons p procs ih =>
    obtain ⟨hp, hprocs⟩ := forall_mem_cons.1 hprocs
    rw [map_cons, nodup_cons] at hnodup
    have hstored : m.Silent w (s.main.store { p with invalidated := true }) :=
      h.store_same (o := p) hp rfl
    refine ih hnodup.2 (hstored.silent (Main.Emits.emit ⟨rfl, rfl⟩).silent) fun q hq => ?_
    have hne : q.id ≠ p.id := fun heq => hnodup.1 (heq ▸ mem_map_of_mem hq)
    show (s.main.store { p with invalidated := true }).find_proc q.id = some q
    rw [Main.find_proc_store, if_neg hne, hprocs q hq]

theorem Turned.step {r : Sys} (hfind : s.main.find_proc p.id = some p) (htr : s.Tracked)
    (habout : l.1.about = some p.id) (hturned : Turned (l.2 p.id) s.main p l.1 r.main p' ret)
    (hend : s' = r.put p' ∨
      ret < 0 ∧ ∃ kill, (r.put p').remove_proc (l.2 p.id) p' { kill } = .ok s') :
    s.main.next ≤ s'.main.next ∧ s'.main.vconfig = s.main.vconfig ∧ Sys.CourseStep s l s' := by
  obtain ⟨hid, t, hsteady, hturn⟩ := hturned
  have hprofile := Main.course_profile hfind
  have hwritten := hsteady.written hid hfind
  have hothers : ∀ id, id ≠ p.id → (r.main.store p').course id = s.main.course id :=
    fun id hne => by
    rw [Main.course_store, if_neg (hid ▸ hne)]
    exact hsteady.others id hne
  rcases hend with rfl | ⟨hneg, kill, hrun⟩
  · exact ⟨hsteady.next, hsteady.vconfig, .turned habout hprofile rfl hothers hturn (.inl hwritten)⟩
  · have hok := (htr.ok p.id).turn hprofile hturn
    rw [← hwritten, ← hid] at hok
    obtain ⟨hsame, hended⟩ := remove_proc_course hok hrun
    have hremoved := remove_proc_removed hrun
    rw [hid] at hsame hended
    have hcfg : (r.put p').main.config = s.main.config := hsteady.config
    rw [hcfg, show (r.put p').main.course p.id = _ from hwritten] at hended
    exact ⟨hremoved.next ▸ hsteady.next, hremoved.vconfig.trans hsteady.vconfig,
      .turned habout hprofile rfl (fun id hne => (hsame id hne).trans (hothers id hne)) hturn
        (.inr ⟨hneg, _, rfl, hid, hended⟩)⟩

theorem Sys.course_step (hwf : s.WF) (htr : s.Tracked) (hstep : Sys.Step s l s') :
    s.main.next ≤ s'.main.next ∧ s'.main.vconfig = s.main.vconfig ∧ Sys.CourseStep s l s' := by
  have hexec := hstep.1
  obtain ⟨ev, env⟩ := l
  cases ev with
  | accept pid time remote_addr our_addr =>
    simp only [Sys.exec] at hexec
    split at hexec
    · rw [← Except.ok.inj (some.inj hexec)]
      refine ⟨Nat.le_succ _, rfl, .accept (Nat.lt_succ_self _) fun id => ?_⟩
      have htrack : (s.main.new_proc pid time remote_addr our_addr).track id = s.main.track id :=
        rfl
      rw [Main.course, htrack, Main.find_proc, Main.new_proc, List.find?_cons]
      by_cases hid : id = s.main.next
      · rw [if_pos hid, hid]
        simp only [decide_true]
        rfl
      · simp only [Ne.symm hid, decide_false, if_neg hid]
        rfl
    · simp at hexec
  | worker w msg =>
    obtain ⟨p, hfind, hrun⟩ := map_eq_some_iff.1 hexec
    obtain ⟨-, rfl⟩ := Main.find_proc_eq_some hfind
    simp only [Sys.cmd_watcher_cb, bind_eq_ok] at hrun
    obtain ⟨⟨s₁, p₁, ret⟩, hcmd, hrun⟩ := hrun
    have hturned :=
      ((Sys.handle_worker_commands_post msg).ok hcmd).turned hwf.pid hfind (htr.ok p.id)
    refine hturned.step (r := s₁) hfind htr rfl ?_
    split at hrun
    · next hret => exact .inr ⟨hret, _, hrun⟩
    · exact .inl (pure_eq_ok.1 hrun).symm
  | script_exit stmp rstatus =>
    simp only [Sys.exec] at hexec
    split at hexec
    · next hmem =>
      obtain ⟨p, hfind, hrun⟩ := map_eq_some_iff.1 hexec
      obtain ⟨-, hid⟩ := Main.find_proc_eq_some hfind
      rw [← hid] at hfind hrun
      have hrun' : (s.main.script_exited (env p.id) stmp p rstatus >>=
          fun r => if r.2.2 < 0 then
              (Sys.put { s with main := r.1 } r.2.1).remove_proc (env p.id) r.2.1
                { kill := true }
            else pure (Sys.put { s with main := r.1 } r.2.1)) = .ok s' := hrun
      rw [bind_eq_ok] at hrun'
      obtain ⟨⟨m₁, p₁, ret⟩, hexit, hrun'⟩ := hrun'
      have hturned := Main.script_exited_turned hfind (htr.ok p.id) hmem hid.symm hexit
      refine Turned.step (r := { s with main := m₁ }) hfind htr (congrArg some hid.symm) hturned ?_
      simp only at hrun'
      split at hrun'
      · next hret => exact .inr ⟨hret, _, hrun'⟩
      · exact .inl (pure_eq_ok.1 hrun').symm
    · simp at hexec
  | auth_timeout w =>
    obtain ⟨p, hfind, hrun⟩ := map_eq_some_iff.1 hexec
    obtain ⟨hmem, rfl⟩ := Main.find_proc_eq_some hfind
    have hself : s.put p = s := by rw [Sys.put, Main.store_self hwf.ids hmem]
    unfold Sys.kill_auth_timeout at hrun
    split at hrun
    · have hturned : Turned (env p.id) s.main p (.auth_timeout p.id) s.main p (-1) :=
        ⟨rfl, _, Main.Silent.refl _, by rw [Main.course_eq hfind]; exact .plain rfl⟩
      exact hturned.step (r := s) hfind htr rfl (.inr ⟨by decide, true, hself.symm ▸ hrun⟩)
    · rw [← pure_eq_ok.1 hrun]
      exact ⟨Nat.le_refl _, rfl, .calm fun _ => rfl⟩
  | secmod index env' cmd =>
    obtain ⟨sec, hsec, hrun⟩ := map_eq_some_iff.1 hexec
    rw [← Except.ok.inj hrun]
    exact ⟨Nat.le_refl _, rfl, .calm fun _ => rfl⟩
  | disconnect_name | disconnect_id | terminate_user | terminate_id | terminate_session =>
    rw [Sys.exec_admin hwf.pid env rfl, some_inj, Except.ok.injEq] at hexec
    rw [← hexec]
    have hsub := Sys.Event.disconnects_sublist s.main
    have hsilent : ∀ ev w, s.main.Silent w (s.administered ev).main := fun ev w =>
      Sys.administered_rule (Q := fun s₁ => s.main.Silent w s₁.main) ev (env 0).sec
        (foldl_signalled_silent (hwf.ids.sublist ((hsub ev).map _)) (.refl _)
          fun p hp => Main.find_proc_of_mem hwf.ids ((hsub ev).subset hp)) fun h _ => h
    exact ⟨(hsilent _ 0).next, (hsilent _ 0).vconfig,
      .calm fun id => (hsilent _ (id + 1)).others id (by omega)⟩

/-- A property of all courses comes down to what an event does to the course of its worker. -/
theorem Sys.courses_step {P : Nat → Course → Prop} (hwf : s.WF) (htr : s.Tracked)
    (hstep : Sys.Step s l s') (h : ∀ id, P id (s.main.course id))
    (hnew : ∀ id, P id { profile := some (.fresh id) })
    (hturn : ∀ {w f c₁ ret}, l.1.about = some w → (s.main.course w).profile = some f → f.id = w →
      Course.Turn (l.2 w) s.main.config l.1 (s.main.course w) f c₁ ret → P w c₁ ∧
        ∀ {f₁ c'}, ret < 0 → c₁.profile = some f₁ → f₁.id = w →
          Course.Ended (l.2 w) s.main.config c₁ f₁ c' → P w c') :
    ∀ id, P id (s'.main.course id) := by
  intro id
  cases (Sys.course_step hwf htr hstep).2.2 with
  | accept _ hcourse =>
    rw [hcourse]
    split
    · next hid =>
      rw [htr.unborn id hid.ge]
      exact hnew id
    · exact h id
  | calm hsame => exact hsame id ▸ h id
  | @turned w _ _ _ hw hf hid hsame hturned hleft =>
    obtain ⟨hkept, hgone⟩ := hturn hw hf hid hturned
    by_cases hne : id = w
    · subst hne
      rcases hleft with heq | ⟨hneg, f₁, hf₁, hid₁, hended⟩
      · exact heq ▸ hkept
      · exact hgone hneg hf₁ hid₁ hended
    · exact hsame id hne ▸ h id

theorem Sys.Tracked.step (hwf : s.WF) (h : s.Tracked) (hstep : Sys.Step s l s') : s'.Tracked := by
  refine ⟨Sys.courses_step (P := fun _ c => c.Ok) hwf h hstep h.ok (fun id => ?_) ?_, ?_⟩
  · refine ⟨fun f hf => ?_, fun f hf _ => ?_, .inl rfl⟩
    · rw [← some.inj hf]
      exact ⟨nofun, nofun, nofun⟩
    · rw [← some.inj hf]
      rfl
  · exact fun _ hf _ hturn => ⟨(h.ok _).turn hf hturn, fun _ _ _ hended => hended.ok⟩
  · intro id hle
    obtain ⟨hnext, -, hcases⟩ := Sys.course_step hwf h hstep
    have hunborn := h.unborn id (Nat.le_trans hnext hle)
    -- a worker that is there has been started before
    have hne : ∀ {w : Nat} {f : Proc.Profile}, (s.main.course w).profile = some f → id ≠ w := by
      rintro w f hf rfl
      rw [hunborn] at hf
      exact nomatch hf
    cases hcases with
    | accept hlt hcourse =>
      rw [hcourse, if_neg (by omega)]
      exact hunborn
    | calm hsame => exact (hsame id).trans hunborn
    | turned _ hf _ hsame => exact (hsame id (hne hf)).trans hunborn

theorem Sys.Initial.course (h : s.Initial) (id : Nat) : s.main.course id = {} := by
  simp only [Main.course, Main.track, Main.find_proc, Main.phases, Main.ledger, h.procs,
    h.script_list, h.log, filter_nil, count_nil, filterMap_nil, List.find?_nil,
    map_none]

theorem Sys.Initial.tracked (h : s.Initial) : s.Tracked := by
  refine ⟨fun id => ?_, fun id _ => h.course id⟩
  rw [h.course]
  exact ⟨by simp, by simp, .inl rfl⟩

theorem Sys.tracked_of_reachable (h : Reachable Sys.Initial Sys.Step s) :
    s.WF ∧ s.Idle ∧ s.Tracked := by
  obtain ⟨trace, hrun⟩ := h
  exact Sys.invariant_of_run (C := fun _ => True) hrun (fun _ _ => trivial)
    (fun _ hinit => ⟨hinit.wf, hinit.idle, hinit.tracked⟩) fun hwf _ htr hstep _ =>
      htr.step hwf hstep

/-- What holds of every course along a run whose steps all meet `C`. -/
theorem Sys.courses_of_run {P : Cfg → Nat → Course → Prop}
    {C : Transition Sys (Sys.Event × Sys.Env) → Prop}
    {trace : List (Transition Sys (Sys.Event × Sys.Env))} (hrun : Run Sys.Initial Sys.Step trace s)
    (hall : ∀ t ∈ trace, C t) (hempty : ∀ cfg id, P cfg id {})
    (hnew : ∀ cfg id, P cfg id { profile := some (.fresh id) })
    (hturn : ∀ {s l s' w f c₁ ret}, C ⟨s, l, s'⟩ → l.1.about = some w → (s.main.course w).Ok →
      (s.main.course w).profile = some f → f.id = w → P s.main.config w (s.main.course w) →
      Course.Turn (l.2 w) s.main.config l.1 (s.main.course w) f c₁ ret → P s.main.config w c₁)
    (hend : ∀ {s l s' w f f₁ c₁ c' ret}, C ⟨s, l, s'⟩ → l.1.about = some w →
      Course.Turn (l.2 w) s.main.config l.1 (s.main.course w) f c₁ ret → ret < 0 → c₁.Ok →
      P s.main.config w c₁ → c₁.profile = some f₁ → f₁.id = w →
      Course.Ended (l.2 w) s.main.config c₁ f₁ c' → P s.main.config w c') :
    ∀ id, P s.main.config id (s.main.course id) := by
  refine (Sys.invariant_of_run (X := fun s => s.Tracked ∧
    ∀ id, P s.main.config id (s.main.course id)) hrun hall ?_ ?_).2.2.2
  · intro s hinit
    refine ⟨hinit.wf, hinit.idle, hinit.tracked, fun id => ?_⟩
    rw [hinit.course]
    exact hempty _ id
  · rintro s l s' hwf - ⟨htr, hP⟩ hstep hC
    refine ⟨htr.step hwf hstep, ?_⟩
    have hcfg : s'.main.config = s.main.config := by
      rw [Main.config, Main.config, (Sys.course_step hwf htr hstep).2.1]
    rw [hcfg]
    refine Sys.courses_step hwf htr hstep hP (hnew _) fun hw hf hid hturned => ?_
    have hkept := hturn hC hw (htr.ok _) hf hid (hP _) hturned
    exact ⟨hkept, fun hneg hf₁ hid₁ hended =>
      hend hC hw hturned hneg ((htr.ok _).turn hf hturned) hkept hf₁ hid₁ hended⟩

end Steps

end Connect
end Ocserv

import Ocserv.Lib.Ledger
import Ocserv.Proofs.Workers

/-!
# The handlers of main, branch by branch

Each handler is walked through once.  What it may add to the log is said by `Main.Emits`, what
it does to main and to the worker by `Moved`, and where it faults by the second postcondition
of `Outcome.Post`: main faults only where the data of a session is not set.
-/

namespace Ocserv

open Ledger Outcome

/-! ## Effects -/

/-- The effect starts or ends the connect phase of a worker. -/
def Effect.isPhase : Effect → Bool
  | .connected _ | .user_disconnected _ => true
  | _ => false

/-- The effect is a command for a route. -/
def Effect.isRoute : Effect → Bool
  | .route_add _ _ _ | .route_del _ _ => true
  | _ => false

/-- The effect is neither. -/
def Effect.Plain (e : Effect) : Prop := e.isPhase = false ∧ e.isRoute = false

theorem Effect.isPhase_of_isRoute {e : Effect} (h : e.isRoute) : e.isPhase = false := by
  cases e <;> first | rfl | cases h

/-- What a command for a route says to the ledger of the routes of all workers. -/
def Effect.entry : Effect → Option (Entry (Nat × CStr))
  | .route_add proc route ret => if 0 ≤ ret then some (.credit (proc, route)) else none
  | .route_del proc route => some (.debit (proc, route))
  | _ => none

theorem Effect.entry_of_not_isRoute {e : Effect} (h : e.isRoute = false) : e.entry = none := by
  cases e <;> first | rfl | cases h

/-- The routes of one worker, newest first. -/
def ownedBy (id : Nat) (routes : List CStr) : List (Nat × CStr) :=
  routes.reverse.map fun route => (id, route)

/-- The routes for which the delete command is run. -/
def Cfg.deleted (config : Cfg) (dev : CStr) (routes : List CStr) : List CStr :=
  routes.filter fun route => (config.route_del_cmd.bind (replace_cmd · route dev)).isSome

/-- Sec-mod has described the session of the worker to main. -/
structure Proc.Opened (p : Proc) : Prop where
  config : p.config.isSome
  vhost : p.vhost.isSome

theorem Proc.Opened.of_profile {p p' : Proc} (h : p.Opened)
    (hconfig : p'.profile.config = p.profile.config)
    (hvhost : p'.profile.vhost = p.profile.vhost) : p'.Opened := by
  have hconfig' : p'.config = p.config := hconfig
  have hvhost' : p'.vhost = p.vhost := hvhost
  exact ⟨hconfig' ▸ h.config, hvhost' ▸ h.vhost⟩

/-- The script has exited normally with status zero. -/
def WaitStatus.succeeded (w : WaitStatus) : Bool := w.WIFEXITED && w.WEXITSTATUS == 0

theorem deref_post {α : Type} (f : Fault) (o : Option α) :
    Post (deref f o) (fun a => o = some a) (fun g => o = none ∧ g = f) := by
  cases o with
  | none => exact ⟨rfl, rfl⟩
  | some a => exact rfl

section Handlers

variable [Platform]

/-- The starts and ends of the connect phases, newest first. -/
def Main.phases (m : Main) : List Effect := m.log.filter Effect.isPhase

/-- The routes that have been added, and those for which the delete command has been run. -/
def Main.ledger (m : Main) : List (Entry (Nat × CStr)) := m.log.filterMap Effect.entry

/-- The reply can be sent, and the commands for the routes succeed. -/
structure MainEnv.Delivers (env : MainEnv) : Prop where
  send : 0 ≤ env.send_msg_to_worker
  routes : ∀ i, 0 ≤ env.route_cmd i

/-- The log has grown by effects of one kind, and nothing else has changed. -/
def Main.Emits (P : Effect → Prop) (m m' : Main) : Prop :=
  ∃ new : List Effect, (∀ e ∈ new, P e) ∧ m' = { m with log := new ++ m.log }

variable {env : MainEnv} {s : Sys} {m m₁ m₂ m' : Main} {p p₁ p₂ p' : Proc} {ret result : Int}
  {P Q : Effect → Prop}

namespace Main.Emits

theorem refl (m : Main) : m.Emits P m := ⟨[], nofun, rfl⟩

theorem trans (h₁ : m.Emits P m₁) (h₂ : m₁.Emits P m₂) : m.Emits P m₂ := by
  obtain ⟨new₁, hnew₁, rfl⟩ := h₁
  obtain ⟨new₂, hnew₂, rfl⟩ := h₂
  refine ⟨new₂ ++ new₁, fun e he => ?_, by simp only [List.append_assoc]⟩
  exact (List.mem_append.1 he).elim (hnew₂ e) (hnew₁ e)

theorem emit {e : Effect} (he : P e) : m.Emits P (m.emit e) :=
  ⟨[e], by simpa using he, rfl⟩

theorem mono (h : m.Emits P m') (hPQ : ∀ e, P e → Q e) : m.Emits Q m' := by
  obtain ⟨new, hnew, rfl⟩ := h
  exact ⟨new, fun e he => hPQ e (hnew e he), rfl⟩

theorem logged (h : m.Emits P m') : m.Logged m' := by
  obtain ⟨new, -, rfl⟩ := h
  exact ⟨rfl, rfl, rfl, rfl, rfl⟩

theorem script_list (h : m.Emits P m') : m'.script_list = m.script_list := by
  obtain ⟨new, -, rfl⟩ := h
  rfl

theorem phases (h : m.Emits P m') (hP : ∀ e, P e → e.isPhase = false) :
    m'.phases = m.phases := by
  obtain ⟨new, hnew, rfl⟩ := h
  have hnone : new.filter Effect.isPhase = [] :=
    List.filter_eq_nil_iff.2 fun e he => by simp [hP e (hnew e he)]
  rw [Main.phases, List.filter_append, hnone]
  rfl

theorem ledger (h : m.Emits P m') (hP : ∀ e, P e → e.isRoute = false) :
    m'.ledger = m.ledger := by
  obtain ⟨new, hnew, rfl⟩ := h
  have hnone : new.filterMap Effect.entry = [] :=
    List.filterMap_eq_nil_iff.2 fun e he => Effect.entry_of_not_isRoute (hP e (hnew e he))
  rw [Main.ledger, List.filterMap_append, hnone]
  rfl

end Main.Emits

namespace Main

/-! ## Scripts -/

/-- What the call of a script comes to. -/
inductive Called (env : MainEnv) (m : Main) (p : Proc) (type : ScriptType) : Main × Int → Prop
  | unset : Called env m p type (m, 0)
  | unforked : Called env m p type (m, -1)
  | started : type ≠ .connect → Called env m p type (m.emit (.script type p.id), 0)
  | waiting : type = .connect → 0 < env.fork → Called env m p type
      ({ m.emit (.script type p.id) with script_list := ⟨p.id, env.fork⟩ :: m.script_list },
        ERR_WAIT_FOR_SCRIPT)

theorem call_script_post (type : ScriptType) :
    Post (m.call_script env p type) (Called env m p type) fun _ => p.config = none := by
  have hconfig : Post (deref .null_config p.config) (fun _ => True) fun _ => p.config = none :=
    (deref_post _ _).mono (fun _ _ => trivial) fun _ h => h.1
  have hselect : Post (m.select_script p type) (fun _ => True) fun _ => p.config = none := by
    unfold select_script
    split
    · exact .pure trivial
    · exact hconfig.bind fun _ _ _ => .pure trivial
  refine hselect.bind fun script _ _ => ?_
  cases script with
  | none => exact .pure .unset
  | some _ =>
    show Post (m.start_script env p type) _ _
    unfold start_script
    split
    · exact .pure .unforked
    · next hfork =>
      refine hconfig.bind fun _ _ _ => .pure ?_
      split
      · next htype => exact .waiting htype (by omega)
      · next htype => exact .started htype

theorem Called.plain {type : ScriptType} {r : Main × Int} (h : Called env m p type r)
    (htype : type ≠ .connect) : m.Emits Effect.Plain r.1 := by
  cases h with
  | unset => exact .refl m
  | unforked => exact .refl m
  | started => exact .emit ⟨rfl, rfl⟩
  | waiting heq => exact absurd heq htype

/-- What `user_connected` comes to: the phase starts, or a script, or it fails. -/
inductive UserConnected (env : MainEnv) (m : Main) (p : Proc) : Main → Int → Prop
  | connected : UserConnected env m p (m.emit (.connected p.id)) 0
  | failed : UserConnected env m p m (-1)
  | waiting : 0 < env.fork → UserConnected env m p
      { m.emit (.script .connect p.id) with script_list := ⟨p.id, env.fork⟩ :: m.script_list }
      ERR_WAIT_FOR_SCRIPT

theorem user_connected_post (env : MainEnv) (m : Main) (p : Proc) :
    Post (m.user_connected env p)
    (fun r => UserConnected env m p r.1 r.2) fun _ => p.config = none := by
  refine (call_script_post .connect).bind fun r _ hcalled => .pure ?_
  cases hcalled with
  | unset => exact .connected
  | unforked => exact .failed
  | started htype => exact absurd rfl htype
  | waiting _ hfork => exact .waiting hfork

theorem user_hostname_update_post (env : MainEnv) (m : Main) (p : Proc) :
    Post (m.user_hostname_update env p)
    (fun r => m.Emits Effect.Plain r.1 ∧ r.2 = { p with host_updated := r.2.host_updated })
    fun _ => p.config = none := by
  unfold user_hostname_update
  split
  · exact .pure ⟨.refl m, rfl⟩
  · exact (call_script_post .host_update).bind fun r _ hcalled =>
      .pure ⟨hcalled.plain (by decide), rfl⟩

theorem user_disconnected_post : Post (m.user_disconnected env p)
    (fun m' => (m.emit (.user_disconnected p.id)).Emits Effect.Plain m')
    fun _ => p.config = none :=
  (call_script_post .disconnect).bind fun _ _ hcalled => .pure (hcalled.plain (by decide))

/-! ## Routes and replies -/

theorem ledger_emit (m : Main) (e : Effect) : (m.emit e).ledger = e.entry.toList ++ m.ledger := by
  rw [ledger, emit, List.filterMap_cons]
  cases e.entry <;> rfl

theorem route_del_emits (p : Proc) (route : CStr) :
    m.Emits (·.isRoute) (m.route_del p route) := by
  unfold route_del
  split
  · exact .refl m
  · split
    · exact .refl m
    · exact .emit rfl

theorem foldl_route_del_emits (p : Proc) (routes : List CStr) :
    m.Emits (·.isRoute) (routes.foldl (fun m route => m.route_del p route) m) := by
  induction routes generalizing m with
  | nil => exact .refl m
  | cons route routes ih => exact (route_del_emits p route).trans ih

theorem remove_iroutes_emits (m : Main) (p : Proc) :
    m.Emits (·.isRoute) (m.remove_iroutes p) := by
  unfold remove_iroutes
  split
  · exact .refl m
  · split
    · exact foldl_route_del_emits _ _
    · exact .refl m

theorem route_add_spec (env : MainEnv) (id : Nat) (route : CStr) (i : Nat) :
    m.Emits (·.isRoute) (m.route_add env id route i).1 ∧
      (env.Delivers → ¬ (m.route_add env id route i).2 < 0) := by
  unfold route_add
  split
  · exact ⟨.refl m, fun _ => Int.lt_irrefl 0⟩
  · exact ⟨.emit rfl, fun henv => Int.not_lt.2 (henv.routes i)⟩

theorem add_routes_spec (env : MainEnv) (id : Nat) (routes : List CStr) (i : Nat) :
    m.Emits (·.isRoute) (m.add_routes env id routes i).1 ∧
      (env.Delivers → (m.add_routes env id routes i).2 = none) := by
  induction routes generalizing i m with
  | nil => exact ⟨.refl m, fun _ => rfl⟩
  | cons route routes ih =>
    obtain ⟨hadd, hdelivers⟩ := m.route_add_spec env id route i
    simp only [add_routes]
    split
    · next hfail => exact ⟨hadd, fun henv => absurd hfail (hdelivers henv)⟩
    · exact ⟨hadd.trans (ih _).1, (ih _).2⟩

/-- The loop over the routes enters those that it has added: all of them, or those before the
one that failed. -/
theorem add_routes_entered (hcmd : m.config.route_add_cmd.isSome) (env : MainEnv) (id : Nat)
    (routes : List CStr) (i : Nat) :
    ∃ added, (m.add_routes env id routes i).1.ledger =
        (ownedBy id added).map .credit ++ m.ledger ∧
      ((m.add_routes env id routes i).2 = none ∧ added = routes ∨
        ∃ j, (m.add_routes env id routes i).2 = some (i + j) ∧ added = routes.take j) := by
  induction routes generalizing i m with
  | nil => exact ⟨[], rfl, .inl ⟨rfl, rfl⟩⟩
  | cons route routes ih =>
    obtain ⟨pattern, hpattern⟩ := Option.isSome_iff_exists.1 hcmd
    simp only [add_routes, route_add, hpattern]
    by_cases hfail : env.route_cmd i < 0
    · rw [if_pos hfail]
      refine ⟨[], ?_, .inr ⟨0, rfl, rfl⟩⟩
      simp [ledger_emit, Effect.entry, hfail, ownedBy]
    · rw [if_neg hfail]
      have hentry : (m.emit (.route_add id route (env.route_cmd i))).ledger =
          .credit (id, route) :: m.ledger := by
        simp [ledger_emit, Effect.entry, Int.not_lt.1 hfail]
      obtain ⟨added, hledger, hend⟩ :=
        ih (m := m.emit (.route_add id route (env.route_cmd i))) hcmd (i + 1)
      refine ⟨route :: added, ?_, ?_⟩
      · rw [hledger, hentry]
        simp [ownedBy]
      · rcases hend with ⟨hnone, rfl⟩ | ⟨j, hsome, rfl⟩
        · exact .inl ⟨hnone, rfl⟩
        · exact .inr ⟨j + 1, by rw [hsome]; congr 1; omega, rfl⟩

theorem add_routes_unset (hcmd : m.config.route_add_cmd = none) (env : MainEnv) (id : Nat)
    (routes : List CStr) (i : Nat) : m.add_routes env id routes i = (m, none) := by
  induction routes generalizing i with
  | nil => rfl
  | cons route routes ih =>
    simp only [add_routes, route_add, hcmd]
    exact ih (i + 1)

theorem foldl_route_del_ledger (p : Proc) (routes : List CStr) :
    (routes.foldl (fun m route => m.route_del p route) m).ledger =
      (ownedBy p.id (m.config.deleted p.tun_name routes)).map .debit ++ m.ledger := by
  induction routes generalizing m with
  | nil => rfl
  | cons route routes ih =>
    have hrun : m.route_del p route =
        if (m.config.route_del_cmd.bind (replace_cmd · route p.tun_name)).isSome
        then m.emit (.route_del p.id route) else m := by
      unfold route_del
      cases m.config.route_del_cmd with
      | none => rfl
      | some pattern =>
        by_cases hnone : replace_cmd pattern route p.tun_name = none
        · simp [hnone]
        · simp [hnone, Option.isSome_iff_ne_none]
    rw [List.foldl_cons, ih, hrun, Cfg.deleted, Cfg.deleted, List.filter_cons]
    split
    · rw [ledger_emit]
      simp [ownedBy, Effect.entry, emit, config]
    · rfl

theorem remove_iroutes_ledger (m : Main) (p : Proc) :
    (m.remove_iroutes p).ledger =
      (if p.applied_iroutes then
        (ownedBy p.id (m.config.deleted p.tun_name ((p.config.map (·.iroutes)).getD []))).map .debit
      else []) ++ m.ledger := by
  unfold remove_iroutes
  cases p.config with
  | none => cases p.applied_iroutes <;> rfl
  | some config =>
    cases p.applied_iroutes with
    | false => rfl
    | true => exact foldl_route_del_ledger p config.iroutes

end Main

/-- What becomes of the routes of a worker that is to be told of its success: the entries of
the ledger, and whether the routes count as applied. -/
inductive Routed (cfg : Cfg) (f : Proc.Profile) : List (Entry (Nat × CStr)) → Bool → Prop
  /-- the worker cannot be told, or has no routes -/
  | untold : Routed cfg f [] f.applied_iroutes
  | applied {config : GroupCfg} : f.config = some config →
      Routed cfg f
        (if cfg.route_add_cmd.isSome then (ownedBy f.id config.iroutes).map .credit else []) true
  /-- the routes before the one that failed are deleted again -/
  | undone {config : GroupCfg} (dev : CStr) (j : Nat) : f.config = some config →
      cfg.route_add_cmd.isSome → Routed cfg f
        ((ownedBy f.id (cfg.deleted dev (config.iroutes.take j))).map .debit ++
          (ownedBy f.id (config.iroutes.take j)).map .credit) f.applied_iroutes

omit [Platform] in
theorem Routed.congr {cfg : Cfg} {f g : Proc.Profile} {new : List (Entry (Nat × CStr))}
    {applied : Bool} (h : Routed cfg f new applied) (hid : g.id = f.id)
    (hconfig : g.config = f.config) (happlied : g.applied_iroutes = f.applied_iroutes) :
    Routed cfg g new applied := by
  cases h with
  | untold => exact happlied ▸ .untold
  | applied hsome => exact hid ▸ .applied (hconfig.trans hsome)
  | undone dev j hsome hset =>
    rw [← hid, ← happlied]
    exact .undone dev j (hconfig.trans hsome) hset

namespace Main

theorem add_iroutes_spec (env : MainEnv) {config : GroupCfg} (hconfig : p.config = some config) :
    m.Emits (·.isRoute) (m.add_iroutes env p config.iroutes).1 ∧
      (∃ new applied_iroutes, (m.add_iroutes env p config.iroutes).2.1 =
        { p with applied_iroutes } ∧
        (m.add_iroutes env p config.iroutes).1.ledger = new ++ m.ledger ∧
        Routed m.config p.profile new applied_iroutes) ∧
      (env.Delivers → ¬ (m.add_iroutes env p config.iroutes).2.2 < 0) := by
  obtain ⟨hadd, hall⟩ := m.add_routes_spec env p.id config.iroutes 0
  have happlied := @Routed.applied m.config p.profile config hconfig
  rcases hrun : m.add_routes env p.id config.iroutes 0 with ⟨m₁, stopped⟩
  rw [hrun] at hadd hall
  unfold add_iroutes
  rw [hrun]
  cases hcmd : m.config.route_add_cmd with
  | none =>
    rw [add_routes_unset hcmd, Prod.mk.injEq] at hrun
    obtain ⟨rfl, rfl⟩ := hrun
    rw [hcmd] at happlied
    exact ⟨hadd, ⟨[], true, rfl, rfl, happlied⟩, fun _ => Int.lt_irrefl 0⟩
  | some pattern =>
    have hset : m.config.route_add_cmd.isSome := by rw [hcmd]; rfl
    rw [if_pos hset] at happlied
    obtain ⟨added, hledger, hend⟩ := add_routes_entered hset env p.id config.iroutes 0
    rw [hrun] at hledger hend
    rcases hend with ⟨rfl, rfl⟩ | ⟨j, rfl, rfl⟩
    · exact ⟨hadd, ⟨_, true, rfl, hledger, happlied⟩, fun _ => Int.lt_irrefl 0⟩
    · have hcfg : m₁.config = m.config := by rw [Main.config, hadd.logged.vconfig]; rfl
      refine ⟨hadd.trans (foldl_route_del_emits _ _), ⟨_, p.applied_iroutes, rfl, ?_,
        .undone p.tun_name j hconfig hset⟩, fun henv => nomatch hall henv⟩
      simp only [foldl_route_del_ledger, hcfg, hledger, Nat.zero_add, List.append_assoc]
      rfl

theorem apply_iroutes_post (env : MainEnv) (m : Main) (p : Proc) :
    Post (m.apply_iroutes env p)
    (fun r => m.Emits (·.isRoute) r.1 ∧
      (∃ new applied_iroutes, r.2.1 = { p with applied_iroutes } ∧ r.1.ledger = new ++ m.ledger ∧
        Routed m.config p.profile new applied_iroutes) ∧ p.config.isSome ∧
      (env.Delivers → ¬ r.2.2 < 0)) fun _ => p.config = none := by
  have hconfig := (deref_post .null_config p.config).mono_error fun _ h => h.1
  refine hconfig.bind fun config _ hsome => .pure ?_
  have hisSome : p.config.isSome := by rw [hsome]; rfl
  split
  · exact ⟨.refl m, ⟨[], _, rfl, rfl, .untold⟩, hisSome, fun _ => Int.lt_irrefl 0⟩
  · obtain ⟨hadd, happlied, hdelivers⟩ := m.add_iroutes_spec env hsome
    exact ⟨hadd, happlied, hisSome, hdelivers⟩

theorem send_cookie_auth_reply_spec (env : MainEnv) (m : Main) (p : Proc) (r : AuthRep) :
    m.Emits Effect.Plain (m.send_cookie_auth_reply env p r).1 ∧
      (env.Delivers → ¬ (m.send_cookie_auth_reply env p r).2 < 0) := by
  unfold send_cookie_auth_reply
  split
  · next hsend => exact ⟨.refl m, fun henv => absurd henv.send (by omega)⟩
  · split
    · exact ⟨.emit ⟨rfl, rfl⟩, fun _ => Int.lt_irrefl 0⟩
    · exact ⟨.emit ⟨rfl, rfl⟩, fun _ => Int.lt_irrefl 0⟩

end Main

/-- What the exit of a connect script comes to. -/
inductive ScriptExit (env : MainEnv) (m : Main) (p : Proc) : Int → Main → Proc → Int → Prop
  | completed {m' : Main} {new : List (Entry (Nat × CStr))} {applied_iroutes : Bool} :
      m.Emits (·.isPhase = false) m' → p.config.isSome → m'.ledger = new ++ m.ledger →
      Routed m.config p.profile new applied_iroutes →
      ScriptExit env m p 0 m' { p with status := .completed, applied_iroutes, tun_open := false } 0
  /-- the worker cannot be told of its success, or its routes cannot be added -/
  | dropped {m' : Main} {new : List (Entry (Nat × CStr))} {applied_iroutes : Bool} {ret : Int} :
      m.Emits (·.isPhase = false) m' → m'.ledger = new ++ m.ledger →
      Routed m.config p.profile new applied_iroutes → ret < 0 →
      ¬ env.Delivers → ScriptExit env m p 0 m' { p with applied_iroutes, tun_open := false } ret
  | refused {m' : Main} {code ret : Int} : code ≠ 0 → m.Emits Effect.Plain m' →
      ScriptExit env m p code m' { p with tun_open := false } ret

theorem Main.handle_script_exit_post (env : MainEnv) (m : Main) (p : Proc)
    (code : Int) : Post (m.handle_script_exit env p code)
    (fun r => ScriptExit env m p code r.1 r.2.1 r.2.2) fun _ => code = 0 ∧ p.config = none := by
  have hneg : ERR_BAD_COMMAND < 0 := by decide
  unfold handle_script_exit
  split
  · next hcode =>
    subst hcode
    obtain ⟨hsend, hsent⟩ := send_cookie_auth_reply_spec env m p .ok
    rcases hreply : m.send_cookie_auth_reply env p .ok with ⟨m₁, ret₁⟩
    rw [hreply] at hsend hsent
    have hplain := hsend.mono fun _ he => he.1
    have hledger := hsend.ledger fun _ he => he.2
    have hcfg : m₁.config = m.config := by rw [Main.config, hsend.logged.vconfig]; rfl
    dsimp only
    split
    · next hfail =>
      exact .pure (.dropped hplain hledger .untold hneg fun henv => hsent henv hfail)
    · have happly := (m₁.apply_iroutes_post env p).mono_error fun f h =>
        And.intro (Eq.refl (0 : Int)) h
      refine happly.bind fun r _ hspec => .pure ?_
      obtain ⟨m₂, p₂, ret₂⟩ := r
      obtain ⟨hadd, ⟨new, applied, hp₂, hnew, hrouted⟩, hsome, hadded⟩ := hspec
      obtain rfl : p₂ = _ := hp₂
      have hemits := hplain.trans (hadd.mono fun _ he => Effect.isPhase_of_isRoute he)
      rw [hledger] at hnew
      rw [hcfg] at hrouted
      dsimp only
      split
      · next hfail =>
        exact .dropped hemits hnew hrouted hneg fun henv => hadded henv hfail
      · exact .completed hemits hsome hnew hrouted
  · next hcode => exact .pure (.refused hcode (send_cookie_auth_reply_spec env m p .failed).1)

theorem ScriptExit.spec {code : Int} (h : ScriptExit env m p code m' p' ret) :
    m.Logged m' ∧ p.SameUser p' := by
  cases h with
  | completed hemits =>
    exact ⟨hemits.logged, ⟨rfl, nofun, fun h => h⟩, rfl, rfl, rfl⟩
  | dropped hemits => exact ⟨hemits.logged, ⟨rfl, fun h => h, fun h => h⟩, rfl, rfl, rfl⟩
  | refused _ hemits => exact ⟨hemits.logged, ⟨rfl, fun h => h, fun h => h⟩, rfl, rfl, rfl⟩

/-! ## Changes of main and of a worker -/

/-- The changes that a handler makes to main and to its worker, one after the other, and that
are not about the connect phase. -/
inductive Moved (env : MainEnv) (m : Main) (p : Proc) : Main → Proc → Prop
  | refl : Moved env m p m p
  | emits {m₁ m₂ : Main} {p₁ : Proc} : Moved env m p m₁ p₁ → m₁.Emits Effect.Plain m₂ →
      Moved env m p m₂ p₁
  | update {m₁ : Main} {p₁ p₂ : Proc} : Moved env m p m₁ p₁ → p₁.SameUser p₂ →
      p₂.profile = p₁.profile → Moved env m p m₁ p₂
  | table {m₁ : Main} {p₁ : Proc} {t : ProcTable} : Moved env m p m₁ p₁ →
      t.db_sid = m₁.proc_table.db_sid → Moved env m p { m₁.store p₁ with proc_table := t } p₁
  | kill {m₁ : Main} {p₁ : Proc} : Moved env m p m₁ p₁ →
      Moved env m p m₁ { p₁ with pid_killed := true }
  | lease4 {m₁ : Main} {p₁ : Proc} {l : IpLease} : Moved env m p m₁ p₁ → p₁.ipv4 = none →
      get_ipv4_lease env m₁.ip_leases m₁.next p₁ = .ok (.lease l) →
      Moved env m p (m₁.register l) { p₁ with ipv4 := some l }
  | lease6 {m₁ : Main} {p₁ : Proc} {l : IpLease} : Moved env m p m₁ p₁ → p₁.ipv6 = none →
      get_ipv6_lease env m₁.ip_leases m₁.next p₁ = .ok (.lease l) →
      Moved env m p (m₁.register l) { p₁ with ipv6 := some l }

namespace Moved

theorem trans (h₁ : Moved env m p m₁ p₁) (h₂ : Moved env m₁ p₁ m₂ p₂) : Moved env m p m₂ p₂ := by
  induction h₂ with
  | refl => exact h₁
  | emits _ hemits ih => exact ih.emits hemits
  | update _ hsame hprofile ih => exact ih.update hsame hprofile
  | table _ hsid ih => exact ih.table hsid
  | kill _ ih => exact ih.kill
  | lease4 _ hnone hlease ih => exact ih.lease4 hnone hlease
  | lease6 _ hnone hlease ih => exact ih.lease6 hnone hlease

theorem profile (h : Moved env m p m' p') : p'.profile = p.profile := by
  induction h with
  | update _ _ hprofile ih => exact hprofile.trans ih
  | refl => rfl
  | emits _ _ ih | table _ _ ih | kill _ ih | lease4 _ _ _ ih | lease6 _ _ _ ih => exact ih

theorem opened (h : Moved env m p m' p') (hopened : p.Opened) : p'.Opened :=
  hopened.of_profile (congrArg Proc.Profile.config h.profile)
    (congrArg Proc.Profile.vhost h.profile)

end Moved

namespace Main

/-! ## Addresses -/

omit [Platform] in
theorem deref_config_post :
    Post (deref .null_config p.config) (p.config = some ·) fun _ => ¬ p.Opened :=
  (deref_post _ _).mono_error fun _ h hopened => by simpa [h.1] using hopened.config

omit [Platform] in
theorem deref_vhost_post :
    Post (deref .null_vhost p.vhost) (p.vhost = some ·) fun _ => ¬ p.Opened :=
  (deref_post _ _).mono_error fun _ h hopened => by simpa [h.1] using hopened.vhost

theorem get_ipv4_lease_post {db : LeaseDb} {id : Nat} :
    Post (get_ipv4_lease env db id p) (fun _ => True) fun _ => ¬ p.Opened := by
  refine deref_config_post.bind fun config _ _ => ?_
  split
  · exact .pure trivial
  · exact deref_vhost_post.bind fun _ _ _ => .pure trivial

theorem get_ipv6_lease_post {db : LeaseDb} {id : Nat} :
    Post (get_ipv6_lease env db id p) (fun _ => True) fun _ => ¬ p.Opened := by
  refine deref_config_post.bind fun config _ _ => ?_
  split
  · exact .pure trivial
  · exact deref_vhost_post.bind fun _ _ _ => .pure trivial

theorem lease_ipv4_post (env : MainEnv) (m : Main) (p : Proc) :
    Post (m.lease_ipv4 env p) (fun r => Moved env m p r.1 r.2.1)
    fun _ => ¬ p.Opened := by
  unfold lease_ipv4
  split
  · exact .pure .refl
  · next hnone =>
    refine get_ipv4_lease_post.bind fun r hlease _ => ?_
    cases r with
    | error | none => exact .pure .refl
    | lease l => exact .pure (.lease4 .refl (by simpa using hnone) hlease)

theorem lease_ipv6_post (env : MainEnv) (m : Main) (p : Proc) :
    Post (m.lease_ipv6 env p) (fun r => Moved env m p r.1 r.2.1)
    fun _ => ¬ p.Opened := by
  unfold lease_ipv6
  split
  · exact .pure .refl
  · next hnone =>
    refine get_ipv6_lease_post.bind fun r hlease _ => ?_
    cases r with
    | error | none => exact .pure .refl
    | lease l => exact .pure (.lease6 .refl (by simpa using hnone) hlease)

theorem get_ip_leases_post : Post (m.get_ip_leases env p) (fun r => Moved env m p r.1 r.2.1)
    fun _ => ¬ p.Opened := by
  refine (m.lease_ipv4_post env p).bind fun r₁ _ h₁ => ?_
  obtain ⟨m₁, p₁, ret₁⟩ := r₁
  dsimp only
  split
  · exact .pure h₁
  · have h6 := (m₁.lease_ipv6_post env p₁).mono (fun r h₂ => h₁.trans h₂)
      fun _ hnot => show ¬ p.Opened from fun hopened => hnot (h₁.opened hopened)
    refine h6.bind fun r₂ _ h₂ => ?_
    split
    · exact .pure h₂
    · split
      · exact .pure h₂
      · exact .pure h₂

theorem open_tun_post : Post (m.open_tun env p) (fun r => Moved env m p r.1 r.2.1)
    fun _ => ¬ p.Opened := by
  refine get_ip_leases_post.bind fun r _ h => .pure ?_
  obtain ⟨m₁, p₁, ret₁⟩ := r
  have htun : ∀ name opened, Moved env m p m₁ { p₁ with tun_name := name, tun_open := opened } :=
    fun _ _ => h.update ⟨⟨rfl, fun h => h, fun h => h⟩, rfl, rfl, rfl⟩ rfl
  dsimp only
  split
  · exact h
  · split
    · exact h
    · split
      · exact htun _ p₁.tun_open
      · exact htun _ true

/-! ## Cookie authentication -/

theorem accept_user_post (env : MainEnv) (m : Main) (p : Proc) :
    Post (m.accept_user env p)
    (fun r => p.config.isSome ∧
      ∃ m₁, Moved env m p m₁ r.2.1 ∧ UserConnected env m₁ r.2.1 r.1 r.2.2)
    fun _ => ¬ p.Opened := by
  refine deref_config_post.bind fun config _ hsome => ?_
  have hisSome : p.config.isSome := by rw [hsome]; rfl
  split
  · exact .pure ⟨hisSome, m, .refl, .failed⟩
  · refine open_tun_post.bind fun r _ hmoved => ?_
    obtain ⟨m₁, p₁, ret₁⟩ := r
    dsimp only
    split
    · exact .pure ⟨hisSome, m₁, hmoved, .failed⟩
    · have hconn := (m₁.user_connected_post env p₁).mono_error fun _ hnone =>
        show ¬ p.Opened from fun hopened => by simpa [hnone] using (hmoved.opened hopened).config
      exact hconn.bind fun r₂ _ hconnected => .pure ⟨hisSome, m₁, hmoved, hconnected⟩

end Main

/-- The outcome of a cookie request for the worker. -/
inductive Resolving (env : MainEnv) (m : Main) (p : Proc) : Main → Proc → Int → Prop
  | refused {m₁ m₂ : Main} {p₁ : Proc} {tun_open : Bool} {ret : Int} : Moved env m p m₁ p₁ →
      m₁.Emits Effect.Plain m₂ →
      Resolving env m p m₂ { p₁ with status := .failed, tun_open } ret
  | waiting {m₁ : Main} {p₁ : Proc} : Moved env m p m₁ p₁ → p.config.isSome → 0 < env.fork →
      Resolving env m p
        { m₁.emit (.script .connect p₁.id) with script_list := ⟨p₁.id, env.fork⟩ :: m₁.script_list }
        { p₁ with status := .failed } 0
  | accepted {m₁ m₂ : Main} {p₁ : Proc} {new : List (Entry (Nat × CStr))} {applied_iroutes : Bool} :
      Moved env m p m₁ p₁ → p.config.isSome →
      (m₁.emit (.connected p₁.id)).Emits (·.isPhase = false) m₂ → m₂.ledger = new ++ m₁.ledger →
      Routed m₁.config p₁.profile new applied_iroutes →
      Resolving env m p m₂ { p₁ with status := .completed, applied_iroutes, tun_open := false } 0
  | dropped {m₁ m₂ : Main} {p₁ : Proc} {new : List (Entry (Nat × CStr))} {applied_iroutes : Bool}
      {ret : Int} : Moved env m p m₁ p₁ → p.config.isSome →
      (m₁.emit (.connected p₁.id)).Emits (·.isPhase = false) m₂ → m₂.ledger = new ++ m₁.ledger →
      Routed m₁.config p₁.profile new applied_iroutes → ret < 0 → ¬ env.Delivers →
      Resolving env m p m₂ { p₁ with status := .failed, applied_iroutes, tun_open := false } ret

theorem Resolving.spec (h : Resolving env m p m' p' ret) : ∃ m₁ p₁, Moved env m p m₁ p₁ ∧
    m₁.Logged m' ∧ p₁.SameUser p' ∧ p'.status ≠ .inactive := by
  have hlogged : ∀ {m₁ m₂ : Main} {e : Effect} {P : Effect → Prop}, (m₁.emit e).Emits P m₂ →
      m₁.Logged m₂ := fun hemits => (Main.emit_logged _ _).trans hemits.logged
  cases h with
  | refused hmoved hemits =>
    exact ⟨_, _, hmoved, hemits.logged, ⟨⟨rfl, nofun, fun h => h⟩, rfl, rfl, rfl⟩, nofun⟩
  | waiting hmoved =>
    exact ⟨_, _, hmoved, ⟨rfl, rfl, rfl, rfl, rfl⟩,
      ⟨⟨rfl, nofun, fun h => h⟩, rfl, rfl, rfl⟩, nofun⟩
  | accepted hmoved _ hemits | dropped hmoved _ hemits =>
    exact ⟨_, _, hmoved, hlogged hemits, ⟨⟨rfl, nofun, fun h => h⟩, rfl, rfl, rfl⟩, nofun⟩

namespace Main

/-- A worker that is refused is told so. -/
theorem script_exit_refused (h : Moved env m p m₁ p₁) {code : Int} (hcode : code ≠ 0) :
    Post (do
      let (m, proc, ret) ← m₁.handle_script_exit env { p₁ with status := .failed } code
      return (m, { proc with status := if ret < 0 then .failed else proc.status }, ret))
      (fun r => Resolving env m p r.1 r.2.1 r.2.2) fun _ => result = 0 ∧ ¬ p.Opened := by
  have hexit := (m₁.handle_script_exit_post env { p₁ with status := .failed }
    code).mono_error fun _ hzero =>
      show result = 0 ∧ ¬ p.Opened from absurd hzero.1 hcode
  refine hexit.bind fun r _ hspec => .pure ?_
  obtain ⟨m₂, p₂, ret⟩ := r
  cases hspec with
  | refused _ hemits =>
    simp only [ite_self]
    exact .refused h hemits
  | completed | dropped => exact absurd rfl hcode

theorem handle_cookie_auth_res_post (env : MainEnv) (m : Main) (p : Proc)
    (result : Int) : Post (m.handle_cookie_auth_res env p result)
    (fun r => Resolving env m p r.1 r.2.1 r.2.2) fun _ => result = 0 ∧ ¬ p.Opened := by
  unfold handle_cookie_auth_res cookie_auth_status
  by_cases hresult : result = 0
  · have haccept := (m.accept_user_post env p).mono_error fun _ hnot =>
      And.intro hresult hnot
    simp only [if_pos hresult, bind_assoc, pure_bind]
    refine haccept.bind fun r _ hspec => ?_
    obtain ⟨m₂, p₁, ret₁⟩ := r
    obtain ⟨hsome, m₁, hmoved, hconn⟩ := hspec
    dsimp only at hmoved hconn ⊢
    cases hconn with
    | failed => exact script_exit_refused hmoved (by decide)
    | waiting hfork => exact .pure (.waiting hmoved hsome hfork)
    | connected =>
      have hexit := ((m₁.emit (.connected p₁.id)).handle_script_exit_post env
        { p₁ with status := .completed } 0).mono_error fun _ hnone =>
          show result = 0 ∧ ¬ p.Opened from ⟨hresult, fun hopened => by
            have hconfig := (hmoved.opened hopened).config
            have hnone : p₁.config = none := hnone.2
            simp [hnone] at hconfig⟩
      refine hexit.bind fun r _ hspec => .pure ?_
      obtain ⟨m₂, p₂, ret⟩ := r
      cases hspec with
      | completed hemits _ hledger hrouted =>
        exact @Resolving.accepted _ env m p m₁ m₂ p₁ _ _ hmoved hsome hemits hledger
          (hrouted.congr rfl rfl rfl)
      | dropped hemits hledger hrouted hneg henv =>
        simp only [if_pos hneg]
        exact @Resolving.dropped _ env m p m₁ m₂ p₁ _ _ _ hmoved hsome hemits hledger
          (hrouted.congr rfl rfl rfl) hneg henv
      | refused hne => exact absurd rfl hne
  · have hcode : (if result < 0 then result else ERR_BAD_COMMAND) ≠ 0 := by
      split
      · omega
      · decide
    simp only [if_neg hresult, pure_bind]
    generalize (if result < 0 then result else ERR_BAD_COMMAND) = code at hcode ⊢
    split
    · exact .pure (.refused .refl (.refl m))
    · exact script_exit_refused .refl hcode

/-! ## Reports of addresses -/

theorem update_remote_addr_moved (env : MainEnv) (m : Main) (p : Proc) (addr : List UInt8) :
    Moved env m p (m.update_remote_addr env p addr).1 (m.update_remote_addr env p addr).2 := by
  have hip : Moved env m p (m.proc_table_update_ip p addr).1 (m.proc_table_update_ip p addr).2 := by
    rcases m.proc_table_update_ip_eq p addr with ⟨-, -, heq⟩ | ⟨p', t, len, hp', heq, -, -, hsid⟩
    · rw [heq]
      exact .refl
    · rw [heq]
      have hsame : p.SameUser p' := hp' ▸ ⟨⟨rfl, fun h => h, fun h => h⟩, rfl, rfl, rfl⟩
      exact (Moved.refl.update hsame (hp' ▸ rfl)).table hsid
  simp only [update_remote_addr]
  split
  · split
    · exact (hip.emits (.emit ⟨rfl, rfl⟩)).kill
    · exact hip
  · exact .refl

omit [Platform] in
theorem update_our_addr_same (p : Proc) (addr : List UInt8) :
    p.SameUser (update_our_addr p addr) ∧ (update_our_addr p addr).profile = p.profile := by
  unfold update_our_addr
  split
  · exact ⟨⟨⟨rfl, fun h => h, fun h => h⟩, rfl, rfl, rfl⟩, rfl⟩
  · exact ⟨.refl p, rfl⟩

variable {msg : SessionInfoMsg}

/-- `CMD_SESSION_INFO` may run the script for the name of the host, and then takes over the
addresses that a worker behind a proxy reports. -/
theorem handle_session_info_spec : Post (m.handle_session_info env p msg)
    (fun r => ∃ m₁ host_updated, m.Emits Effect.Plain m₁ ∧
      r = if m₁.config.listen_proxy_proto then m₁.update_addrs env { p with host_updated } msg
        else (m₁, { p with host_updated }))
    fun _ => p.hostname ≠ [] ∧ p.config = none := by
  unfold handle_session_info
  split
  · exact .pure ⟨m, p.host_updated, .refl m, rfl⟩
  · next hne =>
    have hname := (m.user_hostname_update_post env p).mono_error fun _ h => And.intro hne h
    refine hname.bind fun r _ h => .pure ⟨r.1, r.2.host_updated, h.1, ?_⟩
    rw [← h.2]

theorem handle_session_info_rule (Inv : Main → Proc → Prop)
    (hname : ∀ m₁ host_updated, m.Emits Effect.Plain m₁ → Inv m₁ { p with host_updated })
    (hremote : ∀ m₁ p₁ addr, Inv m₁ p₁ →
      Inv (m₁.update_remote_addr env p₁ addr).1 (m₁.update_remote_addr env p₁ addr).2)
    (hour : ∀ m₁ p₁ addr, Inv m₁ p₁ → Inv m₁ (update_our_addr p₁ addr)) :
    Post (m.handle_session_info env p msg) (fun r => Inv r.1 r.2)
      fun _ => p.hostname ≠ [] ∧ p.config = none := by
  refine handle_session_info_spec.mono (fun r hspec => ?_) fun _ h => h
  obtain ⟨m₁, host_updated, hemits, rfl⟩ := hspec
  have hinv := hname m₁ host_updated hemits
  generalize { p with host_updated } = p₁ at hinv
  split
  · have haddr : Inv (msg.remote_addr.elim (m₁, p₁) (m₁.update_remote_addr env p₁)).1
        (msg.remote_addr.elim (m₁, p₁) (m₁.update_remote_addr env p₁)).2 := by
      cases msg.remote_addr with
      | none => exact hinv
      | some addr => exact hremote _ _ addr hinv
    simp only [update_addrs]
    cases msg.our_addr with
    | none => exact haddr
    | some addr => exact hour _ _ addr haddr
  · exact hinv

theorem handle_session_info_post :
    Post (m.handle_session_info env p msg) (fun r => Moved env m p r.1 r.2)
      fun _ => p.hostname ≠ [] ∧ p.config = none := by
  refine handle_session_info_rule (Moved env m p) (fun m₁ host_updated hemits => ?_)
    (fun _ _ addr h => h.trans (update_remote_addr_moved _ _ _ addr)) fun _ p₁ addr h => ?_
  · exact (Moved.refl.emits hemits).update ⟨⟨rfl, fun h => h, fun h => h⟩, rfl, rfl, rfl⟩ rfl
  · obtain ⟨hsame, hprofile⟩ := update_our_addr_same p₁ addr
    exact h.update hsame hprofile

end Main

/-! ## Messages -/

/-- The message is a cookie request that main passes on to the instance `sec`. -/
structure CookieReq (s : Sys) (p : Proc) (msg : WorkerMsg) (req : AuthCookieRequestMsg) (sid : Sid)
    (sec : SecMod) : Prop where
  msg : msg = .auth_cookie_req (some req)
  status : p.status = .inactive
  cookie : Sid.ofBytes? req.cookie = some sid
  sec : s.secmods[sec_mod_instance_index_get sid]? = some sec

/-- The state in which `handle_auth_cookie_req` leaves main, sec-mod and the worker. -/
def Answered (env : MainEnv) (s : Sys) (p : Proc) (req : AuthCookieRequestMsg) (sid : Sid)
    (sec : SecMod) (m₁ : Main) (sec₁ : SecMod) (p₁ : Proc) (result : Int) : Prop :=
  s.main.handle_auth_cookie_req env sec
    { p with sec_mod_instance_index := sec_mod_instance_index_get sid } req =
      (m₁, sec₁, p₁, result)

/-- The handling of a message: only a cookie request does more than change the data of
the worker. -/
inductive Handling (env : MainEnv) (s : Sys) (p : Proc) (msg : WorkerMsg) :
    Sys → Proc → Int → Prop
  | moved {m₁ : Main} {p₁ : Proc} {ret : Int} : Moved env s.main p m₁ p₁ →
      (∀ req sid sec, ¬ CookieReq s p msg req sid sec) →
      Handling env s p msg { s with main := m₁ } p₁ ret
  /-- the session names an instance that does not exist -/
  | unknown {req : AuthCookieRequestMsg} {m₁ : Main} {p₁ : Proc} {ret : Int} :
      msg = .auth_cookie_req (some req) → p.status = .inactive →
      Resolving env s.main p m₁ p₁ ret → Handling env s p msg { s with main := m₁ } p₁ ret
  | cookie {req : AuthCookieRequestMsg} {sid : Sid} {sec sec₁ : SecMod} {m₁ m₂ : Main}
      {p₁ p₂ : Proc} {result ret : Int} : CookieReq s p msg req sid sec →
      Answered env s p req sid sec m₁ sec₁ p₁ result → Resolving env m₁ p₁ m₂ p₂ ret →
      Handling env s p msg ⟨m₂, s.secmods.set (sec_mod_instance_index_get sid) sec₁⟩ p₂ ret

theorem Answered.step {req : AuthCookieRequestMsg} {sid : Sid} {sec sec₁ : SecMod} {msg : WorkerMsg}
    {result : Int} (h : Answered env s p req sid sec m₁ sec₁ p₁ result)
    (hreq : CookieReq s p msg req sid sec) :
    CookieStep env s.main sec { p with sec_mod_instance_index := sec_mod_instance_index_get sid }
      req sid m₁ sec₁ p₁ result :=
  handle_auth_cookie_req_step hreq.cookie h

/-- A request that is granted has opened the session of the worker. -/
theorem Answered.opened {req : AuthCookieRequestMsg} {sid : Sid} {sec sec₁ : SecMod}
    {msg : WorkerMsg}
    (h : Answered env s p req sid sec m₁ sec₁ p₁ 0) (hreq : CookieReq s p msg req sid sec) :
    p₁.Opened := by
  have hloaded : ∀ {info : SessionInfo} {vconfig : VConfig} {q q' : Proc},
      q.Loaded vconfig info q' → q'.Opened :=
    fun hload => ⟨by rw [hload.config]; rfl, by rw [hload.vhost]; rfl⟩
  cases h.step hreq with
  | fresh _ _ hload =>
    obtain ⟨hconfig, hvhost⟩ := hloaded hload
    exact ⟨hconfig, hvhost⟩
  | taken _ _ _ _ hload =>
    obtain ⟨hconfig, hvhost⟩ := hloaded hload
    exact ⟨hconfig, hvhost⟩

theorem Sys.handle_cookie_cmd_post {req : AuthCookieRequestMsg} (hstatus : p.status = .inactive) :
    Post (s.handle_cookie_cmd env p req)
      (fun r => Handling env s p (.auth_cookie_req (some req)) r.1 r.2.1 r.2.2)
      fun _ => False := by
  unfold Sys.handle_cookie_cmd
  split
  · next hsid =>
    refine .pure (.moved .refl fun req' sid sec hreq => ?_)
    obtain rfl : req = req' := by simpa using hreq.msg
    simp [hreq.cookie] at hsid
  · next sid hsid =>
    dsimp only
    split
    · have hres := (s.main.handle_cookie_auth_res_post env p (-1)).mono
        (fun _ h => h) fun _ h => show False from absurd h.1 (by decide)
      exact hres.bind fun r _ hres => .pure (.unknown rfl hstatus hres)
    · next sec hsec =>
      rcases hans : s.main.handle_auth_cookie_req env sec
        { p with sec_mod_instance_index := sec_mod_instance_index_get sid } req with
        ⟨m₁, sec₁, p₁, result⟩
      have hreq : CookieReq s p (.auth_cookie_req (some req)) req sid sec :=
        ⟨rfl, hstatus, hsid, hsec⟩
      have hres := (m₁.handle_cookie_auth_res_post env p₁ result).mono
        (fun _ h => h) fun _ h => show False from h.2 (Answered.opened (h.1 ▸ hans) hreq)
      exact hres.bind fun r _ hres => .pure (.cookie hreq hans hres)

/-- Main faults if a worker asks for an MTU too early; and it would if the worker had a host
name without a configuration. -/
theorem Sys.handle_worker_commands_post (msg : WorkerMsg) :
    Post (s.handle_worker_commands env p msg) (fun r => Handling env s p msg r.1 r.2.1 r.2.2)
      fun _ => (∃ mtu, msg = .tun_mtu mtu) ∧ p.vhost = none ∨
        p.hostname ≠ [] ∧ p.config = none := by
  -- what is returned where nothing happens
  have hsame : (∀ req, msg ≠ .auth_cookie_req (some req)) ∨ p.status ≠ .inactive →
      ∀ {ret : Int}, Handling env s p msg s p ret := fun hno _ =>
    .moved .refl fun req sid sec hreq => hno.elim (· req hreq.msg) (· hreq.status)
  cases msg with
  | ban_ip msg =>
    cases msg with
    | none => exact .pure (hsame (.inl nofun))
    | some reason =>
      exact .pure (.moved (Moved.refl.update ⟨⟨rfl, fun h => h, fun h => h⟩, rfl, rfl, rfl⟩ rfl)
        fun _ _ _ hreq => nomatch hreq.msg)
  | tun_mtu msg =>
    have hvhost := (deref_post .null_vhost p.vhost).mono_error fun _ h =>
      show (∃ mtu, WorkerMsg.tun_mtu msg = .tun_mtu mtu) ∧ p.vhost = none ∨
        p.hostname ≠ [] ∧ p.config = none from .inl ⟨⟨msg, rfl⟩, h.1⟩
    refine hvhost.bind fun vhost _ _ => ?_
    split
    · exact .pure (hsame (.inl nofun))
    · split
      · exact .pure (hsame (.inl nofun))
      · split
        · exact .pure (hsame (.inl nofun))
        · refine .pure (.moved (Moved.refl.update ?_ ?_) fun _ _ _ hreq => nomatch hreq.msg)
          · unfold Main.set_tun_mtu
            split_ifs <;> exact ⟨⟨rfl, fun h => h, fun h => h⟩, rfl, rfl, rfl⟩
          · unfold Main.set_tun_mtu
            split_ifs <;> rfl
  | session_info msg =>
    cases msg with
    | none => exact .pure (hsame (.inl nofun))
    | some msg =>
      exact (Main.handle_session_info_post.mono_error fun _ h => .inr h).bind
        fun r _ hmoved => .pure (.moved hmoved fun _ _ _ hreq => nomatch hreq.msg)
  | auth_cookie_req msg =>
    rw [Sys.handle_worker_commands.eq_def]
    dsimp only
    split
    · next hstatus => exact .pure (hsame (.inr hstatus))
    · next hstatus =>
      cases msg with
      | none => exact .pure (hsame (.inl nofun))
      | some req =>
        exact (handle_cookie_cmd_post (not_not.1 hstatus)).mono_error fun _ h => h.elim
  | latency_stats_delta msg =>
    rw [Sys.handle_worker_commands]
    split <;> exact .pure (hsame (.inl nofun))
  | unknown cmd => exact .pure (hsame (.inl nofun))
  | unreadable ret neg => exact .pure (hsame (.inl nofun))

/-! ## The end of a worker -/

/-- Whether the removal of a worker records the start and the end of its connect phase.  The
script that still runs decides, or else the status. -/
def MainEnv.closing (env : MainEnv) (status : PsAuth) (script : Option ScriptWait) : Bool × Bool :=
  if script.any (0 < ·.pid) then
    (env.script_status.succeeded, env.waitpid_ok && env.script_status.WEXITSTATUS == 0)
  else (false, status = .completed)

/-- The phases after the removal of `w`. -/
def closed (w : Nat) (r : Bool × Bool) (phases : List Effect) : List Effect :=
  (if r.2 then [.user_disconnected w] else []) ++ ((if r.1 then [.connected w] else []) ++ phases)

/-- The end of the connect phase of a worker that is removed. -/
structure Ended (env : MainEnv) (m : Main) (p : Proc) (m' : Main) : Prop where
  script_list : m'.script_list = m.script_list.eraseP fun stmp => stmp.proc = p.id
  phases : m'.phases = closed p.id
    (env.closing p.status (m.script_list.find? fun stmp => stmp.proc = p.id)) m.phases

/-- The end of the phase: `user_disconnected` is recorded once. -/
theorem Main.user_disconnected_spec : Post (m.user_disconnected env p)
    (fun m' => m.Logged m' ∧ m'.script_list = m.script_list ∧ m'.ledger = m.ledger ∧
      m'.phases = .user_disconnected p.id :: m.phases) fun _ => p.config = none := by
  refine user_disconnected_post.mono (fun m' hemits => ?_) fun _ h => h
  have hledger := hemits.ledger fun _ he => he.2
  have hphases := hemits.phases fun _ he => he.1
  exact ⟨(emit_logged m _).trans hemits.logged, hemits.script_list, hledger, hphases⟩

theorem Main.finish_scripts_post : Post (m.finish_scripts env p)
    (fun m' => m.Logged m' ∧ m'.ledger = m.ledger ∧ Ended env m p m')
    fun _ => p.config = none ∧
      (p.status = .completed ∨ ∃ stmp ∈ m.script_list, stmp.proc = p.id) := by
  -- the end is recorded if `c` holds
  have hend : ∀ {m₁ : Main} {b : Bool} {c : Prop} [Decidable c], m.Logged m₁ →
      m₁.ledger = m.ledger →
      m₁.script_list = m.script_list.eraseP (fun stmp => stmp.proc = p.id) →
      m₁.phases = (if b then [.connected p.id] else []) ++ m.phases →
      env.closing p.status (m.script_list.find? fun stmp => stmp.proc = p.id) =
        (b, decide c) →
      (c → p.status = .completed ∨ ∃ stmp ∈ m.script_list, stmp.proc = p.id) →
      Post (if c then m₁.user_disconnected env p else pure m₁)
        (fun m' => m.Logged m' ∧ m'.ledger = m.ledger ∧ Ended env m p m') fun _ =>
        p.config = none ∧ (p.status = .completed ∨ ∃ stmp ∈ m.script_list, stmp.proc = p.id) := by
    intro m₁ b c _ hlogged₁ hledger₁ hscripts₁ hphases₁ hclosing hwhy
    split
    · next hc =>
      refine user_disconnected_spec.mono (fun m' hspec => ?_) fun _ h => ⟨h, hwhy hc⟩
      obtain ⟨hlogged, hscripts, hledger, hphases⟩ := hspec
      refine ⟨hlogged₁.trans hlogged, hledger.trans hledger₁, hscripts.trans hscripts₁, ?_⟩
      rw [hclosing, hphases, hphases₁]
      simp [closed, hc]
    · next hc =>
      refine .pure ⟨hlogged₁, hledger₁, hscripts₁, ?_⟩
      rw [hclosing, hphases₁]
      simp [closed, hc]
  unfold finish_scripts remove_from_script_list
  cases hfind : m.script_list.find? (fun stmp => stmp.proc = p.id) with
  | none =>
    have herase : m.script_list.eraseP (fun stmp => stmp.proc = p.id) = m.script_list :=
      List.eraseP_of_forall_not fun stmp hmem => by
        simpa using List.find?_eq_none.1 hfind stmp hmem
    exact hend (b := false) (.refl m) rfl herase.symm rfl
      (by simp [hfind, MainEnv.closing]) .inl
  | some stmp =>
    have hmem : ∃ stmp ∈ m.script_list, stmp.proc = p.id :=
      ⟨stmp, List.mem_of_find?_eq_some hfind, by simpa using List.find?_some hfind⟩
    dsimp only
    by_cases hpid : 0 < stmp.pid
    · -- the script has been killed, and the phase has started if it succeeded before
      simp only [if_pos hpid]
      refine hend (b := env.script_status.succeeded) ?_ ?_ ?_ ?_ ?_ fun _ => .inr hmem
      · split <;> exact ⟨rfl, rfl, rfl, rfl, rfl⟩
      · split <;> rfl
      · split <;> rfl
      · rw [WaitStatus.succeeded]
        split <;> rfl
      · rw [hfind, MainEnv.closing, if_pos (by simpa using hpid), Bool.decide_eq_true]
    · simp only [if_neg hpid]
      exact hend (b := false) ⟨rfl, rfl, rfl, rfl, rfl⟩ rfl rfl rfl
        (by simp [hfind, MainEnv.closing, hpid]) .inl

end Handlers
end Ocserv

import Ocserv.Proofs.Scripts

/-!
# The routes of a worker are deleted once

The routes of a worker are added after its reply, and deleted again when one of them cannot
be added or when the worker is removed.  What main knows of them is a flag of the worker.

A command that is not set counts as one that has succeeded, and a command that cannot be
filled in is not run.  So the delete commands match the add commands only if both or neither
of them are set, and if the delete command can be filled in for every route.
-/

namespace Ocserv

open Ledger List Option Outcome Runs

/-! ## The account of one worker -/

theorem count_ownedBy (id id' : Nat) (routes : List CStr) (route : CStr) :
    @List.count _ instBEqOfDecidableEq (id', route) (ownedBy id routes) =
      if id' = id then routes.count route else 0 := by
  change (routes.reverse.map fun r => (id, r)).countP _ = _
  rw [countP_map, countP_reverse]
  split
  · next heq => exact countP_congr fun r _ => by simp [heq]
  · next hne => exact countP_eq_zero.2 fun r _ => by simp [Ne.symm hne]

/-- The ledger leaves the routes `owed` to be deleted for the worker `w`. -/
structure Charged (w : Nat) (owed : List CStr) (l : List (Entry (Nat × CStr))) : Prop where
  own : ∀ route, credits (w, route) l = debits (w, route) l + owed.count route
  solvent : Solvent l

namespace Charged

variable {w : Nat} {owed : List CStr} {l : List (Entry (Nat × CStr))}

theorem add (h : Charged w [] l) (routes : List CStr) :
    Charged w routes ((ownedBy w routes).map .credit ++ l) where
  own route := by
    rw [credits_credits, debits_credits, count_ownedBy, if_pos rfl, h.own route]
    simp [Nat.add_comm]
  solvent := h.solvent.append_credits _

theorem del (h : Charged w owed l) : Charged w [] ((ownedBy w owed).map .debit ++ l) where
  own route := by
    rw [credits_debits, debits_debits, count_ownedBy, if_pos rfl, h.own route]
    simp [Nat.add_comm]
  solvent := by
    refine h.solvent.append_debits _ fun k => ?_
    obtain ⟨id, route⟩ := k
    rw [count_ownedBy]
    split
    · next heq =>
      rw [heq, h.own route, Nat.add_comm]
    · rw [Nat.zero_add]
      exact h.solvent.le _

end Charged

section Iroutes

variable [Platform]

/-! ## What is demanded -/

/-- Each route of a worker that is gone has been deleted as often as it was added, and at no
moment a route was deleted that had not been added. -/
structure Main.RoutesBalanced (m : Main) : Prop where
  gone : ∀ id, (∀ p ∈ m.procs, p.id ≠ id) → ∀ route,
    debits (id, route) m.ledger = credits (id, route) m.ledger
  solvent : Solvent m.ledger

/-- The delete command can be filled in for the routes. -/
def Cfg.Deletes (config : Cfg) (iroutes : List CStr) : Prop :=
  ∀ route ∈ iroutes, ∀ pattern, config.route_del_cmd = some pattern →
    ∀ dev, (replace_cmd pattern route dev).isSome

/-- Both commands are set or none is, and the routes that a user is given can be deleted. -/
structure Sys.Revocable (t : Transition Sys (Sys.Event × Sys.Env)) : Prop where
  commands : t.pre.main.config.route_add_cmd.isSome = t.pre.main.config.route_del_cmd.isSome
  filled : ∀ w, t.label.1.about = some w → ∀ iroutes, (t.label.2 w).Gives iroutes →
    t.pre.main.config.Deletes iroutes

/-! ## The invariant -/

/-- The routes that have still to be deleted for a worker. -/
def Cfg.owed (cfg : Cfg) (f : Proc.Profile) : List CStr :=
  if f.applied_iroutes && cfg.route_add_cmd.isSome then (f.config.map (·.iroutes)).getD [] else []

/-- The ledger shows what is owed for the worker, and nothing when it is gone. -/
structure Course.Accounted (cfg : Cfg) (id : Nat) (c : Course) : Prop where
  charged : Charged id ((c.profile.map cfg.owed).getD []) c.ledger
  deletes : ∀ f config, c.profile = some f → f.config = some config → cfg.Deletes config.iroutes

section Accounted

variable {env : MainEnv} {cfg : Cfg} {f g : Proc.Profile} {c c₁ c' : Course}
  {l new : List (Entry (Nat × CStr))}

omit [Platform]

theorem Cfg.owed_of_not_applied (h : f.applied_iroutes = false) : cfg.owed f = [] := by
  rw [owed, h]
  rfl

theorem Cfg.owed_of_unset (h : cfg.route_add_cmd.isSome = false) : cfg.owed f = [] := by
  rw [owed, h, Bool.and_false]
  rfl

theorem Cfg.Deletes.deleted {routes : List CStr} (h : cfg.Deletes routes)
    (hset : cfg.route_del_cmd.isSome) (dev : CStr) : cfg.deleted dev routes = routes := by
  obtain ⟨pattern, hpattern⟩ := isSome_iff_exists.1 hset
  refine filter_eq_self.2 fun route hroute => ?_
  rw [hpattern]
  exact h route hroute pattern hpattern dev

variable {status : PsAuth} {applied_iroutes : Bool} {id : Nat}

/-- What is owed when the worker has been told of its success. -/
theorem Routed.charged (h : Routed cfg g new applied_iroutes)
    (hcommands : cfg.route_add_cmd.isSome = cfg.route_del_cmd.isSome)
    (hdeletes : ∀ config, g.config = some config → cfg.Deletes config.iroutes)
    (hcharged : Charged g.id [] l) (happlied : g.applied_iroutes = false) :
    Charged g.id (cfg.owed { g with status, applied_iroutes }) (new ++ l) := by
  cases h with
  | untold => exact (Cfg.owed_of_not_applied happlied).symm ▸ hcharged
  | applied hconfig =>
    cases hset : cfg.route_add_cmd.isSome with
    | false => exact (Cfg.owed_of_unset hset).symm ▸ hcharged
    | true =>
      rw [Cfg.owed, hset, hconfig]
      exact hcharged.add _
  | @undone config dev j hconfig hset =>
    have htake : cfg.Deletes (config.iroutes.take j) := fun route hroute =>
      hdeletes _ hconfig route (mem_of_mem_take hroute)
    have hnone : cfg.owed { g with status } = [] := Cfg.owed_of_not_applied happlied
    rw [htake.deleted (hcommands ▸ hset), hnone, append_assoc]
    exact (hcharged.add _).del

theorem Course.Accounted.of_profile (hf : c.profile = some { g with status, applied_iroutes })
    (hcharged : Charged id (cfg.owed { g with status, applied_iroutes }) c.ledger)
    (hdeletes : ∀ config, g.config = some config → cfg.Deletes config.iroutes) :
    c.Accounted cfg id := by
  refine ⟨by rw [hf]; exact hcharged, fun g' config hg' => ?_⟩
  rw [← some.inj (hf.symm.trans hg')]
  exact hdeletes config

theorem Course.Accounted.turn {ev : Sys.Event} {ret : Int} (h : c.Accounted cfg id) (hok : c.Ok)
    (hf : c.profile = some f) (hid : f.id = id)
    (hcommands : cfg.route_add_cmd.isSome = cfg.route_del_cmd.isSome)
    (hfilled : ∀ iroutes, env.Gives iroutes → cfg.Deletes iroutes)
    (hturn : Turn env cfg ev c f c₁ ret) : c₁.Accounted cfg id := by
  have hdeletes : ∀ {g : Proc.Profile} {config : GroupCfg}, f.Loaded env g →
      g.config = some config → cfg.Deletes config.iroutes := by
    intro g config hload hconfig
    rcases hload.iroutes config hconfig with hold | hgiven
    · exact h.deletes f config hf hold
    · exact hfilled _ hgiven
  have hnone : f.applied_iroutes = false → Charged id [] c.ledger := fun hnot => by
    have hcharged := h.charged
    rwa [hf, map_some, getD_some, Cfg.owed_of_not_applied hnot] at hcharged
  cases hturn with
  | plain => exact h
  | @refused g _ _ hst hload | @waiting g _ hst hload =>
    have hnot := hok.unapplied f hf hst
    refine .of_profile (g := g) rfl ?_ fun _ => hdeletes hload
    have howed : cfg.owed { g with status := .failed } = [] :=
      Cfg.owed_of_not_applied (hload.applied_iroutes.trans hnot)
    exact howed.symm ▸ hnone hnot
  | @connected g _ _ _ _ _ _ hnot hload _ hrouted =>
    have hgid := hload.id.trans hid
    have hcharged := hgid.symm ▸ hnone hnot
    exact .of_profile (g := g) rfl
      (hgid ▸ hrouted.charged hcommands (fun _ => hdeletes hload) hcharged
      (hload.applied_iroutes.trans hnot)) fun _ => hdeletes hload
  | exited => exact ⟨h.charged, h.deletes⟩

/-- The removal deletes what is owed. -/
theorem Course.Accounted.ended (h : c.Accounted cfg f.id) (hf : c.profile = some f)
    (hcommands : cfg.route_add_cmd.isSome = cfg.route_del_cmd.isSome)
    (hend : Ended env cfg c f c') : c'.Accounted cfg f.id := by
  obtain ⟨dev, hledger⟩ := hend.ledger
  have hcharged := h.charged
  rw [hf, map_some, getD_some] at hcharged
  refine ⟨?_, by simp [hend.profile]⟩
  rw [hend.profile, hledger]
  show Charged f.id [] _
  cases happlied : f.applied_iroutes with
  | false => exact Cfg.owed_of_not_applied happlied ▸ hcharged
  | true =>
    rw [if_pos rfl]
    cases hset : cfg.route_add_cmd.isSome with
    | false =>
      have hunset : cfg.route_del_cmd = none := by simpa [hset] using hcommands
      simp only [Cfg.deleted, hunset, bind_none, isSome_none, filter_false]
      rw [Cfg.owed_of_unset hset] at hcharged
      exact hcharged
    | true =>
      rw [Cfg.owed, happlied, hset] at hcharged
      cases hconfig : f.config with
      | none =>
        rw [hconfig] at hcharged
        exact hcharged
      | some config =>
        rw [hconfig] at hcharged
        have hdeleted := (h.deletes f config hf hconfig).deleted (hcommands ▸ hset) dev
        show Charged f.id [] ((ownedBy f.id (cfg.deleted dev config.iroutes)).map .debit ++ _)
        rw [hdeleted]
        exact hcharged.del

end Accounted

/-! ## Runs -/

theorem Main.balanced_of_courses {m : Main} (h : ∀ id, (m.course id).Accounted m.config id) :
    m.RoutesBalanced := by
  refine ⟨fun id hid route => ?_, .of_parts Prod.fst fun id => (h id).charged.solvent⟩
  have hnone : m.find_proc id = none := List.find?_eq_none.2 fun p hp => by simpa using hid p hp
  have hcharged := (h id).charged
  have hprofile : (m.course id).profile = none := by rw [course, hnone]; rfl
  rw [hprofile] at hcharged
  have hown : credits (id, route) (m.ledger.filter _) = debits (id, route) (m.ledger.filter _) :=
    hcharged.own route
  rw [credits_filter (P := fun k : Nat × CStr => k.1 = id) (by simp),
    debits_filter (P := fun k : Nat × CStr => k.1 = id) (by simp)] at hown
  exact hown.symm

/-- In every run in which both commands are set or none is, and in which the delete command
can be filled in, the routes are balanced. -/
theorem iroutes_balanced {trace : List (Transition Sys (Sys.Event × Sys.Env))} {s : Sys}
    (hrun : Run Sys.Initial Sys.Step trace s) (hcond : ∀ t ∈ trace, Sys.Revocable t) :
    s.main.RoutesBalanced := by
  refine Main.balanced_of_courses
    (Sys.courses_of_run (P := fun cfg id c => c.Accounted cfg id) hrun hcond ?_ ?_ ?_ ?_)
  · exact fun _ _ => ⟨⟨fun _ => rfl, .nil⟩, by simp⟩
  · intro cfg id
    refine ⟨⟨fun _ => ?_, .nil⟩, fun f config hf hconfig => ?_⟩
    · show _ = _ + (cfg.owed (.fresh id)).count _
      rw [Cfg.owed_of_not_applied rfl]
      rfl
    · rw [← some.inj hf] at hconfig
      exact nomatch hconfig
  · intro s l s' w f c₁ ret hC habout hok hf hid h hturn
    exact h.turn hok hf hid hC.commands (hC.filled w habout) hturn
  · intro s l s' w f f₁ c₁ c' ret hC _ _ _ _ h hf₁ hid hend
    exact hid ▸ (hid ▸ h).ended hf₁ hC.commands hend

end Iroutes

/-! ## A session with a route -/

section Example

open Sample

local instance iroutesPlatform : Platform := Platform.simple

private def addCmd : CStr := "ip route add %\x7bR\x7d dev %\x7bD\x7d".toList

private def delCmd : CStr := "ip route delete %\x7bR\x7d dev %\x7bD\x7d".toList

/-- The example of the sample configuration, but with the route in CIDR format. -/
private def delCidrCmd : CStr := "ip route delete %\x7bRI\x7d dev %\x7bD\x7d".toList

private def allRoute : CStr := "0.0.0.0/0.0.0.0".toList

/-- The route `0.0.0.0/0` of a user is accepted. -/
example : ip_route_sanity_check "0.0.0.0/0".toList = some allRoute := by decide +kernel

private def routedConfig (del : CStr) : VConfig where
  default_vhost :=
    { (vconfig { route_add_cmd := some addCmd, route_del_cmd := some del }).default_vhost with
      get_sup_config := true }

private def routedStart (del : CStr) : Sys where
  main := { vconfig := routedConfig del }
  secmods := [{ secmod {} first with vconfig := routedConfig del }]

private theorem routedStart_initial (del : CStr) : (routedStart del).Initial := by
  refine ⟨rfl, rfl, rfl, rfl, rfl, fun i sec hsec => ?_⟩
  cases i with
  | zero =>
    cases hsec
    exact ⟨rfl, rfl⟩
  | succ i => exact nomatch hsec

/-- The user has one route. -/
private def routedEnv : MainEnv :=
  { env with sec := { secEnv 0 with sup_config := some { iroutes := [allRoute] } } }

private def routedCookie : Sys.Event × Sys.Env := ((cookie 0 (sid 0 1)).1, fun _ => routedEnv)

/-- Both commands are set, and the add command has succeeded, but the delete command cannot be
filled in for the route and is never run. -/
theorem added_route_never_deleted : ∃ P : Platform, ∃ s : @Sys P,
    Reachable (@Sys.Initial P) (@Sys.Step P) s ∧ s.main.procs = [] ∧
      Effect.route_add 0 allRoute 0 ∈ s.main.log ∧ ¬ @Main.RoutesBalanced P s.main := by
  have hplay : ((routedStart delCidrCmd).play
      [login 0 1 "alice".toList "1".toList, connect 5 [49], routedCookie, hangup 0]).any
        (fun s => s.main.procs = [] ∧ .route_add 0 allRoute 0 ∈ s.main.log ∧
          debits (0, allRoute) s.main.ledger ≠ credits (0, allRoute) s.main.ledger) := by
    decide +kernel
  obtain ⟨s, hreach, hnil, hadd, hne⟩ := Sys.exists_of_play (routedStart_initial _) hplay
  exact ⟨Platform.simple, s, hreach, hnil, hadd,
    fun hbalanced => hne (hbalanced.gone 0 (by simp [hnil]) allRoute)⟩

private def routedKnown : Sys := (routedStart delCmd).after (login 0 1 "alice".toList "1".toList)

private def routedAttached : Sys := routedKnown.after (connect 5 [49])

private def routedServed : Sys := routedAttached.after routedCookie

private def routedEnded : Sys := routedServed.after (hangup 0)

/-- What the delete command is filled in with does not depend on the device. -/
private theorem filled_delCmd (dev : CStr) : (replace_cmd delCmd allRoute dev).isSome := rfl

private theorem revocable_of_commands {t : Transition Sys (Sys.Event × Sys.Env)}
    (hcommands : t.pre.main.config.route_add_cmd.isSome ∧
      t.pre.main.config.route_del_cmd = some delCmd)
    (hgiven : ∀ w gc, (t.label.2 w).sec.sup_config = some gc → gc.iroutes ⊆ [allRoute]) :
    Sys.Revocable t := by
  obtain ⟨hadd, hdel⟩ := hcommands
  refine ⟨by rw [hadd, hdel]; rfl, ?_⟩
  rintro w - iroutes ⟨entry, gc, hgc, rfl⟩ route hroute pattern hpattern dev
  have hmem : route ∈ [allRoute] := by
    rw [SecMod.sup_config] at hgc
    split at hgc
    · exact hgiven w gc hgc hroute
    · cases hgc
      exact nomatch hroute
  obtain rfl := some.inj (hdel.symm.trans hpattern)
  rw [mem_singleton.1 hmem]
  exact filled_delCmd dev

/-- The commands of the sample configuration: the route is added when the worker has logged in,
and deleted when it is gone. -/
theorem iroutes_balanced_session : ∃ P : Platform, ∃ s : @Sys P, @Main.RoutesBalanced P s.main ∧
    s.main.procs = [] ∧ Effect.route_del 0 allRoute ∈ s.main.log := by
  have hrun : Run Sys.Initial Sys.Step
      [⟨routedServed, hangup 0, routedEnded⟩, ⟨routedAttached, routedCookie, routedServed⟩,
        ⟨routedKnown, connect 5 [49], routedAttached⟩,
        ⟨routedStart delCmd, login 0 1 "alice".toList "1".toList, routedKnown⟩] routedEnded :=
    .snoc (.snoc (.snoc (.snoc (.start (routedStart_initial _))
      (Sys.step_after (by decide +kernel))) (Sys.step_after (by decide +kernel)))
      (Sys.step_after (by decide +kernel))) (Sys.step_after (by decide +kernel))
  refine ⟨Platform.simple, routedEnded, iroutes_balanced hrun ?_, by decide +kernel,
    by decide +kernel⟩
  intro t ht
  simp only [mem_cons, not_mem_nil, or_false] at ht
  rcases ht with rfl | rfl | rfl | rfl
  · exact revocable_of_commands (by decide +kernel) fun _ gc hgc => nomatch hgc
  · refine revocable_of_commands (by decide +kernel) fun _ gc hgc => ?_
    cases hgc
    exact List.Subset.refl _
  · exact revocable_of_commands (by decide +kernel) fun _ gc hgc => nomatch hgc
  · exact revocable_of_commands (by decide +kernel) fun _ gc hgc => nomatch hgc

end Example

end Ocserv

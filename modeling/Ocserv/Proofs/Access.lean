import Ocserv.Proofs.Connect

/-!
# The data of a session that a worker has not opened

The virtual host and the configuration of a worker are set when sec-mod has opened its
session.  Each message of a worker is handled without them until then, with one
exception: `CMD_TUN_MTU` reads the virtual host before it looks at the status.
-/

namespace Ocserv

open Outcome Runs

/-- The fault is the use of a field that is not set. -/
def Fault.unset : Fault → Bool
  | .null_vhost | .null_config => true
  | .no_instance | .exit => false

section Access

variable [Platform]

variable {env : MainEnv} {s : Sys} {p : Proc} {f : Fault}

/-- The only message that can use a field too early. -/
theorem handle_worker_commands_fault {msg : WorkerMsg} (hfilled : p.profile.Filled)
    (h : s.handle_worker_commands env p msg = .error f) :
    (∃ mtu, msg = .tun_mtu mtu) ∧ p.vhost = none := by
  rcases (Sys.handle_worker_commands_post msg).error h with hmtu | ⟨hname, hnone⟩
  · exact hmtu
  · have hsome : p.config.isSome := hfilled.hostname hname
    simp [hnone] at hsome

/-- The removal of a worker only uses what is there. -/
theorem remove_proc_fault {kill : Bool} (hok : (s.main.course p.id).Ok)
    (hprofile : (s.main.course p.id).profile = some p.profile) (hf : f.unset) :
    s.remove_proc env p { kill } ≠ .error f := by
  intro h
  have hfilled := hok.filled _ hprofile
  rw [Sys.remove_proc, bind_eq_error] at h
  rcases h with hsession | ⟨⟨s₁, p₁⟩, hsession, h⟩
  · rcases Sys.end_session_post.error hsession with rfl | rfl | ⟨hactive, hnone⟩
    · exact absurd hf (by decide)
    · exact absurd hf (by decide)
    · have hvhost : p.vhost.isSome := hfilled.active hactive
      simp [hnone] at hvhost
  · obtain ⟨hmain, hended⟩ := Sys.end_session_post.ok hsession
    dsimp only at hmain hended
    have hsignal : s.main.Emits Effect.Plain s₁.main := hmain ▸ (s.signal_emits p { kill }).1
    have hfinish : s₁.main.finish_scripts env p₁ = .error f := by
      simp only [Main.release, bind_eq_error] at h
      rcases h with (hfinish | ⟨_, -, hpure⟩) | ⟨_, -, hpure⟩
      · exact hfinish
      · exact absurd hpure pure_ne_error
      · exact absurd hpure pure_ne_error
    -- a script is run for a worker that is completed or still waits for one
    obtain ⟨hnone, hruns⟩ := Main.finish_scripts_post.error hfinish
    rw [hsignal.script_list, hended.eq] at hruns
    rw [hended.eq] at hnone
    have hsome : p.config.isSome := by
      rcases hruns with hcompleted | ⟨stmp, hstmp, hproc⟩
      · exact hfilled.completed hcompleted
      · have hwaits : stmp ∈ (s.main.course p.id).scripts :=
          List.mem_filter.2 ⟨hstmp, by simpa using hproc⟩
        rcases hok.waiting with hnil | ⟨_, g, -, -, hg, -, -, hconfig⟩
        · simp [hnil] at hwaits
        · obtain rfl := Option.some.inj (hg.symm.trans hprofile)
          exact hconfig
    have hnone : p.config = none := hnone
    simp [hnone] at hsome

/-- Main uses a field of a worker that is not set just when the worker asks for an MTU
before its session is open. -/
theorem unset_field_unused_iff (s : Sys) (hreach : Reachable Sys.Initial Sys.Step s) (w : Nat)
    (p : Proc) (hfind : s.main.find_proc w = some p) (env : Sys.Env) (msg : WorkerMsg) :
    (∀ f, s.exec env (.worker w msg) = some (.error f) → f.unset = false) ↔
      ((∃ mtu, msg = .tun_mtu mtu) → p.vhost.isSome) := by
  obtain ⟨hwf, -, htr⟩ := Sys.tracked_of_reachable hreach
  obtain ⟨-, rfl⟩ := Main.find_proc_eq_some hfind
  have hok := htr.ok p.id
  have hprofile := Main.course_profile hfind
  have hexec : s.exec env (.worker p.id msg) = some (s.cmd_watcher_cb (env p.id) p msg) := by
    simp only [Sys.exec, hfind, Option.map_some]
  rw [hexec]
  constructor
  · rintro hsafe ⟨mtu, rfl⟩
    by_contra hunset
    have hnone : p.vhost = none := by simpa using hunset
    have hfault : s.cmd_watcher_cb (env p.id) p (.tun_mtu mtu) = .error .null_vhost := by
      simp only [Sys.cmd_watcher_cb, Sys.handle_worker_commands, hnone, deref]
      rfl
    exact absurd (hsafe .null_vhost (congrArg some hfault)) (by decide)
  · intro hset f herror
    by_contra hunset
    have hf : f.unset = true := by simpa using hunset
    have hrun := Option.some.inj herror
    rw [Sys.cmd_watcher_cb, bind_eq_error] at hrun
    rcases hrun with hcmd | ⟨⟨s₁, p₁, ret⟩, hcmd, hrun⟩
    · obtain ⟨hmtu, hnone⟩ := handle_worker_commands_fault (hok.filled _ hprofile) hcmd
      have hsome := hset hmtu
      simp [hnone] at hsome
    · obtain ⟨hid, t, hsteady, hturn⟩ :=
        ((Sys.handle_worker_commands_post msg).ok hcmd).turned hwf.pid hfind hok
      have hput : (s₁.put p₁).main.course p₁.id = ⟨t, some p₁.profile⟩ :=
        hid ▸ hsteady.written hid hfind
      simp only at hrun
      split at hrun
      · exact remove_proc_fault (hput ▸ hok.turn hprofile hturn) (by rw [hput]) hf hrun
      · simp at hrun

end Access

/-! ## Two messages -/

section Example

open Sample

local instance accessPlatform : Platform := Platform.simple

private def accepted : Sys := single.after (connect 5 [49])

private theorem accepted_reachable : Reachable Sys.Initial Sys.Step accepted :=
  ⟨_, .snoc (.start (start_initial {} rfl)) (Sys.step_after (by decide +kernel))⟩

private def faults (f : Fault) : Except Fault Sys → Bool
  | .error f' => f' = f
  | .ok _ => false

private theorem eq_error_of_faults {f : Fault} {r : Except Fault Sys} (h : faults f r) :
    r = .error f := by
  cases r with
  | error f' => rw [of_decide_eq_true h]
  | ok s => cases h

/-- A worker that has not presented a cookie reports on its connection. -/
theorem unset_field_unused_session_info : ∃ P : Platform, ∃ s : @Sys P,
    ∀ f, @Sys.exec P (fun _ => env) s (.worker 0 (.session_info none)) = some (.error f) →
      f.unset = false := by
  obtain ⟨p, hp⟩ : ∃ p, accepted.main.find_proc 0 = some p :=
    Option.isSome_iff_exists.1 (by decide +kernel)
  refine ⟨Platform.simple, accepted, ?_⟩
  exact (unset_field_unused_iff accepted accepted_reachable 0 p hp (fun _ => env)
    (.session_info none)).2 (fun ⟨_, hmtu⟩ => nomatch hmtu)

/-- A worker that has not presented a cookie asks for an MTU, and main faults. -/
theorem unset_field_used_by_tun_mtu : ∃ P : Platform, ∃ s : @Sys P,
    Reachable (@Sys.Initial P) (@Sys.Step P) s ∧
      @Sys.exec P (fun _ => env) s (.worker 0 (.tun_mtu (some 1400))) =
        some (.error .null_vhost) := by
  refine ⟨Platform.simple, accepted, accepted_reachable, ?_⟩
  have hfault : (Sys.exec (fun _ => env) accepted (.worker 0 (.tun_mtu (some 1400)))).any
      (faults .null_vhost) = true := by
    decide +kernel
  obtain ⟨r, hr, hfault⟩ := (Option.any_eq_true _ _).1 hfault
  rw [hr, eq_error_of_faults hfault]

end Example
end Ocserv

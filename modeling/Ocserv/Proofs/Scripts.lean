import Ocserv.Proofs.Access

/-!
# Connect and disconnect scripts come in pairs

A worker whose connect phase has succeeded should have its disconnect script run once,
when it is removed, and no other worker should.  Main tells the two apart by the status
of the worker and by its script, if that is still running.  The status is not enough when
the reply or the routes fail after the phase has succeeded, and the exit status of a
script that is killed does not say how it ended.  Without such disturbances the scripts
are paired in every run.
-/

namespace Ocserv

open List Option Outcome Runs

section Scripts

variable [Platform]

/-! ## What is demanded -/

/-- `user_disconnected` has run once for the workers that are gone and were connected, and
for no other. -/
structure Main.Paired (m : Main) : Prop where
  gone : ∀ id, (∀ p ∈ m.procs, p.id ≠ id) →
    m.log.count (.user_disconnected id) = if .connected id ∈ m.log then 1 else 0
  live : ∀ p ∈ m.procs, .user_disconnected p.id ∉ m.log

/-- When the connect phase may start, the reply is sent and the routes are added.  A
script that is killed with its worker counts as successful just when it exited normally
with status zero. -/
structure Sys.Undisturbed (t : Transition Sys (Sys.Event × Sys.Env)) : Prop where
  delivered : ∀ w, t.label.1.about = some w → t.label.1.connects →
    (t.label.2 w).Delivers
  waited : ∀ w, t.label.1.about = some w → t.label.1.exits = false →
    (∃ stmp ∈ t.pre.main.script_list, stmp.proc = w) →
    (t.label.2 w).script_status.WEXITSTATUS = 0 →
    (t.label.2 w).waitpid_ok = (t.label.2 w).script_status.WIFEXITED

/-! ## The pairs of one worker -/

/-- While a worker is there its connect phase has run just when its status says so; when it is
gone the two phases are paired. -/
structure Course.Paired (c : Course) : Prop where
  live : ∀ f, c.profile = some f → c.ended = 0 ∧ (0 < c.started ↔ f.status = .completed)
  gone : c.profile = none → c.ended = if 0 < c.started then 1 else 0

section Paired

variable {env : MainEnv} {cfg : Cfg} {ev : Sys.Event} {c c₁ c' : Course} {f : Proc.Profile}
  {ret : Int}

omit [Platform] in
/-- The connect phase has not started yet. -/
theorem Course.Paired.unstarted {g : Proc.Profile} {scripts : List ScriptWait} (h : c.Paired)
    (hf : c.profile = some f) (hst : f.status ≠ .completed) :
    Course.Paired { c with profile := some { g with status := .failed }, scripts } := by
  obtain ⟨hended, hiff⟩ := h.live f hf
  refine ⟨fun g' hg' => ⟨hended, ?_⟩, nofun⟩
  rw [← some.inj hg']
  simpa using mt hiff.1 hst

omit [Platform] in
theorem Course.Paired.turn (h : c.Paired) (hf : c.profile = some f)
    (hdelivers : ev.connects → env.Delivers) (hturn : Turn env cfg ev c f c₁ ret) :
    c₁.Paired := by
  cases hturn with
  | plain => exact h
  | refused _ hst | waiting hst => exact h.unstarted hf (by simp [hst])
  | connected hconn _ _ _ _ _ hend =>
    obtain ⟨hst, -⟩ | ⟨-, -, hnot⟩ := hend
    · refine ⟨fun g hg => ⟨(h.live f hf).1, ?_⟩, nofun⟩
      rw [← some.inj hg]
      simp [hst]
    · exact absurd (hdelivers hconn) hnot
  | exited => exact ⟨h.live, h.gone⟩

omit [Platform] in
/-- The removal completes the pair. -/
theorem Course.Paired.ended (h : c.Paired) (hok : c.Ok) (hf : c.profile = some f)
    (hwait : c.scripts ≠ [] → env.script_status.WEXITSTATUS = 0 →
      env.waitpid_ok = env.script_status.WIFEXITED) (hend : Ended env cfg c f c') :
    c'.Paired := by
  obtain ⟨hzero, hiff⟩ := h.live f hf
  refine ⟨by simp [hend.profile], fun _ => ?_⟩
  rw [hend.started, hend.ended, hzero, Nat.zero_add]
  rcases hok.waiting with hnil | ⟨stmp, g, hone, hpid, hg, hfailed, -⟩
  · have hclosing : env.closing f.status c.scripts.head? = (false, decide (0 < c.started)) := by
      simp only [hnil, hiff]
      rfl
    rw [hclosing]
    exact Bool.cond_decide ..
  · obtain rfl := some.inj (hf.symm.trans hg)
    have hunstarted : c.started = 0 := by simpa [hfailed] using hiff
    have hsame : (env.waitpid_ok && env.script_status.WEXITSTATUS == 0) =
        env.script_status.succeeded := by
      unfold WaitStatus.succeeded
      by_cases hexit : env.script_status.WEXITSTATUS = 0
      · rw [hwait (by simp [hone]) hexit]
      · rw [beq_false_of_ne hexit, Bool.and_false, Bool.and_false]
    rw [hone, MainEnv.closing, if_pos (by simpa using hpid), hsame, hunstarted]
    cases env.script_status.succeeded <;> rfl

omit [Platform] in
/-- A worker that is removed while its script runs had that script before the event. -/
theorem Course.Turn.still_waiting (hturn : Turn env cfg ev c f c₁ ret) (hneg : ret < 0)
    (hne : c₁.scripts ≠ []) : ev.exits = false ∧ c.scripts ≠ [] := by
  cases hturn with
  | plain hexits | refused hexits => exact ⟨hexits, hne⟩
  | waiting => exact absurd hneg (by decide)
  | connected | exited => exact absurd rfl hne

end Paired

theorem Main.paired_of_courses {m : Main} (h : ∀ id, (m.course id).Paired) : m.Paired := by
  have hcount : ∀ e : Effect, e.isPhase → m.phases.count e = m.log.count e :=
    fun e he => count_filter he
  constructor
  · intro id hid
    have hnone : m.find_proc id = none := List.find?_eq_none.2 fun p hp => by simpa using hid p hp
    have hgone : m.phases.count _ = if 0 < m.phases.count _ then 1 else 0 :=
      (h id).gone (by rw [Main.course, hnone]; rfl)
    rw [hcount _ rfl, hcount _ rfl] at hgone
    rw [hgone]
    exact if_congr count_pos_iff rfl rfl
  · intro p hp hlog
    have hsome : (m.find_proc p.id).isSome := List.find?_isSome.2 ⟨p, hp, by simp⟩
    obtain ⟨q, hq⟩ := isSome_iff_exists.1 hsome
    have hzero : m.phases.count _ = 0 := ((h p.id).live _ (Main.course_profile hq)).1
    rw [hcount _ rfl] at hzero
    exact count_eq_zero.1 hzero hlog

/-- In every undisturbed run the connect and disconnect scripts are paired. -/
theorem scripts_paired {trace : List (Transition Sys (Sys.Event × Sys.Env))} {s : Sys}
    (hrun : Run Sys.Initial Sys.Step trace s) (hcond : ∀ t ∈ trace, Sys.Undisturbed t) :
    s.main.Paired := by
  refine Main.paired_of_courses
    (Sys.courses_of_run (P := fun _ _ c => c.Paired) hrun hcond ?_ ?_ ?_ ?_)
  · exact fun _ _ => ⟨by simp, fun _ => rfl⟩
  · intro _ id
    refine ⟨fun f hf => ⟨rfl, ?_⟩, by simp⟩
    rw [← some.inj hf]
    simp [Proc.Profile.fresh]
  · intro s l s' w f c₁ ret hC habout _ hf _ h hturn
    exact h.turn hf (hC.delivered w habout) hturn
  · intro s l s' w f f₁ c₁ c' ret hC habout hturn hneg hok h hf₁ _ hend
    refine h.ended hok hf₁ (fun hne hexit => ?_) hend
    obtain ⟨hexits, hscripts⟩ := hturn.still_waiting hneg hne
    obtain ⟨stmp, hstmp⟩ := exists_mem_of_ne_nil _ hscripts
    obtain ⟨hmem, hproc⟩ := mem_filter.1 hstmp
    exact hC.waited w habout hexits ⟨stmp, hmem, by simpa using hproc⟩ hexit

end Scripts

/-! ## Two sessions -/

section Example

open Sample

local instance scriptsPlatform : Platform := Platform.simple

private def ended : Sys := working.after (hangup 0)

/-- A session is opened and its worker terminates: both scripts have run. -/
theorem scripts_paired_session : ∃ P : Platform, ∃ s : @Sys P,
    @Main.Paired P s.main ∧ s.main.procs = [] ∧ Effect.user_disconnected 0 ∈ s.main.log := by
  have hrun : Run Sys.Initial Sys.Step (⟨working, hangup 0, ended⟩ :: _) ended :=
    run_working.snoc (Sys.step_after (by decide +kernel))
  refine ⟨Platform.simple, ended, scripts_paired hrun ?_, by decide +kernel, by decide +kernel⟩
  -- every event of the run has the environment in which everything succeeds
  have hdelivers : env.Delivers := ⟨by decide, fun _ => Int.le_refl 0⟩
  intro t ht
  simp only [mem_cons, not_mem_nil, or_false] at ht
  rcases ht with rfl | rfl | rfl | rfl <;>
    exact ⟨fun _ _ _ => hdelivers, fun _ _ _ _ _ => rfl⟩

/-- The reply to the cookie cannot be sent: the connect script has run, and the disconnect
script never will. -/
theorem connected_never_disconnected : ∃ P : Platform, ∃ s : @Sys P,
    Reachable (@Sys.Initial P) (@Sys.Step P) s ∧ s.main.procs = [] ∧
      Effect.connected 0 ∈ s.main.log ∧ ¬ @Main.Paired P s.main := by
  have hplay : ((start {} [0]).play
      [login 0 1 "alice".toList "1".toList, connect 5 [49],
        ((cookie 0 (sid 0 1)).1, fun _ => { env with send_msg_to_worker := -1 })]).any
        (fun s => s.main.procs = [] ∧ .connected 0 ∈ s.main.log ∧
          .user_disconnected 0 ∉ s.main.log) := by
    decide +kernel
  obtain ⟨s, hreach, hnil, hmem, hnot⟩ := Sys.exists_of_play (start_initial {} rfl) hplay
  refine ⟨Platform.simple, s, hreach, hnil, hmem, fun hpaired => ?_⟩
  have hcount := hpaired.gone 0 (by simp [hnil])
  rw [if_pos hmem, count_eq_zero.2 hnot] at hcount
  cases hcount

end Example
end Ocserv

import Ocserv.Proofs.System
import Ocserv.SecMod.Steps

/-!
# The worker processes behind the entries

An entry carries the pid of the worker that started its authentication or last reported
on it, and sec-mod finds it by that pid when a worker starts another authentication.  The
pid is cleared when the last worker leaves the session, so that a new worker with the same
pid does not meet the entry of an old one.

Workers are numbered here, and `pid` gives the pid of each of them: two workers may have
the same pid at different times.  A worker that dies before its session was opened leaves
its pid behind, since nobody closes a session that was never opened.  `pids_unique` is
about the runs without such a death, in which workers report on their own sessions.
-/

namespace Ocserv.SecMod

open List Option Runs

section Pids

variable [Platform]

/-! ## Stamps -/

/-- The pid that the sender of the command has. -/
def Cmd.pid : Cmd → Option Nat
  | .auth_init _ pid => some pid
  | .cli_stats _ pid => some pid
  | _ => none

/-- The identifier whose entry gets the pid of the sender. -/
def stamps (env : SecEnv) (sec : SecMod) : Cmd → Option Sid
  | .auth_init req pid => issued env sec req pid
  | .cli_stats req _ =>
    (((Sid.ofBytes? req.sid).bind sec.client_db.find).filter
      (·.status = .completed)).map ClientEntry.sid
  | _ => none

variable {env : SecEnv} {sec : SecMod} {c : Cmd} {sid : Sid} {e e' : ClientEntry}

theorem stamps_cli_stats {req : CliStatsMsg} {pid : Nat} :
    stamps env sec (.cli_stats req pid) = some sid ↔
      req.sid = sid.1 ∧ ∃ e, sec.client_db.find sid = some e ∧ e.status = .completed := by
  simp only [stamps, map_eq_some_iff, filter_eq_some_iff, bind_eq_some_iff,
    decide_eq_true_eq]
  constructor
  · rintro ⟨e, ⟨⟨sid', hbytes, hfind⟩, hst⟩, rfl⟩
    obtain rfl := ClientDb.find_sid hfind
    exact ⟨Sid.ofBytes?_eq_some.1 hbytes, e, hfind, hst⟩
  · rintro ⟨hreq, e, hfind, hst⟩
    exact ⟨e, ⟨⟨sid, Sid.ofBytes?_eq_some.2 hreq, hfind⟩, hst⟩, ClientDb.find_sid hfind⟩

theorem pid_of_stamps (h : stamps env sec c = some sid) : ∃ p, c.pid = some p := by
  cases c with
  | auth_init _ p | cli_stats _ p => exact ⟨p, rfl⟩
  | _ => cases h

/-- When an identifier is issued, its entry has been created and those of the others are as the
entry attached to the pid was dealt with. -/
theorem auth_init_issued {req : SecAuthInitMsg} {pid : Nat}
    (h : issued env sec req pid = some sid) :
    ∃ e, Created env sec req pid e ∧ (sec.detach_old pid).2 ∧
      (handle_sec_auth_init env sec req pid).1.client_db.find sid = some e ∧
      ∀ sid', sid' ≠ sid → (handle_sec_auth_init env sec req pid).1.client_db.find sid' =
        (sec.detach_old pid).1.client_db.find sid' := by
  have hrun := auth_init_run env sec req pid
  generalize (handle_sec_auth_init env sec req pid).1 = sec' at hrun ⊢
  cases hrun with
  | refused hnone => cases h.symm.trans hnone
  | detached hnone => cases h.symm.trans hnone
  | @started e _ hcreated _ hgone _ hreplaced =>
    obtain rfl := some.inj (h.symm.trans hcreated.issued)
    refine ⟨e, hcreated, hgone, ?_, fun sid' hne => ?_⟩
    · rw [hreplaced.updates, if_pos rfl]
    · rw [hreplaced.updates, if_neg hne]

/-- The entry that is stamped carries the pid of the sender. -/
theorem exec_stamped (h : stamps env sec c = some sid)
    (hpost : (exec env sec c).1.client_db.find sid = some e') : c.pid = some e'.acct_info.id := by
  cases c with
  | auth_init req pid =>
    obtain ⟨e₁, hcreated, -, hfind, -⟩ := auth_init_issued h
    obtain rfl := some.inj (hfind.symm.trans hpost)
    exact congrArg some hcreated.id.symm
  | cli_stats req pid =>
    obtain ⟨hreq, e, hpre, hst⟩ := stamps_cli_stats.1 h
    obtain ⟨calls, hstep, -⟩ := exec_entryStep env sec (.cli_stats req pid) sid
    rw [← ClientDb.find_sid hpre] at hreq
    rw [hpre, hpost] at hstep
    cases hstep with
    | idle hno => exact absurd ⟨congrArg some hreq, hst⟩ (hno _ rfl)
    | reported => rfl
  | _ => cases h

/-- Any other entry keeps its pid, and its users if it has any, or loses its pid. -/
theorem exec_unstamped (h : stamps env sec c ≠ some sid)
    (hpost : (exec env sec c).1.client_db.find sid = some e') :
    ∃ e, sec.client_db.find sid = some e ∧ (e'.acct_info.id = 0 ∨
      e'.acct_info.id = e.acct_info.id ∧ (0 < e.in_use → 0 < e'.in_use)) := by
  obtain ⟨calls, hstep, -⟩ := exec_entryStep env sec c sid
  have hsid := ClientDb.find_sid hpost
  rw [hpost] at hstep
  generalize hpre : sec.client_db.find sid = o at hstep
  cases hstep with
  | idle => exact ⟨e', rfl, .inr ⟨rfl, fun huse => huse⟩⟩
  | init hcreated => exact absurd (hcreated.issued.trans (congrArg some hsid)) h
  | cont_failed hprogress =>
    obtain ⟨_, _, _, _, _, rfl⟩ := hprogress
    exact ⟨_, rfl, .inr ⟨rfl, fun huse => huse⟩⟩
  | cont_step _ _ hout =>
    obtain ⟨_, _, _, _, _, rfl⟩ := hout.progress
    exact ⟨_, rfl, .inr ⟨rfl, fun huse => huse⟩⟩
  | banned => exact ⟨_, rfl, .inr ⟨rfl, fun huse => huse⟩⟩
  | reported hreq hst =>
    have hsid' := ClientDb.find_sid hpre
    exact absurd (stamps_cli_stats.2 ⟨hsid' ▸ hreq, _, hpre, hst⟩) h
  | opening _ _ hwrite =>
    cases hwrite with
    | expired | denied | deferred => exact ⟨_, rfl, .inr ⟨rfl, fun huse => huse⟩⟩
    | opened => exact ⟨_, rfl, .inr ⟨rfl, fun _ => Nat.succ_pos _⟩⟩
  | @closing _ e _ _ _ _ _ hwrite =>
    refine ⟨e, rfl, ?_⟩
    cases hwrite with
    | unanswered => exact .inr ⟨rfl, fun huse => huse⟩
    | left hid =>
      by_cases hlast : e.in_use - 1 = 0
      · exact .inl (hid.trans (if_pos hlast))
      · exact .inr ⟨hid.trans (if_neg hlast), fun _ => Nat.pos_of_ne_zero hlast⟩

/-! ## Workers that come and go -/

/-- An instance and the workers of the server. -/
structure Census where
  sec : SecMod
  started : List Nat := []
  alive : List Nat := []
  /-- the workers that have sent a message with their pid -/
  spoken : List Nat := []
  /-- the worker whose pid an entry was last given -/
  stamped : Sid → Nat := fun _ => 0

inductive CensusEvent
  | start (w : Nat)
  | exit (w : Nat)
  | worker (w : Nat) (env : SecEnv) (c : Cmd)
  | server (env : SecEnv) (c : Cmd)

def Census.after (m : Census) : CensusEvent → Census
  | .start w => { m with started := w :: m.started, alive := w :: m.alive }
  | .exit w => { m with alive := m.alive.filter (· ≠ w) }
  | .worker w env c =>
    { m with
      sec := (exec env m.sec c).1
      spoken := if c.pid.isSome then w :: m.spoken else m.spoken
      stamped := (stamps env m.sec c).elim m.stamped fun sid => Function.update m.stamped sid w }
  | .server env c => { m with sec := (exec env m.sec c).1 }

section Workers

variable (pid : Nat → Nat)

/-- What the system allows: a worker has a pid that no other process has, and the kernel
reports it with its messages. -/
def Census.Allows (m : Census) : CensusEvent → Prop
  | .start w => w ∉ m.started ∧ pid w ≠ 0 ∧ ∀ v ∈ m.alive, pid v ≠ pid w
  | .exit w => w ∈ m.alive
  | .worker w _ c => w ∈ m.alive ∧ ∀ p, c.pid = some p → p = pid w
  | .server _ c => c.pid = none

def CensusStep (m : Census) (ev : CensusEvent) (m' : Census) : Prop :=
  m.Allows pid ev ∧ m' = m.after ev

def CensusInitial (m : Census) : Prop :=
  m.sec.client_db = .empty ∧ m.started = [] ∧ m.alive = [] ∧ m.spoken = []

/-- At most one entry for a pid; its worker is alive or its session has users; and the
start of an authentication by a new worker meets no entry. -/
structure Census.OnePerWorker (m : Census) : Prop where
  unique : ∀ e₁ e₂, m.sec.client_db.find e₁.sid = some e₁ → m.sec.client_db.find e₂.sid = some e₂ →
    e₁.acct_info.id = e₂.acct_info.id → e₁.acct_info.id ≠ 0 → e₁ = e₂
  held : ∀ e, m.sec.client_db.find e.sid = some e → e.acct_info.id ≠ 0 →
    e.acct_info.id = pid (m.stamped e.sid) ∧ (m.stamped e.sid ∈ m.alive ∨ 0 < e.in_use)
  fresh : ∀ w ∈ m.alive, w ∉ m.spoken → m.sec.detach_old (pid w) = (m.sec, true)

/-- A worker is not started with the pid of a session that has users; the entries of a
worker that exits have users; and a worker reports on a session only if no other entry has
its pid. -/
def Attended (t : Transition Census CensusEvent) : Prop :=
  match t.label with
  | .start w => ∀ sid e, t.pre.sec.client_db.find sid = some e → 0 < e.in_use →
      e.acct_info.id ≠ pid w
  | .exit w => ∀ sid e, t.pre.sec.client_db.find sid = some e → e.acct_info.id = pid w →
      0 < e.in_use
  | .worker w _ (.cli_stats req _) => ∀ sid e, t.pre.sec.client_db.find sid = some e →
      req.sid ≠ sid.1 → e.acct_info.id ≠ pid w
  | _ => True

/-- The invariant of a run. -/
structure Census.Consistent (m : Census) : Prop where
  alive : ∀ w ∈ m.alive, pid w ≠ 0
  distinct : ∀ w ∈ m.alive, ∀ v ∈ m.alive, pid v = pid w → v = w
  unique : ∀ s₁ s₂ e₁ e₂, m.sec.client_db.find s₁ = some e₁ → m.sec.client_db.find s₂ = some e₂ →
    e₁.acct_info.id = e₂.acct_info.id → e₁.acct_info.id ≠ 0 → s₁ = s₂
  held : ∀ sid e, m.sec.client_db.find sid = some e → e.acct_info.id ≠ 0 →
    e.acct_info.id = pid (m.stamped sid) ∧ (m.stamped sid ∈ m.alive ∨ 0 < e.in_use)
  fresh : ∀ w ∈ m.alive, w ∉ m.spoken → ∀ sid e, m.sec.client_db.find sid = some e →
    e.acct_info.id ≠ pid w

variable {pid}

variable {p w : Nat} {m : Census} {sid₀ : Sid}

theorem detach_old_of_absent (h : ∀ sid e, sec.client_db.find sid = some e → e.acct_info.id ≠ p) :
    sec.detach_old p = (sec, true) := by
  unfold detach_old
  split
  · rfl
  · next old hold =>
    obtain ⟨hfind, hpid, -⟩ := find_by_pid_some hold
    exact absurd hpid (h old.sid old hfind)

theorem Census.Consistent.onePerWorker (h : m.Consistent pid) :
    m.OnePerWorker pid where
  unique e₁ e₂ h₁ h₂ heq hne := by
    have hsid := h.unique _ _ e₁ e₂ h₁ h₂ heq hne
    rw [← hsid, h₁] at h₂
    exact some.inj h₂
  held e hfind hne := h.held e.sid e hfind hne
  fresh w hw hsilent := detach_old_of_absent (h.fresh w hw hsilent)

/-! ## The steps -/

theorem Census.Consistent.start (h : m.Consistent pid) (hallowed : m.Allows pid (.start w))
    (hfree : ∀ sid e, m.sec.client_db.find sid = some e → 0 < e.in_use → e.acct_info.id ≠ pid w) :
    (m.after (.start w)).Consistent pid := by
  obtain ⟨-, hpid, hother⟩ := hallowed
  exact {
    alive := forall_mem_cons.2 ⟨hpid, h.alive⟩
    distinct := fun v hv u hu heq => by
      rcases mem_cons.1 hv with hnew | hold <;> rcases mem_cons.1 hu with hnew' | hold'
      · rw [hnew, hnew']
      · exact absurd (hnew ▸ heq) (hother u hold')
      · exact absurd (hnew' ▸ heq.symm) (hother v hold)
      · exact h.distinct v hold u hold' heq
    unique := h.unique
    held := fun sid e hfind hne => by
      obtain ⟨hid, halive | huse⟩ := h.held sid e hfind hne
      · exact ⟨hid, .inl (mem_cons_of_mem w halive)⟩
      · exact ⟨hid, .inr huse⟩
    fresh := fun v hv hsilent sid e hfind => by
      rcases mem_cons.1 hv with rfl | hv
      · -- the entries with this pid have lost their worker, and their users with it
        intro hid
        obtain ⟨hstamp, halive | huse⟩ := h.held sid e hfind (hid ▸ hpid)
        · exact hother _ halive (hstamp.symm.trans hid)
        · exact hfree sid e hfind huse hid
      · exact h.fresh v hv hsilent sid e hfind }

theorem Census.Consistent.exit (h : m.Consistent pid)
    (hused : ∀ sid e, m.sec.client_db.find sid = some e → e.acct_info.id = pid w → 0 < e.in_use) :
    (m.after (.exit w)).Consistent pid where
  alive v hv := h.alive v (mem_of_mem_filter hv)
  distinct v hv u hu heq :=
    h.distinct v (mem_of_mem_filter hv) u (mem_of_mem_filter hu) heq
  unique := h.unique
  held sid e hfind hne := by
    obtain ⟨hid, halive | huse⟩ := h.held sid e hfind hne
    · refine ⟨hid, ?_⟩
      by_cases hw : m.stamped sid = w
      · exact .inr (hused sid e hfind (by rw [hid, hw]))
      · exact .inl (mem_filter.2 ⟨halive, decide_eq_true hw⟩)
    · exact ⟨hid, .inr huse⟩
  fresh v hv := h.fresh v (mem_of_mem_filter hv)

/-- After the entry of this pid has been dealt with, no entry has it. -/
theorem Census.Consistent.detached (h : m.Consistent pid) (hp : p ≠ 0)
    (hgone : (m.sec.detach_old p).2)
    (hfind : (m.sec.detach_old p).1.client_db.find sid = some e) : e.acct_info.id ≠ p := by
  intro hid
  unfold detach_old at hgone hfind
  split at hgone
  · next hnone =>
    -- the table has been searched for this pid
    simp only [hnone] at hfind
    rw [find_client_entry_by_pid, if_neg hp, List.find?_eq_none] at hnone
    exact hnone e (ClientDb.find_eq_some.1 hfind).1 (decide_eq_true hid)
  · next old hold =>
    obtain ⟨hfound, hpid, -⟩ := find_by_pid_some hold
    split at hgone
    · next hfailed =>
      simp only [hold, if_pos hfailed, del_client_entry, clean_entries_client_db,
        ClientDb.find_erase] at hfind
      split at hfind
      · cases hfind
      · next hne =>
        exact hne (h.unique _ _ e old hfind hfound (hid.trans hpid.symm) (hid ▸ hp))
    · cases hgone

/-- When a command of a worker stamps an entry, no other entry is left with its pid. -/
theorem Census.Consistent.others {m' : Census} (h : m.Consistent pid) (hw : w ∈ m.alive)
    (hpid : c.pid = some (pid w)) (hstamps : stamps env m.sec c = some sid₀)
    (hatt : Attended pid ⟨m, .worker w env c, m'⟩) (hne : sid ≠ sid₀)
    (hpost : (exec env m.sec c).1.client_db.find sid = some e) : e.acct_info.id ≠ pid w := by
  cases c with
  | auth_init req p =>
    cases hpid
    obtain ⟨e₁, -, hgone, -, hothers⟩ := auth_init_issued hstamps
    exact h.detached (h.alive w hw) hgone ((hothers sid hne).symm.trans hpost)
  | cli_stats req p =>
    have hno : stamps env m.sec (.cli_stats req p) ≠ some sid := fun heq =>
      hne (some.inj (heq.symm.trans hstamps))
    obtain ⟨e₀, hpre, hzero | ⟨hsame, -⟩⟩ := exec_unstamped hno hpost
    · rw [hzero]
      exact (h.alive w hw).symm
    · rw [hsame]
      refine hatt sid e₀ hpre fun hreq => hne (Subtype.ext ?_)
      exact hreq.symm.trans (stamps_cli_stats.1 hstamps).1
  | _ => cases hstamps

/-- The entry that a command stamps is that of its sender, a worker without other entries; the
other entries keep what they have. -/
theorem Census.Consistent.command (h : m.Consistent pid) {spoken : List Nat} {stamped : Sid → Nat}
    (hspoken : ∀ w ∈ m.spoken, w ∈ spoken)
    (hkept : ∀ sid, stamps env m.sec c ≠ some sid → stamped sid = m.stamped sid)
    (hown : ∀ sid, stamps env m.sec c = some sid → stamped sid ∈ m.alive ∧ stamped sid ∈ spoken ∧
      c.pid = some (pid (stamped sid)) ∧ ∀ {sid' e}, sid' ≠ sid →
        (exec env m.sec c).1.client_db.find sid' = some e → e.acct_info.id ≠ pid (stamped sid)) :
    Census.Consistent pid { m with sec := (exec env m.sec c).1, spoken, stamped } := by
  have hback : ∀ {sid e'}, stamps env m.sec c ≠ some sid →
      (exec env m.sec c).1.client_db.find sid = some e' → e'.acct_info.id ≠ 0 →
      ∃ e, m.sec.client_db.find sid = some e ∧ e'.acct_info.id = e.acct_info.id ∧
        (0 < e.in_use → 0 < e'.in_use) := by
    intro sid e' hno hpost hne
    obtain ⟨e, hpre, hzero | hsame⟩ := exec_unstamped hno hpost
    · exact absurd hzero hne
    · exact ⟨e, hpre, hsame⟩
  have hid : ∀ {sid e'}, stamps env m.sec c = some sid →
      (exec env m.sec c).1.client_db.find sid = some e' → e'.acct_info.id = pid (stamped sid) :=
    fun hs hpost => some.inj ((exec_stamped hs hpost).symm.trans (hown _ hs).2.2.1)
  exact {
    alive := h.alive
    distinct := h.distinct
    unique := fun s₁ s₂ e₁ e₂ h₁ h₂ heq hne => by
      by_contra hdiff
      by_cases hs₁ : stamps env m.sec c = some s₁
      · exact (hown s₁ hs₁).2.2.2 (Ne.symm hdiff) h₂ (heq.symm.trans (hid hs₁ h₁))
      · by_cases hs₂ : stamps env m.sec c = some s₂
        · exact (hown s₂ hs₂).2.2.2 hdiff h₁ (heq.trans (hid hs₂ h₂))
        · obtain ⟨d₁, hd₁, hid₁, -⟩ := hback hs₁ h₁ hne
          obtain ⟨d₂, hd₂, hid₂, -⟩ := hback hs₂ h₂ (heq ▸ hne)
          exact hdiff (h.unique s₁ s₂ d₁ d₂ hd₁ hd₂ (by rw [← hid₁, heq, hid₂]) (hid₁ ▸ hne))
    held := fun sid e' hpost hne => by
      by_cases hs : stamps env m.sec c = some sid
      · exact ⟨hid hs hpost, .inl (hown sid hs).1⟩
      · obtain ⟨e, hpre, hsame, huse⟩ := hback hs hpost hne
        obtain ⟨hstamp, hheld⟩ := h.held sid e hpre (hsame ▸ hne)
        dsimp only
        rw [hkept sid hs]
        exact ⟨hsame.trans hstamp, hheld.imp_right huse⟩
    fresh := fun v hv hsilent sid e' hpost heq => by
      by_cases hs : stamps env m.sec c = some sid
      · obtain ⟨halive, hsaid, -⟩ := hown sid hs
        exact hsilent (h.distinct v hv _ halive ((hid hs hpost).symm.trans heq) ▸ hsaid)
      · obtain ⟨e, hpre, hsame, -⟩ := hback hs hpost (heq ▸ h.alive v hv)
        exact h.fresh v hv (fun hsaid => hsilent (hspoken v hsaid)) sid e hpre
          (hsame.symm.trans heq) }

theorem Census.Consistent.step {m' : Census} {ev : CensusEvent} (h : m.Consistent pid)
    (hs : CensusStep pid m ev m') (hatt : Attended pid ⟨m, ev, m'⟩) : m'.Consistent pid := by
  obtain ⟨hallowed, rfl⟩ := hs
  cases ev with
  | start w => exact h.start hallowed hatt
  | exit w => exact h.exit hatt
  | worker w env c =>
    obtain ⟨hw, hpid⟩ := hallowed
    refine h.command (fun v hv => ?_) (fun sid hno => ?_) fun sid hstamps => ?_
    · split
      · exact mem_cons_of_mem w hv
      · exact hv
    · cases hstamps : stamps env m.sec c with
      | none => rfl
      | some sid₀ =>
        have hne : sid ≠ sid₀ := fun heq => hno (heq ▸ hstamps)
        exact Function.update_of_ne hne w m.stamped
    · obtain ⟨p, hp⟩ := pid_of_stamps hstamps
      obtain rfl := hpid p hp
      simp only [hstamps, hp, elim_some, Function.update_self, isSome_some, if_true]
      exact ⟨hw, List.mem_cons_self, trivial, h.others hw hp hstamps hatt⟩
  | server env c =>
    refine h.command (fun _ hv => hv) (fun _ _ => rfl) fun sid hstamps => ?_
    obtain ⟨p, hp⟩ := pid_of_stamps hstamps
    cases hallowed.symm.trans hp

theorem CensusInitial.consistent (h : CensusInitial m) : m.Consistent pid := by
  obtain ⟨hdb, -, halive, -⟩ := h
  have hnone : ∀ sid e, m.sec.client_db.find sid ≠ some e := by simp [hdb]
  constructor <;> simp_all

/-- When the workers that exit leave no entry without users behind, and report on their
own sessions only, there is at most one entry for a pid, its worker is alive or its
session in use, and a new worker with a used pid meets no entry. -/
theorem pids_unique {trace : List (Transition Census CensusEvent)} {m : Census}
    (hrun : Run CensusInitial (CensusStep pid) trace m) (hatt : ∀ t ∈ trace, Attended pid t) :
    m.OnePerWorker pid := by
  have hconsistent : m.Consistent pid :=
    hrun.invariant_of_forall (C := Attended pid) (fun _ hinit => hinit.consistent)
      (fun _ _ _ h hs hc => h.step hs hc) hatt
  exact hconsistent.onePerWorker

end Workers
end Pids

/-! ## A pid that comes back -/

section Example

local instance pidsPlatform : Platform := Platform.simple

private def census : List CensusEvent → Census
  | [] => { sec := Sample.secmod {} 0 }
  | ev :: evs => (census evs).after ev

/-- The worker authenticates a user. -/
private def authenticates (w : Nat) : CensusEvent :=
  .worker w (Sample.secEnv 0) (Sample.signIn "alice".toList "192.0.2.1".toList 7)

/-- Main opens and closes the session. -/
private def opens : CensusEvent :=
  .server (Sample.secEnv 0) (.session_open ⟨(Sample.sid 0 0).1, none, none⟩)

private def closes : CensusEvent :=
  .server (Sample.secEnv 0) (.session_close ⟨(Sample.sid 0 0).1, none, none, false⟩)

private theorem forall_entries {m : Census} {Q : ClientEntry → Prop}
    (h : ∀ e ∈ m.sec.client_db.toList, Q e) :
    ∀ sid e, m.sec.client_db.find sid = some e → Q e :=
  fun _ e hfind => h e (ClientDb.find_eq_some.1 hfind).1

private theorem census_started {C : Transition Census CensusEvent → Prop}
    (hc : C ⟨census [], .start 1, census [.start 1]⟩)
    (hc' : C ⟨census [.start 1], authenticates 1, census [authenticates 1, .start 1]⟩) :
    ReachableBy CensusInitial (CensusStep fun _ => 7) C (census [authenticates 1, .start 1]) := by
  have hstart : CensusStep (fun _ => 7) (census []) (.start 1) (census [.start 1]) :=
    ⟨⟨by decide, by decide, by decide⟩, rfl⟩
  have hauth : CensusStep (fun _ => 7) (census [.start 1]) (authenticates 1)
      (census [authenticates 1, .start 1]) :=
    ⟨⟨by decide, fun _ hp => (some.inj hp).symm⟩, rfl⟩
  exact ((ReachableBy.start ⟨rfl, rfl, rfl, rfl⟩).snoc hstart hc).snoc hauth hc'

/-- The first worker authenticates, its session is opened and closed, and the second
worker gets its pid. -/
theorem pids_unique_session : Census.OnePerWorker (fun _ => 7)
    (census [.start 2, closes, .exit 1, opens, authenticates 1, .start 1]) := by
  have hauth : ReachableBy CensusInitial (CensusStep fun _ => 7) (Attended fun _ => 7)
      (census [authenticates 1, .start 1]) :=
    census_started (forall_entries (Q := fun e => 0 < e.in_use → e.acct_info.id ≠ 7)
      (by decide +kernel)) trivial
  have hopen : CensusStep (fun _ => 7) (census [authenticates 1, .start 1]) opens
      (census [opens, authenticates 1, .start 1]) := ⟨rfl, rfl⟩
  have hexit : CensusStep (fun _ => 7) (census [opens, authenticates 1, .start 1]) (.exit 1)
      (census [.exit 1, opens, authenticates 1, .start 1]) := ⟨mem_singleton.2 rfl, rfl⟩
  have hclose : CensusStep (fun _ => 7) (census [.exit 1, opens, authenticates 1, .start 1])
      closes (census [closes, .exit 1, opens, authenticates 1, .start 1]) := ⟨rfl, rfl⟩
  have hagain : CensusStep (fun _ => 7) (census [closes, .exit 1, opens, authenticates 1, .start 1])
      (.start 2) (census [.start 2, closes, .exit 1, opens, authenticates 1, .start 1]) :=
    ⟨⟨by decide, by decide, by decide⟩, rfl⟩
  obtain ⟨trace, hrun, hatt⟩ := (((hauth.snoc hopen trivial).snoc hexit
    (forall_entries (Q := fun e => e.acct_info.id = 7 → 0 < e.in_use) (by decide +kernel))).snoc
    hclose trivial).snoc hagain
    (forall_entries (Q := fun e => 0 < e.in_use → e.acct_info.id ≠ 7) (by decide +kernel))
  exact pids_unique hrun hatt

/-- The first worker authenticates and is gone; the second one gets its pid, and is
refused. -/
theorem pid_of_dead_worker : ∃ (P : Platform) (pid : Nat → Nat)
    (trace : List (Transition (@Census P) CensusEvent)) (m : @Census P),
    Run (@CensusInitial P) (@CensusStep P pid) trace m ∧ ¬ @Census.OnePerWorker P pid m := by
  have hauth : ReachableBy CensusInitial (CensusStep fun _ => 7) (fun _ => True)
      (census [authenticates 1, .start 1]) := census_started trivial trivial
  have hexit : CensusStep (fun _ => 7) (census [authenticates 1, .start 1]) (.exit 1)
      (census [.exit 1, authenticates 1, .start 1]) := ⟨mem_singleton.2 rfl, rfl⟩
  have hagain : CensusStep (fun _ => 7) (census [.exit 1, authenticates 1, .start 1])
      (.start 2) (census [.start 2, .exit 1, authenticates 1, .start 1]) :=
    ⟨⟨by decide, by decide, by decide⟩, rfl⟩
  obtain ⟨trace, hrun, -⟩ := (hauth.snoc hexit trivial).snoc hagain trivial
  refine ⟨Platform.simple, fun _ => 7, trace, _, hrun, fun hone => ?_⟩
  have hfresh := congrArg Prod.snd (hone.fresh 2 (by decide) (by decide))
  have hrefused : ((census [.start 2, .exit 1, authenticates 1, .start 1]).sec.detach_old 7).2 =
      false := by decide +kernel
  exact absurd (hrefused.symm.trans hfresh) (by decide)

end Example

end Ocserv.SecMod

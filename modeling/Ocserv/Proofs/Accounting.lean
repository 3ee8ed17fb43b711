import Ocserv.Proofs.System
import Ocserv.SecMod.Account

/-!
# The calls of the accounting module

For every session the accounting module is told of its start, of its traffic from time
to time, and of its end.  `AcctWord` is the language of the calls for one session, and
`Accounted` ties its position in that language to the entry: while there is an entry the
end has not been told, and an entry is not freed without it.

Two things can go wrong.  A report makes an interim update as soon as the entry is
authenticated, whether a session has been opened or not; and an entry that is freed by an
administrator or by expiry passes `saved_stats` without the `stats` of the current
connection, which the interim updates had included.  The shutdown adds them.
`accounting_paired` is about the runs in which neither happens, and in which the totals fit into
their 64 bits.
-/

namespace Ocserv

/-- The accounting module of the entry is told of the start and of the end of its
session. -/
def ClientEntry.Accountable (e : ClientEntry) : Prop :=
  ∀ m, e.vhost.acct = some m → m.open_session ∧ m.close_session

/-- The module has been told that the session of `e` is open. -/
def ClientEntry.told (e : ClientEntry) : Bool :=
  e.vhost.acct.any (·.open_session) && e.session_is_open

namespace SecMod

open Runs

/-! ## The language of the calls -/

inductive AcctPhase
  | silent
  | denied
  | started
  | stopped
deriving DecidableEq, Repr

/-- The calls for one session, newest first, and where they have led.  The totals of the
end are at least those of every interim update. -/
inductive AcctWord (sid : Sid) : AcctPhase → List SecEffect → Prop
  | silent : AcctWord sid .silent []
  | denied {calls : List SecEffect} : AcctWord sid .silent calls →
      AcctWord sid .denied (.open_session sid false :: calls)
  | start {calls : List SecEffect} : AcctWord sid .silent calls →
      AcctWord sid .started (.open_session sid true :: calls)
  | interim {calls : List SecEffect} {totals : Stats} : AcctWord sid .started calls →
      AcctWord sid .started (.session_stats sid totals :: calls)
  | stop {calls : List SecEffect} {saved : Stats} {reason : Nat} : AcctWord sid .started calls →
      (∀ totals, .session_stats sid totals ∈ calls → totals ≤ saved) →
      AcctWord sid .stopped (.close_session sid saved reason :: calls)

section Accounting

variable [Platform]

/-- The end is told when the entry is freed, and then it has been told if the start was
successful. -/
def Accounted (sid : Sid) (sec : SecMod) : Prop :=
  ∃ phase, AcctWord sid phase (sec.calls sid) ∧
    match sec.client_db.find sid with
    | none => phase ≠ .started
    | some _ => phase ≠ .stopped

/-! ## Runs with a shutdown -/

inductive Op
  | cmd (env : SecEnv) (c : Cmd)
  | shutdown (now : Int)

def Op.apply (sec : SecMod) : Op → SecMod
  | .cmd env c => (exec env sec c).1
  | .shutdown now => sec.sec_mod_client_db_deinit now

/-- The random identifiers that are drawn have not been in the accounting before. -/
def Op.Draws (sec : SecMod) : Op → Prop
  | .cmd env _ => ∀ sid, Generated env sec sid → sec.calls sid = []
  | .shutdown _ => True

def OpStep (sec : SecMod) (op : Op) (sec' : SecMod) : Prop :=
  op.Draws sec ∧ sec' = op.apply sec

/-- An accounting module that is told of the start of a session is told of its end. -/
def Paired (vconfig : VConfig) : Prop :=
  ∀ name m, (find_vhost vconfig name).acct = some m →
    m.open_session ∧ m.close_session

def OpInitial (sec : SecMod) : Prop :=
  sec.client_db = .empty ∧ sec.log = [] ∧ Paired sec.vconfig

/-- The counters that a command reports. -/
def Cmd.counters : Cmd → Stats
  | .cli_stats req _ => ⟨req.bytes_in, req.bytes_out⟩
  | .session_close req => ⟨req.bytes_in.getD 0, req.bytes_out.getD 0⟩
  | _ => 0

/-- A report comes for an open session, the totals with what is reported do not wrap, and the
traffic of an open session has been saved when an entry is freed without a close. -/
def SavedBy (env : SecEnv) (c : Cmd) (e : ClientEntry) : Prop :=
  ((∃ req pid, c = .cli_stats req pid) → c.counts e → e.session_is_open) ∧
    (c.counts e → e.saved_stats.Fits (e.stats.raise c.counters)) ∧
    (c.discards env e → e.session_is_open → e.stats = 0)

def Saved (sid : Sid) (t : Transition SecMod Op) : Prop :=
  match t.label with
  | .cmd env c => ∀ e, t.pre.client_db.find sid = some e → SavedBy env c e
  | .shutdown _ => True

/-! ## The entry and the calls -/

/-- An entry and the calls that were made for it. -/
structure Tallies (sid : Sid) (phase : AcctPhase) (calls : List SecEffect) (e : ClientEntry) :
    Prop where
  sid_eq : e.sid = sid
  accountable : e.Accountable
  running : phase ≠ .stopped
  denied : phase = .denied → e.status = .failed
  started : phase = .started ↔ e.told
  totals : ∀ totals, .session_stats sid totals ∈ calls → totals ≤ e.saved_stats + e.stats
  fits : e.saved_stats.Fits e.stats

/-- A word, and the entry that agrees with it, if there is one. -/
def Reconciled (sid : Sid) (o : Option ClientEntry) (calls : List SecEffect) : Prop :=
  ∃ phase, AcctWord sid phase calls ∧ (o = none → phase ≠ .started) ∧
    ∀ e, o = some e → Tallies sid phase calls e

/-- The invariant of a run: the calls form a word, and the entry agrees with it. -/
structure Tallied (sid : Sid) (sec : SecMod) : Prop where
  paired : Paired sec.vconfig
  reconciled : Reconciled sid (sec.client_db.find sid) (sec.calls sid)

theorem Tallied.accounted {sid : Sid} {sec : SecMod} (h : Tallied sid sec) :
    Accounted sid sec := by
  obtain ⟨phase, hword, hnone, hsome⟩ := h.reconciled
  refine ⟨phase, hword, ?_⟩
  cases hfind : sec.client_db.find sid with
  | none => exact hnone hfind
  | some e => exact (hsome e hfind).running

/-! ## Keeping the tally -/

variable {env : SecEnv} {sec : SecMod} {sid : Sid} {phase : AcctPhase} {calls : List SecEffect}
  {e e' : ClientEntry}

omit [Platform] in
/-- No call is made, and the records of the entry have not decreased. -/
theorem Tallies.kept (h : Tallies sid phase calls e) (hsid : e'.sid = e.sid)
    (hvhost : e'.vhost = e.vhost) (hopen : e'.session_is_open = e.session_is_open)
    (hst : phase = .denied → e'.status = .failed)
    (hle : e.saved_stats + e.stats ≤ e'.saved_stats + e'.stats)
    (hfits : e'.saved_stats.Fits e'.stats) : Tallies sid phase calls e' where
  sid_eq := hsid.trans h.sid_eq
  accountable m hm := h.accountable m (hvhost ▸ hm)
  running := h.running
  denied := hst
  started := by rw [h.started, ClientEntry.told, ClientEntry.told, hvhost, hopen]
  totals t ht := Stats.le_trans (h.totals t ht) hle
  fits := hfits

omit [Platform] in
theorem Tallies.not_denied (h : Tallies sid phase calls e) (hst : e.status = .completed) :
    phase ≠ .denied := by
  intro hdenied
  exact absurd ((h.denied hdenied).symm.trans hst) (by decide)

omit [Platform] in
/-- Only a session whose start was told, or that the module has refused, has calls. -/
theorem Tallies.silent (h : Tallies sid phase calls e) (hst : e.status = .completed)
    (htold : e.told = false) : phase = .silent := by
  cases hphase : phase with
  | silent => rfl
  | denied => exact absurd hphase (h.not_denied hst)
  | started => exact absurd (h.started.1 hphase) (by simp [htold])
  | stopped => exact absurd hphase h.running

omit [Platform] in
theorem deinit_of_accountable (h : e.Accountable) : sec_auth_user_deinit e =
    if e.told then [.close_session e.sid e.saved_stats e.discon_reason] else [] := by
  have hboth : e.vhost.acct.any (·.close_session) = e.vhost.acct.any (·.open_session) := by
    cases hacct : e.vhost.acct with
    | none => rfl
    | some m =>
      obtain ⟨hopen, hclose⟩ := h m hacct
      rw [Option.any_some, Option.any_some, hopen, hclose]
  rw [sec_auth_user_deinit, hboth, ClientEntry.told]

omit [Platform] in
/-- An entry is freed with all its traffic saved. -/
theorem Tallies.freed (h : Tallies sid phase calls e) (hword : AcctWord sid phase calls)
    (hstats : e.session_is_open → e.stats = 0) :
    ∃ phase', AcctWord sid phase' (sec_auth_user_deinit e ++ calls) ∧ phase' ≠ .started := by
  rw [deinit_of_accountable h.accountable, h.sid_eq]
  cases htold : e.told with
  | false =>
    refine ⟨phase, hword, fun hstarted => ?_⟩
    have htold' := h.started.1 hstarted
    simp [htold] at htold'
  | true =>
    have hstarted := h.started.2 htold
    subst hstarted
    refine ⟨.stopped, .stop hword fun t ht => ?_, by decide⟩
    have hle := h.totals t ht
    rwa [hstats (Bool.and_eq_true_iff.1 htold).2, add_zero] at hle

/-! ## What a command does to the tally -/

omit [Platform] in
theorem Reconciled.present (hword : AcctWord sid phase calls) (h : Tallies sid phase calls e) :
    Reconciled sid (some e) calls :=
  ⟨phase, hword, fun hnone => (by cases hnone), fun _ he => Option.some.inj he ▸ h⟩

omit [Platform] in
theorem Reconciled.absent (h : ∃ phase, AcctWord sid phase calls ∧ phase ≠ .started) :
    Reconciled sid none calls := by
  obtain ⟨phase, hword, hended⟩ := h
  exact ⟨phase, hword, fun _ => hended, fun _ he => by cases he⟩

omit [Platform] in
/-- A completed entry whose session is opened: the start is told unless it has been. -/
theorem Tallies.opened (h : Tallies sid phase calls e) (hword : AcctWord sid phase calls)
    (hst : e.status = .completed) (hsid : e'.sid = e.sid) (hvhost : e'.vhost = e.vhost)
    (hopen : e'.session_is_open) (hsaved : e'.saved_stats = e.saved_stats)
    (hstats : e'.stats = e.stats) :
    Reconciled sid (some e') ((if unannounced e then [.open_session e.sid true] else []) ++
      calls) := by
  have hle : e.saved_stats + e.stats ≤ e'.saved_stats + e'.stats := by
    rw [hsaved, hstats]
    exact Stats.le_refl _
  have hfits : e'.saved_stats.Fits e'.stats := by
    rw [hsaved, hstats]
    exact h.fits
  unfold unannounced
  cases hwas : e.session_is_open with
  | true =>
    rw [Bool.not_true, Bool.and_false, if_neg Bool.false_ne_true]
    exact .present hword (h.kept hsid hvhost (hopen.trans hwas.symm)
      (fun hd => absurd hd (h.not_denied hst)) hle hfits)
  | false =>
    have htold : e.told = false := by rw [ClientEntry.told, hwas, Bool.and_false]
    obtain rfl := h.silent hst htold
    have htold' : e'.told = e.vhost.acct.any (·.open_session) := by
      rw [ClientEntry.told, hopen, hvhost, Bool.and_true]
    cases hmod : e.vhost.acct.any (·.open_session) with
    | false =>
      refine .present hword ⟨hsid.trans h.sid_eq, fun m hm => h.accountable m (hvhost ▸ hm),
        h.running, fun hd => (by cases hd), ?_, fun t ht => Stats.le_trans (h.totals t ht) hle,
        hfits⟩
      rw [htold', hmod]
      decide
    | true =>
      rw [h.sid_eq]
      refine .present (.start hword) ⟨hsid.trans h.sid_eq,
        fun m hm => h.accountable m (hvhost ▸ hm), by decide,
        fun hd => (by cases hd), ?_, ?_, hfits⟩
      · rw [htold', hmod]
        decide
      · intro t ht
        cases hword
        simp at ht

omit [Platform] in
theorem Tallies.reported (h : Tallies sid phase calls e) (hword : AcctWord sid phase calls)
    (hst : e.status = .completed) (hopen : e.session_is_open) {req : CliStatsMsg} {pid : Nat}
    (hfits : e.saved_stats.Fits (e.stats.raise ⟨req.bytes_in, req.bytes_out⟩))
    {remote_ip ipv4 ipv6 : CStr} {uptime : Int} :
    Reconciled sid (some (report_entry req pid e remote_ip ipv4 ipv6 uptime))
      ((if e.vhost.acct.any (·.session_stats) then
        [.session_stats e.sid (stats_add_to (e.stats.raise ⟨req.bytes_in, req.bytes_out⟩)
          e.saved_stats)] else []) ++ calls) := by
  have hkept : Tallies sid phase calls (report_entry req pid e remote_ip ipv4 ipv6 uptime) :=
    h.kept rfl rfl rfl (fun hd => absurd hd (h.not_denied hst))
      (hfits.add_le_add_left (Stats.le_raise _ _)) hfits
  split
  · next hmod =>
    have htold : e.told := by
      obtain ⟨m, hm, -⟩ := (Option.any_eq_true _ _).1 hmod
      rw [ClientEntry.told, hopen, hm, Option.any_some, (h.accountable m hm).1]
      rfl
    have hstarted := h.started.2 htold
    subst hstarted
    rw [h.sid_eq]
    refine .present (.interim hword) { hkept with totals := fun t ht => ?_ }
    rcases List.mem_cons.1 ht with hnow | hbefore
    · obtain ⟨-, rfl⟩ := SecEffect.session_stats.inj hnow
      exact add_comm e.saved_stats _ ▸ Stats.le_refl _
    · exact hkept.totals t hbefore
  · exact .present hword hkept

theorem reconciled_step {c : Cmd} {o o' : Option ClientEntry} {new : List SecEffect}
    (h : Reconciled sid o calls) (hpaired : Paired sec.vconfig)
    (hdraws : Generated env sec sid → calls = [])
    (hsaved : ∀ e, o = some e → SavedBy env c e)
    (hsid : ∀ e', o' = some e' → e'.sid = sid)
    (hst : ∀ e e', o = some e → o' = some e' → e.status = .failed → calls ≠ [] →
      e'.status = .failed)
    (hstep : EntryStep env sec c o o' new) : Reconciled sid o' (new ++ calls) := by
  obtain ⟨phase, hword, hnone, hsome⟩ := h
  -- a session that was refused has had a call
  have hcalled : phase = .denied → calls ≠ [] := by
    rintro rfl rfl
    cases hword
  -- a step of the authentication leaves the session and its traffic alone
  have hkept : ∀ {e e' : ClientEntry}, o = some e → o' = some e' → e'.sid = e.sid →
      e'.vhost = e.vhost → e'.session_is_open = e.session_is_open →
      e'.saved_stats = e.saved_stats → e'.stats = e.stats → Reconciled sid (some e') calls := by
    intro e e' ho ho' hsid' hvhost hopen hsaved' hstats
    have htally := hsome e ho
    refine .present hword (htally.kept hsid' hvhost hopen
      (fun hd => hst e e' ho ho' (htally.denied hd) (hcalled hd)) ?_ ?_)
    · exact hsaved' ▸ hstats ▸ Stats.le_refl _
    · exact hsaved' ▸ hstats ▸ htally.fits
  cases hstep with
  | idle => exact ⟨phase, hword, hnone, hsome⟩
  | cont_failed hprogress =>
    obtain ⟨_, _, _, _, _, rfl⟩ := hprogress
    exact hkept rfl rfl rfl rfl rfl rfl rfl
  | cont_step _ _ hout =>
    obtain ⟨_, _, _, _, _, rfl⟩ := hout.progress
    exact hkept rfl rfl rfl rfl rfl rfl rfl
  | banned => exact hkept rfl rfl rfl rfl rfl rfl rfl
  | @init req pid _ e' hcreated _ hdiscarded =>
    obtain rfl := hdraws (hsid e' rfl ▸ hcreated.generated)
    cases hword
    -- an entry that had the same identifier has made no call
    have hquiet : o.elim [] sec_auth_user_deinit = [] := by
      cases o with
      | none => rfl
      | some old =>
        have htally := hsome old rfl
        have htold : old.told = false := by
          by_contra htold
          have hstarted := htally.started.2 (by simpa using htold)
          cases hstarted
        rw [Option.elim_some, deinit_of_accountable htally.accountable, htold]
        rfl
    rw [hquiet]
    refine .present .silent ⟨hsid e' rfl, fun m hm => hpaired _ m (hcreated.vhost ▸ hm), by decide,
      fun hd => (by cases hd), ?_, fun t ht => (by cases ht), ?_⟩
    · rw [ClientEntry.told, hcreated.session_is_open, Bool.and_false]
      decide
    · rw [hcreated.stats]
      exact Stats.fits_zero _
  | freed hdiscards =>
    exact .absent ((hsome _ rfl).freed hword ((hsaved _ rfl).2.2 hdiscards))
  | @reported req pid e _ _ _ _ hreq hcompl =>
    have hcounts : (Cmd.cli_stats req pid).counts e := by simp [Cmd.counts, hreq, hcompl]
    exact (hsome e rfl).reported hword hcompl ((hsaved e rfl).1 ⟨_, _, rfl⟩ hcounts)
      ((hsaved e rfl).2.1 hcounts)
  | @opening req e e' _ _ _ hcompl hwrite =>
    have htally := hsome e rfl
    cases hwrite with
    | expired => exact hkept rfl rfl rfl rfl rfl rfl rfl
    | denied hnew =>
      have hopen : e.session_is_open = false := by simpa using (Bool.and_eq_true_iff.1 hnew).2
      have htold : e.told = false := by rw [ClientEntry.told, hopen, Bool.and_false]
      obtain rfl := htally.silent hcompl htold
      rw [htally.sid_eq]
      refine .present (.denied hword) ⟨htally.sid_eq, htally.accountable, by decide, fun _ => rfl,
        ?_, ?_, htally.fits⟩
      · have hstill : ({ addressed req e with status := .failed } : ClientEntry).told = false :=
          htold
        rw [hstill]
        decide
      · intro t ht
        cases hword
        simp at ht
    | deferred | opened => exact htally.opened hword hcompl rfl rfl rfl rfl rfl
  | @closing req e _ _ _ hreq hcompl hwrite =>
    have htally := hsome e rfl
    have hfits := (hsaved e rfl).2.1 (by simp [Cmd.counts, hreq, hcompl])
    have hclosed : ∀ {e' : ClientEntry}, e'.sid = e.sid → e'.vhost = e.vhost →
        e'.session_is_open = e.session_is_open →
        e.saved_stats + e.stats.raise (Cmd.session_close req).counters =
          e'.saved_stats + e'.stats →
        e'.saved_stats.Fits e'.stats → Tallies sid phase calls e' :=
      fun hsid' hvhost hopen hrecords =>
        htally.kept hsid' hvhost hopen (fun hd => absurd hd (htally.not_denied hcompl))
          (hrecords ▸ hfits.add_le_add_left (Stats.le_raise _ _))
    cases hwrite with
    | unanswered => exact .present hword (hclosed rfl rfl rfl rfl hfits)
    | left => exact .present hword (hclosed rfl rfl rfl (add_zero _).symm (Stats.fits_zero _))
    | ended =>
      have hsaved' : Tallies sid phase calls (save_stats (close_entry env req e)) :=
        hclosed rfl rfl rfl (add_zero _).symm (Stats.fits_zero _)
      exact .absent (hsaved'.freed hword fun _ => rfl)

theorem Tallied.exec {c : Cmd} (h : Tallied sid sec) (hdraws : (Op.cmd env c).Draws sec)
    (hsaved : Saved sid ⟨sec, .cmd env c, (exec env sec c).1⟩) :
    Tallied sid (exec env sec c).1 := by
  refine ⟨by rw [(exec_static env sec c).vconfig]; exact h.paired, ?_⟩
  obtain ⟨new, hstep, hcalls⟩ := exec_entryStep env sec c sid
  rw [hcalls]
  refine reconciled_step h.reconciled h.paired (hdraws sid) hsaved
    (fun e' hpost => ClientDb.find_sid hpost) (fun e e' hpre hpost hfailed hcalled => ?_) hstep
  rcases exec_entry hpost with ⟨_, _, -, hgen, -⟩ | ⟨e₀, hpre₀, -, hst⟩
  · exact absurd (hdraws sid hgen) hcalled
  · obtain rfl := Option.some.inj (hpre.symm.trans hpre₀)
    simpa [hfailed] using hst

/-! ## Shutdown -/

omit [Platform] in
theorem final_totals_sid (now : Int) (e : ClientEntry) : (final_totals now e).sid = e.sid := by
  unfold final_totals
  split <;> rfl

theorem find_final_totals (db : ClientDb) (now : Int) (sid : Sid) :
    (db.toList.map (final_totals now)).find? (fun e => e.sid = sid) =
      (db.find sid).map (final_totals now) := by
  rw [List.find?_map]
  refine congrArg (Option.map _) ?_
  simp only [Function.comp_def, final_totals_sid]
  cases hfind : db.find sid with
  | none =>
    rw [List.find?_eq_none]
    intro e he
    simpa using ClientDb.find_eq_none.1 hfind e he
  | some e =>
    obtain ⟨hmem, hsid⟩ := ClientDb.find_eq_some.1 hfind
    have hsome : (db.toList.find? fun e => e.sid = sid).isSome :=
      List.find?_isSome.2 ⟨e, hmem, decide_eq_true hsid⟩
    obtain ⟨e₁, hfirst⟩ := Option.isSome_iff_exists.1 hsome
    have hsid₁ : e₁.sid = sid := by simpa using List.find?_some hfirst
    rw [hfirst, ← hfind, ← hsid₁, ClientDb.find_self (List.mem_of_find?_eq_some hfirst)]

/-- The shutdown frees every entry with its final totals. -/
theorem deinit_calls (sec : SecMod) (now : Int) (sid : Sid) :
    (sec.sec_mod_client_db_deinit now).calls sid =
      ((sec.client_db.find sid).map (final_totals now)).elim [] sec_auth_user_deinit ++
        sec.calls sid := by
  have hnodup : ((sec.client_db.toList.map (final_totals now)).map ClientEntry.sid).Nodup := by
    rw [List.map_map, Function.comp_def]
    simp only [final_totals_sid]
    exact sec.client_db.nodup
  rw [sec_mod_client_db_deinit, clean_entries_calls _ sid hnodup, find_final_totals]
  rfl

theorem Tallied.shutdown (h : Tallied sid sec) (now : Int) :
    Tallied sid (sec.sec_mod_client_db_deinit now) := by
  have hfind : (sec.sec_mod_client_db_deinit now).client_db.find sid = none :=
    ClientDb.find_empty sid
  refine ⟨h.paired, ?_⟩
  rw [hfind, deinit_calls]
  obtain ⟨phase, hword, hnone, hsome⟩ := h.reconciled
  cases hpre : sec.client_db.find sid with
  | none => exact .absent ⟨phase, hword, hnone hpre⟩
  | some e =>
    have htally := hsome e hpre
    have hfinal : Tallies sid phase (sec.calls sid) (final_totals now e) := by
      unfold final_totals
      split
      · exact htally.kept rfl rfl rfl htally.denied
          (add_zero (e.saved_stats + e.stats) ▸ Stats.le_refl _) (Stats.fits_zero _)
      · exact htally
    refine .absent (hfinal.freed hword fun hopen => ?_)
    revert hopen
    unfold final_totals
    split
    · exact fun _ => rfl
    · next hclosed => exact fun hopen => absurd hopen hclosed

theorem Tallied.step {op : Op} {sec' : SecMod} (h : Tallied sid sec) (hs : OpStep sec op sec')
    (hsaved : Saved sid ⟨sec, op, sec'⟩) : Tallied sid sec' := by
  obtain ⟨hdraws, rfl⟩ := hs
  cases op with
  | cmd env c => exact h.exec hdraws hsaved
  | shutdown now => exact h.shutdown now

theorem OpInitial.tallied (h : OpInitial sec) : Tallied sid sec := by
  obtain ⟨hdb, hlog, hpaired⟩ := h
  refine ⟨hpaired, ?_⟩
  rw [hdb, ClientDb.find_empty, calls, hlog]
  exact .absent ⟨.silent, .silent, by decide⟩

/-- When reports come for open sessions, and the traffic of an open session is saved
before its entry is freed, the calls for every session are a start, interim updates and an
end whose totals are the largest, and the end is told when the entry is freed. -/
theorem accounting_paired (sid : Sid) {trace : List (Transition SecMod Op)} {sec : SecMod}
    (hrun : Run OpInitial OpStep trace sec) (hsaved : ∀ t ∈ trace, Saved sid t) :
    Accounted sid sec := by
  have htallied : Tallied sid sec :=
    hrun.invariant_of_forall (C := Saved sid) (fun _ hinit => hinit.tallied)
      (fun _ _ _ h hs hc => h.step hs hc) hsaved
  exact htallied.accounted

end Accounting
/-! ## Three sessions of one user -/

section Example

local instance accountingPlatform : Platform := Platform.simple

/-- An instance with an accounting module that takes every call. -/
private def billed : SecMod :=
  { Sample.lone with
    vconfig :=
      { default_vhost :=
          { (Sample.vconfig {}).default_vhost with acct := some ⟨true, true, true⟩ } } }

private theorem billed_initial : OpInitial billed := by
  refine ⟨rfl, rfl, fun name m hm => ?_⟩
  have hdefault : (find_vhost billed.vconfig name).acct = some ⟨true, true, true⟩ := by
    cases name <;> rfl
  rw [hdefault] at hm
  exact Option.some.inj hm ▸ ⟨rfl, rfl⟩

/-- Everything works, and no identifier is drawn. -/
private def quiet : SecEnv := { Sample.secEnv 0 with rnd_sid := fun _ => none }

private def enter : Op := .cmd (Sample.secEnv 0) (Sample.signIn "alice".toList "192.0.2.1".toList 7)

private def openSession : Op := .cmd quiet (.session_open ⟨(Sample.sid 0 0).1, none, none⟩)

private def interim : Op :=
  .cmd quiet (.cli_stats ⟨(Sample.sid 0 0).1, 100, 100, none, none, none, none⟩ 7)

private def expel : Op := .cmd quiet (.terminate_user_sessions (some "alice".toList))

/-- The state after the operations, newest first. -/
private def performed : List Op → SecMod
  | [] => billed
  | op :: ops => op.apply (performed ops)

private theorem draws_quiet (c : Cmd) (sec : SecMod) : (Op.cmd quiet c).Draws sec := by
  rintro sid ⟨_, _, hrnd, -⟩
  cases hrnd

private theorem entered {C : Transition SecMod Op → Prop}
    (hc : C ⟨billed, enter, performed [enter]⟩) :
    ReachableBy OpInitial OpStep C (performed [enter]) :=
  ReachableBy.snoc (.start billed_initial) (e := enter) ⟨fun _ _ => rfl, rfl⟩ hc

private theorem continued {C : Transition SecMod Op → Prop} {ops : List Op} {c : Cmd}
    (h : ReachableBy OpInitial OpStep C (performed ops))
    (hc : C ⟨performed ops, .cmd quiet c, performed (.cmd quiet c :: ops)⟩) :
    ReachableBy OpInitial OpStep C (performed (.cmd quiet c :: ops)) :=
  h.snoc ⟨draws_quiet c _, rfl⟩ hc

/-- A session with one interim update that ends with the server. -/
theorem accounting_paired_shutdown :
    (performed [.shutdown 200, interim, openSession, enter]).calls (Sample.sid 0 0) =
      [.close_session (Sample.sid 0 0) ⟨100, 100⟩ 0, .session_stats (Sample.sid 0 0) ⟨100, 100⟩,
        .open_session (Sample.sid 0 0) true] ∧
    Accounted (Sample.sid 0 0) (performed [.shutdown 200, interim, openSession, enter]) := by
  have hopen : ReachableBy OpInitial OpStep (Saved (Sample.sid 0 0))
      (performed [openSession, enter]) := by
    refine continued (entered fun e he => ?_)
      fun e _ => ⟨?_, fun hcounts => (by cases hcounts), fun hdis => (by cases hdis)⟩
    · cases he
    · rintro ⟨_, _, hcmd⟩
      cases hcmd
  have hinterim : ReachableBy OpInitial OpStep (Saved (Sample.sid 0 0))
      (performed [interim, openSession, enter]) := by
    have hsession : ∀ e ∈ (performed [openSession, enter]).client_db.find (Sample.sid 0 0),
        e.session_is_open = true ∧ e.saved_stats = {} ∧ e.stats = {} := by
      decide +kernel
    refine continued hopen fun e he => ?_
    obtain ⟨hopen, hsaved, hstats⟩ := hsession e he
    refine ⟨fun _ _ => hopen, fun _ => ?_, fun hdis => by cases hdis⟩
    rw [hsaved, hstats]
    exact ⟨by decide, by decide⟩
  have hstop : OpStep (performed [interim, openSession, enter]) (.shutdown 200)
      (performed [.shutdown 200, interim, openSession, enter]) := ⟨trivial, rfl⟩
  obtain ⟨trace, hrun, hsaved⟩ := hinterim.snoc hstop trivial
  exact ⟨by decide +kernel, accounting_paired _ hrun hsaved⟩

/-- A report without a session makes an interim update without a start; and when an
administrator expels the user, the end leaves out the traffic that an interim update had
told. -/
theorem accounting_unpaired : ∃ (P : Platform) (sid : Sid) (sec sec' : @SecMod P),
    @ReachableBy _ _ (@OpInitial P) (@OpStep P) (fun _ => True) sec ∧
    (@calls P sec sid = [.session_stats sid ⟨100, 100⟩] ∧ ¬ @Accounted P sid sec) ∧
    @ReachableBy _ _ (@OpInitial P) (@OpStep P) (fun _ => True) sec' ∧
    (@calls P sec' sid = [.close_session sid {} 0, .session_stats sid ⟨100, 100⟩,
      .open_session sid true] ∧ ¬ @Accounted P sid sec') := by
  have hfirst : (performed [interim, enter]).calls (Sample.sid 0 0) =
      [.session_stats (Sample.sid 0 0) ⟨100, 100⟩] := by decide +kernel
  have hsecond : (performed [expel, interim, openSession, enter]).calls (Sample.sid 0 0) =
      [.close_session (Sample.sid 0 0) {} 0, .session_stats (Sample.sid 0 0) ⟨100, 100⟩,
        .open_session (Sample.sid 0 0) true] := by decide +kernel
  refine ⟨Platform.simple, Sample.sid 0 0, performed [interim, enter],
    performed [expel, interim, openSession, enter], continued (entered trivial) trivial,
    ⟨hfirst, ?_⟩,
    continued (continued (continued (entered trivial) trivial) trivial) trivial, hsecond, ?_⟩
  · rintro ⟨phase, hword, -⟩
    rw [hfirst] at hword
    cases hword with
    | interim hstarted => cases hstarted
  · rintro ⟨phase, hword, -⟩
    rw [hsecond] at hword
    cases hword with
    | stop _ htotals =>
      have hle := htotals ⟨100, 100⟩ (by simp)
      exact absurd hle.1 (by decide)

end Example

end SecMod
end Ocserv

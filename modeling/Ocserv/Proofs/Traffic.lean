import Mathlib.Algebra.BigOperators.Group.List.Basic
import Mathlib.Algebra.GroupWithZero.Nat
import Ocserv.SecMod.Account
import Ocserv.Proofs.System

/-!
# The traffic of a session over its connections

A session outlives the workers that serve it.  Each worker reports the counters of its
own connection, and at the end main closes the session for it.  An entry has two
records: `stats`, which a report can only raise and which a close moves to
`saved_stats`.  All these counters have 64 bits.

`stats` is one record for all the workers of a session.  So the sum of the two records
is what the workers have counted (`traffic_conserved`) as long as between two closes one
worker reports, and not after its own close, and the sum does not wrap; the reports of two
workers that overlap are merged into their maximum.
-/

namespace Ocserv

open List Option

namespace SecMod

open Runs

/-! ## The workers of a session -/

/-- What is known of the workers of one session. -/
structure Ledger where
  /-- every worker that was ever attached to the session -/
  workers : List Nat := []
  /-- the counters that a worker has last reported -/
  counters : Nat → Stats := fun _ => 0
  /-- the workers whose last message has been sent -/
  finals : List Nat := []
  /-- the workers for which main has closed the session -/
  closed : List Nat := []
  /-- the workers that have reported since the last close -/
  recent : List Nat := []

/-- The traffic that the workers have counted, in one direction. -/
def Ledger.counted (l : Ledger) (bytes : Stats → UInt64) : Nat :=
  (l.workers.map fun w => (bytes (l.counters w)).toNat).sum

/-- The directions of the traffic. -/
def directions : List (Stats → UInt64) := [Stats.bytes_in, Stats.bytes_out]

/-- What the workers have counted can be recorded. -/
def Ledger.Fits (l : Ledger) : Prop := ∀ bytes ∈ directions, l.counted bytes < 2 ^ 64

/-- Every worker has sent its final message and has been closed. -/
def Ledger.Settled (l : Ledger) : Prop := ∀ w ∈ l.workers, w ∈ l.finals ∧ w ∈ l.closed

section Traffic

variable [Platform]

/-- An instance and the workers of one of its sessions. -/
structure Metered where
  sec : SecMod
  ledger : Ledger := {}

/-- What reaches the instance: main opens the session for a worker, a worker reports, main
closes the session for a worker, and everything else. -/
inductive Message
  | attach (w : Nat) (req : SecmSessionOpenMsg)
  | report (w : Nat) (req : CliStatsMsg) (pid : Nat) (last : Bool)
  | close (w : Nat) (req : SecmSessionCloseMsg)
  | other (c : Cmd)

def Message.cmd : Message → Cmd
  | .attach _ req => .session_open req
  | .report _ req pid _ => .cli_stats req pid
  | .close _ req => .session_close req
  | .other c => c

/-- The command opens, reports on or closes the session with this identifier. -/
def Cmd.addresses (sid : Sid) : Cmd → Prop
  | .session_open req => req.sid = sid.1
  | .cli_stats req _ => req.sid = sid.1
  | .session_close req => req.sid = sid.1
  | _ => False

def SessionReply.granted : Option SessionReply → Bool
  | some (.ok _) => true
  | _ => false

/-- The workers after a message. -/
def Metered.account (m : Metered) (env : SecEnv) : Message → Ledger
  | .attach w req =>
    if SessionReply.granted (m.sec.handle_secm_session_open_cmd env req).reply then
      { m.ledger with workers := w :: m.ledger.workers }
    else m.ledger
  | .report w req _ last =>
    { m.ledger with
      counters := Function.update m.ledger.counters w ⟨req.bytes_in, req.bytes_out⟩
      finals := if last then w :: m.ledger.finals else m.ledger.finals
      recent := w :: m.ledger.recent }
  | .close w _ => { m.ledger with closed := w :: m.ledger.closed, recent := [] }
  | .other _ => m.ledger

def Metered.after (m : Metered) (env : SecEnv) (msg : Message) : Metered :=
  ⟨(exec env m.sec msg.cmd).1, m.account env msg⟩

/-- What workers and main send about the session: a worker reports while it is attached,
counters that do not decrease, and nothing after its final message; main closes the
session once for each worker, and knows at most what the worker has reported.  The random
identifier of the session is not drawn again. -/
def Metered.Sends (sid : Sid) (m : Metered) (env : SecEnv) : Message → Prop
  | .attach w req => req.sid = sid.1 ∧ w ∉ m.ledger.workers
  | .report w req _ _ => req.sid = sid.1 ∧ w ∈ m.ledger.workers ∧ w ∉ m.ledger.finals ∧
      m.ledger.counters w ≤ ⟨req.bytes_in, req.bytes_out⟩
  | .close w req => req.sid = sid.1 ∧ w ∈ m.ledger.workers ∧ w ∉ m.ledger.closed ∧
      ⟨req.bytes_in.getD 0, req.bytes_out.getD 0⟩ ≤ m.ledger.counters w
  | .other c => ¬ c.addresses sid ∧ (Generated env m.sec sid → m.ledger.workers = [])

abbrev MeteredLabel := SecEnv × Message

def MeteredStep (sid : Sid) (m : Metered) (l : MeteredLabel) (m' : Metered) : Prop :=
  m.Sends sid l.1 l.2 ∧ m' = m.after l.1 l.2

def MeteredInitial (m : Metered) : Prop := m.sec.client_db = .empty ∧ m.ledger = {}

/-- Nothing is lost and nothing is counted twice. -/
def Metered.Conserved (sid : Sid) (m : Metered) : Prop :=
  m.ledger.Settled → ∀ e, m.sec.client_db.find sid = some e →
    ∀ bytes ∈ directions,
      (bytes e.saved_stats).toNat + (bytes e.stats).toNat = m.ledger.counted bytes

/-! ## One worker at a time -/

/-- The entry takes the reports and closes that reach it. -/
def Metered.Live (sid : Sid) (m : Metered) : Prop :=
  ∃ e, m.sec.client_db.find sid = some e ∧ e.status = .completed

instance (sid : Sid) (m : Metered) : Decidable (m.Live sid) :=
  inferInstanceAs (Decidable (∃ e ∈ m.sec.client_db.find sid, e.status = .completed))

/-- No other worker has reported since the last close, a report comes before the close of
its worker, the entry takes it, and a close can be answered. -/
def OneAtATime (sid : Sid) (t : Transition Metered MeteredLabel) : Prop :=
  match t.label.2 with
  | .report w _ _ _ =>
    t.pre.Live sid ∧ w ∉ t.pre.ledger.closed ∧ ∀ w' ∈ t.pre.ledger.recent, w' = w
  | .close w _ => t.pre.Live sid ∧ t.label.1.send_ok ∧ ∀ w' ∈ t.pre.ledger.recent, w' = w
  | _ => True

instance (sid : Sid) (t : Transition Metered MeteredLabel) : Decidable (OneAtATime sid t) := by
  unfold OneAtATime
  split <;> infer_instance

/-- The sum of the counters, as it is recorded. -/
def Ledger.total (l : Ledger) : Stats := (l.workers.map l.counters).sum

/-- The counters that have not been moved to `saved_stats`. -/
def Ledger.pending (l : Ledger) : Stats :=
  match l.recent with
  | [] => 0
  | w :: _ => l.counters w

/-- The records of the entry against those of its workers. -/
structure Metered.Balanced (sid : Sid) (m : Metered) : Prop where
  nodup : m.ledger.workers.Nodup
  closed : ∀ w ∈ m.ledger.closed, w ∈ m.ledger.workers
  recent : ∀ w ∈ m.ledger.recent, w ∈ m.ledger.workers ∧ w ∉ m.ledger.closed
  single : ∀ w ∈ m.ledger.recent, ∀ w' ∈ m.ledger.recent, w' = w
  silent : ∀ w, w ∉ m.ledger.recent → w ∉ m.ledger.closed → m.ledger.counters w = 0
  stats : ∀ e, m.sec.client_db.find sid = some e → e.stats = m.ledger.pending
  total : ∀ e, m.sec.client_db.find sid = some e → e.saved_stats + e.stats = m.ledger.total

/-! ## What a command does to the records -/

variable {env : SecEnv} {sec : SecMod} {sid : Sid} {e e' : ClientEntry}

variable {c : Cmd} {req : CliStatsMsg} {pid w : Nat} {m : Metered}

/-- A command that is neither a report on the session nor a close of it. -/
theorem exec_records (hc : ∀ e, sec.client_db.find sid = some e → c.counts e = false)
    (hpost : (exec env sec c).1.client_db.find sid = some e') :
    (∃ e, sec.client_db.find sid = some e ∧ e'.stats = e.stats ∧
      e'.saved_stats = e.saved_stats) ∨
    ((∃ req pid, c = .auth_init req pid) ∧ Generated env sec sid ∧ e'.stats = 0 ∧
      e'.saved_stats = 0) := by
  obtain ⟨calls, hstep, -⟩ := exec_entryStep env sec c sid
  have hsid := ClientDb.find_sid hpost
  rw [hpost] at hstep
  generalize hpre : sec.client_db.find sid = o at hstep hc
  cases hstep with
  | idle => exact .inl ⟨e', rfl, rfl, rfl⟩
  | init hcreated =>
    exact .inr ⟨⟨_, _, rfl⟩, hsid ▸ hcreated.generated, hcreated.stats, hcreated.saved_stats⟩
  | cont_failed hprogress =>
    obtain ⟨_, _, _, _, _, rfl⟩ := hprogress
    exact .inl ⟨_, rfl, rfl, rfl⟩
  | cont_step _ _ hout =>
    obtain ⟨_, _, _, _, _, rfl⟩ := hout.progress
    exact .inl ⟨_, rfl, rfl, rfl⟩
  | banned => exact .inl ⟨_, rfl, rfl, rfl⟩
  | opening _ _ hwrite => cases hwrite <;> exact .inl ⟨_, rfl, rfl, rfl⟩
  | reported hreq hst => simp [Cmd.counts, hreq, hst] at hc
  | closing hreq hst => simp [Cmd.counts, hreq, hst] at hc

theorem report_records (hreq : req.sid = sid.1) (hpre : sec.client_db.find sid = some e)
    (hst : e.status = .completed)
    (hpost : (exec env sec (.cli_stats req pid)).1.client_db.find sid = some e') :
    e'.stats = e.stats.raise ⟨req.bytes_in, req.bytes_out⟩ ∧ e'.saved_stats = e.saved_stats := by
  obtain ⟨calls, hstep, -⟩ := exec_entryStep env sec (.cli_stats req pid) sid
  rw [← ClientDb.find_sid hpre] at hreq
  rw [hpre, hpost] at hstep
  cases hstep with
  | idle hno => exact absurd ⟨congrArg some hreq, hst⟩ (hno e rfl)
  | reported => exact ⟨rfl, rfl⟩

theorem close_records {req : SecmSessionCloseMsg} (hsend : env.send_ok)
    (hreq : req.sid = sid.1) (hpre : sec.client_db.find sid = some e)
    (hst : e.status = .completed)
    (hpost : (exec env sec (.session_close req)).1.client_db.find sid = some e') :
    e'.stats = 0 ∧ e'.saved_stats =
      e.saved_stats + e.stats.raise ⟨req.bytes_in.getD 0, req.bytes_out.getD 0⟩ := by
  obtain ⟨calls, hstep, -⟩ := exec_entryStep env sec (.session_close req) sid
  rw [← ClientDb.find_sid hpre] at hreq
  rw [hpre, hpost] at hstep
  cases hstep with
  | idle hno => exact absurd ⟨congrArg some hreq, hst⟩ (hno e rfl)
  | closing _ _ hwrite =>
    cases hwrite with
    | unanswered hno => simp [hsend] at hno
    | left => exact ⟨rfl, rfl⟩

/-! ## What a message does to the balance -/

omit [Platform] in
theorem total_update {l : Ledger} (hnodup : l.workers.Nodup) (hw : w ∈ l.workers) (c : Stats) :
    (l.workers.map (Function.update l.counters w c)).sum + l.counters w =
      l.total + c := by
  have hothers : (l.workers.erase w).map (Function.update l.counters w c) =
      (l.workers.erase w).map l.counters := by
    refine map_congr_left fun w' hw' => Function.update_of_ne ?_ _ _
    rintro rfl
    exact hnodup.not_mem_erase hw'
  calc (l.workers.map (Function.update l.counters w c)).sum + l.counters w
      = c + ((l.workers.erase w).map l.counters).sum + l.counters w := by
        rw [← sum_map_erase _ hw, hothers, Function.update_self]
    _ = l.counters w + ((l.workers.erase w).map l.counters).sum + c := by
        rw [add_comm c, add_right_comm, add_comm _ (l.counters w)]
    _ = l.total + c := by rw [sum_map_erase _ hw, Ledger.total]

/-- What the entry has not saved yet is what the reporting worker has counted. -/
theorem Metered.Balanced.pending_of {sid : Sid} (h : m.Balanced sid) (hw : w ∉ m.ledger.closed)
    (hone : ∀ w' ∈ m.ledger.recent, w' = w) :
    m.ledger.pending = m.ledger.counters w := by
  unfold Ledger.pending
  split
  · next hnil => exact (h.silent w (by simp [hnil]) hw).symm
  · next w' _ hcons => rw [hone w' (by simp [hcons])]

/-- A message that leaves the counters alone and is no report or close. -/
theorem Metered.Balanced.of_records {workers : List Nat} (h : m.Balanced sid)
    (hc : ∀ e, m.sec.client_db.find sid = some e → c.counts e = false)
    (hgen : (∃ req pid, c = .auth_init req pid) → Generated env m.sec sid → m.ledger.workers = [])
    (hnodup : workers.Nodup) (hmem : ∀ w ∈ m.ledger.workers, w ∈ workers)
    (htotal : (workers.map m.ledger.counters).sum = m.ledger.total) :
    Metered.Balanced sid ⟨(exec env m.sec c).1, { m.ledger with workers }⟩ := by
  have hentry : ∀ e', (exec env m.sec c).1.client_db.find sid = some e' →
      e'.stats = m.ledger.pending ∧ e'.saved_stats + e'.stats = m.ledger.total := by
    intro e' hpost
    rcases exec_records hc hpost with ⟨e, hpre, hstats, hsaved⟩ | ⟨hinit, hnew, hstats, hsaved⟩
    · rw [hstats, hsaved]
      exact ⟨h.stats e hpre, h.total e hpre⟩
    · -- a new entry has no workers yet
      have hnone := hgen hinit hnew
      have hquiet : m.ledger.recent = [] := by
        rw [eq_nil_iff_forall_not_mem]
        intro w hw
        have hworker := (h.recent w hw).1
        simp [hnone] at hworker
      rw [hstats, hsaved, Ledger.pending, hquiet, Ledger.total, hnone]
      exact ⟨rfl, rfl⟩
  exact {
    nodup := hnodup
    closed := fun w hw => hmem w (h.closed w hw)
    recent := fun w hw => ⟨hmem w (h.recent w hw).1, (h.recent w hw).2⟩
    single := h.single
    silent := h.silent
    stats := fun e' hpost => (hentry e' hpost).1
    total := fun e' hpost => (hentry e' hpost).2.trans htotal.symm }

theorem Metered.Balanced.attach (h : m.Balanced sid) {req : SecmSessionOpenMsg}
    (hs : m.Sends sid env (.attach w req)) :
    (m.after env (.attach w req)).Balanced sid := by
  obtain ⟨-, hnew⟩ := hs
  have hfresh : m.ledger.counters w = 0 :=
    h.silent w (fun hw => hnew (h.recent w hw).1) fun hw => hnew (h.closed w hw)
  have hgen : (∃ r pid, Cmd.session_open req = .auth_init r pid) → Generated env m.sec sid →
      m.ledger.workers = [] := by
    rintro ⟨_, _, hcmd⟩
    cases hcmd
  simp only [Metered.after, Metered.account]
  split
  · refine h.of_records (fun _ _ => rfl) hgen (nodup_cons.2 ⟨hnew, h.nodup⟩)
      (fun w' hw' => mem_cons_of_mem w hw') ?_
    rw [map_cons, sum_cons, hfresh, zero_add, Ledger.total]
  · exact h.of_records (fun _ _ => rfl) hgen h.nodup (fun _ hw' => hw') rfl

theorem Metered.Balanced.other (h : m.Balanced sid) (hs : m.Sends sid env (.other c)) :
    (m.after env (.other c)).Balanced sid := by
  obtain ⟨hforeign, hgen⟩ := hs
  refine h.of_records (fun e hpre => ?_) (fun _ => hgen) h.nodup (fun _ hw' => hw') rfl
  rw [← ClientDb.find_sid hpre] at hforeign
  cases c with
  | cli_stats req pid =>
    have hne : req.sid ≠ e.sid.1 := hforeign
    simp [Message.cmd, Cmd.counts, hne]
  | session_close req =>
    have hne : req.sid ≠ e.sid.1 := hforeign
    simp [Message.cmd, Cmd.counts, hne]
  | _ => rfl

theorem Metered.Balanced.report (h : m.Balanced sid) {last : Bool}
    (hs : m.Sends sid env (.report w req pid last)) (hlive : m.Live sid)
    (hopen : w ∉ m.ledger.closed) (hone : ∀ w' ∈ m.ledger.recent, w' = w) :
    (m.after env (.report w req pid last)).Balanced sid := by
  obtain ⟨hreq, hw, -, hle⟩ := hs
  obtain ⟨e, hpre, hst⟩ := hlive
  have hpending := h.pending_of hopen hone
  have hentry : ∀ e', (exec env m.sec (.cli_stats req pid)).1.client_db.find sid = some e' →
      e'.stats = ⟨req.bytes_in, req.bytes_out⟩ ∧ e'.saved_stats = e.saved_stats := by
    intro e' hpost
    obtain ⟨hstats, hsaved⟩ := report_records hreq hpre hst hpost
    rw [h.stats e hpre, hpending] at hstats
    exact ⟨hstats.trans (Stats.raise_of_le hle), hsaved⟩
  have htotal := total_update h.nodup hw ⟨req.bytes_in, req.bytes_out⟩
  exact {
    nodup := h.nodup
    closed := h.closed
    recent := forall_mem_cons.2 ⟨⟨hw, hopen⟩, h.recent⟩
    single := fun w₁ hw₁ w₂ hw₂ => by
      have hall : ∀ w' ∈ w :: m.ledger.recent, w' = w := forall_mem_cons.2 ⟨rfl, hone⟩
      rw [hall w₁ hw₁, hall w₂ hw₂]
    silent := fun w' hrecent hclosed => by
      obtain ⟨hne, hrecent⟩ := not_or.1 (mem_cons.not.1 hrecent)
      exact (Function.update_of_ne hne _ _).trans (h.silent w' hrecent hclosed)
    stats := fun e' hpost => by
      have hupdate : (m.after env (.report w req pid last)).ledger.pending =
        Function.update m.ledger.counters w ⟨req.bytes_in, req.bytes_out⟩ w := rfl
      rw [hupdate, Function.update_self]
      exact (hentry e' hpost).1
    total := fun e' hpost => by
      obtain ⟨hstats, hsaved⟩ := hentry e' hpost
      refine add_right_cancel (b := m.ledger.counters w) ?_
      calc e'.saved_stats + e'.stats + m.ledger.counters w
          = e.saved_stats + e.stats + ⟨req.bytes_in, req.bytes_out⟩ := by
            rw [hstats, hsaved, h.stats e hpre, hpending, add_right_comm]
        _ = m.ledger.total + ⟨req.bytes_in, req.bytes_out⟩ := by rw [h.total e hpre]
        _ = (m.after env (.report w req pid last)).ledger.total + m.ledger.counters w :=
            htotal.symm }

theorem Metered.Balanced.close (h : m.Balanced sid) {req : SecmSessionCloseMsg}
    (hs : m.Sends sid env (.close w req)) (hlive : m.Live sid) (hsend : env.send_ok)
    (hone : ∀ w' ∈ m.ledger.recent, w' = w) :
    (m.after env (.close w req)).Balanced sid := by
  obtain ⟨hreq, hw, hopen, hge⟩ := hs
  obtain ⟨e, hpre, hst⟩ := hlive
  have hpending := (h.stats e hpre).trans (h.pending_of hopen hone)
  rw [← hpending] at hge
  have hentry : ∀ e', (exec env m.sec (.session_close req)).1.client_db.find sid = some e' →
      e'.stats = 0 ∧ e'.saved_stats + e'.stats = m.ledger.total := by
    intro e' hpost
    obtain ⟨hstats, hsaved⟩ := close_records hsend hreq hpre hst hpost
    rw [hstats, hsaved, Stats.raise_of_ge hge, add_zero]
    exact ⟨rfl, h.total e hpre⟩
  exact {
    nodup := h.nodup
    closed := forall_mem_cons.2 ⟨hw, h.closed⟩
    recent := fun w' hw' => by cases hw'
    single := fun w' hw' => by cases hw'
    silent := fun w' _ hclosed => by
      obtain ⟨hne, hclosed⟩ := not_or.1 (mem_cons.not.1 hclosed)
      exact h.silent w' (fun hrecent => hne (hone w' hrecent)) hclosed
    stats := fun e' hpost => (hentry e' hpost).1
    total := fun e' hpost => (hentry e' hpost).2 }

theorem Metered.Balanced.step {m' : Metered} {l : MeteredLabel} (h : m.Balanced sid)
    (hs : MeteredStep sid m l m') (hone : OneAtATime sid ⟨m, l, m'⟩) : m'.Balanced sid := by
  obtain ⟨env, msg⟩ := l
  obtain ⟨hsends, rfl⟩ := hs
  cases msg with
  | attach w req => exact h.attach hsends
  | report w req pid last => exact h.report hsends hone.1 hone.2.1 hone.2.2
  | close w req => exact h.close hsends hone.1 hone.2.1 hone.2.2
  | other c => exact h.other hsends

theorem MeteredInitial.balanced (h : MeteredInitial m) : m.Balanced sid := by
  obtain ⟨hdb, hledger⟩ := h
  have hnone : ∀ e, m.sec.client_db.find sid ≠ some e := by simp [hdb]
  constructor <;> simp_all

/-- Nothing is left to be saved once every worker has been closed. -/
theorem Metered.Balanced.pending_of_settled (h : m.Balanced sid) (hsettled : m.ledger.Settled) :
    m.ledger.pending = 0 := by
  have hquiet : m.ledger.recent = [] := by
    rw [eq_nil_iff_forall_not_mem]
    intro w hw
    obtain ⟨hworker, hopen⟩ := h.recent w hw
    exact hopen (hsettled w hworker).2
  rw [Ledger.pending, hquiet]

omit [Platform] in
/-- What is recorded is what has been counted, up to a multiple of `2 ^ 64`. -/
theorem toNat_total (l : Ledger) {bytes : Stats → UInt64} (hbytes : bytes ∈ directions) :
    (bytes l.total).toNat = l.counted bytes % 2 ^ 64 := by
  have hsum : bytes 0 = 0 ∧ ∀ a b : Stats, bytes (a + b) = bytes a + bytes b := by
    rcases mem_pair.1 hbytes with rfl | rfl <;> exact ⟨rfl, fun _ _ => rfl⟩
  rw [Ledger.total, Ledger.counted]
  induction l.workers with
  | nil => simp [hsum.1]
  | cons w workers ih =>
    simp only [map_cons, sum_cons, hsum.2, UInt64.toNat_add, ih, Nat.add_mod_mod]

/-- When the workers of a session report one at a time, the entry has recorded exactly
what they have counted, as far as it can. -/
theorem traffic_conserved (sid : Sid) {trace : List (Transition Metered MeteredLabel)}
    {m : Metered} (hrun : Run MeteredInitial (MeteredStep sid) trace m)
    (hone : ∀ t ∈ trace, OneAtATime sid t) (hfits : m.ledger.Fits) : m.Conserved sid := by
  have hbalanced : m.Balanced sid :=
    hrun.invariant_of_forall (C := OneAtATime sid) (fun _ hinit => hinit.balanced)
      (fun _ _ _ h hs hc => h.step hs hc) hone
  intro hsettled e hfind bytes hbytes
  have hstats : e.stats = 0 :=
    (hbalanced.stats e hfind).trans (hbalanced.pending_of_settled hsettled)
  have htotal := hbalanced.total e hfind
  rw [hstats, add_zero] at htotal
  have hzero : (bytes 0).toNat = 0 := by
    rcases mem_pair.1 hbytes with rfl | rfl <;> rfl
  rw [hstats, htotal, hzero, toNat_total _ hbytes, Nat.mod_eq_of_lt (hfits bytes hbytes),
    Nat.add_zero]

end Traffic
/-! ## Two connections of one session -/

section Example

local instance trafficPlatform : Platform := Platform.simple

private def attaching (w : Nat) : Message := .attach w ⟨(Sample.sid 0 0).1, none, none⟩

/-- The only report of a worker. -/
private def counted (w : Nat) (bytes_in : UInt64) : Message :=
  .report w ⟨(Sample.sid 0 0).1, bytes_in, 10, none, none, none, none⟩ w true

private def hungUp (w : Nat) : Message := .close w ⟨(Sample.sid 0 0).1, some 0, some 0, false⟩

/-- The states after the authentication of a user and the messages of two connections. -/
private def metered : List Message → Metered
  | [] => ⟨Sample.secmod {} 0, {}⟩
  | msg :: msgs => (metered msgs).after (Sample.secEnv 0) msg

private def signedIn : Message := .other (Sample.signIn "alice".toList "192.0.2.1".toList 7)

variable {msgs : List Message} {C : Transition Metered MeteredLabel → Prop}

/-- The messages form a run whose steps all meet `C`. -/
private def RunsWith (C : Transition Metered MeteredLabel → Prop) (msgs : List Message) : Prop :=
  ReachableBy MeteredInitial (MeteredStep (Sample.sid 0 0)) C (metered msgs)

private theorem RunsWith.snoc {msg : Message} (h : RunsWith C msgs)
    (hs : (metered msgs).Sends (Sample.sid 0 0) (Sample.secEnv 0) msg)
    (hc : C ⟨metered msgs, (Sample.secEnv 0, msg), metered (msg :: msgs)⟩) :
    RunsWith C (msg :: msgs) :=
  ReachableBy.snoc h (e := (Sample.secEnv 0, msg)) ⟨hs, rfl⟩ hc

private theorem runsWith_signedIn
    (hc : C ⟨metered [], (Sample.secEnv 0, signedIn), metered [signedIn]⟩) :
    RunsWith C [signedIn] :=
  RunsWith.snoc (ReachableBy.start ⟨rfl, rfl⟩) ⟨fun h => h, fun _ => rfl⟩ hc

/-- One connection after the other: 100 and 50 bytes make 150. -/
theorem traffic_conserved_reconnection :
    (metered [hungUp 2, counted 2 50, attaching 2, hungUp 1, counted 1 100, attaching 1,
      signedIn]).ledger.counted Stats.bytes_in = 150 ∧
    (metered [hungUp 2, counted 2 50, attaching 2, hungUp 1, counted 1 100, attaching 1,
      signedIn]).Conserved (Sample.sid 0 0) := by
  have hfirst : RunsWith (OneAtATime (Sample.sid 0 0))
      [hungUp 1, counted 1 100, attaching 1, signedIn] := by
    refine .snoc (.snoc (.snoc (runsWith_signedIn trivial) ⟨rfl, ?_⟩ trivial) ⟨rfl, ?_⟩ ?_)
      ⟨rfl, ?_⟩ ?_ <;> decide +kernel
  have hsecond : RunsWith (OneAtATime (Sample.sid 0 0))
      [hungUp 2, counted 2 50, attaching 2, hungUp 1, counted 1 100, attaching 1, signedIn] := by
    refine .snoc (.snoc (.snoc hfirst ⟨rfl, ?_⟩ trivial) ⟨rfl, ?_⟩ ?_) ⟨rfl, ?_⟩ ?_ <;>
      decide +kernel
  obtain ⟨trace, hrun, hone⟩ := hsecond
  refine ⟨by decide +kernel, traffic_conserved _ hrun hone ?_⟩
  intro bytes hbytes
  rcases mem_pair.1 hbytes with rfl | rfl <;> decide +kernel

/-- Two connections at the same time: of 100 and 150 bytes only the larger number is
recorded, by the close that comes first. -/
theorem traffic_of_overlapping_workers : ∃ (P : Platform) (sid : Sid)
    (trace : List (Transition (@Metered P) MeteredLabel)) (m : @Metered P),
    Run (@MeteredInitial P) (@MeteredStep P sid) trace m ∧ ¬ @Metered.Conserved P sid m := by
  have hboth : RunsWith (fun _ => True) [hungUp 2, hungUp 1, counted 2 150, counted 1 100,
      attaching 2, attaching 1, signedIn] := by
    refine .snoc (.snoc (.snoc (.snoc (.snoc (.snoc (runsWith_signedIn trivial) ⟨rfl, ?_⟩ trivial)
      ⟨rfl, ?_⟩ trivial) ⟨rfl, ?_⟩ trivial) ⟨rfl, ?_⟩ trivial) ⟨rfl, ?_⟩ trivial) ⟨rfl, ?_⟩
      trivial <;> decide +kernel
  obtain ⟨trace, hrun, -⟩ := hboth
  refine ⟨Platform.simple, Sample.sid 0 0, trace, _, hrun, fun hconserved => ?_⟩
  have hrecorded : ((metered [hungUp 2, hungUp 1, counted 2 150, counted 1 100, attaching 2,
      attaching 1, signedIn]).sec.client_db.find (Sample.sid 0 0)).map
        (fun e => e.saved_stats.bytes_in.toNat + e.stats.bytes_in.toNat) = some 150 := by
    decide +kernel
  obtain ⟨e, hfind, hsum⟩ := map_eq_some_iff.1 hrecorded
  have htotal := hconserved (by unfold Ledger.Settled; decide +kernel) e hfind Stats.bytes_in
    (by simp [directions])
  rw [hsum] at htotal
  revert htotal
  decide +kernel

end Example

end SecMod
end Ocserv

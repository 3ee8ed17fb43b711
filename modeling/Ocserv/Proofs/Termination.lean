import Ocserv.Proofs.System

/-!
# Administrative termination

A command of `occtl` is to end the sessions of a user, of a connection, or with a
printable identifier: afterwards no instance of sec-mod has an entry for them, so that
their cookies are of no use, and the workers that hold them have been signalled.  Main
asks the instances in turn and stops at the first that has deleted something, and of its
own workers it signals those it finds by the user name or the process number.  This
module says exactly for which states that ends all of the sessions.
-/

namespace Ocserv

open Outcome Runs

section Termination

variable [Platform]

/-- The commands that end sessions. -/
inductive Sys.Termination
  | user (username : CStr)
  | id (n : Int)
  | session (safe_id : CStr)

/-- An instance of sec-mod has this entry. -/
def Sys.Entry (s : Sys) (e : ClientEntry) : Prop := ∃ sec ∈ s.secmods, e ∈ sec.client_db.toList

/-- The event issues this session identifier. -/
def Sys.Event.Issues (sid : Sid) : Sys.Event → Prop
  | .secmod i env (.auth_init _ _) =>
    ∃ k bytes, env.rnd_sid k = some bytes ∧ sid = sec_mod_instance_index_put bytes i
  | _ => False

namespace Sys.Termination

/-- The event of the command. -/
def event : Termination → Event
  | .user username => .terminate_user username
  | .id n => .terminate_id n
  | .session safe_id => .terminate_session safe_id

/-- The connection that a process number stands for. -/
def connection (s : Sys) (n : Int) : Option Proc := s.main.procs.find? fun p => p.pid = n

/-- The entries that the command is about. -/
def Covers (s : Sys) : Termination → ClientEntry → Prop
  | .user username, e => e.acct_info.username = username
  | .id n, e => ∃ p, connection s n = some p ∧ p.active_sid ∧ p.sid = e.sid
  | .session safe_id, e => e.acct_info.safe_id = safe_id

/-- The sessions that the command is about: those of the entries, and that of the
connection. -/
def Targets (s : Sys) : Termination → Sid → Prop
  | .id n, sid => ∃ p, connection s n = some p ∧ p.active_sid ∧ p.sid = sid
  | t, sid => ∃ e, s.Entry e ∧ t.Covers s e ∧ e.sid = sid

/-- The workers that main signals. -/
def Reaches (s : Sys) : Termination → Proc → Prop
  | .user username, p => p.username = username
  | .id n, p => connection s n = some p
  | .session _, _ => False

/-- In the state `s'` the sessions that the command was about in `s` have ended. -/
structure Completes (s : Sys) (t : Termination) (s' : Sys) : Prop where
  gone : ∀ e, s'.Entry e → ¬ t.Covers s e
  signalled : ∀ p ∈ s'.main.procs, p.active_sid → t.Targets s p.sid →
    .sigterm p.id ∈ s'.main.log
  /-- no open request is granted later, unless the identifier is issued again -/
  refused : ∀ sid, t.Targets s sid → ∀ trace s'', Run (· = s') Step trace s'' →
    (∀ l ∈ trace, ¬ l.label.1.Issues sid) →
    ∀ sec ∈ s''.secmods, ∀ env req, req.sid = sid.1 →
      ∀ info, (sec.handle_secm_session_open_cmd env req).reply ≠ some (.ok info)

/-- The sessions of the command are within the reach of the command: those of a user are
all in one instance, and main finds the workers that hold them. -/
structure Terminable (s : Sys) (t : Termination) : Prop where
  instances : ∀ username, t = .user username → ∀ e e', s.Entry e → s.Entry e' →
    e.acct_info.username = username → e'.acct_info.username = username →
    username ≠ [] ∧ sec_mod_instance_index_get e.sid = sec_mod_instance_index_get e'.sid
  workers : ∀ p ∈ s.main.procs, p.active_sid → t.Targets s p.sid →
    t.Reaches s p ∨ .sigterm p.id ∈ s.main.log

end Sys.Termination

/-- The entries have different printable identifiers. -/
def Sys.DistinctIds (s : Sys) : Prop :=
  ∀ e e', s.Entry e → s.Entry e' → e.acct_info.safe_id = e'.acct_info.safe_id → e.sid = e'.sid

variable {s s' : Sys} {p q : Proc} {e e' : ClientEntry}

/-! ## Entries -/

theorem Sys.WF.entry_index (h : s.WF) {i : Nat} {sec : SecMod} (hsec : s.secmods[i]? = some sec)
    (he : e ∈ sec.client_db.toList) : sec_mod_instance_index_get e.sid = i := by
  obtain ⟨hindexed, hindex⟩ := h.secmods i sec hsec
  rw [hindexed.index e.sid e (ClientDb.find_self he), hindex]

theorem Sys.WF.entry_safe_id (h : s.WF) (he : s.Entry e) :
    e.acct_info.safe_id = Platform.calc_safe_id e.sid := by
  obtain ⟨sec, hsec, he⟩ := he
  obtain ⟨i, hi⟩ := List.getElem?_of_mem hsec
  exact (h.secmods i sec hi).1.safe_id e.sid e (ClientDb.find_self he)

/-- There is at most one entry for a session identifier. -/
theorem Sys.WF.entry_eq (h : s.WF) (he : s.Entry e) (he' : s.Entry e') (hsid : e.sid = e'.sid) :
    e = e' := by
  obtain ⟨sec, hsec, he⟩ := he
  obtain ⟨sec', hsec', he'⟩ := he'
  obtain ⟨i, hi⟩ := List.getElem?_of_mem hsec
  obtain ⟨j, hj⟩ := List.getElem?_of_mem hsec'
  have hij : i = j := by
    rw [← h.entry_index hi he, ← h.entry_index hj he', hsid]
  subst hij
  obtain rfl := Option.some.inj (hi.symm.trans hj)
  have hfind := ClientDb.find_self he
  rw [hsid, ClientDb.find_self he'] at hfind
  exact (Option.some.inj hfind).symm

/-! ## The instances -/

/-- No session can be opened with this identifier. -/
def SecMod.Spent (sid : Sid) (sec : SecMod) : Prop :=
  ∀ e, sec.client_db.find sid = some e → e.status = .failed

/-- The instance has an entry that meets `p`. -/
def SecMod.Has (p : ClientEntry → Bool) (sec : SecMod) : Prop :=
  ∃ e ∈ sec.client_db.toList, p e

/-- A request deletes the entries that meet `p`, and reports whether there were any. -/
structure SecMod.Deletes (p : ClientEntry → Bool) (sec : SecMod) (r : SecMod × Bool) : Prop where
  mem : ∀ e, e ∈ r.1.client_db.toList ↔ e ∈ sec.client_db.toList ∧ p e = false
  done : r.2 = true ↔ sec.Has p

theorem SecMod.Deletes.not_has {p : ClientEntry → Bool} {sec : SecMod} {r : SecMod × Bool}
    (h : sec.Deletes p r) : ¬ r.1.Has p := by
  rintro ⟨e, he, hp⟩
  have hfalse := ((h.mem e).1 he).2
  simp [hp] at hfalse

theorem SecMod.terminate_user_sessions_deletes (sec : SecMod) {username : CStr}
    (hne : username ≠ []) : sec.Deletes (fun e => e.acct_info.username == username)
      (sec.terminate_user_sessions username) := by
  simp only [terminate_user_sessions, if_neg hne]
  refine ⟨fun e => ?_, ?_⟩
  · rw [clean_entries_client_db]
    exact ClientDb.mem_sweep
  · simp only [Bool.not_eq_true', List.isEmpty_eq_false_iff_exists_mem, ClientDb.mem_swept]
    rfl

theorem SecMod.terminate_session_deletes {sec : SecMod} (hindexed : sec.Indexed) {safe_id : CStr}
    (hunique : ∀ e ∈ sec.client_db.toList, ∀ e' ∈ sec.client_db.toList,
      e.acct_info.safe_id = safe_id → e'.acct_info.safe_id = safe_id → e = e') :
    sec.Deletes (fun e => e.acct_info.safe_id == safe_id)
      (sec.terminate_session_by_sid safe_id) := by
  generalize hp : (fun e : ClientEntry => e.acct_info.safe_id == safe_id) = p
  have hmeets : ∀ e, p e = true ↔ e.acct_info.safe_id = safe_id := by
    intro e
    rw [← hp, beq_iff_eq]
  have hnothing : (∀ e ∈ sec.client_db.toList, p e = false) → sec.Deletes p (sec, false) := by
    intro hno
    refine ⟨fun e => ⟨fun he => ⟨he, hno e he⟩, And.left⟩, ?_⟩
    constructor
    · simp
    · rintro ⟨e, he, hpe⟩
      simp [hno e he] at hpe
  unfold terminate_session_by_sid
  rw [hp]
  split
  · next hlen =>
    refine hnothing fun e he => ?_
    rw [Bool.eq_false_iff, Ne, hmeets]
    intro heq
    rw [← heq, hindexed.safe_id e.sid e (ClientDb.find_self he)] at hlen
    exact hlen (Platform.calc_safe_id_length e.sid)
  · simp only
    split
    · next hremoved =>
      rw [ClientDb.removed_eq, List.find?_eq_none] at hremoved
      exact hnothing fun e he => by simpa using hremoved e he
    · next x hremoved =>
      have hfound := hremoved
      rw [ClientDb.removed_eq] at hfound
      have hx := List.mem_of_find?_eq_some hfound
      have hpx := List.find?_some hfound
      refine ⟨fun e => ?_, fun _ => ⟨x, hx, hpx⟩, fun _ => rfl⟩
      have hfind : ∀ db : ClientDb, e ∈ db.toList ↔ db.find e.sid = some e := by
        intro db
        rw [ClientDb.find_eq_some]
        simp
      rw [clean_entries_client_db, hfind, hfind, ClientDb.find_removeFirst,
        Option.filter_eq_some_iff, hremoved]
      simp only [ne_eq, Option.some.injEq, decide_eq_true_eq]
      refine and_congr_right fun he => ?_
      rw [← hfind] at he
      rw [Bool.eq_false_iff, Ne, not_iff_not]
      constructor
      · rintro rfl
        exact hpx
      · intro hpe
        exact hunique x hx e he ((hmeets x).1 hpx) ((hmeets e).1 hpe)

/-- Asking the instances in turn deletes all entries that meet `p` exactly if not more
than one instance has any. -/
theorem Sys.terminate_in_secmod_iff {p : ClientEntry → Bool} {request : SecMod → SecMod × Bool}
    {secs : List SecMod} (h : ∀ sec ∈ secs, sec.Deletes p (request sec)) :
    (∀ sec ∈ (Sys.terminate_in_secmod request secs).1, ¬ sec.Has p) ↔
      secs.Pairwise fun a b => ¬ (a.Has p ∧ b.Has p) := by
  induction secs with
  | nil => simp [terminate_in_secmod]
  | cons sec secs ih =>
    obtain ⟨hsec, hsecs⟩ := List.forall_mem_cons.1 h
    have hgone := hsec.not_has
    rw [List.pairwise_cons, terminate_in_secmod]
    cases hdone : (request sec).2 with
    | true =>
      -- the others are not asked
      have hhas := hsec.done.1 hdone
      simp only [if_true, List.forall_mem_cons, hgone, not_false_eq_true, true_and, hhas]
      refine ⟨fun hno => ⟨hno, ?_⟩, And.left⟩
      exact List.pairwise_of_forall_mem_list fun a ha b _ hboth => hno a ha hboth.1
    | false =>
      have hhas : ¬ sec.Has p := by
        rw [← hsec.done, hdone]
        simp
      simp only [Bool.false_eq_true, if_false, List.forall_mem_cons, hgone, not_false_eq_true,
        true_and, hhas, false_and, implies_true]
      exact ih hsecs

/-- No instance gets an entry. -/
theorem Sys.mem_terminate_in_secmod {request : SecMod → SecMod × Bool}
    (h : ∀ sec, ∀ e ∈ (request sec).1.client_db.toList, e ∈ sec.client_db.toList)
    {secs : List SecMod} {sec' : SecMod} (hsec' : sec' ∈ (Sys.terminate_in_secmod request secs).1)
    (he : e ∈ sec'.client_db.toList) : ∃ sec ∈ secs, e ∈ sec.client_db.toList := by
  induction secs with
  | nil => simp [terminate_in_secmod] at hsec'
  | cons sec secs ih =>
    rw [terminate_in_secmod] at hsec'
    have hhead : e ∈ (request sec).1.client_db.toList →
        ∃ sec' ∈ sec :: secs, e ∈ sec'.client_db.toList :=
      fun he => ⟨sec, List.mem_cons_self, h sec e he⟩
    cases hdone : (request sec).2 with
    | true =>
      simp only [hdone, if_true] at hsec'
      rcases List.mem_cons.1 hsec' with rfl | hsec'
      · exact hhead he
      · exact ⟨sec', List.mem_cons_of_mem _ hsec', he⟩
    | false =>
      simp only [hdone, Bool.false_eq_true, if_false] at hsec'
      rcases List.mem_cons.1 hsec' with rfl | hsec'
      · exact hhead he
      · obtain ⟨sec₁, hsec₁, he₁⟩ := ih hsec'
        exact ⟨sec₁, List.mem_cons_of_mem _ hsec₁, he₁⟩

theorem Sys.terminate_in_secmod_idle {request : SecMod → SecMod × Bool} {secs : List SecMod}
    (h : ∀ sec ∈ secs, request sec = (sec, false)) :
    Sys.terminate_in_secmod request secs = (secs, false) := by
  induction secs with
  | nil => rfl
  | cons sec secs ih =>
    obtain ⟨hsec, hsecs⟩ := List.forall_mem_cons.1 h
    simp only [terminate_in_secmod, hsec, ih hsecs, Bool.false_eq_true, if_false]

theorem Sys.WF.pairwise_has_iff (h : s.WF) (p : ClientEntry → Bool) :
    s.secmods.Pairwise (fun a b => ¬ (a.Has p ∧ b.Has p)) ↔
      ∀ e e', s.Entry e → s.Entry e' → p e → p e' →
        sec_mod_instance_index_get e.sid = sec_mod_instance_index_get e'.sid := by
  rw [List.pairwise_iff_getElem]
  constructor
  · intro hpair e e' ⟨sec, hsec, he⟩ ⟨sec', hsec', he'⟩ hp hp'
    obtain ⟨i, hi, rfl⟩ := List.getElem_of_mem hsec
    obtain ⟨j, hj, rfl⟩ := List.getElem_of_mem hsec'
    rw [h.entry_index (List.getElem?_eq_getElem hi) he,
      h.entry_index (List.getElem?_eq_getElem hj) he']
    rcases Nat.lt_trichotomy i j with hlt | heq | hlt
    · exact absurd ⟨⟨e, he, hp⟩, ⟨e', he', hp'⟩⟩ (hpair i j hi hj hlt)
    · exact heq
    · exact absurd ⟨⟨e', he', hp'⟩, ⟨e, he, hp⟩⟩ (hpair j i hj hi hlt)
  · rintro hsame i j hi hj hlt ⟨⟨e, he, hp⟩, ⟨e', he', hp'⟩⟩
    have hidx := hsame e e' ⟨_, List.getElem_mem hi, he⟩ ⟨_, List.getElem_mem hj, he'⟩ hp hp'
    rw [h.entry_index (List.getElem?_eq_getElem hi) he,
      h.entry_index (List.getElem?_eq_getElem hj) he'] at hidx
    exact Nat.ne_of_lt hlt hidx

/-- A termination by the printable identifier leaves no entry with it. -/
theorem Sys.WF.terminate_session (h : s.WF) (hids : s.DistinctIds) (safe_id : CStr) :
    ∀ sec ∈ (s.terminate_session_in_secmod safe_id).1.secmods,
      ¬ sec.Has fun e => e.acct_info.safe_id == safe_id := by
  have hsame : ∀ e e', s.Entry e → s.Entry e' → e.acct_info.safe_id = safe_id →
      e'.acct_info.safe_id = safe_id → e.sid = e'.sid :=
    fun e e' he he' heq heq' => hids e e' he he' (heq.trans heq'.symm)
  refine (Sys.terminate_in_secmod_iff fun sec hsec => ?_).2 ((h.pairwise_has_iff _).2 ?_)
  · obtain ⟨i, hi⟩ := List.getElem?_of_mem hsec
    refine SecMod.terminate_session_deletes (h.secmods i sec hi).1 fun e he e' he' heq heq' => ?_
    exact h.entry_eq ⟨sec, hsec, he⟩ ⟨sec, hsec, he'⟩
      (hsame e e' ⟨sec, hsec, he⟩ ⟨sec, hsec, he'⟩ heq heq')
  · intro e e' he he' hp hp'
    rw [hsame e e' he he' (beq_iff_eq.1 hp) (beq_iff_eq.1 hp')]

theorem Sys.entry_of_terminate_session {safe_id : CStr}
    (he : (s.terminate_session_in_secmod safe_id).1.Entry e) : s.Entry e := by
  obtain ⟨sec, hsec, he⟩ := he
  refine Sys.mem_terminate_in_secmod (fun sec e he => ?_) hsec he
  have hfind := ClientDb.find_self he
  unfold SecMod.terminate_session_by_sid at hfind
  split at hfind
  · exact (ClientDb.find_eq_some.1 hfind).1
  · simp only at hfind
    split at hfind
    · exact (ClientDb.find_eq_some.1 hfind).1
    · rw [SecMod.clean_entries_client_db, ClientDb.find_removeFirst] at hfind
      exact (ClientDb.find_eq_some.1 (Option.filter_eq_some_iff.1 hfind).1).1

theorem Sys.entry_of_terminate_user {username : CStr}
    (he : (s.terminate_user_sessions_in_secmod username).1.Entry e) : s.Entry e := by
  obtain ⟨sec, hsec, he⟩ := he
  refine Sys.mem_terminate_in_secmod (fun sec e he => ?_) hsec he
  by_cases hne : username = []
  · simpa only [SecMod.terminate_user_sessions, if_pos hne] using he
  · exact (((sec.terminate_user_sessions_deletes hne).mem e).1 he).1

theorem Sys.WF.terminate_user_iff (h : s.WF) (username : CStr) :
    (∀ e, (s.terminate_user_sessions_in_secmod username).1.Entry e →
        e.acct_info.username ≠ username) ↔
      ∀ e e', s.Entry e → s.Entry e' → e.acct_info.username = username →
        e'.acct_info.username = username →
        username ≠ [] ∧ sec_mod_instance_index_get e.sid = sec_mod_instance_index_get e'.sid := by
  by_cases hne : username = []
  · -- nothing is deleted
    subst hne
    have hidle : (s.terminate_user_sessions_in_secmod []).1 = s := by
      have hrequest : ∀ sec ∈ s.secmods, sec.terminate_user_sessions [] = (sec, false) :=
        fun _ _ => rfl
      simp only [Sys.terminate_user_sessions_in_secmod, Sys.terminate_in_secmod_idle hrequest]
    simp only [hidle, ne_eq, not_true_eq_false, false_and]
    exact ⟨fun hno e _ he _ heq _ => hno e he heq, fun hno e he heq => hno e e he he heq heq⟩
  · have hdeletes : ∀ sec ∈ s.secmods, sec.Deletes (fun e => e.acct_info.username == username)
        (sec.terminate_user_sessions username) :=
      fun sec _ => sec.terminate_user_sessions_deletes hne
    have hiff := Sys.terminate_in_secmod_iff hdeletes
    rw [h.pairwise_has_iff] at hiff
    simp only [beq_iff_eq] at hiff
    simp only [ne_eq, hne, not_false_eq_true, true_and]
    rw [← hiff]
    constructor
    · rintro hno sec hsec ⟨e, he, heq⟩
      exact hno e ⟨sec, hsec, he⟩ (beq_iff_eq.1 heq)
    · rintro hno e ⟨sec, hsec, he⟩ heq
      exact hno sec hsec ⟨e, he, beq_iff_eq.2 heq⟩

/-! ## The workers -/

theorem Main.map_store {α : Type} {f : Proc → α} {m : Main} (hids : (m.procs.map Proc.id).Nodup)
    (hmem : p ∈ m.procs) (hid : q.id = p.id) (hf : f q = f p) :
    (m.store q).procs.map f = m.procs.map f := by
  simp only [Main.store, List.map_map]
  refine List.map_congr_left fun r hr => ?_
  simp only [Function.comp_apply]
  split
  · next heq =>
    obtain rfl := List.inj_on_of_nodup_map hids hr hmem (heq.trans hid)
    exact hf
  · rfl

/-- The session of a worker. -/
def Proc.link (p : Proc) : Nat × Sid × Bool := (p.id, p.sid, p.active_sid)

theorem Sys.foldl_signalled_link {procs : List Proc} (hids : (s.main.procs.map Proc.id).Nodup)
    (hsub : procs.Sublist s.main.procs) :
    (procs.foldl Sys.signalled s).main.procs.map Proc.link = s.main.procs.map Proc.link := by
  have hfst : ∀ s₁ : Sys, s₁.main.procs.map Proc.link = s.main.procs.map Proc.link →
      (s₁.main.procs.map Proc.id).Nodup := by
    intro s₁ heq
    have hmap := congrArg (List.map Prod.fst) heq
    rw [List.map_map, List.map_map] at hmap
    exact hmap.symm ▸ hids
  have hlocal : Local fun s₁ => s₁.main.procs.map Proc.link = s.main.procs.map Proc.link :=
    { quiet := fun h hq _ => hq.procs.symm ▸ h
      update := by
        intro s₁ p p' h hfind hsame
        have hlink : p'.link = p.link := by
          simp only [Proc.link, hsame.id, hsame.sid, hsame.active_sid]
        have hmem := (Main.find_proc_eq_some hfind).1
        exact (Main.map_store (hfst s₁ h) hmem hsame.id hlink).trans h }
  exact hlocal.foldl_signalled rfl (hids.sublist (hsub.map _))
    fun p hp => Main.find_proc_of_mem hids (hsub.subset hp)

theorem Sys.foldl_signalled_secmods (procs : List Proc) (s : Sys) :
    (procs.foldl Sys.signalled s).secmods = s.secmods := by
  induction procs generalizing s with
  | nil => rfl
  | cons p procs ih => exact ih (s.signalled p)

theorem Sys.sigterm_mem_foldl_signalled {procs : List Proc} {id : Nat} :
    .sigterm id ∈ (procs.foldl Sys.signalled s).main.log ↔
      .sigterm id ∈ s.main.log ∨ ∃ p ∈ procs, p.id = id := by
  induction procs generalizing s with
  | nil => simp
  | cons p procs ih =>
    rw [List.foldl_cons, ih, List.exists_mem_cons_iff, ← or_assoc]
    refine or_congr_left ?_
    change .sigterm id ∈ .sigterm p.id :: s.main.log ↔ _
    rw [List.mem_cons, Effect.sigterm.injEq, or_comm, eq_comm]

namespace Sys.Termination

variable {t : Termination}

theorem mem_disconnects (hp : p ∈ s.main.procs) :
    p ∈ t.event.disconnects s.main ↔ t.Reaches s p := by
  cases t with
  | user username => simp [event, Event.disconnects, Reaches, hp]
  | id n => simp [event, Event.disconnects, Reaches, connection]
  | session safe_id => simp [event, Event.disconnects, Reaches]

/-- The state `s'` after the command. -/
structure Result (s : Sys) (t : Termination) (s' : Sys) : Prop where
  main : s'.main = ((t.event.disconnects s.main).foldl Sys.signalled s).main
  entry : ∀ e, s'.Entry e → s.Entry e
  gone_iff : (∀ e, s'.Entry e → ¬ t.Covers s e) ↔
    ∀ username, t = .user username → ∀ e e', s.Entry e → s.Entry e' →
      e.acct_info.username = username → e'.acct_info.username = username →
      username ≠ [] ∧ sec_mod_instance_index_get e.sid = sec_mod_instance_index_get e'.sid

theorem entry_of_signalled (procs : List Proc) :
    (procs.foldl Sys.signalled s).Entry e ↔ s.Entry e := by
  simp only [Sys.Entry, Sys.foldl_signalled_secmods]

/-- The commands that name one session leave no entry of it. -/
theorem Result.of_gone (hmain : s'.main = ((t.event.disconnects s.main).foldl Sys.signalled s).main)
    (hentry : ∀ e, s'.Entry e → s.Entry e) (hgone : ∀ e, s'.Entry e → ¬ t.Covers s e)
    (ht : ∀ username, t ≠ .user username) : Result s t s' :=
  ⟨hmain, hentry, fun _ username heq => absurd heq (ht username), fun _ => hgone⟩

theorem result_user (h : s.WF) (env : MainEnv) (username : CStr) :
    Result s (.user username) (s.administered (.terminate_user username)) := by
  have hsub := Event.disconnects_sublist s.main (.terminate_user username)
  have hwf := (Sys.WF.phases env).toLocal.foldl_signalled h (h.ids.sublist (hsub.map _))
    fun p hp => Main.find_proc_of_mem h.ids (hsub.subset hp)
  have hiff := hwf.terminate_user_iff username
  simp only [entry_of_signalled] at hiff
  refine ⟨rfl, fun e he => (entry_of_signalled _).1 (Sys.entry_of_terminate_user he), ?_⟩
  simp only [Covers, Termination.user.injEq, forall_eq']
  exact hiff

theorem result_id (h : s.WF) (hids : s.DistinctIds) (env : MainEnv) (n : Int) :
    Result s (.id n) (s.administered (.terminate_id n)) := by
  cases hfind : connection s n with
  | none =>
    have hsame : s.administered (.terminate_id n) = s := by
      rw [Sys.administered, Event.disconnects, show s.main.procs.find? _ = none from hfind]
      rfl
    rw [hsame]
    refine .of_gone ?_ (fun e he => he) ?_ (by simp)
    · rw [event, Event.disconnects, show s.main.procs.find? _ = none from hfind]
      rfl
    · rintro e - ⟨p, hp, -⟩
      simp [hfind] at hp
  | some p =>
    have hwf : (s.signalled p).WF := (Sys.WF.phases env).toLocal.signalled h
      (Main.find_proc_of_mem h.ids (List.mem_of_find?_eq_some hfind))
    have hdone : s.administered (.terminate_id n) =
        ((s.signalled p).terminate_session_in_secmod (Platform.calc_safe_id p.sid)).1 := by
      rw [Sys.administered, Event.disconnects, show s.main.procs.find? _ = some p from hfind]
      rfl
    rw [hdone]
    refine .of_gone ?_ (fun e he => Sys.entry_of_terminate_session he) ?_ (by simp)
    · rw [event, Event.disconnects, show s.main.procs.find? _ = some p from hfind]
      rfl
    · rintro e he ⟨q, hq, -, hsid⟩
      obtain rfl := Option.some.inj (hfind.symm.trans hq)
      have hsafe := h.entry_safe_id (Sys.entry_of_terminate_session he)
      obtain ⟨sec, hsec, he⟩ := he
      refine hwf.terminate_session hids _ sec hsec ⟨e, he, ?_⟩
      rw [beq_iff_eq, hsafe, hsid]

theorem result_session (h : s.WF) (hids : s.DistinctIds) (safe_id : CStr) :
    Result s (.session safe_id) (s.administered (.terminate_session safe_id)) := by
  unfold Sys.administered
  dsimp only
  split
  · next hempty =>
    refine .of_gone rfl (fun e he => he) (fun e he heq => ?_) (by simp)
    -- a printable identifier is not empty
    have hlen := Platform.calc_safe_id_length e.sid
    rw [← h.entry_safe_id he, show e.acct_info.safe_id = safe_id from heq, hempty] at hlen
    simp at hlen
  · refine .of_gone rfl (fun e he => Sys.entry_of_terminate_session he) ?_ (by simp)
    rintro e ⟨sec, hsec, he⟩ heq
    exact h.terminate_session hids safe_id sec hsec ⟨e, he, beq_iff_eq.2 heq⟩

theorem step_result (h : s.WF) (hids : s.DistinctIds) (t : Termination) (env : Env) :
    ∃ s', Step s (t.event, env) s' ∧ Result s t s' := by
  refine ⟨s.administered t.event, ⟨Sys.exec_admin h.pid env (by cases t <;> rfl), ?_⟩, ?_⟩
  · intro index env' cmd hev
    cases t <;> cases hev
  · cases t with
    | user username => exact result_user h (env 0) username
    | id n => exact result_id h hids (env 0) n
    | session safe_id => exact result_session h hids safe_id

/-! ## Sessions that have ended -/

/-- An identifier without a usable entry gets none until it is issued again. -/
theorem spent_step {sid : Sid} {l : Event × Env} (h : s.WF)
    (hspent : ∀ sec ∈ s.secmods, sec.Spent sid) (hl : ¬ l.1.Issues sid)
    (hstep : Step s l s') : ∀ sec ∈ s'.secmods, sec.Spent sid := by
  have hall : ∀ (i : Nat) (sec : SecMod), s.secmods[i]? = some sec →
      sec.Spent sid ∧ sec.sec_mod_instance_index = i :=
    fun i sec hsec => ⟨hspent sec (List.mem_of_getElem? hsec), (h.secmods i sec hsec).2⟩
  have hall' := Sys.forall_secmods_step h (fun i sec env c hc hsec => ?_) hall hstep
  · intro sec hsec
    obtain ⟨i, hi⟩ := List.getElem?_of_mem hsec
    exact (hall' i sec hi).1
  · obtain ⟨hpre, hindex⟩ := hsec
    refine ⟨?_, (SecMod.exec_static env sec c).index.trans hindex⟩
    intro e' hfind
    rcases SecMod.exec_entry hfind with
      ⟨req, pid, rfl, ⟨k, bytes, hrnd, heq⟩, -⟩ | ⟨e, he, -, hst⟩
    · -- a new entry has an identifier that was issued just now
      rw [hc trivial] at hl
      exact absurd ⟨k, bytes, hrnd, hindex ▸ heq⟩ hl
    · have hfailed := hpre e he
      simpa [hfailed] using hst

theorem refused_of_spent {sid : Sid} (h : s'.WF) (hidle : s'.Idle)
    (hspent : ∀ sec ∈ s'.secmods, sec.Spent sid)
    {trace : List (Transition Sys (Event × Env))} {s'' : Sys} (hrun : Run (· = s') Step trace s'')
    (hissues : ∀ l ∈ trace, ¬ l.label.1.Issues sid) : ∀ sec ∈ s''.secmods, ∀ env req,
      req.sid = sid.1 →
      ∀ info, (sec.handle_secm_session_open_cmd env req).reply ≠ some (.ok info) := by
  have hlast := Sys.invariant_of_run (X := fun s => ∀ sec ∈ s.secmods, sec.Spent sid)
    (C := fun t => ¬ t.label.1.Issues sid) hrun hissues (by rintro s rfl; exact ⟨h, hidle, hspent⟩)
    fun hwf _ hspent hstep hl => spent_step hwf hspent hl hstep
  intro sec hsec env req hsid info hreply
  have hrun := SecMod.session_open_run env sec req
  generalize sec.handle_secm_session_open_cmd env req = r at hrun hreply
  cases hrun with
  | failed _ hno => exact hno info hreply
  | @wrote e _ _ _ _ _ hfind hreq hst =>
    obtain rfl : e.sid = sid := Subtype.ext (hreq.symm.trans hsid)
    have hfailed := hlast.2.2 sec hsec e hfind
    simp [hst] at hfailed

/-- An entry that is left has none of the sessions that are to end. -/
theorem Result.no_entry (h : s.WF) (hresult : Result s t s')
    (hgone : ∀ e, s'.Entry e → ¬ t.Covers s e) {sid : Sid} (hsid : t.Targets s sid) :
    ∀ sec ∈ s'.secmods, sec.client_db.find sid = none := by
  intro sec hsec
  cases hfind : sec.client_db.find sid with
  | none => rfl
  | some e =>
    obtain ⟨he, rfl⟩ := ClientDb.find_eq_some.1 hfind
    have hleft : s'.Entry e := ⟨sec, hsec, he⟩
    have hsame : ∀ e', s.Entry e' → e'.sid = e.sid → e' = e :=
      fun e' he' hsid' => h.entry_eq he' (hresult.entry e hleft) hsid'
    refine absurd ?_ (hgone e hleft)
    cases t with
    | user username =>
      obtain ⟨e', he', hcovers, hsid'⟩ := hsid
      exact hsame e' he' hsid' ▸ hcovers
    | id n => exact hsid
    | session safe_id =>
      obtain ⟨e', he', hcovers, hsid'⟩ := hsid
      exact hsame e' he' hsid' ▸ hcovers

theorem Result.signalled_iff (h : s.WF) (hresult : Result s t s') :
    (∀ p ∈ s'.main.procs, p.active_sid → t.Targets s p.sid →
        .sigterm p.id ∈ s'.main.log) ↔
      ∀ p ∈ s.main.procs, p.active_sid → t.Targets s p.sid →
        t.Reaches s p ∨ .sigterm p.id ∈ s.main.log := by
  have hsub := t.event.disconnects_sublist s.main
  have hlink := Sys.foldl_signalled_link h.ids hsub
  rw [← hresult.main] at hlink
  have hlog : ∀ p ∈ s.main.procs, .sigterm p.id ∈ s'.main.log ↔
      t.Reaches s p ∨ .sigterm p.id ∈ s.main.log := by
    intro p hp
    rw [hresult.main, Sys.sigterm_mem_foldl_signalled, or_comm, ← mem_disconnects hp]
    refine or_congr_left ⟨?_, fun hin => ⟨p, hin, rfl⟩⟩
    rintro ⟨q, hq, hid⟩
    exact List.inj_on_of_nodup_map h.ids (hsub.subset hq) hp hid ▸ hq
  constructor
  · intro hall p hp hact hsid
    obtain ⟨q, hq, heq⟩ := List.mem_map.1 (hlink ▸ List.mem_map_of_mem hp)
    obtain ⟨hid, hsid', hact'⟩ := by simpa only [Proc.link, Prod.mk.injEq] using heq
    rw [← hlog p hp, ← hid]
    exact hall q hq (hact'.trans hact) (hsid'.symm ▸ hsid)
  · intro hall q hq hact hsid
    obtain ⟨p, hp, heq⟩ := List.mem_map.1 (hlink.symm ▸ List.mem_map_of_mem hq)
    obtain ⟨hid, hsid', hact'⟩ := by simpa only [Proc.link, Prod.mk.injEq] using heq
    rw [← hid, hlog p hp]
    exact hall p hp (hact'.trans hact) (hsid'.symm ▸ hsid)

end Sys.Termination

/-- Main always executes the command, and it ends the sessions it is about exactly if they
are within its reach. -/
theorem termination_complete_iff (h : Reachable Sys.Initial Sys.Step s) (hids : s.DistinctIds)
    (t : Sys.Termination) (env : Sys.Env) :
    ∃ s', Sys.Step s (t.event, env) s' ∧ (t.Completes s s' ↔ t.Terminable s) := by
  obtain ⟨hwf, hidle⟩ := Sys.sound_of_reachable h
  obtain ⟨s', hstep, hresult⟩ := Sys.Termination.step_result hwf hids t env
  refine ⟨s', hstep, ?_, ?_⟩
  · intro hdone
    exact ⟨hresult.gone_iff.1 hdone.gone, (hresult.signalled_iff hwf).1 hdone.signalled⟩
  · intro hterm
    have hgone := hresult.gone_iff.2 hterm.instances
    refine ⟨hgone, (hresult.signalled_iff hwf).2 hterm.workers, ?_⟩
    intro sid hsid trace s'' hrun hissues
    exact Sys.Termination.refused_of_spent (hwf.step hidle hstep) (hidle.step hwf hstep)
      (fun sec hsec e hfind => by simp [hresult.no_entry hwf hgone hsid sec hsec] at hfind) hrun
      hissues

end Termination

/-! ## Two runs -/

section Example

open Sample Sys.Termination

local instance terminationPlatform : Platform := Platform.simple

/-- The command on a user with one session, which a worker holds, ends it. -/
theorem termination_complete_one_session : ∃ P : Platform, ∃ s s' : @Sys P,
    Reachable (@Sys.Initial P) (@Sys.Step P) s ∧ (∃ p ∈ s.main.procs, p.active_sid = true) ∧
      @Completes P s (.user "alice".toList) s' := by
  have hplay : ((start {} [0, 1]).play [login 0 1 "alice".toList "1".toList, connect 5 [49],
      cookie 0 (sid 0 1)]).any (fun s =>
        (∀ sec ∈ s.secmods, ∀ e ∈ sec.client_db.toList, e.sid = sid 0 1) ∧
          (∀ p ∈ s.main.procs, p.username = "alice".toList) ∧
          ∃ p ∈ s.main.procs, p.active_sid = true) := by
    decide +kernel
  obtain ⟨s, hreach, hsids, hnames, hactive⟩ := Sys.exists_of_play (start_initial _ rfl) hplay
  have hsid : ∀ e, s.Entry e → e.sid = sid 0 1 := fun e ⟨sec, hsec, he⟩ => hsids sec hsec e he
  obtain ⟨s', -, hiff⟩ := termination_complete_iff hreach
    (fun e e' he he' _ => (hsid e he).trans (hsid e' he').symm) (.user "alice".toList) fun _ => env
  refine ⟨Platform.simple, s, s', hreach, hactive, hiff.2 ⟨?_, ?_⟩⟩
  · intro username hname e e' he he' _ _
    rw [← Sys.Termination.user.inj hname, hsid e he, hsid e' he']
    simp
  · intro p hp _ _
    exact .inl (hnames p hp)

/-- A user with sessions in two instances keeps one of them. -/
theorem terminated_user_keeps_session : ∃ P : Platform, ∃ s s' : @Sys P, ∃ env,
    Reachable (@Sys.Initial P) (@Sys.Step P) s ∧
      @Sys.Step P s (event (.user "alice".toList), env) s' ∧
      ¬ @Completes P s (.user "alice".toList) s' := by
  have hplay : ((start {} [0, 1]).play [login 0 1 "alice".toList "1".toList,
      login 1 2 "alice".toList "2".toList]).any (fun s =>
        ∃ s' ∈ s.advance (event (.user "alice".toList), fun _ => env), ∃ sec ∈ s'.secmods,
          ∃ e ∈ sec.client_db.toList, e.acct_info.username = "alice".toList) := by
    decide +kernel
  obtain ⟨s, hreach, s', hs', sec, hsec, e, he, hname⟩ :=
    Sys.exists_of_play (start_initial _ rfl) hplay
  exact ⟨Platform.simple, s, s', fun _ => env, hreach, Sys.step_of_advance hs',
    fun hdone => hdone.gone e ⟨sec, hsec, he⟩ hname⟩

end Example
end Ocserv

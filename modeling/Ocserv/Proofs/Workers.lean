import Ocserv.Lib.Members
import Ocserv.Lib.Outcome
import Ocserv.Main.System

/-!
# What the handlers of main do to the workers

Most of what main does while it handles an event leaves the tables, the leases and
the identity of the workers alone.  `Main.Quiet` and `Proc.SameUser` say so.
-/

namespace Ocserv

open Outcome

section Workers

variable [Platform]

/-! ## Quiet changes -/

/-- Only the log, the running scripts and the tables by address differ. -/
structure Main.Quiet (m m' : Main) : Prop where
  vconfig : m'.vconfig = m.vconfig
  procs : m'.procs = m.procs
  db_sid : m'.proc_table.db_sid = m.proc_table.db_sid
  ip_leases : m'.ip_leases = m.ip_leases
  next : m'.next = m.next

theorem Main.Quiet.trans {a b c : Main} (h₁ : a.Quiet b) (h₂ : b.Quiet c) : a.Quiet c :=
  ⟨h₂.1.trans h₁.1, h₂.2.trans h₁.2, h₂.3.trans h₁.3, h₂.4.trans h₁.4, h₂.5.trans h₁.5⟩

/-- Only the log and the running scripts differ. -/
structure Main.Logged (m m' : Main) : Prop where
  vconfig : m'.vconfig = m.vconfig
  procs : m'.procs = m.procs
  proc_table : m'.proc_table = m.proc_table
  ip_leases : m'.ip_leases = m.ip_leases
  next : m'.next = m.next

theorem Main.Logged.refl (m : Main) : m.Logged m := ⟨rfl, rfl, rfl, rfl, rfl⟩

theorem Main.Logged.trans {a b c : Main} (h₁ : a.Logged b) (h₂ : b.Logged c) : a.Logged c :=
  ⟨h₂.1.trans h₁.1, h₂.2.trans h₁.2, h₂.3.trans h₁.3, h₂.4.trans h₁.4, h₂.5.trans h₁.5⟩

theorem Main.Logged.quiet {m m' : Main} (h : m.Logged m') : m.Quiet m' :=
  ⟨h.vconfig, h.procs, congrArg ProcTable.db_sid h.proc_table, h.ip_leases, h.next⟩

/-- What a worker is, and the session and the addresses it holds. -/
structure Proc.Holding where
  id : Nat
  pid : Int
  pid_killed : Bool
  sid : Sid
  active_sid : Bool
  ipv4 : Option IpLease
  ipv6 : Option IpLease
  index : Nat

def Proc.holding (p : Proc) : Proc.Holding where
  id := p.id
  pid := p.pid
  pid_killed := p.pid_killed
  sid := p.sid
  active_sid := p.active_sid
  ipv4 := p.ipv4
  ipv6 := p.ipv6
  index := p.sec_mod_instance_index

/-- The worker holds the same session and the same addresses. -/
structure Proc.SameHolder (p p' : Proc) : Prop where
  holding : p'.holding = p.holding
  status : p'.status = .inactive → p.status = .inactive
  /-- a disconnect command is not forgotten -/
  invalidated : p.invalidated → p'.invalidated

namespace Proc.SameHolder

variable {p p' : Proc} (h : p.SameHolder p')
include h

omit [Platform]

theorem id : p'.id = p.id := congrArg Holding.id h.holding

theorem pid : p'.pid = p.pid := congrArg Holding.pid h.holding

theorem pid_killed : p'.pid_killed = p.pid_killed := congrArg Holding.pid_killed h.holding

theorem sid : p'.sid = p.sid := congrArg Holding.sid h.holding

theorem active_sid : p'.active_sid = p.active_sid := congrArg Holding.active_sid h.holding

theorem ipv4 : p'.ipv4 = p.ipv4 := congrArg Holding.ipv4 h.holding

theorem ipv6 : p'.ipv6 = p.ipv6 := congrArg Holding.ipv6 h.holding

theorem index : p'.sec_mod_instance_index = p.sec_mod_instance_index :=
  congrArg Holding.index h.holding

end Proc.SameHolder

/-- The worker also serves the same user. -/
structure Proc.SameUser (p p' : Proc) : Prop extends p.SameHolder p' where
  username : p'.username = p.username
  config : p'.config = p.config
  vhost : p'.vhost = p.vhost

omit [Platform] in
theorem Proc.SameUser.refl (p : Proc) : p.SameUser p :=
  ⟨⟨rfl, fun h => h, fun h => h⟩, rfl, rfl, rfl⟩

/-- The part of a worker that its connect phase is about. -/
structure Proc.Profile where
  id : Nat
  hostname : CStr
  status : PsAuth
  active_sid : Bool
  config : Option GroupCfg
  vhost : Option VhostCfg
  applied_iroutes : Bool

def Proc.profile (p : Proc) : Proc.Profile where
  id := p.id
  hostname := p.hostname
  status := p.status
  active_sid := p.active_sid
  config := p.config
  vhost := p.vhost
  applied_iroutes := p.applied_iroutes

namespace Main

variable {env : MainEnv} {m m' : Main} {p p' : Proc} {ret : Int}

theorem emit_logged (m : Main) (e : Effect) : m.Logged (m.emit e) := ⟨rfl, rfl, rfl, rfl, rfl⟩

/-! ### Addresses -/

/-- A new peer address of a worker: the worker is stored before its table is extended, and may
lose its address for DTLS. -/
theorem proc_table_update_ip_eq (m : Main) (p : Proc) (addr : List UInt8) :
    addr = p.remote_addr.addr ∧ addr.length = p.remote_addr.len ∧
        m.proc_table_update_ip p addr = (m, p) ∨
      ∃ p' t len,
        p' = { p with remote_addr := p.remote_addr.copy addr, dtls_remote_addr.len := len } ∧
        m.proc_table_update_ip p addr = ({ m.store p' with proc_table := t }, p') ∧
        t.db_ip =
          (let r := m.proc_table.db_ip.del p.rehash_ip (· == p.id)
          if r.2 then r.1.add (m.store p').rehash_ip p'.rehash_ip p'.id else r.1) ∧
        t.db_dtls_id = m.proc_table.db_dtls_id ∧ t.db_sid = m.proc_table.db_sid := by
  unfold proc_table_update_ip
  split
  · next hsame => exact .inl ⟨hsame.2, hsame.1, rfl⟩
  · extract_lets r p₁ d same buf p₂ m₁ t
    have hp₂ : ∃ len,
        p₂ = { p with remote_addr := p.remote_addr.copy addr, dtls_remote_addr.len := len } := by
      by_cases hsame : same ∧ d.2
      · exact ⟨0, if_pos hsame⟩
      · exact ⟨p.dtls_remote_addr.len, if_neg hsame⟩
    obtain ⟨len, hp₂⟩ := hp₂
    exact .inr ⟨p₂, _, len, hp₂, rfl, rfl, rfl, rfl⟩

/-! ### Finding and storing -/

theorem find_proc_eq_some {id : Nat} (h : m.find_proc id = some p) : p ∈ m.procs ∧ p.id = id :=
  ⟨List.mem_of_find?_eq_some h, by simpa using List.find?_some h⟩

theorem find_proc_of_mem (hids : (m.procs.map Proc.id).Nodup) (hmem : p ∈ m.procs) :
    m.find_proc p.id = some p := by
  obtain ⟨q, hq⟩ : ∃ q, m.find_proc p.id = some q :=
    Option.isSome_iff_exists.1 (List.find?_isSome.2 ⟨p, hmem, by simp⟩)
  obtain ⟨hmem', hid⟩ := find_proc_eq_some hq
  rw [hq, List.inj_on_of_nodup_map hids hmem' hmem hid]

theorem mem_store {q : Proc} :
    q ∈ (m.store p).procs ↔
      q = p ∧ p.id ∈ m.procs.map Proc.id ∨ q ∈ m.procs ∧ q.id ≠ p.id :=
  Members.mem_store

theorem ids_store (m : Main) (p : Proc) : (m.store p).procs.map Proc.id = m.procs.map Proc.id :=
  Members.map_store

theorem store_store {q : Proc} (hid : q.id = p.id) : (m.store p).store q = m.store q :=
  congrArg (fun procs => { m with procs }) (Members.store_store hid)

theorem store_comm {q : Proc} (hne : p.id ≠ q.id) :
    (m.store p).store q = (m.store q).store p :=
  congrArg (fun procs => { m with procs }) (Members.store_comm hne)

theorem store_self (hids : (m.procs.map Proc.id).Nodup) (hmem : p ∈ m.procs) : m.store p = m :=
  congrArg (fun procs => { m with procs }) (Members.store_self hids hmem)

theorem find_proc_store {id : Nat} :
    (m.store p).find_proc id =
      if id = p.id then (m.find_proc id).map fun _ => p else m.find_proc id :=
  Members.find?_store id

theorem find_proc_isSome {id : Nat} :
    (∃ q, m.find_proc id = some q) ↔ id ∈ m.procs.map Proc.id := by
  rw [← Option.isSome_iff_exists, find_proc, List.find?_isSome, List.mem_map]
  simp

/-! ### The cookie request -/

end Main

/-- The worker `p₁` is `p` with the session that sec-mod describes, which is not yet its
own. -/
structure Proc.Loaded (vconfig : VConfig) (info : SessionInfo) (p p₁ : Proc) : Prop where
  same : p.SameHolder p₁
  config : p₁.config = some (session_config vconfig info.vhost info.config)
  vhost : p₁.vhost = some (find_vhost vconfig info.vhost)
  username : p₁.username = strlcpy info.username MAX_USERNAME_SIZE
  profile : p₁.profile = { p.profile with config := p₁.config, vhost := p₁.vhost }
  dtls_remote_addr : p₁.dtls_remote_addr = p.dtls_remote_addr

/-- A worker whose request has not been granted. -/
structure Proc.Waits (p p₁ : Proc) : Prop extends p.SameUser p₁ where
  profile : p₁.profile = p.profile
  dtls_remote_addr : p₁.dtls_remote_addr = p.dtls_remote_addr

/-- What the previous owner keeps: a copy of its leases that is not registered. -/
def Proc.robbed (old : Proc) (next : Nat) : Proc :=
  { old with
    ipv4 := old.ipv4.map (Main.copy_lease · next)
    ipv6 := old.ipv6.map (Main.copy_lease · (next + 1))
    pid_killed := true }

/-- What the new owner gets. -/
def Proc.heir (p old : Proc) : Proc := { p with ipv4 := old.ipv4, ipv6 := old.ipv6 }

theorem Main.take_over_snd {m : Main} {old p : Proc} : (m.take_over old p).2 = p.heir old := by
  simp only [take_over, steal_ip_leases]
  rfl

theorem Main.take_over_fst {m : Main} {old p : Proc} (hpid : 0 < old.pid) :
    (m.take_over old p).1 =
      ({ m with next := m.next + 2 }.emit (.sigterm old.id)).store (old.robbed m.next) := by
  simp only [take_over, steal_ip_leases, hpid, if_true, kill_proc]
  rfl

/-- The possible outcomes of `handle_auth_cookie_req` for the cookie of the session `sid`. -/
inductive CookieStep (env : MainEnv) (m : Main) (sec : SecMod) (p : Proc)
    (req : AuthCookieRequestMsg) (sid : Sid) : Main → SecMod → Proc → Int → Prop
  /-- sec-mod is not asked -/
  | refused {p₁ : Proc} : p.Waits p₁ → CookieStep env m sec p req sid m sec p₁ (-1)
  /-- sec-mod does not open the session -/
  | unopened {p₁ : Proc} : p.Waits p₁ →
      (∀ info, (sec.handle_secm_session_open_cmd env.sec (p.openMsg sid)).reply ≠
        some (.ok info)) →
      CookieStep env m sec p req sid m
        (sec.handle_secm_session_open_cmd env.sec (p.openMsg sid)).sec p₁ (-1)
  /-- sec-mod has opened the session, and main does not accept it -/
  | lost {info : SessionInfo} {p₁ : Proc} :
      (sec.handle_secm_session_open_cmd env.sec (p.openMsg sid)).reply = some (.ok info) →
      roaming_denied (session_config m.vconfig info.vhost info.config) p.remote_addr
        info.ip = true ∨
        (∃ old, m.proc_search_sid sid = some old ∧
          strlcpy info.username MAX_USERNAME_SIZE ≠ old.username) →
      p.Loaded m.vconfig info p₁ →
      CookieStep env m sec p req sid m
        (sec.handle_secm_session_open_cmd env.sec (p.openMsg sid)).sec p₁ (-1)
  /-- the session becomes that of the worker -/
  | fresh {info : SessionInfo} {p₁ : Proc} :
      (sec.handle_secm_session_open_cmd env.sec (p.openMsg sid)).reply = some (.ok info) →
      m.proc_search_sid sid = none → p.Loaded m.vconfig info p₁ →
      CookieStep env m sec p req sid (m.attach p₁ sid req.hostname).1
        (sec.handle_secm_session_open_cmd env.sec (p.openMsg sid)).sec
        (m.attach p₁ sid req.hostname).2 0
  /-- the session is taken over from another worker -/
  | taken {info : SessionInfo} {old p₁ : Proc} :
      (sec.handle_secm_session_open_cmd env.sec (p.openMsg sid)).reply = some (.ok info) →
      m.proc_search_sid sid = some old → old.invalidated = false →
      strlcpy info.username MAX_USERNAME_SIZE = old.username → p.Loaded m.vconfig info p₁ →
      CookieStep env m sec p req sid
        ((m.take_over old p₁).1.attach (p₁.heir old) sid req.hostname).1
        (sec.handle_secm_session_open_cmd env.sec (p.openMsg sid)).sec
        ((m.take_over old p₁).1.attach (p₁.heir old) sid req.hostname).2 0

omit [Platform] in
theorem Proc.loaded_load (vconfig : VConfig) (info : SessionInfo) {p p₁ : Proc}
    (h : p.Waits p₁) : p.Loaded vconfig info (p₁.load vconfig info) :=
  ⟨⟨h.holding, h.status, h.invalidated⟩, rfl, rfl, rfl, by rw [← h.profile]; rfl,
    h.dtls_remote_addr⟩

theorem session_open_cases (env : MainEnv) (vconfig : VConfig) (sec : SecMod) (p : Proc)
    (sid : Sid) :
    let r := sec.handle_secm_session_open_cmd env.sec (p.openMsg sid)
    (∀ info, r.reply ≠ some (.ok info)) ∧ session_open env vconfig sec p sid = (r.sec, p, -1) ∨
      ∃ info, r.reply = some (.ok info) ∧ session_open env vconfig sec p sid =
        (r.sec, p.load vconfig info,
          if roaming_denied (session_config vconfig info.vhost info.config) p.remote_addr info.ip
          then -1 else 0) := by
  intro r
  cases hreply : r.reply with
  | none => exact .inl ⟨by simp, by simp only [session_open, r, hreply]⟩
  | some reply =>
    cases reply with
    | failed => exact .inl ⟨by simp, by simp only [session_open, r, hreply]⟩
    | ok info => exact .inr ⟨info, rfl, by simp only [session_open, r, hreply]⟩

theorem handle_auth_cookie_req_step {env : MainEnv} {m m₁ : Main} {sec sec₁ : SecMod}
    {p p₁ : Proc} {req : AuthCookieRequestMsg} {sid : Sid} {result : Int}
    (hcookie : Sid.ofBytes? req.cookie = some sid)
    (h : m.handle_auth_cookie_req env sec p req = (m₁, sec₁, p₁, result)) :
    CookieStep env m sec p req sid m₁ sec₁ p₁ result := by
  unfold Main.handle_auth_cookie_req at h
  split at h
  · next sid' id hsid _ =>
    obtain rfl := Option.some.inj (hcookie.symm.trans hsid)
    have hid : p.Waits { p with dtls_session_id := id } :=
      ⟨⟨⟨rfl, fun h => h, fun h => h⟩, rfl, rfl, rfl⟩, rfl, rfl⟩
    have hmsg : Proc.openMsg { p with dtls_session_id := id } sid = p.openMsg sid := rfl
    simp only at h
    split at h
    · obtain ⟨rfl, rfl, rfl, rfl⟩ := by simpa only [Prod.mk.injEq] using h
      exact .refused hid
    · next hinv =>
      have hopen := session_open_cases env m.vconfig sec { p with dtls_session_id := id } sid
      rw [hmsg] at hopen
      rcases hopen with ⟨hreply, heq⟩ | ⟨info, hreply, heq⟩
      · rw [heq] at h
        obtain ⟨rfl, rfl, rfl, rfl⟩ := by simpa using h
        exact .unopened hid hreply
      · have hload := Proc.loaded_load m.vconfig info hid
        rw [heq] at h
        cases hroam : roaming_denied (session_config m.vconfig info.vhost info.config)
          p.remote_addr info.ip with
        | true =>
          obtain ⟨rfl, rfl, rfl, rfl⟩ := by simpa [hroam] using h
          exact .lost hreply (.inl hroam) hload
        | false =>
          simp only [hroam, Bool.false_eq_true, if_false, Int.lt_irrefl] at h
          split at h
          · next old hold =>
            split at h
            · next hname =>
              obtain ⟨rfl, rfl, rfl, rfl⟩ := by simpa only [Prod.mk.injEq] using h
              exact .lost hreply (.inr ⟨old, hold, hname⟩) hload
            · next hname =>
              obtain ⟨rfl, rfl, rfl, rfl⟩ := by simpa only [Prod.mk.injEq] using h
              rw [Main.take_over_snd]
              refine .taken hreply hold ?_ (Decidable.not_not.1 hname) hload
              simpa [hold] using hinv
          · next hold =>
            obtain ⟨rfl, rfl, rfl, rfl⟩ := by simpa only [Prod.mk.injEq] using h
            exact .fresh hreply hold hload
  · obtain ⟨rfl, rfl, rfl, rfl⟩ := by simpa only [Prod.mk.injEq] using h
    exact .refused ⟨.refl p, rfl, rfl⟩

end Workers
end Ocserv

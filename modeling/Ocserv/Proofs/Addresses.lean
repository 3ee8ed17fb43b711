import Ocserv.Lib.Runs
import Ocserv.Proofs.System

/-!
# The addresses that workers report

Behind a proxy it is the worker that learns the address of the client, and main takes over
what the worker reports: `CMD_SESSION_INFO` carries byte strings, of which main checks that
they fit into a `sockaddr_storage`.  The functions that hash, compare and print addresses
assume one of two sizes.

`session_info_well_formed` says which reports keep the addresses of all workers well formed:
those in which every address that main does not ignore is well formed itself.
-/

namespace Ocserv

open List Option Outcome Runs

/-! ## Well-formed addresses -/

/-- The size and the family are those of a `sockaddr_in` or of a `sockaddr_in6`. -/
def sockaddr_ok (data : List UInt8) (len : Nat) : Prop :=
  len = 16 ∧ data.take 2 = [2, 0] ∨ len = 28 ∧ data.take 2 = [10, 0]

instance (data : List UInt8) (len : Nat) : Decidable (sockaddr_ok data len) :=
  inferInstanceAs (Decidable (_ ∨ _))

def SockBuf.Ok (buf : SockBuf) : Prop := sockaddr_ok buf.data buf.len

instance (buf : SockBuf) : Decidable buf.Ok := inferInstanceAs (Decidable (sockaddr_ok _ _))

/-- The addresses of the peer and of the server; the latter may be missing. -/
def Proc.AddrsOk (p : Proc) : Prop := p.remote_addr.Ok ∧ (p.our_addr.len = 0 ∨ p.our_addr.Ok)

instance (p : Proc) : Decidable p.AddrsOk := inferInstanceAs (Decidable (_ ∧ _))

/-- The addresses that main does not ignore are well formed. -/
def SessionInfoMsg.Ok (msg : SessionInfoMsg) : Prop :=
  (∀ addr ∈ msg.remote_addr, addr.length ≤ SOCKADDR_STORAGE_SIZE → sockaddr_ok addr addr.length) ∧
    ∀ addr ∈ msg.our_addr, addr.length ≤ SOCKADDR_STORAGE_SIZE ∧ 0 < addr.length →
      sockaddr_ok addr addr.length

instance (msg : SessionInfoMsg) : Decidable msg.Ok := inferInstanceAs (Decidable (_ ∧ _))

theorem sockaddr_ok.two_le {data : List UInt8} {len : Nat} (h : sockaddr_ok data len) :
    2 ≤ len := by
  rcases h with ⟨rfl, -⟩ | ⟨rfl, -⟩
  · decide
  · decide

/-- A copy has the size and the family of the original. -/
theorem SockBuf.copy_ok (buf : SockBuf) (addr : SockAddr) :
    (buf.copy addr).Ok ↔ sockaddr_ok addr addr.length := by
  by_cases hlen : 2 ≤ addr.length
  · have htake : (addr ++ buf.data.drop addr.length).take 2 = addr.take 2 :=
      take_append_of_le_length hlen
    rw [SockBuf.Ok, sockaddr_ok, sockaddr_ok, SockBuf.copy, htake]
  · exact iff_of_false (fun h => hlen h.two_le) fun h => hlen h.two_le

/-- An address that equals the one in the buffer. -/
theorem SockBuf.Ok.addr {buf : SockBuf} (h : buf.Ok) (hlen : buf.addr.length = buf.len) :
    sockaddr_ok buf.addr buf.addr.length := by
  have htake : (buf.data.take buf.len).take 2 = buf.data.take 2 := by
    rw [take_take, min_eq_left h.two_le]
  rw [hlen, sockaddr_ok, SockBuf.addr, htake]
  exact h

section Addresses

variable [Platform]

variable {m m' : Main} {p p' : Proc} {env : MainEnv} {msg : SessionInfoMsg} {w : Nat}

/-! ## One message -/

/-- No worker but the one with the identity `w` has been written. -/
structure Main.WritesOnly (w : Nat) (m m' : Main) : Prop where
  vconfig : m'.vconfig = m.vconfig
  procs : ∀ q : Proc, q.id = w → (m'.store q).procs = (m.store q).procs

namespace Main.WritesOnly

theorem refl (w : Nat) (m : Main) : WritesOnly w m m := ⟨rfl, fun _ _ => rfl⟩

theorem logged (h : m.Logged m') : WritesOnly w m m' :=
  ⟨h.vconfig, fun q _ => by simp only [Main.store, h.procs]⟩

theorem trans {m₁ m₂ : Main} (h₁ : WritesOnly w m m₁) (h₂ : WritesOnly w m₁ m₂) :
    WritesOnly w m m₂ :=
  ⟨h₂.vconfig.trans h₁.vconfig, fun q hq => (h₂.procs q hq).trans (h₁.procs q hq)⟩

end Main.WritesOnly

theorem Main.proc_table_update_ip_ok (m : Main) (hp : p.remote_addr.Ok) (addr : SockAddr) :
    let r := m.proc_table_update_ip p addr
    WritesOnly p.id m r.1 ∧ r.2.id = p.id ∧ r.2.our_addr = p.our_addr ∧
      (r.2.remote_addr.Ok ↔ sockaddr_ok addr addr.length) := by
  intro r
  rcases m.proc_table_update_ip_eq p addr with ⟨haddr, hlen, heq⟩ | ⟨p', t, len, hp', heq, -, -, -⟩
  · rw [show r = (m, p) from heq]
    exact ⟨.refl p.id m, rfl, rfl, iff_of_true hp (haddr ▸ hp.addr (haddr ▸ hlen))⟩
  · have hid : p'.id = p.id := hp' ▸ rfl
    have hwrites : WritesOnly p.id m { m.store p' with proc_table := t } := by
      refine ⟨rfl, fun q hq => ?_⟩
      change ((m.store p').store q).procs = _
      rw [Main.store_store (hq.trans hid.symm)]
    rw [show r = ({ m.store p' with proc_table := t }, p') from heq]
    refine ⟨hwrites, hid, hp' ▸ rfl, ?_⟩
    rw [hp']
    exact p.remote_addr.copy_ok addr

theorem Main.update_remote_addr_ok (env : MainEnv) (m : Main) (hp : p.remote_addr.Ok)
    (addr : SockAddr) :
    let r := m.update_remote_addr env p addr
    WritesOnly p.id m r.1 ∧ r.2.id = p.id ∧ r.2.our_addr = p.our_addr ∧
      (r.2.remote_addr.Ok ↔
        (addr.length ≤ SOCKADDR_STORAGE_SIZE → sockaddr_ok addr addr.length)) := by
  unfold update_remote_addr
  split
  · next hlen =>
    obtain ⟨hwrites, hid, hour, hok⟩ := m.proc_table_update_ip_ok hp addr
    rw [forall_prop_of_true hlen, ← hok]
    -- the worker may be killed, which does not change its addresses
    simp only
    split
    · exact ⟨hwrites.trans (.logged (Main.emit_logged _ _)), hid, hour, Iff.rfl⟩
    · exact ⟨hwrites, hid, hour, Iff.rfl⟩
  · next hlen => exact ⟨.refl p.id m, rfl, rfl, iff_of_true hp fun h => absurd h hlen⟩

omit [Platform] in
theorem Main.update_our_addr_ok (hp : p.our_addr.len = 0 ∨ p.our_addr.Ok) (addr : SockAddr) :
    (update_our_addr p addr).id = p.id ∧ ((update_our_addr p addr).AddrsOk ↔ p.remote_addr.Ok ∧
      (addr.length ≤ SOCKADDR_STORAGE_SIZE ∧ 0 < addr.length → sockaddr_ok addr addr.length)) := by
  unfold update_our_addr
  split
  · next hlen =>
    rw [forall_prop_of_true hlen]
    refine ⟨rfl, and_congr_right fun _ => (or_iff_right ?_).trans (p.our_addr.copy_ok addr)⟩
    exact hlen.2.ne'
  · next hlen => exact ⟨rfl, and_congr_right fun _ => iff_of_true hp fun h => absurd h hlen⟩

/-- A message keeps the addresses of its worker well formed exactly if those in the message
are. -/
theorem Main.update_addrs_ok (env : MainEnv) (m : Main) (hp : p.AddrsOk) (msg : SessionInfoMsg) :
    let r := m.update_addrs env p msg
    WritesOnly p.id m r.1 ∧ r.2.id = p.id ∧ (r.2.AddrsOk ↔ msg.Ok) := by
  have hremote : let r := msg.remote_addr.elim (m, p) (m.update_remote_addr env p)
      WritesOnly p.id m r.1 ∧ r.2.id = p.id ∧ r.2.our_addr = p.our_addr ∧
        (r.2.remote_addr.Ok ↔ ∀ addr ∈ msg.remote_addr,
          addr.length ≤ SOCKADDR_STORAGE_SIZE → sockaddr_ok addr addr.length) := by
    cases msg.remote_addr with
    | none => exact ⟨.refl p.id m, rfl, rfl, iff_of_true hp.1 (by simp)⟩
    | some addr => simpa using m.update_remote_addr_ok env hp.1 addr
  simp only [update_addrs, SessionInfoMsg.Ok]
  obtain ⟨hwrites, hid, hour, hok⟩ := hremote
  rw [← hok]
  cases hmsg : msg.our_addr with
  | none =>
    refine ⟨hwrites, hid, and_congr_right fun _ => iff_of_true (hour ▸ hp.2) (by simp)⟩
  | some addr =>
    obtain ⟨hid', hok'⟩ := Main.update_our_addr_ok
      (p := (msg.remote_addr.elim (m, p) (m.update_remote_addr env p)).2) (hour ▸ hp.2) addr
    exact ⟨hwrites, hid'.trans hid, by simpa using hok'⟩

theorem Main.handle_session_info_ok (hp : p.AddrsOk) (hproxy : m.config.listen_proxy_proto)
    (h : m.handle_session_info env p msg = .ok (m', p')) :
    WritesOnly p.id m m' ∧ p'.id = p.id ∧ (p'.AddrsOk ↔ msg.Ok) := by
  obtain ⟨m₁, host_updated, hemits, heq⟩ := Main.handle_session_info_spec.ok h
  have hproxy₁ : m₁.config.listen_proxy_proto := by
    rwa [Main.config, hemits.logged.vconfig]
  have haddrs := m₁.update_addrs_ok env (p := { p with host_updated }) hp msg
  rw [if_pos hproxy₁] at heq
  rw [← heq] at haddrs
  obtain ⟨hwrites, hid, hok⟩ := haddrs
  exact ⟨(WritesOnly.logged hemits.logged).trans hwrites, hid, hok⟩

/-! ## Runs -/

/-- What changes the addresses of workers. -/
inductive AddrEvent
  /-- a client connects, and a worker is started for it -/
  | new_proc (pid time : Int) (remote_addr our_addr : SockAddr)
  /-- a worker reports addresses -/
  | session_info (w : Nat) (env : MainEnv) (msg : SessionInfoMsg)
  /-- main writes something else into a worker -/
  | change (p : Proc)

/-- The state after an event; none, if the event cannot happen. -/
def Main.addr_step (m : Main) : AddrEvent → Option Main
  | .new_proc pid time remote_addr our_addr =>
    -- the addresses are those of the socket that has been accepted
    if sockaddr_ok remote_addr remote_addr.length ∧
        (our_addr = [] ∨ sockaddr_ok our_addr our_addr.length) then
      some (m.new_proc pid time remote_addr our_addr)
    else none
  | .session_info w env msg =>
    (m.find_proc w).bind fun p =>
      (m.handle_session_info env p msg).toOption.map fun r => r.1.store r.2
  | .change p =>
    (m.find_proc p.id).bind fun q =>
      if p.remote_addr = q.remote_addr ∧ p.our_addr = q.our_addr then some (m.store p) else none

/-- There are no workers yet, and clients come through a proxy. -/
def Main.Proxied (m : Main) : Prop := m.procs = [] ∧ m.config.listen_proxy_proto

/-- The event takes the state `m` to `m'`. -/
def AddrStep (m : Main) (e : AddrEvent) (m' : Main) : Prop := m.addr_step e = some m'

/-- The messages of the run are well formed. -/
def AddrEvent.Ok : AddrEvent → Prop
  | .session_info _ _ msg => msg.Ok
  | _ => True

instance : (e : AddrEvent) → Decidable e.Ok
  | .session_info _ _ msg => inferInstanceAs (Decidable msg.Ok)
  | .new_proc .. => isTrue trivial
  | .change _ => isTrue trivial

/-- The addresses of all workers are well formed. -/
def Main.AddrsOk (m : Main) : Prop := ∀ p ∈ m.procs, p.AddrsOk

namespace Main.AddrsOk

theorem store_iff (h : m.AddrsOk) (hp : p.id ∈ m.procs.map Proc.id) :
    (m.store p).AddrsOk ↔ p.AddrsOk := by
  constructor
  · exact fun h' => h' p (Main.mem_store.2 (.inl ⟨rfl, hp⟩))
  · intro hok q hq
    rcases Main.mem_store.1 hq with ⟨rfl, -⟩ | ⟨hq, -⟩
    · exact hok
    · exact h q hq

theorem session_info (h : m.AddrsOk) (hproxy : m.config.listen_proxy_proto)
    (hfind : m.find_proc w = some p) (hrun : m.handle_session_info env p msg = .ok (m', p')) :
    (m'.store p').vconfig = m.vconfig ∧ ((m'.store p').AddrsOk ↔ msg.Ok) := by
  obtain ⟨hp, rfl⟩ := Main.find_proc_eq_some hfind
  obtain ⟨hwrites, hid, hok⟩ := Main.handle_session_info_ok (h p hp) hproxy hrun
  have hprocs : (m'.store p').AddrsOk ↔ (m.store p').AddrsOk := by
    rw [AddrsOk, AddrsOk, hwrites.procs p' hid]
  exact ⟨hwrites.vconfig, hprocs.trans ((h.store_iff (hid ▸ mem_map_of_mem hp)).trans hok)⟩

theorem step {e : AddrEvent} (h : m.AddrsOk) (hproxy : m.config.listen_proxy_proto)
    (hstep : AddrStep m e m') (he : e.Ok) :
    m'.AddrsOk ∧ m'.config.listen_proxy_proto := by
  cases e with
  | new_proc pid time remote_addr our_addr =>
    simp only [AddrStep, addr_step, ite_none_right_eq_some, some.injEq] at hstep
    obtain ⟨⟨hremote, hour⟩, rfl⟩ := hstep
    refine ⟨?_, hproxy⟩
    intro q hq
    rcases mem_cons.1 hq with rfl | hq
    · refine ⟨(SockBuf.zero.copy_ok _).2 hremote, ?_⟩
      rcases hour with rfl | hour
      · exact .inl rfl
      · exact .inr ((SockBuf.zero.copy_ok _).2 hour)
    · exact h q hq
  | session_info w env msg =>
    simp only [AddrStep, addr_step, bind_eq_some_iff, map_eq_some_iff] at hstep
    obtain ⟨p, hfind, r, hrun, rfl⟩ := hstep
    obtain ⟨hvconfig, hok⟩ := h.session_info hproxy hfind (toOption_eq_some.1 hrun)
    exact ⟨hok.2 he, by rwa [Main.config, hvconfig]⟩
  | change p =>
    simp only [AddrStep, addr_step, bind_eq_some_iff, ite_none_right_eq_some,
      some.injEq] at hstep
    obtain ⟨q, hfind, ⟨hremote, hour⟩, rfl⟩ := hstep
    obtain ⟨hq, hid⟩ := Main.find_proc_eq_some hfind
    refine ⟨(h.store_iff (hid ▸ mem_map_of_mem hq)).2 ?_, hproxy⟩
    rw [Proc.AddrsOk, hremote, hour]
    exact h q hq

theorem reachable (h : ReachableBy Main.Proxied AddrStep (fun t => t.label.Ok) m) :
    m.AddrsOk ∧ m.config.listen_proxy_proto := by
  have hinit : ∀ m : Main, m.Proxied → m.AddrsOk ∧ m.config.listen_proxy_proto := by
    rintro m ⟨hprocs, hproxy⟩
    exact ⟨fun p hp => absurd hp (hprocs ▸ not_mem_nil), hproxy⟩
  exact h.invariant hinit fun m e m' hm hstep he => hm.1.step hm.2 hstep he

end Main.AddrsOk

/-- In every state that well-formed messages have led to the addresses of all workers are well
formed, and of the next message this is true exactly if it is well formed, too: no other
message is ignored. -/
theorem session_info_well_formed (h : ReachableBy Main.Proxied AddrStep (fun t => t.label.Ok) m) :
    m.AddrsOk ∧ ∀ w p env msg m' p', m.find_proc w = some p →
      m.handle_session_info env p msg = .ok (m', p') → ((m'.store p').AddrsOk ↔ msg.Ok) := by
  obtain ⟨hok, hproxy⟩ := Main.AddrsOk.reachable h
  exact ⟨hok, fun w p env msg m' p' hfind hrun => (hok.session_info hproxy hfind hrun).2⟩

end Addresses

section Example

local instance addressesPlatform : Platform := Platform.simple

/-- A port of 192.0.2.`host`. -/
private def inetAddr (host : UInt8) : SockAddr :=
  [2, 0, 1, 187, 192, 0, 2, host, 0, 0, 0, 0, 0, 0, 0, 0]

private def proxied : Main := { vconfig := Sample.vconfig { listen_proxy_proto := true } }

private theorem proxied_proxied : proxied.Proxied := ⟨rfl, rfl⟩

/-- A client connects through the proxy, and its worker reports an address. -/
private def reports (addr : SockAddr) : List AddrEvent :=
  [.new_proc 7 0 (inetAddr 1) (inetAddr 2), .session_info 0 Sample.env ⟨some addr, none⟩]

/-- A worker reports the address of its client: the next report may not be shorter. -/
theorem session_info_well_formed_inet : ∃ P : Platform, ∃ m : @Main P, m.procs ≠ [] ∧ m.AddrsOk ∧
    ¬ SessionInfoMsg.Ok ⟨some [2, 0, 1], none⟩ := by
  obtain ⟨m, hreach, hprocs⟩ := exists_reachableBy_of_exec (f := Main.addr_step)
    (C := fun _ e => e.Ok) (P := fun m => m.procs.map (fun p => p.remote_addr.addr) = [inetAddr 9])
    (reports (inetAddr 9)) proxied_proxied (by decide +kernel)
  refine ⟨addressesPlatform, m, ?_, (session_info_well_formed hreach).1, by decide⟩
  intro hnil
  simp [hnil] at hprocs

/-- A worker reports three bytes as the address of its client. -/
theorem session_info_malformed : ∃ P : Platform, ∃ (m : @Main P) (p : Proc),
    Reachable Main.Proxied AddrStep m ∧ p ∈ m.procs ∧ p.remote_addr.len = 3 := by
  obtain ⟨m, hreach, p, hp, hlen⟩ := exists_reachable_of_exec (f := Main.addr_step)
    (P := fun m => ∃ p ∈ m.procs, p.remote_addr.len = 3)
    (reports [2, 0, 1]) proxied_proxied (by decide +kernel)
  exact ⟨addressesPlatform, m, p, hreach, hp, hlen⟩

end Example
end Ocserv

import Ocserv.Lib.Runs
import Ocserv.Proofs.Tunnel

/-!
# The slot of the TUN device

While a packet waits in the slot, the watcher of the TLS connection and that of the active
DTLS session are stopped.  Two ways lead around them: the periodic timer calls the watchers
directly when gnutls has records, and a DTLS session that completes its handshake becomes the
active one with its watcher running.  In the runs without these no source delivers a packet
while the slot is taken, and none is dropped.
-/

namespace Ocserv

open List Option Runs

namespace Tunnel

/-! ## What is demanded -/

/-- While a packet is pending, the sources that can deliver another are stopped. -/
structure Quiescent (ws : Tunnel) : Prop where
  tls : ws.tun_pending.isSome → ws.tls_watcher = false
  dtls : ws.tun_pending.isSome → ∀ i, (ws.dtls i).udp_state.delivers →
    (ws.dtls i).io = false

/-- No packet has been dropped as the slot was taken. -/
def Lossless (ws : Tunnel) : Prop := ∀ pkt, TunnelEffect.tun_drop pkt ∉ ws.log

/-- No handshake completes while a packet is pending, and the timer finds records of at most
one session, and of none while a packet is pending. -/
def Event.Calm (ws : Tunnel) : Event → Prop
  | .dtls i inputs => ws.tun_pending.isSome → (ws.dtls i).udp_state = .handshake →
      ∀ n, (inputs n).handshake ≠ .done
  | .timer _ records dtls_records =>
    (ws.tun_pending.isSome → records = none ∧ ∀ i, dtls_records i = none) ∧
      (records ≠ none → ∀ i, dtls_records i = none) ∧
        (dtls_records true = none ∨ dtls_records false = none)
  | .command _ _ | .tls _ | .tun _ | .tun_write _ => True

/-! ## The invariant -/

/-- The active session is not being set up, the other one delivers no records. -/
structure Guarded (ws : Tunnel) : Prop where
  lossless : ws.Lossless
  tls : ws.tun_pending.isSome → ws.tls_watcher = false
  io : ws.tun_pending.isSome → ws.active.udp_state.delivers → ws.active.io = false
  current : ws.active.udp_state ≠ .setup ∧ ws.active.udp_state ≠ .handshake
  other : (ws.dtls (!ws.dtls_active_session)).udp_state.delivers = false

variable {ws ws' : Tunnel} {i : Bool}

namespace Guarded

/-- A session that delivers records is the active one. -/
theorem active_of_delivers (h : ws.Guarded) (hi : (ws.dtls i).udp_state.delivers) :
    i = ws.dtls_active_session := by
  by_contra hne
  have hother := h.other
  rw [← Bool.eq_not_of_ne hne, hi] at hother
  cases hother

/-- A session that is being set up is not the active one. -/
theorem other_of_setup (h : ws.Guarded)
    (hi : (ws.dtls i).udp_state = .setup ∨ (ws.dtls i).udp_state = .handshake) :
    i = !ws.dtls_active_session := by
  refine Bool.eq_not_of_ne fun heq => ?_
  subst heq
  rcases hi with hi | hi
  · exact h.current.1 hi
  · exact h.current.2 hi

theorem quiescent (h : ws.Guarded) : ws.Quiescent := by
  refine ⟨h.tls, fun hpending i hi => ?_⟩
  obtain rfl := h.active_of_delivers hi
  exact h.io hpending hi

/-! ## What keeps the invariant -/

/-- The MTU and the packets that are sent make no difference. -/
theorem frame (h : ws.Guarded) (hpending : ws'.tun_pending = ws.tun_pending)
    (htls : ws'.tls_watcher = ws.tls_watcher) (hdtls : ws'.dtls = ws.dtls)
    (hactive : ws'.dtls_active_session = ws.dtls_active_session) (hlossless : ws'.Lossless) :
    ws'.Guarded := by
  have hsame : ws'.active = ws.active := by rw [active, active, hdtls, hactive]
  refine ⟨hlossless, ?_, ?_, ?_, ?_⟩
  · rw [hpending, htls]
    exact h.tls
  · rw [hpending, hsame]
    exact h.io
  · rw [hsame]
    exact h.current
  · rw [hdtls, hactive]
    exact h.other

theorem with_mtu (h : ws.Guarded) (mtu : MtuSt) : { ws with mtu }.Guarded :=
  h.frame rfl rfl rfl rfl h.lossless

theorem emit {e : TunnelEffect} (h : ws.Guarded) (he : ∀ pkt, e ≠ .tun_drop pkt) :
    (ws.emit e).Guarded := by
  refine h.frame rfl rfl rfl rfl fun pkt hmem => ?_
  rcases mem_cons.1 hmem with heq | hmem
  · exact he pkt heq.symm
  · exact h.lossless pkt hmem

/-- The active session may leave and enter the DTLS channel, or be stopped. -/
theorem set_active {d : DtlsSt} (h : ws.Guarded) (hstate : d.udp_state ≠ .setup)
    (hstate' : d.udp_state ≠ .handshake)
    (hio : ws.tun_pending.isSome → d.udp_state.delivers → d.io = false) :
    (ws.set_dtls ws.dtls_active_session d).Guarded := by
  have hactive : (ws.set_dtls ws.dtls_active_session d).active = d := set_dtls_same _ _ _
  refine ⟨h.lossless, h.tls, ?_, ?_, ?_⟩
  · rw [hactive]
    exact hio
  · rw [hactive]
    exact ⟨hstate, hstate'⟩
  · show ((ws.set_dtls _ d).dtls (!ws.dtls_active_session)).udp_state.delivers = false
    rw [set_dtls_of_ne (Bool.not_eq_self _).1]
    exact h.other

/-- The other session may be set up, or be stopped. -/
theorem set_other {d : DtlsSt} (h : ws.Guarded) (hd : d.udp_state.delivers = false) :
    (ws.set_dtls (!ws.dtls_active_session) d).Guarded := by
  have hactive : (ws.set_dtls (!ws.dtls_active_session) d).active = ws.active :=
    set_dtls_of_ne (Bool.eq_not_self _).1 _ _
  refine ⟨h.lossless, h.tls, ?_, ?_, ?_⟩
  · rw [hactive]
    exact h.io
  · rw [hactive]
    exact h.current
  · show ((ws.set_dtls _ d).dtls (!ws.dtls_active_session)).udp_state.delivers = false
    rw [set_dtls_same]
    exact hd

theorem dtls_stop (h : ws.Guarded) (i : Bool) : (ws.dtls_stop i).Guarded := by
  by_cases hi : i = ws.dtls_active_session
  · subst hi
    exact h.set_active nofun nofun nofun
  · obtain rfl := Bool.eq_not_of_ne hi
    exact h.set_other rfl

theorem leave_udp (h : ws.Guarded) (switch : Bool) : (ws.leave_udp switch).Guarded := by
  unfold Tunnel.leave_udp
  split
  · next hleave =>
    refine h.set_active nofun nofun fun hpending _ => h.io hpending ?_
    rw [hleave.2]
    rfl
  · exact h

/-- A session that delivers a record is in the DTLS channel. -/
theorem enter_udp (h : ws.Guarded) (hi : (ws.dtls i).udp_state.delivers) :
    (ws.set_udp_state i .active).Guarded := by
  obtain rfl := h.active_of_delivers hi
  exact h.set_active nofun nofun fun hpending _ => h.io hpending hi

/-! ## Reads -/

/-- A packet that finds the slot free is written or put into the slot, and then the sources
are stopped. -/
theorem tun_enqueue_write {env : RecordEnv} {data : Packet} (h : ws.Guarded)
    (hidle : ws.paused = false) (hwrite : ws.tun_enqueue_write env data = some ws') :
    ws'.Guarded := by
  unfold Tunnel.tun_enqueue_write at hwrite
  rw [if_neg (show ¬ ws.tun_pending.isSome = true from Bool.eq_false_iff.1 hidle)] at hwrite
  split at hwrite
  · exact some.inj hwrite ▸ h.emit nofun
  · cases hwrite
  · cases hwrite
    have hstopped : (ws.set_io ws.dtls_active_session false).Guarded :=
      h.set_active h.current.1 h.current.2 fun _ _ => rfl
    refine ⟨hstopped.lossless, fun _ => rfl, fun _ _ => ?_, hstopped.current, hstopped.other⟩
    show ((ws.set_io ws.dtls_active_session false).dtls ws.dtls_active_session).io = false
    rw [set_io, set_dtls_same]

theorem written {env : RecordEnv} (h : ws.Guarded) (hidle : ws.paused = false)
    (hwritten : Written env ws ws') : ws'.Guarded := by
  cases hwritten with
  | idle => exact h
  | data hwrite => exact h.tun_enqueue_write hidle hwrite

end Guarded

theorem leave_udp_paused (ws : Tunnel) (switch : Bool) :
    (ws.leave_udp switch).paused = ws.paused := by
  unfold leave_udp
  split <;> rfl

namespace Guarded

variable {received : Bool} {env : DtlsEnv} {inputs : Nat → DtlsEnv} {cmd : MainCmd}
  {records : Option (Nat → DtlsEnv)}

theorem tls_mainloop {env : RecordEnv} (h : ws.Guarded) (hidle : ws.paused = false)
    (hread : ws.tls_mainloop env = some (ws', received)) :
    ws'.Guarded := by
  cases tls_mainloop_read hread with
  | idle => exact h
  | record hwritten =>
    apply leave_udp
    exact (h.leave_udp _).written ((leave_udp_paused ws _).trans hidle) hwritten

/-- After its handshake a session becomes the active one. -/
theorem replace_active (h : ws.Guarded) (hidle : ws.paused = false)
    (hi : i = !ws.dtls_active_session) : (ws.replace_active i).Guarded := by
  have hpending : ¬ ws.tun_pending.isSome := Bool.eq_false_iff.1 hidle
  have hnew : (ws.replace_active i).active = { ws.dtls i with udp_state := .active } := by
    subst hi
    exact (set_dtls_of_ne (Bool.eq_not_self _).1 _ _).trans (set_dtls_same _ _ _)
  have hold : (ws.replace_active i).dtls (!(ws.replace_active i).dtls_active_session) =
      { udp_state := .disabled } := set_dtls_same _ _ _
  refine ⟨h.lossless, fun hsome => absurd hsome hpending, fun hsome => absurd hsome hpending,
    ?_, ?_⟩
  · rw [hnew]
    exact ⟨nofun, nofun⟩
  · rw [hold]
    rfl

/-- A session that is served while the slot is taken delivers nothing and does not complete its
handshake. -/
theorem dtls_mainloop (h : ws.Guarded)
    (hslot : ws.paused → (ws.dtls i).udp_state.delivers = false ∧
      ((ws.dtls i).udp_state = .handshake → env.handshake ≠ .done))
    (hread : ws.dtls_mainloop i env = some (ws', received)) : ws'.Guarded := by
  have hidle : (ws.dtls i).udp_state.delivers → ws.paused = false := by
    intro hdelivers
    refine Bool.eq_false_iff.2 fun hpaused => ?_
    rw [(hslot hpaused).1] at hdelivers
    cases hdelivers
  cases dtls_mainloop_read hread with
  | idle => exact h
  | closed => exact h.dtls_stop i
  | probe hdelivers => exact (h.enter_udp hdelivers).with_mtu _
  | record hdelivers hwritten => exact (h.enter_udp hdelivers).written (hidle hdelivers) hwritten
  | setup hstate =>
    obtain rfl := h.other_of_setup (.inl hstate)
    exact (h.set_other rfl).with_mtu _
  | waiting => exact h.with_mtu _
  | failed => exact (h.with_mtu _).dtls_stop i
  | done hstate hdone =>
    have hidle : ws.paused = false :=
      Bool.eq_false_iff.2 fun hpaused => (hslot hpaused).2 hstate hdone
    exact (h.with_mtu _).replace_active hidle (h.other_of_setup (.inr hstate))

theorem tun_mainloop {env : TunEnv} (h : ws.Guarded)
    (hread : ws.tun_mainloop env = some (ws', received)) : ws'.Guarded := by
  rcases tun_mainloop_sent hread with rfl | ⟨switch, hsent⟩
  · exact h
  · have hemit : ∀ size, ((ws.leave_udp switch).emit (.dtls_data size)).Guarded :=
      fun size => (h.leave_udp switch).emit nofun
    cases hsent with
    | idle => exact h.leave_udp switch
    | large => exact (hemit _).with_mtu _
    | sent =>
      unfold probe_sent
      split
      · exact (hemit _).with_mtu _
      · exact hemit _

/-! ## Callbacks -/

theorem tls_watcher_cb {inputs : Nat → RecordEnv} (h : ws.Guarded) (hidle : ws.paused = false)
    (hcb : ws.tls_watcher_cb inputs = some ws') : ws'.Guarded :=
  burst_unpaused (fun _ _ _ _ hs hidle hread => hs.tls_mainloop hidle hread) h hidle hcb

/-- While the slot is taken a session is served once only. -/
theorem dtls_watcher_cb (h : ws.Guarded)
    (hslot : ws.paused → (ws.dtls i).udp_state.delivers = false ∧
      ((ws.dtls i).udp_state = .handshake → ∀ n, (inputs n).handshake ≠ .done))
    (hcb : ws.dtls_watcher_cb i inputs = some ws') : ws'.Guarded := by
  have hunpaused : ∀ {n : Nat} {inputs : Nat → DtlsEnv} {s : Tunnel}, s.Guarded →
      s.paused = false → burst (Tunnel.dtls_mainloop i) paused n inputs s = some ws' →
      ws'.Guarded := by
    intro n inputs s hs hidle hburst
    refine burst_unpaused (fun _ s _ _ hs hidle hread => hs.dtls_mainloop ?_ hread) hs hidle hburst
    rw [hidle]
    exact nofun
  obtain ⟨s₁, received, hfirst, hrest⟩ := burst_succ hcb
  have hs₁ : s₁.Guarded :=
    h.dtls_mainloop (fun hpaused => ⟨(hslot hpaused).1, fun hs => (hslot hpaused).2 hs 0⟩) hfirst
  rcases hrest with rfl | ⟨hidle, hburst⟩
  · exact hs₁
  · exact hunpaused hs₁ hidle hburst

theorem tun_watcher_cb {inputs : Nat → TunEnv} (h : ws.Guarded)
    (hcb : ws.tun_watcher_cb inputs = some ws') : ws'.Guarded :=
  burst_invariant (fun _ _ _ _ hs hread => hs.tun_mainloop hread) h hcb

/-- Once the packet has been written no source has to be stopped. -/
theorem tun_write_watcher_cb {write : TunWrite} (h : ws.Guarded)
    (hcb : ws.tun_write_watcher_cb write = some ws') : ws'.Guarded := by
  unfold Tunnel.tun_write_watcher_cb at hcb
  split at hcb
  · exact some.inj hcb ▸ h
  · cases hcb
  · cases hcb
    have hfree : { ws with
        log := ws.tun_pending.toList.map TunnelEffect.tun_write ++ ws.log
        tun_pending := none
        tls_watcher := true
        tun_write_watcher := false }.Guarded := by
      refine ⟨fun pkt hmem => ?_, nofun, nofun, h.current, h.other⟩
      rcases mem_append.1 hmem with hmem | hmem
      · obtain ⟨_, -, heq⟩ := mem_map.1 hmem
        cases heq
      · exact h.lossless pkt hmem
    dsimp only
    split
    · exact hfree.set_active h.current.1 h.current.2 nofun
    · exact hfree

theorem handle_commands_from_main (h : ws.Guarded)
    (hcmd : ws.handle_commands_from_main cmd = some ws') : ws'.Guarded := by
  unfold Tunnel.handle_commands_from_main at hcmd
  split at hcmd
  · cases hcmd
  · exact some.inj hcmd ▸ h
  · exact some.inj hcmd ▸ h.set_other rfl

/-- Setting up a session delivers nothing. -/
theorem invoke_setup (h : ws.Guarded) (hinvoke : ws.invoke_setup i inputs = some ws') :
    ws'.Guarded := by
  unfold Tunnel.invoke_setup at hinvoke
  split at hinvoke
  · next hsetup =>
    refine h.dtls_watcher_cb (fun _ => ?_) hinvoke
    rw [hsetup]
    exact ⟨rfl, nofun⟩
  · exact some.inj hinvoke ▸ h

theorem command_watcher_cb {inputs : Bool → Nat → DtlsEnv} (h : ws.Guarded)
    (hcb : ws.command_watcher_cb cmd inputs = some ws') : ws'.Guarded := by
  simp only [Tunnel.command_watcher_cb, Option.bind_eq_bind, bind_eq_some_iff] at hcb
  obtain ⟨ws₁, hcmd, ws₂, hactive, hother⟩ := hcb
  exact ((h.handle_commands_from_main hcmd).invoke_setup hactive).invoke_setup hother

theorem periodic_check {periodic : Periodic} (h : ws.Guarded)
    (hcheck : ws.periodic_check periodic = some ws') : ws'.Guarded := by
  unfold Tunnel.periodic_check at hcheck
  split at hcheck
  · exact some.inj hcheck ▸ h
  · cases hcheck
  · next udp_silent pmtu =>
    cases hcheck
    split
    · exact h.leave_udp udp_silent
    · exact (h.leave_udp udp_silent).with_mtu _

/-- What the timer finds in gnutls is served as if its watcher had been called. -/
theorem invoke_dtls_if_needed (h : ws.Guarded) (hidle : ws.paused = false)
    (hinvoke : ws.invoke_dtls_if_needed i records = some ws') :
    ws'.Guarded := by
  unfold Tunnel.invoke_dtls_if_needed at hinvoke
  split at hinvoke
  · exact some.inj hinvoke ▸ h
  · split at hinvoke
    · refine h.dtls_watcher_cb ?_ hinvoke
      rw [hidle]
      exact nofun
    · exact some.inj hinvoke ▸ h

/-- The active session is not replaced by a call of its own watcher. -/
theorem dtls_mainloop_session (h : ws.Guarded)
    (hread : ws.dtls_mainloop ws.dtls_active_session env = some (ws', received)) :
    ws'.dtls_active_session = ws.dtls_active_session := by
  cases dtls_mainloop_read hread with
  | record _ hwritten =>
    cases hwritten with
    | idle => rfl
    | data hwrite =>
      unfold Tunnel.tun_enqueue_write at hwrite
      split at hwrite
      · exact some.inj hwrite ▸ rfl
      · split at hwrite
        · exact some.inj hwrite ▸ rfl
        · cases hwrite
        · exact some.inj hwrite ▸ rfl
  | done hstate _ => exact absurd hstate h.current.2
  | _ => rfl

theorem invoke_dtls_if_needed_session (h : ws.Guarded) (hidle : ws.paused = false)
    (hinvoke : ws.invoke_dtls_if_needed ws.dtls_active_session records = some ws') :
    ws'.dtls_active_session = ws.dtls_active_session := by
  unfold Tunnel.invoke_dtls_if_needed at hinvoke
  split at hinvoke
  · exact some.inj hinvoke ▸ rfl
  · split at hinvoke
    · next inputs _ =>
      have hread : ∀ (n : Nat) (s s₁ : Tunnel) (received : Bool),
          s.Guarded ∧ s.dtls_active_session = ws.dtls_active_session → s.paused = false →
          s.dtls_mainloop ws.dtls_active_session (inputs n) = some (s₁, received) →
          s₁.Guarded ∧ s₁.dtls_active_session = ws.dtls_active_session := by
        intro n s s₁ received ⟨hs, hsession⟩ hidle hread
        have hkept : s₁.dtls_active_session = s.dtls_active_session := by
          rw [← hsession] at hread
          exact hs.dtls_mainloop_session hread
        refine ⟨hs.dtls_mainloop ?_ hread, hkept.trans hsession⟩
        rw [hidle]
        exact nofun
      exact (burst_unpaused hread ⟨h, rfl⟩ hidle hinvoke).2
    · exact some.inj hinvoke ▸ rfl

end Guarded

theorem periodic_check_paused {periodic : Periodic} (h : ws.periodic_check periodic = some ws') :
    ws'.paused = ws.paused := by
  unfold periodic_check at h
  split at h
  · exact some.inj h ▸ rfl
  · cases h
  · next udp_silent pmtu =>
    cases h
    rw [← leave_udp_paused ws udp_silent]
    split <;> rfl

namespace Guarded

/-- The timer serves one session at most, and none while the slot is taken. -/
theorem periodic_check_watcher_cb {periodic : Periodic} {records : Option (Nat → RecordEnv)}
    {dtls_records : Bool → Option (Nat → DtlsEnv)} (h : ws.Guarded)
    (hcalm : Event.Calm ws (.timer periodic records dtls_records))
    (hcb : ws.periodic_check_watcher_cb periodic records dtls_records = some ws') :
    ws'.Guarded := by
  simp only [Tunnel.periodic_check_watcher_cb, Option.bind_eq_bind,
    bind_eq_some_iff] at hcb
  obtain ⟨ws₁, hcheck, ws₂, htls, ws₃, hactive, hother⟩ := hcb
  obtain ⟨hpaused, hrecords, hone⟩ := hcalm
  have h₁ := h.periodic_check hcheck
  have hnothing : (∀ i, dtls_records i = none) → ws' = ws₂ := by
    intro hnone
    rw [hnone] at hactive hother
    exact (some.inj hother).symm.trans (some.inj hactive).symm
  cases hslot : ws.paused with
  | true =>
    obtain ⟨rfl, hnone⟩ := hpaused hslot
    rw [hnothing hnone, ← some.inj htls]
    exact h₁
  | false =>
    have hidle : ws₁.paused = false := (periodic_check_paused hcheck).trans hslot
    cases records with
    | some inputs =>
      rw [hnothing (hrecords nofun)]
      exact h₁.tls_watcher_cb hidle htls
    | none =>
      cases htls
      have hone' : dtls_records ws₁.dtls_active_session = none ∨
          dtls_records (!ws₁.dtls_active_session) = none := by
        cases ws₁.dtls_active_session with
        | true => exact hone
        | false => exact hone.symm
      rcases hone' with hnone | hnone
      · rw [hnone] at hactive
        cases hactive
        exact h₁.invoke_dtls_if_needed hidle hother
      · rw [h₁.invoke_dtls_if_needed_session hidle hactive, hnone] at hother
        cases hother
        exact h₁.invoke_dtls_if_needed hidle hactive

/-! ## Steps and runs -/

theorem step {e : Event} (h : ws.Guarded) (hcalm : e.Calm ws) (hstep : ws.Step e ws') :
    ws'.Guarded := by
  rw [Step] at hstep
  cases e with
  | command cmd inputs => exact h.command_watcher_cb hstep
  | tls inputs =>
    simp only [exec] at hstep
    split at hstep
    · next hwatcher =>
      refine h.tls_watcher_cb (Bool.eq_false_iff.2 fun hpaused => ?_) hstep
      rw [h.tls hpaused] at hwatcher
      cases hwatcher
    · cases hstep
  | dtls i inputs =>
    simp only [exec] at hstep
    split at hstep
    · next hio =>
      refine h.dtls_watcher_cb (fun hpaused => ⟨Bool.eq_false_iff.2 fun hi => ?_, hcalm hpaused⟩)
        hstep
      rw [h.quiescent.dtls hpaused i hi] at hio
      cases hio
    · cases hstep
  | tun inputs => exact h.tun_watcher_cb hstep
  | tun_write write =>
    simp only [exec] at hstep
    split at hstep
    · exact h.tun_write_watcher_cb hstep
    · cases hstep
  | timer periodic records dtls_records => exact h.periodic_check_watcher_cb hcalm hstep

theorem start {req : MtuReq} (h : Tunnel.connect req = some ws) : ws.Guarded := by
  obtain ⟨mtu, -, rfl⟩ := map_eq_some_iff.1 h
  refine ⟨nofun, nofun, nofun, ?_, ?_⟩
  · show (if req.udp then UdpState.wait_fd else .disabled) ≠ .setup ∧
      (if req.udp then UdpState.wait_fd else .disabled) ≠ .handshake
    cases req.udp <;> decide
  · show UdpState.delivers (if req.udp then .wait_fd else .disabled) = false
    cases req.udp <;> rfl

end Guarded
end Tunnel

/-- In every run in which no handshake completes while a packet is pending, and in which the
timer finds records of at most one session and of none while a packet is pending, no packet is
dropped, and while a packet is pending every source of packets is stopped. -/
theorem tun_slot_never_busy {req : MtuReq} {trace : List (Transition Tunnel Tunnel.Event)}
    {ws : Tunnel} (hrun : Run (fun ws => Tunnel.connect req = some ws) Tunnel.Step trace ws)
    (hcalm : ∀ t ∈ trace, t.label.Calm t.pre) : ws.Lossless ∧ ws.Quiescent := by
  have hguarded : ws.Guarded := by
    refine Run.invariant_of_forall (fun ws hconnect => ?_) (fun ws e ws' h hstep hcalm => ?_)
      hrun hcalm
    · exact Tunnel.Guarded.start hconnect
    · exact h.step hcalm hstep
  exact ⟨hguarded.lossless, hguarded.quiescent⟩

/-! ## A session that becomes active -/

section Example

private def slotReq : MtuReq where
  proto := .inet
  ipv6 := false
  try_mtu := false
  vinfo_mtu := 1400
  max_crypto_overhead := 64
  udp := true
  crypto_overhead := 57

private def slotStart : Tunnel := (Tunnel.connect slotReq).get (by decide +kernel)

private theorem slotStart_run :
    Run (fun ws => Tunnel.connect slotReq = some ws) Tunnel.Step [] slotStart :=
  .start (some_get _).symm

/-- A packet in the TLS channel, which the TUN device does not take. -/
private def blockedPacket : Tunnel.Event :=
  .tls fun _ =>
    { recv := .record ("STF".toUTF8.toList ++ [1, 0, 1, AC_PKT_DATA, 0, 69]), tun_write := .again }

/-- The client sets up a DTLS session and sends a packet in it. -/
private def newSession : List Tunnel.Event :=
  [.command (.udp_fd true) fun _ _ => { recv := .again },
    .dtls true fun _ => { recv := .again, handshake := .done },
    .dtls true fun n => { recv := if n = 0 then .record [AC_PKT_DATA, 69] else .again }]

/-- A packet is pending while the handshake of a new session completes: the packets of the
session find the slot taken. -/
theorem pending_slot_drops_packet : ∃ req ws,
    Reachable (fun ws => Tunnel.connect req = some ws) Tunnel.Step ws ∧
      ¬ ws.Lossless ∧ ¬ ws.Quiescent := by
  have hplay : (Runs.exec Tunnel.exec (fun _ _ => True) (blockedPacket :: newSession)
      slotStart).any (fun ws => .tun_drop [69] ∈ ws.log ∧ ws.tun_pending.isSome ∧
        (ws.dtls true).udp_state.delivers ∧ (ws.dtls true).io) := by
    decide +kernel
  obtain ⟨ws, hws, hend⟩ := (any_eq_true _ _).1 hplay
  obtain ⟨trace, hrun, -⟩ := slotStart_run.exec hws
  obtain ⟨hdrop, hpending, hdelivers, hio⟩ := of_decide_eq_true hend
  refine ⟨slotReq, ws, ⟨_, hrun⟩, fun hlossless => hlossless [69] hdrop, fun hquiescent => ?_⟩
  rw [hquiescent.dtls hpending true hdelivers] at hio
  cases hio

/-- The handshake goes on while the packet is pending, and the packet is written. -/
private def calmEvents : List Tunnel.Event :=
  [blockedPacket, .command (.udp_fd true) fun _ _ => { recv := .again },
    .dtls true fun _ => { recv := .again }, .tun_write .written, .timer (.check true 1400) none
      fun _ => none]

theorem tun_slot_never_busy_written : ∃ ws : Tunnel, ws.Lossless ∧ ws.Quiescent ∧
    TunnelEffect.tun_write [69] ∈ ws.log := by
  have hplay : (Runs.exec Tunnel.exec (fun _ _ => True) calmEvents slotStart).any
      (fun ws => .tun_write [69] ∈ ws.log) := by
    decide +kernel
  obtain ⟨ws, hws, hwritten⟩ := (any_eq_true _ _).1 hplay
  obtain ⟨trace, hrun, hlabels⟩ := slotStart_run.exec hws
  have hfree := tun_slot_never_busy hrun fun t ht => ?_
  · exact ⟨ws, hfree.1, hfree.2, of_decide_eq_true hwritten⟩
  have hlabel : t.label ∈ calmEvents.reverse := by
    rw [append_nil] at ht
    exact hlabels ▸ mem_map_of_mem ht
  simp only [calmEvents, reverse_cons, reverse_nil, nil_append, cons_append,
    mem_cons, not_mem_nil, or_false] at hlabel
  rcases hlabel with heq | heq | heq | heq | heq <;> rw [heq]
  · exact ⟨fun _ => ⟨rfl, fun _ => rfl⟩, fun _ _ => rfl, .inl rfl⟩
  · trivial
  · intro _ _ _ hno
    cases hno
  · trivial
  · trivial

end Example

end Ocserv

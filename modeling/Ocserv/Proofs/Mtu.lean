import Ocserv.Lib.Runs
import Ocserv.Proofs.Tunnel

/-!
# The bounds of the link MTU

The setter keeps the link MTU above `MIN_MTU` but knows nothing of the MTU that has been
advertised to the client.  What feeds it stays below that bound, except for the answer of
gnutls to a probe of the peer and for the path MTU that the kernel reports for IPv6; and the
negotiation may start below `MIN_MTU` if the configuration does.  In the runs without these
the link MTU stays between the two bounds, and no packet is larger than the client was told.

The path MTU of the TCP connection that `connect_handler` reads has no effect: the link MTU that
it reduces is overwritten right after.
-/

namespace Ocserv

open List Option Runs

/-! ## What is demanded -/

/-- The overhead of a packet of the DTLS channel. -/
def MtuSt.overhead (ws : MtuSt) : UInt32 := ws.dtls_crypto_overhead + ws.dtls_proto_overhead

/-- The link MTU is between its bounds, and the data MTU is what the overhead leaves of it. -/
structure MtuSt.Within (ws : MtuSt) : Prop where
  min : ws.min_mtu ≤ ws.link_mtu
  adv : ws.link_mtu ≤ ws.adv_link_mtu
  data : (ws.data_mtu ws.link_mtu).toNat + ws.overhead.toNat = ws.link_mtu.toNat

/-- No packet of the DTLS channel was larger than advertised. -/
def Tunnel.Fitting (ws : Tunnel) : Prop :=
  ∀ size, .dtls_data size ∈ ws.log → size + ws.mtu.overhead.toNat ≤ ws.mtu.adv_link_mtu.toNat

/-- The kernel reports no path MTU above the advertised one. -/
def MtuSt.PathFits (ws : MtuSt) (path_mtu : Option UInt32) : Prop :=
  ws.proto = .inet6 → ∀ mtu, path_mtu = some mtu → mtu ≤ ws.adv_link_mtu

/-- The MTU that gnutls answers to a probe of the peer is not above the advertised one. -/
def MtuSt.ProbeFits (ws : MtuSt) (env : RecordEnv) : Prop :=
  ∀ plain, env.recv = .record (AC_PKT_DPD_OUT :: plain) →
    env.dtls_mtu (UInt32.ofNat plain.length + 1) + ws.dtls_proto_overhead ≤ ws.adv_link_mtu

structure MtuSt.Fits (ws : MtuSt) (env : DtlsEnv) : Prop where
  probe : ws.ProbeFits env.toRecordEnv
  path : ws.PathFits env.path_mtu
  large : ∀ path_mtu ∈ env.large, ws.PathFits path_mtu

/-- In the event the MTUs that gnutls and the kernel report are not above the advertised
one. -/
def Tunnel.Event.Fits (ws : MtuSt) : Tunnel.Event → Prop
  | .command _ inputs => ∀ i n, ws.Fits (inputs i n)
  | .dtls _ inputs => ∀ n, ws.Fits (inputs n)
  | .tun inputs => ∀ n, ws.PathFits (inputs n).path_mtu
  | .timer _ _ records => ∀ i inputs, records i = some inputs → ∀ n, ws.Fits (inputs n)
  | .tls _ | .tun_write _ => True

/-! ## Changes of the MTU -/

namespace MtuSt

/-- What the setter has to be fed with, and what is known of the bounds. -/
structure Bounded (ws : MtuSt) : Prop where
  min : ws.min_mtu ≤ ws.link_mtu
  adv : ws.link_mtu ≤ ws.adv_link_mtu
  good : ws.last_good_mtu ≤ ws.adv_link_mtu
  bad : ws.last_bad_mtu ≤ ws.adv_link_mtu
  overhead : ws.overhead < ws.min_mtu

/-- A change that leaves the session's constants as they are and keeps the bounds. -/
structure Moves (ws ws' : MtuSt) : Prop where
  proto : ws'.proto = ws.proto
  ipv6 : ws'.ipv6 = ws.ipv6
  adv_link_mtu : ws'.adv_link_mtu = ws.adv_link_mtu
  crypto : ws'.dtls_crypto_overhead = ws.dtls_crypto_overhead
  proto_overhead : ws'.dtls_proto_overhead = ws.dtls_proto_overhead
  bounded : ws.Bounded → ws'.Bounded

variable {ws ws' ws₁ : MtuSt} {mtu : UInt32} {session : Bool} {path_mtu : Option UInt32}

theorem Bounded.min_le_adv (h : ws.Bounded) : ws.min_mtu ≤ ws.adv_link_mtu :=
  UInt32.le_trans h.min h.adv

namespace Moves

theorem refl (ws : MtuSt) : ws.Moves ws := ⟨rfl, rfl, rfl, rfl, rfl, fun h => h⟩

theorem trans (h₁ : ws.Moves ws₁) (h₂ : ws₁.Moves ws') : ws.Moves ws' where
  proto := h₂.proto.trans h₁.proto
  ipv6 := h₂.ipv6.trans h₁.ipv6
  adv_link_mtu := h₂.adv_link_mtu.trans h₁.adv_link_mtu
  crypto := h₂.crypto.trans h₁.crypto
  proto_overhead := h₂.proto_overhead.trans h₁.proto_overhead
  bounded := fun h => h₂.bounded (h₁.bounded h)

theorem overhead (h : ws.Moves ws') : ws'.overhead = ws.overhead := by
  rw [MtuSt.overhead, h.crypto, h.proto_overhead, MtuSt.overhead]

theorem min_mtu (h : ws.Moves ws') : ws'.min_mtu = ws.min_mtu := by
  rw [MtuSt.min_mtu, h.ipv6, MtuSt.min_mtu]

theorem pathFits (h : ws.Moves ws') (hfits : ws.PathFits path_mtu) : ws'.PathFits path_mtu := by
  rwa [PathFits, h.proto, h.adv_link_mtu]

theorem fits {env : DtlsEnv} (h : ws.Moves ws') (hfits : ws.Fits env) : ws'.Fits env := by
  refine ⟨?_, h.pathFits hfits.path, fun path_mtu hmem => h.pathFits (hfits.large path_mtu hmem)⟩
  have hprobe := hfits.probe
  rwa [ProbeFits, h.proto_overhead, h.adv_link_mtu]

end Moves

/-- The setter keeps the bounds if it is fed with no more than the advertised MTU. -/
theorem link_mtu_set_moves (h : ws.Bounded → mtu ≤ ws.adv_link_mtu) :
    ws.Moves (ws.link_mtu_set mtu) := by
  unfold link_mtu_set
  split
  · exact .refl ws
  · next hset =>
    rw [not_or, not_or] at hset
    exact ⟨rfl, rfl, rfl, rfl, rfl, fun hb =>
      ⟨UInt32.not_lt.1 hset.2.2, h hb, hb.good, hb.bad, hb.overhead⟩⟩

/-- The bounds do not depend on whether discovery is on. -/
theorem moves_try_mtu (ws : MtuSt) (try_mtu : Bool) : ws.Moves { ws with try_mtu } :=
  ⟨rfl, rfl, rfl, rfl, rfl, fun h => ⟨h.min, h.adv, h.good, h.bad, h.overhead⟩⟩

theorem disable_mtu_disc_moves (ws : MtuSt) : ws.Moves ws.disable_mtu_disc :=
  (link_mtu_set_moves fun _ => UInt32.le_refl _).trans (moves_try_mtu _ false)

theorem give_up_moves (ws : MtuSt) : ws.Moves ws.give_up := by
  have hdisable := ws.disable_mtu_disc_moves
  refine hdisable.trans (link_mtu_set_moves fun hb => ?_)
  rw [← hdisable.min_mtu]
  exact hb.min_le_adv

theorem two_thirds_le (n : UInt32) : 2 * n / 3 ≤ n := by
  rw [UInt32.le_iff_toNat_le, UInt32.toNat_div, UInt32.toNat_mul]
  refine Nat.le_trans (Nat.div_le_div_right (Nat.mod_le _ _)) ?_
  show 2 * n.toNat / 3 ≤ n.toNat
  omega

theorem mean_le {a b c : UInt32} (ha : a ≤ c) (hb : b ≤ c) : (a + b) / 2 ≤ c := by
  rw [UInt32.le_iff_toNat_le] at ha hb ⊢
  rw [UInt32.toNat_div, UInt32.toNat_add]
  refine Nat.le_trans (Nat.div_le_div_right (Nat.mod_le _ _)) ?_
  show (a.toNat + b.toNat) / 2 ≤ c.toNat
  omega

theorem larger_le {a b c : UInt32} (ha : a ≤ c) (hb : b ≤ c) : larger a b ≤ c := by
  unfold larger
  split
  · exact ha
  · exact hb

theorem mtu_not_ok_moves (hpath : ws.PathFits path_mtu) :
    ws.Moves (ws.mtu_not_ok session path_mtu) := by
  unfold mtu_not_ok
  split
  · exact .refl ws
  · split
    · -- IPv4: the present MTU is bad
      have hbad : ws.Moves { ws with last_bad_mtu := ws.link_mtu } :=
        ⟨rfl, rfl, rfl, rfl, rfl, fun h => ⟨h.min, h.adv, h.good, h.adv, h.overhead⟩⟩
      dsimp only
      split
      · exact hbad.trans (give_up_moves _)
      · refine hbad.trans ?_
        split
        · have hgood : ∀ ws : MtuSt, ws.Moves
              { ws with last_good_mtu := larger (2 * ws.link_mtu / 3) ws.min_mtu } := fun ws =>
            ⟨rfl, rfl, rfl, rfl, rfl, fun h => ⟨h.min, h.adv,
              larger_le (UInt32.le_trans (two_thirds_le _) h.adv) h.min_le_adv, h.bad,
              h.overhead⟩⟩
          exact (hgood _).trans (link_mtu_set_moves fun hb => hb.good)
        · exact link_mtu_set_moves fun hb => hb.good
    · next hproto =>
      cases hmtu : path_mtu with
      | none => exact ws.give_up_moves
      | some mtu =>
        dsimp only
        split
        · exact ws.give_up_moves
        · exact link_mtu_set_moves fun _ => hpath hproto mtu hmtu

theorem mtu_discovery_init_moves (h : ws.Bounded → mtu ≤ ws.adv_link_mtu) :
    ws.Moves (ws.mtu_discovery_init mtu) := by
  have hinit : ∀ ws' : MtuSt, ws.Moves ws' →
      ws.Moves { ws' with last_good_mtu := mtu, last_bad_mtu := mtu } := by
    intro ws' hmoves
    refine ⟨hmoves.proto, hmoves.ipv6, hmoves.adv_link_mtu, hmoves.crypto, hmoves.proto_overhead,
      fun hb => ?_⟩
    have hb' := hmoves.bounded hb
    have hmtu : mtu ≤ ws'.adv_link_mtu := hmoves.adv_link_mtu ▸ h hb
    exact ⟨hb'.min, hb'.adv, hmtu, hmtu, hb'.overhead⟩
  unfold mtu_discovery_init
  dsimp only
  split
  · exact hinit _ ws.disable_mtu_disc_moves
  · exact hinit _ (.refl ws)

theorem mtu_ok_moves (ws : MtuSt) : ws.Moves ws.mtu_ok := by
  unfold mtu_ok
  split
  · exact .refl ws
  · split
    · exact .refl ws
    · have hgood : ws.Moves { ws with last_good_mtu := ws.link_mtu } :=
        ⟨rfl, rfl, rfl, rfl, rfl, fun h => ⟨h.min, h.adv, h.adv, h.bad, h.overhead⟩⟩
      exact hgood.trans (link_mtu_set_moves fun hb => mean_le hb.adv hb.bad)

theorem pmtu_reduce_moves (ws : MtuSt) (pmtu : Int32) :
    ws.Moves (ws.pmtu_reduce pmtu ws.link_mtu) := by
  unfold pmtu_reduce
  split
  · next hless =>
    exact link_mtu_set_moves fun hb => UInt32.le_trans (UInt32.le_of_lt hless.2) hb.adv
  · exact .refl ws

theorem data_mtu_set_moves {dtls_mtu : UInt32 → UInt32}
    (h : dtls_mtu (mtu + 1) + ws.dtls_proto_overhead ≤ ws.adv_link_mtu) :
    ws.Moves (ws.data_mtu_set session dtls_mtu mtu) := by
  unfold data_mtu_set
  split
  · dsimp only
    split
    · exact .refl ws
    · exact link_mtu_set_moves fun _ => h
  · exact .refl ws

/-- What is left of an MTU by the overhead. -/
theorem data_mtu_toNat (h : ws.overhead ≤ mtu) :
    (ws.data_mtu mtu).toNat + ws.overhead.toNat = mtu.toNat := by
  have hdata : ws.data_mtu mtu = mtu - ws.overhead := by
    rw [data_mtu, overhead]
    grind
  rw [hdata, UInt32.toNat_sub_of_le _ _ h]
  exact Nat.sub_add_cancel h

theorem Bounded.within (h : ws.Bounded) : ws.Within :=
  ⟨h.min, h.adv, data_mtu_toNat (UInt32.le_trans (UInt32.le_of_lt h.overhead) h.min)⟩

end MtuSt

/-! ## Changes of the tunnel -/

namespace Tunnel

/-- The MTU is changed within its bounds, and what is sent fits. -/
structure Moves (ws ws' : Tunnel) : Prop where
  mtu : ws.mtu.Moves ws'.mtu
  sends : ws.mtu.Bounded → ∀ size, .dtls_data size ∈ ws'.log → .dtls_data size ∈ ws.log ∨
    size + ws.mtu.overhead.toNat ≤ ws.mtu.adv_link_mtu.toNat

variable {ws ws' ws₁ : Tunnel} {env : RecordEnv} {i : Bool}

namespace Moves

/-- A change that is not about the DTLS channel. -/
theorem of_log (hmtu : ws'.mtu = ws.mtu)
    (hlog : ∀ size, .dtls_data size ∈ ws'.log → .dtls_data size ∈ ws.log) : ws.Moves ws' :=
  ⟨hmtu ▸ .refl _, fun _ size hmem => .inl (hlog size hmem)⟩

theorem of_mtu (hmtu : ws.mtu.Moves ws'.mtu) (hlog : ws'.log = ws.log) : ws.Moves ws' :=
  ⟨hmtu, fun _ _ hmem => .inl (hlog ▸ hmem)⟩

theorem refl (ws : Tunnel) : ws.Moves ws := of_mtu (.refl _) rfl

theorem trans (h₁ : ws.Moves ws₁) (h₂ : ws₁.Moves ws') : ws.Moves ws' := by
  refine ⟨h₁.mtu.trans h₂.mtu, fun hb size hmem => ?_⟩
  rcases h₂.sends (h₁.mtu.bounded hb) size hmem with hold | hfits
  · exact h₁.sends hb size hold
  · rw [h₁.mtu.overhead, h₁.mtu.adv_link_mtu] at hfits
    exact .inr hfits

end Moves

theorem set_dtls_moves (ws : Tunnel) (i : Bool) (d : DtlsSt) : ws.Moves (ws.set_dtls i d) :=
  .of_mtu (.refl _) rfl

theorem leave_udp_moves (ws : Tunnel) (switch : Bool) : ws.Moves (ws.leave_udp switch) := by
  unfold leave_udp
  split
  · exact set_dtls_moves _ _ _
  · exact .refl ws

theorem tun_enqueue_write_moves {data : Packet} (h : ws.tun_enqueue_write env data = some ws') :
    ws.Moves ws' := by
  unfold tun_enqueue_write at h
  split at h
  · cases h
    exact .of_log rfl fun size hmem => by simpa [emit] using hmem
  · split at h
    · cases h
      exact .of_log rfl fun size hmem => by simpa [emit] using hmem
    · cases h
    · cases h
      exact .of_mtu (.refl _) rfl

theorem Written.moves (h : Written env ws ws') : ws.Moves ws' := by
  cases h with
  | idle => exact .refl ws
  | data hwrite => exact tun_enqueue_write_moves hwrite

/-- A probe of the peer moves the MTU as far as gnutls allows it. -/
theorem dtls_dpd_moves {plain : Packet} (hprobe : ws.mtu.ProbeFits env)
    (hpath : ws.mtu.PathFits env.path_mtu) (hrecv : env.recv = .record (AC_PKT_DPD_OUT :: plain)) :
    ws.Moves (ws.dtls_dpd env (plain.length + 1)) := by
  have hset : ws.mtu.Moves
      (if (ws.mtu.data_mtu ws.mtu.link_mtu).toNat < plain.length then
        ws.mtu.data_mtu_set ws.active.dtls_session env.dtls_mtu (UInt32.ofNat plain.length)
      else ws.mtu) := by
    split
    · exact MtuSt.data_mtu_set_moves (hprobe plain hrecv)
    · exact .refl _
  refine .of_mtu ?_ rfl
  unfold dtls_dpd
  dsimp only
  split
  · exact hset.trans (MtuSt.mtu_not_ok_moves (hset.pathFits hpath))
  · exact hset

/-! ## One read of each source -/

theorem tls_mainloop_moves {received : Bool} (h : ws.tls_mainloop env = some (ws', received)) :
    ws.Moves ws' := by
  cases tls_mainloop_read h with
  | idle => exact .refl ws
  | record hwritten =>
    exact ((leave_udp_moves _ _).trans hwritten.moves).trans (leave_udp_moves _ _)

theorem dtls_setup_moves (ws : Tunnel) (i : Bool) : ws.Moves (ws.dtls_setup i) := by
  have hset : ws.mtu.Moves (ws.mtu.link_mtu_set ws.mtu.adv_link_mtu) :=
    MtuSt.link_mtu_set_moves fun _ => UInt32.le_refl _
  exact .of_mtu (hset.trans (MtuSt.mtu_discovery_init_moves fun hb => hb.adv)) rfl

variable {env : DtlsEnv} {received : Bool} {inputs : Nat → DtlsEnv} {cmd : MainCmd}
  {periodic : Periodic}

theorem handshake_mtu_moves (ws : Tunnel) (i : Bool)
    (hlarge : ∀ path_mtu ∈ env.large, ws.mtu.PathFits path_mtu) :
    ws.Moves (ws.handshake_mtu i env) := by
  refine .of_mtu ?_ rfl
  show ws.mtu.Moves (env.large.foldl _ ws.mtu)
  generalize ws.mtu = mtu at hlarge
  generalize env.large = large at hlarge
  induction large generalizing mtu with
  | nil => exact .refl mtu
  | cons path_mtu large ih =>
    obtain ⟨hfirst, hrest⟩ := forall_mem_cons.1 hlarge
    have hmoves : mtu.Moves (mtu.mtu_not_ok (ws.dtls i).dtls_session path_mtu) :=
      MtuSt.mtu_not_ok_moves hfirst
    exact hmoves.trans (ih _ fun path hmem => hmoves.pathFits (hrest path hmem))

theorem dtls_mainloop_moves (hfits : ws.mtu.Fits env)
    (h : ws.dtls_mainloop i env = some (ws', received)) : ws.Moves ws' := by
  have hactive : ws.Moves (ws.set_udp_state i .active) := set_dtls_moves _ _ _
  cases dtls_mainloop_read h with
  | idle => exact .refl ws
  | closed => exact set_dtls_moves _ _ _
  | probe _ hrecv => exact hactive.trans (dtls_dpd_moves hfits.probe hfits.path hrecv)
  | record _ hwritten => exact hactive.trans hwritten.moves
  | setup => exact dtls_setup_moves ws i
  | waiting => exact handshake_mtu_moves ws i hfits.large
  | failed => exact (handshake_mtu_moves ws i hfits.large).trans (set_dtls_moves _ _ _)
  | done => exact (handshake_mtu_moves ws i hfits.large).trans (.of_mtu (.refl _) rfl)

/-- A packet of the TUN device is sent if it fits. -/
theorem emit_moves {size : Nat} (hsize : size ≤ (ws.mtu.data_mtu ws.mtu.link_mtu).toNat) :
    ws.Moves (ws.emit (.dtls_data size)) := by
  refine ⟨.refl _, fun hb n hmem => ?_⟩
  rcases mem_cons.1 hmem with heq | hmem
  · obtain rfl := TunnelEffect.dtls_data.inj heq
    right
    calc n + ws.mtu.overhead.toNat
        ≤ (ws.mtu.data_mtu ws.mtu.link_mtu).toNat + ws.mtu.overhead.toNat :=
          Nat.add_le_add_right hsize _
      _ = ws.mtu.link_mtu.toNat := hb.within.data
      _ ≤ ws.mtu.adv_link_mtu.toNat := UInt32.le_iff_toNat_le.1 hb.adv
  · exact .inl hmem

theorem TunSent.moves {env : TunEnv} (hpath : ws.mtu.PathFits env.path_mtu)
    (h : TunSent env ws ws') : ws.Moves ws' := by
  cases h with
  | idle => exact .refl ws
  | large hsize => exact (emit_moves hsize).trans (.of_mtu (MtuSt.mtu_not_ok_moves hpath) rfl)
  | sent hsize =>
    refine (emit_moves hsize).trans ?_
    unfold probe_sent
    split
    · exact .of_mtu (MtuSt.mtu_ok_moves _) rfl
    · exact .refl _

theorem tun_mainloop_moves {env : TunEnv} (hpath : ws.mtu.PathFits env.path_mtu)
    (h : ws.tun_mainloop env = some (ws', received)) : ws.Moves ws' := by
  rcases tun_mainloop_sent h with rfl | ⟨switch, hsent⟩
  · exact .refl _
  · have hleave := leave_udp_moves ws switch
    exact hleave.trans (hsent.moves (hleave.mtu.pathFits hpath))

/-! ## Callbacks -/

theorem tls_watcher_cb_moves {inputs : Nat → RecordEnv}
    (h : ws.tls_watcher_cb inputs = some ws') : ws.Moves ws' :=
  burst_invariant (fun _ _ _ _ hmoves hread => hmoves.trans (tls_mainloop_moves hread))
    (.refl ws) h

theorem dtls_watcher_cb_moves (hfits : ∀ n, ws.mtu.Fits (inputs n))
    (h : ws.dtls_watcher_cb i inputs = some ws') : ws.Moves ws' := by
  refine burst_invariant (fun n s s₁ _ hmoves hread => ?_) (.refl ws) h
  exact hmoves.trans (dtls_mainloop_moves (hmoves.mtu.fits (hfits n)) hread)

theorem tun_watcher_cb_moves {inputs : Nat → TunEnv}
    (hpath : ∀ n, ws.mtu.PathFits (inputs n).path_mtu)
    (h : ws.tun_watcher_cb inputs = some ws') : ws.Moves ws' := by
  refine burst_invariant (fun n s s₁ _ hmoves hread => ?_) (.refl ws) h
  exact hmoves.trans (tun_mainloop_moves (hmoves.mtu.pathFits (hpath n)) hread)

theorem invoke_setup_moves (hfits : ∀ n, ws.mtu.Fits (inputs n))
    (h : ws.invoke_setup i inputs = some ws') : ws.Moves ws' := by
  unfold invoke_setup at h
  split at h
  · exact dtls_watcher_cb_moves hfits h
  · exact some.inj h ▸ .refl ws

theorem handle_commands_from_main_moves (h : ws.handle_commands_from_main cmd = some ws') :
    ws.Moves ws' := by
  unfold handle_commands_from_main at h
  split at h
  · cases h
  · exact some.inj h ▸ .refl ws
  · exact some.inj h ▸ set_dtls_moves _ _ _

theorem command_watcher_cb_moves {inputs : Bool → Nat → DtlsEnv}
    (hfits : ∀ i n, ws.mtu.Fits (inputs i n)) (h : ws.command_watcher_cb cmd inputs = some ws') :
    ws.Moves ws' := by
  simp only [command_watcher_cb, Option.bind_eq_bind, bind_eq_some_iff] at h
  obtain ⟨ws₁, hcmd, ws₂, hactive, h⟩ := h
  have hmoves₁ := handle_commands_from_main_moves hcmd
  have hmoves₂ := hmoves₁.trans
    (invoke_setup_moves (fun n => hmoves₁.mtu.fits (hfits _ n)) hactive)
  exact hmoves₂.trans (invoke_setup_moves (fun n => hmoves₂.mtu.fits (hfits _ n)) h)

theorem tun_write_watcher_cb_moves {write : TunWrite}
    (h : ws.tun_write_watcher_cb write = some ws') : ws.Moves ws' := by
  unfold tun_write_watcher_cb at h
  split at h
  · exact some.inj h ▸ .refl ws
  · cases h
  · cases h
    refine .of_log ?_ fun size hmem => ?_
    · split <;> rfl
    · have hlog : TunnelEffect.dtls_data size ∈ ws.tun_pending.toList.map
          TunnelEffect.tun_write ++ ws.log := by
        split at hmem <;> exact hmem
      simpa using hlog

theorem periodic_check_moves (h : ws.periodic_check periodic = some ws') :
    ws.Moves ws' := by
  unfold periodic_check at h
  split at h
  · exact some.inj h ▸ .refl ws
  · cases h
  · next udp_silent pmtu =>
    cases h
    refine (leave_udp_moves ws udp_silent).trans ?_
    split
    · exact .refl _
    · exact .of_mtu (MtuSt.pmtu_reduce_moves _ _) rfl

theorem invoke_dtls_if_needed_moves {pending : Option (Nat → DtlsEnv)}
    (hfits : ∀ inputs, pending = some inputs → ∀ n, ws.mtu.Fits (inputs n))
    (h : ws.invoke_dtls_if_needed i pending = some ws') : ws.Moves ws' := by
  unfold invoke_dtls_if_needed at h
  split at h
  · exact some.inj h ▸ .refl ws
  · split at h
    · exact dtls_watcher_cb_moves (hfits _ rfl) h
    · exact some.inj h ▸ .refl ws

theorem periodic_check_watcher_cb_moves {tls : Option (Nat → RecordEnv)}
    {dtls : Bool → Option (Nat → DtlsEnv)}
    (hfits : ∀ i inputs, dtls i = some inputs → ∀ n, ws.mtu.Fits (inputs n))
    (h : ws.periodic_check_watcher_cb periodic tls dtls = some ws') : ws.Moves ws' := by
  simp only [periodic_check_watcher_cb, Option.bind_eq_bind, bind_eq_some_iff] at h
  obtain ⟨ws₁, hcheck, ws₂, htls, ws₃, hactive, h⟩ := h
  have hmoves₂ : ws.Moves ws₂ := by
    refine (periodic_check_moves hcheck).trans ?_
    cases tls with
    | none => exact some.inj htls ▸ .refl ws₁
    | some inputs => exact tls_watcher_cb_moves htls
  have hmoves₃ := hmoves₂.trans (invoke_dtls_if_needed_moves
    (fun inputs heq n => hmoves₂.mtu.fits (hfits _ inputs heq n)) hactive)
  exact hmoves₃.trans (invoke_dtls_if_needed_moves
    (fun inputs heq n => hmoves₃.mtu.fits (hfits _ inputs heq n)) h)

/-! ## Steps and runs -/

/-- The invariant of a run. -/
structure Sound (ws : Tunnel) : Prop where
  bounded : ws.mtu.Bounded
  fitting : ws.Fitting

theorem Sound.moves (h : ws.Sound) (hmoves : ws.Moves ws') : ws'.Sound := by
  refine ⟨hmoves.mtu.bounded h.bounded, fun size hmem => ?_⟩
  rw [hmoves.mtu.overhead, hmoves.mtu.adv_link_mtu]
  rcases hmoves.sends h.bounded size hmem with hold | hnew
  · exact h.fitting size hold
  · exact hnew

theorem Step.moves {e : Event} (hfits : e.Fits ws.mtu) (h : ws.Step e ws') : ws.Moves ws' := by
  rw [Step] at h
  cases e with
  | command cmd inputs => exact command_watcher_cb_moves hfits h
  | tls inputs =>
    simp only [exec] at h
    split at h
    · exact tls_watcher_cb_moves h
    · cases h
  | dtls i inputs =>
    simp only [exec] at h
    split at h
    · exact dtls_watcher_cb_moves hfits h
    · cases h
  | tun inputs => exact tun_watcher_cb_moves hfits h
  | tun_write write =>
    simp only [exec] at h
    split at h
    · exact tun_write_watcher_cb_moves h
    · cases h
  | timer periodic tls dtls => exact periodic_check_watcher_cb_moves hfits h

end Tunnel

/-! ## The negotiation -/

/-- The path MTU of the TCP connection makes no difference to the negotiation. -/
theorem MtuSt.calc_mtu_values_pmtu_reduce (ws : MtuSt) (pmtu : Int32) (mtu : UInt32) (udp : Bool)
    (crypto_overhead : UInt32) : (ws.pmtu_reduce pmtu mtu).calc_mtu_values mtu udp crypto_overhead =
      ws.calc_mtu_values mtu udp crypto_overhead := by
  unfold pmtu_reduce link_mtu_set
  split
  · split <;> rfl
  · rfl

/-- What the peer wishes does not lower the MTU below the minimum. -/
theorem MtuReq.min_mtu_le_negotiated {req : MtuReq} (hmin : req.min_mtu ≤ req.configured) :
    req.min_mtu ≤ req.negotiated := by
  have hsmaller : ∀ {b : UInt32}, req.min_mtu ≤ b → req.min_mtu ≤ smaller req.configured b := by
    intro b hb
    unfold smaller
    split
    · exact hmin
    · exact hb
  unfold negotiated
  split
  · next hlink => exact hsmaller hlink
  · split
    · exact hmin
    · split
      · dsimp only
        split
        · next hlmtu => exact hsmaller hlmtu
        · exact hmin
      · exact hmin

/-- The part of the state that the MTU is negotiated for. -/
def MtuReq.settled (req : MtuReq) : MtuSt :=
  MtuSt.calc_mtu_values { proto := req.proto, ipv6 := req.ipv6, try_mtu := req.try_mtu }
    req.negotiated req.udp req.crypto_overhead

theorem MtuReq.connect_eq {req : MtuReq} {ws : MtuSt} (h : req.connect = some ws) :
    ws = req.settled ∧ ws.overhead < ws.min_mtu ∧ ¬ BUFFER_SIZE < req.negotiated + 16 := by
  simp only [connect, MtuSt.calc_mtu_values_pmtu_reduce] at h
  split at h
  · cases h
  · next hassert =>
    split at h
    · cases h
    · next hsize =>
      cases h
      exact ⟨rfl, Decidable.not_not.1 hassert, hsize⟩

theorem MtuReq.connect_bounded {req : MtuReq} {ws : MtuSt} (hmin : req.min_mtu ≤ req.configured)
    (h : req.connect = some ws) : ws.Bounded := by
  obtain ⟨rfl, hassert, -⟩ := connect_eq h
  exact ⟨min_mtu_le_negotiated hmin, UInt32.le_refl _, UInt32.zero_le, UInt32.zero_le, hassert⟩

/-- In every run of a tunnel with a configured MTU that is large enough, and in which gnutls
and the kernel report no MTU above the advertised one, the link MTU is within its bounds and no
packet is larger than advertised. -/
theorem link_mtu_within {req : MtuReq} (hmin : req.min_mtu ≤ req.configured)
    {trace : List (Transition Tunnel Tunnel.Event)} {ws : Tunnel}
    (hrun : Run (fun ws => Tunnel.connect req = some ws) Tunnel.Step trace ws)
    (hfits : ∀ t ∈ trace, t.label.Fits t.pre.mtu) : ws.mtu.Within ∧ ws.Fitting := by
  have hsound : ws.Sound := by
    refine Run.invariant_of_forall (fun ws hconnect => ?_) (fun ws e ws' h hstep hfits => ?_)
      hrun hfits
    · obtain ⟨mtu, hmtu, rfl⟩ := map_eq_some_iff.1 hconnect
      exact ⟨MtuReq.connect_bounded hmin hmtu, fun size hmem => nomatch hmem⟩
    · exact h.moves (hstep.moves hfits)
  exact ⟨hsound.bounded.within, hsound.fitting⟩

/-! ## Probes of the peer -/

section Example

private def probedReq : MtuReq where
  proto := .inet
  ipv6 := false
  try_mtu := true
  vinfo_mtu := 1400
  max_crypto_overhead := 64
  udp := true
  crypto_overhead := 57

private def probedStart : Tunnel := (Tunnel.connect probedReq).get (by decide +kernel)

private theorem probedStart_run :
    Run (fun ws => Tunnel.connect probedReq = some ws) Tunnel.Step [] probedStart :=
  .start (some_get _).symm

/-- The client sets up a DTLS session. -/
private def sessionEvents : List Tunnel.Event :=
  [.command (.udp_fd true) fun _ _ => { recv := .again },
    .dtls true fun _ => { recv := .again, handshake := .done }]

/-- A DPD packet of 1450 bytes; the records of the session have an overhead of 57 bytes. -/
private def probe : Tunnel.Event :=
  .dtls true fun _ =>
    { recv := .record (AC_PKT_DPD_OUT :: List.replicate 1449 0), dtls_mtu := fun mtu => mtu + 57 }

/-- A packet of the TUN device that fills the MTU. -/
private def fullPacket : Tunnel.Event :=
  .tun fun n => { read := if n = 0 then .packet 1500 else .again }

/-- The peer probes for a larger MTU than the one it was told, and gets it: the next packet of
the TUN device is larger than advertised. -/
theorem link_mtu_above_advertised : ∃ req ws,
    Reachable (fun ws => Tunnel.connect req = some ws) Tunnel.Step ws ∧
      req.min_mtu ≤ req.configured ∧ ¬ ws.mtu.Within ∧ ¬ ws.Fitting := by
  have hplay : (Runs.exec Tunnel.exec (fun _ _ => True) (sessionEvents ++ [probe, fullPacket])
      probedStart).any (fun ws => ws.mtu.adv_link_mtu < ws.mtu.link_mtu ∧ .dtls_data 1449 ∈ ws.log ∧
        ws.mtu.adv_link_mtu.toNat < 1449 + ws.mtu.overhead.toNat) := by
    decide +kernel
  obtain ⟨ws, hws, hend⟩ := (any_eq_true _ _).1 hplay
  obtain ⟨trace, hrun, -⟩ := probedStart_run.exec hws
  obtain ⟨habove, hsent, hlarge⟩ := of_decide_eq_true hend
  exact ⟨probedReq, ws, ⟨_, hrun⟩, by decide, fun hwithin => UInt32.not_lt.2 hwithin.adv habove,
    fun hfitting => Nat.not_lt.2 (hfitting 1449 hsent) hlarge⟩

/-- Without the probe the packet is cut to what was advertised. -/
theorem link_mtu_within_session : ∃ ws : Tunnel, ws.mtu.Within ∧ ws.Fitting ∧
    TunnelEffect.dtls_data 1314 ∈ ws.log := by
  have hplay : (Runs.exec Tunnel.exec (fun _ _ => True) (sessionEvents ++ [fullPacket])
      probedStart).any (fun ws => .dtls_data 1314 ∈ ws.log) := by
    decide +kernel
  obtain ⟨ws, hws, hsent⟩ := (any_eq_true _ _).1 hplay
  obtain ⟨trace, hrun, hlabels⟩ := probedStart_run.exec hws
  have hsound := link_mtu_within (by decide) hrun fun t ht => ?_
  · exact ⟨ws, hsound.1, hsound.2, of_decide_eq_true hsent⟩
  -- no event is a probe or has a report of the kernel
  have hquiet : ∀ (mtu : MtuSt) (handshake : DtlsHandshake),
      mtu.Fits { recv := .again, handshake } := by
    intro mtu handshake
    constructor
    · intro plain hrecv
      cases hrecv
    · intro _ _ hpath
      cases hpath
    · intro path_mtu hmem
      cases hmem
  have hlabel : t.label ∈ (sessionEvents ++ [fullPacket]).reverse := by
    rw [append_nil] at ht
    exact hlabels ▸ mem_map_of_mem ht
  simp only [sessionEvents, cons_append, nil_append, reverse_cons, reverse_nil,
    mem_cons, not_mem_nil, or_false] at hlabel
  rcases hlabel with heq | heq | heq <;> rw [heq]
  · intro n _ _ hpath
    cases hpath
  · exact fun n => hquiet _ _
  · exact fun i n => hquiet _ _

end Example

/-! ## The path MTU at connect time -/

/-- The link MTU that the headers of the peer stand for, if it is large enough. -/
def MtuReq.peer_mtu (req : MtuReq) : Option UInt32 :=
  let lmtu := req.tunnel_mtu + (req.proto.header_size + UDP_HEADER_SIZE) +
    (CSTP_DTLS_OVERHEAD + req.max_crypto_overhead)
  if req.min_mtu ≤ req.link_mtu then some req.link_mtu
  else if req.link_mtu = 0 ∧ 0 < req.tunnel_mtu ∧ req.min_mtu ≤ lmtu then some lmtu
  else none

theorem smaller_le_iff {a b c : UInt32} : smaller a b ≤ c ↔ a ≤ c ∨ b ≤ c := by
  unfold smaller
  simp only [UInt32.le_iff_toNat_le, UInt32.lt_iff_toNat_lt]
  split <;> omega

namespace MtuReq

variable {req : MtuReq}

theorem negotiated_eq :
    req.negotiated = req.peer_mtu.elim req.configured (smaller req.configured) := by
  unfold negotiated peer_mtu
  dsimp only
  split
  · rfl
  · by_cases hlink : req.link_mtu = 0
    · rw [if_neg (by rw [hlink]; decide)]
      by_cases htunnel : 0 < req.tunnel_mtu
      · simp only [hlink, htunnel, true_and, if_true]
        split <;> rfl
      · simp [htunnel]
    · have hpos : 0 < req.link_mtu := by grind
      simp [hpos, hlink]

theorem negotiated_le_iff {mtu : UInt32} :
    req.negotiated ≤ mtu ↔ req.configured ≤ mtu ∨ ∃ peer ∈ req.peer_mtu, peer ≤ mtu := by
  rw [negotiated_eq]
  cases req.peer_mtu with
  | none => simp
  | some peer => simp [smaller_le_iff]

end MtuReq

/-- The MTU in force and the one that is advertised are within the bounds of the configuration and
of the peer, and within the path MTU if one of these bounds is. -/
theorem connect_mtu_within_path_iff {req : MtuReq} {ws : MtuSt} (h : req.connect = some ws) :
    (∀ mtu ∈ [ws.link_mtu, ws.adv_link_mtu], mtu ≤ req.pmtu.toUInt32 ∧ mtu ≤ req.configured ∧
        (req.min_mtu ≤ req.link_mtu → mtu ≤ req.link_mtu)) ↔
      req.configured ≤ req.pmtu.toUInt32 ∨ ∃ peer ∈ req.peer_mtu, peer ≤ req.pmtu.toUInt32 := by
  obtain ⟨rfl, -, -⟩ := MtuReq.connect_eq h
  have hconfig : req.negotiated ≤ req.configured :=
    MtuReq.negotiated_le_iff.2 (.inl (UInt32.le_refl _))
  have hpeer : req.min_mtu ≤ req.link_mtu → req.negotiated ≤ req.link_mtu := fun hmin =>
    MtuReq.negotiated_le_iff.2 (.inr ⟨_, if_pos hmin, UInt32.le_refl _⟩)
  rw [← MtuReq.negotiated_le_iff]
  simpa [MtuReq.settled, MtuSt.calc_mtu_values, hconfig] using fun _ => hpeer

section Example

private def narrowReq : MtuReq := { probedReq with pmtu := 1300 }

/-- The path MTU of the TCP connection is smaller than the MTU of the configuration. -/
theorem path_mtu_ignored : ∃ req ws, MtuReq.connect req = some ws ∧ req.min_mtu.toInt32 ≤ req.pmtu ∧
    ¬ ws.link_mtu ≤ req.pmtu.toUInt32 ∧ ¬ ws.adv_link_mtu ≤ req.pmtu.toUInt32 :=
  ⟨narrowReq, _, rfl, by decide, by decide, by decide⟩

/-- A peer whose link has the same MTU. -/
theorem connect_mtu_within_path_announced : ∃ ws,
    MtuReq.connect { narrowReq with link_mtu := 1300 } = some ws ∧ ws.link_mtu ≤ 1300 := by
  have hwithin := @connect_mtu_within_path_iff { narrowReq with link_mtu := 1300 } _ rfl
  exact ⟨_, rfl, (hwithin.2 (.inr ⟨1300, rfl, by decide⟩) _ (.head _)).1⟩

end Example

end Ocserv

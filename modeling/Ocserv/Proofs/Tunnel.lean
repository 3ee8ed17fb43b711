import Ocserv.Worker.Tunnel

/-!
# What a read of a tunnel does

One inversion lemma for each source: a record of the client is a packet for the TUN device, a
probe of the MTU or nothing to the tunnel; a DTLS session is served according to its state; a
packet of the TUN device is sent in one of the channels.
-/

namespace Ocserv

/-- In this state records are read from the session. -/
def UdpState.delivers : UdpState → Bool
  | .active | .inactive => true
  | _ => false

namespace Tunnel

variable {ws ws' : Tunnel} {received : Bool}

@[simp] theorem set_dtls_same (ws : Tunnel) (i : Bool) (d : DtlsSt) :
    (ws.set_dtls i d).dtls i = d := by
  simp [set_dtls]

theorem set_dtls_of_ne {i j : Bool} (h : j ≠ i) (ws : Tunnel) (d : DtlsSt) :
    (ws.set_dtls i d).dtls j = ws.dtls j := by
  simp [set_dtls, h]

/-! ## Records -/

/-- A record holds a packet for the TUN device, or nothing for the tunnel. -/
inductive Written (env : RecordEnv) (ws : Tunnel) : Tunnel → Prop
  | idle : Written env ws ws
  | data {data : Packet} {ws' : Tunnel} : ws.tun_enqueue_write env data = some ws' →
      Written env ws ws'

section Records

variable {env : RecordEnv}

theorem write_data_written {plain : Packet} (h : ws.write_data env plain = some ws') :
    Written env ws ws' := by
  unfold write_data at h
  split at h
  · exact Option.some.inj h ▸ .idle
  · exact .data h

/-- Only a DPD packet of the DTLS channel is about the MTU. -/
theorem parse_data_cases {head : UInt8} {plain : Packet} {size : Nat} {is_dtls : Bool}
    (h : ws.parse_data env head plain size is_dtls = some ws') :
    (is_dtls ∧ head = AC_PKT_DPD_OUT ∧ ws' = ws.dtls_dpd env size) ∨ Written env ws ws' := by
  unfold parse_data at h
  split at h
  · next hhead =>
    split at h
    · next hdtls => exact .inl ⟨hdtls, hhead, (Option.some.inj h).symm⟩
    · split at h
      · exact Option.some.inj h ▸ .inr .idle
      · cases h
  · split at h
    · cases h
    · split at h
      · split at h
        · exact Option.some.inj h ▸ .inr .idle
        · split at h
          · cases h
          · cases h
          · exact .inr (write_data_written h)
      · split at h
        · exact .inr (write_data_written h)
        · exact Option.some.inj h ▸ .inr .idle

/-- What `tls_mainloop` does: the client may leave the DTLS channel before and after its
record. -/
inductive TlsRead (env : RecordEnv) (ws : Tunnel) : Tunnel → Prop
  | idle : TlsRead env ws ws
  | record {before after : Bool} {ws₁ : Tunnel} : Written env (ws.leave_udp before) ws₁ →
      TlsRead env ws (ws₁.leave_udp after)

theorem parse_cstp_data_written {buf : Packet} (h : ws.parse_cstp_data env buf = some ws') :
    ∃ before, Written env (ws.leave_udp before) ws' := by
  unfold parse_cstp_data at h
  split at h
  · split at h
    · split at h
      · refine ⟨_, (parse_data_cases h).resolve_left ?_⟩
        rintro ⟨hdtls, -⟩
        cases hdtls
      · cases h
    · cases h
  · cases h

theorem tls_mainloop_read (h : ws.tls_mainloop env = some (ws', received)) :
    TlsRead env ws ws' := by
  have hidle : ∀ {r : Bool}, some (ws, r) = some (ws', received) → TlsRead env ws ws' := by
    intro r heq
    cases heq
    exact .idle
  unfold tls_mainloop at h
  split at h
  · cases h
  · exact hidle h
  · split at h
    · exact hidle h
    · cases h
  · split at h
    · cases h
    · split at h
      · exact hidle h
      · split at h
        · obtain ⟨ws₁, hparse, heq⟩ := Option.map_eq_some_iff.1 h
          cases heq
          obtain ⟨before, hwritten⟩ := parse_cstp_data_written hparse
          exact .record hwritten
        · exact hidle h

end Records

/-! ## DTLS sessions -/

/-- What `dtls_mainloop` does. -/
inductive DtlsRead (i : Bool) (env : DtlsEnv) (ws : Tunnel) : Tunnel → Prop
  | idle : DtlsRead i env ws ws
  | closed : (ws.dtls i).udp_state.delivers → DtlsRead i env ws (ws.dtls_stop i)
  | probe {plain : Packet} : (ws.dtls i).udp_state.delivers →
      env.recv = .record (AC_PKT_DPD_OUT :: plain) → DtlsRead i env ws
        ((ws.set_udp_state i .active).dtls_dpd env.toRecordEnv (plain.length + 1))
  | record {ws₁ : Tunnel} : (ws.dtls i).udp_state.delivers →
      Written env.toRecordEnv (ws.set_udp_state i .active) ws₁ → DtlsRead i env ws ws₁
  | setup : (ws.dtls i).udp_state = .setup → DtlsRead i env ws (ws.dtls_setup i)
  | waiting : (ws.dtls i).udp_state = .handshake → DtlsRead i env ws (ws.handshake_mtu i env)
  | failed : (ws.dtls i).udp_state = .handshake →
      DtlsRead i env ws ((ws.handshake_mtu i env).dtls_stop i)
  | done : (ws.dtls i).udp_state = .handshake → env.handshake = .done →
      DtlsRead i env ws ((ws.handshake_mtu i env).replace_active i)

variable {i : Bool} {env : DtlsEnv}

theorem dtls_record_read (hdelivers : (ws.dtls i).udp_state.delivers)
    (h : ws.dtls_record i env = some (ws', received)) : DtlsRead i env ws ws' := by
  have hidle : ∀ {r : Bool}, some (ws, r) = some (ws', received) → DtlsRead i env ws ws' := by
    intro r heq
    cases heq
    exact .idle
  unfold dtls_record at h
  split at h
  · cases h
  · exact hidle h
  · split at h
    · exact hidle h
    · cases h
  · next buf hrecv =>
    cases buf with
    | nil =>
      cases h
      exact .closed hdelivers
    | cons head plain =>
      rw [if_neg (List.cons_ne_nil head plain)] at h
      dsimp only at h
      split at h
      · obtain ⟨ws₁, hparse, heq⟩ := Option.map_eq_some_iff.1 h
        cases heq
        rcases parse_data_cases hparse with ⟨-, rfl, rfl⟩ | hwritten
        · exact .probe hdelivers hrecv
        · exact .record hdelivers hwritten
      · cases h
        exact .record hdelivers .idle

theorem dtls_mainloop_read (h : ws.dtls_mainloop i env = some (ws', received)) :
    DtlsRead i env ws ws' := by
  unfold dtls_mainloop at h
  cases hstate : (ws.dtls i).udp_state with
  | disabled | wait_fd =>
    simp only [hstate] at h
    cases h
    exact .idle
  | active | inactive =>
    simp only [hstate] at h
    exact dtls_record_read (by rw [hstate]; rfl) h
  | setup =>
    simp only [hstate] at h
    split at h
    · cases h
      exact .setup hstate
    · cases h
  | handshake =>
    simp only [hstate] at h
    split at h
    · cases h
      exact .failed hstate
    · cases h
      exact .waiting hstate
    · next hdone =>
      cases h
      exact .done hstate hdone

/-! ## The TUN device -/

/-- What `tun_mainloop` does with a packet of the size `l`. -/
inductive TunSent (env : TunEnv) (ws : Tunnel) : Tunnel → Prop
  | idle : TunSent env ws ws
  | large {size : Nat} : size ≤ (ws.mtu.data_mtu ws.mtu.link_mtu).toNat → TunSent env ws
      { ws.emit (.dtls_data size) with
        mtu := ws.mtu.mtu_not_ok ws.active.dtls_session env.path_mtu }
  | sent {size : Nat} {ret : UInt32} : size ≤ (ws.mtu.data_mtu ws.mtu.link_mtu).toNat →
      TunSent env ws ((ws.emit (.dtls_data size)).probe_sent ret)

theorem compressed_size_le (env : TunEnv) (l : Nat) : compressed_size env l ≤ l := by
  unfold compressed_size
  split
  · split
    · next hless => exact Nat.le_of_lt hless.2
    · exact Nat.le_refl l
  · exact Nat.le_refl l

theorem transmit_sent {env : TunEnv} {l : Nat} (hl : l ≤ (ws.mtu.data_mtu ws.mtu.link_mtu).toNat)
    (h : ws.transmit env l = some ws') : TunSent env ws ws' := by
  have hsize := Nat.le_trans (compressed_size_le env l) hl
  unfold transmit at h
  split at h
  · rw [Option.bind_eq_bind, Option.bind_eq_some_iff] at h
    obtain ⟨⟨ws₁, tls_retry⟩, hsent, h⟩ := h
    dsimp only at h
    split at h
    · cases h
    · cases h
      unfold dtls_sent at hsent
      split at hsent
      · cases hsent
      · cases hsent
        exact .large hsize
      · cases hsent
        exact .sent hsize
      · cases hsent
        exact .sent hsize
  · split at h
    · exact Option.some.inj h ▸ .idle
    · cases h

theorem leave_udp_mtu (ws : Tunnel) (switch : Bool) : (ws.leave_udp switch).mtu = ws.mtu := by
  unfold leave_udp
  split <;> rfl

theorem tun_mainloop_sent {env : TunEnv} (h : ws.tun_mainloop env = some (ws', received)) :
    ws' = ws ∨ ∃ switch, TunSent env (ws.leave_udp switch) ws' := by
  unfold tun_mainloop at h
  split at h
  · cases h
  · cases h
    exact .inl rfl
  · dsimp only at h
    split at h
    · cases h
      exact .inl rfl
    · split at h
      · obtain ⟨ws₁, htransmit, heq⟩ := Option.map_eq_some_iff.1 h
        cases heq
        refine .inr ⟨_, transmit_sent ?_ htransmit⟩
        rw [leave_udp_mtu]
        exact Nat.min_le_right _ _
      · cases h
        exact .inr ⟨_, .idle⟩

end Tunnel
end Ocserv

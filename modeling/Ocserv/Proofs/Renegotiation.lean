import Ocserv.Worker.Certificate

/-!
# Later handshakes of a session

The callback compares the user of the session with the user of the certificate that a
later handshake presents.  It reads the latter with `get_cert_names`, which returns at
once when a name is recorded: the comparison is of the recorded name with itself, and only
the verification of the chain decides.
-/

namespace Ocserv

/-! ## What is demanded -/

/-- A user is recorded and the handshake presents the certificate of another one. -/
structure CertSt.Switches (ws : CertSt) (hs : Handshake) : Prop where
  recorded : ws.cert_username ≠ []
  presents : ∃ crt name, hs.peer = some (.ok crt) ∧ username_of ws.config crt = some (.ok name) ∧
    name ≠ ws.cert_username

/-- The callback returns an error. -/
def CertSt.Rejects (ws : CertSt) (hs : Handshake) : Prop :=
  ∃ ws' ret, verify_certificate_cb ws hs = some (ws', ret) ∧ ret < 0

/-- The library does not vouch for the chain: it fails to verify it or finds it invalid,
or it has no certificate and the configuration requires one. -/
def Handshake.Unverified (hs : Handshake) (config : CertCfg) : Prop :=
  (hs.verify_peers2 = GNUTLS_E_NO_CERTIFICATE_FOUND ∧
    config.cisco_client_compat = false ∧ config.cert_req = .require) ∨
  (hs.verify_peers2 ≠ GNUTLS_E_NO_CERTIFICATE_FOUND ∧ (hs.verify_peers2 < 0 ∨ hs.status ≠ 0))

instance (hs : Handshake) (config : CertCfg) : Decidable (hs.Unverified config) :=
  inferInstanceAs (Decidable (_ ∨ _))

/-! ## The functions on a worker with a recorded name -/

variable {ws : CertSt} {hs : Handshake}

theorem get_cert_names_of_recorded (hrec : ws.cert_username ≠ []) (raw : RawCert) :
    get_cert_names ws raw = some (ws, 0) :=
  if_pos (.inl hrec)

/-- The comparison never stops a handshake. -/
theorem check_renegotiation_of_recorded (hrec : ws.cert_username ≠ []) (peer : Option RawCert) :
    check_renegotiation ws peer = some (ws, true) := by
  cases peer with
  | none => simp [check_renegotiation]
  | some raw => simp [check_renegotiation, hrec, get_cert_names_of_recorded hrec]

/-- The handshake is left to the verification of the chain. -/
theorem verify_certificate_cb_of_recorded (hrec : ws.cert_username ≠ [])
    (hdtls : hs.is_dtls = false) :
    verify_certificate_cb ws hs = some (verify_chain { ws with cert_auth_ok := false } hs) := by
  have hrec' : { ws with cert_auth_ok := false }.cert_username ≠ [] := hrec
  simp [verify_certificate_cb, hdtls, check_renegotiation_of_recorded hrec']

theorem verify_chain_rejects_iff (ws : CertSt) (hs : Handshake) :
    (verify_chain ws hs).2 < 0 ↔ hs.Unverified ws.config := by
  have herr : GNUTLS_E_CERTIFICATE_ERROR < 0 := by decide
  unfold verify_chain Handshake.Unverified
  by_cases hnone : hs.verify_peers2 = GNUTLS_E_NO_CERTIFICATE_FOUND
  · cases ws.config.cisco_client_compat <;> by_cases hreq : ws.config.cert_req = .require <;>
      simp [hnone, hreq, herr]
  · by_cases hfail : hs.verify_peers2 < 0
    · simp [hnone, hfail, herr]
    · by_cases hstatus : hs.status = 0 <;> simp [hnone, hfail, hstatus, herr]

/-! ## The decision on a switch -/

/-- A handshake that would switch the user is rejected just when the handshake would be
rejected anyway, for its chain or because a DTLS session has no certificates. -/
theorem user_switch_rejected_iff (ws : CertSt) (hs : Handshake) (hswitch : ws.Switches hs) :
    ws.Rejects hs ↔ hs.is_dtls = true ∨ hs.Unverified ws.config := by
  have hrec := hswitch.recorded
  unfold CertSt.Rejects
  cases hdtls : hs.is_dtls with
  | true =>
    rw [verify_certificate_cb, if_pos hdtls]
    have herr : GNUTLS_E_CERTIFICATE_ERROR < 0 := by decide
    exact ⟨fun _ => .inl rfl, fun _ => ⟨ws, _, rfl, herr⟩⟩
  | false =>
    rw [verify_certificate_cb_of_recorded hrec hdtls]
    have hchain := verify_chain_rejects_iff { ws with cert_auth_ok := false } hs
    constructor
    · rintro ⟨ws', ret, heq, hret⟩
      have hret' : (verify_chain _ hs).2 = ret := congrArg Prod.snd (Option.some.inj heq)
      exact .inr (hchain.1 (hret' ▸ hret))
    · intro hor
      have hun := hor.resolve_left nofun
      exact ⟨_, _, rfl, hchain.2 hun⟩

/-! ## A session of two users -/

private def userOid : CStr := "0.9.2342.19200300.100.1.1".toList

private def certificate (name : String) : Crt where
  subject_alt_name := []
  dn_by_oid oid := ⟨if oid = userOid then [name.toList] else [], -56⟩

private def presents (name : String) (status : Nat) : Handshake where
  peer := some (.ok (certificate name))
  verify_peers2 := 0
  status := status

private def fresh : CertSt where
  config := ⟨some userOid, none, false, .require⟩

private def ofAlice : CertSt := { fresh with cert_username := "alice".toList, cert_auth_ok := true }

private theorem ofAlice_switches (status : Nat) : ofAlice.Switches (presents "bob" status) where
  recorded := by decide
  presents := ⟨certificate "bob", "bob".toList, rfl, by decide +kernel, by decide⟩

theorem user_switch_rejected_revoked :
    ofAlice.Rejects (presents "bob" 2) :=
  (user_switch_rejected_iff ofAlice (presents "bob" 2) (ofAlice_switches 2)).2
    (.inr (by decide +kernel))

/-- A worker reads `alice` from the certificate of its first handshake; the certificate
of `bob` passes in the next one. -/
theorem user_switch_accepted :
    Runs.Reachable (· = fresh) CertSt.Step ofAlice ∧ ofAlice.Switches (presents "bob" 0) ∧
      verify_certificate_cb ofAlice (presents "bob" 0) = some (ofAlice, 0) := by
  have hhandshake : fresh.Step (.handshake (presents "alice" 0))
      { fresh with cert_auth_ok := true } := ⟨0, by decide +kernel⟩
  have hinfo : CertSt.Step { fresh with cert_auth_ok := true }
      (.info (presents "alice" 0).peer) ofAlice := ⟨0, by decide +kernel⟩
  have haccept : verify_certificate_cb ofAlice (presents "bob" 0) = some (ofAlice, 0) := by
    decide +kernel
  exact ⟨⟨_, .snoc (.snoc (.start rfl) hhandshake) hinfo⟩, ofAlice_switches 0, haccept⟩

end Ocserv

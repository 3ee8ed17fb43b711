import Ocserv.Basic
import Ocserv.Lib.Runs

/-!
# The client certificate of a worker

A worker reads the name and the groups of its user from the certificate that the client
presents, and checks the certificate in a callback of the TLS library that runs in every
handshake of the session.  What the library reads from a certificate, and what it says
about the chain, is given by the handshake.
-/

namespace Ocserv

/-! ## What the TLS library delivers -/

def GNUTLS_E_CERTIFICATE_ERROR : Int := -43
def GNUTLS_E_NO_CERTIFICATE_FOUND : Int := -49
def GNUTLS_E_SHORT_MEMORY_BUFFER : Int := -51
def GNUTLS_E_REQUESTED_DATA_NOT_AVAILABLE : Int := -56

/-- `GNUTLS_SAN_*`. -/
inductive SanType
  | rfc822name
  | other
deriving DecidableEq, Repr

/-- The values of an attribute of the distinguished name, and the error for the index
after the last of them. -/
structure Attribute where
  values : List CStr
  ends : Int := GNUTLS_E_REQUESTED_DATA_NOT_AVAILABLE

/-- An imported certificate. -/
structure Crt where
  subject_alt_name : List (SanType × CStr)
  dn_by_oid : CStr → Attribute

/-- The certificate as it is presented: the import fails or gives a `Crt`. -/
abbrev RawCert := Except Int Crt

/-- `gnutls_x509_crt_get_dn_by_oid` for the first value, into a buffer of `size` bytes. -/
def Crt.first_by_oid (crt : Crt) (oid : CStr) (size : Nat) : Except Int CStr :=
  match (crt.dn_by_oid oid).values with
  | [] => .error (crt.dn_by_oid oid).ends
  | value :: _ =>
    if value.length < size then .ok value else .error GNUTLS_E_SHORT_MEMORY_BUFFER

/-- A handshake of the session. -/
structure Handshake where
  /-- it belongs to one of the DTLS sessions of the worker -/
  is_dtls : Bool := false
  /-- `gnutls_certificate_get_peers`, the end certificate of the client -/
  peer : Option RawCert
  /-- the code that `gnutls_certificate_verify_peers2` returns -/
  verify_peers2 : Int
  /-- the status that it stores -/
  status : Nat

/-! ## State -/

/-- `cert_req`. -/
inductive CertReq
  | ignore
  | request
  | require
deriving DecidableEq, Repr

/-- What the functions read of the configuration. -/
structure CertCfg where
  cert_user_oid : Option CStr
  cert_group_oid : Option CStr
  cisco_client_compat : Bool
  cert_req : CertReq
deriving DecidableEq, Repr

/-- `worker_st`, as far as it is about the certificate. -/
structure CertSt where
  config : CertCfg
  cert_username : CStr := []
  cert_groups : List CStr := []
  cert_auth_ok : Bool := false
deriving DecidableEq, Repr

/-! ## The names in a certificate -/

/-- The loop over the alternative names: it stops at the first that cannot be read, be it
after the last one or one that does not fit in the buffer. -/
def find_rfc822name : List (SanType × CStr) → Except Int CStr
  | [] => .error GNUTLS_E_REQUESTED_DATA_NOT_AVAILABLE
  | (type, name) :: rest =>
    if name.length < MAX_USERNAME_SIZE then
      match type with
      | .rfc822name => .ok name
      | .other => find_rfc822name rest
    else .error GNUTLS_E_REQUESTED_DATA_NOT_AVAILABLE

/-- The name that a configuration finds in a certificate.  Without `cert_user_oid` the
source compares a NULL pointer before it tests it: there is no answer then. -/
def username_of (config : CertCfg) (crt : Crt) : Option (Except Int CStr) :=
  match config.cert_user_oid with
  | none => none
  | some oid =>
    if oid = "SAN(rfc822name)".toList then some (find_rfc822name crt.subject_alt_name)
    else some (crt.first_by_oid oid MAX_USERNAME_SIZE)

/-- Extract the username into `cert_username`. -/
def get_cert_username (ws : CertSt) (crt : Crt) : Option (CertSt × Int) :=
  match username_of ws.config crt with
  | none => none
  | some (.error ret) => some (ws, ret)
  | some (.ok name) =>
    some ({ ws with cert_username := strlcpy name MAX_USERNAME_SIZE }, 0)

/-- The loop over the groups. -/
def get_cert_groups (ws : CertSt) (crt : Crt) : CertSt × Int :=
  match ws.config.cert_group_oid with
  | none => (ws, 0)
  | some oid =>
    if (crt.dn_by_oid oid).ends = GNUTLS_E_REQUESTED_DATA_NOT_AVAILABLE then
      ({ ws with cert_groups := (crt.dn_by_oid oid).values }, 0)
    else (ws, (crt.dn_by_oid oid).ends)

def get_cert_names (ws : CertSt) (raw : RawCert) : Option (CertSt × Int) :=
  -- already read, nothing to do
  if ws.cert_username ≠ [] ∨ ws.cert_groups ≠ [] then some (ws, 0)
  else
    match raw with
    | .error ret => some (ws, ret)
    | .ok crt =>
      match get_cert_username ws crt with
      | none => none
      | some (ws, ret) => if ret < 0 then some (ws, ret) else some (get_cert_groups ws crt)

/-- Take the names of the session certificate, after the handshake. -/
def get_cert_info (ws : CertSt) (peer : Option RawCert) : Option (CertSt × Int) :=
  match peer with
  | none => some (ws, -1)
  | some raw =>
    match get_cert_names ws raw with
    | none => none
    | some (ws, ret) => if ret < 0 then some (ws, -1) else some (ws, 0)

/-! ## The callback -/

/-- The comparison with the user of the session: `true` when the handshake may go on. -/
def check_renegotiation (ws : CertSt) (peer : Option RawCert) : Option (CertSt × Bool) :=
  if ws.cert_username = [] then some (ws, true)
  else
    match peer with
    -- it's ok for the user not to send any certificate on renegotiation
    | none => some (ws, true)
    | some raw =>
      let prev_username := ws.cert_username
      match get_cert_names ws raw with
      | none => none
      | some (ws, ret) =>
        if ret < 0 then some (ws, false) else some (ws, decide (prev_username = ws.cert_username))

/-- The part of the callback after the comparison. -/
def verify_chain (ws : CertSt) (hs : Handshake) : CertSt × Int :=
  if hs.verify_peers2 = GNUTLS_E_NO_CERTIFICATE_FOUND then
    if ws.config.cisco_client_compat ∨ ws.config.cert_req ≠ .require then (ws, 0)
    else (ws, GNUTLS_E_CERTIFICATE_ERROR)
  else if hs.verify_peers2 < 0 then (ws, GNUTLS_E_CERTIFICATE_ERROR)
  else if hs.status ≠ 0 then (ws, GNUTLS_E_CERTIFICATE_ERROR)
  else ({ ws with cert_auth_ok := true }, 0)

/-- A negative code rejects the handshake. -/
def verify_certificate_cb (ws : CertSt) (hs : Handshake) : Option (CertSt × Int) :=
  if hs.is_dtls then some (ws, GNUTLS_E_CERTIFICATE_ERROR)
  else
    match check_renegotiation { ws with cert_auth_ok := false } hs.peer with
    | none => none
    | some (ws, false) => some (ws, GNUTLS_E_CERTIFICATE_ERROR)
    | some (ws, true) => some (verify_chain ws hs)

/-- What happens to the certificate of a worker: a handshake, or the names are read from
the certificate of the session. -/
inductive CertEvent
  | handshake (hs : Handshake)
  | info (peer : Option RawCert)

/-- The step of an event; a worker that faults takes none. -/
def CertSt.Step (ws : CertSt) (ev : CertEvent) (ws' : CertSt) : Prop :=
  match ev with
  | .handshake hs => ∃ ret, verify_certificate_cb ws hs = some (ws', ret)
  | .info peer => ∃ ret, get_cert_info ws peer = some (ws', ret)

end Ocserv

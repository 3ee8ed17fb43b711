import Ocserv.Worker.Http

/-!
# What the headers of a request do

The name of a header is looked up in a table, and the value of a header that is found
there changes the request or the worker (`header_value_check`): host names, the client's
program and platform, the authentication method, the negotiation of DTLS and of the
compression, the requested MTUs, and the cookies of `Ocserv.Worker.Http`.

The settings of the virtual host, the parameters of the TLS session and the functions of
the TLS library that are consulted are a `HeaderEnv`.
-/

namespace Ocserv

/-! ## Strings -/

/-- `strncasecmp (a, b, n) == 0`. -/
def strncasecmp_eq (a b : CStr) (n : Nat) : Bool := strcasecmp_eq (a.take n) (b.take n)

/-- Whether a string starts with another, in any case. -/
def starts_with_nocase (s : CStr) (start : String) : Bool :=
  strncasecmp_eq s start.toList start.toList.length

/-- `strstr`: the rest of the string from the first occurrence on. -/
def strstr (sub : CStr) : CStr → Option CStr
  | [] => if sub.isPrefixOf [] then some [] else none
  | c :: cs => if sub.isPrefixOf (c :: cs) then some (c :: cs) else strstr sub cs

/-- The tokens that `strtok` finds. -/
def strtok (sep : Char) (s : CStr) : List CStr := (s.splitOn sep).filter (· ≠ [])

/-- `strtol (s, NULL, 10)` with 64 bit numbers. -/
def strtol (s : CStr) : Int :=
  let signed := Inet.readSign (s.dropWhile Inet.isSpace)
  let n : Int := (Inet.readDigits signed.2 0).1
  if signed.1 then max (-n) (-0x8000000000000000) else min n 0x7fffffffffffffff

/-- `atoi`, as an `unsigned int`. -/
def atoi_unsigned (s : CStr) : Nat := (strtol s % 0x100000000).toNat

/-! ## Host names -/

def MAX_DNS_LABEL_LENGTH : Nat := 63
def MAX_DNS_NAME_LENGTH : Nat := 253

/-- `valid_hostname`, for one label. -/
def valid_hostname (host : CStr) : Bool :=
  host ≠ [] && host.head? ≠ some '-' && host.all (fun c => c.isAlphanum || c == '-') &&
    host.getLast? ≠ some '-' && host.length ≤ MAX_DNS_LABEL_LENGTH

/-- `valid_fqdn`: labels separated by dots. -/
def valid_fqdn (host : CStr) : Bool :=
  host ≠ [] && host.length ≤ MAX_DNS_NAME_LENGTH && host.getLast? ≠ some '.' &&
    (host.splitOn '.').all fun label =>
      label ≠ [] && label.length ≤ MAX_DNS_LABEL_LENGTH && valid_hostname label

/-- `valid_hostport`: a name with an optional port. -/
def valid_hostport (host : CStr) : Bool :=
  match host.span (· ≠ ':') with
  | (_, []) => valid_fqdn host
  | (name, _ :: port) =>
    port ≠ [] && port.all Char.isDigit && name ≠ [] && name.length ≤ MAX_DNS_NAME_LENGTH &&
      valid_fqdn name

/-- `strip_domain`: the first label, unless the name is an IPv4 address. -/
def strip_domain (host : CStr) : CStr :=
  if host.head? = some '.' ∨ (Inet.inet_pton4 host).isSome then host
  else host.takeWhile (· ≠ '.')

/-! ## Authentication methods -/

/-- The configured methods, and the one that is selected. -/
structure AuthSel where
  auth : List AuthMethod
  selected : Fin auth.length
deriving DecidableEq

namespace AuthSel

def selected_auth (s : AuthSel) : AuthMethod := s.auth.get s.selected

def ws_switch_auth_to (s : AuthSel) (type : AuthType) : AuthSel :=
  if s.selected_auth.enabled && s.selected_auth.type.has type then s
  else
    match (List.finRange s.auth.length).find? fun i =>
        (s.auth.get i).enabled && (s.auth.get i).type.has type with
    | some i => { s with selected := i }
    | none => s

/-- The selected method is disabled. -/
def disable_selected (s : AuthSel) : AuthSel where
  auth := s.auth.modify s.selected fun a => { a with enabled := false }
  selected := s.selected.cast (List.length_modify _ _ _).symm

def ws_switch_auth_to_next (s : AuthSel) : AuthSel :=
  let s := s.disable_selected
  match (List.finRange s.auth.length).find? fun i =>
      i ≠ s.selected && (s.auth.get i).enabled with
  | some i => { s with selected := i }
  | none => s

end AuthSel

/-! ## Ciphersuites and compression methods -/

/-- `gnutls_cipher_algorithm_t`. -/
inductive GnutlsCipher
  | aes_128_gcm
  | aes_256_gcm
  | aes_128_cbc
  | aes_256_cbc
  | des3_cbc
  | other (id : Nat)
deriving DecidableEq, Repr

/-- `gnutls_mac_algorithm_t`. -/
inductive GnutlsMac
  | aead
  | sha1
  | other (id : Nat)
deriving DecidableEq, Repr

/-- `dtls_ciphersuite_st`, as far as it is negotiated. -/
structure DtlsCiphersuite where
  oc_name : CStr
  gnutls_cipher : GnutlsCipher
  gnutls_mac : GnutlsMac
  server_prio : Nat
deriving DecidableEq, Repr

def ciphersuites : List DtlsCiphersuite :=
  [⟨"OC-DTLS1_2-AES128-GCM".toList, .aes_128_gcm, .aead, 80⟩,
    ⟨"OC-DTLS1_2-AES256-GCM".toList, .aes_256_gcm, .aead, 90⟩,
    ⟨"AES256-SHA".toList, .aes_256_cbc, .sha1, 60⟩,
    ⟨"AES128-SHA".toList, .aes_128_cbc, .sha1, 50⟩,
    ⟨"DES-CBC3-SHA".toList, .des3_cbc, .sha1, 1⟩]

def ciphersuites12 : List DtlsCiphersuite :=
  [⟨"AES128-GCM-SHA256".toList, .aes_128_gcm, .aead, 50⟩,
    ⟨"AES256-GCM-SHA384".toList, .aes_256_gcm, .aead, 90⟩,
    ⟨"ECDHE-RSA-AES128-GCM-SHA256".toList, .aes_128_gcm, .aead, 70⟩,
    ⟨"ECDHE-RSA-AES256-GCM-SHA384".toList, .aes_256_gcm, .aead, 80⟩]

/-- `compression_method_st`, as far as it is negotiated. -/
structure CompressionMethod where
  name : CStr
  server_prio : Nat
deriving DecidableEq, Repr

/-- `comp_methods`, before the configuration has changed a priority. -/
def comp_methods : List CompressionMethod :=
  [⟨"oc-lz4".toList, 90⟩, ⟨"lzs".toList, 80⟩]

/-- What the processing of the headers consults. -/
structure HeaderEnv where
  dtls_psk : Bool
  dtls_legacy : Bool
  enable_compression : Bool
  comp_methods : List CompressionMethod
  /-- the client has presented a valid certificate -/
  cert_auth_ok : Bool
  /-- `gnutls_cipher_get (ws->session)` -/
  want_cipher : Option GnutlsCipher
  /-- `gnutls_mac_get (ws->session)` -/
  want_mac : GnutlsMac
  gnutls_check_version_numeric : Nat → Nat → Nat → Bool
  /-- what `gnutls_hex2bin` leaves in the buffer, given what was in it -/
  gnutls_hex2bin : CStr → List UInt8 → List UInt8
  /-- what `oc_base64_decode` has written when it fails -/
  base64_partial : CStr → List UInt8 := fun _ => []

namespace HeaderEnv

/-- The ciphersuite is that of the TLS session. -/
def of_session (env : HeaderEnv) (suite : DtlsCiphersuite) : Bool :=
  env.want_cipher = some suite.gnutls_cipher && env.want_mac = suite.gnutls_mac

/-- The loop over the tokens of a header and, for each, over the table. -/
def select_ciphersuite (env : HeaderEnv) :
    List (CStr × DtlsCiphersuite) → Option DtlsCiphersuite → Option DtlsCiphersuite
  | [], cand => cand
  | (token, suite) :: rest, cand =>
    if token = suite.oc_name ∧
        (cand.all (·.server_prio < suite.server_prio) ∨ env.of_session suite) then
      if env.of_session suite then some suite else env.select_ciphersuite rest (some suite)
    else env.select_ciphersuite rest cand

/-- The ciphersuite of a table that a header offers and the server prefers. -/
def negotiate (env : HeaderEnv) (table : List DtlsCiphersuite) (value : CStr) :
    Option DtlsCiphersuite :=
  env.select_ciphersuite ((strtok ':' value).flatMap fun token => table.map (token, ·)) none

/-- The loops over the tokens of a header and the compression methods. -/
def select_comp (env : HeaderEnv) (value : CStr) : Option CompressionMethod :=
  ((strtok ',' value).flatMap fun token => env.comp_methods.map (token, ·)).foldl
    (fun cand x =>
      if strcasecmp_eq x.1 x.2.name ∧ cand.all (·.server_prio < x.2.server_prio) then some x.2
      else cand)
    none

/-- The library has the regression that makes DTLS 1.2 fail with AnyConnect. -/
def dtls12_regression (env : HeaderEnv) : Bool :=
  !env.gnutls_check_version_numeric 3 6 6 &&
    (!env.gnutls_check_version_numeric 3 3 0 || env.gnutls_check_version_numeric 3 6 0)

end HeaderEnv

def DTLS_PROTO_INDICATOR : CStr := "PSK-NEGOTIATE".toList

/-- The header names the key exchange of OpenConnect, at the end of a token. -/
def offers_psk (value : CStr) : Bool :=
  (strstr DTLS_PROTO_INDICATOR value).any fun p =>
    (p.drop DTLS_PROTO_INDICATOR.length).head?.all (· = ':')

/-! ## The table of the headers -/

/-- `HEADER_*`. -/
inductive HttpHeader
  | cookie
  | master_secret
  | hostname
  | cstp_mtu
  | cstp_base_mtu
  | cstp_atype
  | device_type
  | platform
  | dtls_ciphersuite
  | dtls12_ciphersuite
  | connection
  | full_ipv6
  | user_agent
  | cstp_encoding
  | dtls_encoding
  | support_spnego
  | authorization
  | host
  | strap_dh_pubkey
deriving DecidableEq, Repr

/-- `http-heads.gperf`. -/
def http_heads : List (String × HttpHeader) :=
  [("Cookie", .cookie),
    ("User-Agent", .user_agent),
    ("X-CSTP-Accept-Encoding", .cstp_encoding),
    ("X-DTLS-Accept-Encoding", .dtls_encoding),
    ("Connection", .connection),
    ("X-DTLS-Master-Secret", .master_secret),
    ("X-DTLS-CipherSuite", .dtls_ciphersuite),
    ("X-DTLS12-CipherSuite", .dtls12_ciphersuite),
    ("X-CSTP-Base-MTU", .cstp_base_mtu),
    ("X-CSTP-MTU", .cstp_mtu),
    ("X-CSTP-Address-Type", .cstp_atype),
    ("X-CSTP-Hostname", .hostname),
    ("X-CSTP-Full-IPv6-Capability", .full_ipv6),
    ("X-AnyConnect-Identifier-DeviceType", .device_type),
    ("X-AnyConnect-Identifier-Platform", .platform),
    ("X-Support-HTTP-Auth", .support_spnego),
    ("Authorization", .authorization),
    ("Host", .host),
    ("X-AnyConnect-STRAP-DH-Pubkey", .strap_dh_pubkey)]

def in_word_set (name : CStr) : Option HttpHeader :=
  (http_heads.find? fun x => x.1.toList = name).map Prod.snd

/-! ## What a header does -/

/-- `AGENT_*`. -/
inductive Agent
  | unknown
  | openconnect_v3
  | openconnect
  | anyconnect
  | openconnect_clavister
  | anylink
  | svc_ipphone
deriving DecidableEq, Repr

def TLS_MASTER_SIZE : Nat := 48
def STRAP_DH_PUBKEY_SIZE : Nat := 125
def MAX_MSG_SIZE : Nat := 16 * 1024

/-- What the headers set, in the worker and in its request. -/
structure HeaderSt where
  ws : WorkerSt
  auth : AuthSel
  full_ipv6 : Bool := false
  dtls_selected_comp : Option CompressionMethod := none
  cstp_selected_comp : Option CompressionMethod := none
  devtype : CStr := []
  devplatform : CStr := []
  hostname : CStr := []
  full_hostname : CStr := []
  strap_dh_pubkey : CStr := []
  user_agent : CStr := []
  user_agent_type : Agent := .unknown
  is_mobile : Bool := false
  is_ios : Bool := false
  spnego_set : Bool := false
  master_secret : List UInt8 := []
  master_secret_set : Bool := false
  selected_ciphersuite : Option DtlsCiphersuite := none
  use_psk : Bool := false
  link_mtu : Nat := 0
  tunnel_mtu : Nat := 0
  no_ipv4 : Bool := false
  no_ipv6 : Bool := false
  authorization : Option CStr := none
deriving DecidableEq

namespace HeaderSt

/-- `HEADER_MASTER_SECRET`. -/
def set_master_secret (env : HeaderEnv) (st : HeaderSt) (value : CStr) : HeaderSt :=
  if st.use_psk || !env.dtls_legacy then st
  else if value.length < TLS_MASTER_SIZE * 2 then { st with master_secret_set := false }
  else
    { st with
      master_secret := env.gnutls_hex2bin (value.take (TLS_MASTER_SIZE * 2)) st.master_secret
      master_secret_set := true }

/-- `HEADER_HOSTNAME`. -/
def set_hostname (st : HeaderSt) (value : CStr) : HeaderSt :=
  if value.length + 1 > MAX_HOSTNAME_SIZE then { st with hostname := [] }
  else
    let hostname := strip_domain value
    { st with hostname := if valid_hostname hostname then hostname else [] }

/-- `HEADER_HOST`. -/
def set_full_hostname (st : HeaderSt) (value : CStr) : HeaderSt :=
  { st with
    full_hostname :=
      if value.length + 1 > MAX_HOSTNAME_SIZE || !valid_hostport value then [] else value }

/-- `HEADER_STRAP_DH_PUBKEY`: white space does not count, and a key that is too long is
dropped. -/
def set_strap_dh_pubkey (st : HeaderSt) (value : CStr) : HeaderSt :=
  let key := value.filter fun c => !Inet.isSpace c
  { st with strap_dh_pubkey := if key.length < STRAP_DH_PUBKEY_SIZE then key else [] }

/-- `HEADER_DEVICE_TYPE`. -/
def set_device_type (st : HeaderSt) (value : CStr) : HeaderSt :=
  { st with devtype := if value.length + 1 > MAX_AGENT_NAME then [] else value }

/-- `HEADER_PLATFORM`. -/
def set_platform (st : HeaderSt) (value : CStr) : HeaderSt :=
  if value.length + 1 > MAX_AGENT_NAME then { st with devplatform := [] }
  else if starts_with_nocase value "apple-ios" then
    { st with devplatform := value, is_ios := true, is_mobile := true }
  else if starts_with_nocase value "android" then
    { st with devplatform := value, is_mobile := true }
  else { st with devplatform := value }

/-- `HEADER_SUPPORT_SPNEGO`. -/
def set_spnego (env : HeaderEnv) (st : HeaderSt) : HeaderSt :=
  if st.auth.selected_auth.type.has AUTH_TYPE_CERTIFICATE && env.cert_auth_ok then st
  else { st with auth := st.auth.ws_switch_auth_to AUTH_TYPE_GSSAPI, spnego_set := true }

/-- `HEADER_USER_AGENT`. -/
def set_user_agent (st : HeaderSt) (value : CStr) : HeaderSt :=
  let user_agent := strlcpy value MAX_AGENT_NAME
  let st := { st with user_agent }
  if starts_with_nocase user_agent "Open AnyConnect VPN Agent v" then
    { st with
      user_agent_type :=
        if atoi_unsigned (user_agent.drop 27) ≤ 3 then .openconnect_v3 else .openconnect }
  else if starts_with_nocase user_agent "Cisco AnyConnect VPN Agent for Apple" then
    { st with user_agent_type := .anyconnect, is_ios := true }
  else if starts_with_nocase user_agent "OpenConnect VPN Agent" then
    { st with user_agent_type := .openconnect }
  else if starts_with_nocase user_agent "Cisco AnyConnect" then
    { st with user_agent_type := .anyconnect }
  else if starts_with_nocase user_agent "AnyConnect-compatible OpenConnect" then
    { st with user_agent_type := .openconnect }
  else if starts_with_nocase user_agent "AnyConnect" then
    { st with user_agent_type := .anyconnect }
  else if starts_with_nocase user_agent "Clavister OneConnect VPN" then
    { st with user_agent_type := .openconnect_clavister }
  else if starts_with_nocase user_agent "AnyLink Secure Client" then
    { st with user_agent_type := .anylink }
  else if starts_with_nocase user_agent "Cisco SVC IPPhone Client" then
    { st with user_agent_type := .svc_ipphone }
  else st

/-- The DTLS session takes its key from the TLS session. -/
def set_psk (st : HeaderSt) : HeaderSt :=
  { st with use_psk := true, master_secret_set := true, selected_ciphersuite := none }

/-- `HEADER_DTLS_CIPHERSUITE`. -/
def set_dtls_ciphersuite (env : HeaderEnv) (st : HeaderSt) (value : CStr) : HeaderSt :=
  if offers_psk value && env.dtls_psk then st.set_psk
  else if st.use_psk || !env.dtls_legacy then st
  else if st.selected_ciphersuite.isSome then st
  else { st with selected_ciphersuite := env.negotiate ciphersuites value }

/-- `HEADER_DTLS12_CIPHERSUITE`. -/
def set_dtls12_ciphersuite (env : HeaderEnv) (st : HeaderSt) (value : CStr) : HeaderSt :=
  if st.use_psk || !env.dtls_legacy then st
  else if st.user_agent_type = .anyconnect && env.dtls12_regression then st
  else if offers_psk value && env.dtls_psk then st.set_psk
  else
    match env.negotiate ciphersuites12 value with
    | some suite => { st with selected_ciphersuite := some suite }
    -- the choice made for the older header is kept
    | none => st

/-- The requested MTU, or none if it is too large. -/
def read_mtu (value : CStr) : Nat :=
  let v := (Inet.strtoul value).val
  if v ≤ MAX_MSG_SIZE then v else 0

/-- `HEADER_CSTP_ATYPE`. -/
def set_address_types (st : HeaderSt) (value : CStr) : HeaderSt :=
  { st with
    no_ipv4 := st.no_ipv4 || (strstr "IPv4".toList value).isNone
    no_ipv6 := st.no_ipv6 || (strstr "IPv6".toList value).isNone }

def header_value_check [Platform] (env : HeaderEnv) (st : HeaderSt)
    (next_header : Option HttpHeader) (value : CStr) : HeaderSt :=
  if value = [] then st
  else
    match next_header with
    | none => st
    | some .connection => st
    | some .master_secret => st.set_master_secret env value
    | some .hostname => st.set_hostname value
    | some .host => st.set_full_hostname value
    | some .strap_dh_pubkey => st.set_strap_dh_pubkey value
    | some .device_type => st.set_device_type value
    | some .platform => st.set_platform value
    | some .support_spnego => st.set_spnego env
    | some .authorization => { st with authorization := some value }
    | some .user_agent => st.set_user_agent value
    | some .dtls_ciphersuite => st.set_dtls_ciphersuite env value
    | some .dtls12_ciphersuite => st.set_dtls12_ciphersuite env value
    | some .dtls_encoding =>
      if env.enable_compression then { st with dtls_selected_comp := env.select_comp value }
      else st
    | some .cstp_encoding =>
      if env.enable_compression then { st with cstp_selected_comp := env.select_comp value }
      else st
    | some .cstp_base_mtu => { st with link_mtu := read_mtu value }
    | some .cstp_mtu => { st with tunnel_mtu := read_mtu value }
    | some .cstp_atype => st.set_address_types value
    | some .full_ipv6 =>
      if (strstr "true".toList value).isSome then { st with full_ipv6 := true } else st
    | some .cookie => { st with ws := st.ws.header_value_check (.cookie, value) }

end HeaderSt

end Ocserv

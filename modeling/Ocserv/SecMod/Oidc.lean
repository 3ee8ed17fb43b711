import Ocserv.Lib.Keyed
import Ocserv.SecMod.Auth

/-!
# The OpenID Connect module of sec-mod

The browser login takes three calls.  `oidc_sso_start` creates a pending request and
sends the browser to the provider; `oidc_sso_finish` takes the request when the
browser comes back, exchanges the code, checks the ID token and keeps the identity
under a fresh login token; `oidc_auth_init` takes the completed login when the client
presents that token.  Between the calls the requests wait in two tables, each a hash
with a list in order of creation, and a third table counts the pending requests of an
address.

The state and the login token are sealed: the index of the instance, a random value
and a tag over both, in hex.  Random values, clock readings, the answers of the
provider and whether an allocation succeeds are parts of the environment of a call.
An entry does not change while it is in a table, so an entry is its contents: removing
a pointer removes the entry with these contents.
-/

namespace Ocserv

open HTable
open SecMod (generate_hmac HMAC_DIGEST_SIZE)

/-! ## JSON values -/

/-- A JSON value; a number that is not an integer is kept as its text. -/
inductive Json
  | null
  | bool (b : Bool)
  | integer (n : Int)
  | real (text : CStr)
  | string (s : CStr)
  | array (items : List Json)
  | object (members : List (CStr × Json))

namespace Json

/-- `json_object_get`, which finds nothing in a value that is not an object. -/
def get (j : Json) (name : CStr) : Option Json :=
  match j with
  | .object members => members.lookup name
  | _ => none

/-- `json_string_value`. -/
def string_value : Json → Option CStr
  | .string s => some s
  | _ => none

/-- `json_integer_value`, zero for a value that is not an integer. -/
def integer_value : Json → Int
  | .integer n => n
  | _ => 0

def is_integer : Json → Bool
  | .integer _ => true
  | _ => false

mutual

/-- `json_equal` of two values that are present. -/
def equal : Json → Json → Bool
  | .null, .null => true
  | .bool a, .bool b => a == b
  | .integer a, .integer b => a == b
  | .real a, .real b => a == b
  | .string a, .string b => a == b
  | .array xs, .array ys => equalItems xs ys
  | .object ms, .object ns => ms.length == ns.length && equalMembers ms ns
  | _, _ => false

def equalItems : List Json → List Json → Bool
  | [], [] => true
  | x :: xs, y :: ys => equal x y && equalItems xs ys
  | _, _ => false

/-- Every member of the first object is in the second one. -/
def equalMembers : List (CStr × Json) → List (CStr × Json) → Bool
  | [], _ => true
  | (name, value) :: ms, ns => (ns.lookup name).any (fun v => equal value v) && equalMembers ms ns

end

end Json

/-! ## Hex strings -/

def hexchar (val : Nat) : Char :=
  if val < 10 then Char.ofNat ('0'.toNat + val) else Char.ofNat ('a'.toNat + val - 10)

def hex_encode (bytes : List UInt8) : CStr :=
  bytes.flatMap fun b => [hexchar (b.toNat / 16), hexchar (b.toNat % 16)]

def char_to_hex (c : Char) : Option Nat :=
  if '0' ≤ c ∧ c ≤ '9' then some (c.toNat - '0'.toNat)
  else if 'a' ≤ c ∧ c ≤ 'f' then some (c.toNat - 'a'.toNat + 10)
  else if 'A' ≤ c ∧ c ≤ 'F' then some (c.toNat - 'A'.toNat + 10)
  else none

/-- The bytes of a hex string of even length. -/
def hex_decode : CStr → Option (List UInt8)
  | [] => some []
  | [_] => none
  | c₁ :: c₂ :: rest =>
    match char_to_hex c₁, char_to_hex c₂, hex_decode rest with
    | some v₁, some v₂, some bytes => some (UInt8.ofNat (v₁ * 16 + v₂) :: bytes)
    | _, _, _ => none

theorem char_to_hex_hexchar : ∀ val < 16, char_to_hex (hexchar val) = some val := by
  decide

theorem hex_decode_encode (bytes : List UInt8) : hex_decode (hex_encode bytes) = some bytes := by
  induction bytes with
  | nil => rfl
  | cons b bytes ih =>
    have hlt : b.toNat < 256 := b.toNat_lt
    have hhi := char_to_hex_hexchar (b.toNat / 16) (by omega)
    have hlo := char_to_hex_hexchar (b.toNat % 16) (by omega)
    show hex_decode (hexchar (b.toNat / 16) :: hexchar (b.toNat % 16) :: hex_encode bytes) = _
    simp only [hex_decode, hhi, hlo, ih, Nat.div_add_mod', UInt8.ofNat_toNat]

theorem hex_encode_injective {bytes bytes' : List UInt8}
    (h : hex_encode bytes = hex_encode bytes') :
    bytes = bytes' := by
  apply Option.some.inj
  rw [← hex_decode_encode bytes, ← hex_decode_encode bytes', h]

/-! ## Sealed values -/

def OIDC_RANDOM_SIZE : Nat := 32
def SEC_MOD_INSTANCE_INDEX_SIZE : Nat := 2
def OIDC_ID_SIZE : Nat := SEC_MOD_INSTANCE_INDEX_SIZE + OIDC_RANDOM_SIZE
def OIDC_TOKEN_SIZE : Nat := OIDC_ID_SIZE + HMAC_DIGEST_SIZE
def OIDC_HEX_SIZE (x : Nat) : Nat := x * 2 + 1
def SEAL_LABEL_NEW_STATE : CStr := "oidc-state".toList
def SEAL_LABEL_TOKEN : CStr := "oidc-token".toList

/-- The random bytes of a sealed value. -/
abbrev OidcRandom := { rnd : List UInt8 // rnd.length = OIDC_RANDOM_SIZE }

/-- The key of the sealed values, and the index of the instance that issues them. -/
structure SsoKeyData where
  sec_mod_instance_index : Nat
  key : List UInt8
deriving DecidableEq, Repr

/-- The bytes that `sec_mod_instance_index_put` writes. -/
def index_put (index : Nat) : List UInt8 := [UInt8.ofNat (index / 256), UInt8.ofNat index]

/-- `sec_mod_instance_index_get` of a sealed value. -/
def index_get (bytes : List UInt8) : Nat :=
  (bytes.getD 0 0).toNat * 256 + (bytes.getD 1 0).toNat

section Sealed

variable [Platform]

/-- The tag over the index and the random value at the start of a sealed value. -/
def oidc_sealed_token_tag (kd : SsoKeyData) (label : CStr) (id : List UInt8) : List UInt8 :=
  generate_hmac kd.key [some label.bytes, some id]

def oidc_sealed_token (kd : SsoKeyData) (label : CStr) (rnd : OidcRandom) : CStr :=
  let id := index_put kd.sec_mod_instance_index ++ rnd.1
  hex_encode (id ++ oidc_sealed_token_tag kd label id)

/-- Values with different random bytes differ, whatever the tags are. -/
theorem oidc_sealed_token_inj {kd : SsoKeyData} {label : CStr} {rnd rnd' : OidcRandom}
    (h : oidc_sealed_token kd label rnd = oidc_sealed_token kd label rnd') : rnd = rnd' := by
  have hbytes := hex_encode_injective h
  have hlen : (index_put kd.sec_mod_instance_index ++ rnd.1).length =
      (index_put kd.sec_mod_instance_index ++ rnd'.1).length := by
    rw [List.length_append, List.length_append, rnd.2, rnd'.2]
  exact Subtype.ext (List.append_cancel_left (List.append_inj hbytes hlen).1)

/-- Whether a string is a value that this instance issued for this use. -/
def oidc_sealed_token_check (kd : SsoKeyData) (label : CStr) (str : Option CStr) : Bool :=
  match str with
  | none => false
  | some str =>
    if str.length ≠ OIDC_HEX_SIZE OIDC_TOKEN_SIZE - 1 then false
    else
      match hex_decode str with
      | none => false
      | some id =>
        -- the tag is compared before the index is looked at
        oidc_sealed_token_tag kd label (id.take OIDC_ID_SIZE) == id.drop OIDC_ID_SIZE &&
          index_get id == kd.sec_mod_instance_index

end Sealed

/-! ## Requests and tables -/

def OIDC_CLAIM_TIMEOUT : Int := 60

def hash_string (s : CStr) : Nat :=
  (s.foldl (fun (ret : UInt32) c => (ret <<< 5) - ret + UInt32.ofNat c.toNat) 0).toNat

/-- An authorization request; the token, the user name and the groups are set once
the login has succeeded. -/
structure SsoState where
  remote_ip : CStr
  state : CStr
  token : CStr := []
  verifier : CStr
  nonce : CStr
  expires : Int
  username : CStr := []
  groups : List CStr := []
  strap_dh_pubkey : Option CStr
deriving DecidableEq, Repr

/-- A table of requests: a hash for lookups, and a list in order of creation. -/
structure SsoTable where
  htable : Table SsoState := Table.init
  list : List SsoState := []
  size : Nat := 0
deriving DecidableEq, Repr

/-- How many pending requests an address has. -/
structure SsoIp where
  ip : CStr
  count : Nat
deriving DecidableEq, Repr

/-- Remove the entries at the head of a list as long as they have expired. -/
def expireLoop {σ : Type} (list : σ → List SsoState) (del : σ → SsoState → σ) (now : Int) :
    Nat → σ → σ
  | 0, s => s
  | fuel + 1, s =>
    match list s with
    | [] => s
    | e :: _ => if e.expires ≤ now then expireLoop list del now fuel (del s e) else s

def oidc_sso_state_rehash (e : SsoState) : Nat := hash_string e.state
def oidc_sso_claim_rehash (e : SsoState) : Nat := hash_string e.token

namespace SsoTable

/-- The table with one more entry. -/
def push (rehash : SsoState → Nat) (t : SsoTable) (e : SsoState) : SsoTable where
  htable := t.htable.add rehash (rehash e) e
  list := t.list ++ [e]
  size := t.size + 1

/-- Add an entry; `room` says whether the hash could grow. -/
def oidc_sso_table_add (rehash : SsoState → Nat) (t : SsoTable) (e : SsoState) (room : Bool) :
    Option SsoTable :=
  if room then some (t.push rehash e) else none

def oidc_sso_table_del (rehash : SsoState → Nat) (t : SsoTable) (e : SsoState) : SsoTable where
  htable := (t.htable.del (rehash e) (· == e)).1
  list := t.list.erase e
  size := t.size - 1

end SsoTable

/-! ## The state of the module -/

inductive OidcMode
  | bearer
  | browser
deriving DecidableEq, Repr

/-- What the configuration file says. -/
structure OidcCfg where
  mode : OidcMode
  sso_login_timeout : Int
  sso_max_pending : Nat
  sso_max_pending_per_ip : Nat
  per_ip_pos : 0 < sso_max_pending_per_ip
  client_id : Option CStr
  redirect_uri : Option CStr
  groups_claim : Option CStr
  user_name_claim : Option CStr
  required_claims : List (CStr × Json)

def DEFAULT_SSO_LOGIN_TIMEOUT : Int := 600
def DEFAULT_SSO_MAX_PENDING : Nat := 1024
def DEFAULT_SSO_MAX_PENDING_PER_IP : Nat := 32
def INT_MAX : Int := 2147483647

/-- A positive number from the configuration file, or the default. -/
def oidc_config_limit (config : Json) (name : CStr) (default : Nat) : Nat :=
  match config.get name with
  | some (.integer n) => if n ≤ 0 ∨ INT_MAX < n then default else n.toNat
  | _ => default

theorem oidc_config_limit_pos (config : Json) (name : CStr) {default : Nat} (hdef : 0 < default) :
    0 < oidc_config_limit config name default := by
  unfold oidc_config_limit
  split
  · split
    · exact hdef
    · omega
  · exact hdef

/-- The number is cut down to an `int` before it is checked. -/
def oidc_config_timeout (config : Json) : Int :=
  match config.get "sso_login_timeout".toList with
  | none => DEFAULT_SSO_LOGIN_TIMEOUT
  | some j =>
    let timeout := j.integer_value.bmod 4294967296
    if timeout ≤ 0 then DEFAULT_SSO_LOGIN_TIMEOUT else timeout

/-- A string setting. -/
def oidc_config_string (config : Json) (name : CStr) : Option CStr :=
  (config.get name).bind Json.string_value

def OidcCfg.read (mode : OidcMode) (config : Json) : OidcCfg where
  mode := mode
  sso_login_timeout := oidc_config_timeout config
  sso_max_pending := oidc_config_limit config "sso_max_pending".toList DEFAULT_SSO_MAX_PENDING
  sso_max_pending_per_ip :=
    oidc_config_limit config "sso_max_pending_per_ip".toList DEFAULT_SSO_MAX_PENDING_PER_IP
  per_ip_pos := oidc_config_limit_pos _ _ (by decide)
  client_id := oidc_config_string config "client_id".toList
  redirect_uri := oidc_config_string config "redirect_uri".toList
  groups_claim := oidc_config_string config "groups_claim".toList
  user_name_claim := oidc_config_string config "user_name_claim".toList
  required_claims :=
    match config.get "required_claims".toList with
    | some (.object members) => members
    | _ => []

/-- What was read from the provider's metadata document. -/
structure OidcMetadata where
  issuer : Option CStr
  authorization_endpoint : Option CStr
  token_endpoint : Option CStr
deriving DecidableEq, Repr

/-- `oidc_vctx_st`. -/
structure OidcVctx where
  config : OidcCfg
  metadata : OidcMetadata
  sso_states : SsoTable := {}
  sso_claims : SsoTable := {}
  sso_ips : Table SsoIp := Table.init

/-- Read the configuration file and the metadata of the provider (`none` when it cannot
be fetched); without what the mode needs the process exits. -/
def oidc_vhost_init (mode : OidcMode) (config : Json) (fetched : Option OidcMetadata) :
    Option OidcVctx :=
  let cfg := OidcCfg.read mode config
  if (config.get "openid_configuration_url".toList).isNone ||
      (config.get "required_claims".toList).isNone ||
      (config.get "user_name_claim".toList).isNone then none
  else if mode = .browser && (cfg.client_id.isNone || cfg.redirect_uri.isNone) then none
  else
    match fetched with
    | none => none
    | some metadata =>
      if mode = .browser && (metadata.issuer.isNone || metadata.authorization_endpoint.isNone ||
          metadata.token_endpoint.isNone) then none
      else some { config := cfg, metadata := metadata }

/-- `oidc_st`: what one authentication knows about its user. -/
structure OidcSt where
  username : CStr
  token_verified : Bool
  groups : List CStr
deriving DecidableEq, Repr

/-- The outcomes that `oidc_sso_start` meets: the random values (`none` when the
generator or an allocation fails), whether the tables can grow, whether the URL could
be built, and its clock readings. -/
structure StartEnv where
  now : Int
  created_at : Int
  cleaned_at : Int
  state_rnd : Option OidcRandom
  verifier : Option CStr
  nonce : Option CStr
  ip_room : Bool := true
  room : Bool := true
  url_built : Bool := true

/-- What the import of a token and the verification of its signature come to.  A
signature under an unknown key fails, and may have the metadata read again; a verified
token may have a payload that is not JSON. -/
inductive Jws
  | malformed
  | unverified (refetched : Option OidcMetadata)
  | verified (claims : Option Json)

/-- The outcomes that `oidc_sso_finish` meets. -/
structure FinishEnv where
  now : Int
  verified_at : Int
  done_at : Int
  /-- whether the request to the token endpoint could be put together -/
  prepared : Bool := true
  /-- what the token endpoint answers to a code and a verifier -/
  provider : CStr → CStr → Option Json
  jws : CStr → Jws
  token_rnd : Option OidcRandom
  copied : Bool := true
  /-- the token encrypted to the key of the client -/
  encrypt : CStr → CStr → Option CStr
  room : Bool := true

/-- The parts of `common_auth_init_st` that the module reads. -/
structure OidcAuthInfo where
  oidc_token : Option CStr
  username : CStr
deriving DecidableEq, Repr

namespace OidcVctx

/-! ## Pending requests -/

/-- The record that counts the pending requests of an address. -/
def oidc_sso_ip_find (v : OidcVctx) (ip : CStr) : Option SsoIp :=
  v.sso_ips.lookup SsoIp.ip hash_string (strlcpy ip MAX_IP_STR)

/-- Remove the record of an address. -/
def ip_del (v : OidcVctx) (ip : SsoIp) : OidcVctx :=
  { v with sso_ips := v.sso_ips.remove SsoIp.ip hash_string ip.ip }

/-- Write back the record of an address. -/
def ip_store (v : OidcVctx) (ip : SsoIp) : OidcVctx :=
  { v with sso_ips := v.sso_ips.update SsoIp.ip ip }

/-- The record to count a new request in, which is created for the first one. -/
def ip_record (v : OidcVctx) (remote_ip : CStr) (ip_room : Bool) : Option (OidcVctx × SsoIp) :=
  match v.oidc_sso_ip_find remote_ip with
  | some ip => if v.config.sso_max_pending_per_ip ≤ ip.count then none else some (v, ip)
  | none =>
    if ip_room then
      let ip : SsoIp := { ip := strlcpy remote_ip MAX_IP_STR, count := 0 }
      some ({ v with
        sso_ips := v.sso_ips.add (hash_string ∘ SsoIp.ip) (hash_string ip.ip) ip }, ip)
    else none

/-- Add a pending request, within the limits; the count of its address is kept
alongside. -/
def oidc_sso_pending_add (v : OidcVctx) (e : SsoState) (ip_room room : Bool) : OidcVctx × Bool :=
  if v.config.sso_max_pending ≤ v.sso_states.size then (v, false)
  else
    match v.ip_record e.remote_ip ip_room with
    | none => (v, false)
    | some (v, ip) =>
      match v.sso_states.oidc_sso_table_add oidc_sso_state_rehash e room with
      | none => (if ip.count = 0 then v.ip_del ip else v, false)
      | some sso_states =>
        ({ v with sso_states := sso_states }.ip_store { ip with count := ip.count + 1 }, true)

def oidc_sso_pending_del (v : OidcVctx) (e : SsoState) : OidcVctx :=
  let v := { v with sso_states := v.sso_states.oidc_sso_table_del oidc_sso_state_rehash e }
  match v.oidc_sso_ip_find e.remote_ip with
  | none => v
  | some ip =>
    if ip.count - 1 = 0 then v.ip_del ip else v.ip_store { ip with count := ip.count - 1 }

/-- Drop the requests and logins that were not taken in time.  A loop makes at most one
round for each entry of its list. -/
def oidc_sso_state_expire (v : OidcVctx) (now : Int) : OidcVctx :=
  let v := expireLoop (·.sso_states.list) oidc_sso_pending_del now v.sso_states.list.length v
  { v with
    sso_claims :=
      expireLoop SsoTable.list (SsoTable.oidc_sso_table_del oidc_sso_claim_rehash) now
        v.sso_claims.list.length v.sso_claims }

/-- Look up a pending request. -/
def oidc_sso_state_find (v : OidcVctx) (now : Int) (state : Option CStr) :
    OidcVctx × Option SsoState :=
  match state with
  | none | some [] => (v, none)
  | some state =>
    let v := v.oidc_sso_state_expire now
    let key := strlcpy state (OIDC_HEX_SIZE OIDC_TOKEN_SIZE)
    (v, v.sso_states.htable.get (hash_string key) fun e => e.state = key)

/-- Look up and remove a pending request. -/
def oidc_sso_state_take (v : OidcVctx) (now : Int) (state : Option CStr) :
    OidcVctx × Option SsoState :=
  let r := v.oidc_sso_state_find now state
  match r.2 with
  | none => r
  | some e => (r.1.oidc_sso_pending_del e, some e)

/-- Look up and remove a completed login. -/
def oidc_sso_claim_take (v : OidcVctx) (now : Int) (token : Option CStr) :
    OidcVctx × Option SsoState :=
  match token with
  | none | some [] => (v, none)
  | some token =>
    let v := v.oidc_sso_state_expire now
    let key := strlcpy token (OIDC_HEX_SIZE OIDC_TOKEN_SIZE)
    match v.sso_claims.htable.get (hash_string key) fun e => e.token = key with
    | none => (v, none)
    | some e =>
      ({ v with sso_claims := v.sso_claims.oidc_sso_table_del oidc_sso_claim_rehash e }, some e)

/-! ## The checks of an ID token -/

def oidc_verify_lifetime (claims : Json) (now : Int) : Bool :=
  let nbf := claims.get "nbf".toList
  if nbf.any fun j => !j.is_integer then false
  else if (claims.get "exp".toList).all fun j => j.integer_value = 0 then false
  else if (claims.get "iat".toList).all fun j => j.integer_value = 0 then false
  else if nbf.any fun j => now < j.integer_value then false
  else if (claims.get "exp".toList).any fun j => j.integer_value < now then false
  else true

def oidc_verify_required_claims (required : List (CStr × Json)) (claims : Json) : Bool :=
  required.all fun r => (claims.get r.1).any fun value => r.2.equal value

/-- Whether a value is this string. -/
def is_string (j : Json) (s : CStr) : Bool := j.string_value = some s

/-- Whether `aud` names the client; a list of several audiences must come with `azp`. -/
def audience_found (aud azp : Option Json) (client_id : CStr) : Bool :=
  match aud with
  | some (.string s) => s == client_id
  | some (.array items) =>
    items.any (is_string · client_id) && !(decide (1 < items.length) && azp.isNone)
  | _ => false

def oidc_verify_issuer_audience (claims : Json) (issuer client_id : Option CStr) : Bool :=
  match issuer, client_id with
  | some issuer, some client_id =>
    let azp := claims.get "azp".toList
    if !(claims.get "iss".toList).any (is_string · issuer) then false
    else if !audience_found (claims.get "aud".toList) azp client_id then false
    else azp.all (is_string · client_id)
  | _, _ => false

/-- The user name of a token, as far as it fits into the buffer. -/
def oidc_map_user_name (user_name_claim : Option CStr) (claims : Json) : Option CStr :=
  match (user_name_claim.bind claims.get).bind Json.string_value with
  | none => none
  | some name => some (strlcpy name MAX_USERNAME_SIZE)

/-- The group names in a claim: a string, or the strings of an array. -/
def oidc_extract_groups (claims : Json) (claim_name : CStr) : List CStr :=
  match claims.get claim_name with
  | some (.string s) => [s]
  | some (.array items) => items.filterMap Json.string_value
  | _ => []

/-- Check a token and read the user from it.  Only a token of the code flow comes with
a nonce, and has to name the provider and this server. -/
def oidc_verify_token (v : OidcVctx) (jws : CStr → Jws) (now : Int) (token : CStr)
    (expected_nonce : Option CStr) : OidcVctx × Option OidcSt :=
  match jws token with
  | .malformed => (v, none)
  | .unverified none => (v, none)
  | .unverified (some metadata) => ({ v with metadata := metadata }, none)
  | .verified none => (v, none)
  | .verified (some claims) =>
    if !oidc_verify_lifetime claims now then (v, none)
    else if !oidc_verify_required_claims v.config.required_claims claims then (v, none)
    else if expected_nonce.isSome &&
        !oidc_verify_issuer_audience claims v.metadata.issuer v.config.client_id then (v, none)
    else if expected_nonce.any fun nonce =>
        !(claims.get "nonce".toList).any (is_string · nonce) then (v, none)
    else
      match oidc_map_user_name v.config.user_name_claim claims with
      | none => (v, none)
      | some username =>
        (v, some
          { username := username
            token_verified := true
            groups := v.config.groups_claim.elim [] (oidc_extract_groups claims) })

/-- Exchange a code for the tokens of the user; the flag says whether the token
endpoint was asked. -/
def oidc_token_exchange (v : OidcVctx) (env : FinishEnv) (code verifier : CStr) :
    Option Json × Bool :=
  if v.metadata.token_endpoint.isNone || v.config.client_id.isNone ||
      v.config.redirect_uri.isNone || !env.prepared then (none, false)
  else
    match env.provider code verifier with
    | none => (none, true)
    | some response => (if (response.get "error".toList).isSome then none else some response, true)

/-! ## The three calls of a login -/

section Calls

variable [Platform]

/-- The request that `oidc_sso_state_new` fills in. -/
def new_request (kd : SsoKeyData) (cfg : OidcCfg) (remote_ip strap_dh_pubkey : Option CStr)
    (created_at : Int) (rnd : OidcRandom) (verifier nonce : CStr) : SsoState where
  remote_ip := strlcpy (remote_ip.getD []) MAX_IP_STR
  state := oidc_sealed_token kd SEAL_LABEL_NEW_STATE rnd
  verifier := verifier
  nonce := nonce
  expires := created_at + cfg.sso_login_timeout
  strap_dh_pubkey := strap_dh_pubkey.filter (· ≠ [])

/-- Create a pending request. -/
def oidc_sso_state_new (kd : SsoKeyData) (v : OidcVctx) (remote_ip strap_dh_pubkey : Option CStr)
    (env : StartEnv) : OidcVctx × Option SsoState :=
  let v := v.oidc_sso_state_expire env.now
  match env.state_rnd, env.verifier, env.nonce with
  | some rnd, some verifier, some nonce =>
    let e := new_request kd v.config remote_ip strap_dh_pubkey env.created_at rnd verifier nonce
    if e.state = [] ∨ e.verifier = [] ∨ e.nonce = [] then (v, none)
    else
      let r := v.oidc_sso_pending_add e env.ip_room env.room
      (r.1, if r.2 then some e else none)
  | _, _, _ => (v, none)

/-- Begin a login; the result is the state that the browser carries. -/
def oidc_sso_start (kd : SsoKeyData) (v : OidcVctx) (remote_ip strap_dh_pubkey : Option CStr)
    (env : StartEnv) : OidcVctx × Option CStr :=
  if v.config.mode ≠ .browser then (v, none)
  else if v.metadata.issuer.isNone || v.metadata.authorization_endpoint.isNone ||
      v.config.client_id.isNone || v.config.redirect_uri.isNone then (v, none)
  else
    let r := v.oidc_sso_state_new kd remote_ip strap_dh_pubkey env
    match r.2 with
    | none => (r.1, none)
    | some st =>
      if env.url_built then (r.1, some st.state)
      else ((r.1.oidc_sso_state_take env.cleaned_at (some st.state)).1, none)

/-- The one form in which a login token leaves the server. -/
inductive SsoHandover
  | token (token : CStr)
  | sso_token (encrypted : CStr)
deriving DecidableEq, Repr

/-- What a call of `oidc_sso_finish` leaves and returns, and whether it asked the token
endpoint. -/
structure FinishResult where
  vctx : OidcVctx
  requested : Bool
  handed : Option SsoHandover

/-- The token in clear for an embedded browser, else encrypted to the client's key. -/
def oidc_hand_over (env : FinishEnv) (st : SsoState) : Option SsoHandover :=
  match st.strap_dh_pubkey with
  | none => if env.copied then some (.token st.token) else none
  | some pubkey => (env.encrypt pubkey st.token).map .sso_token

/-- The request once its user is known. -/
def completed_request (kd : SsoKeyData) (st : SsoState) (ct : OidcSt) (done_at : Int)
    (rnd : OidcRandom) : SsoState :=
  { st with
    username := strlcpy ct.username MAX_USERNAME_SIZE
    groups := ct.groups
    token := oidc_sealed_token kd SEAL_LABEL_TOKEN rnd
    expires := done_at + OIDC_CLAIM_TIMEOUT }

/-- Remember the identity of a request under a fresh token. -/
def oidc_sso_complete (kd : SsoKeyData) (v : OidcVctx) (st : SsoState) (ct : OidcSt)
    (env : FinishEnv) : OidcVctx × Option SsoHandover :=
  match env.token_rnd with
  | none => (v, none)
  | some rnd =>
    let st := completed_request kd st ct env.done_at rnd
    match oidc_hand_over env st with
    | none => (v, none)
    | some handed =>
      match v.sso_claims.oidc_sso_table_add oidc_sso_claim_rehash st env.room with
      | none => (v, none)
      | some sso_claims => ({ v with sso_claims := sso_claims }, some handed)

/-- The browser comes back with a code and the state of its request.  The request is
taken whatever the outcome. -/
def oidc_sso_finish (kd : SsoKeyData) (v : OidcVctx) (code : CStr) (state : Option CStr)
    (env : FinishEnv) : FinishResult :=
  if !oidc_sealed_token_check kd SEAL_LABEL_NEW_STATE state then ⟨v, false, none⟩
  else
    let r := v.oidc_sso_state_take env.now state
    match r.2 with
    | none => ⟨r.1, false, none⟩
    | some st =>
      let x := r.1.oidc_token_exchange env code st.verifier
      match (x.1.bind (·.get "id_token".toList)).bind Json.string_value with
      | none => ⟨r.1, x.2, none⟩
      | some id_token =>
        let w := r.1.oidc_verify_token env.jws env.verified_at id_token (some st.nonce)
        match w.2 with
        | none => ⟨w.1, x.2, none⟩
        | some ct =>
          let c := w.1.oidc_sso_complete kd st ct env
          ⟨c.1, x.2, c.2⟩

/-- The client presents a login token, or in bearer mode a token of its own in place of
its user name. -/
def oidc_auth_init (kd : SsoKeyData) (v : OidcVctx) (info : OidcAuthInfo) (jws : CStr → Jws)
    (now : Int) : OidcVctx × Option OidcSt :=
  match info.oidc_token.filter (· ≠ []) with
  | some token =>
    if !oidc_sealed_token_check kd SEAL_LABEL_TOKEN (some token) then (v, none)
    else
      let r := v.oidc_sso_claim_take now (some token)
      (r.1, r.2.map fun st =>
        { username := strlcpy st.username MAX_USERNAME_SIZE
          token_verified := true
          groups := st.groups })
  | none =>
    if v.config.mode ≠ .bearer then (v, none)
    else v.oidc_verify_token jws now info.username none

end Calls
end OidcVctx

/-- The name of the user, for a buffer of `username_size` bytes. -/
def OidcSt.oidc_auth_user (ct : OidcSt) (username_size : Nat) : Option CStr :=
  if ct.token_verified then some (strlcpy ct.username username_size) else none

/-! ## Runs of the module -/

/-- The calls into the module, and the expiry of requests on its own. -/
inductive OidcEvent
  | start (remote_ip strap_dh_pubkey : Option CStr) (env : StartEnv)
  | finish (code : CStr) (state : Option CStr) (env : FinishEnv)
  | auth_init (info : OidcAuthInfo) (jws : CStr → Jws) (now : Int)
  | expire (now : Int)

namespace OidcEvent

/-- The clock readings of a call. -/
def times : OidcEvent → List Int
  | .start _ _ env => [env.now, env.created_at, env.cleaned_at]
  | .finish _ _ env => [env.now, env.verified_at, env.done_at]
  | .auth_init _ _ now => [now]
  | .expire now => [now]

/-- The random values of the sealed strings that a call issues. -/
def draws : OidcEvent → List OidcRandom
  | .start _ _ env => env.state_rnd.toList
  | .finish _ _ env => env.token_rnd.toList
  | _ => []

end OidcEvent

/-- The module with the last clock reading and the random values drawn so far. -/
structure OidcSys where
  vctx : OidcVctx
  clock : Int
  drawn : List OidcRandom := []

namespace OidcSys

/-- The module has just been configured. -/
def Init (s : OidcSys) : Prop :=
  (∃ mode config fetched, oidc_vhost_init mode config fetched = some s.vctx) ∧ s.drawn = []

/-- The clock does not go back, and the random values of a call are new. -/
def Admits (s : OidcSys) (ev : OidcEvent) : Prop :=
  List.IsChain (· ≤ ·) (s.clock :: ev.times) ∧ ∀ rnd ∈ ev.draws, rnd ∉ s.drawn

instance (s : OidcSys) (ev : OidcEvent) : Decidable (s.Admits ev) :=
  inferInstanceAs (Decidable (_ ∧ _))

variable [Platform]

/-- What a call makes of the module. -/
def call (kd : SsoKeyData) (v : OidcVctx) : OidcEvent → OidcVctx
  | .start remote_ip strap_dh_pubkey env => (v.oidc_sso_start kd remote_ip strap_dh_pubkey env).1
  | .finish code state env => (v.oidc_sso_finish kd code state env).vctx
  | .auth_init info jws now => (v.oidc_auth_init kd info jws now).1
  | .expire now => v.oidc_sso_state_expire now

def step (kd : SsoKeyData) (s : OidcSys) (ev : OidcEvent) : Option OidcSys :=
  if s.Admits ev then
    some
      { vctx := call kd s.vctx ev
        clock := ev.times.getLastD s.clock
        drawn := ev.draws ++ s.drawn }
  else none

end OidcSys
end Ocserv

import Mathlib.Algebra.Group.Nat.Defs
import Mathlib.Data.List.Basic

/-!
# Data shared by the processes

ocserv runs as a privileged *main* process, one or more *sec-mod* processes that
hold the credentials and the session database, and one unprivileged *worker* per
connection.  This file has what their messages are made of: C strings, session
identifiers, the authentication status, return codes, the per-user configuration
that sec-mod sends to main, and the virtual hosts.

The library functions whose values do not matter (hashes, the HMAC, the base64 decoder,
the printing of addresses) are the fields of `Platform`; everything is stated for an arbitrary
one.
-/

namespace Ocserv

/-! ## Strings -/

/-- The characters of a C string before its terminator. -/
abbrev CStr := List Char

instance : LawfulBEq CStr := inferInstance

/-- What `strlcpy (dst, s, size)` leaves in `dst`. -/
def strlcpy (s : CStr) (size : Nat) : CStr := s.take (size - 1)

/-- What fits into a buffer fits into one that is not smaller. -/
theorem strlcpy_strlcpy (s : CStr) {size size' : Nat} (h : size ≤ size') :
    strlcpy (strlcpy s size) size' = strlcpy s size := by
  rw [strlcpy, strlcpy, List.take_take, Nat.min_eq_right (by omega)]

def MAX_USERNAME_SIZE : Nat := 64
def MAX_GROUPNAME_SIZE : Nat := 64
def MAX_HOSTNAME_SIZE : Nat := 64
def MAX_AGENT_NAME : Nat := 64
def MAX_DEVICE_TYPE : Nat := 64
def MAX_DEVICE_PLATFORM : Nat := 64
def MAX_IP_STR : Nat := 46

/-- The bytes of a C string. -/
def CStr.bytes (s : CStr) : List UInt8 := s.map fun c => UInt8.ofNat c.toNat

/-! ## Session identifiers -/

def SID_SIZE : Nat := 32

/-- A session identifier, which is also the cookie of the client. -/
abbrev Sid := { bytes : List UInt8 // bytes.length = SID_SIZE }

/-- A byte string from a message, when it has the size of a session identifier. -/
def Sid.ofBytes? (bytes : List UInt8) : Option Sid :=
  if h : bytes.length = SID_SIZE then some ⟨bytes, h⟩ else none

@[simp] theorem Sid.ofBytes?_val (sid : Sid) : Sid.ofBytes? sid.1 = some sid := by
  simp [Sid.ofBytes?, sid.2]

theorem Sid.ofBytes?_eq_some {bytes : List UInt8} {sid : Sid} :
    Sid.ofBytes? bytes = some sid ↔ bytes = sid.1 := by
  constructor
  · intro h
    unfold Sid.ofBytes? at h
    split at h
    · rw [← Option.some.inj h]
    · simp at h
  · rintro rfl
    exact Sid.ofBytes?_val sid

/-- All bytes zero, as `talloc_zero` leaves it. -/
def Sid.zero : Sid := ⟨List.replicate SID_SIZE 0, List.length_replicate⟩

/-- The number of sec-mod instances is limited so that an index fits in the two
bytes that carry it. -/
def MAX_SEC_MOD_INSTANCES : Nat := 65535

theorem zero_le_instances : 0 ≤ MAX_SEC_MOD_INSTANCES := Nat.zero_le _

/-- The index of a sec-mod instance, big-endian in the first two bytes. -/
def sec_mod_instance_index_get (sid : Sid) : Nat :=
  (sid.1.getD 0 0).toNat <<< 8 ||| (sid.1.getD 1 0).toNat

/-- Write the index of a sec-mod instance over the first two bytes. -/
def sec_mod_instance_index_put (sid : Sid) (index : Nat) : Sid :=
  ⟨(sid.1.set 0 (UInt8.ofNat (index >>> 8 &&& 0xff))).set 1 (UInt8.ofNat (index &&& 0xff)), by
    rw [List.length_set, List.length_set, sid.2]⟩

theorem sec_mod_instance_index_get_put (sid : Sid) {index : Nat}
    (h : index ≤ MAX_SEC_MOD_INSTANCES) :
    sec_mod_instance_index_get (sec_mod_instance_index_put sid index) = index := by
  have hlen : sid.1.length = 32 := sid.2
  have hhigh : index / 256 < 256 := by
    simp only [MAX_SEC_MOD_INSTANCES] at h
    omega
  have hand : ∀ n : Nat, n &&& 255 = n % 256 := fun n => Nat.and_two_pow_sub_one_eq_mod n 8
  have hor : index / 256 * 256 ||| index % 256 = index := by
    have hsum := Nat.shiftLeft_add_eq_or_of_lt (i := 8) (Nat.mod_lt index (by omega)) (index / 256)
    rw [Nat.shiftLeft_eq] at hsum
    exact hsum.symm.trans (Nat.div_add_mod' index 256)
  simp [sec_mod_instance_index_get, sec_mod_instance_index_put, hlen, Nat.shiftRight_eq_div_pow,
    Nat.shiftLeft_eq, hand, Nat.mod_eq_of_lt hhigh, hor]

/-! ## Status and return codes -/

/-- `PS_AUTH_*`, the progress of an authentication. -/
inductive PsAuth
  | inactive
  | failed
  | init
  | cont
  | completed
deriving DecidableEq, Repr

/-- The position in the C enumeration, by which the source compares. -/
def PsAuth.code : PsAuth → Nat
  | .inactive => 0
  | .failed => 1
  | .init => 2
  | .cont => 3
  | .completed => 4

theorem PsAuth.code_lt_completed {st : PsAuth} :
    st.code < PsAuth.completed.code ↔ st ≠ .completed := by
  cases st <;> decide

/-- `AUTH__REP__*`. -/
inductive AuthRep
  | ok
  | msg
  | failed
deriving DecidableEq, Repr

def ERR_BAD_COMMAND : Int := -2
def ERR_AUTH_CONTINUE : Int := -4
def ERR_WAIT_FOR_SCRIPT : Int := -5
def ERR_NO_IP : Int := -8
def ERR_WORKER_TERMINATED : Int := -11

def REASON_USER_DISCONNECT : Nat := 2
def REASON_SERVER_DISCONNECT : Nat := 3
def REASON_SESSION_TIMEOUT : Nat := 7

/-! ## Authentication types -/

/-- A set of `AUTH_TYPE_*` bits. -/
abbrev AuthType := BitVec 32

def AUTH_TYPE_USERNAME_PASS : AuthType := 1
def AUTH_TYPE_PAM : AuthType := 3
def AUTH_TYPE_PLAIN : AuthType := 5
def AUTH_TYPE_CERTIFICATE : AuthType := 8
def AUTH_TYPE_RADIUS : AuthType := 33
def AUTH_TYPE_GSSAPI : AuthType := 64
def AUTH_TYPE_OIDC : AuthType := 128
def CONFIDENTIAL_USER_NAME_AUTH_TYPES : AuthType := AUTH_TYPE_GSSAPI ||| AUTH_TYPE_OIDC

/-- `type & bits` taken as a truth value. -/
def AuthType.has (type bits : AuthType) : Bool := type &&& bits != 0

/-! ## Configuration -/

/-- What an authentication module offers.  Its functions are answered by the
environment of each command; here is only what the callers test for. -/
structure AuthMod where
  /-- whether there is an `auth_group` hook -/
  auth_group : Bool
  allows_retries : Bool
deriving DecidableEq, Repr

/-- One entry of the configured authentication methods. -/
structure AuthMethod where
  enabled : Bool
  type : AuthType
  amod : Option AuthMod
deriving DecidableEq, Repr

/-- The hooks of an accounting module. -/
structure AcctMod where
  open_session : Bool
  session_stats : Bool
  close_session : Bool
deriving DecidableEq, Repr

/-- The network settings of a virtual host. -/
structure NetworkCfg where
  ipv4 : Option CStr := none
  ipv4_network : Option CStr := none
  ipv4_netmask : Option CStr := none
  ipv6 : Option CStr := none
  ipv6_network : Option CStr := none
  ipv6_prefix_len : Nat := 0
  ipv6_subnet_prefix_len : Nat := 0
deriving DecidableEq, Repr

/-- The settings of a virtual host that can change at run time, with the values
they have when the configuration file says nothing. -/
structure Cfg where
  cookie_timeout : Int := 300
  auth_timeout : Int := 240
  persistent_cookies : Bool := false
  predictable_ips : Bool := false
  cert_user_oid : Option CStr := none
  cert_group_oid : Option CStr := none
  max_ban_score : Nat := 80
  ban_points_wrong_password : Nat := 10
  deny_roaming : Bool := false
  max_same_clients : Nat := 0
  default_mtu : Nat := 0
  restrict_user_to_routes : Bool := false
  n_fw_ports : Nat := 0
  connect_script : Option CStr := none
  disconnect_script : Option CStr := none
  host_update_script : Option CStr := none
  route_add_cmd : Option CStr := none
  route_del_cmd : Option CStr := none
  listen_proxy_proto : Bool := false
  network : NetworkCfg := {}
deriving DecidableEq, Repr

/-- A virtual host. -/
structure VhostCfg where
  name : Option CStr := none
  auth : List AuthMethod := []
  acct : Option AcctMod := none
  /-- whether the configuration module has a `get_sup_config` hook -/
  get_sup_config : Bool := false
  config : Cfg := {}
deriving DecidableEq, Repr

/-- The virtual hosts: the named ones in list order, and the default one. -/
structure VConfig where
  named : List VhostCfg := []
  default_vhost : VhostCfg
deriving DecidableEq, Repr

/-- Equality of C strings up to the case of ASCII letters. -/
def strcasecmp_eq (a b : CStr) : Bool := a.map Char.toLower == b.map Char.toLower

def find_vhost (vconfig : VConfig) : Option CStr → VhostCfg
  | none => vconfig.default_vhost
  | some name =>
    (vconfig.named.find? fun v => v.name.any (strcasecmp_eq · name)).getD vconfig.default_vhost

/-- `GroupCfgSt`, the per-user configuration.  An optional field is absent until
`apply_default_config` has filled it in. -/
structure GroupCfg where
  deny_roaming : Option Bool := none
  max_same_clients : Option Nat := none
  ipv4_net : Option CStr := none
  ipv4_netmask : Option CStr := none
  explicit_ipv4 : Option CStr := none
  ipv6_net : Option CStr := none
  ipv6_prefix_len : Option Nat := none
  ipv6_subnet_prefix_len : Option Nat := none
  explicit_ipv6 : Option CStr := none
  restrict_user_to_routes : Option Bool := none
  n_fw_ports : Nat := 0
  iroutes : List CStr := []
deriving DecidableEq, Repr

/-! ## Library functions -/

/-- A socket address as the bytes of a `sockaddr_storage`, up to its length. -/
abbrev SockAddr := List UInt8

/-- The size of a `sockaddr_storage`. -/
def SOCKADDR_STORAGE_SIZE : Nat := 128

/-- The `sa_family` that starts an IPv4 address. -/
def AF_INET : List UInt8 := [2, 0]

/-- Whether `ip_cmp` finds two addresses equal: it looks at the family of the first one. -/
def ip_cmp_eq (s1 s2 : SockAddr) : Bool :=
  if s1.take 2 = AF_INET then (s1.drop 4).take 4 == (s2.drop 4).take 4
  else (s1.drop 8).take 16 == (s2.drop 8).take 16

/-- The functions of libraries whose results the components only compare, store
or print. -/
class Platform where
  hash_any : List UInt8 → Nat
  /-- the printable identifier of a session, a base64 encoded hash -/
  calc_safe_id : Sid → CStr
  calc_safe_id_length : ∀ sid, (calc_safe_id sid).length = 28
  /-- HMAC-SHA256 under a key -/
  hmac_sha256 : List UInt8 → List UInt8 → List UInt8
  human_addr2 : SockAddr → Option CStr
  sha1 : (w : Nat) → BitVec w → BitVec 160
  /-- the bytes of a `time_t` -/
  time_bytes : Int → List UInt8
  base64_decode : CStr → Option (List UInt8)

/-- A platform on which the model can be evaluated: all hashes collide, and a
printable identifier shows the first bytes of the session identifier; of base64 it
knows the zero bytes of a cookie. -/
@[reducible] def Platform.simple : Platform where
  hash_any _ := 0
  calc_safe_id sid := (sid.1.take 28).map fun b => Char.ofNat b.toNat
  calc_safe_id_length sid := by
    have hlen : sid.1.length = 32 := sid.2
    simp [hlen]
  hmac_sha256 _ _ := List.replicate 32 0
  human_addr2 addr := some (addr.map fun b => Char.ofNat b.toNat)
  sha1 _ x := x.setWidth 160
  time_bytes _ := []
  base64_decode s :=
    if s = List.replicate 43 'A' ++ ['='] then some (List.replicate 32 0) else none

end Ocserv

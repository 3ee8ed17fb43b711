import Ocserv.Auth.Plain

/-!
# Authentication with RADIUS

The module of `auth/radius.c`.  `radius_auth_pass` sends the password to the server and reads the
reply: an Access-Accept carries attributes with the settings of the session, an Access-Challenge
asks for another password.  `radius_auth_msg` gives the prompt of the next round and counts the
prompts.

The message to the server is not part of the model; what comes back is a parameter of each call.
-/

namespace Ocserv

open SecMod (MAX_GROUPS)

namespace Radius

def MAX_CHALLENGES : Nat := 16

/-- The value of Service-Type for a framed service. -/
def PW_FRAMED : Nat := 2

/-- The attributes the module knows, and the codes of all others. -/
inductive Attr where
  | service_type
  | group_name
  | framed_ipv6_address
  | delegated_prefix_ipv6
  | framed_prefix_ipv6
  | dns_server_ipv6_address
  | framed_ip_address
  | framed_ip_netmask
  | ms_primary_dns_server
  | ms_secondary_dns_server
  | framed_route
  | framed_ipv6_route
  | acct_interim_interval
  | session_timeout
  | rp_upstream_speed_limit
  | rp_downstream_speed_limit
  | state
  | other (code : Nat)
deriving DecidableEq, Repr

inductive PwType where
  | string
  | integer
  | ipaddr
  | ipv6addr
  | prefix_ipv6
  | other (code : Nat)
deriving DecidableEq, Repr

/-- `VALUE_PAIR`: `lvalue` is the value of a number, and the length of what is in the buffer
`strvalue` otherwise. -/
structure ValuePair where
  attr : Attr
  type : PwType
  lvalue : Nat := 0
  strvalue : List UInt8 := []
deriving DecidableEq, Repr

/-- The string in the buffer. -/
def ValuePair.text (vp : ValuePair) : CStr :=
  (vp.strvalue.takeWhile (· != 0)).map fun b => Char.ofNat b.toNat

/-- The text that the C library writes for an IPv6 address. -/
class NetText where
  text6 : List UInt8 → CStr
  text6_ne_nil : ∀ addr, text6 addr ≠ []
  text6_length_lt : ∀ addr, (text6 addr).length < MAX_IP_STR

/-- A text on which the model can be evaluated: a character for each byte. -/
@[reducible] def NetText.simple : NetText where
  text6 addr := ':' :: (addr.take 16).map fun b => Char.ofNat b.toNat
  text6_ne_nil _ := List.cons_ne_nil _ _
  text6_length_lt addr := by
    have hlen : (addr.take 16).length ≤ 16 := List.length_take_le 16 addr
    simp only [List.length_cons, List.length_map, MAX_IP_STR]
    omega

/-- `inet_ntop (AF_INET6, …, size)`, which needs room for the text. -/
def inet_ntop6 [NetText] (addr : List UInt8) (size : Nat) : Option CStr :=
  if (NetText.text6 (addr.take 16)).length < size then some (NetText.text6 (addr.take 16))
  else none

/-- What the attributes set for the session: the fields of `radius_st` for the configuration. -/
structure Settings where
  groupnames : List CStr := []
  interim_interval_secs : Nat := 0
  session_timeout_secs : Nat := 0
  ipv4 : CStr := []
  ipv4_mask : CStr := []
  ipv4_dns1 : CStr := []
  ipv4_dns2 : CStr := []
  ipv6 : CStr := []
  ipv6_net : CStr := []
  ipv6_subnet_prefix_len : Nat := 0
  ipv6_dns1 : CStr := []
  ipv6_dns2 : CStr := []
  rx_per_sec : Nat := 0
  tx_per_sec : Nat := 0
  routes : List CStr := []
deriving DecidableEq, Repr

/-- `radius_st`. -/
structure RadiusSt where
  settings : Settings := {}
  pass_msg : CStr := []
  /-- the counters are `unsigned int`s -/
  retries : Nat := 0
  id : Nat := 0
  state : Option (List UInt8) := none
  passwd_counter : Nat := 0
  prev_prompt_hash : Nat := 0
  /-- of the virtual host -/
  group_separator : CStr := [';']
deriving DecidableEq, Repr

/-- The context of a new authentication; a request without a username has none. -/
def radius_auth_init (username : CStr) (id : Nat) (group_separator : CStr) : Option RadiusSt :=
  if username = [] then none else some { id, group_separator }

/-! ## Attributes -/

/-- `append_route (pctx, route, len)`: what is appended. -/
def append_route (routes : List CStr) (route : CStr) (len : Nat) : List CStr :=
  if '/' ∈ route then
    -- the blank that ends the destination is looked for behind the slash
    let head := route.takeWhile (· != '/')
    let rest := route.dropWhile (· != '/')
    let len := if ' ' ∈ rest then head.length + (rest.takeWhile (· != ' ')).length else len
    routes ++ [route.take len]
  else routes

/-- The loop of `parse_groupnames` over the names that `strsep` returns. -/
def add_groups (groupnames : List CStr) : List CStr → List CStr
  | [] => groupnames
  | g :: rest =>
    if (groupnames ++ [g]).length = MAX_GROUPS then groupnames ++ [g]
    else add_groups (groupnames ++ [g]) rest

/-- Parses groups of the format `OU=group1<sep>group2`. -/
def parse_groupnames (sep : CStr) (groupnames : List CStr) (full : CStr) : List CStr :=
  if MAX_GROUPS ≤ groupnames.length then groupnames
  else if full.take 3 = "OU=".toList then
    add_groups groupnames ((full.drop 3).splitOnP fun c => sep.contains c)
  else groupnames ++ [full]

/-- The address that `memcpy` makes of a prefix of `lvalue - 2` bytes. -/
def ValuePair.prefix_addr (vp : ValuePair) : List UInt8 :=
  (vp.strvalue.drop 2).take (vp.lvalue - 2) ++ List.replicate (16 - (vp.lvalue - 2)) 0

/-- The length of a prefix. -/
def ValuePair.prefix_len (vp : ValuePair) : Nat := (vp.strvalue.getD 1 0).toNat

/-- A prefix that fits into an address. -/
def ValuePair.prefix_fits (vp : ValuePair) : Bool :=
  vp.type = .prefix_ipv6 && 2 < vp.lvalue && vp.lvalue ≤ 18

/-- The text of an IPv4 address, or of a mask. -/
def ValuePair.text4 (vp : ValuePair) : CStr := Inet.inet_ntop4 (BitVec.ofNat 32 vp.lvalue)

section Attributes

variable [NetText]

def framed_ipv6_address (s : Settings) (vp : ValuePair) : Settings :=
  match inet_ntop6 vp.strvalue MAX_IP_STR with
  | none => s
  | some ipv6 =>
    { s with ipv6, ipv6_subnet_prefix_len := 64, ipv6_net := strlcpy ipv6 MAX_IP_STR }

def delegated_prefix_ipv6 (s : Settings) (vp : ValuePair) : Settings :=
  match inet_ntop6 vp.strvalue MAX_IP_STR with
  | none => s
  | some raw =>
    match inet_ntop6 vp.prefix_addr MAX_IP_STR with
    | none => { s with ipv6 := raw }
    | some ipv6 => { s with ipv6, ipv6_subnet_prefix_len := vp.prefix_len }

/-- The route to a prefix, as it is printed into a buffer of 72 bytes. -/
def prefix_route (txt : CStr) (len : Nat) : CStr := (txt ++ '/' :: Nat.toDigits 10 len).take 71

def framed_prefix_ipv6 (s : Settings) (vp : ValuePair) : Settings :=
  match inet_ntop6 vp.prefix_addr 64 with
  | none => s
  | some txt =>
    let route := prefix_route txt vp.prefix_len
    { s with routes := append_route s.routes route route.length }

def dns_server_ipv6_address (s : Settings) (vp : ValuePair) : Settings :=
  if s.ipv6_dns1 = [] then
    { s with ipv6_dns1 := (inet_ntop6 vp.strvalue MAX_IP_STR).getD s.ipv6_dns1 }
  else if s.ipv6_dns2 = [] then
    { s with ipv6_dns2 := (inet_ntop6 vp.strvalue MAX_IP_STR).getD s.ipv6_dns2 }
  else s

/-- The loop body for an Access-Accept. -/
def accept_attr (sep : CStr) (s : Settings) (vp : ValuePair) : Settings :=
  match vp.attr with
  | .group_name =>
    if vp.type = .string then
      { s with groupnames := parse_groupnames sep s.groupnames vp.text } else s
  | .framed_ipv6_address => if vp.type = .ipv6addr then framed_ipv6_address s vp else s
  | .delegated_prefix_ipv6 => if vp.prefix_fits then delegated_prefix_ipv6 s vp else s
  | .framed_prefix_ipv6 => if vp.prefix_fits then framed_prefix_ipv6 s vp else s
  | .dns_server_ipv6_address => if vp.type = .ipv6addr then dns_server_ipv6_address s vp else s
  | .framed_ip_address =>
    -- the two values ask for an address of the pool, or for one that is negotiated
    if vp.type = .ipaddr ∧ vp.lvalue ≠ 0xffffffff ∧ vp.lvalue ≠ 0xfffffffe then
      { s with ipv4 := vp.text4 } else s
  | .framed_ip_netmask => if vp.type = .ipaddr then { s with ipv4_mask := vp.text4 } else s
  | .ms_primary_dns_server => if vp.type = .ipaddr then { s with ipv4_dns1 := vp.text4 } else s
  | .ms_secondary_dns_server => if vp.type = .ipaddr then { s with ipv4_dns2 := vp.text4 } else s
  | .framed_route | .framed_ipv6_route =>
    if vp.type = .string then
      { s with routes := append_route s.routes vp.text vp.lvalue } else s
  | .acct_interim_interval =>
    if vp.type = .integer then { s with interim_interval_secs := vp.lvalue } else s
  | .session_timeout =>
    if vp.type = .integer then { s with session_timeout_secs := vp.lvalue } else s
  | .rp_upstream_speed_limit =>
    if vp.type = .integer then { s with rx_per_sec := vp.lvalue } else s
  | .rp_downstream_speed_limit =>
    if vp.type = .integer then { s with tx_per_sec := vp.lvalue } else s
  | .service_type | .state | .other _ => s

/-- A service other than a framed one. -/
def ValuePair.refused (vp : ValuePair) : Bool :=
  vp.attr = .service_type && vp.lvalue != PW_FRAMED

/-- The loop over the attributes of an Access-Accept, which ends at a service that is refused;
whether it came to the end. -/
def accept_loop (sep : CStr) (s : Settings) : List ValuePair → Settings × Bool
  | [] => (s, true)
  | vp :: rest => if vp.refused then (s, false) else accept_loop sep (accept_attr sep s vp) rest

end Attributes

/-! ## A password -/

inductive ReplyCode where
  | ok
  | challenge
  | other (code : Int)
deriving DecidableEq, Repr

/-- What a call gets from outside. -/
structure Reply where
  /-- whether the request can be put together -/
  built : Bool := true
  code : ReplyCode
  recvd : List ValuePair := []
  /-- the Reply-Message -/
  msg : CStr := []
deriving DecidableEq, Repr

/-- The loop body for an Access-Challenge. -/
def challenge_attr (pctx : RadiusSt) (vp : ValuePair) : RadiusSt :=
  if vp.attr = .state ∧ vp.type = .string then
    { pctx with
      state := if 0 < vp.lvalue then some (vp.strvalue.take vp.lvalue) else pctx.state
      id := pctx.id + 1 }
  else pctx

/-- The part behind the label `fail`. -/
def auth_failed (pctx : RadiusSt) : RadiusSt × Int :=
  ({ pctx with
      pass_msg := if pctx.pass_msg = [] then pass_msg_failed.toList else pctx.pass_msg
      retries := (pctx.retries + 1) % 4294967296 },
    if pctx.retries < MAX_PASSWORD_TRIES - 1 ∧ pctx.passwd_counter = 0 then ERR_AUTH_CONTINUE
    else ERR_AUTH_FAIL)

/-- The branch for an Access-Challenge. -/
def auth_challenged (pctx : RadiusSt) (recvd : List ValuePair) : RadiusSt × Int :=
  let pctx := recvd.foldl challenge_attr pctx
  if pctx.pass_msg = [] ∨ pctx.state = none ∨ MAX_CHALLENGES ≤ pctx.passwd_counter then
    ({ pctx with pass_msg := pass_msg_failed.toList }, ERR_AUTH_FAIL)
  else (pctx, ERR_AUTH_CONTINUE)

def radius_auth_pass [NetText] (pctx : RadiusSt) (reply : Reply) : RadiusSt × Int :=
  if reply.built then
    -- the state goes with the request
    let pctx := { pctx with state := none, pass_msg := reply.msg }
    match reply.code with
    | .ok =>
      let r := accept_loop pctx.group_separator pctx.settings reply.recvd
      if r.2 then ({ pctx with settings := r.1 }, 0)
      else auth_failed { pctx with settings := r.1 }
    | .challenge => auth_challenged pctx reply.recvd
    | .other _ => auth_failed pctx
  else (pctx, ERR_AUTH_FAIL)

/-- The context, the prompt and its number. -/
def radius_auth_msg [Platform] (pctx : RadiusSt) : RadiusSt × Option CStr × Option Nat :=
  let msg_str := if pctx.pass_msg = [] then none else some pctx.pass_msg
  match pctx.state with
  | none => (pctx, msg_str, none)
  | some _ =>
    -- a prompt counts when its hash is not that of the last one
    let prompt_hash := Platform.hash_any pctx.pass_msg.bytes
    let passwd_counter :=
      if pctx.prev_prompt_hash = prompt_hash then pctx.passwd_counter
      else (pctx.passwd_counter + 1) % 4294967296
    ({ pctx with passwd_counter, prev_prompt_hash := prompt_hash }, msg_str, some passwd_counter)

end Radius

end Ocserv

import Ocserv.SecMod.Db

/-!
# Authentication in sec-mod

The handlers of `sec-mod-auth.c` that workers reach: the start of an
authentication, its continuation with a password, and the reports of traffic.  An
authentication ends in `handle_sec_auth_res`, which asks the module for its next
prompt, checks the group and the certificate, and sets the status of the entry.

Each handler returns the new state and the code it returns to its caller.
-/

namespace Ocserv

/-! ## Group and certificate checks -/

/-- Whether the certificate check of `e` applies. -/
def ClientEntry.withCert (e : ClientEntry) : Bool := e.auth_type.has AUTH_TYPE_CERTIFICATE

/-- Compare the account with the certificate, and name the account after the
certificate when it has no name yet. -/
def check_cert_user_group_status (e : ClientEntry) : Option ClientEntry :=
  let cfg := e.vhost.config
  if !e.withCert then some e
  else if cfg.cert_user_oid.isSome && e.cert_user_name == [] then none
  else if !e.tls_auth_ok then none
  else if e.acct_info.username == [] && cfg.cert_user_oid.isSome then
    if e.cert_user_name == [] then none
    else
      let groupname :=
        if cfg.cert_group_oid.isSome && e.acct_info.groupname == [] then
          match e.cert_group_names with
          | [] => e.acct_info.groupname
          | g :: _ => strlcpy g MAX_GROUPNAME_SIZE
        else e.acct_info.groupname
      some
        { e with
          acct_info :=
            { e.acct_info with
              username := strlcpy e.cert_user_name ACCT_USERNAME_SIZE
              groupname } }
  else if cfg.cert_user_oid.isSome && e.cert_user_name != [] &&
      e.acct_info.username != e.cert_user_name then none
  else if cfg.cert_group_oid.isSome && !e.cert_group_names.contains e.acct_info.groupname then
    none
  else some e

/-- The group that the module chooses, when it has a say. -/
def group_from_module (env : SecEnv) (e : ClientEntry) : ClientEntry × Bool :=
  if e.amod.any (·.auth_group) then
    ({ e with
        acct_info :=
          { e.acct_info with groupname := strlcpy env.auth_group_name MAX_GROUPNAME_SIZE } },
      env.auth_group == 0)
  else (e, true)

/-- The requested group, when no group has been set and the certificate has it. -/
def group_from_cert (e : ClientEntry) : Option ClientEntry :=
  if e.withCert && e.acct_info.groupname == [] && e.req_group_name != [] &&
      e.vhost.config.cert_group_oid.isSome then
    if e.cert_group_names.contains e.req_group_name then
      some
        { e with
          acct_info :=
            { e.acct_info with groupname := strlcpy e.req_group_name MAX_GROUPNAME_SIZE } }
    else none
  else some e

/-- The entry after the check, and whether it passed. -/
def check_group (env : SecEnv) (e : ClientEntry) : ClientEntry × Bool :=
  let r := group_from_module env e
  if !r.2 then (r.1, false)
  else
    match group_from_cert r.1 with
    | none => (r.1, false)
    | some e =>
      match check_cert_user_group_status e with
      | none => (e, false)
      | some e => (e, true)

/-! ## The result of an authentication step -/

section Handlers

variable [Platform]

namespace SecMod

def sec_mod_add_score_to_ip (sec : SecMod) (e : ClientEntry) (ip : CStr) (points : Nat) : SecMod :=
  if e.vhost.config.max_ban_score = 0 then sec
  else { sec with log := .ban_ip ip points e.sid :: sec.log }

/-- The counters are 32 bits wide. -/
def update_auth_time_stats (sec : SecMod) (secs : Int) : SecMod :=
  if secs < 0 then sec
  else
    let total := (sec.total_authentications + 1) % 2 ^ 32
    if total = 0 then
      { sec with total_authentications := 0, avg_auth_time := 0, max_auth_time := 0 }
    else
      { sec with
        total_authentications := total
        max_auth_time :=
          if sec.max_auth_time < secs.toNat then secs.toNat % 2 ^ 32 else sec.max_auth_time
        avg_auth_time := (sec.avg_auth_time * (total - 1) + secs.toNat) / total % 2 ^ 32 }

/-- Send a reply to the worker about `e`; the prompt is freed once it is sent. -/
def send_sec_auth_reply (env : SecEnv) (sec : SecMod) (e : ClientEntry) (r : AuthRep) :
    SecMod × ClientEntry × Int :=
  let sec := if r = .ok then sec.update_auth_time_stats (env.time 2 - e.created)
    else { sec with auth_failures := sec.auth_failures + 1 }
  if env.send_ok then
    ({ sec with log := .auth_reply e.sid r :: sec.log }, { e with msg_str := none }, 0)
  else (sec, e, -1)

/-- Send the next prompt to the worker. -/
def send_sec_auth_reply_msg (env : SecEnv) (sec : SecMod) (e : ClientEntry) :
    SecMod × ClientEntry × Int :=
  if env.send_ok then
    ({ sec with log := .auth_reply e.sid .msg :: sec.log }, { e with msg_str := none }, 0)
  else (sec, { e with msg_str := none }, -1)

/-- The module wants another answer from the user. -/
def auth_res_continue (env : SecEnv) (sec : SecMod) (e : ClientEntry) (passwd_retries : Bool) :
    SecMod × Int :=
  let sec :=
    if e.status ≠ .init && e.amod.any (·.allows_retries) && passwd_retries then
      sec.sec_mod_add_score_to_ip e e.acct_info.remote_ip
        e.vhost.config.ban_points_wrong_password
    else sec
  let r := send_sec_auth_reply_msg env sec e
  if r.2.2 < 0 then (r.1.store { r.2.1 with status := .failed }, r.2.2)
  else (r.1.store r.2.1, 0)

/-- The entry once its group has been accepted: its status is set first, and then
the module may give the user another name. -/
def complete_entry (env : SecEnv) (e : ClientEntry) : ClientEntry :=
  let e := { e with status := .completed }
  if e.amod.isSome then
    { e with
      acct_info :=
        { e.acct_info with
          username := strlcpy (env.auth_user e.acct_info.username) ACCT_USERNAME_SIZE } }
  else e

/-- The module has accepted the user. -/
def auth_res_success (env : SecEnv) (sec : SecMod) (e : ClientEntry) : SecMod × Int :=
  let g := check_group env e
  if !g.2 then (sec.store { g.1 with status := .failed }, -1)
  else
    let r := send_sec_auth_reply env sec (complete_entry env g.1) .ok
    if r.2.2 < 0 then (r.1.store { r.2.1 with status := .failed }, r.2.2)
    else (r.1.store r.2.1, 0)

/-- The authentication has failed. -/
def auth_res_failure (env : SecEnv) (sec : SecMod) (e : ClientEntry) (result : Int) :
    SecMod × Int :=
  let e := { e with status := .failed }
  let sec := sec.sec_mod_add_score_to_ip e e.acct_info.remote_ip
    e.vhost.config.ban_points_wrong_password
  let r := send_sec_auth_reply env sec e .failed
  (r.1.store r.2.1,
    if r.2.2 < 0 then r.2.2 else if result < 0 then result else ERR_BAD_COMMAND)

/-- Act on the result of a step of the module for `e`. -/
def handle_sec_auth_res (env : SecEnv) (sec : SecMod) (e : ClientEntry) (result : Int) :
    SecMod × Int :=
  let asks := (result == ERR_AUTH_CONTINUE || result == 0) && e.amod.isSome
  if asks && env.auth_msg < 0 then (sec.store { e with status := .failed }, env.auth_msg)
  else
    -- the same stage asked again, unless the module has moved on to another password
    let passwd_retries := !(asks && e.passwd_counter < env.auth_msg_counter)
    let e :=
      if asks then
        { e with msg_str := env.auth_msg_str, passwd_counter := env.auth_msg_counter }
      else e
    if result = ERR_AUTH_CONTINUE then auth_res_continue env sec e passwd_retries
    else if result = 0 ∧ e.status ≠ .failed then auth_res_success env sec e
    else auth_res_failure env sec e result

/-! ## Starting and continuing an authentication -/

/-- The first enabled method that contains the type asked for. -/
def select_method (vhost : VhostCfg) (auth_type : AuthType) : Option AuthMethod :=
  if auth_type = 0 then none
  else vhost.auth.find? fun m => m.enabled && m.type &&& auth_type == auth_type

def set_module (vhost : VhostCfg) (e : ClientEntry) (auth_type : AuthType) : Option ClientEntry :=
  (select_method vhost auth_type).map fun m => { e with amod := m.amod, auth_type := m.type }

structure SecAuthInitMsg where
  tls_auth_ok : Bool
  user_name : Option CStr
  group_name : Option CStr
  cert_user_name : Option CStr
  cert_group_names : List CStr
  remote_ip : CStr
  auth_type : AuthType
  our_ip : Option CStr
  user_agent : Option CStr
  device_platform : Option CStr
  device_type : Option CStr
  vhost : Option CStr
  session_start_time : Int
  hmac : List UInt8
  orig_remote_ip : Option CStr
deriving DecidableEq, Repr

def HMAC_DIGEST_SIZE : Nat := 32
def MAX_GROUPS : Nat := 512

/-- The components are authenticated one after the other; an absent one counts
for nothing. -/
def generate_hmac (key : List UInt8) (components : List (Option (List UInt8))) : List UInt8 :=
  Platform.hmac_sha256 key (components.filterMap id).flatten

/-- The copy of an optional message field into a buffer of `size` bytes. -/
def copyField (field : Option CStr) (size : Nat) (old : CStr) : CStr :=
  match field with
  | none => old
  | some v => strlcpy v size

/-- The fields of the entry that come from the message. -/
def fill_entry (req : SecAuthInitMsg) (e : ClientEntry) : ClientEntry :=
  { e with
    tls_auth_ok := req.tls_auth_ok
    acct_info :=
      { e.acct_info with
        device_platform :=
          copyField req.device_platform MAX_DEVICE_PLATFORM e.acct_info.device_platform
        device_type := copyField req.device_type MAX_DEVICE_TYPE e.acct_info.device_type
        user_agent := copyField req.user_agent MAX_AGENT_NAME e.acct_info.user_agent
        -- the real name is retrieved after the authentication
        username :=
          if req.auth_type.has CONFIDENTIAL_USER_NAME_AUTH_TYPES then e.acct_info.username
          else copyField req.user_name ACCT_USERNAME_SIZE e.acct_info.username
        our_ip := copyField req.our_ip MAX_IP_STR e.acct_info.our_ip }
    req_group_name := copyField req.group_name MAX_GROUPNAME_SIZE e.req_group_name
    cert_user_name := copyField req.cert_user_name MAX_USERNAME_SIZE e.cert_user_name
    cert_group_names := req.cert_group_names.take MAX_GROUPS
    status := .init }

/-- Whether the parameters of the client are those main has handed out, and
recent. -/
def init_authentic (env : SecEnv) (sec : SecMod) (req : SecAuthInitMsg) : Bool :=
  match req.orig_remote_ip with
  | none => false
  | some ip =>
    req.hmac.length == HMAC_DIGEST_SIZE &&
      generate_hmac sec.hmac_key
        [some ip.bytes, req.our_ip.map CStr.bytes,
          some (Platform.time_bytes req.session_start_time)] == req.hmac &&
      env.time 0 - req.session_start_time ≤
        (find_vhost sec.vconfig req.vhost).config.auth_timeout

/-- Deal with an entry that is already attached to this pid: one whose
authentication has failed and that nobody uses is deleted, any other one makes
the request fail. -/
def detach_old (sec : SecMod) (pid : Nat) : SecMod × Bool :=
  match sec.find_client_entry_by_pid pid with
  | none => (sec, true)
  | some old =>
    if old.status = .failed ∧ old.in_use = 0 then (sec.del_client_entry old, true)
    else
      (sec.sec_mod_add_score_to_ip old old.acct_info.remote_ip
        old.vhost.config.ban_points_wrong_password, false)

/-- The authentication of the new entry `e`. -/
def start_auth (env : SecEnv) (sec : SecMod) (req : SecAuthInitMsg) (vhost : VhostCfg)
    (e : ClientEntry) : SecMod × Int :=
  match set_module vhost e req.auth_type with
  | none => handle_sec_auth_res env sec e (-1)
  | some e =>
    if e.amod.isSome && env.auth_init < 0 && env.auth_init != ERR_AUTH_CONTINUE then
      handle_sec_auth_res env sec e env.auth_init
    else
      handle_sec_auth_res env sec (fill_entry req e)
        (if e.amod.isSome && env.auth_init == ERR_AUTH_CONTINUE then ERR_AUTH_CONTINUE else 0)

def handle_sec_auth_init (env : SecEnv) (sec : SecMod) (req : SecAuthInitMsg) (pid : Nat) :
    SecMod × Int :=
  if !init_authentic env sec req then (sec, -1)
  else
    let vhost := find_vhost sec.vconfig req.vhost
    let r := sec.detach_old pid
    if !r.2 then (r.1, -1)
    else
      match r.1.new_client_entry env vhost req.remote_ip pid with
      | none => (r.1, -1)
      | some (sec, e) => start_auth env sec req vhost e

structure SecAuthContMsg where
  sid : List UInt8
  password : Option CStr
deriving DecidableEq, Repr

def handle_sec_auth_cont (env : SecEnv) (sec : SecMod) (req : SecAuthContMsg) : SecMod × Int :=
  match (Sid.ofBytes? req.sid).bind sec.client_db.find with
  | none => (sec, -1)
  | some e =>
    if e.status ≠ .init ∧ e.status ≠ .cont then handle_sec_auth_res env sec e (-1)
    else if req.password.isNone || e.amod.isNone then handle_sec_auth_res env sec e (-1)
    else handle_sec_auth_res env sec { e with status := .cont } env.auth_pass

/-! ## Reports -/

structure BanIpReplyMsg where
  sid : List UInt8
  reply : AuthRep
deriving DecidableEq, Repr

def handle_sec_auth_ban_ip_reply (sec : SecMod) (msg : BanIpReplyMsg) : SecMod :=
  match (Sid.ofBytes? msg.sid).bind sec.client_db.find with
  | none => sec
  | some e => if msg.reply ≠ .ok then sec.store { e with status := .failed } else sec

/-- `CliStatsMsg`, from a worker. -/
structure CliStatsMsg where
  sid : List UInt8
  bytes_in : UInt64
  bytes_out : UInt64
  remote_ip : Option CStr
  ipv4 : Option CStr
  ipv6 : Option CStr
  discon_reason : Option Nat
deriving DecidableEq, Repr

def handle_sec_auth_stats_cmd (env : SecEnv) (sec : SecMod) (req : CliStatsMsg) (pid : Nat) :
    SecMod × Int :=
  match (Sid.ofBytes? req.sid).bind sec.client_db.find with
  | none => (sec, -1)
  | some e =>
    if e.status ≠ .completed then (sec, -1)
    else
      let e :=
        { e with
          stats := e.stats.raise ⟨req.bytes_in, req.bytes_out⟩
          discon_reason := if req.discon_reason.getD 0 = 0 then e.discon_reason
            else req.discon_reason.getD 0
          acct_info := { e.acct_info with id := pid } }
      if !e.vhost.acct.any (·.session_stats) then (sec.store e, 0)
      else
        let e :=
          { e with
            acct_info :=
              { e.acct_info with
                remote_ip := copyField req.remote_ip MAX_IP_STR e.acct_info.remote_ip
                ipv4 := copyField req.ipv4 MAX_IP_STR e.acct_info.ipv4
                ipv6 := copyField req.ipv6 MAX_IP_STR e.acct_info.ipv6
                uptime := env.time 0 - e.created } }
        ({ sec with
            log := .session_stats e.sid (stats_add_to e.stats e.saved_stats) :: sec.log }.store e,
          0)

end SecMod
end Handlers
end Ocserv

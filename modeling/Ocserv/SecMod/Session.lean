import Ocserv.SecMod.Auth

/-!
# Sessions in sec-mod, and the commands it executes

Main opens a session when a client presents its cookie and closes it when the
worker is gone; both are requests on a synchronous channel.  `SecMod.exec` is the
dispatch over everything that changes the session database.
-/

namespace Ocserv

section Handlers

variable [Platform]

/-! ## Opening a session -/

structure SecmSessionOpenMsg where
  sid : List UInt8
  ipv4 : Option CStr
  ipv6 : Option CStr
deriving DecidableEq, Repr

/-- `SecmSessionReplyMsg` with reply `OK`. -/
structure SessionInfo where
  username : CStr
  groupname : CStr
  user_agent : CStr
  device_platform : CStr
  device_type : CStr
  ip : CStr
  tls_auth_ok : Bool
  vhost : Option CStr
  ipv4_seed : BitVec 32
  sid : Sid
  session_start_time : Int
  config : GroupCfg
deriving DecidableEq, Repr

/-- The reply that main receives to an open request. -/
inductive SessionReply
  | failed
  | ok (info : SessionInfo)
deriving DecidableEq, Repr

namespace SecMod

/-- What an open request leads to: the reply, unless none could be sent, and the
code the handler returns. -/
structure OpenResult where
  sec : SecMod
  reply : Option SessionReply
  ret : Int

def send_failed_session_open_reply (env : SecEnv) (sec : SecMod) : OpenResult :=
  if env.send_ok then ⟨sec, some .failed, 0⟩ else ⟨sec, none, ERR_BAD_COMMAND⟩

/-- The seed of the address: from the name of the user, or random. -/
def ipv4_seed (env : SecEnv) (e : ClientEntry) : Option (BitVec 32) :=
  if e.vhost.config.predictable_ips then
    some (BitVec.ofNat 32 (Platform.hash_any e.acct_info.username.bytes))
  else env.rnd_seed

def session_info (e : ClientEntry) (seed : BitVec 32) (config : GroupCfg) : SessionInfo :=
  { username := e.acct_info.username
    groupname := e.acct_info.groupname
    user_agent := e.acct_info.user_agent
    device_platform := e.acct_info.device_platform
    device_type := e.acct_info.device_type
    ip := e.acct_info.remote_ip
    tls_auth_ok := e.tls_auth_ok
    vhost := e.vhost.name
    ipv4_seed := seed
    sid := e.sid
    session_start_time := e.created
    config }

/-- The additional configuration of the user. -/
def sup_config (env : SecEnv) (e : ClientEntry) : Option GroupCfg :=
  if e.vhost.get_sup_config then env.sup_config else some {}

/-- The entry is authenticated, not expired and admitted by the accounting. -/
def open_admitted (env : SecEnv) (sec : SecMod) (e : ClientEntry) : OpenResult :=
  let e := { e with session_is_open := true }
  let sec := sec.store e
  match ipv4_seed env e with
  | none => ⟨sec, none, -1⟩
  | some seed =>
    match sup_config env e with
    | none => send_failed_session_open_reply env sec
    | some config =>
      if !env.send_ok then ⟨sec, none, ERR_BAD_COMMAND⟩
      else
        ⟨sec.store
            { e with
              discon_reason := 0
              exptime := env.time 1 + e.vhost.config.cookie_timeout + AUTH_SLACK_TIME
              in_use := e.in_use + 1 },
          some (.ok (session_info e seed config)), 0⟩

/-- Open a session on an authenticated entry. -/
def open_completed (env : SecEnv) (sec : SecMod) (req : SecmSessionOpenMsg) (e : ClientEntry) :
    OpenResult :=
  if e.expired (env.time 0) then
    send_failed_session_open_reply env (sec.store { e with status := .failed })
  else
    let e :=
      { e with
        acct_info :=
          { e.acct_info with
            ipv4 := copyField req.ipv4 MAX_IP_STR e.acct_info.ipv4
            ipv6 := copyField req.ipv6 MAX_IP_STR e.acct_info.ipv6 } }
    if e.vhost.acct.any (·.open_session) && !e.session_is_open then
      let sec := { sec with log := .open_session e.sid (0 ≤ env.acct_open_session) :: sec.log }
      if env.acct_open_session < 0 then
        send_failed_session_open_reply env (sec.store { e with status := .failed })
      else open_admitted env sec e
    else open_admitted env sec e

def handle_secm_session_open_cmd (env : SecEnv) (sec : SecMod) (req : SecmSessionOpenMsg) :
    OpenResult :=
  match Sid.ofBytes? req.sid with
  | none => send_failed_session_open_reply env sec
  | some sid =>
    if sec_mod_instance_index_get sid ≠ sec.sec_mod_instance_index then
      send_failed_session_open_reply env sec
    else
      match sec.client_db.find sid with
      | none => send_failed_session_open_reply env sec
      | some e =>
        if e.status ≠ .completed then send_failed_session_open_reply env sec
        else open_completed env sec req e

/-! ## Closing a session -/

structure SecmSessionCloseMsg where
  sid : List UInt8
  bytes_in : Option UInt64
  bytes_out : Option UInt64
  server_disconnected : Bool
deriving DecidableEq, Repr

/-- The `CliStatsMsg` that answers a close request. -/
structure CloseReply where
  bytes_in : UInt64 := 0
  bytes_out : UInt64 := 0
  discon_reason : Option Nat := none
deriving DecidableEq, Repr

/-- The entry with what main reports at the end of the session. -/
def close_entry (env : SecEnv) (req : SecmSessionCloseMsg) (e : ClientEntry) : ClientEntry :=
  { e with
    acct_info := { e.acct_info with uptime := env.time 0 - e.created }
    stats := e.stats.raise ⟨req.bytes_in.getD 0, req.bytes_out.getD 0⟩
    discon_reason := if req.server_disconnected then REASON_SERVER_DISCONNECT
      else e.discon_reason }

/-- The entry with the traffic of the session moved to the saved totals. -/
def save_stats (e : ClientEntry) : ClientEntry :=
  { e with saved_stats := stats_add_to e.saved_stats e.stats, stats := {} }

def handle_secm_session_close_cmd (env : SecEnv) (sec : SecMod) (req : SecmSessionCloseMsg) :
    SecMod × Option CloseReply × Int :=
  match Sid.ofBytes? req.sid with
  | none => (sec, none, ERR_BAD_COMMAND)
  | some sid =>
    match sec.client_db.find sid with
    | none => if env.send_ok then (sec, some {}, 0) else (sec, none, -1)
    | some e =>
      if e.status.code < PsAuth.completed.code then
        if env.send_ok then (sec, some {}, 0) else (sec, none, -1)
      else
        let e := close_entry env req e
        if !env.send_ok then (sec.store e, none, ERR_BAD_COMMAND)
        else
          (sec.expire_client_entry (save_stats e) (env.time 1),
            some ⟨e.stats.bytes_in, e.stats.bytes_out, some e.discon_reason⟩, 0)

/-! ## Commands -/

/-- The commands that reach the session database: from workers, from main, and
the periodic maintenance. -/
inductive Cmd
  | auth_init (req : SecAuthInitMsg) (pid : Nat)
  | auth_cont (req : SecAuthContMsg)
  | cli_stats (req : CliStatsMsg) (pid : Nat)
  | session_open (req : SecmSessionOpenMsg)
  | session_close (req : SecmSessionCloseMsg)
  | ban_ip_reply (msg : BanIpReplyMsg)
  | terminate_user_sessions (username : Option CStr)
  | terminate_session (safe_id : CStr)
  | cleanup

/-- The state after a command, and the code its handler returns. -/
def exec (env : SecEnv) (sec : SecMod) : Cmd → SecMod × Int
  | .auth_init req pid => handle_sec_auth_init env sec req pid
  | .auth_cont req => handle_sec_auth_cont env sec req
  | .cli_stats req pid => handle_sec_auth_stats_cmd env sec req pid
  | .session_open req =>
    let r := handle_secm_session_open_cmd env sec req
    (r.sec, r.ret)
  | .session_close req =>
    let r := handle_secm_session_close_cmd env sec req
    (r.1, r.2.2)
  | .ban_ip_reply msg => (handle_sec_auth_ban_ip_reply sec msg, 0)
  | .terminate_user_sessions username =>
    (username.elim sec fun u => (sec.terminate_user_sessions u).1, 0)
  | .terminate_session safe_id => ((sec.terminate_session_by_sid safe_id).1, 0)
  | .cleanup => (sec.cleanup_client_entries (env.time 0), 0)

end SecMod
end Handlers

/-! ## A small instance on which commands can be executed -/

namespace Sample

/-- The session identifier with the number `n` of the instance `index`. -/
def sid (index n : UInt8) : Sid := ⟨0 :: index :: n :: List.replicate 29 0, rfl⟩

/-- Sec-mod succeeds in everything, and generates the identifier with the number `n`. -/
def secEnv (n : UInt8) : SecEnv where
  time _ := 100
  rnd_sid _ := some (sid 0 n)
  rnd_seed := some 0
  send_ok := true
  auth_init := 0
  auth_pass := 0
  auth_msg := 0
  auth_msg_str := none
  auth_msg_counter := 0
  auth_group := 0
  auth_group_name := []
  auth_user := id
  acct_open_session := 0
  sup_config := none

/-- The first instance, with one virtual host. -/
def secFor [Platform] (vhost : VhostCfg) : SecMod where
  vconfig := { default_vhost := vhost }
  sec_mod_instance_index := 0
  index_le := zero_le_instances
  hmac_key := []

/-- An authentication with a password is started from the address `remote_ip`. -/
def initMsg (user remote_ip : CStr) : SecMod.SecAuthInitMsg where
  tls_auth_ok := false
  user_name := some user
  group_name := none
  cert_user_name := none
  cert_group_names := []
  remote_ip
  auth_type := AUTH_TYPE_PLAIN
  our_ip := none
  user_agent := none
  device_platform := none
  device_type := none
  vhost := none
  session_start_time := 90
  hmac := List.replicate 32 0
  orig_remote_ip := some remote_ip

end Sample
end Ocserv

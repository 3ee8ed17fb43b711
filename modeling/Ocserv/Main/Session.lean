import Ocserv.Main.Lease

/-!
# Sessions in main

Main opens the session of a cookie in sec-mod, loads the configuration of the user
and takes over the session from the worker that had it before.
-/

namespace Ocserv

section Sessions

variable [Platform]

/-! ## Opening and closing a session in sec-mod -/

/-- Fill in what the configuration of the user does not say. -/
def apply_default_config (vhost : VhostCfg) (gc : GroupCfg) : GroupCfg :=
  { gc with
    deny_roaming := gc.deny_roaming.or (some vhost.config.deny_roaming)
    ipv4_net := gc.ipv4_net.or vhost.config.network.ipv4_network
    ipv4_netmask := gc.ipv4_netmask.or vhost.config.network.ipv4_netmask
    ipv6_net := gc.ipv6_net.or vhost.config.network.ipv6_network
    ipv6_prefix_len := gc.ipv6_prefix_len.or (some vhost.config.network.ipv6_prefix_len)
    ipv6_subnet_prefix_len :=
      gc.ipv6_subnet_prefix_len.or (some vhost.config.network.ipv6_subnet_prefix_len)
    max_same_clients := gc.max_same_clients.or (some vhost.config.max_same_clients)
    restrict_user_to_routes :=
      gc.restrict_user_to_routes.or (some vhost.config.restrict_user_to_routes)
    n_fw_ports := if gc.n_fw_ports = 0 then vhost.config.n_fw_ports else gc.n_fw_ports }

/-- The configuration of the session that sec-mod describes. -/
def session_config (vconfig : VConfig) (vhost : Option CStr) (config : GroupCfg) : GroupCfg :=
  apply_default_config (find_vhost vconfig vhost) config

/-- Whether a session may not be used from this address; `ip` is the address it
was created from. -/
def roaming_denied (config : GroupCfg) (remote_addr : SockBuf) (ip : CStr) : Bool :=
  config.deny_roaming.getD false &&
    (Platform.human_addr2 remote_addr.addr).all fun str_ip => str_ip != ip

/-- The worker with what the reply of sec-mod says about its session. -/
def Proc.load (vconfig : VConfig) (proc : Proc) (info : SessionInfo) : Proc :=
  { proc with
    session_start_time := info.session_start_time
    username := strlcpy info.username MAX_USERNAME_SIZE
    user_agent := strlcpy info.user_agent MAX_AGENT_NAME
    device_type := strlcpy info.device_type MAX_DEVICE_TYPE
    device_platform := strlcpy info.device_platform MAX_DEVICE_PLATFORM
    groupname := strlcpy info.groupname MAX_GROUPNAME_SIZE
    ipv4_seed := info.ipv4_seed
    config := some (session_config vconfig info.vhost info.config)
    vhost := some (find_vhost vconfig info.vhost) }

/-- What main asks sec-mod when a worker presents a cookie. -/
def Proc.openMsg (proc : Proc) (cookie : Sid) : SecmSessionOpenMsg :=
  { sid := cookie.1
    ipv4 := proc.ipv4.bind fun l => Platform.human_addr2 l.rip.sockaddr
    ipv6 := proc.ipv6.bind fun l => Platform.human_addr2 l.rip.sockaddr }

/-- `session_open`, with the instance of sec-mod that it talks to. -/
def session_open (env : MainEnv) (vconfig : VConfig) (sec : SecMod) (proc : Proc) (cookie : Sid) :
    SecMod × Proc × Int :=
  let r := sec.handle_secm_session_open_cmd env.sec (proc.openMsg cookie)
  match r.reply with
  | some (.ok info) =>
    -- the session may be bound to the address it was created from
    let denied :=
      roaming_denied (session_config vconfig info.vhost info.config) proc.remote_addr info.ip
    (r.sec, proc.load vconfig info, if denied then -1 else 0)
  | _ => (r.sec, proc, -1)

/-- What main asks sec-mod when a worker is removed. -/
def Proc.closeMsg (proc : Proc) : SecMod.SecmSessionCloseMsg :=
  { sid := proc.sid.1
    bytes_in := some proc.bytes_in
    bytes_out := some proc.bytes_out
    server_disconnected := proc.invalidated }

/-- `session_close`, with the instance of sec-mod that it talks to. -/
def session_close (env : MainEnv) (sec : SecMod) (proc : Proc) :
    Except Fault (SecMod × Proc × Int) :=
  let r := sec.handle_secm_session_close_cmd env.sec proc.closeMsg
  match r.2.1 with
  | none => return (r.1, proc, -1)
  | some msg => do
      -- the statistics of main depend on the virtual host
      let _ ← deref .null_vhost proc.vhost
      return (r.1,
        { proc with
          bytes_in := msg.bytes_in
          bytes_out := msg.bytes_out
          discon_reason := msg.discon_reason.getD proc.discon_reason }, 0)

/-! ## Authentication by cookie -/

structure AuthCookieRequestMsg where
  cookie : List UInt8
  hostname : Option CStr
deriving DecidableEq, Repr

namespace Main

/-- The session becomes that of `proc`. -/
def attach (m : Main) (proc : Proc) (sid : Sid) (hostname : Option CStr) : Main × Proc :=
  let proc :=
    { proc with
      sid
      active_sid := true
      hostname := (hostname.map (strlcpy · MAX_HOSTNAME_SIZE)).getD proc.hostname }
  ((m.store proc).proc_table_add proc, proc)

/-- Take over the session from the worker `old_proc`. -/
def take_over (m : Main) (old_proc proc : Proc) : Main × Proc :=
  let (m, old_proc, proc) := m.steal_ip_leases old_proc proc
  let (m, old_proc) := if 0 < old_proc.pid then m.kill_proc old_proc else (m, old_proc)
  (m.store old_proc, proc)

def handle_auth_cookie_req (env : MainEnv) (m : Main) (sec : SecMod) (proc : Proc)
    (req : AuthCookieRequestMsg) : Main × SecMod × Proc × Int :=
  match Sid.ofBytes? req.cookie, env.rnd_dtls_id with
  | some sid, some dtls_session_id =>
    let proc := { proc with dtls_session_id }
    let old_proc := m.proc_search_sid sid
    if old_proc.any (·.invalidated) then (m, sec, proc, -1)
    else
      let (sec, proc, ret) := session_open env m.vconfig sec proc sid
      if ret < 0 then (m, sec, proc, -1)
      else
        match old_proc with
        | some old_proc =>
          if proc.username ≠ old_proc.username then (m, sec, proc, -1)
          else
            let (m, proc) := m.take_over old_proc proc
            let (m, proc) := m.attach proc sid req.hostname
            (m, sec, proc, 0)
        | none =>
          let (m, proc) := m.attach proc sid req.hostname
          (m, sec, proc, 0)
  | _, _ => (m, sec, proc, -1)

/-- `check_multiple_users`: whether the user may have one more worker. -/
def check_multiple_users (m : Main) (proc : Proc) (max_same_clients : Nat) : Bool :=
  max_same_clients == 0 ||
    1 + m.procs.countP (fun ctmp => ctmp.id != proc.id && ctmp.pid != -1 && !ctmp.pid_killed &&
      proc.username == ctmp.username) ≤ max_same_clients

end Main
end Sessions
end Ocserv

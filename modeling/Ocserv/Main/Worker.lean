import Ocserv.IpUtil
import Ocserv.Main.Session

/-!
# The commands of the workers

The handler of the messages that a worker sends to main.  A cookie authentication
goes through several stages: the session, the limit on the workers of a user, the
addresses and the tun device, the connect script, the reply and the routes.  When
there is a connect script the reply waits until it has exited.
-/

namespace Ocserv

section Workers

variable [Platform]

namespace Main

/-! ## Scripts -/

/-- The script of the configuration for an event. -/
def script_of (m : Main) : ScriptType → Option CStr
  | .connect => m.config.connect_script
  | .host_update => m.config.host_update_script
  | .disconnect => m.config.disconnect_script

/-- The script that handles the firewall rules. -/
def ocserv_fw_script : CStr := "/usr/libexec/ocserv-fw".toList

/-- The script to run: the one of the configuration, unless the firewall script has
to be run, which then runs the other. -/
def select_script (m : Main) (proc : Proc) (type : ScriptType) : Except Fault (Option CStr) :=
  if type = .host_update then return m.script_of type
  else do
    let config ← deref .null_config proc.config
    return if config.restrict_user_to_routes.getD false || 0 < config.n_fw_ports then
      some ocserv_fw_script
    else m.script_of type

/-- Start a script.  Main waits for the exit of connect scripts only. -/
def start_script (env : MainEnv) (m : Main) (proc : Proc) (type : ScriptType) :
    Except Fault (Main × Int) :=
  if env.fork ≤ 0 then return (m, -1)
  else do
    -- the child exports the configuration of the user
    let _ ← deref .null_config proc.config
    let m := m.emit (.script type proc.id)
    return if type = .connect then
      ({ m with script_list := ⟨proc.id, env.fork⟩ :: m.script_list }, ERR_WAIT_FOR_SCRIPT)
    else (m, 0)

def call_script (env : MainEnv) (m : Main) (proc : Proc) (type : ScriptType) :
    Except Fault (Main × Int) := do
  match ← m.select_script proc type with
  | none => return (m, 0)
  | some _ => m.start_script env proc type

def user_connected (env : MainEnv) (m : Main) (proc : Proc) : Except Fault (Main × Int) := do
  let (m, ret) ← m.call_script env proc .connect
  return if ret < 0 then (m, ret) else (m.emit (.connected proc.id), 0)

def user_hostname_update (env : MainEnv) (m : Main) (proc : Proc) : Except Fault (Main × Proc) :=
  if proc.host_updated then return (m, proc)
  else do
    let (m, _) ← m.call_script env proc .host_update
    return (m, { proc with host_updated := true })

def user_disconnected (env : MainEnv) (m : Main) (proc : Proc) : Except Fault Main := do
  let (m, _) ← (m.emit (.user_disconnected proc.id)).call_script env proc .disconnect
  return m

/-! ## Routes -/

/-- `route_add` for the `i`th route. -/
def route_add (env : MainEnv) (m : Main) (proc : Nat) (route : CStr) (i : Nat) : Main × Int :=
  match m.config.route_add_cmd with
  | none => (m, 0)
  | some _ => (m.emit (.route_add proc route (env.route_cmd i)), env.route_cmd i)

/-- `route_del`, whose result no caller looks at. -/
def route_del (m : Main) (proc : Proc) (route : CStr) : Main :=
  match m.config.route_del_cmd with
  | none => m
  | some pattern =>
    if (replace_cmd pattern route proc.tun_name).isNone then m
    else m.emit (.route_del proc.id route)

/-- The loop over the routes: how many were added before one failed. -/
def add_routes (env : MainEnv) (proc : Nat) : List CStr → Nat → Main → Main × Option Nat
  | [], _, m => (m, none)
  | route :: routes, i, m =>
    let (m, ret) := m.route_add env proc route i
    if ret < 0 then (m, some i) else m.add_routes env proc routes (i + 1)

/-- The routes of a worker, which are all removed again when one cannot be added. -/
def add_iroutes (env : MainEnv) (m : Main) (proc : Proc) (iroutes : List CStr) :
    Main × Proc × Int :=
  match m.add_routes env proc.id iroutes 0 with
  | (m, none) => (m, { proc with applied_iroutes := true }, 0)
  | (m, some i) => ((iroutes.take i).foldl (fun m route => m.route_del proc route) m, proc, -1)

def apply_iroutes (env : MainEnv) (m : Main) (proc : Proc) : Except Fault (Main × Proc × Int) := do
  let config ← deref .null_config proc.config
  return if config.iroutes = [] then (m, proc, 0) else m.add_iroutes env proc config.iroutes

def remove_iroutes (m : Main) (proc : Proc) : Main :=
  match proc.config with
  | none => m
  | some config =>
    if proc.applied_iroutes then
      config.iroutes.foldl (fun m route => m.route_del proc route) m
    else m

/-! ## Cookie authentication -/

def send_cookie_auth_reply (env : MainEnv) (m : Main) (proc : Proc) (r : AuthRep) : Main × Int :=
  if env.send_msg_to_worker < 0 then (m, env.send_msg_to_worker)
  else if r = .ok ∧ proc.tun_name ≠ [] then (m.emit (.cookie_reply proc.id .ok), 0)
  else (m.emit (.cookie_reply proc.id .failed), 0)

def open_tun (env : MainEnv) (m : Main) (proc : Proc) : Except Fault (Main × Proc × Int) := do
  let (m, proc, ret) ← m.get_ip_leases env proc
  return if ret < 0 then (m, proc, ret)
  else
    match env.os_open_tun with
    | none => (m, proc, -1)
    | some name =>
      if name = [] ∨ env.set_network_info < 0 then (m, { proc with tun_name := name }, -1)
      else (m, { proc with tun_name := name, tun_open := true }, 0)

/-- `handle_script_exit`: the connect script has exited with `code`. -/
def handle_script_exit (env : MainEnv) (m : Main) (proc : Proc) (code : Int) :
    Except Fault (Main × Proc × Int) :=
  -- main does not keep the tun device in either case
  if code = 0 then
    let (m, ret) := m.send_cookie_auth_reply env proc .ok
    if ret < 0 then return (m, { proc with tun_open := false }, ERR_BAD_COMMAND)
    else do
      let (m, proc, ret) ← m.apply_iroutes env proc
      return if ret < 0 then (m, { proc with tun_open := false }, ERR_BAD_COMMAND)
      else (m, { proc with status := .completed, tun_open := false }, 0)
  else
    let (m, ret) := m.send_cookie_auth_reply env proc .failed
    return (m, { proc with tun_open := false }, if ret < 0 then ERR_BAD_COMMAND else 0)

def accept_user (env : MainEnv) (m : Main) (proc : Proc) : Except Fault (Main × Proc × Int) := do
  let config ← deref .null_config proc.config
  if !m.check_multiple_users proc (config.max_same_clients.getD 0) then return (m, proc, -1)
  else
    let (m, proc, ret) ← m.open_tun env proc
    if ret < 0 then return (m, proc, -1)
    else
      let (m, ret) ← m.user_connected env proc
      return (m, proc, ret)

/-- The first half of `handle_cookie_auth_res`: the status that follows from the
result of `handle_auth_cookie_req`. -/
def cookie_auth_status (env : MainEnv) (m : Main) (proc : Proc) (result : Int) :
    Except Fault (Main × Proc × Int) :=
  if result = 0 then do
    let (m, proc, ret) ← m.accept_user env proc
    return (m, { proc with status := if ret < 0 then .failed else .completed }, ret)
  else return (m, { proc with status := .failed }, if result < 0 then result else ERR_BAD_COMMAND)

def handle_cookie_auth_res (env : MainEnv) (m : Main) (proc : Proc) (result : Int) :
    Except Fault (Main × Proc × Int) := do
  let (m, proc, ret) ← m.cookie_auth_status env proc result
  -- the reply waits for the script
  if ret = ERR_WAIT_FOR_SCRIPT then return (m, proc, 0)
  else
    let (m, proc, ret) ← m.handle_script_exit env proc ret
    return (m, { proc with status := if ret < 0 then .failed else proc.status }, ret)

end Main

/-! ## Messages -/

/-- `SessionInfoMsg`, without the names of ciphers that main only reports. -/
structure SessionInfoMsg where
  remote_addr : Option (List UInt8)
  our_addr : Option (List UInt8)
deriving DecidableEq, Repr

/-- What a worker can send; `none` where the content cannot be unpacked. -/
inductive WorkerMsg
  | ban_ip (msg : Option (Option Nat))
  | tun_mtu (mtu : Option Nat)
  | session_info (msg : Option SessionInfoMsg)
  | auth_cookie_req (req : Option AuthCookieRequestMsg)
  | latency_stats_delta (msg : Option Unit)
  | unknown (cmd : UInt8)
  /-- the message cannot be read, or the worker is gone -/
  | unreadable (ret : Int) (neg : ret < 0)
deriving DecidableEq, Repr

def RFC_791_MTU : Nat := 68

def MAX_DTLS_MTU : Nat := 2 ^ 14

/-- The largest MTU that a worker can ask for. -/
def maximum_mtu (vhost : VhostCfg) : Nat :=
  if vhost.config.default_mtu ≠ 0 then vhost.config.default_mtu else MAX_DTLS_MTU

/-- Main and the instances of sec-mod it talks to. -/
structure Sys where
  main : Main
  secmods : List SecMod

namespace Main

def set_tun_mtu (env : MainEnv) (proc : Proc) (mtu : Nat) : Proc :=
  if proc.tun_name = [] then proc else if env.set_mtu < 0 then proc else { proc with mtu }

/-- The peer address that a worker behind a proxy reports. -/
def update_remote_addr (env : MainEnv) (m : Main) (proc : Proc) (addr : List UInt8) : Main × Proc :=
  if addr.length ≤ SOCKADDR_STORAGE_SIZE then
    let (m, proc) := m.proc_table_update_ip proc addr
    if env.check_if_banned && proc.pid != -1 && proc.pid != 0 then m.kill_proc proc else (m, proc)
  else (m, proc)

/-- The local address that a worker behind a proxy reports. -/
def update_our_addr (proc : Proc) (addr : List UInt8) : Proc :=
  if addr.length ≤ SOCKADDR_STORAGE_SIZE ∧ 0 < addr.length then
    { proc with our_addr := proc.our_addr.copy addr }
  else proc

/-- The addresses that a worker behind a proxy reports. -/
def update_addrs (env : MainEnv) (m : Main) (proc : Proc) (msg : SessionInfoMsg) : Main × Proc :=
  let (m, proc) := msg.remote_addr.elim (m, proc) (m.update_remote_addr env proc)
  (m, msg.our_addr.elim proc (update_our_addr proc))

/-- The handler of `CMD_SESSION_INFO`. -/
def handle_session_info (env : MainEnv) (m : Main) (proc : Proc) (msg : SessionInfoMsg) :
    Except Fault (Main × Proc) := do
  let (m, proc) ← if proc.hostname = [] then pure (m, proc) else m.user_hostname_update env proc
  return if m.config.listen_proxy_proto then m.update_addrs env proc msg else (m, proc)

end Main

namespace Sys

/-- The handler of `AUTH_COOKIE_REQ`. -/
def handle_cookie_cmd (env : MainEnv) (s : Sys) (proc : Proc) (req : AuthCookieRequestMsg) :
    Except Fault (Sys × Proc × Int) :=
  match Sid.ofBytes? req.cookie with
  | none => return (s, proc, ERR_BAD_COMMAND)
  | some sid =>
    let index := sec_mod_instance_index_get sid
    -- an index that names no instance is refused, not wrapped onto another
    match s.secmods[index]? with
    | none => do
        let (m, proc, ret) ← s.main.handle_cookie_auth_res env proc (-1)
        return ({ s with main := m }, proc, ret)
    | some sec => do
        let proc := { proc with sec_mod_instance_index := index }
        let (m, sec, proc, result) := s.main.handle_auth_cookie_req env sec proc req
        let (m, proc, ret) ← m.handle_cookie_auth_res env proc result
        return ({ main := m, secmods := s.secmods.set index sec }, proc, ret)

/-- `handle_worker_commands`: the state, the worker and the code returned. -/
def handle_worker_commands (env : MainEnv) (s : Sys) (proc : Proc) :
    WorkerMsg → Except Fault (Sys × Proc × Int)
  | .ban_ip none => return (s, proc, ERR_BAD_COMMAND)
  | .ban_ip (some discon_reason) =>
    let proc := { proc with discon_reason := discon_reason.getD proc.discon_reason }
    return (s, proc, if env.send_msg_to_worker < 0 then ERR_BAD_COMMAND else 0)
  | .tun_mtu msg => do
      let vhost ← deref .null_vhost proc.vhost
      if proc.status ≠ .completed then return (s, proc, ERR_BAD_COMMAND)
      else
        match msg with
        | none => return (s, proc, ERR_BAD_COMMAND)
        | some mtu =>
          if mtu < RFC_791_MTU ∨ maximum_mtu vhost < mtu then return (s, proc, ERR_BAD_COMMAND)
          else return (s, Main.set_tun_mtu env proc mtu, 0)
  | .session_info none => return (s, proc, ERR_BAD_COMMAND)
  | .session_info (some msg) => do
      let (m, proc) ← s.main.handle_session_info env proc msg
      return ({ s with main := m }, proc, 0)
  | .auth_cookie_req msg =>
    if proc.status ≠ .inactive then return (s, proc, ERR_BAD_COMMAND)
    else
      match msg with
      | none => return (s, proc, ERR_BAD_COMMAND)
      | some req => s.handle_cookie_cmd env proc req
  | .latency_stats_delta msg =>
    if proc.status ≠ .completed then return (s, proc, ERR_BAD_COMMAND)
    else return (s, proc, if msg.isNone then ERR_BAD_COMMAND else 0)
  | .unknown _ => return (s, proc, ERR_BAD_COMMAND)
  | .unreadable ret _ => return (s, proc, ret)

end Sys
end Workers
end Ocserv

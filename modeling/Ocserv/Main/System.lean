import Ocserv.Lib.Runs
import Ocserv.Main.Worker

/-!
# Main and its sec-mod instances as one system

The events of main's loop, the administrative commands, and the commands that the
instances of sec-mod receive from workers.  While main waits for the answer to a
request on its synchronous channel it does nothing else, so one event of main
includes the work of sec-mod on the requests it makes.
-/

namespace Ocserv

section System

variable [Platform]

namespace Main

/-! ## Removing a worker -/

/-- `remove_from_script_list`: forget the connect script of a worker, and kill it. -/
def remove_from_script_list (m : Main) (proc : Proc) : Main × Int :=
  match m.script_list.find? fun stmp => stmp.proc = proc.id with
  | none => (m, -1)
  | some stmp =>
    let m := { m with script_list := m.script_list.eraseP fun stmp => stmp.proc = proc.id }
    if 0 < stmp.pid then (m.emit (.kill_script stmp.pid), stmp.pid) else (m, -1)

/-- The end of the connect phase of a worker that is being removed: its script, if
that is still running, or what `status` says. -/
def finish_scripts (env : MainEnv) (m : Main) (proc : Proc) : Except Fault Main :=
  let (m, pid) := m.remove_from_script_list proc
  if 0 < pid then
    let exited := env.script_status.WIFEXITED && env.script_status.WEXITSTATUS == 0
    let m := if exited then m.emit (.connected proc.id) else m
    if env.waitpid_ok && env.script_status.WEXITSTATUS == 0 then m.user_disconnected env proc
    else return m
  else if proc.status = .completed then m.user_disconnected env proc
  else return m

/-- What `remove_proc` does after the session is closed. -/
def release (env : MainEnv) (m : Main) (proc : Proc) : Except Fault Main := do
  let m ← m.finish_scripts env proc
  let m := (m.remove_iroutes proc).remove_ip_leases proc
  let m := m.proc_table_del proc
  return { m with procs := m.procs.filter fun p => p.id != proc.id }

end Main

/-- The flags of `remove_proc`. -/
structure RProc where
  kill : Bool
  quit : Bool := false
deriving DecidableEq, Repr

namespace Sys

/-- Write a worker back. -/
def put (s : Sys) (proc : Proc) : Sys := { s with main := s.main.store proc }

/-- Close the session of a worker in its instance of sec-mod. -/
def close_session (env : MainEnv) (s : Sys) (proc : Proc) : Except Fault (Sys × Proc) := do
  let sec ← deref .no_instance s.secmods[proc.sec_mod_instance_index]?
  let (sec, proc, ret) ← session_close env sec proc
  if ret < 0 then throw .exit
  else return ({ s with secmods := s.secmods.set proc.sec_mod_instance_index sec }, proc)

/-- The end of the session of a worker, if it has one and the server goes on. -/
def end_session (env : MainEnv) (s : Sys) (proc : Proc) (flags : RProc) :
    Except Fault (Sys × Proc) :=
  if proc.active_sid && !flags.quit then s.close_session env proc else return (s, proc)

/-- The signal to a worker that is removed with `RPROC_KILL`. -/
def signal (s : Sys) (proc : Proc) (flags : RProc) : Sys :=
  if flags.kill && proc.pid != -1 && proc.pid != 0 then
    { s with main := s.main.emit (.sigterm proc.id) }
  else s

def remove_proc (env : MainEnv) (s : Sys) (proc : Proc) (flags : RProc) : Except Fault Sys := do
  let (s, proc) ← (s.signal proc flags).end_session env proc flags
  let m ← s.main.release env proc
  return { s with main := m }

/-! ## The events of main -/

/-- `cmd_watcher_cb`: a worker has sent a message, or has closed its socket. -/
def cmd_watcher_cb (env : MainEnv) (s : Sys) (proc : Proc) (msg : WorkerMsg) :
    Except Fault Sys := do
  let (s, proc, ret) ← s.handle_worker_commands env proc msg
  let s := s.put proc
  if ret < 0 then s.remove_proc env proc { kill := ret != ERR_WORKER_TERMINATED } else return s

/-- `script_child_watcher_cb`: the connect script of `proc` has terminated. -/
def script_child_watcher_cb (env : MainEnv) (s : Sys) (stmp : ScriptWait) (proc : Proc)
    (rstatus : WaitStatus) : Except Fault Sys := do
  let estatus : Int := if rstatus.WIFSIGNALED then 1 else rstatus.WEXITSTATUS
  let m := { s.main with script_list := s.main.script_list.erase stmp }
  let m := if rstatus.WIFEXITED && rstatus.WEXITSTATUS == 0 then m.emit (.connected proc.id) else m
  let (m, proc, ret) ← m.handle_script_exit env proc estatus
  let s := { s with main := m }.put proc
  if ret < 0 then s.remove_proc env proc { kill := true } else return s

/-- One iteration of `kill_children_auth_timeout`. -/
def kill_auth_timeout (env : MainEnv) (s : Sys) (proc : Proc) : Except Fault Sys :=
  if proc.status.code < PsAuth.completed.code ∧
      proc.conn_time < env.time - s.main.config.auth_timeout ∧ proc.pid ≠ -1 then
    s.remove_proc env proc { kill := true }
  else return s

/-! ## Administrative commands -/

def disconnect_proc (env : MainEnv) (s : Sys) (proc : Proc) : Except Fault Sys :=
  let proc := { proc with invalidated := true }
  let s := s.put proc
  if proc.pid ≠ -1 ∧ proc.pid ≠ 0 then return { s with main := s.main.emit (.sigterm proc.id) }
  else s.remove_proc env proc { kill := true }

/-- Disconnect the workers of a list one after the other; `env` gives what main meets
at each of them. -/
def disconnect_procs (env : Nat → MainEnv) (s : Sys) : List Proc → Except Fault Sys
  | [] => return s
  | proc :: procs => do
      let s ← s.disconnect_proc (env proc.id) proc
      s.disconnect_procs env procs

/-- The loop of `method_disconnect_user_name`. -/
def disconnect_user_name (env : Nat → MainEnv) (s : Sys) (username : CStr) : Except Fault Sys :=
  s.disconnect_procs env (s.main.procs.filter fun p => p.username = username)

/-- The loop of `method_disconnect_user_id`, which stops at the first worker unless
the number is -1. -/
def disconnect_user_id (env : Nat → MainEnv) (s : Sys) (id : Int) : Except Fault Sys :=
  let procs := s.main.procs.filter fun p => p.pid = id
  s.disconnect_procs env (if id ≠ -1 then procs.take 1 else procs)

/-- `terminate_user_sessions_in_secmod` and `terminate_session_in_secmod`: ask the
instances in turn, until one has terminated a session. -/
def terminate_in_secmod (request : SecMod → SecMod × Bool) : List SecMod → List SecMod × Bool
  | [] => ([], false)
  | sec :: secs =>
    let r := request sec
    if r.2 then (r.1 :: secs, true)
    else
      let rest := terminate_in_secmod request secs
      (r.1 :: rest.1, rest.2)

def terminate_user_sessions_in_secmod (s : Sys) (username : CStr) : Sys × Bool :=
  let r := terminate_in_secmod (fun sec => sec.terminate_user_sessions username) s.secmods
  ({ s with secmods := r.1 }, r.2)

def terminate_session_in_secmod (s : Sys) (safe_id : CStr) : Sys × Bool :=
  let r := terminate_in_secmod (fun sec => sec.terminate_session_by_sid safe_id) s.secmods
  ({ s with secmods := r.1 }, r.2)

def method_terminate_user (env : Nat → MainEnv) (s : Sys) (username : CStr) : Except Fault Sys := do
  let s ← s.disconnect_user_name env username
  return (s.terminate_user_sessions_in_secmod username).1

def method_terminate_id (env : Nat → MainEnv) (s : Sys) (id : Int) : Except Fault Sys :=
  match s.main.procs.find? fun p => p.pid = id with
  | none => return s
  | some proc => do
      let s ← s.disconnect_proc (env proc.id) proc
      return (s.terminate_session_in_secmod (Platform.calc_safe_id proc.sid)).1

def method_terminate_session (s : Sys) (safe_id : CStr) : Sys :=
  if safe_id = [] then s else (s.terminate_session_in_secmod safe_id).1

/-! ## Steps -/

/-- The commands that sec-mod does not get from main's synchronous channel. -/
def FromWorkers : SecMod.Cmd → Prop
  | .auth_init _ _ | .auth_cont _ | .cli_stats _ _ | .ban_ip_reply _ | .cleanup => True
  | _ => False

/-- The events of the system. -/
inductive Event
  /-- a client connects, and a worker is started for it -/
  | accept (pid time : Int) (remote_addr our_addr : SockAddr)
  | worker (proc : Nat) (msg : WorkerMsg)
  | script_exit (stmp : ScriptWait) (rstatus : WaitStatus)
  | auth_timeout (proc : Nat)
  | disconnect_name (username : CStr)
  | disconnect_id (id : Int)
  | terminate_user (username : CStr)
  | terminate_id (id : Int)
  | terminate_session (safe_id : CStr)
  /-- an instance of sec-mod executes a command of its own socket -/
  | secmod (index : Nat) (env : SecEnv) (cmd : SecMod.Cmd)

/-- What the environment contributes to an event; the index is the worker that main
is dealing with. -/
abbrev Env := Nat → MainEnv

/-- The handling of an event; no result when there is nothing to handle. -/
def exec (env : Env) (s : Sys) : Event → Option (Except Fault Sys)
  | .accept pid time remote_addr our_addr =>
    -- `fork` has succeeded
    if 0 < pid then
      some (.ok { s with main := s.main.new_proc pid time remote_addr our_addr })
    else none
  | .worker id msg => (s.main.find_proc id).map fun p => s.cmd_watcher_cb (env id) p msg
  | .script_exit stmp rstatus =>
    if stmp ∈ s.main.script_list then
      (s.main.find_proc stmp.proc).map fun p =>
        s.script_child_watcher_cb (env stmp.proc) stmp p rstatus
    else none
  | .auth_timeout id => (s.main.find_proc id).map fun p => s.kill_auth_timeout (env id) p
  | .disconnect_name username => some (s.disconnect_user_name env username)
  | .disconnect_id id => some (s.disconnect_user_id env id)
  | .terminate_user username => some (s.method_terminate_user env username)
  | .terminate_id id => some (s.method_terminate_id env id)
  | .terminate_session safe_id => some (.ok (s.method_terminate_session safe_id))
  | .secmod index env cmd =>
    s.secmods[index]?.map fun sec =>
      .ok { s with secmods := s.secmods.set index (sec.exec env cmd).1 }

/-- A step of the system, labelled with the event and what the environment does. -/
def Step (s : Sys) (l : Event × Env) (s' : Sys) : Prop :=
  s.exec l.2 l.1 = some (.ok s') ∧ ∀ index env cmd, l.1 = .secmod index env cmd → FromWorkers cmd

/-- The system when main starts to accept clients. -/
structure Initial (s : Sys) : Prop where
  procs : s.main.procs = []
  proc_table : s.main.proc_table = {}
  ip_leases : s.main.ip_leases = LeaseDb.empty
  script_list : s.main.script_list = []
  log : s.main.log = []
  secmods : ∀ (i : Nat) (sec : SecMod), s.secmods[i]? = some sec →
    sec.client_db = ClientDb.empty ∧ sec.sec_mod_instance_index = i

end Sys
end System
end Ocserv

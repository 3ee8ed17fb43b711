import Ocserv.SecMod.Session

/-!
# The state of the main process

Main keeps one `Proc` for each worker process, the tables in which it looks
workers up, the registered address leases and the connect scripts that still run.
Objects that the source refers to by pointer carry a number as their identity:
`Proc.id` and `IpLease.id` are never reused.

The effects of main on other processes are recorded, newest first, in `Main.log`.
-/

namespace Ocserv

open HTable

/-! ## Addresses and leases -/

/-- An address that is given to a client. -/
inductive Addr
  | v4 (a : BitVec 32)
  | v6 (a : BitVec 128)
deriving DecidableEq, Repr

/-- The bytes of a number of `8 * n` bits in network order. -/
def netBytes {w : Nat} (a : BitVec w) (n : Nat) : List UInt8 :=
  (List.range n).map fun i => UInt8.ofNat (a.toNat / 2 ^ (8 * (n - 1 - i)))

def Addr.bytes : Addr → List UInt8
  | .v4 a => netBytes a 4
  | .v6 a => netBytes a 16

/-- The `sockaddr_in` or `sockaddr_in6` with port zero. -/
def Addr.sockaddr : Addr → SockAddr
  | .v4 a => [2, 0, 0, 0] ++ netBytes a 4 ++ List.replicate 8 0
  | .v6 a => [10, 0, 0, 0, 0, 0, 0, 0] ++ netBytes a 16 ++ List.replicate 4 0

/-- `ip_lease_st`. -/
structure IpLease where
  id : Nat
  /-- the address by which the lease is registered: that of the client, or for IPv6
  that of its subnet -/
  sig : Addr
  rip : Addr
  lip : Addr
  prefix_len : Nat := 0
  /-- whether the lease points to the table of the registered leases -/
  db : Bool
  /-- whether the address was taken from a pool; copies of the lease keep it -/
  pool : Bool
deriving DecidableEq, Repr

/-! ## Workers -/

/-- A socket address as main stores it: a buffer, and how much of it is used. -/
structure SockBuf where
  data : List UInt8
  len : Nat
deriving DecidableEq, Repr

/-- Copy an address into the start of the buffer. -/
def SockBuf.copy (buf : SockBuf) (addr : List UInt8) : SockBuf :=
  ⟨addr ++ buf.data.drop addr.length, addr.length⟩

def SockBuf.zero : SockBuf := ⟨List.replicate SOCKADDR_STORAGE_SIZE 0, 0⟩

def SockBuf.addr (buf : SockBuf) : SockAddr := buf.data.take buf.len

/-- The bytes that `SA_IN_P_GENERIC` and `SA_IN_SIZE` select. -/
def sa_in_generic (data : List UInt8) (len : Nat) : List UInt8 :=
  if len = 16 then (data.drop 4).take 4 else (data.drop 8).take 16

def SockBuf.generic (buf : SockBuf) : List UInt8 := sa_in_generic buf.data buf.len

/-- `proc_st`, a worker process. -/
structure Proc where
  id : Nat
  pid : Int
  pid_killed : Bool := false
  conn_time : Int := 0
  /-- the name of the tun device, and whether main still has it open -/
  tun_name : CStr := []
  tun_open : Bool := false
  ipv4 : Option IpLease := none
  ipv6 : Option IpLease := none
  remote_addr : SockBuf
  dtls_remote_addr : SockBuf := SockBuf.zero
  our_addr : SockBuf
  sid : Sid := Sid.zero
  active_sid : Bool := false
  session_start_time : Int := 0
  invalidated : Bool := false
  host_updated : Bool := false
  dtls_session_id : List UInt8 := []
  username : CStr := []
  groupname : CStr := []
  hostname : CStr := []
  user_agent : CStr := []
  device_type : CStr := []
  device_platform : CStr := []
  mtu : Nat := 0
  sec_mod_instance_index : Nat := 0
  ipv4_seed : BitVec 32 := 0
  status : PsAuth := .inactive
  bytes_in : UInt64 := 0
  bytes_out : UInt64 := 0
  discon_reason : Nat := 0
  applied_iroutes : Bool := false
  config : Option GroupCfg := none
  vhost : Option VhostCfg := none
deriving DecidableEq, Repr

/-- The leases of a worker. -/
def Proc.leases (p : Proc) : List IpLease := p.ipv4.toList ++ p.ipv6.toList

/-! ## Scripts -/

/-- The wait status of a child process that has terminated. -/
structure WaitStatus where
  raw : Nat
  terminated : raw % 128 ≠ 127
deriving DecidableEq, Repr

def WaitStatus.WIFEXITED (w : WaitStatus) : Bool := w.raw % 128 == 0

def WaitStatus.WIFSIGNALED (w : WaitStatus) : Bool := w.raw % 128 != 0

def WaitStatus.WEXITSTATUS (w : WaitStatus) : Nat := w.raw / 256 % 256

/-- `script_wait_st`: a connect script and the worker it runs for. -/
structure ScriptWait where
  proc : Nat
  pid : Int
deriving DecidableEq, Repr

/-- `script_type_t`. -/
inductive ScriptType
  | connect
  | host_update
  | disconnect
deriving DecidableEq, Repr

/-! ## Main -/

/-- What main does to other processes. -/
inductive Effect
  /-- a worker is sent `SIGTERM` -/
  | sigterm (proc : Nat)
  /-- a running connect script is sent `SIGTERM` -/
  | kill_script (pid : Int)
  /-- a script has been started -/
  | script (type : ScriptType) (proc : Nat)
  /-- a worker is told the result of its cookie authentication -/
  | cookie_reply (proc : Nat) (r : AuthRep)
  /-- the connect phase of a worker has succeeded: its connect script exited normally
  with status zero, or there was none to run -/
  | connected (proc : Nat)
  /-- `user_disconnected` runs for a worker -/
  | user_disconnected (proc : Nat)
  /-- the command that adds a route is run for a worker, with its result -/
  | route_add (proc : Nat) (route : CStr) (ret : Int)
  /-- the command that deletes a route is run for a worker -/
  | route_del (proc : Nat) (route : CStr)
deriving DecidableEq, Repr

/-- The reasons for which main does not return from a handler. -/
inductive Fault
  /-- a field of a worker is used that is not set -/
  | null_vhost
  | null_config
  /-- an instance of sec-mod is used that does not exist -/
  | no_instance
  /-- main exits -/
  | exit
deriving DecidableEq, Repr

/-- Use a pointer. -/
def deref {α : Type} (f : Fault) : Option α → Except Fault α
  | some a => .ok a
  | none => .error f

theorem deref_eq_ok {α : Type} {f : Fault} {o : Option α} {a : α} :
    deref f o = .ok a ↔ o = some a := by
  cases o <;> simp [deref]

section Tables

variable [Platform]

/-- The hash of a lease is that of its registered address. -/
def IpLease.rehash (l : IpLease) : Nat := Platform.hash_any l.sig.bytes

/-- `ip_lease_db_st`, the registered leases. -/
structure LeaseDb where
  table : Table IpLease
  wf : table.WF IpLease.rehash

namespace LeaseDb

/-- `ip_lease_init`. -/
def empty : LeaseDb := ⟨.init, .init⟩

def toList (db : LeaseDb) : List IpLease := db.table.toList

def ip_lease_exists (db : LeaseDb) (sig : Addr) : Bool :=
  (db.table.get (Platform.hash_any sig.bytes) fun l => l.sig = sig).isSome

def add (db : LeaseDb) (l : IpLease) : LeaseDb :=
  ⟨db.table.add IpLease.rehash l.rehash l, db.wf.add l⟩

/-- `unref_ip_lease`, which runs when a registered lease is freed. -/
def unref_ip_lease (db : LeaseDb) (l : IpLease) : LeaseDb :=
  if l.db then ⟨(db.table.del l.rehash fun l' => l'.id = l.id).1, db.wf.del _ _⟩ else db

end LeaseDb

def Proc.rehash_ip (p : Proc) : Nat := Platform.hash_any p.remote_addr.generic

def Proc.rehash_dtls_ip (p : Proc) : Nat := Platform.hash_any p.dtls_remote_addr.generic

def Proc.rehash_dtls_id (p : Proc) : Nat := Platform.hash_any p.dtls_session_id

def Proc.rehash_sid (p : Proc) : Nat := Platform.hash_any p.sid.1

/-- `proc_hash_db_st`: the tables of the workers by address, by DTLS session and by
session identifier. -/
structure ProcTable where
  db_ip : Table Nat := .init
  db_dtls_ip : Table Nat := .init
  db_dtls_id : Table Nat := .init
  db_sid : Table Nat := .init
  total : Nat := 0

/-- The state of main. -/
structure Main where
  vconfig : VConfig
  procs : List Proc := []
  proc_table : ProcTable := {}
  ip_leases : LeaseDb := LeaseDb.empty
  script_list : List ScriptWait := []
  /-- the next unused identity -/
  next : Nat := 0
  log : List Effect := []

/-- What main meets while it handles one event. -/
structure MainEnv where
  time : Int
  /-- what sec-mod meets while it serves main's request -/
  sec : SecEnv
  /-- `gnutls_rnd` for the DTLS session identifier -/
  rnd_dtls_id : Option (List UInt8)
  /-- `gnutls_rnd` and the echo requests for the tries of an address -/
  rnd_ipv4 : Nat → Option (BitVec 32)
  rnd_ipv6 : Nat → Option (BitVec 128)
  icmp_ping4 : Nat → BitVec 32 → Int
  icmp_ping6 : Nat → BitVec 128 → Int
  /-- the name of the new tun device, if one can be opened -/
  os_open_tun : Option CStr
  set_network_info : Int
  set_mtu : Int
  /-- the process that `fork` gives for a script; none, if it is not positive -/
  fork : Int
  /-- whether a message to the worker can be sent -/
  send_msg_to_worker : Int
  /-- the results of the commands that add routes, negative too where one cannot be filled in -/
  route_cmd : Nat → Int
  /-- how the connect script that is killed with its worker ends -/
  script_status : WaitStatus
  /-- whether `waitpid` obtains that status -/
  waitpid_ok : Bool
  add_str_ip_to_ban_list : Int
  check_if_banned : Bool

/-! ## Finding and updating workers -/

namespace Main

/-- `GETRCONFIG`: the settings of the default virtual host. -/
def config (m : Main) : Cfg := m.vconfig.default_vhost.config

def find_proc (m : Main) (id : Nat) : Option Proc := m.procs.find? fun p => p.id = id

/-- Write a worker back. -/
def store (m : Main) (p : Proc) : Main :=
  { m with procs := m.procs.map fun q => if q.id = p.id then p else q }

def emit (m : Main) (e : Effect) : Main := { m with log := e :: m.log }

def new_proc (m : Main) (pid time : Int) (remote_addr our_addr : SockAddr) : Main :=
  { m with
    procs :=
      { id := m.next
        pid
        conn_time := time
        remote_addr := SockBuf.zero.copy remote_addr
        our_addr := SockBuf.zero.copy our_addr } :: m.procs
    next := m.next + 1 }

/-! ## The tables of the workers -/

def rehash_ip (m : Main) (id : Nat) : Nat := (m.find_proc id).elim 0 Proc.rehash_ip

def rehash_dtls_id (m : Main) (id : Nat) : Nat := (m.find_proc id).elim 0 Proc.rehash_dtls_id

def rehash_sid (m : Main) (id : Nat) : Nat := (m.find_proc id).elim 0 Proc.rehash_sid

/-- `proc_table_add`, for a worker that has been written back.  The tables of main can always
grow: the branches in which `htable_add` has no memory are left out. -/
def proc_table_add (m : Main) (p : Proc) : Main :=
  let t := m.proc_table
  { m with
    proc_table :=
      { t with
        db_ip := t.db_ip.add m.rehash_ip p.rehash_ip p.id
        db_dtls_id := t.db_dtls_id.add m.rehash_dtls_id p.rehash_dtls_id p.id
        db_sid := t.db_sid.add m.rehash_sid p.rehash_sid p.id
        total := t.total + 1 } }

def proc_table_del (m : Main) (p : Proc) : Main :=
  let t := m.proc_table
  { m with
    proc_table :=
      { t with
        db_dtls_ip :=
          if 0 < p.dtls_remote_addr.len then
            (t.db_dtls_ip.del p.rehash_dtls_ip (· == p.id)).1
          else t.db_dtls_ip
        db_ip := (t.db_ip.del p.rehash_ip (· == p.id)).1
        db_dtls_id := (t.db_dtls_id.del p.rehash_dtls_id (· == p.id)).1
        db_sid := (t.db_sid.del p.rehash_sid (· == p.id)).1 } }

def proc_table_update_ip (m : Main) (p : Proc) (addr : List UInt8) : Main × Proc :=
  if addr.length = p.remote_addr.len ∧ addr = p.remote_addr.addr then (m, p)
  else
    let r := m.proc_table.db_ip.del p.rehash_ip (· == p.id)
    let p := { p with remote_addr := p.remote_addr.copy addr }
    -- a DTLS peer with the same address is not kept twice
    let d := m.proc_table.db_dtls_ip.del p.rehash_dtls_ip (· == p.id)
    let same := p.dtls_remote_addr.len = addr.length ∧
      sa_in_generic addr addr.length = sa_in_generic p.dtls_remote_addr.data addr.length
    let p := if same ∧ d.2 then { p with dtls_remote_addr.len := 0 } else p
    let m := m.store p
    ({ m with
        proc_table :=
          { m.proc_table with
            db_ip := if r.2 then r.1.add m.rehash_ip p.rehash_ip p.id else r.1
            db_dtls_ip := if same then d.1 else m.proc_table.db_dtls_ip } }, p)

def proc_search_sid (m : Main) (sid : Sid) : Option Proc :=
  (m.proc_table.db_sid.get (Platform.hash_any sid.1) fun id =>
    (m.find_proc id).any fun p => p.sid = sid).bind m.find_proc

def kill_proc (m : Main) (p : Proc) : Main × Proc :=
  (m.emit (.sigterm p.id), { p with pid_killed := true })

end Main

end Tables
end Ocserv

import Ocserv.Lib.Burst
import Ocserv.Worker.Mtu

/-!
# The event loop of a tunnel

After `connect_handler` a worker moves packets between the TUN device and its client.  It
reads records from the TLS connection and from two DTLS sessions, one of which is active
while the other may be set up to replace it.  A packet that the TUN device does not take is
kept in a slot, and the watchers of the input are stopped until it has been written.

Each callback of the loop is a function of the worker and of what its environment does: what
gnutls reads, sends and negotiates, what the TUN device and the kernel say, and which timers
have passed.  A result `none` means that the worker exits.
-/

namespace Ocserv

abbrev Packet := List UInt8

def AC_PKT_DATA : UInt8 := 0
def AC_PKT_DPD_OUT : UInt8 := 3
def AC_PKT_DPD_RESP : UInt8 := 4
def AC_PKT_DISCONN : UInt8 := 5
def AC_PKT_KEEPALIVE : UInt8 := 7
def AC_PKT_COMPRESSED : UInt8 := 8

def READ_BURST_MAX : Nat := 8

/-- `udp_port_state_t`. -/
inductive UdpState
  | disabled
  | wait_fd
  | setup
  | handshake
  | inactive
  | active
deriving DecidableEq, Repr

/-- `udp_state > UP_WAIT_FD`. -/
def UdpState.hasFd : UdpState → Bool
  | .disabled | .wait_fd => false
  | _ => true

/-- `dtls_st`. -/
structure DtlsSt where
  /-- the watcher is active -/
  io : Bool := false
  /-- there is a session -/
  dtls_session : Bool := false
  udp_state : UdpState
deriving DecidableEq, Repr

/-- What the worker does with packets. -/
inductive TunnelEffect
  /-- a packet is written to the TUN device -/
  | tun_write (pkt : Packet)
  /-- a packet is dropped, as the slot is taken -/
  | tun_drop (pkt : Packet)
  /-- a packet of this size is sent in the DTLS channel -/
  | dtls_data (size : Nat)
deriving DecidableEq, Repr

/-- `worker_st`, as far as the tunnel needs it. -/
structure Tunnel where
  mtu : MtuSt
  dtls_active_session : Bool := false
  dtls : Bool → DtlsSt
  /-- the watcher of the TLS connection is active -/
  tls_watcher : Bool := true
  tun_pending : Option Packet := none
  tun_write_watcher : Bool := false
  /-- the effects, newest first -/
  log : List TunnelEffect := []

/-! ## The environment -/

/-- The result of `tun_write`. -/
inductive TunWrite
  | written
  | again
  | failed
deriving DecidableEq, Repr

/-- The result of `dtls_send`. -/
inductive DtlsSend
  | sent
  /-- `GNUTLS_E_LARGE_PACKET` -/
  | large
  /-- another error that is not fatal -/
  | nonfatal (ret : Int32)
  | fatal
deriving DecidableEq, Repr

/-- What reading from a session gives. -/
inductive RecordRecv
  | record (buf : Packet)
  | again
  /-- the peer wants a handshake, which succeeds or ends the worker -/
  | rehandshake (ok : Bool)
  | fatal
deriving DecidableEq, Repr

/-- What happens to a record. -/
structure RecordEnv where
  recv : RecordRecv
  /-- `bandwidth_update` -/
  allowed : Bool := true
  /-- the result of the decompression -/
  plain : Option Packet := none
  tun_write : TunWrite := .written
  cstp_send_ok : Bool := true
  dtls_send : DtlsSend := .sent
  /-- the MTU of the DTLS session for a data MTU -/
  dtls_mtu : UInt32 → UInt32 := id
  path_mtu : Option UInt32 := none
  /-- `UDP_SWITCH_TIME` has passed since the last DTLS record -/
  udp_switch : Bool := false

/-- How a DTLS handshake goes on. -/
inductive DtlsHandshake
  | done
  | again
  | fatal
deriving DecidableEq, Repr

/-- What happens when a DTLS session is served. -/
structure DtlsEnv extends RecordEnv where
  /-- the session can be set up -/
  setup_ok : Bool := true
  /-- what the kernel says whenever a packet of the handshake is too large -/
  large : List (Option UInt32) := []
  handshake : DtlsHandshake := .again

/-- What reading from the TUN device gives. -/
inductive TunRead
  | packet (size : Nat)
  | again
  | failed
deriving DecidableEq, Repr

/-- What happens to a packet of the TUN device. -/
structure TunEnv where
  read : TunRead
  /-- `switch_to_tcp_timeout` has passed since the last DTLS record -/
  switch_to_tcp : Bool := false
  /-- the size after a compression for the DTLS channel -/
  compressed : Option Nat := none
  allowed : Bool := true
  dtls_send : DtlsSend := .sent
  path_mtu : Option UInt32 := none
  cstp_send_ok : Bool := true

/-- What `periodic_check` meets. -/
inductive Periodic
  /-- it is not yet time -/
  | early
  /-- a timeout, or an error of a send -/
  | terminate
  /-- the DTLS channel has been silent for too long, and the path MTU of the connection -/
  | check (udp_silent : Bool) (pmtu : Int32)
deriving DecidableEq, Repr

/-- A message of main. -/
inductive MainCmd
  /-- `CMD_TERMINATE`, an unknown or an unreadable message, or one without its descriptor -/
  | terminate
  /-- `CMD_UDP_FD`, with a client hello or with a packet of the session -/
  | udp_fd (hello : Bool)
deriving DecidableEq, Repr

namespace Tunnel

/-! ## Sessions -/

def set_dtls (ws : Tunnel) (i : Bool) (d : DtlsSt) : Tunnel :=
  { ws with dtls := Function.update ws.dtls i d }

def set_udp_state (ws : Tunnel) (i : Bool) (udp_state : UdpState) : Tunnel :=
  ws.set_dtls i { ws.dtls i with udp_state }

def set_io (ws : Tunnel) (i io : Bool) : Tunnel := ws.set_dtls i { ws.dtls i with io }

/-- `DTLS_ACTIVE`. -/
def active (ws : Tunnel) : DtlsSt := ws.dtls ws.dtls_active_session

/-- The client has moved to the TLS channel. -/
def leave_udp (ws : Tunnel) (switch : Bool) : Tunnel :=
  if switch ∧ ws.active.udp_state = .active then
    ws.set_udp_state ws.dtls_active_session .inactive
  else ws

def dtls_stop (ws : Tunnel) (i : Bool) : Tunnel :=
  ws.set_dtls i { io := false, dtls_session := false, udp_state := .disabled }

def setup_dtls_connection (ws : Tunnel) (i : Bool) : Tunnel :=
  { ws.set_dtls i { io := true, dtls_session := true, udp_state := .handshake } with
    mtu := ws.mtu.link_mtu_set ws.mtu.adv_link_mtu }

/-! ## Records of the client -/

def emit (ws : Tunnel) (e : TunnelEffect) : Tunnel := { ws with log := e :: ws.log }

def tun_enqueue_write (env : RecordEnv) (ws : Tunnel) (data : Packet) : Option Tunnel :=
  if ws.tun_pending.isSome then some (ws.emit (.tun_drop data))
  else
    match env.tun_write with
    | .written => some (ws.emit (.tun_write data))
    | .failed => none
    | .again =>
      -- pause input watchers until the slot is drained
      some { ws.set_io ws.dtls_active_session false with
        tun_pending := some data, tls_watcher := false, tun_write_watcher := true }

/-- The packets that `parse_data` writes to the TUN device. -/
def write_data (env : RecordEnv) (ws : Tunnel) (plain : Packet) : Option Tunnel :=
  if plain = [] then some ws else ws.tun_enqueue_write env plain

/-- A DPD packet of the DTLS channel, which the peer may use to probe the MTU. -/
def dtls_dpd (env : RecordEnv) (ws : Tunnel) (buf_size : Nat) : Tunnel :=
  let size := buf_size - CSTP_DTLS_OVERHEAD.toNat
  let mtu :=
    if (ws.mtu.data_mtu ws.mtu.link_mtu).toNat < size then
      ws.mtu.data_mtu_set ws.active.dtls_session env.dtls_mtu (UInt32.ofNat size)
    else ws.mtu
  let mtu :=
    if env.dtls_send = .large then mtu.mtu_not_ok ws.active.dtls_session env.path_mtu else mtu
  { ws with mtu }

/-- `parse_data`; there is no result when the worker exits. -/
def parse_data (env : RecordEnv) (ws : Tunnel) (head : UInt8) (plain : Packet) (buf_size : Nat)
    (is_dtls : Bool) : Option Tunnel :=
  if head = AC_PKT_DPD_OUT then
    if is_dtls then some (ws.dtls_dpd env buf_size)
    else if env.cstp_send_ok then some ws else none
  else if head = AC_PKT_DISCONN then none
  else if head = AC_PKT_COMPRESSED then
    if plain = [] then some ws
    else
      match env.plain with
      | none | some [] => none
      | some plain => ws.write_data env plain
  else if head = AC_PKT_DATA then ws.write_data env plain
  else some ws

def parse_cstp_data (env : RecordEnv) (ws : Tunnel) (buf : Packet) : Option Tunnel :=
  match buf with
  | b0 :: b1 :: b2 :: b3 :: b4 :: b5 :: b6 :: b7 :: plain =>
    if b0 = 'S'.toUInt8 ∧ b1 = 'T'.toUInt8 ∧ b2 = 'F'.toUInt8 ∧ b3 = 1 ∧ b7 = 0 then
      if buf.length = 8 + (b4.toNat * 256 + b5.toNat) then
        (ws.leave_udp (b6 = AC_PKT_DATA)).parse_data env b6 plain buf.length false
      else none
    else none
  | _ => none

def parse_dtls_data (env : RecordEnv) (ws : Tunnel) (buf : Packet) : Option Tunnel :=
  match buf with
  | head :: plain => ws.parse_data env head plain buf.length true
  | [] => none

/-! ## One read of each source -/

/-- `tls_mainloop`: the worker, and whether a record was read. -/
def tls_mainloop (ws : Tunnel) (env : RecordEnv) : Option (Tunnel × Bool) :=
  match env.recv with
  | .fatal => none
  | .again => some (ws, false)
  | .rehandshake ok => if ok then some (ws, false) else none
  | .record buf =>
    if buf = [] then none
    else if buf.length < 8 then some (ws, false)
    else if env.allowed then
      -- the result of `parse_cstp_data` is that of data packets
      (ws.parse_cstp_data env buf).map fun ws => (ws.leave_udp env.udp_switch, true)
    else some (ws, true)

/-- A read of a DTLS session that has been established. -/
def dtls_record (i : Bool) (ws : Tunnel) (env : DtlsEnv) : Option (Tunnel × Bool) :=
  match env.recv with
  | .fatal => none
  | .again => some (ws, false)
  | .rehandshake ok => if ok then some (ws, false) else none
  | .record buf =>
    if buf = [] then some (ws.dtls_stop i, false)
    else
      let ws := ws.set_udp_state i .active
      if env.allowed then (ws.parse_dtls_data env.toRecordEnv buf).map fun ws => (ws, true)
      else some (ws, true)

/-- The session is set up, and the MTU discovery starts anew. -/
def dtls_setup (ws : Tunnel) (i : Bool) : Tunnel :=
  let ws := ws.setup_dtls_connection i
  { ws with mtu := ws.mtu.mtu_discovery_init ws.mtu.link_mtu }

/-- The handshake is tried again with a smaller MTU while its packets are too large. -/
def handshake_mtu (ws : Tunnel) (i : Bool) (env : DtlsEnv) : Tunnel :=
  { ws with
    mtu := env.large.foldl
      (fun mtu path_mtu => mtu.mtu_not_ok (ws.dtls i).dtls_session path_mtu) ws.mtu }

/-- After its handshake the session replaces the active one. -/
def replace_active (ws : Tunnel) (i : Bool) : Tunnel :=
  let ws := ws.set_udp_state i .active
  let ws := { ws with dtls_active_session := !ws.dtls_active_session }
  ws.dtls_stop (!ws.dtls_active_session)

/-- `dtls_mainloop` for the session `i`. -/
def dtls_mainloop (i : Bool) (ws : Tunnel) (env : DtlsEnv) : Option (Tunnel × Bool) :=
  match (ws.dtls i).udp_state with
  | .disabled | .wait_fd => some (ws, false)
  | .active | .inactive => ws.dtls_record i env
  | .setup => if env.setup_ok then some (ws.dtls_setup i, false) else none
  | .handshake =>
    let ws := ws.handshake_mtu i env
    match env.handshake with
    | .fatal => some (ws.dtls_stop i, false)
    | .again => some (ws, false)
    | .done => some (ws.replace_active i, false)

/-- The size of a packet after the compression, if that makes it smaller. -/
def compressed_size (env : TunEnv) (l : Nat) : Nat :=
  match env.compressed with
  | some n => if 0 < n ∧ n < l then n else l
  | none => l

/-- A packet as large as the MTU may have been sent. -/
def probe_sent (ws : Tunnel) (ret : UInt32) : Tunnel :=
  if 1 + ws.mtu.data_mtu ws.mtu.link_mtu ≤ ret ∧ ws.mtu.try_mtu = true then
    { ws with mtu := ws.mtu.mtu_ok }
  else ws

/-- What `tun_mainloop` does when a packet of this size has been sent in the DTLS channel, and
whether it is to be sent in the TLS channel. -/
def dtls_sent (env : TunEnv) (ws : Tunnel) (size : Nat) : Option (Tunnel × Bool) :=
  match env.dtls_send with
  | .fatal => none
  | .large =>
    some ({ ws with mtu := ws.mtu.mtu_not_ok ws.active.dtls_session env.path_mtu }, true)
  | .sent => some (ws.probe_sent (UInt32.ofNat (size + 1)), false)
  -- the error is compared as an unsigned number
  | .nonfatal ret => some (ws.probe_sent ret.toUInt32, false)

/-- The transmission of a packet of the TUN device. -/
def transmit (env : TunEnv) (ws : Tunnel) (l : Nat) : Option Tunnel :=
  if ws.active.udp_state = .active then do
    let size := compressed_size env l
    let (ws, tls_retry) ← (ws.emit (.dtls_data size)).dtls_sent env size
    if tls_retry && !env.cstp_send_ok then none else some ws
  else if env.cstp_send_ok then some ws
  else none

/-- `tun_mainloop`: the worker, and whether a packet was moved. -/
def tun_mainloop (ws : Tunnel) (env : TunEnv) : Option (Tunnel × Bool) :=
  match env.read with
  | .failed => none
  | .again => some (ws, false)
  | .packet size =>
    -- the rest of a larger packet is lost
    let l := min size (ws.mtu.data_mtu ws.mtu.link_mtu).toNat
    if l = 0 then some (ws, false)
    else
      let ws := ws.leave_udp env.switch_to_tcp
      if env.allowed then (ws.transmit env l).map fun ws => (ws, true)
      else some (ws, false)

/-! ## Callbacks -/

def paused (ws : Tunnel) : Bool := ws.tun_pending.isSome

def tls_watcher_cb (ws : Tunnel) (inputs : Nat → RecordEnv) : Option Tunnel :=
  burst tls_mainloop paused READ_BURST_MAX inputs ws

def dtls_watcher_cb (ws : Tunnel) (i : Bool) (inputs : Nat → DtlsEnv) : Option Tunnel :=
  burst (dtls_mainloop i) paused READ_BURST_MAX inputs ws

def tun_watcher_cb (ws : Tunnel) (inputs : Nat → TunEnv) : Option Tunnel :=
  burst tun_mainloop (fun _ => false) READ_BURST_MAX inputs ws

def tun_write_watcher_cb (ws : Tunnel) (write : TunWrite) : Option Tunnel :=
  match write with
  | .again => some ws
  | .failed => none
  | .written =>
    let ws :=
      { ws with
        log := ws.tun_pending.toList.map TunnelEffect.tun_write ++ ws.log
        tun_pending := none
        tls_watcher := true
        tun_write_watcher := false }
    some (if ws.active.udp_state.hasFd then ws.set_io ws.dtls_active_session true else ws)

def handle_commands_from_main (ws : Tunnel) : MainCmd → Option Tunnel
  | .terminate => none
  -- only the descriptor of the active session changes
  | .udp_fd false => some ws
  | .udp_fd true => some (ws.set_udp_state (!ws.dtls_active_session) .setup)

/-- Call the watcher of a session that waits to be set up. -/
def invoke_setup (ws : Tunnel) (i : Bool) (inputs : Nat → DtlsEnv) : Option Tunnel :=
  if (ws.dtls i).udp_state = .setup then ws.dtls_watcher_cb i inputs else some ws

def command_watcher_cb (ws : Tunnel) (cmd : MainCmd) (inputs : Bool → Nat → DtlsEnv) :
    Option Tunnel := do
  let ws ← ws.handle_commands_from_main cmd
  let ws ← ws.invoke_setup ws.dtls_active_session (inputs ws.dtls_active_session)
  ws.invoke_setup (!ws.dtls_active_session) (inputs (!ws.dtls_active_session))

def periodic_check (ws : Tunnel) : Periodic → Option Tunnel
  | .early => some ws
  | .terminate => none
  | .check udp_silent pmtu =>
    let ws := ws.leave_udp udp_silent
    some (if ws.active.udp_state = .disabled then ws
      else { ws with mtu := ws.mtu.pmtu_reduce pmtu ws.mtu.link_mtu })

/-- `invoke_dtls_if_needed`; there are inputs if gnutls has records of the session. -/
def invoke_dtls_if_needed (ws : Tunnel) (i : Bool) (pending : Option (Nat → DtlsEnv)) :
    Option Tunnel :=
  match pending with
  | none => some ws
  | some inputs =>
    if (ws.dtls i).udp_state.hasFd ∧ (ws.dtls i).dtls_session then ws.dtls_watcher_cb i inputs
    else some ws

/-- The watcher of the TLS connection is called if gnutls has records of it. -/
def invoke_tls_if_needed (ws : Tunnel) : Option (Nat → RecordEnv) → Option Tunnel
  | none => some ws
  | some inputs => ws.tls_watcher_cb inputs

/-- `periodic_check_watcher_cb`; `tls` and `dtls` are the records that gnutls has already
read. -/
def periodic_check_watcher_cb (ws : Tunnel) (periodic : Periodic)
    (tls : Option (Nat → RecordEnv)) (dtls : Bool → Option (Nat → DtlsEnv)) : Option Tunnel := do
  let ws ← ws.periodic_check periodic
  let ws ← ws.invoke_tls_if_needed tls
  let ws ← ws.invoke_dtls_if_needed ws.dtls_active_session (dtls ws.dtls_active_session)
  ws.invoke_dtls_if_needed (!ws.dtls_active_session) (dtls (!ws.dtls_active_session))

/-! ## Runs -/

/-- The events of the loop. -/
inductive Event
  | command (cmd : MainCmd) (inputs : Bool → Nat → DtlsEnv)
  | tls (inputs : Nat → RecordEnv)
  | dtls (i : Bool) (inputs : Nat → DtlsEnv)
  | tun (inputs : Nat → TunEnv)
  | tun_write (write : TunWrite)
  | timer (periodic : Periodic) (tls : Option (Nat → RecordEnv))
      (dtls : Bool → Option (Nat → DtlsEnv))

/-- The handling of an event; no result when its watcher is stopped or the worker exits. -/
def exec (ws : Tunnel) : Event → Option Tunnel
  | .command cmd inputs => ws.command_watcher_cb cmd inputs
  | .tls inputs => if ws.tls_watcher then ws.tls_watcher_cb inputs else none
  | .dtls i inputs => if (ws.dtls i).io then ws.dtls_watcher_cb i inputs else none
  | .tun inputs => ws.tun_watcher_cb inputs
  | .tun_write write => if ws.tun_write_watcher then ws.tun_write_watcher_cb write else none
  | .timer periodic tls dtls => ws.periodic_check_watcher_cb periodic tls dtls

def Step (ws : Tunnel) (e : Event) (ws' : Tunnel) : Prop := ws.exec e = some ws'

/-- The worker when `connect_handler` enters the event loop. -/
def connect (req : MtuReq) : Option Tunnel :=
  req.connect.map fun mtu =>
    { mtu, dtls := fun _ => { udp_state := if req.udp then .wait_fd else .disabled } }

end Tunnel
end Ocserv

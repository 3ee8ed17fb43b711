import Ocserv.Basic
import Ocserv.Lib.Reads

/-!
# The messages between the processes

Main, sec-mod, the workers and `occtl` exchange messages over stream sockets: a byte with the
command, the length of the payload in four bytes, the payload, and maybe a descriptor.  A
message is sent with one `sendmsg`.  The receiver reads the header with one `recvmsg`, which
also takes the descriptor, and the payload in a loop.

The kernel may cut the stream wherever it likes: how many bytes each call moves is an input of
the functions.  So is what the variables and buffers of the receiver hold before they are
written.
-/

namespace Ocserv

def UINT32_MAX : Nat := 4294967295

/-- A byte in the socket; a descriptor comes with the first byte of its message. -/
abbrev Cell := UInt8 × Option Nat

structure IpcMsg where
  cmd : UInt8
  payload : List UInt8
  socketfd : Option Nat := none
deriving DecidableEq, Repr

/-- A `uint32_t` in memory. -/
def bytes32 (n : Nat) : List UInt8 :=
  [UInt8.ofNat n, UInt8.ofNat (n / 256), UInt8.ofNat (n / 65536), UInt8.ofNat (n / 16777216)]

/-- The `uint32_t` that four bytes hold. -/
def word32 : List UInt8 → Nat
  | [a, b, c, d] => a.toNat + 256 * b.toNat + 65536 * c.toNat + 16777216 * d.toNat
  | _ => 0

/-- An `int` that is compared with a `uint32_t`. -/
def as_uint32 (n : Int) : Nat := if n < 0 then (n + 4294967296).toNat else n.toNat

/-- A `uint32_t` that is returned as an `int`. -/
def as_int (n : Nat) : Int := if n < 2147483648 then n else n - 4294967296

/-! ## Sending -/

/-- What `send_socket_msg` hands to `sendmsg`. -/
def IpcMsg.cells (m : IpcMsg) : List Cell :=
  (m.cmd, m.socketfd) :: (bytes32 m.payload.length ++ m.payload).map fun b => (b, none)

/-- `send_socket_msg`: its result, and what is in the socket then.  The first call of `sendmsg`
that is not interrupted is the only one. -/
def send_socket_msg (count : Nat) (cmd : UInt8) (socketfd : Option Nat) (payload : List UInt8) :
    Int × List Cell :=
  if UINT32_MAX ≤ payload.length then (-1, [])
  else
    let cells := IpcMsg.cells { cmd, payload, socketfd }
    let sent := (Reads.once cells.length count cells).1
    (as_int sent.length, sent)

def send_msg (count : Nat) (cmd : UInt8) (payload : List UInt8) : Int × List Cell :=
  send_socket_msg count cmd none payload

/-- The functions that send a message without and with a descriptor. -/
def IpcMsg.send (m : IpcMsg) (count : Nat) : Int × List Cell :=
  match m.socketfd with
  | none => send_msg count m.cmd m.payload
  | some socketfd => send_socket_msg count m.cmd (some socketfd) m.payload

/-! ## Receiving -/

inductive RecvErr
  | bad_command
  | peer_terminated
  | mem
deriving DecidableEq, Repr

/-- How the kernel cuts a message. -/
structure RecvEnv where
  /-- the count of the `recvmsg` for the header -/
  header : Nat
  /-- the counts of the calls of `read` for the payload -/
  reads : Nat → Nat

/-- What the receiver's memory holds before it is written. -/
structure RecvMem where
  length : Nat → UInt8
  data : Nat → UInt8

structure MsgHeader where
  cmd : UInt8
  length : Nat
  /-- the descriptors that have come with the bytes -/
  fds : List Nat

/-- The descriptor, if the control message holds one. -/
def MsgHeader.fd (h : MsgHeader) : Option Nat :=
  match h.fds with
  | [fd] => some fd
  | _ => none

/-- `recvmsg` of a header: any count but 0 and -1 is taken for a whole header. -/
def recv_header (count : Nat) (mem : Nat → UInt8) (s : List Cell) :
    Option MsgHeader × List Cell :=
  match Reads.once 5 count s with
  | ([], s) => (none, s)
  | (c :: got, s) =>
    (some
      { cmd := c.1
        length := word32 (Reads.filled (got.map Prod.fst) mem 4)
        fds := (c :: got).filterMap Prod.snd }, s)

/-- `force_read_timeout`: its result, the bytes that have been read and what is left.  When the
stream ends before, the result is -1. -/
def force_read_timeout (reads : Nat → Nat) (len : Nat) (s : List Cell) :
    Int × List UInt8 × List Cell :=
  -- `int left = len`
  if as_int len < 0 then (as_int len, [], s)
  else
    let (got, s) := Reads.loop reads len len s
    (if got.length = len then as_int len else -1, got.map Prod.fst, s)

/-- `recv_socket_msg`; `socketfd` and `msg` say whether the caller wants the descriptor and the
payload, `unpack` which payloads can be unpacked. -/
def recv_socket_msg (cmd : UInt8) (socketfd msg : Bool) (unpack : List UInt8 → Bool)
    (env : RecvEnv) (mem : RecvMem) (s : List Cell) : Except RecvErr IpcMsg × List Cell :=
  match recv_header env.header mem.length s with
  | (none, s) => (.error .peer_terminated, s)
  | (some h, s) =>
    if h.cmd ≠ cmd then (.error .bad_command, s)
    else
      let socketfd := if socketfd then h.fd else none
      if 0 < h.length ∧ msg = true then
        let (ret, got, s) := force_read_timeout env.reads h.length s
        -- an error is not less than the length
        if as_uint32 ret < h.length then (.error .bad_command, s)
        else
          let data := Reads.filled got mem.data h.length
          if unpack data then (.ok { cmd := h.cmd, payload := data, socketfd }, s)
          else (.error .mem, s)
      else (.ok { cmd := h.cmd, payload := [], socketfd }, s)

def recv_msg (cmd : UInt8) (msg : Bool) (unpack : List UInt8 → Bool) :
    RecvEnv → RecvMem → List Cell → Except RecvErr IpcMsg × List Cell :=
  recv_socket_msg cmd false msg unpack

/-- `recv_msg_headers`: the command, and the length as an `int`. -/
def recv_msg_headers (env : RecvEnv) (mem : RecvMem) (s : List Cell) :
    Except RecvErr (UInt8 × Int) × List Cell :=
  match recv_header env.header mem.length s with
  | (none, s) => (.error .peer_terminated, s)
  | (some h, s) => (.ok (h.cmd, as_int h.length), s)

/-- The request that `serve_request_main`, `serve_request_worker` and
`handle_worker_commands` read. -/
def recv_request (buffer_size : Nat) (env : RecvEnv) (mem : RecvMem) (s : List Cell) :
    Except RecvErr IpcMsg × List Cell :=
  match recv_msg_headers env mem s with
  | (.error e, s) => (.error e, s)
  | (.ok (cmd, ret), s) =>
    if ret < 0 then (.error .bad_command, s)
    else if buffer_size < ret.toNat then (.error .bad_command, s)
    else
      let (ret, got, s) := force_read_timeout env.reads ret.toNat s
      if ret < 0 then (.error .bad_command, s)
      else (.ok { cmd, payload := Reads.filled got mem.data ret.toNat }, s)

/-- `recv_msg_data`; `received_fd` says whether the caller wants the descriptor. -/
def recv_msg_data (data_size : Nat) (received_fd : Bool) (env : RecvEnv) (mem : RecvMem)
    (s : List Cell) : Except RecvErr IpcMsg × List Cell :=
  match recv_header env.header mem.length s with
  | (none, s) => (.error .peer_terminated, s)
  | (some h, s) =>
    let socketfd := if received_fd then h.fd else none
    if data_size < h.length then (.error .bad_command, s)
    else
      let (ret, got, s) := force_read_timeout env.reads h.length s
      if as_uint32 ret < h.length then (.error .bad_command, s)
      -- the length is the result
      else if as_int h.length < 0 then (.error .bad_command, s)
      else
        (.ok { cmd := h.cmd, payload := Reads.filled got mem.data h.length, socketfd }, s)

/-! ## Sequences of messages -/

/-- A call that receives a message. -/
inductive Receiver
  | recv_msg (cmd : UInt8) (unpack : List UInt8 → Bool)
  | recv_socket_msg (cmd : UInt8) (unpack : List UInt8 → Bool)
  | recv_request (buffer_size : Nat)
  | recv_msg_data (data_size : Nat) (received_fd : Bool)

def Receiver.recv : Receiver → RecvEnv → RecvMem → List Cell →
    Except RecvErr IpcMsg × List Cell
  | .recv_msg cmd unpack => Ocserv.recv_msg cmd true unpack
  | .recv_socket_msg cmd unpack => Ocserv.recv_socket_msg cmd true true unpack
  | .recv_request buffer_size => Ocserv.recv_request buffer_size
  | .recv_msg_data data_size received_fd => Ocserv.recv_msg_data data_size received_fd

/-- What is in the socket when the messages have been sent. -/
def send_all : (Nat → Nat) → List IpcMsg → List Cell
  | _, [] => []
  | counts, m :: msgs => (m.send (counts 0)).2 ++ send_all (fun i => counts (i + 1)) msgs

/-- The receiver takes messages out of the socket until it is empty or a call fails; `fuel`
bounds the number of calls. -/
def recv_all : Nat → (Nat → Receiver) → (Nat → RecvEnv) → (Nat → RecvMem) → List Cell →
    List (Except RecvErr IpcMsg)
  | 0, _, _, _, _ => []
  | _ + 1, _, _, _, [] => []
  | fuel + 1, calls, env, mem, s =>
    match (calls 0).recv (env 0) (mem 0) s with
    | (.error e, _) => [.error e]
    | (.ok m, s) =>
      .ok m :: recv_all fuel (fun i => calls (i + 1)) (fun i => env (i + 1))
        (fun i => mem (i + 1)) s

end Ocserv

import Ocserv.Main.State

/-!
# Finding the worker of a UDP packet

A UDP packet that does not start a DTLS session is matched with a worker by the address it
comes from.  Main knows two addresses of a client: that of the TCP connection of its CSTP
channel, and that of its DTLS channel if it is another one.  There is a table for each.  A
packet that starts a DTLS session names the worker by a session identifier.
-/

namespace Ocserv

open HTable

section Peers

variable [Platform]

namespace Main

def rehash_dtls_ip (m : Main) (id : Nat) : Nat := (m.find_proc id).elim 0 Proc.rehash_dtls_ip

/-- `proc_table_update_dtls_ip`: the address is only entered if it is not that of the CSTP
channel.  As in `proc_table_add`, the table can grow. -/
def proc_table_update_dtls_ip (m : Main) (p : Proc) (addr : SockAddr) : Main × Proc × Int :=
  let same (buf : SockBuf) : Prop := buf.len = addr.length ∧
    sa_in_generic buf.data addr.length = sa_in_generic addr addr.length
  if p.dtls_remote_addr.len ≠ 0 ∧ same p.dtls_remote_addr then (m, p, -1)
  else
    let db_dtls_ip :=
      if p.dtls_remote_addr.len ≠ 0 then
        (m.proc_table.db_dtls_ip.del p.rehash_dtls_ip (· == p.id)).1
      else m.proc_table.db_dtls_ip
    let p := { p with dtls_remote_addr.len := 0 }
    let m := { m.store p with proc_table := { m.proc_table with db_dtls_ip } }
    if addr.length = 0 then (m, p, 0)
    else if same p.remote_addr then (m, p, -1)
    else
      let p := { p with dtls_remote_addr := p.dtls_remote_addr.copy addr }
      let m := m.store p
      ({ m with
          proc_table :=
            { m.proc_table with
              db_dtls_ip :=
                m.proc_table.db_dtls_ip.add m.rehash_dtls_ip p.rehash_dtls_ip p.id } }, p, 0)

/-- `local_ip_cmp`, with the number of matches so far. -/
def local_ip_cmp (addr : SockAddr) (c1 : Proc) (found_ips : Nat) : Bool × Nat :=
  if addr.length = 0 then (false, found_ips)
  else if c1.dtls_remote_addr.len = addr.length ∧
      c1.dtls_remote_addr.generic = sa_in_generic addr addr.length then (true, found_ips + 1)
  else if c1.remote_addr.len = addr.length ∧
      c1.remote_addr.generic = sa_in_generic addr addr.length then (true, found_ips + 1)
  else (false, found_ips)

/-- `htable_get` with this comparison, over the candidates. -/
def htable_get_ip (m : Main) (addr : SockAddr) : List Nat → (found_ips : Nat) → Option Proc × Nat
  | [], found_ips => (none, found_ips)
  | id :: ids, found_ips =>
    match m.find_proc id with
    | none => m.htable_get_ip addr ids found_ips
    | some c =>
      let r := local_ip_cmp addr c found_ips
      if r.1 then (some c, r.2) else m.htable_get_ip addr ids r.2

def proc_search_single_ip (m : Main) (addr : SockAddr) : Option Proc :=
  let h := Platform.hash_any (sa_in_generic addr addr.length)
  let r := m.htable_get_ip addr ((m.proc_table.db_dtls_ip.candidates h).map Prod.snd) 0
  if r.1.isSome ∧ r.2 = 1 then r.1
  else
    let r := m.htable_get_ip addr ((m.proc_table.db_ip.candidates h).map Prod.snd) 0
    if r.1.isSome ∧ r.2 = 1 then r.1 else none

def proc_search_dtls_id (m : Main) (session_id : List UInt8) : Option Proc :=
  (m.proc_table.db_dtls_id.get (Platform.hash_any session_id) fun w =>
    (m.find_proc w).any fun c1 => c1.dtls_session_id = session_id).bind m.find_proc

/-- A client hello that `forward_udp_to_owner` passes on to a worker: a new DTLS session
starts, from the address `cli_addr`. -/
def forward_client_hello (m : Main) (session_id : List UInt8) (cli_addr : SockAddr) : Main :=
  match m.proc_search_dtls_id session_id with
  | none => m
  | some proc_to_send =>
    -- the reply to its cookie request may still be on its way
    if proc_to_send.status ≠ .completed then m
    else (m.proc_table_update_dtls_ip proc_to_send cli_addr).1

end Main
end Peers
end Ocserv

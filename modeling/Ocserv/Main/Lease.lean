import Ocserv.Lib.Inet
import Ocserv.Main.State

/-!
# Address leases

A worker gets an IPv4 and an IPv6 address when its session starts.  An address is
explicit in the configuration of the user, or it is taken from the pool of the
network: a few candidates derived from the seed of the session are tried before
random ones, and the first that is not registered, not reserved and does not
answer a ping is registered.
-/

namespace Ocserv

section Leases

variable [Platform]

def MAX_IP_TRIES : Nat := 16

def FIXED_IPS : Nat := 5

/-- The first bits of the SHA-1 of the seed. -/
def ip_from_seed {w : Nat} (seed : BitVec w) (size : Nat) : BitVec size :=
  (Platform.sha1 w seed).extractLsb' (160 - size) size

/-- What looking for an address of one family gives: an error, or the lease if
there is a network of that family. -/
inductive LeaseResult
  | error (ret : Int)
  | none
  | lease (l : IpLease)
deriving DecidableEq, Repr

/-! ## IPv4 -/

/-- RFC 3021: a /31 network has no reserved addresses. -/
def is_ipv4_p2p_mask (mask : BitVec 32) : Bool := mask == 0xfffffffe

def is_ipv4_ok (db : LeaseDb) (ip network mask : BitVec 32) : Bool :=
  !db.ip_lease_exists (.v4 ip) &&
    (is_ipv4_p2p_mask mask || ip != network && ip != (network ||| ~~~mask))

/-- The local end of the link. -/
def ipv4_lip (network mask : BitVec 32) : BitVec 32 :=
  if is_ipv4_p2p_mask mask then network else network ||| 1

/-- The number from which the next candidate is made; `rnd` is the last candidate. -/
def ipv4_rnd (env : MainEnv) (seed : BitVec 32) (max_loops : Nat) (rnd : BitVec 32) :
    Option (BitVec 32) :=
  if max_loops = MAX_IP_TRIES then some seed
  else if max_loops < MAX_IP_TRIES - FIXED_IPS then env.rnd_ipv4 max_loops
  else some (ip_from_seed rnd 32)

/-- The loop over the candidates. -/
def ipv4_loop (env : MainEnv) (db : LeaseDb) (seed network mask : BitVec 32) :
    (max_loops : Nat) → (rnd : BitVec 32) → Option (BitVec 32)
  | 0, _ => none
  | n + 1, rnd =>
    match ipv4_rnd env seed (n + 1) rnd with
    | none => none
    | some r =>
      let rnd := r &&& ~~~mask ||| network
      if !is_ipv4_ok db rnd network mask then ipv4_loop env db seed network mask n rnd
      else if ipv4_lip network mask = rnd then ipv4_loop env db seed network mask n rnd
      else if env.icmp_ping4 (n + 1) rnd = 0 then some rnd
      else ipv4_loop env db seed network mask n rnd

/-- An IPv4 lease in the network `c_network` with the mask `c_netmask`. -/
def ipv4_lease (env : MainEnv) (db : LeaseDb) (id : Nat) (seed : BitVec 32) (config : GroupCfg) :
    (c_network c_netmask : Option CStr) → LeaseResult
  | some c_network, some c_netmask =>
    match Inet.inet_pton4 c_network, Inet.inet_pton4 c_netmask with
    | some network, some mask =>
      -- mask the network, just in case it is wrong
      let network := network &&& mask
      let lip := ipv4_lip network mask
      match config.explicit_ipv4 with
      | some explicit =>
        match Inet.inet_pton4 explicit with
        | none => .error (-1)
        | some ip =>
          if !is_ipv4_ok db ip network mask then .error ERR_NO_IP
          else if lip = ip then .error ERR_NO_IP
          else
            .lease
              { id, sig := .v4 ip, rip := .v4 ip, lip := .v4 lip, db := false
                pool := false }
      | none =>
        match ipv4_loop env db seed network mask MAX_IP_TRIES 0 with
        | none => .error ERR_NO_IP
        | some ip =>
          .lease
            { id, sig := .v4 ip, rip := .v4 ip, lip := .v4 lip, db := true, pool := true }
    | _, _ => .error (-1)
  | _, _ => .none

def get_ipv4_lease (env : MainEnv) (db : LeaseDb) (id : Nat) (proc : Proc) :
    Except Fault LeaseResult := do
  let config ← deref .null_config proc.config
  if config.ipv4_net.isSome && config.ipv4_netmask.isSome then
    return ipv4_lease env db id proc.ipv4_seed config config.ipv4_net config.ipv4_netmask
  else
    let vhost ← deref .null_vhost proc.vhost
    return ipv4_lease env db id proc.ipv4_seed config vhost.config.network.ipv4
      vhost.config.network.ipv4_netmask

/-! ## IPv6 -/

def ipv6_prefix_to_mask (len : Nat) : Option (BitVec 128) :=
  if len = 0 ∨ 128 < len then none else some (BitVec.allOnes 128 <<< (128 - len))

/-- Whether the subnet is free; `tun` is the address of the network. -/
def is_ipv6_ok (db : LeaseDb) (tun subnet : BitVec 128) : Bool :=
  subnet != tun && !db.ip_lease_exists (.v6 subnet)

/-- The number from which the next candidate is made.  The random bytes are written
where an IPv4 address would start, four bytes before the IPv6 address. -/
def ipv6_rnd (env : MainEnv) (seed : BitVec 32) (max_loops : Nat) : Option (BitVec 128) :=
  if max_loops = MAX_IP_TRIES then some (ip_from_seed seed 128)
  else if max_loops < MAX_IP_TRIES - FIXED_IPS then
    (env.rnd_ipv6 max_loops).map fun (r : BitVec 128) => r <<< 32
  else some (ip_from_seed (0 : BitVec 128) 128)

/-- The loop over the candidates.  `prefix_len` is that of the lease while the loop
runs. -/
def ipv6_loop (env : MainEnv) (db : LeaseDb) (seed : BitVec 32)
    (network mask subnet_mask : BitVec 128) (prefix_len : Nat) :
    (max_loops : Nat) → Option (BitVec 128)
  | 0 => none
  | n + 1 =>
    match ipv6_rnd env seed (n + 1) with
    | none => none
    | some r =>
      let rnd := r &&& ~~~mask ||| network
      if !is_ipv6_ok db network (rnd &&& subnet_mask) then
        ipv6_loop env db seed network mask subnet_mask prefix_len n
      else if prefix_len ≠ 128 ∨ env.icmp_ping6 (n + 1) rnd = 0 then some rnd
      else ipv6_loop env db seed network mask subnet_mask prefix_len n

/-- An IPv6 lease in the network `c_network`. -/
def ipv6_lease (env : MainEnv) (db : LeaseDb) (id : Nat) (seed : BitVec 32) (config : GroupCfg)
    (c_network : Option CStr) (prefix_len subnet_prefix_len : Nat) : LeaseResult :=
  match c_network with
  | none => .none
  | some c_network =>
    if prefix_len = 0 ∨ subnet_prefix_len = 0 then .none
    else
      match ipv6_prefix_to_mask prefix_len, ipv6_prefix_to_mask subnet_prefix_len,
        Inet.inet_pton6 c_network with
      | some mask, some subnet_mask, some network =>
        let network := network &&& mask
        match config.explicit_ipv6 with
        | some explicit =>
          match Inet.inet_pton6 explicit with
          | none => .error ERR_NO_IP
          | some ip =>
            if !is_ipv6_ok db network (ip &&& subnet_mask) then .error ERR_NO_IP
            else
              .lease
                { id, sig := .v6 (ip &&& subnet_mask), rip := .v6 ip, lip := .v6 network
                  prefix_len := subnet_prefix_len, db := false, pool := false }
        | none =>
          -- the prefix of the new lease is only set after the loop
          match ipv6_loop env db seed network mask subnet_mask 0 MAX_IP_TRIES with
          | none => .error ERR_NO_IP
          | some ip =>
            .lease
              { id, sig := .v6 (ip &&& subnet_mask), rip := .v6 ip, lip := .v6 network
                prefix_len := subnet_prefix_len, db := true, pool := true }
      | _, _, _ => .error (-1)

def get_ipv6_lease (env : MainEnv) (db : LeaseDb) (id : Nat) (proc : Proc) :
    Except Fault LeaseResult := do
  let config ← deref .null_config proc.config
  if config.ipv6_net.isSome && config.ipv6_subnet_prefix_len.getD 0 != 0 then
    return ipv6_lease env db id proc.ipv4_seed config config.ipv6_net
      (config.ipv6_prefix_len.getD 0) (config.ipv6_subnet_prefix_len.getD 0)
  else
    let vhost ← deref .null_vhost proc.vhost
    return ipv6_lease env db id proc.ipv4_seed config vhost.config.network.ipv6
      vhost.config.network.ipv6_prefix_len vhost.config.network.ipv6_subnet_prefix_len

/-! ## The leases of a worker -/

namespace Main

/-- A new lease, registered if it is from a pool. -/
def register (m : Main) (l : IpLease) : Main :=
  { m with ip_leases := if l.db then m.ip_leases.add l else m.ip_leases, next := m.next + 1 }

/-- The IPv4 half of `get_ip_leases`. -/
def lease_ipv4 (env : MainEnv) (m : Main) (proc : Proc) : Except Fault (Main × Proc × Int) :=
  if proc.ipv4.isSome then return (m, proc, 0)
  else do
    match ← get_ipv4_lease env m.ip_leases m.next proc with
    | .error ret => return (m, proc, ret)
    | .none => return (m, proc, 0)
    | .lease l => return (m.register l, { proc with ipv4 := some l }, 0)

/-- The IPv6 half of `get_ip_leases`. -/
def lease_ipv6 (env : MainEnv) (m : Main) (proc : Proc) : Except Fault (Main × Proc × Int) :=
  if proc.ipv6.isSome then return (m, proc, 0)
  else do
    match ← get_ipv6_lease env m.ip_leases m.next proc with
    | .error ret => return (m, proc, ret)
    | .none => return (m, proc, 0)
    | .lease l => return (m.register l, { proc with ipv6 := some l }, 0)

def get_ip_leases (env : MainEnv) (m : Main) (proc : Proc) : Except Fault (Main × Proc × Int) := do
  let (m, proc, ret) ← m.lease_ipv4 env proc
  if ret < 0 then return (m, proc, ret)
  let (m, proc, ret) ← m.lease_ipv6 env proc
  if ret < 0 then return (m, proc, ret)
  -- no address of either family
  if proc.leases = [] then return (m, proc, -1)
  return (m, proc, 0)

/-- The copy of a lease that the previous owner keeps for its scripts. -/
def copy_lease (l : IpLease) (id : Nat) : IpLease := { l with id, db := false }

/-- `steal_ip_leases`: the leases move from `proc` to `thief`. -/
def steal_ip_leases (m : Main) (proc thief : Proc) : Main × Proc × Proc :=
  ({ m with next := m.next + 2 },
    { proc with
      ipv4 := proc.ipv4.map (copy_lease · m.next)
      ipv6 := proc.ipv6.map (copy_lease · (m.next + 1)) },
    { thief with ipv4 := proc.ipv4, ipv6 := proc.ipv6 })

def remove_ip_leases (m : Main) (proc : Proc) : Main :=
  { m with ip_leases := proc.leases.foldl LeaseDb.unref_ip_lease m.ip_leases }

end Main
end Leases
end Ocserv

import Mathlib.Algebra.Group.Nat.Defs
import Ocserv.Lib.Inet
import Ocserv.Lib.Keyed
import Ocserv.Main.State

/-!
# The ban list of the main process

`main-ban.c` counts points against the addresses of clients and turns those away
that have collected too many.  IPv6 addresses are counted by their /64 network.
`BanDb` is the hash table of the entries together with its invariant: seen through
`find` it is a finite map from addresses to entries.

Times are in seconds.  Every function is given the time `now` at which it runs.
-/

namespace Ocserv

open HTable

/-! ## State -/

/-- The settings of the ban list. -/
structure BanCfg where
  ban_time : Int := 300
  ban_reset_time : Int := 1200
  max_ban_score : Nat := 80
  ban_points_connect : Nat := 1
deriving DecidableEq, Repr

/-- `ban_entry_st`. -/
structure BanEntry where
  ip : List UInt8
  score : Nat
  /-- the time its score counting started -/
  last_reset : Int
  /-- the time after which the client is allowed to log in -/
  expires : Int
deriving DecidableEq, Repr

def BanCfg.is_banned (c : BanCfg) (e : BanEntry) : Prop := c.max_ban_score ≤ e.score

instance (c : BanCfg) (e : BanEntry) : Decidable (c.is_banned e) :=
  inferInstanceAs (Decidable (_ ≤ _))

/-- `if_address_st`, an address of a network interface of the server and its mask. -/
structure IfAddress where
  if_addr : List UInt8
  if_netmask : List UInt8
deriving DecidableEq, Repr

section Table

variable [Platform]

/-- The table of the ban entries. -/
structure BanDb where
  table : Table BanEntry
  keyed : Keyed BanEntry.ip Platform.hash_any table

namespace BanDb

/-- `main_ban_db_init`. -/
def empty : BanDb := ⟨.init, .init⟩

def toList (db : BanDb) : List BanEntry := db.table.toList

def find (db : BanDb) (ip : List UInt8) : Option BanEntry :=
  db.table.lookup BanEntry.ip Platform.hash_any ip

/-- Insert an entry for an address that has none. -/
def add (db : BanDb) (e : BanEntry) (h : db.find e.ip = none) : BanDb :=
  ⟨db.table.add (Platform.hash_any ∘ BanEntry.ip) (Platform.hash_any e.ip) e, db.keyed.add h⟩

/-- Write back an entry whose fields have changed in place. -/
def store (db : BanDb) (e : BanEntry) : BanDb :=
  ⟨db.table.update BanEntry.ip e, db.keyed.update e⟩

/-- Keep an entry: it is inserted if its address has none yet, and else written back. -/
def put (db : BanDb) (e : BanEntry) : BanDb :=
  match h : db.find e.ip with
  | none => db.add e h
  | some _ => db.store e

/-- Take out every entry that meets `p`, in one pass. -/
def sweep (db : BanDb) (p : BanEntry → Bool) : BanDb := ⟨(db.table.sweep p).1, db.keyed.sweep p⟩

variable {db : BanDb} {e : BanEntry} {ip : List UInt8}

theorem find_eq_some : db.find ip = some e ↔ e ∈ db.toList ∧ e.ip = ip := db.keyed.lookup_eq_some

theorem find_ip (h : db.find ip = some e) : e.ip = ip := (find_eq_some.1 h).2

@[simp] theorem find_empty (ip : List UInt8) : empty.find ip = none :=
  Keyed.init.lookup_eq_none.2 fun _ hx => absurd hx (by simp)

theorem find_add (h : db.find e.ip = none) :
    (db.add e h).find ip = if ip = e.ip then some e else db.find ip := db.keyed.lookup_add h

theorem find_store : (db.store e).find ip =
    if ip = e.ip then (db.find ip).map fun _ => e else db.find ip := db.keyed.lookup_update

theorem find_put : (db.put e).find ip = if ip = e.ip then some e else db.find ip := by
  unfold put
  split
  · next h => exact find_add h
  · next h =>
    rw [find_store]
    split
    · next heq =>
      rw [heq, h]
      rfl
    · rfl

theorem find_sweep (p : BanEntry → Bool) :
    (db.sweep p).find ip = (db.find ip).filter fun e => !p e := db.keyed.lookup_sweep p

end BanDb

/-- What the main process keeps for banning. -/
structure Bans where
  config : BanCfg
  if_addresses : List IfAddress
  ban_db : BanDb

end Table

/-! ## Addresses -/

def massage_ipv6_address (ip : List UInt8) : List UInt8 :=
  if ip.length = 16 then ip.take 8 ++ List.replicate 8 0 else ip

/-- Whether two addresses are the same under a network mask. -/
def test_local (remote local_addr network : List UInt8) : Bool :=
  (local_addr.zipWith (· &&& ·) network) == (remote.zipWith (· &&& ·) network)

def test_local_ipv4 (remote local_addr network : List UInt8) : Bool :=
  test_local ((remote.drop 4).take 4) ((local_addr.drop 4).take 4) ((network.drop 4).take 4)

def test_local_ipv6 (remote local_addr network : List UInt8) : Bool :=
  test_local ((remote.drop 8).take 16) ((local_addr.drop 8).take 16) ((network.drop 8).take 16)

/-- The `sa_family` that starts an IPv6 address. -/
def AF_INET6 : List UInt8 := [10, 0]

/-- Whether an address is on a network of one of the interfaces. -/
def if_address_test_local (if_addresses : List IfAddress) (addr : List UInt8) : Bool :=
  if_addresses.any fun ifa =>
    if ifa.if_addr.take 2 ≠ addr.take 2 then false
    else if addr.take 2 = AF_INET then test_local_ipv4 addr ifa.if_addr ifa.if_netmask
    else if addr.take 2 = AF_INET6 then test_local_ipv6 addr ifa.if_addr ifa.if_netmask
    else false

/-- The address a string stands for. -/
def read_ip (ip : CStr) : Option (List UInt8) :=
  if ':' ∈ ip then (Inet.inet_pton6 ip).map fun a => netBytes a 16
  else (Inet.inet_pton4 ip).map fun a => netBytes a 4

/-! ## Scoring -/

namespace BanEntry

/-- A new entry. -/
def fresh (ip : List UInt8) (now : Int) : BanEntry := ⟨ip, 0, now, 0⟩

/-- Reset the score if the ban period ended, or if the reset interval elapsed and the
client is not currently banned. -/
def reset (c : BanCfg) (now : Int) (e : BanEntry) : BanEntry :=
  if (now > e.expires ∧ c.is_banned e) ∨
      (now > e.last_reset + c.ban_reset_time ∧ ¬ c.is_banned e) then
    { e with score := 0, last_reset := now }
  else e

/-- Count points.  The expiration time of a client that is already banned does not
increase, and the sum is that of 32-bit numbers, kept from overflowing. -/
def count (c : BanCfg) (now : Int) (score : Nat) (e : BanEntry) : BanEntry :=
  let expires := if e.score < c.max_ban_score then now + c.ban_time else e.expires
  let sum := (e.score + score) % 2 ^ 32
  { e with expires, score := if sum > e.score then sum else e.score }

end BanEntry

section Operations

variable [Platform]

namespace Bans

/-- The answer is -1 if the client is banned, and zero otherwise. -/
def add_ip_to_ban_list (s : Bans) (now : Int) (ip : List UInt8) (score : Nat) : Bans × Int :=
  if s.config.max_ban_score = 0 ∨ (ip.length ≠ 4 ∧ ip.length ≠ 16) then (s, 0)
  else
    let ip := massage_ipv6_address ip
    let e :=
      match s.ban_db.find ip with
      | none => BanEntry.fresh ip now
      | some e => e.reset s.config now
    let e := e.count s.config now score
    ({ s with ban_db := s.ban_db.put e }, if s.config.is_banned e then -1 else 0)

def add_str_ip_to_ban_list (s : Bans) (now : Int) (ip : Option CStr) (score : Nat) : Bans × Int :=
  match ip with
  | none => (s, 0)
  | some ip =>
    if s.config.max_ban_score = 0 ∨ ip = [] then (s, 0)
    else
      match read_ip ip with
      | none => (s, 0)
      | some ip => s.add_ip_to_ban_list now ip score

/-- The answer is non-zero if there is an entry for the address. -/
def remove_ip_from_ban_list (s : Bans) (ip : List UInt8) : Bans × Int :=
  if ip.length = 4 ∨ ip.length = 16 then
    match s.ban_db.find (massage_ipv6_address ip) with
    | some e => ({ s with ban_db := s.ban_db.put { e with score := 0, expires := 0 } }, 1)
    | none => (s, 0)
  else (s, 0)

/-- Count the points of a connection, and say whether it is to be rejected. -/
def check_if_banned (s : Bans) (now : Int) (addr : SockBuf) : Bans × Int :=
  if s.config.max_ban_score = 0 then (s, 0)
  else if if_address_test_local s.if_addresses addr.data then (s, 0)
  else
    let ip := massage_ipv6_address addr.generic
    let s := (s.add_ip_to_ban_list now ip s.config.ban_points_connect).1
    match s.ban_db.find ip with
    | none => (s, 0)
    | some e =>
      if now > e.expires then (s, 0)
      else if e.score ≥ s.config.max_ban_score then (s, 1)
      else (s, 0)

def cleanup_banned_entries (s : Bans) (now : Int) : Bans :=
  { s with ban_db := s.ban_db.sweep fun t =>
      now ≥ t.expires && now > t.last_reset + s.config.ban_reset_time }

/-- The number of banned addresses that `occtl` shows. -/
def main_ban_db_elems (s : Bans) (now : Int) : Nat :=
  if s.config.max_ban_score = 0 then 0
  else s.ban_db.toList.countP fun t => t.expires > now && s.config.is_banned t

end Bans

end Operations

end Ocserv

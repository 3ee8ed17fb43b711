import Ocserv.Basic
import Ocserv.Lib.Inet

/-!
# Routes

A route of the configuration, of a group or of a user is checked and normalised before it
is used; the routes of a user are then written into the commands that add and delete
them, which a shell runs as root.
-/

namespace Ocserv

open Inet

/-! ## Masks -/

/-- The loop of `bit_count`, over at most `fuel` bits. -/
def bit_count_loop : (fuel i : Nat) → (seen_one : Bool) → (c : Int) → Int
  | 0, _, _, c => c
  | fuel + 1, i, seen_one, c =>
    if i = 0 then c
    else if i % 2 = 1 then bit_count_loop fuel (i / 2) true (c + 1)
    else if seen_one then -1
    else bit_count_loop fuel (i / 2) seen_one c

/-- The number of ones of a 32 bit number, if they are contiguous. -/
def bit_count (i : Nat) : Int := bit_count_loop 32 i false 0

def mask2prefix (mask : BitVec 32) : Int := bit_count mask.toNat

def ipv4_mask_to_int (pre : CStr) : Int :=
  match inet_pton4 pre with
  | none => -1
  | some mask => mask2prefix mask

/-- The mask with `len` leading ones. -/
def prefixMask (len : Nat) : BitVec 32 := BitVec.allOnes 32 <<< (32 - len)

def ipv4_prefix_to_strmask (len : Nat) : Option CStr :=
  if len = 0 ∨ 32 < len then none else some (inet_ntop4 (prefixMask len))

/-! ## The check of a route -/

/-- A number in `[0, max]`, and nothing else in the string. -/
def parse_uint_full (str : CStr) (max : Nat) : Option Nat :=
  if str = [] then none
  else
    let r := strtoul str
    if r.erange ∨ r.rest ≠ [] ∨ max < r.val then none else some r.val

/-- What stands before the first slash. -/
def addr_part (route : CStr) : CStr := route.takeWhile (· ≠ '/')

/-- What stands after the first slash. -/
def prefix_part (route : CStr) : CStr := (route.dropWhile (· ≠ '/')).tail

/-- The check of an IPv6 route, which is left as it is. -/
def check_ipv6_route (route : CStr) : Option CStr :=
  match inet_pton6 (addr_part route), parse_uint_full (prefix_part route) 128 with
  | some _, some _ => some route
  | _, _ => none

/-- The check of an IPv4 route: a dotted mask is left as it is, a number becomes one. -/
def check_ipv4_route (route : CStr) : Option CStr :=
  if (inet_pton4 (addr_part route)).isNone then none
  else if '.' ∈ prefix_part route then
    if ipv4_mask_to_int (prefix_part route) < 0 then none else some route
  else
    match parse_uint_full (prefix_part route) 32 with
    | none => none
    | some 0 => some (addr_part route ++ "/0.0.0.0".toList)
    | some len => (ipv4_prefix_to_strmask len).map fun pstr => addr_part route ++ '/' :: pstr

/-- `ip_route_sanity_check`: the route to use, unless it is rejected. -/
def ip_route_sanity_check (route : CStr) : Option CStr :=
  if route = "default".toList then some route
  else if '/' ∉ route then none
  else if ':' ∈ route then check_ipv6_route route
  else check_ipv4_route route

/-! ## The commands -/

/-- The route with the length of the prefix in place of the mask. -/
def ipv4_route_to_cidr (route : CStr) : Option CStr :=
  -- only an IPv4 route has a dot
  if '.' ∉ route then some route
  else
    let p := (route.dropWhile (· ≠ '.')).dropWhile (· ≠ '/')
    match p with
    | [] => none
    | _ :: mask =>
      if '.' ∉ mask then some route
      else
        let len := ipv4_mask_to_int mask
        if len ≤ 0 ∨ 32 < len then none
        else some (route.take (route.length - p.length) ++ '/' :: Nat.toDigits 10 len.toNat)

/-- The table by which `replace_cmd` fills in the command of a route. -/
def replace_cmd_tab (route dev : CStr) : List (CStr × Option CStr) :=
  [("%\x7bR\x7d".toList, some route),
   ("%R".toList, some route),
   ("%\x7bD\x7d".toList, some dev),
   ("%D".toList, some dev),
   ("%\x7bRI\x7d".toList, ipv4_route_to_cidr route)]

/-- `str_replace_str`, after `skip` characters of a pattern that has been replaced.  The source
scans what it has inserted again; a table whose values have no percent sign makes no
difference to that. -/
def str_replace_str (tab : List (CStr × Option CStr)) : (skip : Nat) → CStr → Option CStr
  | _, [] => some []
  | skip + 1, _ :: str => str_replace_str tab skip str
  | 0, c :: str =>
    if c ≠ '%' then (str_replace_str tab 0 str).map (c :: ·)
    else
      match tab.find? fun rep => rep.1.isPrefixOf (c :: str) with
      | none => none
      | some (pattern, rep_val) => do
          let val ← rep_val
          let final ← str_replace_str tab (pattern.length - 1) str
          return val ++ final

def replace_cmd (pattern route dev : CStr) : Option CStr :=
  str_replace_str (replace_cmd_tab route dev) 0 pattern

end Ocserv

import Mathlib.Data.List.TakeWhile
import Ocserv.IpUtil

/-!
# What a checked route consists of

The commands that add and delete routes are run by a shell, so a checked route should be
made of an address, a slash and a prefix and of nothing else.  For IPv4 a prefix that is a
number is replaced by its mask, so it does not matter how the number was written.  An IPv6
route is passed on as it is, with everything that `strtoul` accepts: white space and a
sign before the number.  A dotted mask is passed on as it is too, and `bit_count` accepts
one with leading zeros.
-/

namespace Ocserv

open Inet List Option

/-! ## What is demanded -/

/-- A mask of leading ones. -/
def Netmask (mask : BitVec 32) : Prop := ∃ len ≤ 32, mask = prefixMask len

/-- A number of at most `max` in plain digits. -/
structure Decimal (s : CStr) (max : Nat) : Prop where
  ne_nil : s ≠ []
  digits : ∀ c ∈ s, c.isDigit
  le_max : (readDigits s 0).1 ≤ max

/-- An address and a prefix of one family. -/
inductive AddrPrefix : (addr pre : CStr) → Prop
  | ipv4_decimal {addr pre : CStr} : (inet_pton4 addr).isSome → Decimal pre 32 →
      AddrPrefix addr pre
  | ipv4_mask {addr pre : CStr} {mask : BitVec 32} : (inet_pton4 addr).isSome →
      inet_pton4 pre = some mask → Netmask mask → AddrPrefix addr pre
  | ipv6 {addr pre : CStr} : (inet_pton6 addr).isSome → Decimal pre 128 → AddrPrefix addr pre

/-- The keyword, or an address of address characters, a slash and a prefix. -/
def WellFormed (route : CStr) : Prop :=
  route = "default".toList ∨
    ∃ addr pre, route = addr ++ '/' :: pre ∧ (∀ c ∈ addr, addrChar c) ∧ AddrPrefix addr pre

/-- The characters with a meaning in the shell, and the signs. -/
def shellMeta : List Char := "|&;()<>$`\\\"'*?[]#~=%!^\x7b\x7d+- \t\n\r\x0b\x0c".toList

/-- Nothing that is written into a command for the route has a meaning in the shell. -/
def Harmless (route : CStr) : Prop :=
  ∀ dev, ∀ pattern ∈ ["%\x7bR\x7d".toList, "%R".toList, "%\x7bRI\x7d".toList],
    ∀ value, (pattern, some value) ∈ replace_cmd_tab route dev → ∀ c ∈ value, c ∉ shellMeta

/-- The prefix of an IPv6 route is in plain digits, the mask of an IPv4 route is zero or
has its first bit set. -/
structure Plain (route : CStr) : Prop where
  ipv6 : ':' ∈ route → ∀ c ∈ prefix_part route, c.isDigit
  ipv4 : ':' ∉ route → '.' ∈ prefix_part route →
    ∀ mask, inet_pton4 (prefix_part route) = some mask → mask = 0 ∨ mask.msb

/-! ## Masks -/

variable {fuel i max v : Nat} {c : Int} {mask : BitVec 32} {route addr pre s route' : CStr}
  {d : Char}

/-- After a one only ones may follow. -/
theorem bit_count_loop_seen (hi : i < 2 ^ fuel) (hc : 0 ≤ c)
    (h : 0 ≤ bit_count_loop fuel i true c) :
    ∃ j, i + 1 = 2 ^ j := by
  induction fuel generalizing i c with
  | zero => exact ⟨0, by omega⟩
  | succ fuel ih =>
    unfold bit_count_loop at h
    by_cases hzero : i = 0
    · exact ⟨0, by omega⟩
    · rw [if_neg hzero] at h
      by_cases hodd : i % 2 = 1
      · rw [if_pos hodd] at h
        obtain ⟨j, hj⟩ := ih (by omega) (by omega) h
        exact ⟨j + 1, by omega⟩
      · rw [if_neg hodd, if_pos rfl] at h
        exact absurd h (by decide)

/-- What is accepted is a block of ones above a block of zeros. -/
theorem bit_count_loop_block (hi : i < 2 ^ fuel) (hc : 0 ≤ c)
    (h : 0 ≤ bit_count_loop fuel i false c) : ∃ j t, i + 2 ^ t = 2 ^ (j + t) := by
  induction fuel generalizing i c with
  | zero => exact ⟨0, 0, by omega⟩
  | succ fuel ih =>
    unfold bit_count_loop at h
    by_cases hzero : i = 0
    · exact ⟨0, 0, by omega⟩
    · rw [if_neg hzero] at h
      by_cases hodd : i % 2 = 1
      · rw [if_pos hodd] at h
        obtain ⟨j, hj⟩ := bit_count_loop_seen (by omega) (by omega) h
        have hpow : 2 ^ (j + 1 + 0) = 2 * 2 ^ j := by rw [Nat.add_zero, Nat.pow_succ']
        exact ⟨j + 1, 0, by omega⟩
      · rw [if_neg hodd, if_neg Bool.false_ne_true] at h
        obtain ⟨j, t, hblock⟩ := ih (by omega) hc h
        have hadd : 2 ^ (j + (t + 1)) = 2 * 2 ^ (j + t) := by rw [← Nat.add_assoc, Nat.pow_succ']
        exact ⟨j, t + 1, by omega⟩

theorem prefixMask_toNat : ∀ len ≤ 32, (prefixMask len).toNat + 2 ^ (32 - len) = 2 ^ 32 := by
  decide

theorem prefixMask_msb : ∀ len ≤ 32, prefixMask len = 0 ∨ (prefixMask len).msb := by decide

theorem prefixMask_eq_zero : ∀ len ≤ 32, prefixMask len = 0 → len = 0 := by decide

theorem prefixMask_zero : prefixMask 0 = 0 := by decide

/-- An accepted mask is a netmask just when it has no leading zeros. -/
theorem netmask_of_prefix_length (h : 0 ≤ mask2prefix mask) (hmsb : mask = 0 ∨ mask.msb) :
    Netmask mask := by
  by_cases hzero : mask = 0
  · exact ⟨0, by omega, by rw [hzero, prefixMask_zero]⟩
  have htop : 2 ^ 31 ≤ mask.toNat := by
    have hset := hmsb.resolve_left hzero
    rw [BitVec.msb_eq_decide] at hset
    simpa using hset
  have hlt : mask.toNat < 2 ^ 32 := mask.isLt
  obtain ⟨j, t, hblock⟩ := bit_count_loop_block mask.isLt (Int.le_refl 0) h
  -- the block ends at the top bit
  have hpow : 2 ^ 31 < 2 ^ (j + t) := by
    have hpos : 0 < 2 ^ t := Nat.two_pow_pos t
    omega
  have hge : 31 < j + t := (Nat.pow_lt_pow_iff_right (by omega)).1 hpow
  have hj : j ≠ 0 := by
    rintro rfl
    rw [Nat.zero_add] at hblock
    omega
  have hle : t ≤ 31 := by
    by_contra hgt
    have hbig : 2 ^ 32 ≤ 2 ^ t := Nat.pow_le_pow_right (by omega) (by omega)
    have hdouble : 2 * 2 ^ t ≤ 2 ^ (j + t) := by
      rw [← Nat.pow_succ']
      exact Nat.pow_le_pow_right (by omega) (by omega)
    omega
  have hsum : j + t ≤ 32 := by
    by_contra hgt
    have hbig : 2 ^ 33 ≤ 2 ^ (j + t) := Nat.pow_le_pow_right (by omega) (by omega)
    have hsmall : 2 ^ t ≤ 2 ^ 31 := Nat.pow_le_pow_right (by omega) hle
    omega
  have htotal : j + t = 32 := by omega
  refine ⟨j, by omega, BitVec.eq_of_toNat_eq ?_⟩
  have hmask := prefixMask_toNat j (by omega)
  have ht : 32 - j = t := by omega
  rw [ht] at hmask
  rw [htotal] at hblock
  omega

/-! ## The two parts of a route -/

theorem route_eq (h : '/' ∈ route) :
    route = addr_part route ++ '/' :: prefix_part route := by
  have hsplit := takeWhile_append_dropWhile (p := (· ≠ '/')) (l := route)
  cases hdrop : route.dropWhile (· ≠ '/') with
  | nil =>
    have hall := dropWhile_eq_nil_iff.1 hdrop '/' h
    simp at hall
  | cons c cs =>
    have hc := List.head?_dropWhile_not (· ≠ '/') route
    rw [hdrop] at hc hsplit
    have hslash : c = '/' := by simpa using hc
    rw [prefix_part, hdrop, addr_part]
    exact (hslash ▸ hsplit).symm

theorem addr_part_eq (h : '/' ∉ addr) :
    addr_part (addr ++ '/' :: pre) = addr := by
  have hall : ∀ c ∈ addr, decide (c ≠ '/') := by
    intro c hc
    simpa using fun heq : c = '/' => h (heq ▸ hc)
  rw [addr_part, takeWhile_append_of_pos hall]
  simp

theorem prefix_part_eq (h : '/' ∉ addr) :
    prefix_part (addr ++ '/' :: pre) = pre := by
  have hall : ∀ c ∈ addr, decide (c ≠ '/') := by
    intro c hc
    simpa using fun heq : c = '/' => h (heq ▸ hc)
  rw [prefix_part, dropWhile_append_of_pos hall]
  simp

theorem not_mem_of_chars {p : Char → Bool} (hd : p d = false) (hs : ∀ c ∈ s, p c) : d ∉ s := by
  intro hmem
  have hp := hs d hmem
  rw [hd] at hp
  cases hp

theorem Decimal.not_mem (h : Decimal s max) (hd : d.isDigit = false) : d ∉ s :=
  not_mem_of_chars hd h.digits

theorem AddrPrefix.slash_not_mem (h : AddrPrefix addr pre) :
    '/' ∉ addr := by
  cases h with
  | ipv4_decimal haddr hpre =>
    obtain ⟨a, ha⟩ := isSome_iff_exists.1 haddr
    exact not_mem_of_chars (by decide) (inet_pton4_chars ha)
  | ipv4_mask haddr hmask hnet =>
    obtain ⟨a, ha⟩ := isSome_iff_exists.1 haddr
    exact not_mem_of_chars (by decide) (inet_pton4_chars ha)
  | ipv6 haddr hpre =>
    obtain ⟨a, ha⟩ := isSome_iff_exists.1 haddr
    exact not_mem_of_chars (by decide) (inet_pton6_chars ha)

/-- A well-formed route with a slash is made of its two parts. -/
theorem WellFormed.parts (h : WellFormed route) (hslash : '/' ∈ route) :
    AddrPrefix (addr_part route) (prefix_part route) := by
  rcases h with rfl | ⟨addr, pre, rfl, -, hap⟩
  · exact absurd hslash (by decide)
  · have haddr := hap.slash_not_mem
    rwa [addr_part_eq haddr, prefix_part_eq haddr]

/-! ## Well-formed routes in commands -/

theorem addrChar_not_meta {c : Char} (h : addrChar c) : c ∉ shellMeta := by
  intro hmem
  have hall : shellMeta.all fun d => !addrChar d := by decide
  have hnot : (!addrChar c) := all_eq_true.1 hall c hmem
  rw [h] at hnot
  cases hnot

theorem digit_not_meta {c : Char} (h : c.isDigit) : c ∉ shellMeta :=
  addrChar_not_meta (by simp [addrChar, hexDigit?, h])

theorem AddrPrefix.pre_not_meta (h : AddrPrefix addr pre) :
    ∀ c ∈ pre, c ∉ shellMeta := by
  intro c hc
  cases h with
  | ipv4_decimal haddr hpre => exact digit_not_meta (hpre.digits c hc)
  | ipv4_mask haddr hmask hnet =>
    exact addrChar_not_meta (addrChar_of_quadChar (inet_pton4_chars hmask c hc))
  | ipv6 haddr hpre => exact digit_not_meta (hpre.digits c hc)

theorem WellFormed.not_meta (h : WellFormed route) :
    ∀ c ∈ route, c ∉ shellMeta := by
  rcases h with rfl | ⟨addr, pre, rfl, haddr, hap⟩
  · have hall : "default".toList.all fun c => c ∉ shellMeta := by decide
    exact fun c hc => of_decide_eq_true (all_eq_true.1 hall c hc)
  · intro c hc
    rcases mem_append.1 hc with hc | hc
    · exact addrChar_not_meta (haddr c hc)
    · rcases mem_cons.1 hc with rfl | hc
      · decide
      · exact hap.pre_not_meta c hc

/-- The conversion only drops characters and writes digits. -/
theorem ipv4_route_to_cidr_not_meta {value : CStr} (h : ∀ c ∈ route, c ∉ shellMeta)
    (hcidr : ipv4_route_to_cidr route = some value) : ∀ c ∈ value, c ∉ shellMeta := by
  unfold ipv4_route_to_cidr at hcidr
  split at hcidr
  · cases hcidr
    exact h
  · dsimp only at hcidr
    split at hcidr
    · cases hcidr
    · split at hcidr
      · cases hcidr
        exact h
      · split at hcidr
        · cases hcidr
        · cases hcidr
          intro c hc
          rcases mem_append.1 hc with hc | hc
          · exact h c (mem_of_mem_take hc)
          · rcases mem_cons.1 hc with rfl | hc
            · decide
            · exact digit_not_meta (Nat.isDigit_of_mem_toDigits (by decide) (by decide) hc)

theorem WellFormed.harmless (h : WellFormed route) : Harmless route := by
  intro dev pattern hpattern value hvalue
  have hroute := h.not_meta
  simp only [mem_cons, not_mem_nil, or_false] at hpattern
  simp only [replace_cmd_tab, mem_cons, not_mem_nil, or_false, Prod.mk.injEq,
    some.injEq] at hvalue
  rcases hvalue with ⟨-, rfl⟩ | ⟨-, rfl⟩ | ⟨rfl, -⟩ | ⟨rfl, -⟩ | ⟨-, hcidr⟩
  · exact hroute
  · exact hroute
  · exact absurd hpattern (by decide)
  · exact absurd hpattern (by decide)
  · exact ipv4_route_to_cidr_not_meta hroute hcidr.symm

/-! ## The check -/

theorem parse_uint_full_of_digits (hs : ∀ c ∈ s, c.isDigit) (h : parse_uint_full s max = some v) :
    Decimal s max := by
  unfold parse_uint_full at h
  by_cases hne : s = []
  · rw [if_pos hne] at h
    cases h
  · rw [if_neg hne, strtoul_of_digits hne hs] at h
    by_cases hbig : ULONG_MAX < (readDigits s 0).1
    · simp [hbig] at h
    · simp only [hbig, if_false] at h
      split at h
      · cases h
      · next hmax =>
        have hle : ¬ max < (readDigits s 0).1 := fun hlt => hmax (.inr (.inr hlt))
        exact ⟨hne, hs, by omega⟩

theorem parse_uint_full_le (h : parse_uint_full s max = some v) :
    v ≤ max := by
  unfold parse_uint_full at h
  split at h
  · cases h
  · dsimp only at h
    split at h
    · cases h
    · next hmax =>
      have hv : (strtoul s).val = v := some.inj h
      have hle : ¬ max < (strtoul s).val := fun hlt => hmax (.inr (.inr hlt))
      omega

theorem check_ipv6_route_eq_some (h : check_ipv6_route route = some route') :
    route' = route ∧ (inet_pton6 (addr_part route)).isSome ∧
      ∃ v, parse_uint_full (prefix_part route) 128 = some v := by
  unfold check_ipv6_route at h
  split at h
  · next a v haddr hpre =>
    cases h
    exact ⟨rfl, by rw [haddr]; rfl, v, hpre⟩
  · cases h

/-- An IPv6 route is well formed if its prefix is plain, and only then. -/
theorem check_ipv6_route_wellFormed (hslash : '/' ∈ route) (hcolon : ':' ∈ route)
    (h : check_ipv6_route route = some route') :
    WellFormed route' ↔ ∀ c ∈ prefix_part route, c.isDigit := by
  obtain ⟨rfl, haddr, v, hpre⟩ := check_ipv6_route_eq_some h
  constructor
  · intro hwf
    cases hwf.parts hslash with
    | ipv4_decimal _ hdec => exact hdec.digits
    | ipv4_mask haddr4 hmask _ =>
      -- neither part of an IPv4 route has a colon
      obtain ⟨a, ha⟩ := isSome_iff_exists.1 haddr4
      rw [route_eq hslash] at hcolon
      rcases mem_append.1 hcolon with hmem | hmem
      · exact absurd hmem (not_mem_of_chars (by decide) (inet_pton4_chars ha))
      · have hmem' : ':' ∈ prefix_part route' := by simpa using hmem
        exact absurd hmem' (not_mem_of_chars (by decide) (inet_pton4_chars hmask))
    | ipv6 _ hdec => exact hdec.digits
  · intro hdigits
    obtain ⟨a, ha⟩ := isSome_iff_exists.1 haddr
    exact .inr ⟨_, _, route_eq hslash, inet_pton6_chars ha,
      .ipv6 haddr (parse_uint_full_of_digits hdigits hpre)⟩

/-- A route that is put together from an IPv4 address and a netmask. -/
theorem wellFormed_of_netmask (haddr : (inet_pton4 addr).isSome) (hpre : inet_pton4 pre = some mask)
    (hmask : Netmask mask) : WellFormed (addr ++ '/' :: pre) := by
  obtain ⟨a, ha⟩ := isSome_iff_exists.1 haddr
  have hchars : ∀ c ∈ addr, addrChar c := fun c hc =>
    addrChar_of_quadChar (inet_pton4_chars ha c hc)
  exact .inr ⟨addr, pre, rfl, hchars, .ipv4_mask haddr hpre hmask⟩

/-- The mask that an IPv4 route is written with. -/
def route_mask (route : CStr) : Option (BitVec 32) :=
  if '.' ∈ prefix_part route then inet_pton4 (prefix_part route)
  else (parse_uint_full (prefix_part route) 32).map prefixMask

theorem mask2prefix_prefixMask : ∀ len ≤ 32, mask2prefix (prefixMask len) = len := by
  decide +kernel

theorem ipv4_prefix_to_strmask_eq {len : Nat} (h0 : len ≠ 0) (hle : len ≤ 32) :
    ipv4_prefix_to_strmask len = some (inet_ntop4 (prefixMask len)) :=
  if_neg (by omega)

/-- An accepted IPv4 route becomes its address and a dotted mask, whichever way the mask was
written. -/
theorem check_ipv4_route_form (hslash : '/' ∈ route) (h : check_ipv4_route route = some route') :
    ∃ a mask pre, inet_pton4 (addr_part route) = some a ∧ route_mask route = some mask ∧
      0 ≤ mask2prefix mask ∧ route' = addr_part route ++ '/' :: pre ∧
      '.' ∈ pre ∧ inet_pton4 pre = some mask := by
  unfold check_ipv4_route at h
  cases ha : inet_pton4 (addr_part route) with
  | none =>
    rw [ha] at h
    cases h
  | some a =>
    rw [ha, if_neg (by simp)] at h
    by_cases hdot : '.' ∈ prefix_part route
    · rw [if_pos hdot] at h
      have hmask : route_mask route = inet_pton4 (prefix_part route) := if_pos hdot
      unfold ipv4_mask_to_int at h
      cases hm : inet_pton4 (prefix_part route) with
      | none =>
        rw [hm] at h
        cases h
      | some mask =>
        rw [hm] at h
        dsimp only at h
        split at h
        · cases h
        · cases h
          exact ⟨a, mask, _, rfl, hmask.trans hm, by omega, route_eq hslash, hdot, hm⟩
    · rw [if_neg hdot] at h
      have hmask : route_mask route = (parse_uint_full (prefix_part route) 32).map prefixMask :=
        if_neg hdot
      cases hlen : parse_uint_full (prefix_part route) 32 with
      | none =>
        rw [hlen] at h
        cases h
      | some len =>
        have hle := parse_uint_full_le hlen
        have hcount := mask2prefix_prefixMask len hle
        rw [hlen] at h hmask
        by_cases h0 : len = 0
        · subst h0
          cases h
          exact ⟨a, _, "0.0.0.0".toList, rfl, hmask, by omega, rfl, by decide, by decide +kernel⟩
        · simp only [ipv4_prefix_to_strmask_eq h0 hle] at h
          cases h
          exact ⟨a, _, _, rfl, hmask, by omega, rfl, by simp [inet_ntop4], inet_pton4_ntop4 _⟩

/-- A number becomes a netmask, however it was written. -/
theorem check_ipv4_route_number (hslash : '/' ∈ route) (hdot : '.' ∉ prefix_part route)
    (h : check_ipv4_route route = some route') :
    WellFormed route' := by
  obtain ⟨a, mask, pre, ha, hmask, -, rfl, -, hpre⟩ := check_ipv4_route_form hslash h
  rw [route_mask, if_neg hdot] at hmask
  obtain ⟨len, hlen, rfl⟩ := map_eq_some_iff.1 hmask
  exact wellFormed_of_netmask (by rw [ha]; rfl) hpre ⟨len, parse_uint_full_le hlen, rfl⟩

theorem check_ipv4_route_dotted (hdot : '.' ∈ prefix_part route)
    (h : check_ipv4_route route = some route') : route' = route := by
  rw [check_ipv4_route, if_pos hdot] at h
  split at h
  · cases h
  · split at h
    · cases h
    · exact (some.inj h).symm

/-- A dotted mask is passed on: the route is well formed if it has no leading zeros, and
only then. -/
theorem check_ipv4_route_wellFormed (hslash : '/' ∈ route) (hdot : '.' ∈ prefix_part route)
    (h : check_ipv4_route route = some route') :
    WellFormed route' ↔
      ∀ mask, inet_pton4 (prefix_part route) = some mask → mask = 0 ∨ mask.msb := by
  obtain rfl := check_ipv4_route_dotted hdot h
  obtain ⟨a, mask, -, haddr, hmask, hcount, -⟩ := check_ipv4_route_form hslash h
  rw [route_mask, if_pos hdot] at hmask
  constructor
  · intro hwf mask' hmask'
    cases hwf.parts hslash with
    | ipv4_decimal _ hdec => exact absurd hdot (hdec.not_mem (by decide))
    | ipv4_mask _ hmask₁ hnet =>
      obtain ⟨len, hlen, hnet⟩ := hnet
      have heq := some.inj (hmask₁.symm.trans hmask')
      rw [← heq, hnet]
      exact prefixMask_msb len hlen
    | ipv6 _ hdec => exact absurd hdot (hdec.not_mem (by decide))
  · intro hmsb
    rw [route_eq hslash]
    exact wellFormed_of_netmask (by rw [haddr]; rfl) hmask
      (netmask_of_prefix_length hcount (hmsb mask hmask))

/-- What the check lets through is well formed, and harmless in a command, just for the
plain routes. -/
theorem checked_route_shell_safe_iff (route route' : CStr)
    (h : ip_route_sanity_check route = some route') :
    (WellFormed route' ∧ Harmless route') ↔ Plain route := by
  have hharmless : (WellFormed route' ∧ Harmless route') ↔ WellFormed route' :=
    and_iff_left_of_imp WellFormed.harmless
  rw [hharmless]
  unfold ip_route_sanity_check at h
  by_cases hdefault : route = "default".toList
  · rw [if_pos hdefault] at h
    cases h
    have hplain : Plain route := by
      rw [hdefault]
      exact ⟨fun hcolon => absurd hcolon (by decide), fun _ hdot => absurd hdot (by decide)⟩
    exact iff_of_true (.inl hdefault) hplain
  rw [if_neg hdefault] at h
  by_cases hslash : '/' ∈ route
  · rw [if_neg (not_not_intro hslash)] at h
    by_cases hcolon : ':' ∈ route
    · rw [if_pos hcolon] at h
      rw [check_ipv6_route_wellFormed hslash hcolon h]
      exact ⟨fun hdigits => ⟨fun _ => hdigits, fun hno => absurd hcolon hno⟩,
        fun hplain => hplain.ipv6 hcolon⟩
    · rw [if_neg hcolon] at h
      by_cases hdot : '.' ∈ prefix_part route
      · rw [check_ipv4_route_wellFormed hslash hdot h]
        exact ⟨fun hmsb => ⟨fun hyes => absurd hyes hcolon, fun _ _ => hmsb⟩,
          fun hplain => hplain.ipv4 hcolon hdot⟩
      · have hplain : Plain route :=
          ⟨fun hyes => absurd hyes hcolon, fun _ hyes => absurd hyes hdot⟩
        exact iff_of_true (check_ipv4_route_number hslash hdot h) hplain
  · rw [if_pos hslash] at h
    cases h

theorem checked_route_shell_safe_subnet :
    WellFormed "10.0.0.0/255.255.255.0".toList ∧ Harmless "10.0.0.0/255.255.255.0".toList :=
  (checked_route_shell_safe_iff "10.0.0.0/24".toList "10.0.0.0/255.255.255.0".toList
    (by decide +kernel)).2
    ⟨fun hcolon => absurd hcolon (by decide), fun _ hdot => absurd hdot (by decide)⟩

/-- A line break before the number is accepted and kept. -/
theorem checked_route_breaks_line :
    ip_route_sanity_check "fd00::/\n64".toList = some "fd00::/\n64".toList ∧
      '\n' ∈ shellMeta ∧ ¬ WellFormed "fd00::/\n64".toList ∧ ¬ Harmless "fd00::/\n64".toList := by
  have hmeta : '\n' ∈ shellMeta := by decide
  refine ⟨by decide +kernel, hmeta, ?_, ?_⟩
  · intro hwf
    exact hwf.not_meta '\n' (by decide) hmeta
  · intro hharmless
    exact hharmless [] "%R".toList (by decide) "fd00::/\n64".toList
      (by simp [replace_cmd_tab]) '\n' (by decide) hmeta

/-! ## The normal form of an IPv4 route -/

/-- The network that an IPv4 route denotes: its address and its mask. -/
def ipv4_network (route : CStr) : Option (BitVec 32 × BitVec 32) :=
  (inet_pton4 (addr_part route)).bind fun a => (route_mask route).map fun m => (a &&& m, m)

/-- What is wanted of an IPv4 route and its normal form. -/
structure Normalised (route route' : CStr) : Prop where
  again : ip_route_sanity_check route' = some route'
  network : ipv4_network route' = ipv4_network route
  cidr : ∃ len ≤ 32, route_mask route' = some (prefixMask len) ∧
    ipv4_route_to_cidr route' = some (addr_part route ++ '/' :: Nat.toDigits 10 len)

section Form

variable {addr pre : CStr} {a mask : BitVec 32}

theorem ip_route_sanity_check_form (ha : inet_pton4 addr = some a) (hdot : '.' ∈ pre)
    (hpre : inet_pton4 pre = some mask) (hcount : 0 ≤ mask2prefix mask) :
    ip_route_sanity_check (addr ++ '/' :: pre) = some (addr ++ '/' :: pre) := by
  have hslash : '/' ∉ addr := not_mem_of_chars (by decide) (inet_pton4_chars ha)
  have hcolon : ':' ∉ addr ++ '/' :: pre := by
    simp only [mem_append, mem_cons, not_or]
    exact ⟨not_mem_of_chars (by decide) (inet_pton4_chars ha), by decide,
      not_mem_of_chars (by decide) (inet_pton4_chars hpre)⟩
  have hmask : ¬ ipv4_mask_to_int pre < 0 := by
    simp only [ipv4_mask_to_int, hpre]
    omega
  have hkey : addr ++ '/' :: pre ≠ "default".toList := by
    intro heq
    have hmem : '/' ∈ "default".toList := heq ▸ by simp
    exact absurd hmem (by decide)
  rw [ip_route_sanity_check, if_neg hkey, if_neg (by simp), if_neg hcolon, check_ipv4_route,
    addr_part_eq hslash, prefix_part_eq hslash, ha, if_neg (by simp), if_pos hdot, if_neg hmask]

theorem dropWhile_slash (hslash : '/' ∉ addr) (hdot : '.' ∈ addr) :
    ((addr ++ '/' :: pre).dropWhile (· ≠ '.')).dropWhile (· ≠ '/') = '/' :: pre := by
  induction addr with
  | nil => simp at hdot
  | cons c cs ih =>
    by_cases hc : c = '.'
    · have hall : ∀ d ∈ c :: cs, decide (d ≠ '/') := by
        intro d hd
        simpa using fun heq : d = '/' => hslash (heq ▸ hd)
      rw [cons_append, dropWhile_cons_of_neg (by simpa using hc), ← cons_append,
        dropWhile_append_of_pos hall]
      simp
    · have hmem : '.' ∈ cs := (mem_cons.1 hdot).resolve_left (Ne.symm hc)
      rw [cons_append, dropWhile_cons_of_pos (by simpa using hc)]
      exact ih (fun h => hslash (mem_cons_of_mem c h)) hmem

theorem ipv4_route_to_cidr_form (ha : inet_pton4 addr = some a) (hdot : '.' ∈ pre) :
    ipv4_route_to_cidr (addr ++ '/' :: pre) =
      if ipv4_mask_to_int pre ≤ 0 ∨ 32 < ipv4_mask_to_int pre then none
      else some (addr ++ '/' :: Nat.toDigits 10 (ipv4_mask_to_int pre).toNat) := by
  have hslash : '/' ∉ addr := not_mem_of_chars (by decide) (inet_pton4_chars ha)
  have hroute : '.' ∈ addr ++ '/' :: pre := mem_append_left _ (inet_pton4_dot ha)
  simp only [ipv4_route_to_cidr, hroute, dropWhile_slash hslash (inet_pton4_dot ha), hdot,
    not_true_eq_false, if_false]
  simp

end Form

/-- The normal form is right exactly for the routes whose mask begins with a one. -/
theorem normalised_iff (route route' : CStr) (hcolon : ':' ∉ route)
    (hkey : route ≠ "default".toList) (h : ip_route_sanity_check route = some route') :
    Normalised route route' ↔ ∀ mask, route_mask route = some mask → mask.msb := by
  have hslash : '/' ∈ route := by
    by_contra hno
    rw [ip_route_sanity_check, if_neg hkey, if_pos hno] at h
    cases h
  rw [ip_route_sanity_check, if_neg hkey, if_neg (not_not_intro hslash), if_neg hcolon] at h
  obtain ⟨a, mask, pre, ha, hmask, hcount, rfl, hdot, hpre⟩ := check_ipv4_route_form hslash h
  have haddr : '/' ∉ addr_part route := not_mem_of_chars (by decide) (inet_pton4_chars ha)
  have hmask' : route_mask (addr_part route ++ '/' :: pre) = some mask := by
    rw [route_mask, prefix_part_eq haddr, if_pos hdot, hpre]
  have hint : ipv4_mask_to_int pre = mask2prefix mask := by rw [ipv4_mask_to_int, hpre]
  have hcidr := ipv4_route_to_cidr_form ha hdot
  rw [hint] at hcidr
  simp only [hmask, some.injEq, forall_eq']
  constructor
  · rintro ⟨-, -, len, hle, hlen, htext⟩
    obtain rfl : mask = prefixMask len := some.inj (hmask'.symm.trans hlen)
    have hcount := mask2prefix_prefixMask len hle
    refine (prefixMask_msb len hle).resolve_left fun hzero => ?_
    -- a mask without ones has no prefix length that is accepted
    obtain rfl := prefixMask_eq_zero len hle hzero
    rw [hcidr, if_pos (by omega)] at htext
    cases htext
  · intro hmsb
    obtain ⟨len, hle, rfl⟩ := netmask_of_prefix_length hcount (.inr hmsb)
    have hlen := mask2prefix_prefixMask len hle
    have h0 : len ≠ 0 := by
      rintro rfl
      exact absurd hmsb (by decide)
    refine ⟨ip_route_sanity_check_form ha hdot hpre hcount, ?_, len, hle, hmask', ?_⟩
    · rw [ipv4_network, ipv4_network, addr_part_eq haddr, hmask', hmask]
    · rw [hcidr, if_neg (by omega), hlen, Int.toNat_natCast]

theorem normalised_subnet :
    Normalised "10.0.0.0/24".toList "10.0.0.0/255.255.255.0".toList :=
  (normalised_iff _ _ (by decide) (by decide) (by decide +kernel)).2 fun mask hmask => by
    rw [show route_mask "10.0.0.0/24".toList = some 0xffffff00 by decide +kernel] at hmask
    cases hmask
    decide

/-- The whole address space is accepted, but it has no prefix length. -/
theorem not_normalised_space :
    ip_route_sanity_check "0.0.0.0/0".toList = some "0.0.0.0/0.0.0.0".toList ∧
      ¬ Normalised "0.0.0.0/0".toList "0.0.0.0/0.0.0.0".toList := by
  refine ⟨by decide +kernel, fun h => ?_⟩
  obtain ⟨len, -, -, htext⟩ := h.cidr
  rw [show ipv4_route_to_cidr "0.0.0.0/0.0.0.0".toList = none by decide +kernel] at htext
  cases htext

end Ocserv

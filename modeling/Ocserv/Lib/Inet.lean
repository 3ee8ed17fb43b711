import Mathlib.Algebra.Group.Nat.Defs
import Mathlib.Data.List.Basic

/-!
# Numbers and Internet addresses as text

The C library's readers of numbers and addresses, as functions on lists of
characters:

* `strtoul`, the decimal reader, which skips white space, accepts a sign and
  reports where it stopped;
* `inet_pton4` and `inet_pton6`, which accept a whole string or nothing;
* `inet_ntop4`, the dotted quad of an IPv4 address.

For the address readers the character sets of the accepted strings are given
(`inet_pton4_chars`, `inet_pton6_chars`), for `strtoul` its value on plain digits, and
what `inet_ntop4` writes is read back as the same address.
-/

namespace Inet

open List Option

/-! ## Digits -/

def decDigit? (c : Char) : Option Nat := if c.isDigit then some (c.toNat - 48) else none

def hexDigit? (c : Char) : Option Nat :=
  if c.isDigit then some (c.toNat - 48)
  else if 'a' ≤ c ∧ c ≤ 'f' then some (c.toNat - 87)
  else if 'A' ≤ c ∧ c ≤ 'F' then some (c.toNat - 55)
  else none

/-- `isspace` in the C locale. -/
def isSpace (c : Char) : Bool :=
  c == ' ' || c == '\t' || c == '\n' || c == '\x0b' || c == '\x0c' || c == '\r'

/-! ## Reading an unsigned number -/

/-- The result of `strtoul`: the value, the characters not read, and whether the
value was out of range. -/
structure Strtoul where
  val : Nat
  rest : List Char
  erange : Bool
deriving DecidableEq, Repr

def ULONG_MAX : Nat := 2 ^ 64 - 1

/-- Read digits onto `val`. -/
def readDigits : List Char → Nat → Nat × List Char
  | [], val => (val, [])
  | c :: cs, val =>
    match decDigit? c with
    | some d => readDigits cs (val * 10 + d)
    | none => (val, c :: cs)

/-- Read the optional sign. -/
def readSign : List Char → Bool × List Char
  | '-' :: cs => (true, cs)
  | '+' :: cs => (false, cs)
  | cs => (false, cs)

/-- `strtoul (s, &end, 10)` with 64 bit numbers.  A string without a number is not
read at all. -/
def strtoul (s : List Char) : Strtoul :=
  let signed := readSign (s.dropWhile isSpace)
  match signed.2 with
  | [] => ⟨0, s, false⟩
  | c :: _ =>
    if (decDigit? c).isNone then ⟨0, s, false⟩
    else
      let r := readDigits signed.2 0
      if ULONG_MAX < r.1 then ⟨ULONG_MAX, r.2, true⟩
      else ⟨if signed.1 then (2 ^ 64 - r.1) % 2 ^ 64 else r.1, r.2, false⟩

variable {s : List Char} {c : Char} {octets cur acc : Nat} {saw : Bool} {a : BitVec 32}

theorem readDigits_append {r : List Char} (hs : ∀ c ∈ s, c.isDigit)
    (hr : ∀ c ∈ r.head?, c.isDigit = false) (n : Nat) :
    readDigits (s ++ r) n = (s.foldl (fun n c => n * 10 + (c.toNat - 48)) n, r) := by
  induction s generalizing n with
  | nil =>
    cases r with
    | nil => rfl
    | cons c r => simp [readDigits, decDigit?, hr c rfl]
  | cons c s ih =>
    rw [forall_mem_cons] at hs
    simp only [cons_append, readDigits, decDigit?, hs.1, if_true]
    exact ih hs.2 _

theorem readDigits_rest (hs : ∀ c ∈ s, c.isDigit) (val : Nat) :
    (readDigits s val).2 = [] := by
  have h := readDigits_append (r := []) hs (by simp) val
  rw [append_nil] at h
  rw [h]

theorem not_isSpace_of_isDigit (hc : c.isDigit) : isSpace c = false := by
  by_contra hspace
  simp only [isSpace, Bool.not_eq_false, Bool.or_eq_true, beq_iff_eq] at hspace
  rcases hspace with ((((rfl | rfl) | rfl) | rfl) | rfl) | rfl <;> exact absurd hc (by decide)

theorem readSign_of_isDigit (hc : c.isDigit) (cs : List Char) :
    readSign (c :: cs) = (false, c :: cs) := by
  unfold readSign
  split
  · next heq =>
    cases heq
    exact absurd hc (by decide)
  · next heq =>
    cases heq
    exact absurd hc (by decide)
  · rfl

/-- On a number without sign and without white space `strtoul` reads all of it. -/
theorem strtoul_of_digits (hne : s ≠ []) (hs : ∀ c ∈ s, c.isDigit) :
    strtoul s =
      if ULONG_MAX < (readDigits s 0).1 then ⟨ULONG_MAX, [], true⟩
      else ⟨(readDigits s 0).1, [], false⟩ := by
  obtain ⟨c, cs, rfl⟩ := List.exists_cons_of_ne_nil hne
  have hc : c.isDigit := hs c List.mem_cons_self
  have hdrop : (c :: cs).dropWhile isSpace = c :: cs := by
    rw [dropWhile_cons, not_isSpace_of_isDigit hc]
    rfl
  have hrest := readDigits_rest hs 0
  simp only [strtoul, hdrop, readSign_of_isDigit hc, hrest]
  simp [decDigit?, hc]

/-! ## IPv4 addresses -/

/-- The reader of a dotted quad.  `octets` counts the octets that have a digit,
`saw` says whether the current octet has one, `cur` is its value and `acc` the
value of the octets before it. -/
def pton4Loop : List Char → (octets : Nat) → (saw : Bool) → (cur acc : Nat) → Option (BitVec 32)
  | [], octets, _, cur, acc => if octets < 4 then none else some (BitVec.ofNat 32 (acc * 256 + cur))
  | c :: cs, octets, saw, cur, acc =>
    match decDigit? c with
    | some d =>
      -- no leading zeros
      if saw && cur == 0 then none
      else if 255 < cur * 10 + d then none
      else if !saw && 4 ≤ octets then none
      else pton4Loop cs (if saw then octets else octets + 1) true (cur * 10 + d) acc
    | none =>
      if c == '.' && saw then
        if octets == 4 then none else pton4Loop cs octets false 0 (acc * 256 + cur)
      else none

/-- `inet_pton (AF_INET, s)`. -/
def inet_pton4 (s : List Char) : Option (BitVec 32) := pton4Loop s 0 false 0 0

/-- The characters of a dotted quad. -/
def quadChar (c : Char) : Bool := c.isDigit || c == '.'

theorem pton4Loop_chars (h : pton4Loop s octets saw cur acc = some a) : ∀ c ∈ s, quadChar c := by
  induction s generalizing octets saw cur acc with
  | nil => simp
  | cons c cs ih =>
    unfold pton4Loop decDigit? at h
    by_cases hc : c.isDigit
    · simp only [hc, if_true] at h
      split at h
      · cases h
      · split at h
        · cases h
        · split at h
          · cases h
          · exact forall_mem_cons.2 ⟨by simp [quadChar, hc], ih h⟩
    · simp only [hc, Bool.false_eq_true, if_false] at h
      split at h
      · next hdot =>
        split at h
        · cases h
        · have hdot' : c = '.' := by simpa using And.left (by simpa using hdot)
          exact forall_mem_cons.2 ⟨by simp [quadChar, hdot'], ih h⟩
      · cases h

theorem inet_pton4_chars (h : inet_pton4 s = some a) :
    ∀ c ∈ s, quadChar c :=
  pton4Loop_chars h

/-- Without a dot no octet is begun but the first. -/
theorem pton4Loop_dot_mem (h : pton4Loop s octets saw cur acc = some a) (hdot : '.' ∉ s) :
    4 ≤ octets + if saw then 0 else 1 := by
  induction s generalizing octets saw cur acc with
  | nil =>
    simp only [pton4Loop] at h
    split at h
    · cases h
    · omega
  | cons c cs ih =>
    obtain ⟨hc, hcs⟩ := not_or.1 (mt mem_cons.2 hdot)
    unfold pton4Loop at h
    cases hd : decDigit? c with
    | some d =>
      simp only [hd] at h
      split at h
      · cases h
      · split at h
        · cases h
        · split at h
          · cases h
          · have hrest := ih h hcs
            cases saw <;> simpa using hrest
    | none => simp [hd, Ne.symm hc] at h

theorem inet_pton4_dot (h : inet_pton4 s = some a) : '.' ∈ s := by
  by_contra hdot
  exact absurd (pton4Loop_dot_mem h hdot) (by decide)

/-- The decimal digits of an octet. -/
def octetChars (n : Nat) : List Char :=
  let d (k : Nat) : Char := Char.ofNat (48 + k)
  if n < 10 then [d n]
  else if n < 100 then [d (n / 10), d (n % 10)]
  else [d (n / 100), d (n / 10 % 10), d (n % 10)]

/-- `inet_ntop (AF_INET, a)`. -/
def inet_ntop4 (a : BitVec 32) : List Char :=
  octetChars (a.toNat / 2 ^ 24) ++ '.' :: octetChars (a.toNat / 2 ^ 16 % 256) ++
    '.' :: octetChars (a.toNat / 2 ^ 8 % 256) ++ '.' :: octetChars (a.toNat % 256)

theorem decDigit?_ofNat : ∀ k < 10, decDigit? (Char.ofNat (48 + k)) = some k := by decide

theorem decDigit?_dot : decDigit? '.' = none := by decide

/-- The reader takes an octet as it is written. -/
theorem pton4Loop_octetChars {n : Nat} (hn : n < 256) (ho : octets < 4) (acc : Nat)
    (rest : List Char) :
    pton4Loop (octetChars n ++ rest) octets false 0 acc =
      pton4Loop rest (octets + 1) true n acc := by
  have ho' : ¬ 4 ≤ octets := by omega
  unfold octetChars
  by_cases h10 : n < 10
  · have hn' : ¬ 255 < n := by omega
    simp [h10, pton4Loop, decDigit?_ofNat n h10, ho', hn']
  · by_cases h100 : n < 100
    · have hhigh := decDigit?_ofNat (n / 10) (by omega)
      have hlow := decDigit?_ofNat (n % 10) (by omega)
      have hsum : n / 10 * 10 + n % 10 = n := by omega
      have hzero : ¬ n / 10 = 0 := by omega
      have hhigh' : ¬ 255 < n / 10 := by omega
      have hn' : ¬ 255 < n := by omega
      simp [h10, h100, pton4Loop, hhigh, hlow, ho', hsum, hzero, hhigh', hn']
    · have hhigh := decDigit?_ofNat (n / 100) (by omega)
      have hmid := decDigit?_ofNat (n / 10 % 10) (by omega)
      have hlow := decDigit?_ofNat (n % 10) (by omega)
      have hsum : (n / 100 * 10 + n / 10 % 10) * 10 + n % 10 = n := by omega
      have hzero : ¬ n / 100 = 0 := by omega
      have hzero' : ¬ n / 100 * 10 = 0 := by omega
      have hhigh' : ¬ 255 < n / 100 := by omega
      have hmid' : ¬ 255 < n / 100 * 10 + n / 10 % 10 := by omega
      have hn' : ¬ 255 < n := by omega
      simp [h10, h100, pton4Loop, hhigh, hmid, hlow, ho', hsum, hzero, hzero', hhigh', hmid', hn']

theorem pton4Loop_dot (cs : List Char) (ho : octets < 4) (cur acc : Nat) :
    pton4Loop ('.' :: cs) octets true cur acc = pton4Loop cs octets false 0 (acc * 256 + cur) := by
  have ho' : octets ≠ 4 := by omega
  simp [pton4Loop, decDigit?_dot, ho']

theorem inet_pton4_ntop4 (a : BitVec 32) : inet_pton4 (inet_ntop4 a) = some a := by
  have ha : a.toNat < 2 ^ 32 := a.isLt
  have h1 : a.toNat / 2 ^ 24 < 256 := by omega
  have h2 : a.toNat / 2 ^ 16 % 256 < 256 := by omega
  have h3 : a.toNat / 2 ^ 8 % 256 < 256 := by omega
  have h4 : a.toNat % 256 < 256 := by omega
  have hval : (((0 * 256 + a.toNat / 2 ^ 24) * 256 + a.toNat / 2 ^ 16 % 256) * 256 +
      a.toNat / 2 ^ 8 % 256) * 256 + a.toNat % 256 = a.toNat := by omega
  unfold inet_pton4 inet_ntop4
  simp only [append_assoc, cons_append]
  rw [pton4Loop_octetChars h1 (by omega), pton4Loop_dot _ (by omega),
    pton4Loop_octetChars h2 (by omega), pton4Loop_dot _ (by omega),
    pton4Loop_octetChars h3 (by omega), pton4Loop_dot _ (by omega),
    ← append_nil (octetChars (a.toNat % 256)), pton4Loop_octetChars h4 (by omega)]
  simp only [pton4Loop, hval]
  simp

/-! ## IPv6 addresses -/

/-- The words read so far and the position of the double colon among them. -/
structure Pton6 where
  words : List (BitVec 16) := []
  colon : Option Nat := none
deriving DecidableEq, Repr

/-- Append a word, of which there are at most eight. -/
def Pton6.push (st : Pton6) (val : Nat) : Option Pton6 :=
  if 8 ≤ st.words.length then none
  else some { st with words := st.words ++ [BitVec.ofNat 16 val] }

/-- The reader of the groups.  `curtok` is the input from the start of the current
group, `xdigits` the number of its digits and `val` its value. -/
def pton6Loop : List Char → (st : Pton6) → (curtok : List Char) → (xdigits val : Nat) →
    Option Pton6
  | [], st, _, xdigits, val => if 0 < xdigits then st.push val else some st
  | c :: cs, st, curtok, xdigits, val =>
    match hexDigit? c with
    | some d => if xdigits == 4 then none else pton6Loop cs st curtok (xdigits + 1) (val * 16 + d)
    | none =>
      if c == ':' then
        if xdigits == 0 then
          if st.colon.isSome then none
          else pton6Loop cs { st with colon := some st.words.length } cs 0 0
        else if cs.isEmpty then none
        else (st.push val).bind fun st => pton6Loop cs st cs 0 0
      else if c == '.' && st.words.length ≤ 6 then
        -- the rest of the string is an IPv4 address
        (inet_pton4 curtok).map fun a =>
          { st with words := st.words ++ [a.extractLsb' 16 16, a.extractLsb' 0 16] }
      else none

/-- Fill in the words that the double colon stands for. -/
def Pton6.expand (st : Pton6) : Option (List (BitVec 16)) :=
  match st.colon with
  | none => if st.words.length = 8 then some st.words else none
  | some k =>
    if 8 ≤ st.words.length then none
    else some (st.words.take k ++ List.replicate (8 - st.words.length) 0 ++ st.words.drop k)

/-- `inet_pton (AF_INET6, s)`. -/
def inet_pton6 (s : List Char) : Option (BitVec 128) :=
  let body :=
    match s with
    | ':' :: ':' :: _ => some s.tail
    | ':' :: _ => none
    | [] => none
    | _ => some s
  (body.bind fun cs => (pton6Loop cs {} cs 0 0).bind Pton6.expand).map fun words =>
    words.foldl (fun a w => a <<< 16 ||| w.setWidth 128) 0

/-- The characters of an address of either family. -/
def addrChar (c : Char) : Bool := (hexDigit? c).isSome || c == '.' || c == ':'

theorem addrChar_of_quadChar (h : quadChar c) : addrChar c := by
  by_cases hc : c.isDigit
  · simp [addrChar, hexDigit?, hc]
  · have hdot : c = '.' := by simpa [quadChar, hc] using h
    simp [addrChar, hdot]

/-- The input that is left is the end of `curtok`, which an embedded IPv4 address takes
as a whole. -/
theorem pton6Loop_chars {st st' : Pton6} {curtok : List Char} {xdigits val : Nat}
    (hsuf : s <:+ curtok) (h : pton6Loop s st curtok xdigits val = some st') :
    ∀ c ∈ s, addrChar c := by
  induction s generalizing st curtok xdigits val with
  | nil => simp
  | cons c cs ih =>
    have hcs : cs <:+ curtok := (suffix_cons c cs).trans hsuf
    unfold pton6Loop at h
    cases hhex : hexDigit? c with
    | some d =>
      simp only [hhex] at h
      split at h
      · cases h
      · exact forall_mem_cons.2 ⟨by simp [addrChar, hhex], ih hcs h⟩
    | none =>
      simp only [hhex] at h
      by_cases hcolon : c = ':'
      · have hc : addrChar c := by simp [addrChar, hcolon]
        simp only [hcolon, beq_self_eq_true, if_true] at h
        split at h
        · split at h
          · cases h
          · exact forall_mem_cons.2 ⟨hc, ih suffix_rfl h⟩
        · split at h
          · cases h
          · obtain ⟨st₁, -, h₁⟩ := bind_eq_some_iff.1 h
            exact forall_mem_cons.2 ⟨hc, ih suffix_rfl h₁⟩
      · have hcolon' : (c == ':') = false := by simpa using hcolon
        simp only [hcolon', Bool.false_eq_true, if_false] at h
        split at h
        · obtain ⟨a, ha, -⟩ := map_eq_some_iff.1 h
          intro d hd
          exact addrChar_of_quadChar (inet_pton4_chars ha d (hsuf.subset hd))
        · cases h

theorem inet_pton6_chars {a : BitVec 128} (h : inet_pton6 s = some a) :
    ∀ c ∈ s, addrChar c := by
  unfold inet_pton6 at h
  obtain ⟨words, hwords, -⟩ := map_eq_some_iff.1 h
  obtain ⟨cs, hcs, hbind⟩ := bind_eq_some_iff.1 hwords
  obtain ⟨st, hloop, -⟩ := bind_eq_some_iff.1 hbind
  have hchars := pton6Loop_chars suffix_rfl hloop
  split at hcs
  · next rest =>
    cases hcs
    exact forall_mem_cons.2 ⟨by decide, hchars⟩
  · cases hcs
  · cases hcs
  · cases hcs
    exact hchars

example : inet_pton6 "fd00::1".toList = some 0xfd000000000000000000000000000001 := by decide +kernel
example : inet_pton4 "192.0.2.1".toList = some 0xc0000201 := by decide +kernel

end Inet

import Mathlib.Algebra.Group.Nat.Defs
import Mathlib.Data.List.Basic
import Ocserv.Lib.Outcome

/-!
# LZS compression

The decompressor and the compressor of `lzs.c`.  Both pack numbers of 2 to 16 bits into
bytes, most significant bit first.  An array is a function of its index, a buffer that is
only appended to is the list of what was written, and a function that returns a negative
number returns `Except.error` of it.

The compressor refuses inputs over 64 KiB, which keeps its positions and lengths in
16 bits; the decompressor's length wraps around like the `uint16_t` that holds it.
-/

namespace Ocserv

namespace Lzs

open Outcome

def EINVAL : Int := 22

def EFBIG : Int := 27

/-! ## Decompression -/

/-- What is left of the input, and how many bits are left of its first byte. -/
structure BitReader where
  src : List UInt8
  bits_left : Nat
deriving DecidableEq, Repr

/-- An upper bound on the bits left. -/
def BitReader.size (r : BitReader) : Nat := 8 * r.src.length + r.bits_left

/-- `GET_BITS`. -/
def get_bits (bits : Nat) (r : BitReader) : Except Int (Nat × BitReader) :=
  match r.src with
  | s0 :: s1 :: src =>
    if bits ≥ 8 ∨ bits ≥ r.bits_left then
      -- all the bits that are left in the current byte
      let data := (s0.toNat <<< (bits - r.bits_left)) &&& (2 ^ bits - 1)
      let bits_left := r.bits_left + 8 - bits
      if bits > 8 ∨ bits_left < 8 then
        -- bits from the next byte too, and if these are all then bump the input again
        let data := data ||| (s1.toNat >>> bits_left)
        if bits > 8 ∧ bits_left = 0 then .ok (data, ⟨src, 8⟩)
        else .ok (data, ⟨s1 :: src, bits_left⟩)
      else .ok (data, ⟨s1 :: src, bits_left⟩)
    else
      .ok ((s0.toNat >>> (r.bits_left - bits)) &&& (2 ^ bits - 1),
        ⟨s0 :: s1 :: src, r.bits_left - bits⟩)
  | _ => .error (-EINVAL)

theorem get_bits_size {bits data : Nat} {r r' : BitReader} (hpos : 0 < bits)
    (h : get_bits bits r = .ok (data, r')) : r'.size < r.size := by
  obtain ⟨src, bits_left⟩ := r
  match src with
  | [] | [_] => cases h
  | s0 :: s1 :: src =>
    simp only [get_bits] at h
    split_ifs at h
    all_goals
      cases h
      simp only [BitReader.size, List.length_cons]
      omega

/-- For each 1111 add 15 to the length, then add the value of the final nybble. -/
def get_nybbles (length : Nat) (r : BitReader) : Except Int (Nat × BitReader) :=
  match h : get_bits 4 r with
  | .error e => .error e
  | .ok (data, r') =>
    if data ≠ 15 then .ok ((length + data) % 2 ^ 16, r')
    else get_nybbles ((length + 15) % 2 ^ 16) r'
termination_by r.size
decreasing_by exact get_bits_size (by decide) h

/-- The length of a compressed sequence. -/
def get_length (r : BitReader) : Except Int (Nat × BitReader) := do
  let (data, r) ← get_bits 2 r
  -- 00, 01, 10 ==> 2, 3, 4
  if data ≠ 3 then return (data + 2, r)
  let (data, r) ← get_bits 2 r
  -- 1100, 1101, 1110 => 5, 6, 7
  if data ≠ 3 then return (data + 5, r)
  get_nybbles 8 r

/-- The offset of a compressed sequence that starts with the 9 bits `data`. -/
def get_offset (data : Nat) (r : BitReader) : Except Int (Nat × BitReader) := do
  -- 11bbbbbbb is a 7-bit offset
  let offset := data &&& 0x7f
  -- 10bbbbbbbbbbb is an 11-bit offset, so get the next 4 bits
  if data < 0x180 then
    let (data, r) ← get_bits 4 r
    return (offset <<< 4 ||| data, r)
  return (offset, r)

/-- Copy `length` bytes from `offset` bytes back. -/
def copy_back (dst : List UInt8) (offset : Nat) : (length : Nat) → List UInt8
  | 0 => dst
  | length + 1 => copy_back (dst ++ [dst.getD (dst.length - offset) 0]) offset length

theorem get_nybbles_size {length n : Nat} {r r' : BitReader}
    (h : get_nybbles length r = .ok (n, r')) : r'.size < r.size := by
  fun_induction get_nybbles length r with
  | case1 => cases h
  | case2 length r data r₁ hget hne =>
    cases h
    exact get_bits_size (by decide) hget
  | case3 length r data r₁ hget hne ih =>
    exact Nat.lt_trans (ih h) (get_bits_size (by decide) hget)

theorem get_length_size {n : Nat} {r r' : BitReader} (h : get_length r = .ok (n, r')) :
    r'.size < r.size := by
  obtain ⟨⟨data, r₁⟩, hget₁, h⟩ := bind_eq_ok.1 h
  have hlt₁ := get_bits_size (by decide) hget₁
  dsimp only at h
  split at h
  · cases h
    exact hlt₁
  · obtain ⟨⟨data, r₂⟩, hget₂, h⟩ := bind_eq_ok.1 h
    have hlt₂ := get_bits_size (by decide) hget₂
    dsimp only at h
    split at h
    · cases h
      exact Nat.lt_trans hlt₂ hlt₁
    · exact Nat.lt_trans (get_nybbles_size h) (Nat.lt_trans hlt₂ hlt₁)

theorem get_offset_size {data n : Nat} {r r' : BitReader} (h : get_offset data r = .ok (n, r')) :
    r'.size ≤ r.size := by
  unfold get_offset at h
  dsimp only at h
  split at h
  · obtain ⟨⟨data, r₁⟩, hget, h⟩ := bind_eq_ok.1 h
    cases h
    exact Nat.le_of_lt (get_bits_size (by decide) hget)
  · cases h
    exact Nat.le_refl _

set_option linter.unusedVariables false in
/-- The loop of `lzs_decompress`. -/
def decompress_loop (dstlen : Nat) (dst : List UInt8) (r : BitReader) :
    Except Int (List UInt8) :=
  match hdata : get_bits 9 r with
  | .error e => .error e
  | .ok (data, r₁) =>
    -- 0bbbbbbbb is a literal byte
    if data < 0x100 then
      if dst.length = dstlen then .error (-EFBIG)
      else decompress_loop dstlen (dst ++ [UInt8.ofNat data]) r₁
    -- 110000000 is the end marker
    else if data = 0x180 then .ok dst
    else
      match hoffset : get_offset data r₁ with
      | .error e => .error e
      | .ok (offset, r₂) =>
        match hlength : get_length r₂ with
        | .error e => .error e
        | .ok (length, r₃) =>
          if offset = 0 ∨ offset > dst.length then .error (-EINVAL)
          else if length + dst.length > dstlen then .error (-EFBIG)
          else decompress_loop dstlen (copy_back dst offset length) r₃
termination_by r.size
decreasing_by
  · exact get_bits_size (by decide) hdata
  · exact Nat.lt_trans (Nat.lt_of_lt_of_le (get_length_size hlength) (get_offset_size hoffset))
      (get_bits_size (by decide) hdata)

/-- The returned number is the length of the list. -/
def lzs_decompress (dstlen : Nat) (src : List UInt8) : Except Int (List UInt8) :=
  decompress_loop dstlen [] ⟨src, 8⟩

/-! ## Compression -/

/-- The output, and the bits of `outbits` that are not yet in it. -/
structure BitWriter where
  dst : List UInt8 := []
  outbits : Nat := 0
  nr_outbits : Nat := 0
deriving DecidableEq, Repr

/-- Write the oldest eight of the bits. -/
def put_byte (dstlen : Nat) (w : BitWriter) : Except Int BitWriter :=
  let nr_outbits := w.nr_outbits - 8
  if w.dst.length = dstlen then .error (-EFBIG)
  else .ok { w with dst := w.dst ++ [UInt8.ofNat (w.outbits >>> nr_outbits)], nr_outbits }

/-- `PUT_BITS`. -/
def put_bits (dstlen nr bits : Nat) (w : BitWriter) : Except Int BitWriter :=
  let w : BitWriter :=
    { w with outbits := (w.outbits <<< nr ||| bits) % 2 ^ 32, nr_outbits := w.nr_outbits + nr }
  (if nr > 8 then put_byte dstlen w else .ok w) >>= fun w =>
    if w.nr_outbits ≥ 8 then put_byte dstlen w else .ok w

/-- Output the offset, as 7-bit or 11-bit as appropriate. -/
def put_offset (dstlen offset : Nat) (w : BitWriter) : Except Int BitWriter :=
  if offset < 0x80 then put_bits dstlen 9 (0x180 ||| offset) w
  else put_bits dstlen 13 (0x1000 ||| offset) w

def put_nybbles (dstlen length : Nat) (w : BitWriter) : Except Int BitWriter :=
  if length ≥ 30 then do
    let w ← put_bits dstlen 8 0xff w
    put_nybbles dstlen (length - 30) w
  else if length ≥ 15 then put_bits dstlen 8 (0xf0 + length - 15) w
  else put_bits dstlen 4 length w
termination_by length

/-- Output the length. -/
def put_length (dstlen length : Nat) (w : BitWriter) : Except Int BitWriter :=
  if length < 5 then put_bits dstlen 2 (length - 2) w
  else if length < 8 then put_bits dstlen 4 (length + 7) w
  else put_nybbles dstlen (length + 7) w

def INVALID_OFS : Nat := 0xffff

/-- The highest offset LZS can represent is 11 bits. -/
def MAX_HISTORY : Nat := 2 ^ 11

/-- `HASH`: the 16-bit value at a position of the input. -/
def HASH (src : List UInt8) (pos : Nat) : Nat :=
  (src.getD pos 0).toNat + 256 * (src.getD (pos + 1) 0).toNat

/-- The state of the compressor. -/
structure State where
  inpos : Nat
  out : BitWriter
  /-- the position at which a hash was most recently seen -/
  hash_table : Nat → Nat
  /-- for the latest positions, the previous one with the same hash -/
  hash_chain : Nat → Nat

/-- Add a position to the hash tables. -/
def State.insert (src : List UInt8) (pos : Nat) (st : State) : State :=
  { st with
    hash_chain := Function.update st.hash_chain (pos % MAX_HISTORY) (st.hash_table (HASH src pos))
    hash_table := Function.update st.hash_table (HASH src pos) pos }

/-- Whether a position can be referred to from `inpos`. -/
def reachable (inpos hofs : Nat) : Bool := hofs ≠ INVALID_OFS ∧ hofs + MAX_HISTORY > inpos

/-- Lengthen a match by one byte, and further while the bytes are the same; the flag says
that the end of the input was reached.  `left` bytes of the input are not yet matched. -/
def extend_match (src : List UInt8) (inpos hofs : Nat) :
    (left : Nat) → (longest_match_len : Nat) → Nat × Bool
  | 0, len => (len, true)
  | left + 1, len =>
    let len := len + 1
    if len + inpos = src.length then (len, true)
    else if src.getD (len + inpos) 0 = src.getD (len + hofs) 0 then
      extend_match src inpos hofs left len
    else (len, false)

/-- Follow the chain from `hofs` for a match that is longer than the one found so far, which
is at `ofs`.  Every link leads to an earlier position, so that `fuel` is not used up. -/
def longest_match (src : List UInt8) (hash_chain : Nat → Nat) (inpos : Nat) :
    (fuel : Nat) → (hofs : Nat) → (ofs len : Nat) → Nat × Nat
  | 0, _, ofs, len => (ofs, len)
  | fuel + 1, hofs, ofs, len =>
    if reachable inpos hofs then
      if (src.drop (hofs + 2)).take (len - 1) = (src.drop (inpos + 2)).take (len - 1) then
        match extend_match src inpos hofs (src.length - (inpos + len)) len with
        | (len, true) => (hofs, len)
        | (len, false) =>
          longest_match src hash_chain inpos fuel (hash_chain (hofs % MAX_HISTORY)) hofs len
      else longest_match src hash_chain inpos fuel (hash_chain (hofs % MAX_HISTORY)) ofs len
    else (ofs, len)

/-- Add the positions of a match, the first one apart. -/
def State.insert_rest (src : List UInt8) : (count : Nat) → State → State
  | 0, st => st
  | count + 1, st => insert_rest src count { st.insert src st.inpos with inpos := st.inpos + 1 }

/-- One round of the main loop; the flag says that it leaves the loop. -/
def compress_round (dstlen : Nat) (src : List UInt8) (st : State) : Except Int (State × Bool) :=
  let hofs := st.hash_table (HASH src st.inpos)
  let tables := st.insert src st.inpos
  if reachable st.inpos hofs then do
    -- since the hash is 16 bits, the first two bytes match
    let m := longest_match src tables.hash_chain st.inpos (hofs + 1) hofs hofs 2
    let out ← put_offset dstlen (st.inpos - m.1) st.out
    let out ← put_length dstlen m.2 out
    -- if we're already done, don't bother updating the hash tables
    if st.inpos + m.2 + 2 ≥ src.length then
      return ({ tables with inpos := st.inpos + m.2, out }, true)
    else
      return (State.insert_rest src (m.2 - 1) { tables with inpos := st.inpos + 1, out }, false)
  else do
    let out ← put_bits dstlen 9 (src.getD st.inpos 0).toNat st.out
    return ({ tables with inpos := st.inpos + 1, out }, false)

/-- The main loop.  Every round moves forward in the input, so that a fuel of the length of
the input is not used up. -/
def compress_loop (dstlen : Nat) (src : List UInt8) : (fuel : Nat) → State → Except Int State
  | 0, st => .ok st
  | fuel + 1, st =>
    if st.inpos + 2 < src.length then
      match compress_round dstlen src st with
      | .error e => .error e
      | .ok (st, true) => .ok st
      | .ok (st, false) => compress_loop dstlen src fuel st
    else .ok st

/-- The special cases at the end. -/
def compress_tail (dstlen : Nat) (src : List UInt8) (st : State) : Except Int BitWriter :=
  if st.inpos + 2 = src.length then
    let hofs := st.hash_table (HASH src st.inpos)
    if reachable st.inpos hofs then do
      let out ← put_offset dstlen (st.inpos - hofs) st.out
      -- the length is 2 bytes
      put_bits dstlen 2 0 out
    else do
      let out ← put_bits dstlen 9 (src.getD st.inpos 0).toNat st.out
      put_bits dstlen 9 (src.getD (st.inpos + 1) 0).toNat out
  else if st.inpos + 1 = src.length then
    put_bits dstlen 9 (src.getD st.inpos 0).toNat st.out
  else .ok st.out

/-- The returned number is the length of the list.  `hash_chain` is what happens to be in
the memory of the chain, which is not initialised. -/
def lzs_compress (hash_chain : Nat → Nat) (dstlen : Nat) (src : List UInt8) :
    Except Int (List UInt8) :=
  if src.length > INVALID_OFS + 1 then .error (-EFBIG)
  else do
    let st ← compress_loop dstlen src src.length
      { inpos := 0, out := {}, hash_table := fun _ => INVALID_OFS, hash_chain }
    let out ← compress_tail dstlen src st
    -- end marker, with 7 trailing zero bits to ensure that it's flushed
    let out ← put_bits dstlen 16 0xc000 out
    return out.dst

end Lzs

end Ocserv

import Ocserv.Lib.Bits
import Ocserv.Lib.Lz77
import Ocserv.Lib.Outcome
import Ocserv.Lzs

/-!
# LZS compression loses nothing

Between the two programs stands the format: a text is a sequence of tokens (`Lz77`), and a
token is a bit string (`tokenBits`).  The decompressor reads the bits of the tokens of a
text and writes the text (`decompress_tokens`).  The compressor writes the bits of tokens
of its input (`compress_tokens`): the positions its hash tables lead to are such that the
input repeats itself there (`Linked`), whatever the ring of the chain has overwritten.
-/

namespace Ocserv.Lzs

open Bits List Lz77 Option Outcome

/-! ## Reading bits -/

/-- The bits that are left. -/
def BitReader.rest (r : BitReader) : List Bool :=
  match r.src with
  | [] => []
  | b :: src => ofNat r.bits_left b.toNat ++ ofBytes src

def BitReader.Ok (r : BitReader) : Prop := 1 ≤ r.bits_left ∧ r.bits_left ≤ 8

theorem rest_eight (src : List UInt8) : (BitReader.mk src 8).rest = ofBytes src := by
  cases src with
  | nil => rfl
  | cons b src => exact (ofBytes_cons b src).symm

/-- While nine bits are left, there are two bytes. -/
theorem BitReader.Ok.two_bytes {r : BitReader} (hok : r.Ok) (h : 9 ≤ r.rest.length) :
    ∃ s0 s1 src, r.src = s0 :: s1 :: src := by
  obtain ⟨-, hle⟩ := hok
  unfold BitReader.rest at h
  match hsrc : r.src with
  | [] => simp [hsrc] at h
  | [b] =>
    simp [hsrc] at h
    omega
  | s0 :: s1 :: src => exact ⟨s0, s1, src, rfl⟩

/-- A field that starts with all the bits of one byte and ends in the next one. -/
theorem ofNat_join (bl : Nat) {k : Nat} (hk : k ≤ 8) (s0 s1 : UInt8) :
    ofNat (bl + k) ((s0.toNat <<< k) % 2 ^ (bl + k) ||| s1.toNat >>> (8 - k)) =
      ofNat bl s0.toNat ++ ofNat k (s1.toNat >>> (8 - k)) ∧
    (s0.toNat <<< k) % 2 ^ (bl + k) ||| s1.toNat >>> (8 - k) < 2 ^ (bl + k) := by
  have hs1 : s1.toNat < 2 ^ 8 := s1.toNat_lt
  have hhigh : s1.toNat >>> (8 - k) < 2 ^ k := by
    rw [Nat.shiftRight_eq_div_pow]
    apply Nat.div_lt_of_lt_mul
    rwa [← Nat.pow_add, Nat.sub_add_cancel hk]
  have hle : 2 ^ k ≤ 2 ^ (bl + k) := Nat.pow_le_pow_right (by decide) (by omega)
  have hmod : (s0.toNat <<< k) % 2 ^ (bl + k) ||| s1.toNat >>> (8 - k) =
      (s0.toNat <<< k ||| s1.toNat >>> (8 - k)) % 2 ^ (bl + k) := by
    rw [Nat.or_mod_two_pow, Nat.mod_eq_of_lt (show s1.toNat >>> (8 - k) < 2 ^ (bl + k) by omega)]
  rw [hmod]
  refine ⟨?_, Nat.mod_lt _ (Nat.two_pow_pos _)⟩
  rw [ofNat_mod (Nat.le_refl _), ofNat_shiftLeft_or hhigh]

theorem get_bits_bits {bits : Nat} (hbits : 0 < bits ∧ bits ≤ 9) {r : BitReader} (hok : r.Ok)
    (hlen : 9 ≤ r.rest.length) : ∃ data r', get_bits bits r = .ok (data, r') ∧
      data < 2 ^ bits ∧ r'.Ok ∧ r.rest = ofNat bits data ++ r'.rest := by
  obtain ⟨s0, s1, src, hsrc⟩ := hok.two_bytes hlen
  obtain ⟨src₀, bl⟩ := r
  obtain ⟨hpos, hle⟩ : 1 ≤ bl ∧ bl ≤ 8 := hok
  obtain rfl : src₀ = s0 :: s1 :: src := hsrc
  have hrest : (BitReader.mk (s0 :: s1 :: src) bl).rest =
      ofNat bl s0.toNat ++ (ofNat 8 s1.toNat ++ ofBytes src) := by
    rw [← ofBytes_cons]
    rfl
  rw [hrest]
  by_cases hall : bits ≥ 8 ∨ bits ≥ bl
  · obtain ⟨k, rfl⟩ : ∃ k, bits = bl + k := ⟨bits - bl, by omega⟩
    have hk : k ≤ 8 := by omega
    obtain ⟨hjoin, hlt⟩ := ofNat_join bl hk s0 s1
    -- the bits of the next byte that are not taken
    have hsplit : ofNat 8 s1.toNat = ofNat k (s1.toNat >>> (8 - k)) ++ ofNat (8 - k) s1.toNat := by
      rw [← ofNat_add, Nat.add_sub_cancel' hk]
    have hleft : bl + 8 - (bl + k) = 8 - k := by omega
    simp only [get_bits, if_pos hall, Nat.add_sub_cancel_left, hleft,
      Nat.and_two_pow_sub_one_eq_mod]
    by_cases hnext : bl + k > 8 ∨ 8 - k < 8
    · rw [if_pos hnext]
      by_cases hbump : bl + k > 8 ∧ 8 - k = 0
      · rw [if_pos hbump]
        refine ⟨_, _, rfl, hlt, ⟨by simp, by simp⟩, ?_⟩
        obtain rfl : k = 8 := by omega
        rw [hjoin, hsplit, rest_eight, Nat.sub_self]
        simp [ofNat]
      · rw [if_neg hbump]
        refine ⟨_, _, rfl, hlt, by simp only [BitReader.Ok]; omega, ?_⟩
        rw [hjoin, hsplit]
        simp [BitReader.rest]
    · rw [if_neg hnext]
      obtain rfl : k = 0 := by omega
      refine ⟨_, _, rfl, Nat.mod_lt _ (Nat.two_pow_pos _), ⟨by simp, by simp⟩, ?_⟩
      rw [ofNat_mod (Nat.le_refl _), Nat.shiftLeft_zero]
      simp [BitReader.rest]
  · have hlt : bits < bl := by omega
    simp only [get_bits, if_neg hall, Nat.and_two_pow_sub_one_eq_mod]
    refine ⟨_, _, rfl, Nat.mod_lt _ (Nat.two_pow_pos _), by simp only [BitReader.Ok]; omega, ?_⟩
    have hsplit : ofNat bl s0.toNat = ofNat bits (s0.toNat >>> (bl - bits)) ++
        ofNat (bl - bits) s0.toNat := by
      rw [← ofNat_add, Nat.add_sub_cancel' (Nat.le_of_lt hlt)]
    rw [ofNat_mod (Nat.le_refl _), hsplit]
    simp [BitReader.rest]

theorem get_bits_spec {bits : Nat} (hbits : 0 < bits ∧ bits ≤ 9) {r : BitReader} (hok : r.Ok)
    {v : Nat} (hv : v < 2 ^ bits) {more : List Bool} (hrest : r.rest = ofNat bits v ++ more)
    (hlen : 9 ≤ r.rest.length) :
    ∃ r', get_bits bits r = .ok (v, r') ∧ r'.Ok ∧ r'.rest = more := by
  obtain ⟨data, r', hget, hlt, hok', hsplit⟩ := get_bits_bits hbits hok hlen
  rw [hrest] at hsplit
  obtain ⟨hfield, hmore⟩ := append_inj hsplit (by rw [length_ofNat, length_ofNat])
  rw [ofNat_inj hv hlt hfield]
  exact ⟨r', hget, hok', hmore.symm⟩

/-! ## The format -/

/-- The bits of a length of 8 or more, less 8: each 1111 stands for 15. -/
def nybbleBits (n : Nat) : List Bool :=
  if 15 ≤ n then ofNat 4 15 ++ nybbleBits (n - 15) else ofNat 4 n
termination_by n

def lengthBits (length : Nat) : List Bool :=
  if length < 5 then ofNat 2 (length - 2)
  else if length < 8 then ofNat 2 3 ++ ofNat 2 (length - 5)
  else ofNat 2 3 ++ (ofNat 2 3 ++ nybbleBits (length - 8))

def offsetBits (offset : Nat) : List Bool :=
  if offset < 0x80 then ofNat 9 (0x180 + offset)
  else ofNat 9 (0x100 + offset / 16) ++ ofNat 4 (offset % 16)

def tokenBits : Token UInt8 → List Bool
  | .lit b => ofNat 9 b.toNat
  | .copy offset length => offsetBits offset ++ lengthBits length

/-- What the bits of a token can hold. -/
def TokenOk : Token UInt8 → Prop
  | .lit _ => True
  | .copy offset length => 0 < offset ∧ offset < MAX_HISTORY ∧ 2 ≤ length ∧ length < 2 ^ 16

/-- The end marker. -/
def endBits : List Bool := ofNat 9 0x180

/-! ## Decompression -/

/-- The reader has some bits before it and at least nine after them. -/
structure Reads (r : BitReader) (bits more : List Bool) : Prop where
  ok : r.Ok
  rest : r.rest = bits ++ more
  more : 9 ≤ more.length

theorem Reads.get {r : BitReader} {n v : Nat} {bits more : List Bool}
    (h : Reads r (ofNat n v ++ bits) more) (hn : 0 < n ∧ n ≤ 9) (hv : v < 2 ^ n) :
    ∃ r', get_bits n r = .ok (v, r') ∧ Reads r' bits more := by
  have hrest : r.rest = ofNat n v ++ (bits ++ more) := by rw [h.rest, append_assoc]
  have hlen : 9 ≤ r.rest.length := by
    rw [hrest, length_append, length_append]
    have := h.more
    omega
  obtain ⟨r', hget, hok, hmore⟩ := get_bits_spec hn h.ok hv hrest hlen
  exact ⟨r', hget, hok, hmore, h.more⟩

theorem Reads.get_last {r : BitReader} {n v : Nat} {more : List Bool}
    (h : Reads r (ofNat n v) more) (hn : 0 < n ∧ n ≤ 9) (hv : v < 2 ^ n) :
    ∃ r', get_bits n r = .ok (v, r') ∧ Reads r' [] more :=
  Reads.get (by rwa [append_nil]) hn hv

theorem get_nybbles_eq (length : Nat) (r : BitReader) : get_nybbles length r =
    get_bits 4 r >>= fun x =>
      if x.1 ≠ 15 then .ok ((length + x.1) % 2 ^ 16, x.2)
      else get_nybbles ((length + 15) % 2 ^ 16) x.2 := by
  rw [get_nybbles]
  split
  · next e h => rw [h]; rfl
  · next data r' h => rw [h]; rfl

theorem get_nybbles_spec {n : Nat} (length : Nat) (hlen : length + n < 2 ^ 16) {r : BitReader}
    {more : List Bool} (h : Reads r (nybbleBits n) more) :
    ∃ r', get_nybbles length r = .ok (length + n, r') ∧ Reads r' [] more := by
  fun_induction nybbleBits n generalizing length r with
  | case1 n hle ih =>
    obtain ⟨r₁, hget, h₁⟩ := h.get (by decide) (by decide)
    have hmod : (length + 15) % 2 ^ 16 = length + 15 := Nat.mod_eq_of_lt (by omega)
    obtain ⟨r', hrest, h'⟩ := ih (length + 15) (by omega) h₁
    refine ⟨r', ?_, h'⟩
    rw [get_nybbles_eq, hget, ok_bind, if_neg (fun hne => hne rfl), hmod, hrest,
      show length + 15 + (n - 15) = length + n by omega]
  | case2 n hlt =>
    obtain ⟨r', hget, h'⟩ := h.get_last (by decide) (by omega)
    refine ⟨r', ?_, h'⟩
    rw [get_nybbles_eq, hget, ok_bind, if_pos (by simp only; omega), Nat.mod_eq_of_lt hlen]

theorem get_length_spec {length : Nat} (hlen : 2 ≤ length ∧ length < 2 ^ 16) {r : BitReader}
    {more : List Bool} (h : Reads r (lengthBits length) more) :
    ∃ r', get_length r = .ok (length, r') ∧ Reads r' [] more := by
  unfold lengthBits at h
  unfold get_length
  by_cases hshort : length < 5
  · rw [if_pos hshort] at h
    obtain ⟨r', hget, h'⟩ := h.get_last (by decide) (by omega)
    refine ⟨r', ?_, h'⟩
    have hne : length - 2 ≠ 3 := by omega
    simp only [hget, bind, Except.bind, if_pos hne]
    rw [Nat.sub_add_cancel hlen.1]
    rfl
  · rw [if_neg hshort] at h
    by_cases hmid : length < 8
    · rw [if_pos hmid] at h
      obtain ⟨r₁, hget₁, h₁⟩ := h.get (by decide) (by decide)
      obtain ⟨r', hget, h'⟩ := h₁.get_last (by decide) (by omega)
      refine ⟨r', ?_, h'⟩
      have hne : length - 5 ≠ 3 := by omega
      simp only [hget₁, hget, bind, Except.bind, ne_eq, not_true_eq_false, if_false, if_pos hne]
      rw [Nat.sub_add_cancel (show 5 ≤ length by omega)]
      rfl
    · rw [if_neg hmid] at h
      obtain ⟨r₁, hget₁, h₁⟩ := h.get (by decide) (by decide)
      obtain ⟨r₂, hget₂, h₂⟩ := h₁.get (by decide) (by decide)
      obtain ⟨r', hget, h'⟩ := get_nybbles_spec 8 (by omega) h₂
      refine ⟨r', ?_, h'⟩
      simp only [hget₁, hget₂, bind, Except.bind, ne_eq, not_true_eq_false, if_false, hget]
      rw [Nat.add_sub_cancel' (show 8 ≤ length by omega)]

theorem get_offset_spec {offset : Nat} (hpos : 0 < offset) (hlt : offset < MAX_HISTORY)
    {r : BitReader} {bits more : List Bool} (h : Reads r (offsetBits offset ++ bits) more) :
    ∃ data r₁ r', get_bits 9 r = .ok (data, r₁) ∧ ¬ data < 0x100 ∧ data ≠ 0x180 ∧
      get_offset data r₁ = .ok (offset, r') ∧ Reads r' bits more := by
  have hmax : offset < 2048 := hlt
  unfold offsetBits at h
  unfold get_offset
  by_cases hshort : offset < 0x80
  · rw [if_pos hshort] at h
    obtain ⟨r₁, hget, h₁⟩ := h.get (by decide) (by omega)
    refine ⟨_, r₁, r₁, hget, by omega, by omega, ?_, h₁⟩
    have hmask : (0x180 + offset) &&& 0x7f = offset := by
      rw [show (0x7f : Nat) = 2 ^ 7 - 1 from rfl, Nat.and_two_pow_sub_one_eq_mod]
      omega
    rw [if_neg (by omega), hmask]
    rfl
  · rw [if_neg hshort, append_assoc] at h
    obtain ⟨r₁, hget, h₁⟩ := h.get (by decide) (by omega)
    obtain ⟨r', hget', h'⟩ := h₁.get (by decide) (by omega)
    refine ⟨_, r₁, r', hget, by omega, by omega, ?_, h'⟩
    have hmask : (0x100 + offset / 16) &&& 0x7f = offset / 16 := by
      rw [show (0x7f : Nat) = 2 ^ 7 - 1 from rfl, Nat.and_two_pow_sub_one_eq_mod]
      omega
    have hjoin : (offset / 16) <<< 4 ||| offset % 16 = offset := by
      rw [← Nat.shiftLeft_add_eq_or_of_lt (show offset % 16 < 2 ^ 4 by omega), Nat.shiftLeft_eq]
      omega
    simp only [if_pos (show 0x100 + offset / 16 < 0x180 by omega), hget', bind, Except.bind,
      hmask, hjoin]
    rfl

theorem copy_back_eq (dst : List UInt8) (offset length : Nat) :
    copy_back dst offset length = repeatBack dst offset length := by
  induction length generalizing dst with
  | zero => rfl
  | succ length ih => exact ih _

theorem decompress_loop_eq (dstlen : Nat) (dst : List UInt8) (r : BitReader) :
    decompress_loop dstlen dst r = get_bits 9 r >>= fun x =>
      if x.1 < 0x100 then
        if dst.length = dstlen then .error (-EFBIG)
        else decompress_loop dstlen (dst ++ [UInt8.ofNat x.1]) x.2
      else if x.1 = 0x180 then .ok dst
      else get_offset x.1 x.2 >>= fun y => get_length y.2 >>= fun z =>
        if y.1 = 0 ∨ y.1 > dst.length then .error (-EINVAL)
        else if z.1 + dst.length > dstlen then .error (-EFBIG)
        else decompress_loop dstlen (copy_back dst y.1 z.1) z.2 := by
  rw [decompress_loop]
  split
  · next e h => rw [h]; rfl
  · next data r₁ h =>
    rw [h, ok_bind]
    split
    · rfl
    · split
      · rfl
      · split
        · next e h => rw [h]; rfl
        · next offset r₂ h =>
          rw [h, ok_bind]
          split
          · next e h => rw [h]; rfl
          · next length r₃ h => rw [h]; rfl

/-- The decompressor writes the text of the tokens whose bits it reads. -/
theorem decompress_tokens {dstlen : Nat} {dst text : List UInt8} {tokens : List (Token UInt8)}
    (hok : ∀ t ∈ tokens, TokenOk t) (htext : expand dst tokens = some text)
    (hroom : text.length ≤ dstlen) {r : BitReader} (hr : r.Ok) {more : List Bool}
    (hrest : r.rest = tokens.flatMap tokenBits ++ (endBits ++ more)) :
    decompress_loop dstlen dst r = .ok text := by
  induction tokens generalizing dst r with
  | nil =>
    have hlen : 9 ≤ r.rest.length := by simp [hrest, endBits]
    obtain ⟨r', hget, -, -⟩ := get_bits_spec (by decide) hr (by decide) hrest hlen
    rw [decompress_loop_eq, hget]
    exact congrArg Except.ok (some.inj htext)
  | cons t tokens ih =>
    obtain ⟨ht, htokens⟩ := forall_mem_cons.1 hok
    rw [expand_cons] at htext
    obtain ⟨dst', hdst', hlater⟩ := bind_eq_some_iff.1 htext
    have hgrow := length_le_of_expand hlater
    have hreads : Reads r (tokenBits t) (tokens.flatMap tokenBits ++ (endBits ++ more)) :=
      ⟨hr, by rw [hrest, List.flatMap_cons, append_assoc], by simp [endBits]; omega⟩
    cases t with
    | lit b =>
      have hb : b.toNat < 0x100 := b.toNat_lt
      obtain ⟨r', hget, h'⟩ := hreads.get_last (by decide) (by omega)
      cases hdst'
      rw [length_append, length_singleton] at hgrow
      rw [decompress_loop_eq, hget]
      simp only [ok_bind, if_pos hb, if_neg (show ¬ dst.length = dstlen by omega),
        UInt8.ofNat_toNat]
      exact ih htokens hlater h'.ok h'.rest
    | copy offset length =>
      obtain ⟨hvalid, heq⟩ := ite_none_right_eq_some.1 hdst'
      cases heq
      rw [length_repeatBack] at hgrow
      obtain ⟨hpos, hmax, hlen⟩ := ht
      obtain ⟨data, r₁, r₂, hget, hlit, hend, hoffset, h₂⟩ := get_offset_spec hpos hmax hreads
      obtain ⟨r₃, hlength, h₃⟩ := get_length_spec hlen h₂
      rw [decompress_loop_eq, hget]
      simp only [ok_bind, if_neg hlit, if_neg hend, hoffset, hlength]
      rw [if_neg (by omega), if_neg (by omega), copy_back_eq]
      exact ih htokens hlater h₃.ok h₃.rest

/-! ## Writing bits -/

/-- The bits written so far. -/
def BitWriter.bits (w : BitWriter) : List Bool := ofBytes w.dst ++ ofNat w.nr_outbits w.outbits

/-- Fewer than eight bits wait for their byte, and the output fits. -/
structure BitWriter.Ok (dstlen : Nat) (w : BitWriter) : Prop where
  pending : w.nr_outbits < 8
  fits : w.dst.length ≤ dstlen

section Writer

variable {dstlen : Nat} {w w' : BitWriter}

theorem put_byte_spec (hpending : 8 ≤ w.nr_outbits) (hfits : w.dst.length ≤ dstlen)
    (h : put_byte dstlen w = .ok w') :
    w'.nr_outbits = w.nr_outbits - 8 ∧ w'.dst.length ≤ dstlen ∧ w'.bits = w.bits := by
  unfold put_byte at h
  split at h
  · cases h
  · next hroom =>
    cases h
    refine ⟨rfl, ?_, ?_⟩
    · simp only [length_append, length_singleton]
      omega
    · simp only [BitWriter.bits]
      obtain ⟨n, hn⟩ : ∃ n, w.nr_outbits = 8 + n := ⟨w.nr_outbits - 8, by omega⟩
      rw [hn, Nat.add_sub_cancel_left, ofNat_add 8 n, ofBytes_append, ofBytes_cons, ofBytes_nil,
        ofNat_toNat_ofNat, append_nil, append_assoc]

theorem put_bits_spec {nr v : Nat} (hnr : nr ≤ 16) (hv : v < 2 ^ nr) (hw : w.Ok dstlen)
    (h : put_bits dstlen nr v w = .ok w') : w'.Ok dstlen ∧ w'.bits = w.bits ++ ofNat nr v := by
  have hpending := hw.pending
  unfold put_bits at h
  extract_lets w₀ at h
  have hnr₀ : w₀.nr_outbits = w.nr_outbits + nr := rfl
  have hfits₀ : w₀.dst.length ≤ dstlen := hw.fits
  have hbits : w₀.bits = w.bits ++ ofNat nr v := by
    simp only [w₀, BitWriter.bits]
    rw [ofNat_mod (by omega), ofNat_shiftLeft_or hv, append_assoc]
  obtain ⟨w₁, hfirst, hsecond⟩ := bind_eq_ok.1 h
  -- a field of more than eight bits fills a byte for sure
  obtain ⟨hnr₁, hfits₁, hbits₁⟩ : w₁.nr_outbits < 16 ∧ w₁.dst.length ≤ dstlen ∧
      w₁.bits = w₀.bits := by
    split at hfirst
    · obtain ⟨hnr₁, hfits₁, hbits₁⟩ := put_byte_spec (by omega) hfits₀ hfirst
      exact ⟨by omega, hfits₁, hbits₁⟩
    · cases hfirst
      exact ⟨by omega, hfits₀, rfl⟩
  split at hsecond
  · next hfull =>
    obtain ⟨hnr', hfits', hbits'⟩ := put_byte_spec hfull hfits₁ hsecond
    exact ⟨⟨by omega, hfits'⟩, by rw [hbits', hbits₁, hbits]⟩
  · next hfull =>
    cases hsecond
    exact ⟨⟨by omega, hfits₁⟩, by rw [hbits₁, hbits]⟩

theorem put_offset_spec {offset : Nat} (hlt : offset < MAX_HISTORY) (hw : w.Ok dstlen)
    (h : put_offset dstlen offset w = .ok w') :
    w'.Ok dstlen ∧ w'.bits = w.bits ++ offsetBits offset := by
  have hmax : offset < 2048 := hlt
  unfold put_offset at h
  unfold offsetBits
  by_cases hshort : offset < 0x80
  · have hor : 0x180 ||| offset = 0x180 + offset :=
      (Nat.shiftLeft_add_eq_or_of_lt (show offset < 2 ^ 7 by omega) 3).symm
    rw [if_pos hshort, hor] at h
    rw [if_pos hshort]
    exact put_bits_spec (by decide) (by omega) hw h
  · have hor : 0x1000 ||| offset = 0x1000 + offset :=
      (Nat.shiftLeft_add_eq_or_of_lt (show offset < 2 ^ 12 by omega) 1).symm
    rw [if_neg hshort, hor] at h
    rw [if_neg hshort]
    obtain ⟨hok, hbits⟩ := put_bits_spec (by decide) (by omega) hw h
    refine ⟨hok, ?_⟩
    have hhigh : (0x1000 + offset) >>> 4 = 0x100 + offset / 16 := by
      rw [Nat.shiftRight_eq_div_pow]
      omega
    have hlow : ofNat 4 (0x1000 + offset) = ofNat 4 (offset % 16) := by
      rw [← ofNat_mod (Nat.le_refl 4), show (0x1000 + offset) % 2 ^ 4 = offset % 16 by omega]
    rw [hbits, ofNat_add 9 4, hhigh, hlow]

theorem ofNat_nybbles {a b : Nat} (hb : b < 16) :
    ofNat 8 (16 * a + b) = ofNat 4 a ++ ofNat 4 b := by
  rw [← ofNat_shiftLeft_or (show b < 2 ^ 4 from hb),
    ← Nat.shiftLeft_add_eq_or_of_lt (show b < 2 ^ 4 from hb), Nat.shiftLeft_eq, Nat.mul_comm]

theorem put_nybbles_spec {n : Nat} (hw : w.Ok dstlen) (h : put_nybbles dstlen n w = .ok w') :
    w'.Ok dstlen ∧ w'.bits = w.bits ++ nybbleBits n := by
  fun_induction put_nybbles dstlen n w with
  | case1 n w hlong ih =>
    obtain ⟨w₁, hput, hrest⟩ := bind_eq_ok.1 h
    obtain ⟨hok₁, hbits₁⟩ := put_bits_spec (by decide) (by decide) hw hput
    obtain ⟨hok', hbits'⟩ := ih w₁ hok₁ hrest
    refine ⟨hok', ?_⟩
    have hnybbles : nybbleBits n = ofNat 4 15 ++ (ofNat 4 15 ++ nybbleBits (n - 30)) := by
      rw [nybbleBits, if_pos (by omega), nybbleBits, if_pos (by omega), Nat.sub_sub]
    rw [hbits', hbits₁, hnybbles, show ofNat 8 0xff = ofNat 4 15 ++ ofNat 4 15 from rfl,
      append_assoc, append_assoc]
  | case2 n w hlong hmid =>
    obtain ⟨hok', hbits'⟩ := put_bits_spec (by decide) (by omega) hw h
    refine ⟨hok', ?_⟩
    have hnybbles : nybbleBits n = ofNat 4 15 ++ ofNat 4 (n - 15) := by
      rw [nybbleBits, if_pos hmid, nybbleBits, if_neg (by omega)]
    rw [hbits', hnybbles, show 0xf0 + n - 15 = 16 * 15 + (n - 15) by omega,
      ofNat_nybbles (by omega)]
  | case3 n w hlong hmid =>
    obtain ⟨hok', hbits'⟩ := put_bits_spec (by decide) (by omega) hw h
    rw [nybbleBits, if_neg hmid]
    exact ⟨hok', hbits'⟩

theorem put_length_spec {length : Nat} (hlen : 2 ≤ length) (hw : w.Ok dstlen)
    (h : put_length dstlen length w = .ok w') :
    w'.Ok dstlen ∧ w'.bits = w.bits ++ lengthBits length := by
  unfold put_length at h
  unfold lengthBits
  by_cases hshort : length < 5
  · rw [if_pos hshort] at h ⊢
    exact put_bits_spec (by decide) (by omega) hw h
  · rw [if_neg hshort] at h ⊢
    by_cases hmid : length < 8
    · rw [if_pos hmid] at h ⊢
      obtain ⟨hok', hbits'⟩ := put_bits_spec (by decide) (by omega) hw h
      refine ⟨hok', ?_⟩
      have hfields : ∀ n < 3, ofNat 4 (n + 12) = ofNat 2 3 ++ ofNat 2 n := by decide
      rw [hbits', show length + 7 = length - 5 + 12 by omega, hfields (length - 5) (by omega)]
    · rw [if_neg hmid] at h ⊢
      obtain ⟨hok', hbits'⟩ := put_nybbles_spec hw h
      refine ⟨hok', ?_⟩
      rw [hbits', nybbleBits, if_pos (by omega), show length + 7 - 15 = length - 8 by omega,
        show ofNat 4 15 = ofNat 2 3 ++ ofNat 2 3 from rfl, append_assoc]

end Writer

/-! ## Finding matches -/

section Matches

variable {src : List UInt8} {inpos hofs ofs len : Nat}

/-- Equal hashes are two equal bytes. -/
theorem HASH_inj {a b : Nat} (h : HASH src a = HASH src b) :
    ∀ i < 2, src.getD (a + i) 0 = src.getD (b + i) 0 := by
  unfold HASH at h
  have ha := (src.getD a 0).toNat_lt
  have hb := (src.getD b 0).toNat_lt
  intro i hi
  apply UInt8.toNat_inj.1
  obtain rfl | rfl : i = 0 ∨ i = 1 := by omega
  · rw [Nat.add_zero, Nat.add_zero]
    omega
  · omega

/-- What the position `hofs` has in common with `inpos`. -/
def Agree (src : List UInt8) (inpos hofs len : Nat) : Prop :=
  ∀ i < len, src.getD (hofs + i) 0 = src.getD (inpos + i) 0

/-- A reference that can be written at `inpos`. -/
structure Match (src : List UInt8) (inpos ofs len : Nat) : Prop where
  before : ofs < inpos
  near : inpos < ofs + MAX_HISTORY
  two_le : 2 ≤ len
  inside : inpos + len ≤ src.length
  agree : Agree src inpos ofs len

theorem agree_of_memcmp {n : Nat} (hhash : HASH src hofs = HASH src inpos)
    (h : (src.drop (hofs + 2)).take n = (src.drop (inpos + 2)).take n) :
    Agree src inpos hofs (n + 2) := by
  intro i hi
  by_cases hlt : i < 2
  · exact HASH_inj hhash i hlt
  · have hget := congrArg (fun l : List UInt8 => l.getD (i - 2) 0) h
    simp only [getD_eq_getElem?_getD, List.getElem?_take_of_lt (show i - 2 < n by omega),
      List.getElem?_drop] at hget
    rw [getD_eq_getElem?_getD, getD_eq_getElem?_getD]
    rwa [show hofs + 2 + (i - 2) = hofs + i by omega,
      show inpos + 2 + (i - 2) = inpos + i by omega] at hget

/-- A match grows as long as the bytes agree, and not past the end of the input. -/
theorem extend_match_spec {left : Nat} (hleft : inpos + len + left = src.length)
    (hpos : 0 < left) (h : Agree src inpos hofs (len + 1)) {len' : Nat} {stop : Bool}
    (heq : extend_match src inpos hofs left len = (len', stop)) :
    len < len' ∧ inpos + len' ≤ src.length ∧ (stop = false → inpos + len' < src.length) ∧
      Agree src inpos hofs len' := by
  induction left generalizing len with
  | zero => omega
  | succ left ih =>
    rw [extend_match] at heq
    split at heq
    · next hend =>
      cases heq
      exact ⟨by omega, by omega, fun hstop => absurd hstop (by decide), h⟩
    · next hend =>
      split at heq
      · next hsame =>
        have hmore : Agree src inpos hofs (len + 1 + 1) := by
          intro i hi
          by_cases hlast : i = len + 1
          · rw [hlast, Nat.add_comm hofs, Nat.add_comm inpos, hsame]
          · exact h i (by omega)
        obtain ⟨hlt, hrest⟩ := ih (show inpos + (len + 1) + left = _ by omega) (by omega)
          hmore heq
        exact ⟨by omega, hrest⟩
      · cases heq
        exact ⟨by omega, by omega, fun _ => by omega, h⟩

/-- The hash table leads to earlier positions with the same hash. -/
def Seen (src : List UInt8) (pos : Nat) (hash_table : Nat → Nat) : Prop :=
  ∀ h, hash_table h ≠ INVALID_OFS → hash_table h < pos ∧ HASH src (hash_table h) = h

/-- The positions before `pos` are in the hash tables.  The links of those that can still be
referred to have not been overwritten. -/
structure Linked (src : List UInt8) (pos : Nat) (st : State) : Prop where
  table : Seen src pos st.hash_table
  chain : ∀ p < pos, pos ≤ p + MAX_HISTORY → st.hash_chain (p % MAX_HISTORY) ≠ INVALID_OFS →
    st.hash_chain (p % MAX_HISTORY) < p ∧ HASH src (st.hash_chain (p % MAX_HISTORY)) = HASH src p

theorem Seen.mono {hash_table : Nat → Nat} {pos pos' : Nat} (h : Seen src pos hash_table)
    (hle : pos ≤ pos') : Seen src pos' hash_table :=
  fun k hk => ⟨Nat.lt_of_lt_of_le (h k hk).1 hle, (h k hk).2⟩

theorem Linked.insert {pos : Nat} {st : State} (h : Linked src pos st) :
    Linked src (pos + 1) (st.insert src pos) := by
  constructor
  · intro k hk
    by_cases heq : k = HASH src pos
    · subst heq
      have hself : (st.insert src pos).hash_table (HASH src pos) = pos := Function.update_self ..
      rw [hself]
      exact ⟨by omega, rfl⟩
    · have hother : (st.insert src pos).hash_table k = st.hash_table k :=
        Function.update_of_ne heq ..
      rw [hother] at hk ⊢
      exact h.table.mono (Nat.le_succ pos) k hk
  · intro p hp hnear hvalid
    by_cases heq : p = pos
    · subst heq
      have hself : (st.insert src p).hash_chain (p % MAX_HISTORY) = st.hash_table (HASH src p) :=
        Function.update_self ..
      rw [hself] at hvalid ⊢
      exact h.table _ hvalid
    · -- two positions in one slot of the ring are at least its size apart
      have hslot : p % MAX_HISTORY ≠ pos % MAX_HISTORY := by
        simp only [MAX_HISTORY] at hnear ⊢
        omega
      have hother : (st.insert src pos).hash_chain (p % MAX_HISTORY) =
          st.hash_chain (p % MAX_HISTORY) := Function.update_of_ne hslot ..
      rw [hother] at hvalid ⊢
      exact h.chain p (by omega) (by omega) hvalid

theorem reachable_iff :
    reachable inpos hofs = true ↔ hofs ≠ INVALID_OFS ∧ inpos < hofs + MAX_HISTORY := by
  rw [reachable, decide_eq_true_iff]

theorem Linked.next {st : State} (h : Linked src (inpos + 1) st) (hlt : hofs < inpos)
    (hhash : HASH src hofs = HASH src inpos) (hnear : inpos < hofs + MAX_HISTORY)
    (hvalid : st.hash_chain (hofs % MAX_HISTORY) ≠ INVALID_OFS) :
    st.hash_chain (hofs % MAX_HISTORY) < hofs ∧
      HASH src (st.hash_chain (hofs % MAX_HISTORY)) = HASH src inpos := by
  rw [← hhash]
  exact h.chain hofs (by omega) (by omega) hvalid

theorem longest_match_spec {st : State} (h : Linked src (inpos + 1) st) {fuel : Nat}
    (hhofs : hofs ≠ INVALID_OFS → hofs < inpos ∧ HASH src hofs = HASH src inpos)
    (hbest : Match src inpos ofs len) (hmore : inpos + len < src.length) {ofs' len' : Nat}
    (heq : longest_match src st.hash_chain inpos fuel hofs ofs len = (ofs', len')) :
    Match src inpos ofs' len' := by
  induction fuel generalizing hofs ofs len with
  | zero =>
    cases heq
    exact hbest
  | succ fuel ih =>
    rw [longest_match] at heq
    split at heq
    · next hreach =>
      obtain ⟨hvalid, hnear⟩ := reachable_iff.1 hreach
      obtain ⟨hlt, hhash⟩ := hhofs hvalid
      have hnext := h.next hlt hhash hnear
      have hnext' := fun hv => And.intro (Nat.lt_trans (hnext hv).1 hlt) (hnext hv).2
      have hlen := hbest.two_le
      split at heq
      · next hcmp =>
        have hagree := agree_of_memcmp hhash hcmp
        rw [show len - 1 + 2 = len + 1 by omega] at hagree
        cases hext : extend_match src inpos hofs (src.length - (inpos + len)) len with
        | mk len₁ stop =>
          obtain ⟨hgrow, hinside, hgoes, hagree₁⟩ :=
            extend_match_spec (by omega) (by omega) hagree hext
          have hmatch : Match src inpos hofs len₁ := ⟨hlt, hnear, by omega, hinside, hagree₁⟩
          rw [hext] at heq
          cases stop with
          | true =>
            cases heq
            exact hmatch
          | false => exact ih hnext' hmatch (hgoes rfl) heq
      · exact ih hnext' hbest hmore heq
    · cases heq
      exact hbest

/-- The chain ends before its fuel. -/
theorem longest_match_fuel {st : State} (h : Linked src (inpos + 1) st) {fuel : Nat}
    (hhofs : hofs ≠ INVALID_OFS → hofs < fuel ∧ hofs < inpos ∧ HASH src hofs = HASH src inpos) :
    longest_match src st.hash_chain inpos (fuel + 1) hofs ofs len =
      longest_match src st.hash_chain inpos fuel hofs ofs len := by
  induction fuel generalizing hofs ofs len with
  | zero =>
    have hinvalid : hofs = INVALID_OFS := by
      by_contra hvalid
      exact absurd (hhofs hvalid).1 (Nat.not_lt_zero _)
    have hreach : ¬ reachable inpos hofs := fun hreach => (reachable_iff.1 hreach).1 hinvalid
    show (if reachable inpos hofs then _ else (ofs, len)) = (ofs, len)
    exact if_neg hreach
  | succ fuel ih =>
    rw [longest_match]
    conv_rhs => rw [longest_match]
    split
    · next hreach =>
      obtain ⟨hvalid, hnear⟩ := reachable_iff.1 hreach
      obtain ⟨hfuel, hlt, hhash⟩ := hhofs hvalid
      have hnext := fun hv => h.next hlt hhash hnear hv
      have hnext' := fun hv => And.intro (Nat.lt_of_lt_of_le (hnext hv).1 (Nat.le_of_lt_succ hfuel))
        (And.intro (Nat.lt_trans (hnext hv).1 hlt) (hnext hv).2)
      split
      · split
        · rfl
        · exact ih hnext'
      · exact ih hnext'
    · rfl

end Matches

/-! ## Compression -/

section Compress

variable {dstlen pos : Nat} {src : List UInt8} {w w' : BitWriter}

/-- The output so far is made of tokens for the first `pos` bytes of the input. -/
structure Written (dstlen : Nat) (src : List UInt8) (pos : Nat) (w : BitWriter) : Prop where
  ok : w.Ok dstlen
  tokens : ∃ tokens : List (Token UInt8), (∀ t ∈ tokens, TokenOk t) ∧
    w.bits = tokens.flatMap tokenBits ∧ expand [] tokens = some (src.take pos)

theorem Written.start (dstlen : Nat) (src : List UInt8) : Written dstlen src 0 {} :=
  ⟨⟨by decide, Nat.zero_le _⟩, [], by simp, rfl, rfl⟩

theorem Written.snoc {pos' : Nat} (h : Written dstlen src pos w) {t : Token UInt8} (ht : TokenOk t)
    (hok : w'.Ok dstlen) (hbits : w'.bits = w.bits ++ tokenBits t)
    (hexpand : ∀ tokens, expand [] tokens = some (src.take pos) →
      expand [] (tokens ++ [t]) = some (src.take pos')) : Written dstlen src pos' w' := by
  obtain ⟨tokens, htokens, hw, htext⟩ := h.tokens
  refine ⟨hok, tokens ++ [t], ?_, ?_, hexpand tokens htext⟩
  · exact forall_mem_append.2 ⟨htokens, forall_mem_singleton.2 ht⟩
  · rw [hbits, hw, flatMap_append, flatMap_singleton]

theorem Written.lit (h : Written dstlen src pos w) (hpos : pos < src.length)
    (hput : put_bits dstlen 9 (src.getD pos 0).toNat w = .ok w') :
    Written dstlen src (pos + 1) w' := by
  have hbyte : (src.getD pos 0).toNat < 2 ^ 8 := UInt8.toNat_lt _
  obtain ⟨hok, hbits⟩ := put_bits_spec (by decide) (by omega) h.ok hput
  exact h.snoc (t := .lit (src.getD pos 0)) trivial hok hbits fun tokens htext =>
    expand_lit htext hpos

theorem Written.copy (h : Written dstlen src pos w) (hsrc : src.length ≤ 2 ^ 16) {ofs len : Nat}
    (hmatch : Match src pos ofs len) {w₁ : BitWriter}
    (hoffset : put_offset dstlen (pos - ofs) w = .ok w₁)
    (hlength : put_length dstlen len w₁ = .ok w') : Written dstlen src (pos + len) w' := by
  obtain ⟨hbefore, hnear, htwo, hinside, hagree⟩ := hmatch
  have hlt : pos - ofs < MAX_HISTORY := by omega
  obtain ⟨hok₁, hbits₁⟩ := put_offset_spec hlt h.ok hoffset
  obtain ⟨hok, hbits⟩ := put_length_spec htwo hok₁ hlength
  have hrepeats : Repeats src pos (pos - ofs) len := by
    refine ⟨hinside, fun i hi => ?_⟩
    rw [show pos - (pos - ofs) = ofs by omega]
    exact hagree i hi
  refine h.snoc (t := .copy (pos - ofs) len) ⟨by omega, hlt, htwo, by omega⟩ hok ?_
    fun tokens htext =>
    expand_copy htext (by omega) (by omega) hrepeats
  rw [hbits, hbits₁, append_assoc]
  rfl

theorem insert_rest_spec (count : Nat) (st : State) (h : Linked src st.inpos st) :
    (st.insert_rest src count).inpos = st.inpos + count ∧
      (st.insert_rest src count).out = st.out ∧
      Linked src (st.inpos + count) (st.insert_rest src count) := by
  induction count generalizing st with
  | zero => exact ⟨rfl, rfl, h⟩
  | succ count ih =>
    have hinsert := h.insert
    obtain ⟨hinpos, hout, hlinked⟩ :=
      ih { st.insert src st.inpos with inpos := st.inpos + 1 }
        ⟨hinsert.table, hinsert.chain⟩
    rw [show st.inpos + (count + 1) = st.inpos + 1 + count by omega]
    exact ⟨hinpos, hout, hlinked⟩

/-- What the loop keeps: the input is written up to `inpos`, and the tables are linked. -/
structure Compressed (dstlen : Nat) (src : List UInt8) (st : State) : Prop where
  written : Written dstlen src st.inpos st.out
  linked : Linked src st.inpos st
  inside : st.inpos ≤ src.length

/-- The position found in the hash table is a match of two bytes. -/
theorem Seen.match_two {hash_table : Nat → Nat} (h : Seen src pos hash_table)
    (hpos : pos + 2 ≤ src.length) (hreach : reachable pos (hash_table (HASH src pos))) :
    Match src pos (hash_table (HASH src pos)) 2 := by
  obtain ⟨hvalid, hnear⟩ := reachable_iff.1 hreach
  obtain ⟨hbefore, hhash⟩ := h _ hvalid
  exact ⟨hbefore, hnear, Nat.le_refl 2, hpos, HASH_inj hhash⟩

/-- One round writes a token, and either keeps the tables linked or is the last one. -/
theorem compress_round_spec (hsrc : src.length ≤ 2 ^ 16) {st st' : State} {stop : Bool}
    (h : Compressed dstlen src st) (hgo : st.inpos + 2 < src.length)
    (hrun : compress_round dstlen src st = .ok (st', stop)) :
    st.inpos < st'.inpos ∧ Written dstlen src st'.inpos st'.out ∧ st'.inpos ≤ src.length ∧
      Seen src st'.inpos st'.hash_table ∧ (stop = false → Linked src st'.inpos st') ∧
      (stop → src.length ≤ st'.inpos + 2) := by
  have hlinked := h.linked.insert
  unfold compress_round at hrun
  dsimp only at hrun
  split at hrun
  · next hreach =>
    have htwo := h.linked.table.match_two (Nat.le_of_lt hgo) hreach
    cases hm : longest_match src (st.insert src st.inpos).hash_chain st.inpos
        (st.hash_table (HASH src st.inpos) + 1) (st.hash_table (HASH src st.inpos))
        (st.hash_table (HASH src st.inpos)) 2 with
    | mk ofs len =>
      rw [hm] at hrun
      have hmatch := longest_match_spec hlinked (h.linked.table _) htwo hgo hm
      have hinside := hmatch.inside
      have hlen := hmatch.two_le
      obtain ⟨w₁, hoffset, hrun₁⟩ := bind_eq_ok.1 hrun
      obtain ⟨w₂, hlength, hrun₂⟩ := bind_eq_ok.1 hrun₁
      have hwritten := h.written.copy hsrc hmatch hoffset hlength
      split at hrun₂
      · next hdone =>
        cases hrun₂
        exact ⟨show st.inpos < st.inpos + len by omega, hwritten, hinside,
          hlinked.table.mono (show st.inpos + 1 ≤ st.inpos + len by omega),
          fun hstop => absurd hstop (by decide), fun _ => hdone⟩
      · cases hrun₂
        obtain ⟨hinpos, hout, hrest⟩ := insert_rest_spec (len - 1)
          { st.insert src st.inpos with inpos := st.inpos + 1, out := w₂ }
          ⟨hlinked.table, hlinked.chain⟩
        have hpos : st.inpos + 1 + (len - 1) = st.inpos + len := by omega
        simp only at hinpos hout hrest
        rw [hpos] at hinpos hrest
        rw [hinpos, hout]
        exact ⟨by omega, hwritten, hinside, hrest.table, fun _ => hrest,
          fun hstop => absurd hstop (by decide)⟩
  · obtain ⟨w₁, hput, hrun₁⟩ := bind_eq_ok.1 hrun
    cases hrun₁
    exact ⟨Nat.lt_succ_self _, h.written.lit (by omega) hput, show st.inpos + 1 ≤ _ by omega,
      hlinked.table, fun _ => ⟨hlinked.table, hlinked.chain⟩, fun hstop => absurd hstop (by decide)⟩

/-- The loop ends near the end of the input, which is written up to there. -/
theorem compress_loop_spec (hsrc : src.length ≤ 2 ^ 16) {fuel : Nat} {st st' : State}
    (h : Compressed dstlen src st) (hfuel : src.length ≤ st.inpos + fuel)
    (hrun : compress_loop dstlen src fuel st = .ok st') :
    Written dstlen src st'.inpos st'.out ∧ Seen src st'.inpos st'.hash_table ∧
      src.length ≤ st'.inpos + 2 ∧ st'.inpos ≤ src.length := by
  induction fuel generalizing st with
  | zero =>
    cases hrun
    exact ⟨h.written, h.linked.table, by omega, h.inside⟩
  | succ fuel ih =>
    rw [compress_loop] at hrun
    split at hrun
    · next hgo =>
      cases hround : compress_round dstlen src st with
      | error e =>
        rw [hround] at hrun
        cases hrun
      | ok x =>
        obtain ⟨st₁, stop⟩ := x
        rw [hround] at hrun
        obtain ⟨hpos, hwritten, hinside, hseen, hlinked, hlast⟩ :=
          compress_round_spec hsrc h hgo hround
        cases stop with
        | true =>
          cases hrun
          exact ⟨hwritten, hseen, hlast rfl, hinside⟩
        | false => exact ih ⟨hwritten, hlinked rfl, hinside⟩ (by omega) hrun
    · cases hrun
      exact ⟨h.written, h.linked.table, by omega, h.inside⟩

theorem compress_tail_spec (hsrc : src.length ≤ 2 ^ 16) {st : State}
    (hwritten : Written dstlen src st.inpos st.out) (hseen : Seen src st.inpos st.hash_table)
    (hend : src.length ≤ st.inpos + 2) (hinside : st.inpos ≤ src.length)
    (hrun : compress_tail dstlen src st = .ok w') : Written dstlen src src.length w' := by
  unfold compress_tail at hrun
  split at hrun
  · next htwo =>
    simp only at hrun
    split at hrun
    · next hreach =>
      obtain ⟨w₁, hoffset, hlength⟩ := bind_eq_ok.1 hrun
      have hmatch := hseen.match_two (Nat.le_of_eq htwo) hreach
      exact htwo ▸ hwritten.copy hsrc hmatch hoffset hlength
    · obtain ⟨w₁, hfirst, hsecond⟩ := bind_eq_ok.1 hrun
      have hlit := (hwritten.lit (by omega) hfirst).lit (by omega) hsecond
      exact htwo ▸ hlit
  · split at hrun
    · next hone => exact hone ▸ hwritten.lit (by omega) hrun
    · cases hrun
      have hall : st.inpos = src.length := by omega
      exact hall ▸ hwritten

/-- The compressor writes tokens of its input, and the end marker. -/
theorem compress_tokens {hash_chain : Nat → Nat} {out : List UInt8}
    (h : lzs_compress hash_chain dstlen src = .ok out) :
    out.length ≤ dstlen ∧ ∃ tokens : List (Token UInt8), (∀ t ∈ tokens, TokenOk t) ∧
      expand [] tokens = some src ∧
      ∃ more, ofBytes out = tokens.flatMap tokenBits ++ (endBits ++ more) := by
  unfold lzs_compress at h
  split at h
  · cases h
  · next hsize =>
    have hsrc : src.length ≤ 2 ^ 16 := by
      simp only [INVALID_OFS] at hsize
      omega
    obtain ⟨st, hloop, h₁⟩ := bind_eq_ok.1 h
    obtain ⟨w, htail, h₂⟩ := bind_eq_ok.1 h₁
    obtain ⟨w', hput, h₃⟩ := bind_eq_ok.1 h₂
    cases h₃
    have hstart : Compressed dstlen src
        { inpos := 0, out := {}, hash_table := fun _ => INVALID_OFS, hash_chain } :=
      ⟨Written.start dstlen src, ⟨fun k hk => absurd rfl hk, fun p hp => absurd hp (by simp)⟩,
        Nat.zero_le _⟩
    obtain ⟨hwritten, hseen, hend, hinside⟩ :=
      compress_loop_spec hsrc hstart (by simp) hloop
    obtain ⟨hok, tokens, htokens, hbits, htext⟩ :=
      compress_tail_spec hsrc hwritten hseen hend hinside htail
    obtain ⟨hok', hbits'⟩ := put_bits_spec (by decide) (by decide) hok hput
    refine ⟨hok'.fits, tokens, htokens, by rw [htext, take_length], ?_⟩
    -- fewer than eight of the trailing zero bits are not in the output
    have hall : ofBytes w'.dst ++ ofNat w'.nr_outbits w'.outbits =
        (tokens.flatMap tokenBits ++ endBits) ++ List.replicate 7 false := by
      have hmarker : ofNat 16 0xc000 = endBits ++ List.replicate 7 false := by decide
      rw [append_assoc, ← hmarker, ← hbits, ← hbits']
      rfl
    have hpending := hok'.pending
    rcases append_eq_append_iff.1 hall with ⟨more, hmarked, hrest⟩ | ⟨more, hout, -⟩
    · have hlen := congrArg List.length hrest
      rw [length_ofNat, length_append, length_replicate] at hlen
      obtain rfl := length_eq_zero_iff.1 (show more.length = 0 by omega)
      exact ⟨[], by rw [append_nil, hmarked, append_nil]⟩
    · exact ⟨more, by rw [hout, append_assoc]⟩

end Compress

/-! ## The round trip -/

/-- What the compressor writes fits into its buffer, and the decompressor makes of it the
input of the compressor. -/
theorem lzs_round_trip (hash_chain : Nat → Nat) (src : List UInt8) (dstlen : Nat)
    {out : List UInt8} (h : lzs_compress hash_chain dstlen src = .ok out) :
    out.length ≤ dstlen ∧ ∀ d, src.length ≤ d → lzs_decompress d out = .ok src := by
  obtain ⟨hfits, tokens, htokens, htext, more, hbits⟩ := compress_tokens h
  refine ⟨hfits, fun d hd => ?_⟩
  have hok : (BitReader.mk out 8).Ok := ⟨by simp, by simp⟩
  exact decompress_tokens htokens htext hd hok ((rest_eight out).trans hbits)

/-- A text that repeats itself. -/
theorem lzs_round_trip_repeats :
    lzs_decompress 9 [48, 152, 176, 90, 99, 192, 0] = .ok [97, 98, 97, 98, 97, 98, 97, 98, 99] :=
  (lzs_round_trip (fun _ => 0) [97, 98, 97, 98, 97, 98, 97, 98, 99] 16 (by decide +kernel)).2 9
    (by decide)

end Ocserv.Lzs

import Ocserv.Ipc
import Mathlib.Algebra.GroupWithZero.Nat
import Mathlib.Order.MinMax

/-!
# The framing of the messages between the processes

The payload is read in a loop and does not depend on the cuts of the stream.  The header is
read with one call, and a message is sent with one call, and neither looks at a short count: the
length of a message is then partly what the memory of the receiver happens to hold, and the
next header is read from the middle of a message.  The messages arrive whatever the memory holds
if and only if every message is sent with one call, every header is read with one call and
every length fits into an `int`.
-/

namespace Ocserv

open List Option

attribute [local irreducible] as_int as_uint32

variable {count : Nat} {m : IpcMsg} {env : RecvEnv} {mem : RecvMem} {s rest : List Cell}

/-! ## Lengths -/

theorem word32_lt (l : List UInt8) : word32 l < 4294967296 := by
  unfold word32
  split
  · next a b c d =>
    have ha := a.toNat_lt
    have hb := b.toNat_lt
    have hc := c.toNat_lt
    have hd := d.toNat_lt
    omega
  · decide

variable {n fuel : Nat} {l payload : List UInt8} {cmd : UInt8} {socketfd : Bool}
  {unpack : List UInt8 → Bool} {counts : Nat → Nat}

theorem word32_bytes32 (h : n < 4294967296) : word32 (bytes32 n) = n := by
  simp only [bytes32, word32, UInt8.toNat_ofNat']
  omega

theorem exists_bytes_of_length (h : l.length = 4) :
    ∃ a b c d, l = [a, b, c, d] := by
  obtain ⟨a, l, rfl⟩ := exists_cons_of_length_eq_add_one h
  obtain ⟨b, l, rfl⟩ := exists_cons_of_length_eq_add_one (Nat.succ.inj h)
  obtain ⟨c, l, rfl⟩ := exists_cons_of_length_eq_add_one (Nat.succ.inj (Nat.succ.inj h))
  obtain ⟨d, rfl⟩ := length_eq_one_iff.1 (Nat.succ.inj (Nat.succ.inj (Nat.succ.inj h)))
  exact ⟨a, b, c, d, rfl⟩

theorem word32_inj {l' : List UInt8} (hl : l.length = 4) (hl' : l'.length = 4)
    (h : word32 l = word32 l') : l = l' := by
  obtain ⟨a, b, c, d, rfl⟩ := exists_bytes_of_length hl
  obtain ⟨a', b', c', d', rfl⟩ := exists_bytes_of_length hl'
  simp only [word32] at h
  have ha := a.toNat_lt
  have hb := b.toNat_lt
  have hc := c.toNat_lt
  have ha' := a'.toNat_lt
  have hb' := b'.toNat_lt
  have hc' := c'.toNat_lt
  obtain rfl : a = a' := UInt8.toNat_inj.1 (by omega)
  obtain rfl : b = b' := UInt8.toNat_inj.1 (by omega)
  obtain rfl : c = c' := UInt8.toNat_inj.1 (by omega)
  obtain rfl : d = d' := UInt8.toNat_inj.1 (by omega)
  rfl

theorem zero_ne_one : (0 : UInt8) ≠ 1 := by decide

/-- A length that does not depend on the memory has been read as a whole. -/
theorem le_length_of_word32 {got : List UInt8} (h : ∀ mem, word32 (Reads.filled got mem 4) = n) :
    4 ≤ got.length := by
  refine Reads.le_length_of_filled zero_ne_one (l := Reads.filled got (fun _ => 0) 4) fun mem => ?_
  exact word32_inj (Reads.length_filled _ _ _) (Reads.length_filled _ _ _)
    ((h mem).trans (h _).symm)

theorem as_int_neg (hn : n < 4294967296) : as_int n < 0 ↔ 2147483648 ≤ n := by
  unfold as_int
  split <;> omega

theorem as_int_of_lt (h : n < 2147483648) : as_int n = n := by
  rw [as_int, if_pos h]

/-- The comparison never sees an error. -/
theorem not_as_uint32_lt (hn : n < 4294967296) {ret : Int} (hret : ret = as_int n ∨ ret = -1) :
    ¬ as_uint32 ret < n := by
  unfold as_uint32
  unfold as_int at hret
  split <;> split at hret <;> omega

/-! ## Reading -/

/-- What the receiver makes of the header, complete or not. -/
theorem recv_header_spec (count : Nat) (hs : s ≠ []) : ∃ c got rest, s = c :: got ++ rest ∧
    got.length ≤ 4 ∧ (4 ≤ got.length → 5 ≤ count) ∧ ∀ mem, recv_header count mem s =
      (some ⟨c.1, word32 (Reads.filled (got.map Prod.fst) mem 4), (c :: got).filterMap Prod.snd⟩,
        rest) := by
  have honce := Reads.once_eq 5 count s
  generalize hn : min 5 (max 1 count) = n at honce
  have hlength : (s.take n).length ≤ n := length_take_le n s
  cases htake : s.take n with
  | nil =>
    rcases take_eq_nil_iff.1 htake with hzero | hnil
    · omega
    · exact absurd hnil hs
  | cons c got =>
    rw [htake, length_cons] at hlength
    refine ⟨c, got, s.drop n, ?_, by omega, fun hfour => by omega, fun mem => ?_⟩
    · rw [← htake, take_append_drop]
    · rw [recv_header, honce, htake]

/-- The loop reads what the stream has. -/
theorem force_read_timeout_eq (reads : Nat → Nat) (len : Nat) (s : List Cell) :
    force_read_timeout reads len s =
      if as_int len < 0 then (as_int len, [], s)
      else (if len ≤ s.length then as_int len else -1, (s.take len).map Prod.fst, s.drop len) := by
  unfold force_read_timeout
  split
  · rfl
  · rw [Reads.loop_eq (Nat.le_refl len)]
    simp only [length_take, min_eq_left_iff]

theorem force_read_timeout_ret (reads : Nat → Nat) (len : Nat) (s : List Cell) :
    (force_read_timeout reads len s).1 = as_int len ∨ (force_read_timeout reads len s).1 = -1 := by
  rw [force_read_timeout_eq]
  split
  · exact .inl rfl
  · dsimp only
    split
    · exact .inl rfl
    · exact .inr rfl

/-- A payload that does not depend on the memory has been read as a whole. -/
theorem force_read_timeout_exact {reads : Nat → Nat} {len : Nat} (hlen : len < 4294967296)
    (h : ∀ mem, Reads.filled (force_read_timeout reads len s).2.1 mem len = payload) :
    len < 2147483648 ∧ len ≤ s.length ∧ (force_read_timeout reads len s).2.2 = s.drop len := by
  have hle := Reads.le_length_of_filled zero_ne_one h
  rw [force_read_timeout_eq] at hle ⊢
  split at hle
  · next hneg =>
    rw [as_int_neg hlen] at hneg
    rw [length_nil] at hle
    omega
  · next hneg =>
    rw [if_neg hneg]
    rw [as_int_neg hlen] at hneg
    rw [length_map, length_take] at hle
    exact ⟨by omega, by omega, rfl⟩

/-! ## What a receiver accepts -/

/-- The call is for messages such as this one. -/
def Receiver.Accepts (m : IpcMsg) : Receiver → Prop
  | .recv_msg cmd unpack =>
    cmd = m.cmd ∧ m.socketfd = none ∧ (m.payload ≠ [] → unpack m.payload)
  | .recv_socket_msg cmd unpack => cmd = m.cmd ∧ (m.payload ≠ [] → unpack m.payload)
  | .recv_request buffer_size => m.socketfd = none ∧ m.payload.length ≤ buffer_size
  | .recv_msg_data data_size received_fd =>
    (received_fd = false → m.socketfd = none) ∧ m.payload.length ≤ data_size

/-- What a call that returns a message has done. -/
structure Receiver.Took (call : Receiver) (env : RecvEnv) (mem : RecvMem) (s : List Cell)
    (m : IpcMsg) (rest : List Cell) : Prop where
  accepts : call.Accepts m
  read : ∃ h s₁, recv_header env.header mem.length s = (some h, s₁) ∧
    h.length = m.payload.length ∧
    m.payload = Reads.filled (force_read_timeout env.reads h.length s₁).2.1 mem.data h.length ∧
    rest = (force_read_timeout env.reads h.length s₁).2.2

theorem force_read_timeout_zero (reads : Nat → Nat) (s : List Cell) :
    (force_read_timeout reads 0 s).2.2 = s := by
  rw [force_read_timeout_eq, if_neg (by rw [as_int_neg] <;> decide)]
  rfl

theorem recv_header_length {bytes : Nat → UInt8} {h : MsgHeader}
    (hheader : recv_header n bytes s = (some h, rest)) : h.length < 4294967296 := by
  unfold recv_header at hheader
  split at hheader
  · cases hheader
  · obtain ⟨heq, -⟩ := Prod.mk.inj hheader
    cases heq
    dsimp only
    exact word32_lt _

variable {call : Receiver}

theorem recv_socket_msg_took
    (hrecv : recv_socket_msg cmd socketfd true unpack env mem s = (.ok m, rest))
    (haccepts : cmd = m.cmd → (socketfd = false → m.socketfd = none) →
      (m.payload ≠ [] → unpack m.payload) → call.Accepts m) :
    call.Took env mem s m rest := by
  unfold recv_socket_msg at hrecv
  split at hrecv
  · cases hrecv
  · next h s₁ hheader =>
    have hlength := recv_header_length hheader
    split at hrecv
    · cases hrecv
    · next hcmd =>
      have hfd : ∀ {fd}, m.socketfd = (if socketfd then h.fd else none) → fd = false →
          socketfd = fd → m.socketfd = none := by
        intro fd heq hfalse hsame
        rw [heq, hsame, hfalse]
        rfl
      dsimp only at hrecv
      split at hrecv
      · split at hrecv
        · cases hrecv
        · split at hrecv
          · next hunpack =>
            obtain ⟨heq, rfl⟩ := Prod.mk.inj hrecv
            obtain rfl := Except.ok.inj heq
            refine ⟨haccepts (Decidable.not_not.1 hcmd).symm (fun h => hfd rfl h rfl)
              fun _ => hunpack, h, s₁, hheader, ?_, rfl, rfl⟩
            exact (Reads.length_filled _ _ _).symm
          · cases hrecv
      · next hempty =>
        obtain ⟨heq, rfl⟩ := Prod.mk.inj hrecv
        obtain rfl := Except.ok.inj heq
        have hzero : h.length = 0 := by
          rw [not_and_or] at hempty
          exact Nat.eq_zero_of_not_pos (hempty.resolve_right fun hne => hne rfl)
        refine ⟨haccepts (Decidable.not_not.1 hcmd).symm (fun h => hfd rfl h rfl)
          fun hne => absurd rfl hne, h, s₁, hheader, hzero, ?_, ?_⟩
        · rw [hzero]
          rfl
        · rw [hzero, force_read_timeout_zero]

theorem recv_request_took {buffer_size : Nat}
    (hrecv : recv_request buffer_size env mem s = (.ok m, rest)) :
    (Receiver.recv_request buffer_size).Took env mem s m rest := by
  unfold recv_request recv_msg_headers at hrecv
  cases hheader : recv_header env.header mem.length s with
  | mk header s₁ =>
    cases header with
    | none =>
      rw [hheader] at hrecv
      cases hrecv
    | some h =>
      have hlength := recv_header_length hheader
      rw [hheader] at hrecv
      dsimp only at hrecv
      split at hrecv
      · cases hrecv
      · next hpos =>
        rw [as_int_neg hlength, Nat.not_le] at hpos
        rw [as_int_of_lt hpos, Int.toNat_natCast] at hrecv
        split at hrecv
        · cases hrecv
        · next hsize =>
          split at hrecv
          · cases hrecv
          · next hret =>
            have hret' : (force_read_timeout env.reads h.length s₁).1 = h.length := by
              rcases force_read_timeout_ret env.reads h.length s₁ with heq | heq
              · rw [heq, as_int_of_lt hpos]
              · rw [heq] at hret
                exact absurd (by decide) hret
            obtain ⟨heq, rfl⟩ := Prod.mk.inj hrecv
            obtain rfl := Except.ok.inj heq
            rw [hret', Int.toNat_natCast]
            refine ⟨⟨rfl, ?_⟩, h, s₁, hheader, (Reads.length_filled _ _ _).symm, rfl, rfl⟩
            rw [Reads.length_filled]
            exact Nat.le_of_not_lt hsize

theorem recv_msg_data_took {data_size : Nat} {received_fd : Bool}
    (hrecv : recv_msg_data data_size received_fd env mem s = (.ok m, rest)) :
    (Receiver.recv_msg_data data_size received_fd).Took env mem s m rest := by
  unfold recv_msg_data at hrecv
  split at hrecv
  · cases hrecv
  · next h s₁ hheader =>
    dsimp only at hrecv
    split at hrecv
    · cases hrecv
    · next hsize =>
      split at hrecv
      · cases hrecv
      · split at hrecv
        · cases hrecv
        · obtain ⟨heq, rfl⟩ := Prod.mk.inj hrecv
          obtain rfl := Except.ok.inj heq
          refine ⟨⟨fun hfalse => ?_, ?_⟩, h, s₁, hheader, (Reads.length_filled _ _ _).symm, rfl,
            rfl⟩
          · subst hfalse
            rfl
          · rw [Reads.length_filled]
            exact Nat.le_of_not_lt hsize

theorem Receiver.took (hrecv : call.recv env mem s = (.ok m, rest)) :
    call.Took env mem s m rest := by
  cases call with
  | recv_msg cmd unpack =>
    exact recv_socket_msg_took hrecv fun hcmd hfd hunpack => ⟨hcmd, hfd rfl, hunpack⟩
  | recv_socket_msg cmd unpack =>
    exact recv_socket_msg_took hrecv fun hcmd _ hunpack => ⟨hcmd, hunpack⟩
  | recv_request buffer_size => exact recv_request_took hrecv
  | recv_msg_data data_size received_fd => exact recv_msg_data_took hrecv

/-- A call that returns the message whatever the memory holds has read it as a whole. -/
theorem Receiver.exact_of_forall (h : ∀ mem, ∃ rest, call.recv env mem s = (.ok m, rest)) :
    5 ≤ env.header ∧ m.payload.length < 2147483648 ∧ call.Accepts m ∧
      m.payload.length + 5 ≤ s.length ∧
      ∀ mem, call.recv env mem s = (.ok m, s.drop (m.payload.length + 5)) := by
  have htook : ∀ mem, ∃ rest, call.recv env mem s = (.ok m, rest) ∧ call.Took env mem s m rest := by
    intro mem
    obtain ⟨rest, hrecv⟩ := h mem
    exact ⟨rest, hrecv, took hrecv⟩
  obtain ⟨_, -, haccepts, hread⟩ := htook ⟨fun _ => 0, fun _ => 0⟩
  have hs : s ≠ [] := by
    intro hnil
    obtain ⟨header, s₁, hheader, -⟩ := hread
    rw [hnil] at hheader
    cases hheader
  obtain ⟨c, got, s₁, rfl, hgot, hcount, hheader⟩ := recv_header_spec env.header hs
  -- the header has been read as a whole, since its length is that of the payload
  have hlength : ∀ bytes, word32 (Reads.filled (got.map Prod.fst) bytes 4) = m.payload.length := by
    intro bytes
    obtain ⟨rest, -, -, header, s₂, heq, hlength, -⟩ := htook ⟨bytes, fun _ => 0⟩
    rw [hheader] at heq
    obtain ⟨heq, -⟩ := Prod.mk.inj heq
    cases heq
    exact hlength
  have hfour : 4 ≤ got.length := by
    have := le_length_of_word32 hlength
    rwa [length_map] at this
  -- and so has the payload, since it is the same for every content of the buffer
  have hpayload : ∀ mem, ∃ rest, call.recv env mem (c :: got ++ s₁) = (.ok m, rest) ∧
      m.payload = Reads.filled (force_read_timeout env.reads m.payload.length s₁).2.1 mem.data
        m.payload.length ∧ rest = (force_read_timeout env.reads m.payload.length s₁).2.2 := by
    intro mem
    obtain ⟨rest, hrecv, -, header, s₂, heq, hlen, hdata, hrest⟩ := htook mem
    rw [hheader] at heq
    cases heq
    rw [hlen] at hdata hrest
    exact ⟨rest, hrecv, hdata, hrest⟩
  obtain ⟨hsmall, hle, hrest⟩ := force_read_timeout_exact (hlength (fun _ => 0) ▸ word32_lt _)
    fun data => (hpayload ⟨fun _ => 0, data⟩).elim fun _ h => h.2.1.symm
  have hfive : (c :: got).length = 5 := by
    rw [length_cons]
    omega
  refine ⟨hcount hfour, hsmall, haccepts, ?_, fun mem => ?_⟩
  · rw [length_append, hfive]
    omega
  · obtain ⟨rest, hrecv, -, rfl⟩ := hpayload mem
    rw [hrecv, hrest, Nat.add_comm, ← hfive, ← drop_drop, drop_left]

/-! ## Whole messages -/

theorem recv_header_cells (hheader : 5 ≤ env.header) (hsmall : m.payload.length < 2147483648)
    (bytes : Nat → UInt8) (rest : List Cell) : recv_header env.header bytes (m.cells ++ rest) =
      (some ⟨m.cmd, m.payload.length, m.socketfd.toList⟩,
        m.payload.map (fun b => (b, none)) ++ rest) := by
  have hword : word32 (Reads.filled (bytes32 m.payload.length) bytes 4) = m.payload.length := by
    rw [show 4 = (bytes32 m.payload.length).length from rfl, Reads.filled_length]
    exact word32_bytes32 (by omega)
  rw [recv_header, Reads.once_of_le hheader]
  show (some (⟨m.cmd, word32 (Reads.filled (bytes32 m.payload.length) bytes 4), _⟩ : MsgHeader),
    m.payload.map (fun b => (b, none)) ++ rest) = _
  rw [hword]
  cases m.socketfd <;> rfl

theorem force_read_timeout_payload (reads : Nat → Nat) (hsmall : payload.length < 2147483648)
    (rest : List Cell) :
    force_read_timeout reads payload.length (payload.map (fun b => (b, none)) ++ rest) =
      ((payload.length : Int), payload, rest) := by
  have hpos : ¬ as_int payload.length < 0 := by
    rw [as_int_neg] <;> omega
  rw [force_read_timeout_eq, if_neg hpos, as_int_of_lt hsmall, if_pos (by simp)]
  simp [Function.comp_def]

theorem recv_socket_msg_cells (hheader : 5 ≤ env.header) (hsmall : m.payload.length < 2147483648)
    (hcmd : cmd = m.cmd) (hfd : socketfd = false → m.socketfd = none)
    (hunpack : m.payload ≠ [] → unpack m.payload) (mem : RecvMem) (rest : List Cell) :
    recv_socket_msg cmd socketfd true unpack env mem (m.cells ++ rest) = (.ok m, rest) := by
  have htaken : (if socketfd then
      (⟨m.cmd, m.payload.length, m.socketfd.toList⟩ : MsgHeader).fd else none) = m.socketfd := by
    cases socketfd with
    | false => exact (hfd rfl).symm
    | true => cases m.socketfd <;> rfl
  simp only [recv_socket_msg, recv_header_cells hheader hsmall, hcmd, htaken, ne_eq,
    not_true_eq_false, if_false, and_true]
  by_cases hempty : m.payload = []
  · have hm : ({ cmd := m.cmd, payload := [], socketfd := m.socketfd } : IpcMsg) = m := by
      rw [← hempty]
    rw [if_neg (by simp [hempty]), hm, hempty]
    rfl
  · have hret : ¬ as_uint32 (m.payload.length : Int) < m.payload.length :=
      not_as_uint32_lt (by omega) (.inl (as_int_of_lt hsmall).symm)
    rw [if_pos (length_pos_iff.2 hempty), force_read_timeout_payload _ hsmall]
    simp only [hret, if_false, Reads.filled_length, hunpack hempty, if_true]

/-- A whole message is received as it was sent. -/
theorem Receiver.recv_cells (hheader : 5 ≤ env.header) (hsmall : m.payload.length < 2147483648)
    (haccepts : call.Accepts m) (mem : RecvMem) (rest : List Cell) :
    call.recv env mem (m.cells ++ rest) = (.ok m, rest) := by
  have hpos : ¬ ((m.payload.length : Int) < 0) := by omega
  cases call with
  | recv_msg cmd unpack =>
    obtain ⟨hcmd, hfd, hunpack⟩ := haccepts
    exact recv_socket_msg_cells hheader hsmall hcmd (fun _ => hfd) hunpack mem rest
  | recv_socket_msg cmd unpack =>
    obtain ⟨hcmd, hunpack⟩ := haccepts
    refine recv_socket_msg_cells hheader hsmall hcmd (fun hfalse => ?_) hunpack mem rest
    cases hfalse
  | recv_request buffer_size =>
    obtain ⟨hfd, hsize⟩ := haccepts
    have hm : ({ cmd := m.cmd, payload := m.payload, socketfd := none } : IpcMsg) = m := by
      rw [← hfd]
    simp only [recv, Ocserv.recv_request, recv_msg_headers, recv_header_cells hheader hsmall,
      as_int_of_lt hsmall, hpos, if_false, Int.toNat_natCast, Nat.not_lt.2 hsize,
      force_read_timeout_payload _ hsmall, Reads.filled_length, hm]
  | recv_msg_data data_size received_fd =>
    obtain ⟨hfd, hsize⟩ := haccepts
    have hret : ¬ as_uint32 (m.payload.length : Int) < m.payload.length :=
      not_as_uint32_lt (by omega) (.inl (as_int_of_lt hsmall).symm)
    have htaken : (if received_fd then
        (⟨m.cmd, m.payload.length, m.socketfd.toList⟩ : MsgHeader).fd else none) =
          m.socketfd := by
      cases received_fd with
      | false => exact (hfd rfl).symm
      | true => cases m.socketfd <;> rfl
    simp only [recv, Ocserv.recv_msg_data, recv_header_cells hheader hsmall,
      as_int_of_lt hsmall, hpos,
      if_false, Nat.not_lt.2 hsize, force_read_timeout_payload _ hsmall, hret,
      Reads.filled_length, htaken]

/-! ## Sequences of messages -/

/-- The message is sent with one call, its header is read with one call, its length fits into
an `int`, and the call is for messages such as this one. -/
structure IpcMsg.Whole (m : IpcMsg) (count : Nat) (call : Receiver) (env : RecvEnv) : Prop where
  sent : m.payload.length + 5 ≤ count
  header : 5 ≤ env.header
  small : m.payload.length < 2147483648
  accepts : call.Accepts m

theorem IpcMsg.length_cells (m : IpcMsg) : m.cells.length = m.payload.length + 5 := by
  simp [cells, bytes32]

theorem IpcMsg.send_eq (m : IpcMsg) (count : Nat) : (m.send count).2 =
    if UINT32_MAX ≤ m.payload.length then []
    else m.cells.take (min m.cells.length (max 1 count)) := by
  obtain ⟨cmd, payload, socketfd⟩ := m
  cases socketfd with
  | none | some socketfd =>
    simp only [send, send_msg, send_socket_msg, Reads.once_eq]
    split <;> rfl

theorem IpcMsg.Whole.send {call : Receiver} (h : m.Whole count call env) :
    (m.send count).2 = m.cells := by
  have hsmall : ¬ UINT32_MAX ≤ m.payload.length := by
    have := h.small
    unfold UINT32_MAX
    omega
  have hsent : m.cells.length ≤ max 1 count := by
    have := h.sent
    rw [m.length_cells]
    omega
  rw [send_eq, if_neg hsmall, Nat.min_eq_left hsent, take_length]

theorem IpcMsg.length_send_le (m : IpcMsg) (count : Nat) :
    (m.send count).2.length ≤ m.payload.length + 5 := by
  rw [send_eq, ← m.length_cells]
  split
  · exact Nat.zero_le _
  · exact length_take_le' _ _

/-- As many bytes as the message has are sent with one call only. -/
theorem IpcMsg.le_count_of_length_send (h : (m.send count).2.length = m.payload.length + 5) :
    m.payload.length + 5 ≤ count := by
  rw [send_eq] at h
  split at h
  · cases h
  · rw [length_take, m.length_cells] at h
    omega

theorem length_send_all_le (counts : Nat → Nat) (msgs : List IpcMsg) :
    (send_all counts msgs).length ≤ (msgs.map (·.payload.length + 5)).sum := by
  induction msgs generalizing counts with
  | nil => exact Nat.le_refl 0
  | cons m msgs ih =>
    rw [send_all, length_append, map_cons, sum_cons]
    exact Nat.add_le_add (m.length_send_le _) (ih _)

/-- If no byte is missing at the end, none is missing anywhere. -/
theorem le_counts_of_length_send_all {msgs : List IpcMsg}
    (h : (send_all counts msgs).length = (msgs.map (·.payload.length + 5)).sum) :
    ∀ i m, msgs[i]? = some m → m.payload.length + 5 ≤ counts i := by
  induction msgs generalizing counts with
  | nil => exact fun i m hm => nomatch hm
  | cons m msgs ih =>
    rw [send_all, length_append, map_cons, sum_cons] at h
    have hfirst := m.length_send_le (counts 0)
    have hrest := length_send_all_le (fun i => counts (i + 1)) msgs
    intro i m' hm'
    cases i with
    | zero =>
      obtain rfl : m = m' := some.inj hm'
      exact IpcMsg.le_count_of_length_send (by omega)
    | succ i =>
      have hlast : (send_all (fun i => counts (i + 1)) msgs).length =
          (msgs.map (·.payload.length + 5)).sum := by omega
      exact ih hlast i m' hm'

variable {msgs : List IpcMsg} {calls : Nat → Receiver} {envs : Nat → RecvEnv}

theorem recv_all_succ (fuel : Nat) (mems : Nat → RecvMem) (hs : s ≠ []) :
    (∃ e rest, (calls 0).recv (envs 0) (mems 0) s = (.error e, rest) ∧
      recv_all (fuel + 1) calls envs mems s = [.error e]) ∨
    ∃ m rest, (calls 0).recv (envs 0) (mems 0) s = (.ok m, rest) ∧
      recv_all (fuel + 1) calls envs mems s =
        .ok m :: recv_all fuel (fun i => calls (i + 1)) (fun i => envs (i + 1))
          (fun i => mems (i + 1)) rest := by
  obtain ⟨c, s, rfl⟩ := List.exists_cons_of_ne_nil hs
  cases hrecv : (calls 0).recv (envs 0) (mems 0) (c :: s) with
  | mk result rest =>
    cases result with
    | error e => exact .inl ⟨e, rest, rfl, by simp only [recv_all, hrecv]⟩
    | ok m => exact .inr ⟨m, rest, rfl, by simp only [recv_all, hrecv]⟩

/-- Whole messages are received one after the other. -/
theorem recv_all_whole
    (h : ∀ (i : Nat) (m : IpcMsg), msgs[i]? = some m → m.Whole (counts i) (calls i) (envs i))
    (hfuel : (send_all counts msgs).length ≤ fuel) (mems : Nat → RecvMem) :
    recv_all fuel calls envs mems (send_all counts msgs) = msgs.map .ok := by
  induction msgs generalizing counts calls envs fuel mems with
  | nil => cases fuel <;> rfl
  | cons m msgs ih =>
    have hwhole := h 0 m rfl
    have hall :
        send_all counts (m :: msgs) = m.cells ++ send_all (fun i => counts (i + 1)) msgs := by
      rw [send_all, hwhole.send]
    rw [hall, length_append, m.length_cells] at hfuel
    obtain ⟨fuel, rfl⟩ : ∃ n, fuel = n + 1 := ⟨fuel - 1, by omega⟩
    have hrecv := Receiver.recv_cells hwhole.header hwhole.small hwhole.accepts (mems 0)
      (send_all (fun i => counts (i + 1)) msgs)
    have hleft : (send_all (fun i => counts (i + 1)) msgs).length ≤ fuel := by omega
    have hrest := ih (fun i m' hm' => h (i + 1) m' hm') hleft (fun i => mems (i + 1))
    have hne : m.cells ++ send_all (fun i => counts (i + 1)) msgs ≠ [] := by simp [IpcMsg.cells]
    rw [hall, map_cons, ← hrest]
    rcases recv_all_succ fuel mems hne with ⟨e, rest, herror, -⟩ | ⟨m', rest, hok, hall⟩
    · rw [hrecv] at herror
      cases herror
    · rw [hrecv] at hok
      obtain ⟨heq, rfl⟩ := Prod.mk.inj hok
      obtain rfl := Except.ok.inj heq
      exact hall

/-- Messages that are received whatever the memory holds have been read as a whole, and so has
the stream. -/
theorem whole_of_recv_all (hfuel : s.length ≤ fuel)
    (h : ∀ mems, recv_all fuel calls envs mems s = msgs.map .ok) :
    s.length = (msgs.map (·.payload.length + 5)).sum ∧
      ∀ i m, msgs[i]? = some m → 5 ≤ (envs i).header ∧ m.payload.length < 2147483648 ∧
        (calls i).Accepts m := by
  induction msgs generalizing s calls envs fuel with
  | nil =>
    refine ⟨?_, fun i m hm => nomatch hm⟩
    cases s with
    | nil => rfl
    | cons c s =>
      obtain ⟨fuel, rfl⟩ : ∃ n, fuel = n + 1 := ⟨fuel - 1, by rw [length_cons] at hfuel; omega⟩
      rcases recv_all_succ fuel (fun _ => ⟨fun _ => 0, fun _ => 0⟩) (List.cons_ne_nil c s) with
        ⟨e, rest, -, hall⟩ | ⟨m, rest, -, hall⟩
      · cases hall.symm.trans (h _)
      · cases hall.symm.trans (h _)
  | cons m msgs ih =>
    have hfirst : ∀ mems : Nat → RecvMem, ∃ rest,
        (calls 0).recv (envs 0) (mems 0) s = (.ok m, rest) ∧
        recv_all (fuel - 1) (fun i => calls (i + 1)) (fun i => envs (i + 1))
          (fun i => mems (i + 1)) rest = msgs.map .ok := by
      intro mems
      cases fuel with
      | zero => cases h mems
      | succ fuel =>
        have hs : s ≠ [] := by
          rintro rfl
          cases h mems
        rcases recv_all_succ fuel mems hs with ⟨e, rest, -, hall⟩ | ⟨m', rest, hrecv, hall⟩
        · cases hall.symm.trans (h mems)
        · rw [h mems, map_cons, List.cons.injEq] at hall
          obtain rfl := Except.ok.inj hall.1
          exact ⟨rest, hrecv, hall.2.symm⟩
    obtain ⟨hheader, hsmall, haccepts, hle, hexact⟩ := Receiver.exact_of_forall fun mem =>
      (hfirst fun _ => mem).imp fun _ hrest => hrest.1
    have hrest : ∀ mems, recv_all (fuel - 1) (fun i => calls (i + 1)) (fun i => envs (i + 1)) mems
        (s.drop (m.payload.length + 5)) = msgs.map .ok := by
      intro mems
      -- what the memory holds at the first call makes no difference
      obtain ⟨rest, hrecv, hlast⟩ := hfirst fun i => mems (i - 1)
      rw [hexact] at hrecv
      cases hrecv
      exact hlast
    obtain ⟨hlength, hwhole⟩ := ih (by rw [length_drop]; omega) hrest
    refine ⟨?_, fun i m' hm' => ?_⟩
    · rw [length_drop] at hlength
      rw [map_cons, sum_cons]
      omega
    · cases i with
      | zero =>
        obtain rfl : m = m' := some.inj hm'
        exact ⟨hheader, hsmall, haccepts⟩
      | succ i => exact hwhole i m' hm'

/-- The messages that are sent are the messages that are received, whatever the memory of the
receiver holds, if and only if each of them is whole. -/
theorem ipc_messages_received_iff (msgs : List IpcMsg) (counts : Nat → Nat)
    (calls : Nat → Receiver) (envs : Nat → RecvEnv) :
    (∀ mems, recv_all (send_all counts msgs).length calls envs mems (send_all counts msgs) =
      msgs.map .ok) ↔
      ∀ (i : Nat) (m : IpcMsg), msgs[i]? = some m → m.Whole (counts i) (calls i) (envs i) := by
  refine ⟨fun h i m hm => ?_, fun h mems => recv_all_whole h (Nat.le_refl _) mems⟩
  obtain ⟨hlength, hwhole⟩ := whole_of_recv_all (Nat.le_refl _) h
  obtain ⟨hheader, hsmall, haccepts⟩ := hwhole i m hm
  exact ⟨le_counts_of_length_send_all hlength i m hm, hheader, hsmall, haccepts⟩

/-- The kernel hands over three bytes of a header, and the memory holds zeros: the rest of the
header is taken for the payload, and the rest of the payload for the next request. -/
theorem payload_taken_for_header :
    ∃ (msgs : List IpcMsg) (counts : Nat → Nat) (calls : Nat → Receiver) (envs : Nat → RecvEnv)
      (mems : Nat → RecvMem), (∀ i m, msgs[i]? = some m → m.payload.length + 5 ≤ counts i ∧
        m.payload.length < 2147483648 ∧ (calls i).Accepts m) ∧
      msgs = [{ cmd := 1, payload := [2, 9, 0] }] ∧
      recv_all (send_all counts msgs).length calls envs mems (send_all counts msgs) =
        [.ok { cmd := 1, payload := [0, 0, 2] }, .ok { cmd := 9, payload := [] }] := by
  refine ⟨_, fun _ => 8, fun _ => .recv_request 100, fun i => ⟨if i = 0 then 3 else 5, fun _ => 8⟩,
    fun _ => ⟨fun _ => 0, fun _ => 0⟩, fun i m hm => ?_, rfl, by decide +kernel⟩
  cases i with
  | zero =>
    cases hm
    exact ⟨Nat.le_refl 8, by decide, rfl, by decide⟩
  | succ i => cases hm

end Ocserv

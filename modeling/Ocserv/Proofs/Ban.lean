import Mathlib.Data.Set.Card
import Ocserv.Main.Ban
import Ocserv.Proofs.Addresses

/-!
# What the ban list does to an address

A call concerns one aggregated address, the address of an IPv4 client or the /64
network of an IPv6 client, and acts on the entry of that address alone
(`Bans.call_find`).  Two results rest on this:

* `ban_semantics`: what is kept for an address follows a reference automaton, `Standing`,
  which says what the list is for: points are collected in periods, and enough of them in
  one period ban the address for a fixed time;
* `cleanup_unobservable`: taking entries out with `cleanup_banned_entries` changes no later
  answer, as long as no ban ends in the very second of the clean-up.
-/

namespace Ocserv

open HTable List Option

/-! ## Entries -/

/-- What a call does to the entry of an address. -/
inductive BanOp
  | points (n : Nat)
  | unban
  | cleanup
deriving DecidableEq, Repr

namespace BanEntry

/-- The entry of an address after `n` more points. -/
def next (c : BanCfg) (now : Int) (ip : List UInt8) (n : Nat) (old : Option BanEntry) : BanEntry :=
  ((old.map (reset c now)).getD (fresh ip now)).count c now n

/-- The entry of an address after an unban. -/
def clear (e : BanEntry) : BanEntry := { e with score := 0, expires := 0 }

/-- Clean-up takes such entries out. -/
def idle (c : BanCfg) (now : Int) (e : BanEntry) : Bool :=
  now ≥ e.expires && now > e.last_reset + c.ban_reset_time

variable {c : BanCfg} {now : Int} {ip : List UInt8} {n : Nat} {e : BanEntry}

@[simp] theorem ip_count : (e.count c now n).ip = e.ip := rfl

@[simp] theorem ip_reset : (e.reset c now).ip = e.ip := by
  unfold reset
  split <;> rfl

theorem ip_next {old : Option BanEntry} (h : ∀ e ∈ old, e.ip = ip) :
    (next c now ip n old).ip = ip := by
  cases old with
  | none => rfl
  | some e => simpa [next] using h e rfl

/-- Points are not lost to an overflow: a score never decreases. -/
theorem le_score_count : e.score ≤ (e.count c now n).score := by
  simp only [count]
  split <;> omega

end BanEntry

def BanOp.apply (c : BanCfg) (now : Int) (ip : List UInt8) :
    BanOp → Option BanEntry → Option BanEntry
  | .points n, old => some (.next c now ip n old)
  | .unban, old => old.map BanEntry.clear
  | .cleanup, old => old.filter fun e => !e.idle c now

/-! ## Calls -/

/-- The calls of the ban list, by workers and sec-mod, by the accepting loop, by `occtl`
and by the maintenance timer. -/
inductive BanCall
  | add (ip : Option CStr) (score : Nat)
  | check (addr : SockBuf)
  | unban (ip : List UInt8)
  | cleanup
deriving DecidableEq, Repr

/-- A `sockaddr_storage` with an IPv4 or an IPv6 address. -/
def SockBuf.Inet (addr : SockBuf) : Prop := addr.data.length = SOCKADDR_STORAGE_SIZE ∧ addr.Ok

instance (addr : SockBuf) : Decidable addr.Inet := inferInstanceAs (Decidable (_ ∧ _))

/-- The address of a check is well formed. -/
def BanCall.Ok : BanCall → Prop
  | .check addr => addr.Inet
  | _ => True

instance : (call : BanCall) → Decidable call.Ok
  | .check addr => inferInstanceAs (Decidable addr.Inet)
  | .add _ _ | .unban _ | .cleanup => inferInstanceAs (Decidable True)

/-- What a call does to the entry of the aggregated address `k`, if it concerns `k`. -/
def BanCall.on (c : BanCfg) (ifs : List IfAddress) (k : List UInt8) : BanCall → Option BanOp
  | .add ip score =>
    if (ip.bind read_ip).map massage_ipv6_address = some k then some (.points score) else none
  | .check addr =>
    if ¬ if_address_test_local ifs addr.data ∧ massage_ipv6_address addr.generic = k then
      some (.points c.ban_points_connect)
    else none
  | .unban ip =>
    if (ip.length = 4 ∨ ip.length = 16) ∧ massage_ipv6_address ip = k then some .unban else none
  | .cleanup => some .cleanup

section Calls

variable [Platform]

namespace Bans

/-- The list when the server starts. -/
def start (c : BanCfg) (ifs : List IfAddress) : Bans := ⟨c, ifs, .empty⟩

def call (s : Bans) (now : Int) : BanCall → Bans × Int
  | .add ip score => s.add_str_ip_to_ban_list now ip score
  | .check addr => s.check_if_banned now addr
  | .unban ip => s.remove_ip_from_ban_list ip
  | .cleanup => (s.cleanup_banned_entries now, 0)

/-- The state after a history of calls, each with the time at which it is made. -/
def after (s : Bans) (history : List (Int × BanCall)) : Bans :=
  history.foldl (fun s x => (s.call x.1 x.2).1) s

end Bans
end Calls

theorem massage_length {ip : List UInt8} : (massage_ipv6_address ip).length = ip.length := by
  unfold massage_ipv6_address
  split
  · next h => simp [h]
  · rfl

theorem massage_massage (ip : List UInt8) :
    massage_ipv6_address (massage_ipv6_address ip) = massage_ipv6_address ip := by
  by_cases h : ip.length = 16
  · have hlen : (massage_ipv6_address ip).length = 16 := by rw [massage_length, h]
    conv_lhs => rw [massage_ipv6_address, if_pos hlen]
    simp [massage_ipv6_address, h]
  · simp [massage_ipv6_address, h]

theorem read_ip_length {ip : CStr} {a : List UInt8} (h : read_ip ip = some a) :
    a.length = 4 ∨ a.length = 16 := by
  unfold read_ip at h
  split at h
  · obtain ⟨b, -, rfl⟩ := map_eq_some_iff.1 h
    right
    simp [netBytes]
  · obtain ⟨b, -, rfl⟩ := map_eq_some_iff.1 h
    left
    simp [netBytes]

theorem read_ip_nil : read_ip [] = none := by decide

theorem SockBuf.Inet.generic_length {addr : SockBuf} (h : addr.Inet) :
    addr.generic.length = 4 ∨ addr.generic.length = 16 := by
  have hlen : addr.data.length = 128 := h.1
  unfold SockBuf.generic sa_in_generic
  split
  · left
    simp [hlen]
  · right
    simp [hlen]

section Specs

variable [Platform] {s : Bans}

namespace Bans

variable {ip k : List UInt8} {e : BanEntry} {addr : SockBuf}

/-- Adding points changes the entry of one aggregated address. -/
theorem add_ip_spec (hmax : s.config.max_ban_score ≠ 0) (now : Int)
    (hlen : ip.length = 4 ∨ ip.length = 16) (n : Nat) (hk : massage_ipv6_address ip = k)
    (he : .next s.config now k n (s.ban_db.find k) = e) :
    e.ip = k ∧ s.add_ip_to_ban_list now ip n =
      ({ s with ban_db := s.ban_db.put e }, if s.config.is_banned e then -1 else 0) := by
  have hsize : ¬ (s.config.max_ban_score = 0 ∨ (ip.length ≠ 4 ∧ ip.length ≠ 16)) := by omega
  have hip : e.ip = k := he ▸ BanEntry.ip_next fun e' he' => BanDb.find_ip he'
  refine ⟨hip, ?_⟩
  rw [add_ip_to_ban_list, if_neg hsize]
  simp only [hk]
  cases h : s.ban_db.find k with
  | none => rw [← he, h]; rfl
  | some e' => rw [← he, h]; rfl

/-- The entry that a check reads is the one it has just counted the connection in. -/
theorem check_spec (hmax : s.config.max_ban_score ≠ 0) (now : Int) (hok : addr.Inet)
    (hlocal : ¬ if_address_test_local s.if_addresses addr.data)
    (hk : massage_ipv6_address addr.generic = k)
    (he : .next s.config now k s.config.ban_points_connect (s.ban_db.find k) = e) :
    e.ip = k ∧ s.check_if_banned now addr =
      ({ s with ban_db := s.ban_db.put e },
        if now ≤ e.expires ∧ s.config.is_banned e then 1 else 0) := by
  have hlen : k.length = 4 ∨ k.length = 16 := by
    rw [← hk, massage_length]
    exact hok.generic_length
  have hkk : massage_ipv6_address k = k := by rw [← hk, massage_massage]
  obtain ⟨hip, hadd⟩ := add_ip_spec hmax now hlen s.config.ban_points_connect hkk he
  refine ⟨hip, ?_⟩
  have hfind : (s.ban_db.put e).find k = some e := by rw [BanDb.find_put, if_pos hip.symm]
  rw [check_if_banned, if_neg hmax, if_neg hlocal]
  simp only [hk, hadd, hfind, BanCfg.is_banned]
  by_cases hexp : now ≤ e.expires
  · have hlt : ¬ now > e.expires := by omega
    simp only [if_neg hlt, hexp, true_and]
    split <;> rfl
  · have hlt : now > e.expires := by omega
    simp only [if_pos hlt, hexp, false_and, if_false]

theorem unban_spec (hlen : ip.length = 4 ∨ ip.length = 16) (hk : massage_ipv6_address ip = k) :
    s.remove_ip_from_ban_list ip = (s.ban_db.find k).elim (s, 0) fun e =>
      ({ s with ban_db := s.ban_db.put e.clear }, 1) := by
  rw [remove_ip_from_ban_list, if_pos hlen, hk]
  cases s.ban_db.find k <;> rfl

/-- The answer to a call that adds points: it is about the entry after them. -/
theorem add_str_spec (hmax : s.config.max_ban_score ≠ 0) (now : Int) {ip : Option CStr}
    {a : List UInt8} (hread : ip.bind read_ip = some a) (n : Nat) (hk : massage_ipv6_address a = k)
    (he : .next s.config now k n (s.ban_db.find k) = e) :
    e.ip = k ∧ s.add_str_ip_to_ban_list now ip n =
      ({ s with ban_db := s.ban_db.put e }, if s.config.is_banned e then -1 else 0) := by
  obtain ⟨str, rfl, hstr⟩ := bind_eq_some_iff.1 hread
  have hne : ¬ (s.config.max_ban_score = 0 ∨ str = []) := by
    rintro (h | rfl)
    · exact hmax h
    · rw [read_ip_nil] at hstr
      cases hstr
  obtain ⟨hip, hadd⟩ := add_ip_spec hmax now (read_ip_length hstr) n hk he
  refine ⟨hip, ?_⟩
  rw [add_str_ip_to_ban_list]
  simp only [if_neg hne, hstr]
  exact hadd

/-- A string that is no address is ignored. -/
theorem add_str_unread (now : Int) {ip : Option CStr} (hread : ip.bind read_ip = none) (n : Nat) :
    s.add_str_ip_to_ban_list now ip n = (s, 0) := by
  cases ip with
  | none => rfl
  | some str =>
    have hstr : read_ip str = none := hread
    simp only [add_str_ip_to_ban_list, hstr]
    split <;> rfl

theorem check_local (now : Int) (hlocal : if_address_test_local s.if_addresses addr.data) :
    s.check_if_banned now addr = (s, 0) := by
  rw [check_if_banned, if_pos hlocal]
  split <;> rfl

theorem add_str_off (hmax : s.config.max_ban_score = 0) (now : Int) (ip : Option CStr) (n : Nat) :
    s.add_str_ip_to_ban_list now ip n = (s, 0) := by
  cases ip with
  | none => rfl
  | some str => simp [add_str_ip_to_ban_list, hmax]

theorem check_off (hmax : s.config.max_ban_score = 0) (now : Int) (addr : SockBuf) :
    s.check_if_banned now addr = (s, 0) := by
  simp [check_if_banned, hmax]

/-- A call acts on the entry of each address by itself. -/
theorem call_find (hmax : s.config.max_ban_score ≠ 0) (now : Int) {call : BanCall}
    (hok : call.Ok) (k : List UInt8) :
    (s.call now call).1.ban_db.find k =
      (call.on s.config s.if_addresses k).elim (s.ban_db.find k) fun op =>
        op.apply s.config now k (s.ban_db.find k) := by
  cases call with
  | add ip n =>
    cases hread : ip.bind read_ip with
    | none => simp [call, BanCall.on, hread, add_str_unread now hread]
    | some a =>
      obtain ⟨hip, hadd⟩ := add_str_spec hmax now hread n rfl rfl
      simp only [call, hadd, BanDb.find_put, hip, BanCall.on, hread, map_some,
        some.injEq]
      by_cases hk : massage_ipv6_address a = k
      · simp [hk, BanOp.apply]
      · simp [hk, Ne.symm hk]
  | check addr =>
    by_cases hlocal : if_address_test_local s.if_addresses addr.data
    · simp [call, check_local now hlocal, BanCall.on, hlocal]
    · obtain ⟨hip, hcheck⟩ := check_spec hmax now hok hlocal rfl rfl
      simp only [call, hcheck, BanDb.find_put, hip, BanCall.on, hlocal]
      by_cases hk : massage_ipv6_address addr.generic = k
      · simp [hk, BanOp.apply]
      · simp [hk, Ne.symm hk]
  | unban ip =>
    by_cases hlen : ip.length = 4 ∨ ip.length = 16
    · simp only [call, unban_spec hlen rfl, BanCall.on, hlen, true_and]
      by_cases hk : massage_ipv6_address ip = k
      · subst hk
        cases h : s.ban_db.find (massage_ipv6_address ip) with
        | none => simp [h, BanOp.apply]
        | some e =>
          have hip : e.clear.ip = massage_ipv6_address ip := (BanDb.find_ip h : e.ip = _)
          simp [BanDb.find_put, hip, BanOp.apply]
      · cases h : s.ban_db.find (massage_ipv6_address ip) with
        | none => simp [hk]
        | some e =>
          have hip : e.clear.ip = massage_ipv6_address ip := (BanDb.find_ip h : e.ip = _)
          simp [BanDb.find_put, hip, hk, Ne.symm hk]
    · simp [call, remove_ip_from_ban_list, BanCall.on, hlen]
  | cleanup =>
    simp only [call, cleanup_banned_entries, BanDb.find_sweep, BanCall.on, elim_some,
      BanOp.apply]
    rfl

theorem call_config (s : Bans) (now : Int) (call : BanCall) :
    (s.call now call).1.config = s.config ∧
      (s.call now call).1.if_addresses = s.if_addresses := by
  have hadd : ∀ ip n, (s.add_ip_to_ban_list now ip n).1.config = s.config ∧
      (s.add_ip_to_ban_list now ip n).1.if_addresses = s.if_addresses := by
    intro ip n
    unfold add_ip_to_ban_list
    split <;> exact ⟨rfl, rfl⟩
  cases call with
  | add ip n =>
    simp only [call, add_str_ip_to_ban_list]
    cases ip with
    | none => exact ⟨rfl, rfl⟩
    | some str =>
      simp only
      split
      · exact ⟨rfl, rfl⟩
      · cases read_ip str with
        | none => exact ⟨rfl, rfl⟩
        | some a => exact hadd a n
  | check addr =>
    simp only [call, check_if_banned]
    split
    · exact ⟨rfl, rfl⟩
    · split
      · exact ⟨rfl, rfl⟩
      · split
        · exact hadd _ _
        · split
          · exact hadd _ _
          · split <;> exact hadd _ _
  | unban ip =>
    simp only [call, remove_ip_from_ban_list]
    split
    · split <;> exact ⟨rfl, rfl⟩
    · exact ⟨rfl, rfl⟩
  | cleanup => exact ⟨rfl, rfl⟩

end Bans
end Specs

/-! ## The reference automaton -/

/-- Where an address stands: it collects points since the start of its period, or it is
banned up to and including the time `ends`. -/
inductive Standing
  | period (since : Int) (points : Nat)
  | banned (since ends : Int)
deriving DecidableEq, Repr

namespace Standing

/-- Collect `n` more points at `now`, in the period that started at `since`. -/
def collect (c : BanCfg) (since now : Int) (points n : Nat) : Standing :=
  if c.max_ban_score ≤ points + n then .banned since (now + c.ban_time)
  else .period since (points + n)

/-- A new period, with the points of one call. -/
def opened (c : BanCfg) (now : Int) (n : Nat) : Standing := collect c now now 0 n

def score (c : BanCfg) (now : Int) (n : Nat) : Option Standing → Standing
  | none => opened c now n
  | some (.period since points) =>
    if since + c.ban_reset_time < now then opened c now n else collect c since now points n
  | some (.banned since ends) => if ends < now then opened c now n else .banned since ends

/-- The points to which those of a call at `now` are added. -/
def carried (c : BanCfg) (now : Int) : Option Standing → Nat
  | some (.period since points) => if since + c.ban_reset_time < now then 0 else points
  | _ => 0

/-- An unban takes the points away and leaves the period. -/
def unban : Standing → Standing
  | .period since _ | .banned since _ => .period since 0

/-- Clean-up has no part in what the list is for. -/
def step (c : BanCfg) (now : Int) : BanOp → Option Standing → Option Standing
  | .points n, st => some (score c now n st)
  | .unban, st => st.map unban
  | .cleanup, st => st

/-- Whether a connection at `now` is turned away. -/
def rejects (now : Int) : Standing → Bool
  | .banned _ ends => now ≤ ends
  | .period _ _ => false

def isBanned : Standing → Bool
  | .banned _ _ => true
  | .period _ _ => false

/-- What a call does to the standing of the aggregated address `k`.  The maximum score zero
turns banning off. -/
def call (c : BanCfg) (ifs : List IfAddress) (k : List UInt8) (st : Option Standing)
    (x : Int × BanCall) : Option Standing :=
  if c.max_ban_score = 0 then st else (x.2.on c ifs k).elim st fun op => step c x.1 op st

def after (c : BanCfg) (ifs : List IfAddress) (k : List UInt8) (st : Option Standing)
    (history : List (Int × BanCall)) : Option Standing :=
  history.foldl (call c ifs k) st

/-- The sums of points are below `2 ^ 32`. -/
def SumsFit (c : BanCfg) (ifs : List IfAddress) (k : List UInt8) :
    Option Standing → List (Int × BanCall) → Prop
  | _, [] => True
  | st, x :: history =>
    (∀ n, x.2.on c ifs k = some (.points n) → carried c x.1 st + n < 2 ^ 32) ∧
      SumsFit c ifs k (call c ifs k st x) history

end Standing

namespace BanEntry

/-- The expiration time of an entry matters only while it is banned. -/
def standing (c : BanCfg) (e : BanEntry) : Standing :=
  if c.is_banned e then .banned e.last_reset e.expires else .period e.last_reset e.score

variable {c : BanCfg} {now : Int} {ip : List UInt8} {n : Nat} {e : BanEntry}

theorem standing_of_banned (h : c.is_banned e) :
    e.standing c = .banned e.last_reset e.expires := if_pos h

theorem standing_of_not_banned (h : ¬ c.is_banned e) :
    e.standing c = .period e.last_reset e.score := if_neg h

theorem standing_count (hopen : ¬ c.is_banned e) (hsum : e.score + n < 2 ^ 32) :
    (e.count c now n).standing c = .collect c e.last_reset now e.score n := by
  have hlt : e.score < c.max_ban_score := Nat.not_le.1 hopen
  have hmod : (e.score + n) % 2 ^ 32 = e.score + n := Nat.mod_eq_of_lt hsum
  have hscore : (e.count c now n).score = e.score + n := by
    simp only [count, hmod]
    split <;> omega
  have hexpires : (e.count c now n).expires = now + c.ban_time := if_pos hlt
  unfold standing Standing.collect
  simp only [BanCfg.is_banned, hscore, hexpires]
  rfl

/-- The ban of a client that keeps trying is not extended. -/
theorem standing_count_banned (hban : c.is_banned e) :
    (e.count c now n).standing c = .banned e.last_reset e.expires := by
  have hle : c.max_ban_score ≤ e.score := hban
  have hstill : c.is_banned (e.count c now n) := Nat.le_trans hle le_score_count
  have hexpires : (e.count c now n).expires = e.expires := if_neg (by omega)
  rw [standing_of_banned hstill, hexpires]
  rfl

/-- The entry follows the automaton. -/
theorem standing_next (hmax : 0 < c.max_ban_score) {old : Option BanEntry}
    (hsum : Standing.carried c now (old.map (standing c)) + n < 2 ^ 32) :
    (next c now ip n old).standing c = .score c now n (old.map (standing c)) := by
  -- an entry without points starts a period
  have hopened : ∀ e : BanEntry, e.score = 0 → e.last_reset = now → n < 2 ^ 32 →
      (e.count c now n).standing c = .opened c now n := by
    intro e hzero hreset hn
    have hopen : ¬ c.is_banned e := by
      rw [BanCfg.is_banned, hzero]
      omega
    rw [standing_count hopen (by omega), hzero, hreset]
    rfl
  cases old with
  | none => exact hopened _ rfl rfl (by simpa [Standing.carried] using hsum)
  | some e =>
    rw [next, map_some, getD_some, reset]
    rw [map_some] at hsum ⊢
    by_cases hban : c.is_banned e
    · rw [standing_of_banned hban] at hsum ⊢
      by_cases hexp : e.expires < now
      · rw [if_pos (.inl ⟨hexp, hban⟩), hopened _ rfl rfl (by simpa [Standing.carried] using hsum)]
        exact (if_pos hexp).symm
      · rw [if_neg (by simp [hban, hexp]), standing_count_banned hban]
        exact (if_neg hexp).symm
    · rw [standing_of_not_banned hban] at hsum ⊢
      by_cases hold : e.last_reset + c.ban_reset_time < now
      · rw [if_pos (.inr ⟨hold, hban⟩),
          hopened _ rfl rfl (by simpa [Standing.carried, hold] using hsum)]
        exact (if_pos hold).symm
      · have hn : e.score + n < 2 ^ 32 := by simpa [Standing.carried, hold] using hsum
        rw [if_neg (by simp [hban, hold]), standing_count hban hn]
        exact (if_neg hold).symm

theorem standing_clear (hmax : 0 < c.max_ban_score) :
    e.clear.standing c = (e.standing c).unban := by
  have hopen : ¬ c.is_banned e.clear := Nat.not_le.2 hmax
  rw [standing_of_not_banned hopen]
  by_cases hban : c.is_banned e
  · rw [standing_of_banned hban]
    rfl
  · rw [standing_of_not_banned hban]
    rfl

end BanEntry

section Automaton

variable {c : BanCfg} {ifs : List IfAddress} {k : List UInt8}

/-- A ban is neither extended nor shortened by the calls before its end, unbans apart. -/
theorem Standing.after_banned {since ends : Int} (later : List (Int × BanCall))
    (hlater : ∀ x ∈ later, x.1 ≤ ends ∧ x.2.on c ifs k ≠ some .unban) :
    Standing.after c ifs k (some (.banned since ends)) later = some (.banned since ends) := by
  induction later with
  | nil => rfl
  | cons x later ih =>
    obtain ⟨⟨hx, hunban⟩, hrest⟩ := forall_mem_cons.1 hlater
    have hcall :
        Standing.call c ifs k (some (.banned since ends)) x = some (.banned since ends) := by
      unfold Standing.call
      split
      · rfl
      · cases hop : x.2.on c ifs k with
        | none => rfl
        | some op =>
          cases op with
          | points n => exact congrArg some (if_neg (by omega))
          | unban => exact absurd hop hunban
          | cleanup => rfl
    rw [Standing.after, foldl_cons, hcall]
    exact ih hrest

variable [Platform] {s : Bans}

namespace Bans

/-- Where the aggregated address `k` stands. -/
def standing (s : Bans) (k : List UInt8) : Option Standing :=
  (s.ban_db.find k).map (BanEntry.standing s.config)

/-- A call moves the standing of every address as the automaton does. -/
theorem standing_call (hmax : 0 < s.config.max_ban_score) {now : Int} {call : BanCall}
    (hok : call.Ok) (hcleanup : call ≠ .cleanup)
    (hsum : ∀ n, call.on s.config s.if_addresses k = some (.points n) →
      Standing.carried s.config now (s.standing k) + n < 2 ^ 32) :
    (s.call now call).1.standing k =
      Standing.call s.config s.if_addresses k (s.standing k) (now, call) := by
  have hon : s.config.max_ban_score ≠ 0 := by omega
  rw [standing, (s.call_config now call).1, call_find hon now hok, Standing.call, if_neg hon]
  cases hop : call.on s.config s.if_addresses k with
  | none => rfl
  | some op =>
    cases op with
    | points n => exact congrArg some (BanEntry.standing_next hmax (hsum n hop))
    | unban =>
      simp only [Option.elim_some, BanOp.apply, Standing.step, standing, Option.map_map]
      congr 1
      funext e
      exact BanEntry.standing_clear hmax
    | cleanup => cases call <;> simp [BanCall.on] at hop hcleanup

theorem after_config (history : List (Int × BanCall)) (s : Bans) :
    (s.after history).config = s.config ∧ (s.after history).if_addresses = s.if_addresses := by
  induction history generalizing s with
  | nil => exact ⟨rfl, rfl⟩
  | cons x history ih =>
    obtain ⟨hconfig, hifs⟩ := s.call_config x.1 x.2
    rw [← hconfig, ← hifs]
    exact ih _

/-- Over a whole history what is kept for an address follows the automaton. -/
theorem standing_after (history : List (Int × BanCall)) (hmax : 0 < s.config.max_ban_score)
    (hok : ∀ x ∈ history, x.2.Ok ∧ x.2 ≠ .cleanup)
    (hsums : Standing.SumsFit s.config s.if_addresses k (s.standing k) history) :
    (s.after history).standing k =
      Standing.after s.config s.if_addresses k (s.standing k) history := by
  induction history generalizing s with
  | nil => rfl
  | cons x history ih =>
    obtain ⟨hx, hrest⟩ := forall_mem_cons.1 hok
    obtain ⟨hconfig, hifs⟩ := s.call_config x.1 x.2
    have hcall := standing_call hmax hx.1 hx.2 hsums.1
    have hlater := ih (s := (s.call x.1 x.2).1) (by rw [hconfig]; exact hmax) hrest
      (by rw [hconfig, hifs, hcall]; exact hsums.2)
    rw [hconfig, hifs, hcall] at hlater
    exact hlater

/-- Where banning is off, nothing is ever kept. -/
theorem call_start_off (hmax : c.max_ban_score = 0) (now : Int) {call : BanCall}
    (hcleanup : call ≠ .cleanup) : (start c ifs).call now call = (start c ifs, 0) := by
  cases call with
  | add ip n => exact add_str_off hmax now ip n
  | check addr => exact check_off hmax now addr
  | unban ip =>
    simp only [call, remove_ip_from_ban_list, start, BanDb.find_empty]
    split <;> rfl
  | cleanup => exact absurd rfl hcleanup

theorem after_start_off (hmax : c.max_ban_score = 0) (history : List (Int × BanCall))
    (hcleanup : ∀ x ∈ history, x.2 ≠ .cleanup) : (start c ifs).after history = start c ifs := by
  induction history with
  | nil => rfl
  | cons x history ih =>
    obtain ⟨hx, hrest⟩ := forall_mem_cons.1 hcleanup
    rw [after, foldl_cons, call_start_off hmax x.1 hx]
    exact ih hrest

theorem standing_after_start (history : List (Int × BanCall))
    (hok : ∀ x ∈ history, x.2.Ok ∧ x.2 ≠ .cleanup)
    (hsums : Standing.SumsFit c ifs k none history) :
    ((start c ifs).after history).standing k = Standing.after c ifs k none history := by
  have hstart : (start c ifs).standing k = none := by simp [standing, start]
  by_cases hmax : c.max_ban_score = 0
  · rw [after_start_off hmax history fun x hx => (hok x hx).2, hstart]
    induction history with
    | nil => rfl
    | cons x history ih =>
      have hcall : Standing.call c ifs k none x = none := if_pos hmax
      rw [Standing.after, foldl_cons, hcall]
      rw [Standing.SumsFit, hcall] at hsums
      exact ih (fun y hy => hok y (mem_cons_of_mem x hy)) hsums.2
  · have hafter := standing_after (s := start c ifs) history (Nat.pos_of_ne_zero hmax) hok
      (by rw [hstart]; exact hsums)
    rw [hstart] at hafter
    exact hafter

end Bans

namespace Bans

/-- A check answers by where the address stands once the connection is counted. -/
theorem check_answer (hon : s.config.max_ban_score ≠ 0) (now : Int) {addr : SockBuf}
    (hok : addr.Inet)
    (hlocal : ¬ if_address_test_local s.if_addresses addr.data)
    (hk : massage_ipv6_address addr.generic = k) :
    (s.check_if_banned now addr).2 =
      if ((s.check_if_banned now addr).1.standing k).any (Standing.rejects now) then 1 else 0 := by
  obtain ⟨hip, hcheck⟩ := check_spec hon now hok hlocal hk rfl
  rw [hcheck, standing]
  simp only [BanDb.find_put, hip, if_true, map_some, any_some]
  generalize BanEntry.next s.config now k s.config.ban_points_connect (s.ban_db.find k) = e
  by_cases hban : s.config.is_banned e
  · simp [BanEntry.standing_of_banned hban, Standing.rejects, hban]
  · simp [BanEntry.standing_of_not_banned hban, Standing.rejects, hban]

/-- Adding points answers whether the address is banned with them. -/
theorem add_str_answer (hon : s.config.max_ban_score ≠ 0) (now : Int) {ip : CStr} {a : List UInt8}
    (hread : read_ip ip = some a) (n : Nat) (hk : massage_ipv6_address a = k) :
    (s.add_str_ip_to_ban_list now (some ip) n).2 =
      if ((s.add_str_ip_to_ban_list now (some ip) n).1.standing k).any Standing.isBanned then -1
      else 0 := by
  have hsome : (some ip).bind read_ip = some a := hread
  obtain ⟨hip, hadd⟩ := add_str_spec hon now hsome n hk rfl
  rw [hadd, standing]
  simp only [BanDb.find_put, hip, if_true, map_some, any_some]
  generalize BanEntry.next s.config now k n (s.ban_db.find k) = e
  by_cases hban : s.config.is_banned e
  · simp [BanEntry.standing_of_banned hban, Standing.isBanned, hban]
  · simp [BanEntry.standing_of_not_banned hban, Standing.isBanned, hban]

end Bans

omit [Platform] in
/-- The second half of an IPv6 address does not count. -/
theorem massage_congr {a b : List UInt8} (ha : a.length = 16) (hb : b.length = 16)
    (h : a.take 8 = b.take 8) : massage_ipv6_address a = massage_ipv6_address b := by
  rw [massage_ipv6_address, massage_ipv6_address, if_pos ha, if_pos hb, h]

namespace Bans

/-- No operation tells two addresses of one /64 network apart. -/
theorem call_congr (s : Bans) (now : Int) {a b : List UInt8} (ha : a.length = 16)
    (hb : b.length = 16) (h : a.take 8 = b.take 8) :
    (∀ ip ip' n, read_ip ip = some a → read_ip ip' = some b →
      s.call now (.add (some ip) n) = s.call now (.add (some ip') n)) ∧
    (∀ x y : SockBuf, ¬ if_address_test_local s.if_addresses x.data →
      ¬ if_address_test_local s.if_addresses y.data → x.generic = a → y.generic = b →
      s.call now (.check x) = s.call now (.check y)) ∧
    s.call now (.unban a) = s.call now (.unban b) := by
  have hmassage := massage_congr ha hb h
  refine ⟨fun ip ip' n hip hip' => ?_, fun x y hx hy hxa hyb => ?_, ?_⟩
  · have hne : ip ≠ [] := fun hnil => by rw [hnil, read_ip_nil] at hip; cases hip
    have hne' : ip' ≠ [] := fun hnil => by rw [hnil, read_ip_nil] at hip'; cases hip'
    simp only [call, add_str_ip_to_ban_list, hip, hip', hne, hne', add_ip_to_ban_list, ha, hb,
      hmassage]
  · simp only [call, check_if_banned, hx, hy, hxa, hyb, hmassage]
  · simp only [call, remove_ip_from_ban_list, ha, hb, hmassage]

end Bans

/-- What the ban list keeps for an address, and what it answers, follows the reference
automaton.  A ban that starts at `now` ends at `now + ban_time` whatever is called up to
then, unbans apart; addresses of one /64 network are one address, and the calls for one
address leave the others alone. -/
theorem ban_semantics (c : BanCfg) (ifs : List IfAddress) (history : List (Int × BanCall))
    (hok : ∀ x ∈ history, x.2.Ok ∧ x.2 ≠ .cleanup)
    (hsums : ∀ k, Standing.SumsFit c ifs k none history) :
    (∀ k, ((Bans.start c ifs).after history).standing k = Standing.after c ifs k none history) ∧
    (∀ earlier now addr, history = earlier ++ [(now, .check addr)] →
      ¬ if_address_test_local ifs addr.data →
      (((Bans.start c ifs).after earlier).check_if_banned now addr).2 =
        if (Standing.after c ifs (massage_ipv6_address addr.generic) none history).any
          (Standing.rejects now) then 1 else 0) ∧
    (∀ earlier now ip n a, history = earlier ++ [(now, .add (some ip) n)] → read_ip ip = some a →
      (((Bans.start c ifs).after earlier).add_str_ip_to_ban_list now (some ip) n).2 =
        if (Standing.after c ifs (massage_ipv6_address a) none history).any Standing.isBanned
        then -1 else 0) ∧
    (∀ earlier later k since ends, history = earlier ++ later →
      Standing.after c ifs k none earlier = some (.banned since ends) →
      (∀ x ∈ later, x.1 ≤ ends ∧ x.2.on c ifs k ≠ some .unban) →
      Standing.after c ifs k none history = some (.banned since ends)) ∧
    (∀ now a b, a.length = 16 → b.length = 16 → a.take 8 = b.take 8 →
      (∀ ip ip' n, read_ip ip = some a → read_ip ip' = some b →
        ((Bans.start c ifs).after history).call now (.add (some ip) n) =
          ((Bans.start c ifs).after history).call now (.add (some ip') n)) ∧
      (∀ x y : SockBuf, ¬ if_address_test_local ifs x.data → ¬ if_address_test_local ifs y.data →
        x.generic = a → y.generic = b →
        ((Bans.start c ifs).after history).call now (.check x) =
          ((Bans.start c ifs).after history).call now (.check y)) ∧
      ((Bans.start c ifs).after history).call now (.unban a) =
        ((Bans.start c ifs).after history).call now (.unban b)) ∧
    (∀ now call k, call.Ok → call.on c ifs k = none →
      (((Bans.start c ifs).after history).call now call).1.ban_db.find k =
        ((Bans.start c ifs).after history).ban_db.find k) := by
  have hstanding : ∀ k, ((Bans.start c ifs).after history).standing k =
      Standing.after c ifs k none history :=
    fun k => Bans.standing_after_start history hok (hsums k)
  have hconfig : ∀ h, ((Bans.start c ifs).after h).config = c :=
    fun h => (Bans.after_config h _).1
  have hifs : ∀ h, ((Bans.start c ifs).after h).if_addresses = ifs :=
    fun h => (Bans.after_config h _).2
  have hsnoc : ∀ (s : Bans) earlier x,
      s.after (earlier ++ [x]) = ((s.after earlier).call x.1 x.2).1 := by
    intro s earlier x
    rw [Bans.after, foldl_append]
    rfl
  have hoff : c.max_ban_score = 0 → (Bans.start c ifs).after history = Bans.start c ifs :=
    fun hmax => Bans.after_start_off hmax history fun x hx => (hok x hx).2
  have hnone : c.max_ban_score = 0 → ∀ k, Standing.after c ifs k none history = none := by
    intro hmax k
    rw [← hstanding, hoff hmax]
    simp [Bans.standing, Bans.start]
  refine ⟨hstanding, ?_, ?_, ?_, ?_, ?_⟩
  · intro earlier now addr hhistory hlocal
    by_cases hmax : c.max_ban_score = 0
    · rw [hnone hmax, Bans.check_off (by rw [hconfig, hmax])]
      rfl
    · have hmem : (now, BanCall.check addr) ∈ history := by simp [hhistory]
      rw [← hstanding, hhistory, hsnoc]
      exact Bans.check_answer (by rwa [hconfig]) now (hok _ hmem).1 (by rwa [hifs]) rfl
  · intro earlier now ip n a hhistory hread
    by_cases hmax : c.max_ban_score = 0
    · rw [hnone hmax, Bans.add_str_off (by rw [hconfig, hmax])]
      rfl
    · rw [← hstanding, hhistory, hsnoc]
      exact Bans.add_str_answer (by rwa [hconfig]) now hread n rfl
  · intro earlier later k since ends hhistory hbanned hlater
    rw [hhistory, Standing.after, foldl_append]
    exact (congrArg (List.foldl _ · later) hbanned).trans (Standing.after_banned later hlater)
  · intro now a b ha hb h
    have hcongr := ((Bans.start c ifs).after history).call_congr now ha hb h
    rw [hifs] at hcongr
    exact hcongr
  · intro now call k hcall hon
    by_cases hmax : c.max_ban_score = 0
    · have hcleanup : call ≠ .cleanup := by
        rintro rfl
        cases hon
      rw [hoff hmax, Bans.call_start_off hmax now hcleanup]
    · rw [Bans.call_find (by rwa [hconfig]) now hcall, hconfig, hifs, hon]
      rfl

end Automaton

section Examples

local instance banPlatform : Platform := Platform.simple

private def quad : CStr := "192.0.2.1".toList

/-- The client behind the text `quad`. -/
private def quadAddr : SockBuf := SockBuf.zero.copy (Addr.v4 0xc0000201#32).sockaddr

/-- Two failed logins, the second of which bans the address. -/
private def failures : List (Int × BanCall) := [(0, .add (some quad) 40), (10, .add (some quad) 40)]

private theorem failures_fit (k : List UInt8) :
    Standing.SumsFit {} [] k none (failures ++ [(310, .check quadAddr)]) := by
  have hread : read_ip quad = some quadAddr.generic := by decide +kernel
  have hlocal : if_address_test_local [] quadAddr.data = false := rfl
  by_cases hk : massage_ipv6_address quadAddr.generic = k
  · simp [failures, Standing.SumsFit, BanCall.on, hread, hk, hlocal, Standing.call, Standing.step,
      Standing.score, Standing.opened, Standing.collect, Standing.carried]
  · simp [failures, Standing.SumsFit, BanCall.on, hread, hk, hlocal, Standing.call]

theorem ban_semantics_rejected : ∃ _ : Platform,
    (((Bans.start {} []).after failures).check_if_banned 310 quadAddr).2 = 1 := by
  refine ⟨banPlatform, ?_⟩
  have h := ban_semantics {} [] (failures ++ [(310, .check quadAddr)]) (by decide +kernel)
    failures_fit
  rw [h.2.1 failures 310 quadAddr rfl (by decide)]
  decide +kernel

end Examples

/-! ## Clean-up -/

section Cleanup

variable [Platform] {s s' : Bans} {c : BanCfg} {ifs : List IfAddress} {t : Int}

/-- The answers of the checks and of the calls that add points. -/
def Bans.answers (s : Bans) : List (Int × BanCall) → List Int
  | [] => []
  | (now, .add ip n) :: later =>
    (s.call now (.add ip n)).2 :: (s.call now (.add ip n)).1.answers later
  | (now, .check addr) :: later =>
    (s.call now (.check addr)).2 :: (s.call now (.check addr)).1.answers later
  | (now, .unban ip) :: later => (s.call now (.unban ip)).1.answers later
  | (now, .cleanup) :: later => (s.call now .cleanup).1.answers later

namespace BanEntry

/-- From `t` on, the next points open a new period: whether the entry is kept makes no
difference to them. -/
def Stale (c : BanCfg) (t : Int) (e : BanEntry) : Prop :=
  e.last_reset + c.ban_reset_time < t ∧ (c.is_banned e → e.expires < t)

variable {e : BanEntry} {now : Int} {ip : List UInt8}

omit [Platform] in
theorem Stale.mono (h : e.Stale c t) (hle : t ≤ now) : e.Stale c now := by
  refine ⟨by have := h.1; omega, fun hban => ?_⟩
  have := h.2 hban
  omega

omit [Platform] in
theorem Stale.next (hmax : c.max_ban_score ≠ 0) (h : e.Stale c now) (hip : e.ip = ip) (n : Nat) :
    BanEntry.next c now ip n (some e) = BanEntry.next c now ip n none := by
  have hreset : e.reset c now = { e with score := 0, last_reset := now } := by
    unfold reset
    rw [if_pos]
    by_cases hban : c.is_banned e
    · exact .inl ⟨h.2 hban, hban⟩
    · exact .inr ⟨h.1, hban⟩
  have hpos : 0 < c.max_ban_score := Nat.pos_of_ne_zero hmax
  simp [BanEntry.next, hreset, fresh, count, hpos, hip]

omit [Platform] in
theorem Stale.clear (hmax : c.max_ban_score ≠ 0) (h : e.Stale c t) : e.clear.Stale c t := by
  refine ⟨h.1, fun hban => ?_⟩
  have hzero : c.max_ban_score ≤ 0 := hban
  omega

end BanEntry

/-- The second entry is the first one, or a stale first one is missing. -/
def BanEntry.Hidden (c : BanCfg) (t : Int) (old old' : Option BanEntry) : Prop :=
  old' = old ∨ old' = none ∧ ∃ e, old = some e ∧ e.Stale c t

omit [Platform] in
/-- Points end the difference, and nothing else reveals it. -/
theorem BanEntry.Hidden.apply (hmax : c.max_ban_score ≠ 0) {now : Int} (hle : t ≤ now)
    {ip : List UInt8} {old old' : Option BanEntry} (hip : ∀ e ∈ old, e.ip = ip)
    (h : BanEntry.Hidden c t old old') (op : BanOp) :
    BanEntry.Hidden c t (op.apply c now ip old) (op.apply c now ip old') ∧
      ∀ n, BanEntry.next c now ip n old' = BanEntry.next c now ip n old := by
  obtain rfl | ⟨rfl, e, rfl, hstale⟩ := h
  · exact ⟨.inl rfl, fun n => rfl⟩
  have hnext : ∀ n, BanEntry.next c now ip n none = BanEntry.next c now ip n (some e) :=
    fun n => ((hstale.mono hle).next hmax (hip e rfl) n).symm
  refine ⟨?_, hnext⟩
  cases op with
  | points n => exact .inl (congrArg some (hnext n))
  | unban => exact .inr ⟨rfl, e.clear, rfl, hstale.clear hmax⟩
  | cleanup =>
    by_cases hidle : e.idle c now
    · have hgone : (some e).filter (fun e => !e.idle c now) = none := by
        simp [Option.filter, hidle]
      exact .inl hgone.symm
    · have hkept : (some e).filter (fun e => !e.idle c now) = some e := by
        simp [Option.filter, hidle]
      exact .inr ⟨rfl, e, hkept, hstale⟩

namespace Bans

/-- The second list lacks some stale entries of the first one. -/
structure Hides (t : Int) (s s' : Bans) : Prop where
  config : s'.config = s.config
  if_addresses : s'.if_addresses = s.if_addresses
  find : ∀ k, BanEntry.Hidden s.config t (s.ban_db.find k) (s'.ban_db.find k)

theorem Hides.call (h : s.Hides t s') (hmax : s.config.max_ban_score ≠ 0) {now : Int}
    (hle : t ≤ now)
    {call : BanCall} (hok : call.Ok) :
    (s.call now call).1.Hides t (s'.call now call).1 := by
  obtain ⟨hconfig, hifs⟩ := s.call_config now call
  obtain ⟨hconfig', hifs'⟩ := s'.call_config now call
  refine ⟨by rw [hconfig, hconfig', h.config], by rw [hifs, hifs', h.if_addresses], fun k => ?_⟩
  have hmax' : s'.config.max_ban_score ≠ 0 := by rwa [h.config]
  rw [call_find hmax now hok, call_find hmax' now hok, hconfig, h.config, h.if_addresses]
  cases call.on s.config s.if_addresses k with
  | none => exact h.find k
  | some op => exact ((h.find k).apply hmax hle (fun e he => BanDb.find_ip he) op).1

/-- The entry of an address after some points is the same on both lists. -/
theorem Hides.next (h : s.Hides t s') (hmax : s.config.max_ban_score ≠ 0) {now : Int}
    (hle : t ≤ now) (k : List UInt8) (n : Nat) :
    BanEntry.next s'.config now k n (s'.ban_db.find k) =
      BanEntry.next s.config now k n (s.ban_db.find k) := by
  rw [h.config]
  exact ((h.find k).apply hmax hle (fun e he => BanDb.find_ip he) .unban).2 n

theorem Hides.add_str (h : s.Hides t s') (hmax : s.config.max_ban_score ≠ 0) {now : Int}
    (hle : t ≤ now) (ip : Option CStr) (n : Nat) :
    (s'.add_str_ip_to_ban_list now ip n).2 = (s.add_str_ip_to_ban_list now ip n).2 := by
  cases hread : ip.bind read_ip with
  | none => rw [add_str_unread now hread, add_str_unread now hread]
  | some a =>
    rw [(add_str_spec hmax now hread n rfl rfl).2,
      (add_str_spec (by rwa [h.config]) now hread n rfl (h.next hmax hle _ n)).2, h.config]

theorem Hides.check (h : s.Hides t s') (hmax : s.config.max_ban_score ≠ 0) {now : Int}
    (hle : t ≤ now) {addr : SockBuf} (hok : addr.Inet) :
    (s'.check_if_banned now addr).2 = (s.check_if_banned now addr).2 := by
  by_cases hlocal : if_address_test_local s.if_addresses addr.data
  · rw [check_local now hlocal, check_local now (by rwa [h.if_addresses])]
  · have hnext := h.next hmax hle (massage_ipv6_address addr.generic) s.config.ban_points_connect
    rw [← h.config] at hnext
    rw [(check_spec hmax now hok hlocal rfl rfl).2,
      (check_spec (by rwa [h.config]) now hok (by rwa [h.if_addresses]) rfl hnext).2, h.config]

theorem Hides.answers (later : List (Int × BanCall)) (h : s.Hides t s')
    (hmax : s.config.max_ban_score ≠ 0) (hlater : ∀ x ∈ later, t ≤ x.1 ∧ x.2.Ok) :
    s'.answers later = s.answers later := by
  induction later generalizing s s' with
  | nil => rfl
  | cons x later ih =>
    obtain ⟨⟨hle, hok⟩, hrest⟩ := forall_mem_cons.1 hlater
    obtain ⟨now, call⟩ := x
    have hcall := ih (h.call hmax hle hok) (by rwa [(s.call_config now call).1]) hrest
    cases call with
    | add ip n => exact congrArg₂ List.cons (h.add_str hmax hle ip n) hcall
    | check addr => exact congrArg₂ List.cons (h.check hmax hle hok) hcall
    | unban | cleanup => exact hcall

/-- Clean-up takes stale entries out, unless a ban ends at that moment. -/
theorem cleanup_hides (hmax : s.config.max_ban_score ≠ 0)
    (hends : ∀ e ∈ s.ban_db.toList, s.config.is_banned e → e.expires = t →
      t ≤ e.last_reset + s.config.ban_reset_time) :
    s.Hides t (s.cleanup_banned_entries t) := by
  refine ⟨rfl, rfl, fun k => ?_⟩
  have hfind : (s.cleanup_banned_entries t).ban_db.find k =
      (s.ban_db.find k).filter fun e => !e.idle s.config t :=
    call_find hmax t (show BanCall.cleanup.Ok from trivial) k
  rw [hfind]
  cases he : s.ban_db.find k with
  | none => exact .inl rfl
  | some e =>
    by_cases hidle : e.idle s.config t
    · right
      refine ⟨by simp [hidle], e, rfl, ?_⟩
      simp only [BanEntry.idle, Bool.and_eq_true, decide_eq_true_eq] at hidle
      refine ⟨hidle.2, fun hban => ?_⟩
      have hne : e.expires ≠ t := by
        intro heq
        have := hends e (BanDb.find_eq_some.1 he).1 hban heq
        omega
      omega
    · left
      simp [hidle]

/-- Where banning is off, all answers are zero. -/
theorem answers_off (s s' : Bans) (later : List (Int × BanCall)) (hconfig : s'.config = s.config)
    (hmax : s.config.max_ban_score = 0) : s'.answers later = s.answers later := by
  induction later generalizing s s' with
  | nil => rfl
  | cons x later ih =>
    obtain ⟨now, call⟩ := x
    have hlater := ih (s.call now call).1 (s'.call now call).1
      (by rw [(s.call_config now call).1, (s'.call_config now call).1, hconfig])
      (by rw [(s.call_config now call).1, hmax])
    have hmax' : s'.config.max_ban_score = 0 := by rw [hconfig, hmax]
    cases call with
    | add ip n =>
      rw [answers, answers, hlater, Bans.call, Bans.call, add_str_off hmax, add_str_off hmax']
    | check addr =>
      rw [answers, answers, hlater, Bans.call, Bans.call, check_off hmax, check_off hmax']
    | unban | cleanup => exact hlater

end Bans

/-! ## The number of banned addresses -/

/-- Some client of the aggregated address `k` is not on a network of the server. -/
def Foreign (ifs : List IfAddress) (k : List UInt8) : Prop :=
  ∃ addr : SockBuf, addr.Inet ∧ ¬ if_address_test_local ifs addr.data ∧
    massage_ipv6_address addr.generic = k

/-- A call that adds points is not about an address of the server's own networks. -/
def BanCall.Foreign (ifs : List IfAddress) : BanCall → Prop
  | .add ip _ => ∀ a, ip.bind read_ip = some a → Ocserv.Foreign ifs (massage_ipv6_address a)
  | _ => True

omit [Platform] in
theorem BanCall.Foreign.of_on {call : BanCall} {k : List UInt8} {n : Nat} (hok : call.Ok)
    (h : call.Foreign ifs) (hon : call.on c ifs k = some (.points n)) : Ocserv.Foreign ifs k := by
  cases call with
  | add ip m =>
    obtain ⟨a, hread, hk⟩ := map_eq_some_iff.1 (ite_none_right_eq_some.1 hon).1
    exact hk ▸ h a hread
  | check addr =>
    obtain ⟨hlocal, hk⟩ := (ite_none_right_eq_some.1 hon).1
    exact ⟨addr, hok, hlocal, hk⟩
  | unban ip => cases some.inj (ite_none_right_eq_some.1 hon).2
  | cleanup => cases hon

namespace Bans

/-- The ban test of `check_if_banned` for the aggregated address `k`. -/
def Rejects (s : Bans) (now : Int) (k : List UInt8) : Prop :=
  s.config.max_ban_score ≠ 0 ∧
    ∃ e, s.ban_db.find k = some e ∧ now ≤ e.expires ∧ s.config.is_banned e

/-- Only addresses outside the server's networks are kept. -/
theorem foreign_after (history : List (Int × BanCall)) (hmax : s.config.max_ban_score ≠ 0)
    (hs : ∀ k, (s.ban_db.find k).isSome → Foreign s.if_addresses k)
    (hhistory : ∀ x ∈ history, x.2.Ok ∧ x.2.Foreign s.if_addresses) :
    ∀ k, ((s.after history).ban_db.find k).isSome → Foreign s.if_addresses k := by
  induction history generalizing s with
  | nil => exact hs
  | cons x history ih =>
    obtain ⟨⟨hok, hforeign⟩, hrest⟩ := forall_mem_cons.1 hhistory
    obtain ⟨hconfig, hifs⟩ := s.call_config x.1 x.2
    rw [← hifs] at hrest ⊢
    apply ih (by rwa [hconfig]) _ hrest
    intro k hk
    rw [hifs]
    rw [call_find hmax x.1 hok] at hk
    cases hon : x.2.on s.config s.if_addresses k with
    | none => exact hs k (by simpa [hon] using hk)
    | some op =>
      cases op with
      | points n => exact hforeign.of_on hok hon
      | unban => exact hs k (by simpa [hon, BanOp.apply] using hk)
      | cleanup =>
        rw [hon] at hk
        obtain ⟨e, he⟩ := isSome_iff_exists.1 hk
        obtain ⟨hold, -⟩ := filter_eq_some_iff.1 he
        exact hs k (by rw [hold]; rfl)

/-- The number that `occtl` shows, while no ban ends and no address of the server's own
networks is kept. -/
theorem main_ban_db_elems_eq (hmax : s.config.max_ban_score ≠ 0)
    (hforeign : ∀ k, (s.ban_db.find k).isSome → Foreign ifs k)
    (hends : ∀ e ∈ s.ban_db.toList, s.config.is_banned e → e.expires ≠ t) :
    s.main_ban_db_elems t = {k | Foreign ifs k ∧ s.Rejects t k}.ncard := by
  let live : BanEntry → Bool := fun e => e.expires > t && s.config.is_banned e
  have hnodup : ((s.ban_db.toList.filter live).map BanEntry.ip).Nodup :=
    s.ban_db.keyed.nodup.sublist (List.filter_sublist.map _)
  have hset : {k | Foreign ifs k ∧ s.Rejects t k} =
      ((s.ban_db.toList.filter live).map BanEntry.ip).toFinset := by
    ext k
    simp only [Set.mem_ofPred_eq, List.coe_toFinset, List.mem_map, List.mem_filter]
    constructor
    · rintro ⟨-, -, e, he, hle, hban⟩
      obtain ⟨hmem, hip⟩ := BanDb.find_eq_some.1 he
      have hne := hends e hmem hban
      have hlt : e.expires > t := by omega
      exact ⟨e, ⟨hmem, by simp [live, hlt, hban]⟩, hip⟩
    · rintro ⟨e, ⟨hmem, hlive⟩, hip⟩
      have hfind : s.ban_db.find k = some e := BanDb.find_eq_some.2 ⟨hmem, hip⟩
      simp only [live, Bool.and_eq_true, decide_eq_true_eq] at hlive
      exact ⟨hforeign k (by rw [hfind]; rfl), hmax, e, hfind, by omega, hlive.2⟩
  rw [main_ban_db_elems, if_neg hmax, hset, Set.ncard_coe_finset,
    List.toFinset_card_of_nodup hnodup, List.length_map, List.countP_eq_length_filter]

end Bans

/-- Clean-up at `t` changes no later answer, unless it drops an entry whose ban ends in that
very second; and the number of banned addresses is that of the addresses a check would
reject, unless a ban ends in that second or points were added to an address of the server's
own networks. -/
theorem cleanup_unobservable (c : BanCfg) (ifs : List IfAddress)
    (earlier later : List (Int × BanCall)) (t : Int)
    (hclock : (earlier.map Prod.fst ++ t :: later.map Prod.fst).Pairwise (· ≤ ·))
    (hok : ∀ x ∈ earlier ++ later, x.2.Ok) {s : Bans}
    (hs : s = (Bans.start c ifs).after earlier) :
    ((∀ e ∈ s.ban_db.toList, c.is_banned e → e.expires = t →
        t ≤ e.last_reset + c.ban_reset_time) →
      (s.cleanup_banned_entries t).answers later = s.answers later) ∧
    ((∀ e ∈ s.ban_db.toList, c.is_banned e → e.expires ≠ t) →
      (∀ x ∈ earlier, x.2.Foreign ifs) →
      s.main_ban_db_elems t = {k | Foreign ifs k ∧ s.Rejects t k}.ncard) := by
  obtain ⟨hconfig, hifs⟩ := Bans.after_config earlier (Bans.start c ifs)
  rw [← hs] at hconfig hifs
  replace hconfig : s.config = c := hconfig
  replace hifs : s.if_addresses = ifs := hifs
  by_cases hmax : s.config.max_ban_score = 0
  · refine ⟨fun _ => Bans.answers_off _ _ later rfl hmax, fun _ _ => ?_⟩
    have hempty : {k | Foreign ifs k ∧ s.Rejects t k} = ∅ :=
      Set.eq_empty_iff_forall_notMem.2 fun k hk => hk.2.1 hmax
    rw [hempty, Set.ncard_empty, Bans.main_ban_db_elems, if_pos hmax]
  refine ⟨fun hends => ?_, fun hends hforeign => ?_⟩
  · have hlater : ∀ x ∈ later, t ≤ x.1 ∧ x.2.Ok := by
      intro x hx
      have hle := (pairwise_append.1 hclock).2.1
      exact ⟨(pairwise_cons.1 hle).1 x.1 (mem_map_of_mem hx),
        hok x (mem_append_right _ hx)⟩
    rw [← hconfig] at hends
    exact (Bans.cleanup_hides hmax hends).answers later hmax hlater
  · rw [← hconfig] at hends
    apply Bans.main_ban_db_elems_eq hmax _ hends
    rw [hs, ← show (Bans.start c ifs).if_addresses = ifs from rfl]
    apply Bans.foreign_after earlier
    · rw [hconfig] at hmax
      exact hmax
    · intro k hk
      simp [Bans.start] at hk
    · exact fun x hx => ⟨hok x (mem_append_left _ hx), hforeign x hx⟩

end Cleanup

section Examples

local instance cleanupPlatform : Platform := Platform.simple

/-- An address that is banned late in its period, with the default settings: its ban ends at
1300, after the period. -/
private def lateBan : List (Int × BanCall) :=
  [(0, .add (some quad) 40), (1000, .add (some quad) 40)]

theorem cleanup_unobservable_rejected : ∃ _ : Platform, ∃ s : Bans,
    s = (Bans.start {} []).after lateBan ∧
      (s.cleanup_banned_entries 1299).answers [(1300, .check quadAddr)] =
        s.answers [(1300, .check quadAddr)] ∧
      s.main_ban_db_elems 1299 = {k | Foreign [] k ∧ s.Rejects 1299 k}.ncard := by
  refine ⟨cleanupPlatform, _, rfl, ?_⟩
  obtain ⟨hanswers, hcount⟩ := cleanup_unobservable {} [] lateBan [(1300, .check quadAddr)] 1299
    (by decide) (by decide +kernel) rfl
  refine ⟨hanswers (by decide +kernel), hcount (by decide +kernel) ?_⟩
  have hquad : ∀ n, (BanCall.add (some quad) n).Foreign [] := by
    intro n a ha
    have hread : read_ip quad = some (Addr.v4 0xc0000201#32).bytes := by decide +kernel
    obtain rfl := some.inj (hread.symm.trans ha)
    exact ⟨quadAddr, by decide +kernel⟩
  intro x hx
  simp only [lateBan, mem_cons, not_mem_nil, or_false] at hx
  rcases hx with rfl | rfl <;> exact hquad 40

/-- An interface of the server on the network of `quad`. -/
private def quadNet : IfAddress :=
  ⟨(Addr.v4 0xc00002fe#32).sockaddr, (Addr.v4 0xffffff00#32).sockaddr⟩

private theorem not_foreign_quad : ¬ Foreign [quadNet] (Addr.v4 0xc0000201#32).bytes := by
  rintro ⟨addr, ⟨hsize, hok⟩, hlocal, hk⟩
  have hlen : addr.generic.length = 4 := by
    rw [← massage_length, hk]
    decide
  rw [massage_ipv6_address, if_neg (by omega)] at hk
  rcases hok with ⟨hlen', hfamily⟩ | ⟨hlen', -⟩
  · have hip : (addr.data.drop 4).take 4 = (Addr.v4 0xc0000201#32).bytes := by
      rw [← hk, SockBuf.generic, sa_in_generic, if_pos hlen']
    have hnet : test_local (Addr.v4 0xc0000201#32).bytes ((quadNet.if_addr.drop 4).take 4)
        ((quadNet.if_netmask.drop 4).take 4) := by decide
    apply hlocal
    rw [if_address_test_local, any_cons, hfamily, if_neg (by decide), if_pos (by decide),
      test_local_ipv4, hip, hnet]
    rfl
  · rw [SockBuf.generic, sa_in_generic, if_neg (by omega)] at hlen
    have hsize' : addr.data.length = 128 := hsize
    simp [hsize'] at hlen

/-- In the second in which the ban ends a check still rejects the address, but clean-up
forgets it, and it is not counted.  An address on a network of the server is counted and
never rejected. -/
theorem cleanup_observable : ∃ _ : Platform,
    (∃ s : Bans, s = (Bans.start {} []).after lateBan ∧
      s.answers [(1300, .check quadAddr)] = [1] ∧
      (s.cleanup_banned_entries 1300).answers [(1300, .check quadAddr)] = [0] ∧
      s.main_ban_db_elems 1300 = 0 ∧ ∃ k, Foreign [] k ∧ s.Rejects 1300 k) ∧
    ∃ s : Bans, s = (Bans.start {} [quadNet]).after failures ∧
      s.main_ban_db_elems 20 = 1 ∧ ∀ k, ¬ (Foreign [quadNet] k ∧ s.Rejects 20 k) := by
  refine ⟨cleanupPlatform, ⟨_, rfl, by decide +kernel, by decide +kernel, by decide +kernel,
    (Addr.v4 0xc0000201#32).bytes, ⟨quadAddr, by decide +kernel⟩, by decide, ?_⟩,
    _, rfl, by decide +kernel, ?_⟩
  · exact ⟨⟨(Addr.v4 0xc0000201#32).bytes, 80, 0, 1300⟩, by decide +kernel⟩
  · rintro k ⟨hforeign, -, e, he, -⟩
    have hlist : ((Bans.start {} [quadNet]).after failures).ban_db.toList.map BanEntry.ip =
        [(Addr.v4 0xc0000201#32).bytes] := by decide +kernel
    obtain ⟨hmem, hip⟩ := BanDb.find_eq_some.1 he
    have hkey : k ∈ [(Addr.v4 0xc0000201#32).bytes] :=
      hlist ▸ hip ▸ mem_map_of_mem hmem
    rw [mem_singleton] at hkey
    exact not_foreign_quad (hkey ▸ hforeign)

end Examples
end Ocserv

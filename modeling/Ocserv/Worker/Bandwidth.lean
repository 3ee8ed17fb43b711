import Mathlib.Algebra.Group.Nat.Defs
import Mathlib.Algebra.GroupWithZero.Nat
import Mathlib.Tactic.Linarith
import Mathlib.Tactic.Positivity
import Mathlib.Tactic.Zify

/-!
# The bandwidth limiter

`bandwidth_update` decides for each packet of a direction whether it is within the configured
rate.  It counts the bytes of a window of at least `COUNT_UPDATE_MS`; the packet that opens a
window is always accepted, and what a window may carry is computed from what the last one left
over, never more than the amount of one second.
-/

namespace Ocserv.Bandwidth

def COUNT_UPDATE_MS : Nat := 500

/-- `struct timespec`, a time since the epoch. -/
structure timespec where
  tv_sec : Nat
  tv_nsec : Nat
  nsec_lt : tv_nsec < 1000000000 := by decide
deriving DecidableEq, Repr

/-- The time in nanoseconds. -/
def timespec.ns (t : timespec) : Nat := t.tv_sec * 1000000000 + t.tv_nsec

def timespec.ms (t : timespec) : Nat := t.tv_sec * 1000 + t.tv_nsec / (1000 * 1000)

/-- The result is an `unsigned int`. -/
def timespec_sub_ms (a b : timespec) : Nat := (((a.ms : Int) - b.ms) % 2 ^ 32).toNat

/-- `bandwidth_st`; the numbers are `size_t`. -/
structure bandwidth_st where
  count_start : timespec := ⟨0, 0, by decide⟩
  transferred_bytes : Nat := 0
  allowed_kb : Nat := 0
  allowed_kb_per_count : Nat
  kb_per_sec : Nat
deriving DecidableEq, Repr

def bandwidth_init (kb_per_sec : Nat) : bandwidth_st where
  allowed_kb_per_count := kb_per_sec * COUNT_UPDATE_MS % 2 ^ 64 / 1000
  kb_per_sec := kb_per_sec

/-- What the worker hands to `bandwidth_init` for a configured number of bytes: the option is
read in kilobytes, and `GroupCfgSt` carries it to the worker in an `uint32`. -/
def configured_kb (per_sec : Nat) : Nat := per_sec / 1000 % 2 ^ 32

def _bandwidth_update (b : bandwidth_st) (bytes : Nat) (now : timespec) : bandwidth_st × Bool :=
  let diff := timespec_sub_ms now b.count_start
  if COUNT_UPDATE_MS ≤ diff then
    let transferred_kb := b.transferred_bytes / 1000 * COUNT_UPDATE_MS % 2 ^ 64 / diff
    -- `remain` and `t` are signed, but `MIN` compares `t` as a `size_t`
    let remain := (b.allowed_kb + 2 ^ 64 - transferred_kb) % 2 ^ 64
    let t := (b.allowed_kb_per_count + remain) % 2 ^ 64
    ({ b with count_start := now, allowed_kb := min t b.kb_per_sec,
              transferred_bytes := bytes }, true)
  else
    let sum := (b.transferred_bytes + bytes) % 2 ^ 64
    if b.allowed_kb * 1000 % 2 ^ 64 < sum then (b, false)
    else ({ b with transferred_bytes := sum }, true)

def bandwidth_update (b : bandwidth_st) (bytes : Nat) (now : timespec) : bandwidth_st × Bool :=
  if b.kb_per_sec = 0 then (b, true) else _bandwidth_update b bytes now

/-- A packet that `bandwidth_update` is asked about. -/
structure Call where
  bytes : Nat
  now : timespec

/-- The packets that are accepted. -/
def accepted (b : bandwidth_st) : List Call → List Call
  | [] => []
  | c :: cs =>
    let r := bandwidth_update b c.bytes c.now
    if r.2 then c :: accepted r.1 cs else accepted r.1 cs

def bytes_of (cs : List Call) : Nat := (cs.map Call.bytes).sum

/-- The packet comes in the `T` milliseconds from `start` (in nanoseconds) on. -/
def Call.within (start T : Nat) (c : Call) : Bool :=
  start ≤ c.now.ns && c.now.ns ≤ start + T * 1000000

/-- The bytes accepted in an interval, with a limit of `per_sec` bytes configured. -/
def accepted_bytes (per_sec start T : Nat) (cs : List Call) : Nat :=
  bytes_of ((accepted (bandwidth_init (configured_kb per_sec)) cs).filter (Call.within start T))

/-! ## One packet -/

theorem timespec.ms_eq (t : timespec) : t.ms = t.ns / 1000000 := by
  have h := t.nsec_lt
  unfold timespec.ms timespec.ns
  omega

theorem timespec.ms_le {t u : timespec} (h : t.ns ≤ u.ns) : t.ms ≤ u.ms := by
  rw [ms_eq, ms_eq]
  exact Nat.div_le_div_right h

/-- What a limiter of `k` kilobytes per second keeps to, for packets of at most half a second's
amount. -/
structure Limited (k : Nat) (b : bandwidth_st) : Prop where
  rate : b.kb_per_sec = k
  half : b.allowed_kb_per_count = k / 2
  allowed : b.allowed_kb ≤ k
  transferred : b.transferred_bytes ≤ 1000 * max b.allowed_kb (k / 2)

/-- What happens to a packet.  A window of `d` milliseconds is charged to the next one: what it
has carried is paid by `d` and by the allowance that is lost. -/
inductive Decided (k : Nat) (b : bandwidth_st) (c : Call) : bandwidth_st × Bool → Prop
  | opens (b' : bandwidth_st) (later : b.count_start.ms + COUNT_UPDATE_MS ≤ c.now.ms)
      (start : b'.count_start = c.now) (counted : b'.transferred_bytes = c.bytes)
      (charged : 10 * b.transferred_bytes + 11000 * b'.allowed_kb ≤
        11 * (k * (c.now.ms - b.count_start.ms)) + 11000 * b.allowed_kb + 20990) :
      Decided k b c (b', true)
  | refused : Decided k b c (b, false)
  | counted (b' : bandwidth_st) (start : b'.count_start = b.count_start)
      (counted : b'.transferred_bytes = b.transferred_bytes + c.bytes)
      (allowed : b'.allowed_kb = b.allowed_kb) : Decided k b c (b', true)

variable {k : Nat} {b : bandwidth_st} {c : Call}

/-- The window does not begin after the packet. -/
theorem Decided.count_start_le {r : bandwidth_st × Bool} (h : Decided k b c r)
    (hnow : b.count_start.ms ≤ c.now.ms) : r.1.count_start.ms ≤ c.now.ms := by
  cases h with
  | opens b' _ hs => exact hs ▸ Nat.le_refl _
  | refused => exact hnow
  | counted b' hs => exact hs ▸ hnow

/-- Of `y` kilobytes in `d` milliseconds, a tenth more than the rate is paid by the time and the
rest by what the next window is charged, up to the kilobyte that the division loses.  The worst
window is one of about 705 milliseconds that carries the amount of a second. -/
theorem charge_le {y d : Nat} (hd : 500 ≤ d) (hy : y ≤ k) :
    10000 * y + 5500 * k ≤ 11 * (k * d) + 11000 * (y * 500 / d + 1) := by
  have hdiv : 500 * y < (y * 500 / d + 1) * d := by
    rw [Nat.mul_comm 500]
    exact Nat.lt_mul_of_div_lt (Nat.lt_succ_self _) (by omega)
  zify at hd hy hdiv ⊢
  have hfull : (0 : Int) ≤ y * (11 * d ^ 2 - 15500 * d + 5500000) :=
    mul_nonneg (by positivity) (by nlinarith [sq_nonneg ((22 : Int) * d - 15500)])
  have hidle : (0 : Int) ≤ (k - y) * (d * (d - 500)) :=
    mul_nonneg (by linarith) (mul_nonneg (by linarith) (by linarith))
  nlinarith

/-- What an allowance leaves for the next window does not wrap. -/
theorem carried_eq {P A q : Nat} (hq : q ≤ P + A) (hfit : P + A < 2 ^ 64) :
    (P + (A + 2 ^ 64 - q) % 2 ^ 64) % 2 ^ 64 = P + A - q := by
  omega

theorem Limited.update (h : Limited k b) (hk : 0 < k) (hk32 : k < 2 ^ 32)
    (hsize : c.bytes ≤ 1000 * (k / 2)) (hnow : b.count_start.ms ≤ c.now.ms) :
    Decided k b c (bandwidth_update b c.bytes c.now) ∧
      Limited k (bandwidth_update b c.bytes c.now).1 := by
  obtain ⟨hrate, hhalf, hallowed, htrans⟩ := h
  have hon : ¬ b.kb_per_sec = 0 := by omega
  simp only [bandwidth_update, if_neg hon, _bandwidth_update]
  split
  next hdiff =>
    generalize hd : timespec_sub_ms c.now b.count_start = d at hdiff
    have hle : d ≤ c.now.ms - b.count_start.ms ∧ b.count_start.ms + 500 ≤ c.now.ms := by
      simp only [COUNT_UPDATE_MS, timespec_sub_ms] at hd hdiff
      omega
    obtain ⟨y, hy⟩ : ∃ y, y = b.transferred_bytes / 1000 := ⟨_, rfl⟩
    have hyk : y ≤ max b.allowed_kb (k / 2) := by omega
    have hcharge := charge_le (k := k) hdiff (show y ≤ k by omega)
    have hq : y * 500 / d ≤ y :=
      Nat.div_le_of_le_mul (Nat.mul_comm d y ▸ Nat.mul_le_mul_left y hdiff)
    have hkd : k * d ≤ k * (c.now.ms - b.count_start.ms) := Nat.mul_le_mul_left k hle.1
    have hfit : y * COUNT_UPDATE_MS % 2 ^ 64 = y * 500 := by
      simp only [COUNT_UPDATE_MS]
      omega
    rw [← hy, hfit]
    generalize y * 500 / d = q at hcharge hq
    have hroom : q ≤ b.allowed_kb_per_count + b.allowed_kb := by omega
    rw [carried_eq hroom (by omega), hrate, hhalf]
    refine ⟨.opens _ hle.2 rfl rfl ?_, rfl, rfl, min_le_right _ _, ?_⟩
    · show 10 * b.transferred_bytes + 11000 * min (k / 2 + b.allowed_kb - q) k ≤ _
      omega
    · exact hsize.trans (Nat.mul_le_mul_left _ (le_max_right _ _))
  next =>
    have hsum : (b.transferred_bytes + c.bytes) % 2 ^ 64 = b.transferred_bytes + c.bytes :=
      Nat.mod_eq_of_lt (by omega)
    have hroom : b.allowed_kb * 1000 % 2 ^ 64 = b.allowed_kb * 1000 :=
      Nat.mod_eq_of_lt (by omega)
    rw [hsum, hroom]
    split
    · exact ⟨.refused, hrate, hhalf, hallowed, htrans⟩
    · refine ⟨.counted _ rfl rfl rfl, hrate, hhalf, hallowed, ?_⟩
      show b.transferred_bytes + c.bytes ≤ 1000 * max b.allowed_kb (k / 2)
      omega

/-! ## The packets of an interval -/

/-- The times do not decrease. -/
def InOrder (cs : List Call) : Prop := cs.Pairwise fun c d => c.now.ns ≤ d.now.ns

theorem accepted_subset : ∀ (b : bandwidth_st) (cs : List Call), accepted b cs ⊆ cs
  | _, [] => by simp [accepted]
  | b, c :: cs => by
    have ih := accepted_subset (bandwidth_update b c.bytes c.now).1 cs
    simp only [accepted]
    split
    · exact List.cons_subset_cons c ih
    · exact List.subset_cons_of_subset c ih

theorem bytes_of_filter_cons (start T : Nat) (c : Call) (cs : List Call) :
    bytes_of ((c :: cs).filter (Call.within start T)) =
      (if c.within start T then c.bytes else 0) + bytes_of (cs.filter (Call.within start T)) := by
  simp only [List.filter_cons, bytes_of]
  split <;> simp

/-- What is accepted in an interval is what is accepted of the first packet and the rest. -/
theorem bytes_accepted_cons (b : bandwidth_st) (start T : Nat) (c : Call) (cs : List Call) :
    bytes_of ((accepted b (c :: cs)).filter (Call.within start T)) =
      (if (bandwidth_update b c.bytes c.now).2 && c.within start T then c.bytes else 0) +
        bytes_of ((accepted (bandwidth_update b c.bytes c.now).1 cs).filter
          (Call.within start T)) := by
  simp only [accepted]
  cases hok : (bandwidth_update b c.bytes c.now).2 with
  | true => simp [bytes_of_filter_cons]
  | false => simp

theorem bytes_accepted_after (b : bandwidth_st) {start T : Nat} {cs : List Call}
    (hcs : ∀ c ∈ cs, start + T * 1000000 < c.now.ns) :
    bytes_of ((accepted b cs).filter (Call.within start T)) = 0 := by
  have hnone : (accepted b cs).filter (Call.within start T) = [] := by
    rw [List.filter_eq_nil_iff]
    intro c hc
    have hlate := hcs c (accepted_subset b cs hc)
    simp only [Call.within, Bool.and_eq_true, decide_eq_true_eq]
    omega
  simp [hnone, bytes_of]

variable {start T s : Nat} {cs : List Call}

/-- What a limiter whose open window began at `σ` can still carry until `E`, ten times the bytes:
the time and the allowance that are left, two kilobytes lost for each window, and one more
second for the last one. -/
def budget (k E σ allowed : Nat) : Nat :=
  11 * (k * (E - σ)) + 11000 * allowed + 20990 * ((E - σ) / 500) + 10000 * k

/-- The same for a window that may have begun before the interval from `s` on. -/
def budget_from (k s T : Nat) (b : bandwidth_st) : Nat :=
  if s ≤ b.count_start.ms then budget k (s + T) b.count_start.ms b.allowed_kb
  else budget k (s + T) s k + 10000 * k

theorem budget_le {E σ allowed : Nat} (hs : s ≤ σ) (hallowed : allowed ≤ k) :
    budget k E σ allowed ≤ budget k E s k := by
  have htime := Nat.mul_le_mul_left k (show E - σ ≤ E - s by omega)
  unfold budget
  omega

theorem Limited.transferred_le (h : Limited k b) : b.transferred_bytes ≤ 1000 * k := by
  have hallowed := h.allowed
  have htransferred := h.transferred
  omega

theorem Limited.spent_le (h : Limited k b) :
    10 * b.transferred_bytes ≤ budget_from k s T b := by
  have htransferred := h.transferred_le
  unfold budget_from budget
  split <;> omega

/-- A window that ends has spent what its end takes off the budget. -/
theorem Limited.budget_opens {b' : bandwidth_st} (h : Limited k b) (h' : Limited k b')
    (hopen : b.count_start.ms + 500 ≤ b'.count_start.ms) (hs : s ≤ b'.count_start.ms)
    (hT : b'.count_start.ms ≤ s + T)
    (hcharged : 10 * b.transferred_bytes + 11000 * b'.allowed_kb ≤
      11 * (k * (b'.count_start.ms - b.count_start.ms)) + 11000 * b.allowed_kb + 20990) :
    10 * b.transferred_bytes + budget_from k s T b' ≤ budget_from k s T b := by
  have htransferred := h.transferred_le
  rw [budget_from, if_pos hs, budget_from]
  split
  · have htime : k * (s + T - b.count_start.ms) = k * (s + T - b'.count_start.ms) +
        k * (b'.count_start.ms - b.count_start.ms) := by
      rw [← Nat.mul_add]
      congr 1
      omega
    unfold budget
    omega
  · have hle := budget_le (k := k) (E := s + T) hs h'.allowed
    omega

/-- From the start of the interval on, the windows carry what the budget has. -/
theorem Limited.bytes_from (hk : 0 < k) (hk32 : k < 2 ^ 32)
    (hsize : ∀ c ∈ cs, c.bytes ≤ 1000 * (k / 2)) (horder : InOrder cs) (h : Limited k b)
    (hnow : ∀ c ∈ cs, b.count_start.ms ≤ c.now.ms) (hstart : ∀ c ∈ cs, start ≤ c.now.ns) :
    10 * (b.transferred_bytes + bytes_of ((accepted b cs).filter (Call.within start T))) ≤
      budget_from k (start / 1000000) T b := by
  induction cs generalizing b with
  | nil => simpa [accepted, bytes_of] using h.spent_le
  | cons c cs ih =>
    obtain ⟨hfirst, hrest⟩ := List.pairwise_cons.mp horder
    obtain ⟨hc, hsize⟩ := List.forall_mem_cons.mp hsize
    obtain ⟨hcnow, hnow⟩ := List.forall_mem_cons.mp hnow
    by_cases hlate : start + T * 1000000 < c.now.ns
    · rw [bytes_accepted_after b]
      · exact h.spent_le
      · intro d hd
        rcases List.mem_cons.mp hd with rfl | hd
        · exact hlate
        · exact hlate.trans_le (hfirst d hd)
    · obtain ⟨hdecided, hlim⟩ := h.update hk hk32 hc hcnow
      rw [bytes_accepted_cons]
      have hrest := ih hsize hrest hlim
        (fun d hd => (hdecided.count_start_le hcnow).trans (timespec.ms_le (hfirst d hd)))
        fun d hd => hstart d (List.mem_cons_of_mem c hd)
      have hcount : (if (true && c.within start T) then c.bytes else 0) ≤ c.bytes := by
        split <;> omega
      generalize bandwidth_update b c.bytes c.now = r at hdecided hrest hlim
      cases hdecided with
      | opens b' hopen hs hx hcharged =>
        rw [← hs] at hopen hcharged
        have hopens := h.budget_opens (s := start / 1000000) (T := T) hlim hopen ?_ ?_ hcharged
        · dsimp only at hrest hopens ⊢
          omega
        · rw [hs, timespec.ms_eq]
          exact Nat.div_le_div_right (hstart c List.mem_cons_self)
        · rw [hs, timespec.ms_eq, ← Nat.add_mul_div_right _ _ (by decide)]
          exact Nat.div_le_div_right (Nat.le_of_not_lt hlate)
      | refused => simpa using hrest
      | counted b' hs hx ha =>
        have hsame : budget_from k (start / 1000000) T b' =
            budget_from k (start / 1000000) T b := by
          rw [budget_from, budget_from, hs, ha]
        dsimp only at hrest ⊢
        omega

/-- The packets before the interval do not count, but they keep the limiter's state. -/
theorem Limited.bytes_le (hk : 0 < k) (hk32 : k < 2 ^ 32)
    (hsize : ∀ c ∈ cs, c.bytes ≤ 1000 * (k / 2)) (horder : InOrder cs) (h : Limited k b)
    (hnow : ∀ c ∈ cs, b.count_start.ms ≤ c.now.ms) :
    10 * bytes_of ((accepted b cs).filter (Call.within start T)) ≤
      11 * (k * T) + 31000 * k + 20990 * (T / 500) := by
  induction cs generalizing b with
  | nil => simp [accepted, bytes_of]
  | cons c cs ih =>
    obtain ⟨hfirst, hrest⟩ := List.pairwise_cons.mp horder
    by_cases hearly : c.now.ns < start
    · obtain ⟨hc, hsize⟩ := List.forall_mem_cons.mp hsize
      obtain ⟨hcnow, hnow⟩ := List.forall_mem_cons.mp hnow
      obtain ⟨hdecided, hlim⟩ := h.update hk hk32 hc hcnow
      have hout : c.within start T = false := by simp [Call.within, hearly]
      rw [bytes_accepted_cons, hout, Bool.and_false, if_neg Bool.false_ne_true, Nat.zero_add]
      exact ih hsize hrest hlim fun d hd =>
        (hdecided.count_start_le hcnow).trans (timespec.ms_le (hfirst d hd))
    · have hstart : ∀ d ∈ c :: cs, start ≤ d.now.ns := by
        intro d hd
        rcases List.mem_cons.mp hd with rfl | hd
        · exact Nat.le_of_not_lt hearly
        · exact (Nat.le_of_not_lt hearly).trans (hfirst d hd)
      have hbytes := h.bytes_from (T := T) hk hk32 hsize horder hnow hstart
      have hmost : budget_from k (start / 1000000) T b ≤
          budget k (start / 1000000 + T) (start / 1000000) k + 10000 * k := by
        unfold budget_from
        split
        · next hs => exact Nat.le_add_right_of_le (budget_le hs h.allowed)
        · exact Nat.le_refl _
      rw [budget, Nat.add_sub_cancel_left] at hmost
      omega

theorem limited_init (hk32 : k < 2 ^ 32) : Limited k (bandwidth_init k) where
  rate := rfl
  half := by
    simp only [bandwidth_init, COUNT_UPDATE_MS]
    omega
  allowed := Nat.zero_le _
  transferred := Nat.zero_le _

theorem accepted_disabled : ∀ cs : List Call, accepted (bandwidth_init 0) cs = cs
  | [] => rfl
  | c :: cs => by
    have hupdate : bandwidth_update (bandwidth_init 0) c.bytes c.now = (bandwidth_init 0, true) :=
      if_pos rfl
    simp only [accepted, hupdate, if_true, accepted_disabled cs]

/-! ## The limit -/

/-- With at least a kilobyte per second configured, and packets of at most half a second's amount,
an interval of `T` milliseconds carries at most a tenth more than the rate, and beyond that the
amount of 3.1 seconds and two kilobytes for each half second; below a kilobyte the limiter is
off. -/
theorem accepted_bytes_le (per_sec start T : Nat) (cs : List Call) (horder : InOrder cs) :
    (0 < configured_kb per_sec → (∀ c ∈ cs, c.bytes ≤ 1000 * (configured_kb per_sec / 2)) →
      10 * accepted_bytes per_sec start T cs ≤
        11 * (configured_kb per_sec * T) + 31000 * configured_kb per_sec + 20990 * (T / 500)) ∧
    (configured_kb per_sec = 0 → accepted (bandwidth_init (configured_kb per_sec)) cs = cs) := by
  have hk32 : configured_kb per_sec < 2 ^ 32 := Nat.mod_lt _ (by decide)
  constructor
  · intro hk hsize
    exact (limited_init hk32).bytes_le hk hk32 hsize horder fun c _ => by
      simp [bandwidth_init, timespec.ms]
  · intro hoff
    rw [hoff]
    exact accepted_disabled cs

/-! ## More than the rate -/

/-- The time `ms` milliseconds after the epoch. -/
def at_ms (ms : Nat) : timespec where
  tv_sec := ms / 1000
  tv_nsec := ms % 1000 * 1000000
  nsec_lt := by omega

theorem ns_at_ms (ms : Nat) : (at_ms ms).ns = ms * 1000000 := by
  simp only [at_ms, timespec.ns]
  omega

theorem sub_at_ms {t u d : Nat} (hu : u = t + d) (hd : d < 2 ^ 32) :
    timespec_sub_ms (at_ms u) (at_ms t) = d := by
  simp only [timespec_sub_ms, timespec.ms_eq, ns_at_ms]
  omega

/-- With 10 kilobytes per second configured: all of a full allowance in a window of 700
milliseconds, and one of 500 that lets the allowance recover. -/
def cycle (t : Nat) : List Call :=
  [⟨5000, at_ms t⟩, ⟨5000, at_ms t⟩, ⟨3000, at_ms (t + 700)⟩]

/-- The first packet of a cycle finds the allowance full. -/
def Full (b : bandwidth_st) (t : Nat) : Prop :=
  bandwidth_update b 5000 (at_ms t) = (⟨at_ms t, 5000, 10, 5, 10⟩, true)

theorem full_after (t : Nat) : Full ⟨at_ms (t + 700), 3000, 8, 5, 10⟩ (t + 1200) := by
  have hdiff : timespec_sub_ms (at_ms (t + 1200)) (at_ms (t + 700)) = 500 :=
    sub_at_ms (by omega) (by decide)
  simp only [Full, bandwidth_update, _bandwidth_update, hdiff]
  rfl

theorem accepted_cycle {t : Nat} (h : Full b t) (cs : List Call) :
    accepted b (cycle t ++ cs) =
      cycle t ++ accepted ⟨at_ms (t + 700), 3000, 8, 5, 10⟩ cs := by
  have hsame : timespec_sub_ms (at_ms t) (at_ms t) = 0 := sub_at_ms rfl (by decide)
  have hlater : timespec_sub_ms (at_ms (t + 700)) (at_ms t) = 700 := sub_at_ms rfl (by decide)
  have hsecond : bandwidth_update ⟨at_ms t, 5000, 10, 5, 10⟩ 5000 (at_ms t) =
      (⟨at_ms t, 10000, 10, 5, 10⟩, true) := by
    simp only [bandwidth_update, _bandwidth_update, hsame]
    rfl
  have hthird : bandwidth_update ⟨at_ms t, 10000, 10, 5, 10⟩ 3000 (at_ms (t + 700)) =
      (⟨at_ms (t + 700), 3000, 8, 5, 10⟩, true) := by
    simp only [bandwidth_update, _bandwidth_update, hlater]
    rfl
  have hfirst : bandwidth_update b 5000 (at_ms t) = (⟨at_ms t, 5000, 10, 5, 10⟩, true) := h
  simp [cycle, accepted, hfirst, hsecond, hthird]

/-- Cycles one after the other, each of 13 kilobytes in 1.2 seconds, are accepted. -/
theorem exists_cycles {t : Nat} (h : Full b t) (n : Nat) : ∃ cs, accepted b cs = cs ∧ InOrder cs ∧
    bytes_of cs = 13000 * n ∧ ∀ c ∈ cs, c.bytes ≤ 5000 ∧ t * 1000000 ≤ c.now.ns ∧
      c.now.ns ≤ (t + 1200 * n) * 1000000 := by
  induction n generalizing b t with
  | zero => exact ⟨[], rfl, .nil, rfl, by simp⟩
  | succ n ih =>
    obtain ⟨cs, haccepted, horder, hbytes, hcs⟩ := ih (full_after t)
    have hend : t + 1200 + 1200 * n = t + 1200 * (n + 1) := by omega
    have hcycle : ∀ c ∈ cycle t, c.bytes ≤ 5000 ∧ t * 1000000 ≤ c.now.ns ∧
        c.now.ns ≤ (t + 700) * 1000000 := by
      simp only [cycle, List.forall_mem_cons, ns_at_ms]
      simp
    refine ⟨cycle t ++ cs, by rw [accepted_cycle h, haccepted], ?_, ?_, fun c hc => ?_⟩
    · refine List.pairwise_append.mpr ⟨?_, horder, fun c hc d hd => ?_⟩
      · simp [cycle, ns_at_ms]
      · exact (hcycle c hc).2.2.trans
          ((Nat.mul_le_mul_right _ (by omega)).trans (hcs d hd).2.1)
    · have hsum : ((cycle t).map Call.bytes).sum = 13000 := by simp [cycle]
      simp only [bytes_of, List.map_append, List.sum_append] at hbytes ⊢
      rw [hbytes, hsum, Nat.mul_add_one, Nat.add_comm]
    · rcases List.mem_append.mp hc with hc | hc
      · obtain ⟨hsize, hfrom, hto⟩ := hcycle c hc
        exact ⟨hsize, hfrom, hto.trans (Nat.mul_le_mul_right _ (by omega))⟩
      · obtain ⟨hsize, hfrom, hto⟩ := hcs c hc
        rw [hend] at hto
        exact ⟨hsize, (Nat.mul_le_mul_right _ (Nat.le_add_right t _)).trans hfrom, hto⟩

/-- In the long run more than the rate is accepted, so that no slack is enough that does not
depend on the time. -/
theorem no_constant_slack : ¬ ∃ slack, ∀ cs start T, (∀ c ∈ cs, c.bytes ≤ 5000) → InOrder cs →
    accepted_bytes 10000 start T cs ≤ 10000 * T / 1000 + slack := by
  rintro ⟨slack, hslack⟩
  -- the allowance fills up in an idle second
  have hfull : Full (bandwidth_update (bandwidth_init 10) 0 (at_ms 1000)).1 2000 := by
    unfold Full
    decide +kernel
  obtain ⟨cs, haccepted, horder, hbytes, hcs⟩ := exists_cycles hfull (slack + 1)
  have hwithin : ∀ c ∈ cs, c.within 2000000000 (1200 * (slack + 1)) := by
    intro c hc
    simpa [Call.within, Nat.add_mul] using (hcs c hc).2
  have hidle : Call.within 2000000000 (1200 * (slack + 1)) ⟨0, at_ms 1000⟩ = false := by
    simp [Call.within, ns_at_ms]
  have hover := hslack (⟨0, at_ms 1000⟩ :: cs) 2000000000 (1200 * (slack + 1))
    (List.forall_mem_cons.mpr ⟨Nat.zero_le _, fun c hc => (hcs c hc).1⟩)
    (List.pairwise_cons.mpr ⟨fun c hc => le_trans (by decide +kernel) (hcs c hc).2.1, horder⟩)
  have htotal : accepted_bytes 10000 2000000000 (1200 * (slack + 1)) (⟨0, at_ms 1000⟩ :: cs) =
      13000 * (slack + 1) := by
    show bytes_of ((accepted (bandwidth_init 10) (⟨0, at_ms 1000⟩ :: cs)).filter _) = _
    rw [bytes_accepted_cons, hidle, Bool.and_false, haccepted, List.filter_eq_self.mpr hwithin,
      hbytes]
    exact Nat.zero_add _
  rw [htotal] at hover
  omega

theorem accepted_bytes_le_cycle :
    accepted_bytes 10000 2000000000 1200 (cycle 1000 ++ cycle 2000) = 3000 ∧
    10 * accepted_bytes 10000 2000000000 1200 (cycle 1000 ++ cycle 2000) ≤
      11 * (10 * 1200) + 31000 * 10 + 20990 * (1200 / 500) :=
  ⟨by decide +kernel, (accepted_bytes_le 10000 2000000000 1200 (cycle 1000 ++ cycle 2000)
    (by unfold InOrder; decide +kernel)).1 (by decide) (by decide)⟩

end Ocserv.Bandwidth

import Ocserv.Proofs.System

/-!
# The candidates for an IPv6 address

Before the random ones, the loop of `get_ipv6_lease` tries candidates that depend on the seed of
the session only.  The first is made of the hash of the seed; each of the next ones is to be made
of the hash of the one before, as in `get_ipv4_lease`.  But the address is cleared at the start of
a round, so that all of them are made of the hash of zeros, whatever the seed is.

`ipv6_tries_chain_iff` says when the candidates nevertheless are the intended ones.
-/

namespace Ocserv

/-- A candidate and five tries of another one follow a chain, as far as they are made. -/
theorem tries_prefix_iff {α : Type} (free : α → Bool) (next : α → α) {c z : α} {tries : List α}
    (hfree : free z → tries = [z])
    (hrefused : free z = false → ∃ rest, tries = List.replicate 5 z ++ rest) :
    (c :: if free c then [] else tries).take 6 <+: (List.range 6).map (fun k => next^[k] c) ↔
      free c ∨ next c = z ∧ (free z ∨ next z = z) := by
  cases hc : free c with
  | true => simp [List.range_succ]
  | false =>
    cases hz : free z with
    | true => simp [hfree hz, List.range_succ, eq_comm]
    | false =>
      obtain ⟨rest, rfl⟩ := hrefused hz
      simp only [List.range_succ, List.replicate_succ]
      constructor
      · intro h
        simp at h
        exact .inr ⟨h.1.symm, .inr (h.1 ▸ h.2.1.symm)⟩
      · rintro (h | ⟨h, h' | h'⟩)
        · cases h
        · cases h'
        · simp [h, h']

section Candidates

variable [Platform]

/-- The address of a network that is made of a number. -/
def ipv6_candidate (network mask r : BitVec 128) : BitVec 128 := r &&& ~~~mask ||| network

/-- A candidate for which the loop ends; the prefix of the lease is not set yet, so there is no
ping. -/
def ipv6_free (db : LeaseDb) (network subnet_mask rnd : BitVec 128) : Bool :=
  is_ipv6_ok db network (rnd &&& subnet_mask)

/-- The candidates of the loop, one after the other. -/
def ipv6_tries (env : MainEnv) (db : LeaseDb) (seed : BitVec 32)
    (network mask subnet_mask : BitVec 128) : (max_loops : Nat) → List (BitVec 128)
  | 0 => []
  | n + 1 =>
    match ipv6_rnd env seed (n + 1) with
    | none => []
    | some r =>
      let rnd := ipv6_candidate network mask r
      rnd :: if ipv6_free db network subnet_mask rnd then []
        else ipv6_tries env db seed network mask subnet_mask n

/-- The candidate that follows another one. -/
def ipv6_next (network mask rnd : BitVec 128) : BitVec 128 :=
  ipv6_candidate network mask (ip_from_seed rnd 128)

/-- The first candidate. -/
def ipv6_first (network mask : BitVec 128) (seed : BitVec 32) : BitVec 128 :=
  ipv6_candidate network mask (ip_from_seed seed 128)

/-- The chain of the candidates: the hash of the seed, and then of the candidate before. -/
def ipv6_chain (network mask : BitVec 128) (seed : BitVec 32) (k : Nat) : BitVec 128 :=
  (ipv6_next network mask)^[k] (ipv6_first network mask seed)

variable (env : MainEnv) (db : LeaseDb) (seed : BitVec 32) (network mask subnet_mask : BitVec 128)

/-- The loop gives the first candidate that is free. -/
theorem ipv6_loop_eq_find (n : Nat) :
    ipv6_loop env db seed network mask subnet_mask 0 n =
      (ipv6_tries env db seed network mask subnet_mask n).find?
        (ipv6_free db network subnet_mask) := by
  induction n with
  | zero => rfl
  | succ n ih =>
    rw [ipv6_loop, ipv6_tries]
    cases ipv6_rnd env seed (n + 1) with
    | none => rfl
    | some r =>
      rw [List.find?_cons]
      cases hfree : ipv6_free db network subnet_mask (ipv6_candidate network mask r) with
      | true =>
        unfold ipv6_free ipv6_candidate at hfree
        simp [hfree, ipv6_candidate]
      | false =>
        unfold ipv6_free ipv6_candidate at hfree
        simpa [hfree] using ih

theorem ipv6_tries_first :
    ipv6_tries env db seed network mask subnet_mask MAX_IP_TRIES =
      ipv6_first network mask seed ::
        if ipv6_free db network subnet_mask (ipv6_first network mask seed) then []
        else ipv6_tries env db seed network mask subnet_mask (MAX_IP_TRIES - 1) := rfl

/-- The rounds after the first start from zeros. -/
theorem ipv6_tries_fixed {k : Nat} (hk : k < FIXED_IPS) :
    ipv6_tries env db seed network mask subnet_mask (MAX_IP_TRIES - FIXED_IPS - 1 + k + 1) =
      ipv6_next network mask 0 ::
        if ipv6_free db network subnet_mask (ipv6_next network mask 0) then []
        else ipv6_tries env db seed network mask subnet_mask
          (MAX_IP_TRIES - FIXED_IPS - 1 + k) := by
  have hrnd : ipv6_rnd env seed (MAX_IP_TRIES - FIXED_IPS - 1 + k + 1) =
      some (ip_from_seed (0 : BitVec 128) 128) := by
    unfold FIXED_IPS at hk
    rw [ipv6_rnd, MAX_IP_TRIES, FIXED_IPS, if_neg (by omega), if_neg (by omega)]
  rw [ipv6_tries, hrnd]
  rfl

/-- If the candidate of the hash of zeros is not free, it is tried in each of these rounds. -/
theorem ipv6_tries_refused {k : Nat} (hk : k ≤ FIXED_IPS)
    (hfree : ipv6_free db network subnet_mask (ipv6_next network mask 0) = false) :
    ∃ rest, ipv6_tries env db seed network mask subnet_mask (MAX_IP_TRIES - FIXED_IPS - 1 + k) =
      List.replicate k (ipv6_next network mask 0) ++ rest := by
  induction k with
  | zero => exact ⟨_, rfl⟩
  | succ k ih =>
    obtain ⟨rest, hrest⟩ := ih (Nat.le_of_succ_le hk)
    refine ⟨rest, ?_⟩
    rw [← Nat.add_assoc, ipv6_tries_fixed env db seed network mask subnet_mask hk, hfree,
      if_neg (by simp), hrest, List.replicate_succ, List.cons_append]

/-- The first tries follow the chain exactly if the first candidate is free, or the one after it
is that of the hash of zeros, and this one is free or follows itself. -/
theorem ipv6_tries_chain_iff :
    (ipv6_tries env db seed network mask subnet_mask MAX_IP_TRIES).take (FIXED_IPS + 1) <+:
        (List.range (FIXED_IPS + 1)).map (ipv6_chain network mask seed) ↔
      ipv6_free db network subnet_mask (ipv6_first network mask seed) ∨
        ipv6_next network mask (ipv6_first network mask seed) = ipv6_next network mask 0 ∧
          (ipv6_free db network subnet_mask (ipv6_next network mask 0) ∨
            ipv6_next network mask (ipv6_next network mask 0) = ipv6_next network mask 0) := by
  have hfixed := ipv6_tries_fixed env db seed network mask subnet_mask (k := 4) (by decide)
  have hrefused := ipv6_tries_refused env db seed network mask subnet_mask (Nat.le_refl FIXED_IPS)
  rw [ipv6_tries_first]
  refine tries_prefix_iff (ipv6_free db network subnet_mask) (ipv6_next network mask)
    (fun hfree => ?_) hrefused
  rw [hfree, if_pos rfl] at hfixed
  exact hfixed

end Candidates

section Example

/-- A hash that keeps its argument. -/
local instance candidatesPlatform : Platform :=
  { Platform.simple with sha1 := fun _ x => x.setWidth 160 <<< 32 }

private def network64 : BitVec 128 := 0x20010db8 <<< 96

private def mask64 : BitVec 128 := BitVec.allOnes 128 <<< 64

/-- The first candidates of two users are taken. -/
private def takenDb : LeaseDb :=
  let taken (n : Nat) : IpLease :=
    ⟨n, .v6 (ipv6_first network64 mask64 (BitVec.ofNat 32 n)), .v6 0, .v6 0, 128, true, true⟩
  (LeaseDb.empty.add (taken 1)).add (taken 2)

/-- Two users with different chains: all of their other tries are the same. -/
theorem ipv6_retries_equal :
    let tries seed :=
      (ipv6_tries Sample.env takenDb seed network64 mask64 (BitVec.allOnes 128) MAX_IP_TRIES).take 6
    (tries 1).length = 6 ∧ (tries 1).tail = (tries 2).tail ∧
      ipv6_chain network64 mask64 1 1 ≠ ipv6_chain network64 mask64 2 1 := by
  decide +kernel

end Example

end Ocserv

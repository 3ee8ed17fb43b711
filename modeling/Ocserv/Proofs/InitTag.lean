import Ocserv.SecMod.Session
import Ocserv.Proofs.Ipc

/-!
# The tag of the first authentication request

Main authenticates to sec-mod, through the worker, the address of the client, its own address
and the time at which the connection was accepted: it computes an HMAC over the three values, and
`handle_sec_auth_init` computes it again over the values of the worker's request.  The two
addresses are authenticated one after the other, without their lengths.  A worker can therefore
move the end of the first address, and nothing else: what it sends is what main has
authenticated if and only if its first address is as long as main's.
-/

namespace Ocserv

namespace SecMod

section Tag

variable [Platform]

/-- The tag that `listen_watcher_cb` computes for a new worker. -/
def sec_auth_init_hmac (hmac_key : List UInt8) (remote_ip_str our_ip_str : CStr)
    (session_start_time : Int) : List UInt8 :=
  generate_hmac hmac_key
    [some remote_ip_str.bytes, some our_ip_str.bytes,
      some (Platform.time_bytes session_start_time)]

/-- The values of a `time_t` of 64 bits. -/
def IsTime (t : Int) : Prop := -9223372036854775808 ≤ t ∧ t < 9223372036854775808

/-- The bytes of a `time_t` are a fixed number of bytes that determine it. -/
structure TimeBytes : Prop where
  length : ∀ t, (Platform.time_bytes t).length = 8
  inj : ∀ t t', IsTime t → IsTime t' → Platform.time_bytes t = Platform.time_bytes t' → t = t'

/-- The bytes that sec-mod authenticates. -/
def init_bytes (ip : CStr) (our_ip : Option CStr) (session_start_time : Int) : List UInt8 :=
  ip.bytes ++ (our_ip.elim [] CStr.bytes ++ Platform.time_bytes session_start_time)

theorem generate_hmac_init (key : List UInt8) (ip : CStr) (our_ip : Option CStr) (t : Int) :
    generate_hmac key [some ip.bytes, our_ip.map CStr.bytes, some (Platform.time_bytes t)] =
      Platform.hmac_sha256 key (init_bytes ip our_ip t) := by
  cases our_ip with
  | none => simp [generate_hmac, init_bytes]
  | some our => simp [generate_hmac, init_bytes]

/-- The time is at the end and has a fixed length: what the addresses share out among
themselves is what is left. -/
theorem init_bytes_inj (henc : TimeBytes) {ip ip' : CStr} {our our' : Option CStr} {t t' : Int}
    (ht : IsTime t) (ht' : IsTime t') (h : init_bytes ip our t = init_bytes ip' our' t') :
    ip.bytes ++ our.elim [] CStr.bytes = ip'.bytes ++ our'.elim [] CStr.bytes ∧ t = t' := by
  rw [init_bytes, init_bytes, ← List.append_assoc, ← List.append_assoc] at h
  obtain ⟨haddr, htime⟩ := List.append_inj' h (by rw [henc.length, henc.length])
  exact ⟨haddr, henc.inj t t' ht ht' htime⟩

omit [Platform] in
@[simp] theorem length_bytes (s : CStr) : s.bytes.length = s.length := by
  simp [CStr.bytes]

variable {env : SecEnv} {sec : SecMod} {req : SecAuthInitMsg} {pid : Nat}

theorem handle_sec_auth_init_of_not_authentic (h : init_authentic env sec req = false) :
    handle_sec_auth_init env sec req pid = (sec, -1) := by
  simp [handle_sec_auth_init, h]

/-- A request that is not refused carries the HMAC of its own parameters. -/
theorem hmac_of_accepted (h : handle_sec_auth_init env sec req pid ≠ (sec, -1)) :
    ∃ ip, req.orig_remote_ip = some ip ∧
      Platform.hmac_sha256 sec.hmac_key (init_bytes ip req.our_ip req.session_start_time) =
        req.hmac := by
  have hauth : init_authentic env sec req :=
    Bool.not_eq_false _ ▸ mt handle_sec_auth_init_of_not_authentic h
  cases hip : req.orig_remote_ip with
  | none => simp [init_authentic, hip] at hauth
  | some ip =>
    simp only [init_authentic, hip, Bool.and_eq_true, beq_iff_eq] at hauth
    exact ⟨ip, rfl, by rw [← generate_hmac_init]; exact hauth.1.2⟩

/-- An accepted request with a tag of main has main's parameters if and only if it cuts the two
addresses where main has cut them. -/
theorem auth_init_binds_iff (henc : TimeBytes)
    (hinj : Function.Injective (Platform.hmac_sha256 sec.hmac_key))
    {remote_ip our_ip : CStr} {session_start_time : Int}
    (hmain : IsTime session_start_time) (hreq : IsTime req.session_start_time)
    (htag : req.hmac = sec_auth_init_hmac sec.hmac_key remote_ip our_ip session_start_time)
    (haccepted : handle_sec_auth_init env sec req pid ≠ (sec, -1)) :
    (req.orig_remote_ip.map CStr.bytes = some remote_ip.bytes ∧
        req.our_ip.map CStr.bytes = some our_ip.bytes ∧
        req.session_start_time = session_start_time) ↔
      req.orig_remote_ip.map List.length = some remote_ip.length ∧ req.our_ip.isSome := by
  obtain ⟨ip, hip, hhmac⟩ := hmac_of_accepted haccepted
  have hbytes : init_bytes ip req.our_ip req.session_start_time =
      init_bytes remote_ip (some our_ip) session_start_time := by
    apply hinj
    rw [hhmac, htag]
    exact generate_hmac_init _ remote_ip (some our_ip) _
  obtain ⟨haddr, htime⟩ := init_bytes_inj henc hreq hmain hbytes
  rw [hip]
  constructor
  · rintro ⟨hremote, hour, -⟩
    have hlen := congrArg List.length (Option.some.inj hremote)
    rw [length_bytes, length_bytes] at hlen
    refine ⟨congrArg some hlen, ?_⟩
    rw [← Option.isSome_map (f := CStr.bytes), hour]
    rfl
  · rintro ⟨hlen, hsome⟩
    obtain ⟨our, hour⟩ := Option.isSome_iff_exists.1 hsome
    rw [hour] at haddr ⊢
    obtain ⟨hremote, hours⟩ := List.append_inj haddr (by
      rw [length_bytes, length_bytes]
      exact Option.some.inj hlen)
    exact ⟨congrArg some hremote, congrArg some hours, htime⟩

end Tag

/-! ## An address that is cut elsewhere -/

section Example

private def timeWord (t : Int) : Nat :=
  if 0 ≤ t then t.toNat else (t + 18446744073709551616).toNat

/-- A `time_t` in the memory of a little-endian machine. -/
private def timeBytes (t : Int) : List UInt8 :=
  bytes32 (timeWord t % 4294967296) ++ bytes32 (timeWord t / 4294967296)

private theorem timeWord_div_lt {t : Int} (ht : IsTime t) :
    timeWord t / 4294967296 < 4294967296 := by
  obtain ⟨hmin, hmax⟩ := ht
  unfold timeWord
  split <;> omega

private theorem timeWord_inj {t t' : Int} (ht : IsTime t) (ht' : IsTime t')
    (h : timeWord t = timeWord t') : t = t' := by
  obtain ⟨hmin, hmax⟩ := ht
  obtain ⟨hmin', hmax'⟩ := ht'
  unfold timeWord at h
  split at h <;> split at h <;> omega

/-- The HMAC is its own argument. -/
@[reducible] private def taggedPlatform : Platform :=
  { Platform.simple with
    hmac_sha256 := fun _ bytes => bytes
    time_bytes := timeBytes }

local instance initTagPlatform : Platform := taggedPlatform

private theorem tagged_time : TimeBytes where
  length _ := rfl
  inj t t' ht ht' h := by
    obtain ⟨hlow, hhigh⟩ := List.append_inj h rfl
    have hmod := congrArg word32 hlow
    have hdiv := congrArg word32 hhigh
    rw [word32_bytes32 (Nat.mod_lt _ (by omega)), word32_bytes32 (Nat.mod_lt _ (by omega))] at hmod
    rw [word32_bytes32 (timeWord_div_lt ht), word32_bytes32 (timeWord_div_lt ht')] at hdiv
    apply timeWord_inj ht ht'
    rw [← Nat.div_add_mod (timeWord t) 4294967296, hdiv, hmod, Nat.div_add_mod]

private def taggedSec : SecMod :=
  Sample.secFor { auth := [⟨true, AUTH_TYPE_PLAIN, some ⟨false, true⟩⟩] }

private def taggedEnv : SecEnv := { Sample.secEnv 0 with auth_init := ERR_AUTH_CONTINUE }

private def remoteIp : CStr := "192.0.2.100".toList
private def ourIp : CStr := "198.51.100.77".toList

private def taggedInit (ip our_ip : CStr) : SecAuthInitMsg :=
  { Sample.initMsg "alice".toList ip with
    our_ip := some our_ip, hmac := sec_auth_init_hmac [] remoteIp ourIp 90 }

/-- The parameters as main has handed them out. -/
theorem auth_init_binds_unchanged :
    handle_sec_auth_init taggedEnv taggedSec (taggedInit remoteIp ourIp) 7 ≠ (taggedSec, -1) ∧
      (taggedInit remoteIp ourIp).session_start_time = 90 := by
  have haccepted :
      handle_sec_auth_init taggedEnv taggedSec (taggedInit remoteIp ourIp) 7 ≠ (taggedSec, -1) :=
    fun h => absurd (congrArg Prod.snd h) (by decide +kernel)
  exact ⟨haccepted, ((auth_init_binds_iff tagged_time (fun _ _ h => h) ⟨by decide, by decide⟩
    ⟨by decide, by decide⟩ rfl haccepted).2 ⟨rfl, rfl⟩).2.2⟩

/-- A request from 192.0.2.1 is accepted with the tag for 192.0.2.100. -/
theorem auth_init_tag_of_other_address :
    Function.Injective (Platform.hmac_sha256 taggedSec.hmac_key) ∧
      (taggedInit "192.0.2.1".toList "00198.51.100.77".toList).hmac =
        sec_auth_init_hmac taggedSec.hmac_key remoteIp ourIp 90 ∧
      (handle_sec_auth_init taggedEnv taggedSec
        (taggedInit "192.0.2.1".toList "00198.51.100.77".toList) 7).2 = 0 ∧
      (taggedInit "192.0.2.1".toList "00198.51.100.77".toList).orig_remote_ip ≠ some remoteIp :=
  ⟨fun _ _ h => h, rfl, by decide +kernel, by decide⟩

end Example

end SecMod

end Ocserv

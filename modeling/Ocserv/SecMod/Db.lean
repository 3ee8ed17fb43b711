import Ocserv.Basic
import Ocserv.Lib.Keyed

/-!
# The session database of a sec-mod instance

A client entry is created when a worker starts an authentication and lives, under
its session identifier, until it expires or is deleted.  `ClientDb` is the hash
table of the entries together with its invariants: it is well formed as a table,
and no two entries share a session identifier.  Its operations are those of
`sec-mod-db.c`; seen through `find` they act on a finite map from session
identifiers to entries.
-/

namespace Ocserv

open HTable

/-! ## Entries -/

structure Stats where
  bytes_in : UInt64 := 0
  bytes_out : UInt64 := 0
deriving DecidableEq, Repr

def stats_add_to (src1 src2 : Stats) : Stats :=
  ⟨src1.bytes_in + src2.bytes_in, src1.bytes_out + src2.bytes_out⟩

/-- The traffic counters only increase. -/
def Stats.raise (st counters : Stats) : Stats where
  bytes_in := if counters.bytes_in > st.bytes_in then counters.bytes_in else st.bytes_in
  bytes_out := if counters.bytes_out > st.bytes_out then counters.bytes_out else st.bytes_out

/-- `common_acct_info_st`. -/
structure AcctInfo where
  username : CStr := []
  groupname : CStr := []
  safe_id : CStr := []
  remote_ip : CStr := []
  user_agent : CStr := []
  device_type : CStr := []
  device_platform : CStr := []
  our_ip : CStr := []
  ipv4 : CStr := []
  ipv6 : CStr := []
  id : Nat := 0
  uptime : Int := 0
deriving DecidableEq, Repr

/-- The size of the username buffer of an entry. -/
def ACCT_USERNAME_SIZE : Nat := MAX_USERNAME_SIZE * 2

/-- `client_entry_st`. -/
structure ClientEntry where
  sid : Sid
  vhost : VhostCfg
  session_is_open : Bool := false
  in_use : Nat := 0
  tls_auth_ok : Bool := false
  msg_str : Option CStr := none
  passwd_counter : Nat := 0
  saved_stats : Stats := {}
  stats : Stats := {}
  status : PsAuth := .inactive
  created : Int := 0
  exptime : Int := 0
  auth_type : AuthType := 0
  discon_reason : Nat := 0
  acct_info : AcctInfo := {}
  req_group_name : CStr := []
  cert_group_names : List CStr := []
  cert_user_name : CStr := []
  amod : Option AuthMod := none
deriving DecidableEq, Repr

/-- `IS_CLIENT_ENTRY_EXPIRED`. -/
def ClientEntry.expired (e : ClientEntry) (now : Int) : Bool :=
  e.exptime != -1 && e.exptime ≤ now && e.in_use == 0

def AUTH_SLACK_TIME : Int := 15

/-- Whether the end of a session makes its cookie unusable at once. -/
def ClientEntry.invalidated (e : ClientEntry) : Bool :=
  !e.vhost.config.persistent_cookies &&
    (e.discon_reason == REASON_SERVER_DISCONNECT || e.discon_reason == REASON_SESSION_TIMEOUT ||
      (e.session_is_open && e.discon_reason == REASON_USER_DISCONNECT))

/-- The time until which a session without a worker can be resumed. -/
def ClientEntry.lingerUntil (e : ClientEntry) (now : Int) : Int :=
  if e.discon_reason = REASON_USER_DISCONNECT then
    if !e.vhost.config.persistent_cookies || e.exptime ≤ now + AUTH_SLACK_TIME then
      now + AUTH_SLACK_TIME
    else e.exptime
  else now + e.vhost.config.cookie_timeout + AUTH_SLACK_TIME

/-! ## The table -/

section Table

variable [Platform]

/-- The hash of an entry is that of its session identifier. -/
def ClientEntry.rehash (e : ClientEntry) : Nat := Platform.hash_any e.sid.1

/-- The table of the client entries. -/
structure ClientDb where
  table : Table ClientEntry
  wf : table.WF ClientEntry.rehash
  nodup : (table.toList.map ClientEntry.sid).Nodup

namespace ClientDb

/-- `sec_mod_client_db_init`. -/
def empty : ClientDb := ⟨.init, .init, by simp⟩

def toList (db : ClientDb) : List ClientEntry := db.table.toList

/-- `find_client_entry`. -/
def find (db : ClientDb) (sid : Sid) : Option ClientEntry :=
  db.table.get (Platform.hash_any sid.1) fun e => e.sid = sid

variable {db : ClientDb} {sid : Sid} {e : ClientEntry}

/-- The table is a finite map from session identifiers to entries. -/
theorem keyed (db : ClientDb) :
    Keyed ClientEntry.sid (fun sid => Platform.hash_any sid.1) db.table := ⟨db.wf, db.nodup⟩

theorem find_eq_some : db.find sid = some e ↔ e ∈ db.toList ∧ e.sid = sid :=
  db.keyed.lookup_eq_some

theorem find_sid (h : db.find sid = some e) : e.sid = sid := (find_eq_some.1 h).2

theorem find_self (h : e ∈ db.toList) : db.find e.sid = some e := find_eq_some.2 ⟨h, rfl⟩

theorem find_eq_none : db.find sid = none ↔ ∀ e ∈ db.toList, e.sid ≠ sid :=
  db.keyed.lookup_eq_none

@[simp] theorem find_empty (sid : Sid) : (empty : ClientDb).find sid = none := by
  simp [find_eq_none, toList, empty]

/-- Insert an entry under a session identifier that is not in use. -/
def add (db : ClientDb) (e : ClientEntry) (h : db.find e.sid = none) : ClientDb where
  table := db.table.add ClientEntry.rehash e.rehash e
  wf := db.wf.add e
  nodup := (db.keyed.add h).nodup

theorem find_add (h : db.find e.sid = none) :
    (db.add e h).find sid = if sid = e.sid then some e else db.find sid :=
  db.keyed.lookup_add h

/-- Write back an entry whose fields have changed in place. -/
def store (db : ClientDb) (e : ClientEntry) : ClientDb where
  table := db.table.mapElems fun e' => if e'.sid = e.sid then e else e'
  wf := (db.keyed.update e).wf
  nodup := (db.keyed.update e).nodup

theorem find_store : (db.store e).find sid =
    if sid = e.sid then (db.find sid).map fun _ => e else db.find sid :=
  db.keyed.lookup_update

/-- Take the entry of `sid` out of the table. -/
def erase (db : ClientDb) (sid : Sid) : ClientDb where
  table := (db.table.del (Platform.hash_any sid.1) fun e => e.sid = sid).1
  wf := db.wf.del _ _
  nodup := (db.keyed.remove sid).nodup

theorem find_erase (sid' : Sid) :
    (db.erase sid).find sid' = if sid' = sid then none else db.find sid' :=
  db.keyed.lookup_remove sid

/-- Take out every entry that meets `p`, in one pass. -/
def sweep (db : ClientDb) (p : ClientEntry → Bool) : ClientDb where
  table := (db.table.sweep p).1
  wf := db.wf.sweep p
  nodup := (db.keyed.sweep p).nodup

/-- The entries a sweep visits and takes out, in order. -/
def swept (db : ClientDb) (p : ClientEntry → Bool) : List ClientEntry := (db.table.sweep p).2

theorem mem_sweep {p : ClientEntry → Bool} :
    e ∈ (db.sweep p).toList ↔ e ∈ db.toList ∧ p e = false := by
  simp [toList, sweep, db.wf.toList_sweep]

theorem mem_swept {p : ClientEntry → Bool} :
    e ∈ db.swept p ↔ e ∈ db.toList ∧ p e := by
  simp [toList, swept, db.wf.swept_sweep]

theorem find_sweep (p : ClientEntry → Bool) :
    (db.sweep p).find sid = (db.find sid).filter fun e => !p e :=
  db.keyed.lookup_sweep p

/-- Take out the first entry in table order that meets `p`. -/
def removeFirst (db : ClientDb) (p : ClientEntry → Bool) : ClientDb where
  table := (db.table.removeFirst p).1
  wf := db.wf.removeFirst p
  nodup := by
    cases hx : (db.table.removeFirst p).2 with
    | none =>
      rw [Table.removeFirst_of_none hx]
      exact db.nodup
    | some x =>
      have hnodup := ((Table.perm_removeFirst hx).map ClientEntry.sid).nodup_iff.1 db.nodup
      rw [List.map_cons] at hnodup
      exact hnodup.of_cons

/-- The entry that `removeFirst` takes out. -/
def removed (db : ClientDb) (p : ClientEntry → Bool) : Option ClientEntry :=
  (db.table.removeFirst p).2

theorem removed_eq (p : ClientEntry → Bool) : db.removed p = db.toList.find? p :=
  Table.removeFirst_snd p db.table

theorem find_removeFirst (p : ClientEntry → Bool) :
    (db.removeFirst p).find sid = (db.find sid).filter fun e => db.removed p ≠ some e := by
  ext e
  simp only [find_eq_some, Option.filter_eq_some_iff, decide_eq_true_eq]
  cases hx : db.removed p with
  | none =>
    have heq : (db.removeFirst p).toList = db.toList := by
      simp only [toList, removeFirst]
      rw [Table.removeFirst_of_none hx]
    simp [heq]
  | some x =>
    have hperm := Table.perm_removeFirst hx
    have hnodup := ((hperm.map ClientEntry.sid).nodup_iff.1 db.nodup)
    rw [List.map_cons, List.nodup_cons] at hnodup
    have hmem : e ∈ db.toList ↔ e = x ∨ e ∈ (db.removeFirst p).toList := by
      rw [toList, hperm.mem_iff, List.mem_cons]
      rfl
    rw [hmem]
    constructor
    · rintro ⟨he, hsid⟩
      refine ⟨⟨.inr he, hsid⟩, fun heq => hnodup.1 ?_⟩
      rw [Option.some.injEq] at heq
      exact List.mem_map.2 ⟨e, he, by rw [heq]⟩
    · rintro ⟨⟨rfl | he, hsid⟩, hne⟩
      · exact absurd rfl hne
      · exact ⟨he, hsid⟩

end ClientDb

/-! ## The state of an instance -/

/-- What an instance does to the outside: messages to main about the score of an
address, answers to workers and calls of the accounting module.  A session is opened
in the accounting with success or not. -/
inductive SecEffect
  | ban_ip (ip : CStr) (score : Nat) (sid : Sid)
  | auth_reply (sid : Sid) (reply : AuthRep)
  | open_session (sid : Sid) (ok : Bool)
  | session_stats (sid : Sid) (totals : Stats)
  | close_session (sid : Sid) (saved_stats : Stats) (discon_reason : Nat)
deriving DecidableEq, Repr

/-- `sec_mod_st`.  The effects are logged, newest first. -/
structure SecMod where
  vconfig : VConfig
  sec_mod_instance_index : Nat
  index_le : sec_mod_instance_index ≤ MAX_SEC_MOD_INSTANCES
  hmac_key : List UInt8
  client_db : ClientDb := .empty
  auth_failures : Nat := 0
  max_auth_time : Nat := 0
  avg_auth_time : Nat := 0
  total_authentications : Nat := 0
  log : List SecEffect := []

/-- What one command of sec-mod gets from outside: the clock at each of its
readings, random values, and the answers of the modules.  The modules keep
contexts of their own, so an answer may be anything at any time. -/
structure SecEnv where
  time : Nat → Int
  rnd_sid : Nat → Option Sid
  /-- the seed for the address, when the generator works -/
  rnd_seed : Option (BitVec 32)
  /-- whether the reply can be sent -/
  send_ok : Bool
  auth_init : Int
  auth_pass : Int
  auth_msg : Int
  auth_msg_str : Option CStr
  auth_msg_counter : Nat
  auth_group : Int
  /-- the group name buffer after `auth_group` -/
  auth_group_name : CStr
  /-- the username buffer after `auth_user` -/
  auth_user : CStr → CStr
  acct_open_session : Int
  /-- the additional configuration, unless reading it fails -/
  sup_config : Option GroupCfg

namespace SecMod

/-- Write back an entry whose fields have changed. -/
def store (sec : SecMod) (e : ClientEntry) : SecMod :=
  { sec with client_db := sec.client_db.store e }

/-- A session identifier of this instance that no entry has: at most five random
values are tried. -/
def fresh_sid (sec : SecMod) (rnd : Nat → Option Sid) :
    Nat → Nat → Option { sid : Sid // sec.client_db.find sid = none }
  | 0, _ => none
  | fuel + 1, k =>
    match rnd k with
    | none => none
    | some bytes =>
      let sid := sec_mod_instance_index_put bytes sec.sec_mod_instance_index
      if h : sec.client_db.find sid = none then some ⟨sid, h⟩
      else fresh_sid sec rnd fuel (k + 1)

/-- The entry that `new_client_entry` adds. -/
def init_entry (vhost : VhostCfg) (ip : CStr) (pid : Nat) (sid : Sid) (now : Int) : ClientEntry :=
  { sid, vhost
    acct_info :=
      { remote_ip := strlcpy ip MAX_IP_STR
        id := pid
        safe_id := Platform.calc_safe_id sid }
    exptime := now + vhost.config.cookie_timeout + AUTH_SLACK_TIME
    created := now }

def new_client_entry (env : SecEnv) (sec : SecMod) (vhost : VhostCfg) (ip : CStr) (pid : Nat) :
    Option (SecMod × ClientEntry) :=
  match sec.fresh_sid env.rnd_sid 5 0 with
  | none => none
  | some ⟨sid, h⟩ =>
    let e := init_entry vhost ip pid sid (env.time 1)
    some ({ sec with client_db := sec.client_db.add e h }, e)

/-- The first entry, in table order, that carries this pid. -/
def find_client_entry_by_pid (sec : SecMod) (pid : Nat) : Option ClientEntry :=
  if pid = 0 then none else sec.client_db.toList.find? fun e => e.acct_info.id = pid

/-- The accounting call made when an entry is freed. -/
def sec_auth_user_deinit (e : ClientEntry) : List SecEffect :=
  if e.vhost.acct.any (·.close_session) && e.session_is_open then
    [.close_session e.sid e.saved_stats e.discon_reason]
  else []

/-- `clean_entry` for a list of entries that have left the table. -/
def clean_entries (sec : SecMod) (es : List ClientEntry) : SecMod :=
  { sec with log := es.foldl (fun log e => sec_auth_user_deinit e ++ log) sec.log }

def cleanup_client_entries (sec : SecMod) (now : Int) : SecMod :=
  let p : ClientEntry → Bool := fun e => e.expired now
  { sec with client_db := sec.client_db.sweep p }.clean_entries (sec.client_db.swept p)

/-- The entry with its final totals, when the server shuts down. -/
def final_totals (now : Int) (e : ClientEntry) : ClientEntry :=
  if e.session_is_open then
    { e with
      acct_info :=
        { e.acct_info with
          uptime := if e.in_use ≠ 0 then now - e.created else e.acct_info.uptime }
      saved_stats := stats_add_to e.saved_stats e.stats
      stats := {} }
  else e

def sec_mod_client_db_deinit (sec : SecMod) (now : Int) : SecMod :=
  { sec with client_db := .empty }.clean_entries (sec.client_db.toList.map (final_totals now))

def del_client_entry (sec : SecMod) (e : ClientEntry) : SecMod :=
  { sec with client_db := sec.client_db.erase e.sid }.clean_entries [e]

/-- A worker has left the session `e`; the table holds the entry as it was before
the caller changed it. -/
def expire_client_entry (sec : SecMod) (e : ClientEntry) (now : Int) : SecMod :=
  let e := { e with in_use := e.in_use - 1 }
  if e.in_use = 0 then
    if e.invalidated then sec.del_client_entry e
    else
      sec.store
        { e with
          exptime := e.lingerUntil now
          acct_info := { e.acct_info with id := 0 } }
  else sec.store e

/-- Delete the entries of a user.  The result says whether there were any. -/
def terminate_user_sessions (sec : SecMod) (username : CStr) : SecMod × Bool :=
  if username = [] then (sec, false)
  else
    let p : ClientEntry → Bool := fun e => e.acct_info.username == username
    ({ sec with client_db := sec.client_db.sweep p }.clean_entries (sec.client_db.swept p),
      !(sec.client_db.swept p).isEmpty)

/-- `SAFE_ID_SIZE - 1`, the length of a printable session identifier. -/
def SAFE_ID_LEN : Nat := 28

/-- Delete the first entry with this printable identifier. -/
def terminate_session_by_sid (sec : SecMod) (safe_id : CStr) : SecMod × Bool :=
  if safe_id.length ≠ SAFE_ID_LEN then (sec, false)
  else
    let p : ClientEntry → Bool := fun e => e.acct_info.safe_id == safe_id
    match sec.client_db.removed p with
    | none => (sec, false)
    | some e => ({ sec with client_db := sec.client_db.removeFirst p }.clean_entries [e], true)

end SecMod
end Table
end Ocserv

import Ocserv.Basic
import Ocserv.Lib.HTable

/-!
# The cache for the resumption of TLS sessions

Workers have no common memory: what GnuTLS wants to keep of a TLS session in order to
resume it is sent to sec-mod, which stores it in a table under the identifier of the
session.  The second half of the file is what a worker does on behalf of GnuTLS.
-/

namespace Ocserv

open HTable

/-! ## Messages -/

def GNUTLS_MAX_SESSION_ID : Nat := 32

def MAX_SESSION_DATA_SIZE : Nat := 4 * 1024

def DEFAULT_MAX_CACHED_TLS_SESSIONS : Nat := 64

structure SessionResumeStoreReqMsg where
  session_id : List UInt8
  session_data : List UInt8
  cli_addr : SockAddr
  vhost : Option CStr
deriving DecidableEq, Repr

/-- `SessionResumeFetchMsg`, which also asks for a deletion. -/
structure SessionResumeFetchMsg where
  session_id : List UInt8
  cli_addr : SockAddr
  vhost : Option CStr
deriving DecidableEq, Repr

inductive ResumeRep
  | ok
  | failed
deriving DecidableEq, Repr

structure SessionResumeReplyMsg where
  reply : ResumeRep
  session_data : Option (List UInt8) := none
deriving DecidableEq, Repr

/-- `tls_cache_st`. -/
structure TlsCache where
  session_id : List UInt8
  session_data : List UInt8
  remote_addr : SockAddr
  vhostname : Option CStr
deriving DecidableEq, Repr

/-- The settings and the library function that the cache depends on. -/
structure ResumeEnv where
  max_clients : Nat
  cookie_timeout : Int
  /-- when the session was stored, as GnuTLS notes it in the data -/
  gnutls_db_check_entry_time : List UInt8 → Int

/-- The number of sessions that are kept at most. -/
def ResumeEnv.max (env : ResumeEnv) : Nat :=
  Nat.max (2 * env.max_clients % 2 ^ 32) DEFAULT_MAX_CACHED_TLS_SESSIONS

section Cache

variable [Platform]

def TlsCache.rehash (c : TlsCache) : Nat := Platform.hash_any c.session_id

/-- `tls_sess_db_st`. -/
structure TlsDb where
  ht : Table TlsCache
  entries : Nat
  wf : ht.WF TlsCache.rehash

namespace TlsDb

def tls_cache_init : TlsDb := ⟨.init, 0, .init⟩

def toList (db : TlsDb) : List TlsCache := db.ht.toList

/-! ## Requests -/

/-- What is stored for a request. -/
def cache (req : SessionResumeStoreReqMsg) : TlsCache where
  session_id := req.session_id
  session_data := req.session_data
  remote_addr := req.cli_addr
  vhostname := req.vhost

def handle_resume_store_req (env : ResumeEnv) (db : TlsDb) (req : SessionResumeStoreReqMsg) :
    TlsDb × Int :=
  if GNUTLS_MAX_SESSION_ID < req.session_id.length then (db, -1)
  else if req.session_data.length = 0 ∨ MAX_SESSION_DATA_SIZE < req.session_data.length then
    (db, -1)
  else if env.max ≤ db.entries then (db, -1)
  else if req.cli_addr.length = 0 ∨ SOCKADDR_STORAGE_SIZE < req.cli_addr.length then (db, -1)
  else
    -- an entry with the same identifier is not looked for
    (⟨db.ht.add TlsCache.rehash (cache req).rehash (cache req), db.entries + 1, db.wf.add _⟩, 0)

/-- The loop over the candidates.  The names of the virtual hosts are compared as strings
if there are two, and then as pointers: these are equal only if there are no names. -/
def resume_search (req : SessionResumeFetchMsg) : List TlsCache → SessionResumeReplyMsg
  | [] => { reply := .failed }
  | c :: cs =>
    if req.session_id = c.session_id then
      if req.vhost.any fun v => c.vhostname.any fun v' => !strcasecmp_eq v v' then
        { reply := .failed }
      else if !(req.vhost.isNone && c.vhostname.isNone) then { reply := .failed }
      else if req.cli_addr.length = c.remote_addr.length ∧ ip_cmp_eq req.cli_addr c.remote_addr then
        { reply := .ok, session_data := some c.session_data }
      else resume_search req cs
    else resume_search req cs

def handle_resume_fetch_req (db : TlsDb) (req : SessionResumeFetchMsg) :
    SessionResumeReplyMsg × Int :=
  let key := Platform.hash_any req.session_id
  (resume_search req ((db.ht.candidates key).map Prod.snd), 0)

def handle_resume_delete_req (db : TlsDb) (req : SessionResumeFetchMsg) : TlsDb × Int :=
  let key := Platform.hash_any req.session_id
  let r := db.ht.del key fun c => req.session_id = c.session_id
  (⟨r.1, if r.2 then db.entries - 1 else db.entries, db.wf.del _ _⟩, 0)

/-- The reply that `process_worker_packet` sends to a fetch request. -/
def resume_fetch_rep (db : TlsDb) (req : SessionResumeFetchMsg) : SessionResumeReplyMsg :=
  let (msg, ret) := db.handle_resume_fetch_req req
  if ret < 0 then { msg with reply := .failed } else { msg with reply := .ok }

/-! ## Maintenance -/

/-- `TLS_SESSION_EXPIRATION_TIME` has passed since the session was stored. -/
def expired (env : ResumeEnv) (now : Int) (c : TlsCache) : Bool :=
  env.cookie_timeout < now - env.gnutls_db_check_entry_time c.session_data

def expire_tls_sessions (env : ResumeEnv) (now : Int) (db : TlsDb) : TlsDb :=
  let r := db.ht.sweep (expired env now)
  ⟨r.1, db.entries - r.2.length, db.wf.sweep _⟩

/-! ## Commands -/

/-- What happens to the cache. -/
inductive Cmd
  | store (req : SessionResumeStoreReqMsg)
  | fetch (req : SessionResumeFetchMsg)
  | delete (req : SessionResumeFetchMsg)
  | expire (now : Int)
deriving DecidableEq, Repr

def exec (env : ResumeEnv) (db : TlsDb) : Cmd → TlsDb
  | .store req => (db.handle_resume_store_req env req).1
  | .fetch _ => db
  | .delete req => (db.handle_resume_delete_req req).1
  | .expire now => db.expire_tls_sessions env now

end TlsDb

/-! ## Workers -/

/-- `recv_resume_fetch_reply`: the data, if there are any. -/
def recv_resume_fetch_reply (resp : SessionResumeReplyMsg) : Option (List UInt8) :=
  if resp.reply ≠ .ok ∨ (resp.session_data.getD []).length = 0 then none
  else some (resp.session_data.getD [])

end Cache
end Ocserv

import Mathlib.Data.List.DropRight
import Ocserv.Basic
import Ocserv.Lib.Inet

/-!
# The request loop of a worker

A worker serves the HTTP requests of one TLS connection: for each it processes the
headers, applies the camouflage gate, looks up the handler of the URL and runs it.  What
the parser delivers is a `Request`; a connection on which parsing fails is closed without
an answer, and is not a request here.  What a handler does, with main and sec-mod, is
given by the environment.
-/

namespace Ocserv

/-! ## State -/

/-- `S_AUTH`. -/
inductive AuthState
  | inactive
  | init
  | req
  | cookie
  | complete
deriving DecidableEq, Repr

/-- The place of a state in the order of the enumeration. -/
def AuthState.code : AuthState → Nat
  | .inactive => 0
  | .init => 1
  | .req => 2
  | .cookie => 3
  | .complete => 4

/-- What the loop reads of the virtual host. -/
structure WorkerCfg where
  camouflage : Bool
  camouflage_secret : Option CStr
  camouflage_realm : Option CStr
  kkdcp : List CStr := []
  oidc_browser_login_enabled : Bool := false
deriving DecidableEq, Repr

def MAX_HTTP_REQUESTS : Nat := 16

/-- `worker_st`, as far as the loop uses it. -/
structure WorkerSt where
  config : WorkerCfg
  auth_state : AuthState := .inactive
  cookie : List UInt8 := []
  cookie_set : Bool := false
  sid : List UInt8 := []
  sid_set : Bool := false
  camouflage_check_passed : Bool := false
  url : CStr := []
  requests_left : Nat := MAX_HTTP_REQUESTS - 1
  /-- the connection is closed, or the worker has left the loop -/
  finished : Bool := false
deriving DecidableEq, Repr

inductive Method
  | get
  | post
  | connect
  | other
deriving DecidableEq, Repr

/-- The headers that the loop depends on. -/
inductive HeaderId
  | cookie
  | other
deriving DecidableEq, Repr

/-- The size of the buffer for the URL. -/
def MAX_URL_SIZE : Nat := 1024

/-- A complete request. -/
structure Request where
  method : Method
  url : CStr
  headers : List (HeaderId × CStr)
  http_major : Nat := 1
  http_minor : Nat := 1
  url_lt : url.length < MAX_URL_SIZE

/-! ## Cookies -/

namespace WorkerSt

/-- The tokens of a cookie header, as `strtok` finds them, without leading space. -/
def cookie_tokens (value : CStr) : List CStr :=
  ((value.splitOn ';').filter (· ≠ [])).map (·.dropWhile Inet.isSpace)

/-- Trailing space, of which the first character is not examined. -/
def trim_end : CStr → CStr
  | [] => []
  | c :: cs => c :: cs.rdropWhile Inet.isSpace

def BASE64_DECODE_LENGTH (n : Nat) : Nat := (n + 1) * 6 / 8

section Cookies

variable [Platform]

/-- The value of a token that is long enough for a session identifier, decoded. -/
def decode_cookie (value : CStr) : Option (List UInt8) :=
  (Platform.base64_decode value).filter fun bytes => bytes.length = SID_SIZE

/-- Whether the length of a value can be that of a session identifier. -/
def cookie_length_ok (value : CStr) : Bool :=
  SID_SIZE ≤ BASE64_DECODE_LENGTH value.length && BASE64_DECODE_LENGTH value.length ≤ SID_SIZE + 8

/-- The tokens of a cookie header, one after the other; one with an impossible length
ends the header. -/
def process_tokens (ws : WorkerSt) : List CStr → WorkerSt
  | [] => ws
  | token :: tokens =>
    if "webvpn=".toList.isPrefixOf token then
      let value := trim_end (token.drop 7)
      if cookie_length_ok value then
        match decode_cookie value with
        | none => process_tokens { ws with cookie_set := false } tokens
        | some cookie =>
          process_tokens { ws with cookie, auth_state := .cookie, cookie_set := true } tokens
      else ws
    else if "webvpncontext=".toList.isPrefixOf token then
      let value := trim_end (token.drop 14)
      if cookie_length_ok value then
        match decode_cookie value with
        | none => process_tokens { ws with sid_set := false } tokens
        | some sid => process_tokens { ws with sid, sid_set := true } tokens
      else ws
    else process_tokens ws tokens

/-- `header_value_check`, for the header of the cookies. -/
def header_value_check (ws : WorkerSt) : HeaderId × CStr → WorkerSt
  | (.cookie, value) =>
    if AuthState.cookie.code < ws.auth_state.code then ws
    else ws.process_tokens (cookie_tokens value)
  | (.other, _) => ws

end Cookies

/-! ## The camouflage gate -/

def check_camouflage_url (ws : WorkerSt) : WorkerSt :=
  match ws.config.camouflage_secret with
  | none => ws
  | some secret =>
    if AuthState.cookie.code ≤ ws.auth_state.code then { ws with camouflage_check_passed := true }
    else
      match ws.url.span (· ≠ '?') with
      | (_, []) => ws
      | (path, _ :: query) =>
        if query.take secret.length ≠ secret then ws
        else
          match query.drop secret.length with
          | [] => { ws with url := path, camouflage_check_passed := true }
          | '&' :: params =>
            { ws with url := path ++ '?' :: params, camouflage_check_passed := true }
          | _ => ws

end WorkerSt

/-! ## Handlers -/

/-- The functions that answer a URL. -/
inductive Handler
  | get_auth_handler
  | post_auth_handler
  | get_config_handler
  | get_string_handler
  | get_empty_handler
  | get_dl_handler
  | get_oidc_callback_handler
  | get_oidc_final_handler
  | get_svc_handler
  | post_svc_handler
  | post_kkdcp_handler
  | connect_handler
deriving DecidableEq, Repr

/-- `known_urls_st`; `oidc` marks the URLs that exist only with the browser login. -/
structure KnownUrl where
  url : CStr
  partial_match : Bool
  get_handler : Handler
  post_handler : Option Handler
  oidc : Bool
deriving DecidableEq, Repr

namespace KnownUrl

def LL (url : String) (get_handler : Handler) (post_handler : Option Handler) : KnownUrl :=
  ⟨url.toList, false, get_handler, post_handler, false⟩

def LL_DIR (url : String) (get_handler : Handler) (post_handler : Option Handler) : KnownUrl :=
  ⟨url.toList, true, get_handler, post_handler, false⟩

def LL_IF (url : String) (get_handler : Handler) (post_handler : Option Handler) : KnownUrl :=
  ⟨url.toList, false, get_handler, post_handler, true⟩

end KnownUrl

open KnownUrl in
def known_urls : List KnownUrl :=
  [LL "/" .get_auth_handler (some .post_auth_handler),
    LL "/auth" .get_auth_handler (some .post_auth_handler),
    LL "/VPN" .get_auth_handler (some .post_auth_handler),
    LL_DIR "/profiles" .get_config_handler none,
    LL "/VPNManifest.xml" .get_string_handler none,
    LL "/1/index.html" .get_empty_handler none,
    LL "/1/Linux" .get_empty_handler none,
    LL "/1/Linux_64" .get_empty_handler none,
    LL "/1/Windows" .get_empty_handler none,
    LL "/1/Windows_ARM64" .get_empty_handler none,
    LL "/1/Darwin_i386" .get_empty_handler none,
    LL "/1/binaries/vpndownloader.sh" .get_dl_handler none,
    LL "/1/VPNManifest.xml" .get_string_handler none,
    LL "/1/binaries/update.txt" .get_string_handler none,
    LL "/+CSCOT+/translation-table" .get_string_handler none,
    LL "/+CSCOT+/oem-customization" .get_string_handler none,
    LL "/logout" .get_empty_handler none,
    LL_IF "/sso/callback" .get_oidc_callback_handler none,
    LL_IF "/+CSCOE+/saml_ac_login.html" .get_oidc_final_handler none,
    LL "/svc" .get_svc_handler (some .post_svc_handler)]

namespace WorkerSt

def url_is_served (ws : WorkerSt) (p : KnownUrl) : Bool :=
  !p.oidc || ws.config.oidc_browser_login_enabled

def http_get_url_handler (ws : WorkerSt) (url : CStr) : Option Handler :=
  (known_urls.find? fun p => ws.url_is_served p && (p.url == url ||
    p.url.isPrefixOf url && (p.partial_match || url[p.url.length]? == some '/' ||
      url[p.url.length]? == some '?'))).map KnownUrl.get_handler

def http_post_known_service_check (ws : WorkerSt) (url : CStr) : Option Handler :=
  match known_urls.find? fun p => ws.url_is_served p && (p.url == url ||
      p.url.isPrefixOf url && !p.partial_match && url[p.url.length]? == some '?') with
  | some p => p.post_handler
  | none => if url ∈ ws.config.kkdcp then some .post_kkdcp_handler else none

def http_post_url_handler (ws : WorkerSt) (url : CStr) : Option Handler :=
  match ws.http_post_known_service_check url with
  | some h => some h
  | none => if ws.auth_state = .inactive then some .post_auth_handler else none

end WorkerSt

/-! ## The loop -/

/-- What a handler leaves behind: the authentication state it reaches, the code it returns,
and whether main or sec-mod has accepted a cookie or a credential on its request.  A
handler may also end the worker. -/
structure HandlerResult where
  auth_state : AuthState
  cookie : List UInt8
  cookie_set : Bool
  sid : List UInt8
  sid_set : Bool
  ret : Int
  exits : Bool
  accepted : Bool
deriving DecidableEq, Repr

/-- How a request is answered. -/
inductive Answer
  /-- the camouflage gate declines it, with `401` if there is a realm, else with `404` -/
  | declined (realm : Option CStr)
  /-- the handler for this URL is run, or the answer is `404` if there is none -/
  | dispatched (url : CStr) (fn : Option Handler)
  /-- the method is not one the server knows -/
  | unexpected_method
deriving DecidableEq, Repr

namespace WorkerSt

section Loop

variable [Platform]

/-- `http_req_reset`, and the URL and the headers of a new request. -/
def receive (ws : WorkerSt) (req : Request) : WorkerSt :=
  req.headers.foldl header_value_check { ws with url := req.url }

/-- Whether the request has to pass the gate. -/
def gated (ws : WorkerSt) (req : Request) : Bool :=
  (req.method = .get || req.method = .post) && ws.config.camouflage && !ws.camouflage_check_passed

/-- The connection is closed. -/
def close (ws : WorkerSt) : WorkerSt := { ws with finished := true }

/-- The next request is read, if there may be one. -/
def restart (ws : WorkerSt) : WorkerSt :=
  if ws.requests_left = 0 then ws.close else { ws with requests_left := ws.requests_left - 1 }

/-- A handler is run. -/
def run_handler (ws : WorkerSt) (req : Request) (res : HandlerResult) : WorkerSt :=
  let ws :=
    { ws with
      auth_state := res.auth_state
      cookie := res.cookie
      cookie_set := res.cookie_set
      sid := res.sid
      sid_set := res.sid_set }
  if res.exits then ws.close
  else if res.ret = 0 ∧ (req.http_major ≠ 1 ∨ req.http_minor ≠ 0) then ws.restart
  else ws.close

/-- Run the handler of a URL, if there is one. -/
def dispatch (ws : WorkerSt) (req : Request) (res : HandlerResult) (fn : Option Handler) :
    WorkerSt × Answer :=
  match fn with
  | none => (ws.close, .dispatched ws.url none)
  | some h => (ws.run_handler req res, .dispatched ws.url (some h))

/-- One pass of the loop of `vpn_server`. -/
def serve (ws : WorkerSt) (req : Request) (res : HandlerResult) : WorkerSt × Answer :=
  let ws := ws.receive req
  let gated := ws.gated req
  let ws := if gated then ws.check_camouflage_url else ws
  if gated && !ws.camouflage_check_passed then
    (ws.close, .declined ws.config.camouflage_realm)
  else
    match req.method with
    | .get => ws.dispatch req res (ws.http_get_url_handler ws.url)
    | .post => ws.dispatch req res (ws.http_post_url_handler ws.url)
    | .connect => ws.dispatch req res (some .connect_handler)
    | .other => (ws.close, .unexpected_method)

/-- A request, what its handler does, and how it is answered. -/
structure Exchange where
  req : Request
  res : HandlerResult
  answer : Answer

/-- The worker answers one more request of its connection. -/
def Step (ws : WorkerSt) (x : Exchange) (ws' : WorkerSt) : Prop :=
  ws.finished = false ∧ ws.serve x.req x.res = (ws', x.answer)

/-- The worker when the handshake is complete. -/
def Initial (config : WorkerCfg) (ws : WorkerSt) : Prop := ws = { config }

end Loop
end WorkerSt
end Ocserv

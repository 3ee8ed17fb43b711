import Mathlib.Algebra.GroupWithZero.Nat
import Ocserv.Lib.Fragments
import Ocserv.Worker.Headers

/-!
# Receiving a request

The worker hands what it reads from the TLS connection to the HTTP parser, which calls
back for each element of the request that it meets: the URL, the name and the value of
each header, and the body.  An element that is spread over several reads is delivered by
several calls, in order; a `Delivery` is a request with the fragments in which each of its
elements is delivered.  A callback that returns an error ends the connection.

The data of a call lies in `ws->buffer`, where the worker has read it to, and
`header_value_check` decodes cookies into the start of the same buffer.  An `Arrival` is a
delivery together with the reads and the places of the data.
-/

namespace Ocserv

def MAX_HTTP_REQUEST_BODY : Nat := 256 * 1024
def MAX_HTTP_HEADERS_SIZE : Nat := 16 * 1024

/-- `HTTP_HEADER_*`. -/
inductive HeaderState
  | init
  | recv
  | value_recv
deriving DecidableEq, Repr

/-- `req->body` and `req->body_length`.  The buffer is kept when the next request starts, so
it can be longer than the body. -/
@[ext] structure ReqBody where
  buf : List UInt8 := []
  length : Nat := 0
  length_le : length ≤ buf.length := by decide
deriving DecidableEq

namespace ReqBody

def empty : ReqBody := {}

/-- The body is dropped, the buffer is not. -/
def reset (b : ReqBody) : ReqBody where
  buf := b.buf
  length := 0
  length_le := Nat.zero_le _

/-- Data and a terminator are written behind the body. -/
def append (b : ReqBody) (data : List UInt8) : ReqBody where
  buf := b.buf.take b.length ++ data ++ [0]
  length := b.length + data.length
  length_le := by
    have := b.length_le
    simp only [List.length_append, List.length_take, List.length_singleton]
    omega

theorem append_append (b : ReqBody) (l l' : List UInt8) :
    (b.append l).append l' = b.append (l ++ l') := by
  have hlen : (b.buf.take b.length ++ l).length = b.length + l.length := by
    rw [List.length_append, List.length_take, Nat.min_eq_left b.length_le]
  have htake : (b.buf.take b.length ++ l ++ [0]).take (b.length + l.length) =
      b.buf.take b.length ++ l := by
    rw [← hlen, List.take_left]
  apply ReqBody.ext
  · show (b.buf.take b.length ++ l ++ [0]).take (b.length + l.length) ++ l' ++ [0] =
      b.buf.take b.length ++ (l ++ l') ++ [0]
    rw [htake, List.append_assoc _ l l']
  · show b.length + l.length + l'.length = b.length + (l ++ l').length
    rw [List.length_append, Nat.add_assoc]

end ReqBody

/-- The request that is being received. -/
structure ReqSt where
  /-- what the headers and the URL set -/
  hdr : HeaderSt
  header : CStr := []
  value : CStr := []
  header_state : HeaderState := .init
  header_bytes : Nat := 0
  next_header : Option HttpHeader := none
  body : ReqBody := {}
  headers_complete : Bool := false
  message_complete : Bool := false
deriving DecidableEq

/-- The URL is written. -/
def WorkerSt.setUrl (ws : WorkerSt) (url : CStr) : WorkerSt := { ws with url }

def HeaderSt.setUrl (hdr : HeaderSt) (url : CStr) : HeaderSt :=
  { hdr with ws := hdr.ws.setUrl url }

namespace ReqSt

/-- `req->url`. -/
def url (st : ReqSt) : CStr := st.hdr.ws.url

def setUrl (st : ReqSt) (url : CStr) : ReqSt := { st with hdr := st.hdr.setUrl url }

def http_req_reset (st : ReqSt) : ReqSt :=
  { st.setUrl [] with
    hdr := { (st.setUrl []).hdr with spnego_set := false }
    headers_complete := false
    message_complete := false
    body := st.body.reset
    header_bytes := 0
    header_state := .init
    header := []
    value := [] }

/-! ## The callbacks

`none` is a return value other than zero. -/

def http_url_cb (st : ReqSt) (data : CStr) : Option ReqSt :=
  if data.length ≥ MAX_URL_SIZE then none else some (st.setUrl data)

/-- The check of the size that the header callbacks share; then `data` is stored. -/
def append_header (st : ReqSt) (data : CStr) (store : ReqSt → CStr → ReqSt) : Option ReqSt :=
  if data.length > MAX_HTTP_HEADERS_SIZE ∨
      st.header_bytes > MAX_HTTP_HEADERS_SIZE - data.length then none
  else some (store { st with header_bytes := st.header_bytes + data.length } data)

section Headers

variable [Platform]

def header_value_check (env : HeaderEnv) (st : ReqSt) : ReqSt :=
  { st with hdr := st.hdr.header_value_check env st.next_header st.value }

/-- The value of the header before is handled when the first fragment of a name arrives. -/
def begin_field (env : HeaderEnv) (st : ReqSt) : ReqSt :=
  match st.header_state with
  | .recv => st
  | .value_recv => { st.header_value_check env with header_state := .recv, header := [] }
  | .init => { st with header_state := .recv, header := [] }

def http_header_field_cb (env : HeaderEnv) (st : ReqSt) (data : CStr) : Option ReqSt :=
  (st.begin_field env).append_header data fun st data => { st with header := st.header ++ data }

def header_check (st : ReqSt) : ReqSt := { st with next_header := in_word_set st.header }

/-- The name is looked up when the first fragment of a value arrives. -/
def begin_value (st : ReqSt) : ReqSt :=
  if st.header_state = .value_recv then st
  else { st.header_check with header_state := .value_recv, value := [] }

def http_header_value_cb (st : ReqSt) (data : CStr) : Option ReqSt :=
  st.begin_value.append_header data fun st data => { st with value := st.value ++ data }

/-- A client that has asked again without the header of SPNEGO wants another method than
GSSAPI. -/
def gssapi_fallback (hdr : HeaderSt) : HeaderSt :=
  if hdr.auth.selected_auth.type.has AUTH_TYPE_GSSAPI && hdr.ws.auth_state = .inactive &&
      !hdr.spnego_set then
    { hdr with auth := hdr.auth.ws_switch_auth_to_next }
  else hdr

def http_header_complete_cb (env : HeaderEnv) (st : ReqSt) : Option ReqSt :=
  let st := st.header_value_check env
  some { st with hdr := gssapi_fallback st.hdr, headers_complete := true }

end Headers

def http_message_begin_cb (st : ReqSt) : Option ReqSt :=
  if st.headers_complete then none else some st

def http_message_complete_cb (st : ReqSt) : Option ReqSt :=
  some { st with message_complete := true }

def http_body_cb (st : ReqSt) (data : List UInt8) : Option ReqSt :=
  if data.length > MAX_HTTP_REQUEST_BODY ∨
      st.body.length > MAX_HTTP_REQUEST_BODY - data.length then none
  else some { st with body := st.body.append data }

end ReqSt

/-! ## Deliveries -/

/-- A call of the parser. -/
inductive Callback
  | message_begin
  | url (data : CStr)
  | header_field (data : CStr)
  | header_value (data : CStr)
  | headers_complete
  | body (data : List UInt8)
  | message_complete
deriving DecidableEq, Repr

/-- What the call does. -/
def Callback.call [Platform] (env : HeaderEnv) (st : ReqSt) : Callback → Option ReqSt
  | .message_begin => st.http_message_begin_cb
  | .url data => st.http_url_cb data
  | .header_field data => st.http_header_field_cb env data
  | .header_value data => st.http_header_value_cb data
  | .headers_complete => st.http_header_complete_cb env
  | .body data => st.http_body_cb data
  | .message_complete => st.http_message_complete_cb

/-- A header, as it is delivered. -/
structure Field where
  name : Fragments Char
  value : Fragments Char

namespace Field

def callbacks (h : Field) : List Callback :=
  h.name.parts.map .header_field ++ h.value.parts.map .header_value

/-- The header in one piece. -/
def whole (h : Field) : Field := ⟨.one h.name.whole, .one h.value.whole⟩

def size (h : Field) : Nat := h.name.whole.length + h.value.whole.length

end Field

/-- A request, as it is delivered.  The body is one element, or one for each chunk; then
headers may follow it. -/
structure Delivery where
  url : Fragments Char
  headers : List Field
  body : List (Fragments UInt8)
  trailers : List Field

namespace Delivery

/-- The calls that follow those for the URL. -/
def tail (d : Delivery) : List Callback :=
  d.headers.flatMap Field.callbacks ++ .headers_complete ::
    (d.body.flatMap (fun chunk => chunk.parts.map .body) ++
      (d.trailers.flatMap Field.callbacks ++ [.message_complete]))

/-- The calls that deliver a request. -/
def callbacks (d : Delivery) : List Callback :=
  .message_begin :: (d.url.parts.map .url ++ d.tail)

/-- The same request in one piece. -/
def whole (d : Delivery) : Delivery where
  url := .one d.url.whole
  headers := d.headers.map Field.whole
  body := d.body.map fun chunk => .one chunk.whole
  trailers := d.trailers.map Field.whole

/-- The bytes of the names and the values of the headers. -/
def header_size (d : Delivery) : Nat := ((d.headers ++ d.trailers).map Field.size).sum

def body_size (d : Delivery) : Nat := (d.body.map fun chunk => chunk.whole.length).sum

end Delivery

/-- Calls one after the other, until one returns an error. -/
def ReqSt.run [Platform] (env : HeaderEnv) (st : ReqSt) (cbs : List Callback) : Option ReqSt :=
  cbs.foldlM (Callback.call env) st

/-- The state in which a request that is delivered leaves the worker, unless it is
rejected. -/
def ReqSt.receive [Platform] (env : HeaderEnv) (st : ReqSt) (d : Delivery) : Option ReqSt :=
  st.http_req_reset.run env d.callbacks

/-! ## The buffer -/

/-- The value of a cookie that is decoded. -/
def cookie_value (token : CStr) : Option CStr :=
  if "webvpn=".toList.isPrefixOf token then some (WorkerSt.trim_end (token.drop 7))
  else if "webvpncontext=".toList.isPrefixOf token then some (WorkerSt.trim_end (token.drop 14))
  else none

section Buffer

variable [Platform] (env : HeaderEnv)

/-- What `oc_base64_decode` writes. -/
def HeaderEnv.decoded (value : CStr) : List UInt8 :=
  ((Platform.base64_decode value).getD (env.base64_partial value)).take
    (WorkerSt.BASE64_DECODE_LENGTH value.length)

/-- What the tokens of a cookie header leave at the start of the buffer. -/
def decode_into (buffer : List UInt8) : List CStr → List UInt8
  | [] => buffer
  | token :: tokens =>
    match cookie_value token with
    | none => decode_into buffer tokens
    | some value =>
      if WorkerSt.cookie_length_ok value then
        decode_into (env.decoded value ++ buffer.drop (env.decoded value).length) tokens
      else buffer

namespace Callback

/-- The call starts with `header_value_check`. -/
def checks_value (st : ReqSt) : Callback → Bool
  | .header_field _ => st.header_state = .value_recv
  | .headers_complete => true
  | _ => false

/-- What is left at the start of the buffer when the call reads its data. -/
def overwrite (st : ReqSt) (buffer : List UInt8) (cb : Callback) : List UInt8 :=
  if cb.checks_value st ∧ st.next_header = some .cookie ∧
      st.hdr.ws.auth_state.code ≤ AuthState.cookie.code then
    decode_into env buffer (WorkerSt.cookie_tokens st.value)
  else buffer

/-- The call, after `top` has been written to the start of the buffer. -/
def overlaid (top : List UInt8) (place : Nat) : Callback → Callback
  | .url data => .url (overlay (top.map fun b => Char.ofNat b.toNat) place data)
  | .header_field data => .header_field (overlay (top.map fun b => Char.ofNat b.toNat) place data)
  | .header_value data => .header_value (overlay (top.map fun b => Char.ofNat b.toNat) place data)
  | .body data => .body (overlay top place data)
  | cb => cb

end Callback

/-- The worker fills its buffer, or the parser calls back.  The place of a call is that of
the first byte of the buffer that is still read, by the call or after it; if there is none,
it is the size of the buffer. -/
inductive HttpEvent
  | read
  | call (place : Nat) (cb : Callback)

namespace HttpEvent

def callback : HttpEvent → Option Callback
  | .read => none
  | .call _ cb => some cb

/-- A step on the request and on what has been written to the start of the buffer since it
was filled. -/
def step : ReqSt × List UInt8 → HttpEvent → Option (ReqSt × List UInt8)
  | (st, _), .read => some (st, [])
  | (st, top), .call place cb =>
    ((cb.overlaid (cb.overwrite env st top) place).call env st).map
      (·, cb.overwrite env st top)

/-- Nothing that is still read has been written over. -/
def clear : ReqSt × List UInt8 → HttpEvent → Bool
  | _, .read => true
  | (st, top), .call place cb => (cb.overwrite env st top).length ≤ place

end HttpEvent

end Buffer

end Ocserv

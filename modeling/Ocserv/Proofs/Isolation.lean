import Ocserv.Lib.Residue
import Ocserv.Proofs.Segmentation

/-!
# Requests that follow one another on a connection

A client may send several requests over one TLS connection.  Before each of them
`http_req_reset` clears a part of the request structure; what the headers have set stays:
the credential, the address families, the DTLS parameters, the MTUs and the user agent.

What a further request leaves in these fields is a function of what was in them and of the
headers of the request that are handled (`ReqSt.receive_seen`).  So two histories of a
connection are told apart by a further request exactly if something that they have left
differs and is not overwritten by the request (`request_isolated_iff`).
-/

namespace Ocserv

open List Option

/-! ## The headers that are handled -/

/-- A header as it is handled: what its name stands for, and its value. -/
abbrev Header := Option HttpHeader × CStr

/-- The value of a header of a kind.  Empty values are not handled. -/
def Header.value (kind : HttpHeader) (x : Header) : Option CStr :=
  if x.1 = some kind ∧ x.2 ≠ [] then some x.2 else none

def Field.header (h : Field) : Header := (in_word_set h.name.whole, h.value.whole)

/-- The headers of a request in the order in which they are handled. -/
def Delivery.handled (d : Delivery) : List Header := (d.headers ++ d.late).map Field.header

theorem Delivery.handled_whole (d : Delivery) : d.whole.handled = d.handled := by
  have hfield : ∀ h : Field, h.whole.header = h.header := fun h => by
    simp [Field.whole, Field.header]
  have hlate : d.whole.late = d.late.map Field.whole := by
    unfold Delivery.late
    split_ifs with h h' h' <;> simp_all [Delivery.whole, map_dropLast]
    cases d.headers.getLast? <;> rfl
  unfold Delivery.handled
  rw [hlate]
  simp [Delivery.whole, Function.comp_def, hfield]

/-! ## What a header does to the fields that stay -/

/-- How the DTLS session gets its key and its ciphersuite. -/
inductive DtlsChoice
  | psk
  | suite (selected : Option DtlsCiphersuite)
deriving DecidableEq

def HeaderSt.dtls (hdr : HeaderSt) : DtlsChoice :=
  if hdr.use_psk then .psk else .suite hdr.selected_ciphersuite

/-- The client program that a `User-Agent` header names, if it is known. -/
def agent_of (value : CStr) : Option Agent :=
  let user_agent := strlcpy value MAX_AGENT_NAME
  if starts_with_nocase user_agent "Open AnyConnect VPN Agent v" then
    some (if atoi_unsigned (user_agent.drop 27) ≤ 3 then .openconnect_v3 else .openconnect)
  else if starts_with_nocase user_agent "Cisco AnyConnect VPN Agent for Apple" then
    some .anyconnect
  else if starts_with_nocase user_agent "OpenConnect VPN Agent" then some .openconnect
  else if starts_with_nocase user_agent "Cisco AnyConnect" then some .anyconnect
  else if starts_with_nocase user_agent "AnyConnect-compatible OpenConnect" then some .openconnect
  else if starts_with_nocase user_agent "AnyConnect" then some .anyconnect
  else if starts_with_nocase user_agent "Clavister OneConnect VPN" then
    some .openconnect_clavister
  else if starts_with_nocase user_agent "AnyLink Secure Client" then some .anylink
  else if starts_with_nocase user_agent "Cisco SVC IPPhone Client" then some .svc_ipphone
  else none

theorem HeaderSt.set_user_agent_type (hdr : HeaderSt) (value : CStr) :
    (hdr.set_user_agent value).user_agent_type = (agent_of value).getD hdr.user_agent_type := by
  unfold set_user_agent agent_of
  simp only [apply_ite HeaderSt.user_agent_type, apply_ite (Option.getD · hdr.user_agent_type),
    getD_some, getD_none]

/-- The address family is not among those that the header lists. -/
def excludes (family : String) (value : CStr) : Bool := (strstr family.toList value).isNone

namespace Header

variable (env : HeaderEnv)

/-- The program is one for which a `X-DTLS12-CipherSuite` header counts. -/
def heeds12 (agent : Agent) : Bool :=
  env.dtls_legacy && !(agent = .anyconnect && env.dtls12_regression)

/-- The header makes the server use a key from the TLS session. -/
def offers (x : Agent × Header) : Bool :=
  env.dtls_psk &&
    ((x.2.value .dtls_ciphersuite).any offers_psk ||
      heeds12 env x.1 && (x.2.value .dtls12_ciphersuite).any offers_psk)

/-- The ciphersuite that a `X-DTLS12-CipherSuite` header selects. -/
def suite12 (x : Agent × Header) : Option DtlsCiphersuite :=
  if heeds12 env x.1 then (x.2.value .dtls12_ciphersuite).bind (env.negotiate ciphersuites12)
  else none

/-- The ciphersuite that a `X-DTLS-CipherSuite` header selects. -/
def suite (x : Header) : Option DtlsCiphersuite :=
  if env.dtls_legacy then (x.value .dtls_ciphersuite).bind (env.negotiate ciphersuites) else none

end Header

/-- The fields of a request that are carried over to the next one and that the processing of
the tunnel depends on. -/
@[ext] structure Seen where
  authorization : Option CStr
  no_ipv4 : Bool
  no_ipv6 : Bool
  link_mtu : Nat
  tunnel_mtu : Nat
  user_agent_type : Agent
  dtls : DtlsChoice

def HeaderSt.seen (hdr : HeaderSt) : Seen where
  authorization := hdr.authorization
  no_ipv4 := hdr.no_ipv4
  no_ipv6 := hdr.no_ipv6
  link_mtu := hdr.link_mtu
  tunnel_mtu := hdr.tunnel_mtu
  user_agent_type := hdr.user_agent_type
  dtls := hdr.dtls

/-- A choice made from a `X-DTLS12-CipherSuite` header takes precedence over an earlier one,
and an earlier one over one made from a `X-DTLS-CipherSuite` header. -/
def DtlsChoice.handle (env : HeaderEnv) (agent : Agent) (x : Header) : DtlsChoice → DtlsChoice
  | .psk => .psk
  | .suite selected =>
    if Header.offers env (agent, x) then .psk
    else .suite ((Header.suite12 env (agent, x)).or (selected.or (Header.suite env x)))

/-- What a header does to these fields. -/
def Seen.handle (env : HeaderEnv) (s : Seen) (x : Header) : Seen where
  authorization := (x.value .authorization).or s.authorization
  no_ipv4 := s.no_ipv4 || (x.value .cstp_atype).any (excludes "IPv4")
  no_ipv6 := s.no_ipv6 || (x.value .cstp_atype).any (excludes "IPv6")
  link_mtu := ((x.value .cstp_base_mtu).map HeaderSt.read_mtu).getD s.link_mtu
  tunnel_mtu := ((x.value .cstp_mtu).map HeaderSt.read_mtu).getD s.tunnel_mtu
  user_agent_type := ((x.value .user_agent).bind agent_of).getD s.user_agent_type
  dtls := s.dtls.handle env s.user_agent_type x

namespace Header

variable (kind : HttpHeader)

@[simp] theorem value_none (v : CStr) : Header.value kind (none, v) = none := if_neg (by simp)

@[simp] theorem value_nil (next_header : Option HttpHeader) :
    Header.value kind (next_header, []) = none :=
  if_neg (by simp)

@[simp] theorem value_some (kind' : HttpHeader) (v : CStr) :
    Header.value kind (some kind', v) = if kind' = kind ∧ v ≠ [] then some v else none := by
  simp [Header.value]

end Header

namespace HeaderSt

variable (env : HeaderEnv) (hdr : HeaderSt) {value : CStr}

@[simp] theorem dtls_set_psk : hdr.set_psk.dtls = .psk := rfl

theorem dtls_of_psk {hdr : HeaderSt} (h : hdr.use_psk) : hdr.dtls = .psk := if_pos h

theorem dtls_of_not_psk {hdr : HeaderSt} (h : hdr.use_psk = false) :
    hdr.dtls = .suite hdr.selected_ciphersuite := by
  rw [dtls, h]
  rfl

theorem set_dtls_ciphersuite_dtls (hvalue : value ≠ []) :
    (hdr.set_dtls_ciphersuite env value).dtls =
      hdr.dtls.handle env hdr.user_agent_type (some .dtls_ciphersuite, value) := by
  have hoffers : Header.offers env (hdr.user_agent_type, (some .dtls_ciphersuite, value)) =
      (offers_psk value && env.dtls_psk) := by
    simp [Header.offers, hvalue, Bool.and_comm]
  have hsuite12 : Header.suite12 env (hdr.user_agent_type, (some .dtls_ciphersuite, value)) =
      none := by
    simp [Header.suite12]
  have hsuite : Header.suite env (some .dtls_ciphersuite, value) =
      if env.dtls_legacy then env.negotiate ciphersuites value else none := by
    simp [Header.suite, hvalue]
  unfold set_dtls_ciphersuite
  cases hpsk : hdr.use_psk with
  | true =>
    rw [dtls_of_psk hpsk, apply_ite HeaderSt.dtls, apply_ite HeaderSt.dtls, dtls_of_psk hpsk,
      dtls_set_psk]
    simp [DtlsChoice.handle]
  | false =>
    rw [dtls_of_not_psk hpsk, DtlsChoice.handle, hoffers, hsuite12, hsuite, none_or]
    cases offers_psk value && env.dtls_psk with
    | true => rfl
    | false =>
      cases env.dtls_legacy <;> cases hselected : hdr.selected_ciphersuite <;>
        simp [dtls, hpsk, hselected]

theorem set_dtls12_ciphersuite_dtls (hvalue : value ≠ []) :
    (hdr.set_dtls12_ciphersuite env value).dtls =
      hdr.dtls.handle env hdr.user_agent_type (some .dtls12_ciphersuite, value) := by
  have hoffers : Header.offers env (hdr.user_agent_type, (some .dtls12_ciphersuite, value)) =
      (Header.heeds12 env hdr.user_agent_type && (offers_psk value && env.dtls_psk)) := by
    simp [Header.offers, hvalue, Bool.and_comm, Bool.and_assoc]
  have hsuite12 : Header.suite12 env (hdr.user_agent_type, (some .dtls12_ciphersuite, value)) =
      if Header.heeds12 env hdr.user_agent_type then env.negotiate ciphersuites12 value
      else none := by
    simp [Header.suite12, hvalue]
  have hsuite : Header.suite env (some .dtls12_ciphersuite, value) = none := by
    simp [Header.suite]
  unfold set_dtls12_ciphersuite
  cases hpsk : hdr.use_psk with
  | true => simp [dtls_of_psk hpsk, DtlsChoice.handle]
  | false =>
    rw [dtls_of_not_psk hpsk, DtlsChoice.handle, hoffers, hsuite12, hsuite, or_none]
    unfold Header.heeds12
    cases env.dtls_legacy with
    | false => simp [dtls_of_not_psk, hpsk]
    | true =>
      cases decide (hdr.user_agent_type = .anyconnect) && env.dtls12_regression with
      | true => simp [dtls_of_not_psk, hpsk]
      | false =>
        cases offers_psk value && env.dtls_psk with
        | true => rfl
        | false =>
          cases env.negotiate ciphersuites12 value <;> simp [dtls, hpsk]

end HeaderSt

variable (env : HeaderEnv) (agent : Agent) {x : Header}

theorem DtlsChoice.handle_other (h : x.value .dtls_ciphersuite = none)
    (h12 : x.value .dtls12_ciphersuite = none) (c : DtlsChoice) : c.handle env agent x = c := by
  cases c with
  | psk => rfl
  | suite selected => simp [handle, Header.offers, Header.suite12, Header.suite, h, h12]

@[simp] theorem DtlsChoice.handle_some {kind : HttpHeader} (h : kind ≠ .dtls_ciphersuite)
    (h12 : kind ≠ .dtls12_ciphersuite) (value : CStr) (c : DtlsChoice) :
    c.handle env agent (some kind, value) = c :=
  c.handle_other env agent (by simp [h]) (by simp [h12])

theorem Seen.handle_other (s : Seen)
    (h : ∀ kind ∈ [HttpHeader.authorization, .cstp_atype, .cstp_base_mtu, .cstp_mtu, .user_agent,
      .dtls_ciphersuite, .dtls12_ciphersuite], x.value kind = none) :
    s.handle env x = s := by
  have hdtls := s.dtls.handle_other env s.user_agent_type (h .dtls_ciphersuite (by decide))
    (h .dtls12_ciphersuite (by decide))
  ext1 <;> simp [handle, h, hdtls]

namespace HeaderSt

variable (env : HeaderEnv) (hdr : HeaderSt) [Platform]

omit [Platform] in
theorem set_user_agent_seen (value : CStr) :
    (hdr.set_user_agent value).seen =
      { hdr.seen with user_agent_type := (agent_of value).getD hdr.user_agent_type } := by
  unfold seen
  rw [set_user_agent_type]
  simp only [dtls, set_user_agent, apply_ite HeaderSt.authorization, apply_ite HeaderSt.no_ipv4,
    apply_ite HeaderSt.no_ipv6, apply_ite HeaderSt.link_mtu, apply_ite HeaderSt.tunnel_mtu,
    apply_ite HeaderSt.use_psk, apply_ite HeaderSt.selected_ciphersuite, ite_self]

omit [Platform] in
theorem set_dtls_ciphersuite_seen {value : CStr} (hvalue : value ≠ []) :
    (hdr.set_dtls_ciphersuite env value).seen =
      { hdr.seen with
        dtls := hdr.dtls.handle env hdr.user_agent_type (some .dtls_ciphersuite, value) } := by
  rw [← set_dtls_ciphersuite_dtls env hdr hvalue]
  unfold set_dtls_ciphersuite
  split_ifs <;> rfl

omit [Platform] in
theorem set_dtls12_ciphersuite_seen {value : CStr} (hvalue : value ≠ []) :
    (hdr.set_dtls12_ciphersuite env value).seen =
      { hdr.seen with
        dtls := hdr.dtls.handle env hdr.user_agent_type (some .dtls12_ciphersuite, value) } := by
  rw [← set_dtls12_ciphersuite_dtls env hdr hvalue]
  unfold set_dtls12_ciphersuite
  cases env.negotiate ciphersuites12 value <;> (dsimp only; split_ifs <;> rfl)

/-- What a header does to the fields that stay depends on these fields only. -/
theorem seen_header_value_check (x : Header) :
    (hdr.header_value_check env x.1 x.2).seen = hdr.seen.handle env x := by
  obtain ⟨next_header, value⟩ := x
  unfold header_value_check
  by_cases hvalue : value = []
  · subst hvalue
    exact (hdr.seen.handle_other env fun kind _ => Header.value_nil kind _).symm
  · rw [if_neg hvalue]
    cases next_header with
    | none => exact (hdr.seen.handle_other env fun kind _ => Header.value_none kind _).symm
    | some header =>
      cases header with
      | dtls_ciphersuite =>
        refine (set_dtls_ciphersuite_seen env hdr hvalue).trans ?_
        simp [Seen.handle, seen]
      | dtls12_ciphersuite =>
        refine (set_dtls12_ciphersuite_seen env hdr hvalue).trans ?_
        simp [Seen.handle, seen]
      | user_agent =>
        refine (set_user_agent_seen hdr value).trans ?_
        simp [Seen.handle, seen, hvalue]
      | authorization | cstp_base_mtu | cstp_mtu | cstp_atype =>
        change Seen.mk _ _ _ _ _ _ hdr.dtls = _
        simp [Seen.handle, seen, set_address_types, excludes, hvalue]
      | cookie | connection | host | strap_dh_pubkey | device_type =>
        exact (hdr.seen.handle_other env (by simp)).symm
      | master_secret | hostname | platform | support_spnego | full_ipv6 | cstp_encoding
      | dtls_encoding =>
        rw [hdr.seen.handle_other env (by simp)]
        simp only [set_master_secret, set_hostname, set_platform, set_spnego]
        split_ifs <;> rfl

/-- With a key from the TLS session no ciphersuite is selected. -/
def PskAlone : Prop := hdr.use_psk → hdr.selected_ciphersuite = none

variable {env hdr}

omit [Platform] in
theorem PskAlone.set_dtls_ciphersuite (h : hdr.PskAlone) (value : CStr) :
    (hdr.set_dtls_ciphersuite env value).PskAlone := by
  unfold HeaderSt.set_dtls_ciphersuite
  split_ifs with hoffer hpsk
  · exact fun _ => rfl
  · exact h
  · exact h
  · intro hpsk'
    rw [Bool.or_eq_true] at hpsk
    exact absurd (Or.inl hpsk') hpsk

omit [Platform] in
theorem PskAlone.set_dtls12_ciphersuite (h : hdr.PskAlone) (value : CStr) :
    (hdr.set_dtls12_ciphersuite env value).PskAlone := by
  unfold HeaderSt.set_dtls12_ciphersuite
  split_ifs with hpsk
  · exact h
  · exact h
  · exact fun _ => rfl
  · cases env.negotiate ciphersuites12 value with
    | none => exact h
    | some suite =>
      intro hpsk'
      rw [Bool.or_eq_true] at hpsk
      exact absurd (Or.inl hpsk') hpsk

theorem PskAlone.header_value_check (h : hdr.PskAlone) (next_header : Option HttpHeader)
    (value : CStr) : (hdr.header_value_check env next_header value).PskAlone := by
  unfold HeaderSt.header_value_check
  by_cases hvalue : value = []
  · rw [if_pos hvalue]
    exact h
  · rw [if_neg hvalue]
    cases next_header with
    | none => exact h
    | some header =>
      cases header with
      | dtls_ciphersuite => exact h.set_dtls_ciphersuite value
      | dtls12_ciphersuite => exact h.set_dtls12_ciphersuite value
      | user_agent =>
        unfold PskAlone set_user_agent
        simp only [apply_ite HeaderSt.use_psk, apply_ite HeaderSt.selected_ciphersuite, ite_self]
        exact h
      | cookie | connection | host | strap_dh_pubkey | device_type | authorization | cstp_base_mtu
      | cstp_mtu | cstp_atype => exact h
      | master_secret | hostname | platform | support_spnego | full_ipv6 | cstp_encoding
      | dtls_encoding =>
        simp only [set_master_secret, set_hostname, set_platform, set_spnego]
        split_ifs <;> exact h

end HeaderSt

namespace ReqSt

variable [Platform] {env : HeaderEnv} {st st' : ReqSt} {d : Delivery}

omit [Platform] in
theorem seen_gssapi_fallback (hdr : HeaderSt) : (gssapi_fallback hdr).seen = hdr.seen := by
  unfold gssapi_fallback
  split_ifs <;> rfl

omit [Platform] in
theorem pskAlone_gssapi_fallback {hdr : HeaderSt} (h : hdr.PskAlone) :
    (gssapi_fallback hdr).PskAlone := by
  unfold gssapi_fallback
  split_ifs <;> exact h

/-- What a request leaves in the fields that stay is a function of what was in them and of
its headers. -/
theorem receive_seen (hreceive : st.receive env d = some st') :
    st'.hdr.seen = d.handled.foldl (Seen.handle env) st.hdr.seen := by
  have hfold : ∀ (l : List Field) (hdr : HeaderSt), (l.foldl (Field.handle env) hdr).seen =
      (l.map Field.header).foldl (Seen.handle env) hdr.seen := by
    intro l hdr
    rw [foldl_map]
    refine (foldl_hom HeaderSt.seen fun hdr h => ?_).symm
    exact (hdr.seen_header_value_check env h.header).symm
  rw [receive_hdr hreceive, hfold, seen_gssapi_fallback, hfold, Delivery.handled,
    map_append, foldl_append]
  rfl

theorem receive_pskAlone (hst : st.hdr.PskAlone) (hreceive : st.receive env d = some st') :
    st'.hdr.PskAlone := by
  have hfold : ∀ (l : List Field) (hdr : HeaderSt), hdr.PskAlone →
      (l.foldl (Field.handle env) hdr).PskAlone := by
    intro l
    induction l with
    | nil => exact fun _ h => h
    | cons x l ih => exact fun hdr h => ih _ (h.header_value_check _ _)
  rw [receive_hdr hreceive]
  exact hfold _ _ (pskAlone_gssapi_fallback (hfold _ _ hst))

end ReqSt

/-! ## Histories of a connection -/

/-- A request and what its handler does.  A handler after which the connection goes on
changes the authentication and its state, and none of the fields that headers set. -/
structure Turn where
  env : HeaderEnv
  request : Delivery
  handler : ReqSt → WorkerSt × AuthSel

/-- The request when the handshake is complete. -/
def ReqSt.connected (ws : WorkerSt) (auth : AuthSel) : ReqSt where
  hdr := { ws, auth }
  body := .empty

section Histories

variable [Platform]

def Turn.run (st : ReqSt) (t : Turn) : Option ReqSt :=
  (st.receive t.env t.request).map fun st =>
    { st with hdr := { st.hdr with ws := (t.handler st).1, auth := (t.handler st).2 } }

/-- The state in which the requests of a history leave a connection, if none is rejected. -/
def ReqSt.after (st : ReqSt) (past : List Turn) : Option ReqSt := past.foldlM Turn.run st

theorem ReqSt.after_pskAlone {st st' : ReqSt} {past : List Turn} (hst : st.hdr.PskAlone)
    (hafter : st.after past = some st') : st'.hdr.PskAlone := by
  induction past generalizing st with
  | nil => exact some.inj hafter ▸ hst
  | cons t past ih =>
    obtain ⟨mid, hmid, hafter⟩ := bind_eq_some_iff.1 hafter
    obtain ⟨s, hs, rfl⟩ := map_eq_some_iff.1 hmid
    have hs_psk : s.hdr.PskAlone := receive_pskAlone hst hs
    refine ih ?_ hafter
    exact hs_psk

end Histories

/-! ## What a request overwrites -/

/-- The headers, each with the client program that is known when it is handled. -/
def in_force : Agent → List Header → List (Agent × Header)
  | _, [] => []
  | agent, x :: l =>
    (agent, x) :: in_force (((x.value .user_agent).bind agent_of).getD agent) l

section Overwritten

variable (env : HeaderEnv)

/-- A header makes the server use a key from the TLS session, if the history has left this
client program. -/
def offered (agent : Agent) (l : List Header) : Bool := (in_force agent l).any (Header.offers env)

/-- What the last `X-DTLS12-CipherSuite` header that counts selects. -/
def selected12 (agent : Agent) (l : List Header) : Option DtlsCiphersuite :=
  (in_force agent l).reverse.findSome? (Header.suite12 env)

/-- What the first `X-DTLS-CipherSuite` header selects. -/
def selected (l : List Header) : Option DtlsCiphersuite := l.findSome? (Header.suite env)

section Cons

variable (agent : Agent) (x : Header) (l : List Header)

theorem offered_cons :
    offered env agent (x :: l) = (Header.offers env (agent, x) ||
      offered env (((x.value .user_agent).bind agent_of).getD agent) l) := rfl

theorem selected12_cons :
    selected12 env agent (x :: l) =
      (selected12 env (((x.value .user_agent).bind agent_of).getD agent) l).or
        (Header.suite12 env (agent, x)) := by
  unfold selected12
  rw [in_force, reverse_cons, List.findSome?_append, List.findSome?_singleton]

theorem selected_cons : selected env (x :: l) = (Header.suite env x).or (selected env l) := by
  unfold selected
  rw [List.findSome?_cons]
  cases Header.suite env x <;> rfl

end Cons

theorem DtlsChoice.foldl_psk (l : List Header) {s : Seen} (hs : s.dtls = .psk) :
    (l.foldl (Seen.handle env) s).dtls = .psk := by
  induction l generalizing s with
  | nil => exact hs
  | cons x l ih => exact ih (by rw [Seen.handle, hs]; rfl)

theorem DtlsChoice.foldl_suite (l : List Header) {s : Seen} {c : Option DtlsCiphersuite}
    (hs : s.dtls = .suite c) :
    (l.foldl (Seen.handle env) s).dtls =
      if offered env s.user_agent_type l then .psk
      else .suite ((selected12 env s.user_agent_type l).or (c.or (selected env l))) := by
  induction l generalizing s c with
  | nil => simp [hs, offered, selected12, selected, in_force]
  | cons x l ih =>
    have hdtls : (s.handle env x).dtls = (DtlsChoice.suite c).handle env s.user_agent_type x := by
      rw [← hs]
      rfl
    rw [List.foldl_cons]
    by_cases hoffers : Header.offers env (s.user_agent_type, x)
    · rw [foldl_psk env l (by rw [hdtls, handle, if_pos hoffers])]
      simp [offered, in_force, hoffers]
    · rw [ih (by rw [hdtls, handle, if_neg hoffers]), offered_cons, selected12_cons,
        selected_cons, Bool.eq_false_iff.2 hoffers, Bool.false_or]
      simp only [Option.or_assoc]
      rfl

/-- What a request makes of the DTLS parameters that the history has left. -/
theorem HeaderSt.foldl_dtls (hdr : HeaderSt) (l : List Header) :
    (l.foldl (Seen.handle env) hdr.seen).dtls =
      if hdr.use_psk || offered env hdr.user_agent_type l then .psk
      else .suite ((selected12 env hdr.user_agent_type l).or
        (hdr.selected_ciphersuite.or (selected env l))) := by
  cases hpsk : hdr.use_psk with
  | true => exact DtlsChoice.foldl_psk env l (dtls_of_psk hpsk)
  | false => exact DtlsChoice.foldl_suite env l (dtls_of_not_psk hpsk)

/-- The fields of the request that the further processing of a client depends on. -/
@[ext] structure Yield where
  authorization : Option CStr
  no_ipv4 : Bool
  no_ipv6 : Bool
  use_psk : Bool
  selected_ciphersuite : Option DtlsCiphersuite
  link_mtu : Nat
  tunnel_mtu : Nat
deriving DecidableEq

def ReqSt.yield (st : ReqSt) : Yield where
  authorization := st.hdr.authorization
  no_ipv4 := st.hdr.no_ipv4
  no_ipv6 := st.hdr.no_ipv6
  use_psk := st.hdr.use_psk
  selected_ciphersuite := st.hdr.selected_ciphersuite
  link_mtu := st.hdr.link_mtu
  tunnel_mtu := st.hdr.tunnel_mtu

/-- What two histories have left is the same, or is overwritten by the headers of the
request. -/
structure Overwritten (l : List Header) (left₁ left₂ : HeaderSt) : Prop where
  authorization : left₁.authorization = left₂.authorization ∨
    ∃ x ∈ l, (x.value .authorization).isSome
  no_ipv4 : left₁.no_ipv4 = left₂.no_ipv4 ∨ ∃ x ∈ l, (x.value .cstp_atype).any (excludes "IPv4")
  no_ipv6 : left₁.no_ipv6 = left₂.no_ipv6 ∨ ∃ x ∈ l, (x.value .cstp_atype).any (excludes "IPv6")
  link_mtu : left₁.link_mtu = left₂.link_mtu ∨ ∃ x ∈ l, (x.value .cstp_base_mtu).isSome
  tunnel_mtu : left₁.tunnel_mtu = left₂.tunnel_mtu ∨ ∃ x ∈ l, (x.value .cstp_mtu).isSome
  psk : (left₁.use_psk || offered env left₁.user_agent_type l) =
    (left₂.use_psk || offered env left₂.user_agent_type l)
  ciphersuite : (left₁.use_psk || offered env left₁.user_agent_type l) = false →
    (selected12 env left₁.user_agent_type l).or
        (left₁.selected_ciphersuite.or (selected env l)) =
      (selected12 env left₂.user_agent_type l).or
        (left₂.selected_ciphersuite.or (selected env l))

theorem HeaderSt.dtls_eq_iff {hdr₁ hdr₂ : HeaderSt} (h₁ : hdr₁.PskAlone) (h₂ : hdr₂.PskAlone) :
    hdr₁.dtls = hdr₂.dtls ↔
      hdr₁.use_psk = hdr₂.use_psk ∧ hdr₁.selected_ciphersuite = hdr₂.selected_ciphersuite := by
  unfold dtls
  cases hpsk₁ : hdr₁.use_psk <;> cases hpsk₂ : hdr₂.use_psk
  · simp
  · simp
  · simp
  · simp [h₁ hpsk₁, h₂ hpsk₂]

/-! ### The single fields -/

theorem sets_authorization :
    Sets (Seen.handle env) Seen.authorization fun x => (x.value .authorization).map some := by
  intro s x
  show (x.value .authorization).or s.authorization =
    ((x.value .authorization).map some).getD s.authorization
  cases x.value .authorization <;> rfl

/-- A flag that a header may only raise. -/
theorem flag_or (flag raise : Bool) :
    (flag || raise) = (if raise then some true else none).getD flag := by
  cases raise <;> simp

theorem sets_no_ipv4 : Sets (Seen.handle env) Seen.no_ipv4
    fun x => if (x.value .cstp_atype).any (excludes "IPv4") then some true else none :=
  fun _ _ => flag_or _ _

theorem sets_no_ipv6 : Sets (Seen.handle env) Seen.no_ipv6
    fun x => if (x.value .cstp_atype).any (excludes "IPv6") then some true else none :=
  fun _ _ => flag_or _ _

theorem sets_link_mtu : Sets (Seen.handle env) Seen.link_mtu
    fun x => (x.value .cstp_base_mtu).map HeaderSt.read_mtu :=
  fun _ _ => rfl

theorem sets_tunnel_mtu : Sets (Seen.handle env) Seen.tunnel_mtu
    fun x => (x.value .cstp_mtu).map HeaderSt.read_mtu :=
  fun _ _ => rfl

variable {env} {l : List Header} {left₁ left₂ : HeaderSt}

theorem dtls_overwritten_iff {hdr₁ hdr₂ : HeaderSt}
    (h₁ : hdr₁.seen = l.foldl (Seen.handle env) left₁.seen)
    (h₂ : hdr₂.seen = l.foldl (Seen.handle env) left₂.seen) :
    hdr₁.dtls = hdr₂.dtls ↔
      (left₁.use_psk || offered env left₁.user_agent_type l) =
        (left₂.use_psk || offered env left₂.user_agent_type l) ∧
      ((left₁.use_psk || offered env left₁.user_agent_type l) = false →
        (selected12 env left₁.user_agent_type l).or
            (left₁.selected_ciphersuite.or (selected env l)) =
          (selected12 env left₂.user_agent_type l).or
            (left₂.selected_ciphersuite.or (selected env l))) := by
  have hdtls₁ := (congrArg Seen.dtls h₁).trans (left₁.foldl_dtls env l)
  have hdtls₂ := (congrArg Seen.dtls h₂).trans (left₂.foldl_dtls env l)
  rw [show hdr₁.dtls = _ from hdtls₁, show hdr₂.dtls = _ from hdtls₂]
  cases left₁.use_psk || offered env left₁.user_agent_type l <;>
    cases left₂.use_psk || offered env left₂.user_agent_type l <;> simp

theorem overwritten_iff {s₁ s₂ : ReqSt}
    (h₁ : s₁.hdr.seen = l.foldl (Seen.handle env) left₁.seen)
    (h₂ : s₂.hdr.seen = l.foldl (Seen.handle env) left₂.seen)
    (hpsk₁ : s₁.hdr.PskAlone) (hpsk₂ : s₂.hdr.PskAlone) :
    s₁.yield = s₂.yield ↔ Overwritten env l left₁ left₂ := by
  -- each field is followed alone, the two of DTLS together
  have hfield : ∀ {β : Type} (out : Seen → β) (set : Header → Option β),
      Sets (Seen.handle env) out set → (out s₁.hdr.seen = out s₂.hdr.seen ↔
        out left₁.seen = out left₂.seen ∨ ∃ x ∈ l, (set x).isSome) := by
    intro β out set hsets
    rw [h₁, h₂]
    exact hsets.foldl_eq_iff l _ _
  have hauth := hfield _ _ (sets_authorization env)
  have hno4 := hfield _ _ (sets_no_ipv4 env)
  have hno6 := hfield _ _ (sets_no_ipv6 env)
  have hlink := hfield _ _ (sets_link_mtu env)
  have htunnel := hfield _ _ (sets_tunnel_mtu env)
  have hdtls := (HeaderSt.dtls_eq_iff hpsk₁ hpsk₂).symm.trans (dtls_overwritten_iff h₁ h₂)
  simp only [isSome_map, isSome_ite] at hauth hno4 hno6 hlink htunnel
  rw [Yield.ext_iff]
  constructor
  · rintro ⟨auth, no4, no6, psk, suite, link, tunnel⟩
    obtain ⟨hpsk, hsuite⟩ := hdtls.1 ⟨psk, suite⟩
    exact ⟨hauth.1 auth, hno4.1 no4, hno6.1 no6, hlink.1 link, htunnel.1 tunnel, hpsk, hsuite⟩
  · intro h
    obtain ⟨psk, suite⟩ := hdtls.2 ⟨h.psk, h.ciphersuite⟩
    exact ⟨hauth.2 h.authorization, hno4.2 h.no_ipv4, hno6.2 h.no_ipv6, psk, suite,
      hlink.2 h.link_mtu, htunnel.2 h.tunnel_mtu⟩

end Overwritten

section Isolation

variable [Platform]

/-- Whether a request is accepted does not depend on the history of the connection. -/
theorem ReqSt.receive_isSome_eq (env : HeaderEnv) (s₁ s₂ : ReqSt) (d : Delivery) :
    (s₁.receive env d).isSome = (s₂.receive env d).isSome := by
  rw [receive_eq, receive_eq]
  split_ifs
  · rw [isSome_map, isSome_map, Bool.eq_iff_iff, run_tail_isSome, run_tail_isSome]
  · rfl

/-- Two histories of a connection, whatever authentication state they have left: a further
request is accepted after both or after none of them, and what it yields is the same exactly
if what the histories have left is the same or overwritten. -/
theorem request_isolated_iff {ws : WorkerSt} {auth : AuthSel} {past₁ past₂ : List Turn}
    {s₁ s₂ : ReqSt} (h₁ : (ReqSt.connected ws auth).after past₁ = some s₁)
    (h₂ : (ReqSt.connected ws auth).after past₂ = some s₂) (env : HeaderEnv) :
    (∀ d, (s₁.receive env d).isSome = (s₂.receive env d).isSome) ∧
    ∀ d₁ d₂ s₁' s₂', d₁.whole = d₂.whole →
      s₁.receive env d₁ = some s₁' → s₂.receive env d₂ = some s₂' →
      (s₁'.yield = s₂'.yield ↔ Overwritten env d₁.handled s₁.hdr s₂.hdr) := by
  have hinit : (ReqSt.connected ws auth).hdr.PskAlone := fun h => nomatch h
  refine ⟨ReqSt.receive_isSome_eq env s₁ s₂, fun d₁ d₂ s₁' s₂' hbytes hr₁ hr₂ => ?_⟩
  have hhandled : d₂.handled = d₁.handled := by
    rw [← d₂.handled_whole, ← hbytes, d₁.handled_whole]
  apply overwritten_iff
  · exact ReqSt.receive_seen hr₁
  · rw [← hhandled]
    exact ReqSt.receive_seen hr₂
  · exact ReqSt.receive_pskAlone (ReqSt.after_pskAlone hinit h₁) hr₁
  · exact ReqSt.receive_pskAlone (ReqSt.after_pskAlone hinit h₂) hr₂

end Isolation

/-! ### A request after another one -/

section Demo

local instance isolationPlatform : Platform := Platform.simple

namespace KeepAlive

open SplitDemo

def request (headers : List (String × String)) : Delivery where
  url := .one "/".toList
  headers := headers.map fun h => ⟨.one h.1.toList, .one h.2.toList⟩
  body := []
  trailers := []

/-- A request that is answered without a change of the authentication. -/
def turn (headers : List (String × String)) : Turn where
  env := settings
  request := request headers
  handler st := (st.hdr.ws, st.hdr.auth)

def start : ReqSt := .connected between_requests.hdr.ws between_requests.hdr.auth

/-- After a request that asks for an MTU. -/
def sized : ReqSt := (start.after [turn [("X-CSTP-Base-MTU", "1300")]]).get (by decide +kernel)

/-- A further request that asks for another one. -/
def further : Delivery := request [("X-CSTP-Base-MTU", "1400")]

def sized_further : ReqSt := (sized.receive settings further).get (by decide +kernel)

def start_further : ReqSt := (start.receive settings further).get (by decide +kernel)

end KeepAlive

open KeepAlive SplitDemo

/-- A request that has the header of the one before overwrites what that has left. -/
theorem request_isolated_iff_further :
    sized.yield ≠ start.yield ∧ sized_further.yield = start_further.yield := by
  have hleft : sized.yield = { start.yield with link_mtu := 1300 } ∧
      sized.hdr.user_agent_type = .unknown := by
    decide +kernel
  obtain ⟨hyield, hagent⟩ := hleft
  have hsized : start.after [turn _] = some sized := (some_get _).symm
  constructor
  · rw [hyield]
    decide
  · refine ((request_isolated_iff hsized (rfl : start.after [] = _) settings).2 further further _ _
      rfl (some_get _).symm (some_get _).symm).2 ?_
    constructor
    · exact .inl (congrArg Yield.authorization hyield)
    · exact .inl (congrArg Yield.no_ipv4 hyield)
    · exact .inl (congrArg Yield.no_ipv6 hyield)
    · exact .inr (by decide +kernel)
    · exact .inl (congrArg Yield.tunnel_mtu hyield)
    · rw [show sized.hdr.use_psk = _ from congrArg Yield.use_psk hyield, hagent]
      rfl
    · rw [show sized.hdr.selected_ciphersuite = _ from congrArg Yield.selected_ciphersuite hyield,
        hagent]
      exact fun _ => rfl

/-- Two histories that leave the same authentication, and a further request without headers:
after the one it yields the credential of the request before, after the other one none. -/
theorem earlier_headers_left :
    (start.after [turn [("Authorization", "Basic YTpi")]]).map (fun s => (s.hdr.ws, s.hdr.auth)) =
      (start.after [turn []]).map (fun s => (s.hdr.ws, s.hdr.auth)) ∧
    ((start.after [turn [("Authorization", "Basic YTpi")]]).bind
        (·.receive settings (request []))).map ReqSt.yield =
      some { start.yield with authorization := some "Basic YTpi".toList } ∧
    ((start.after [turn []]).bind (·.receive settings (request []))).map ReqSt.yield =
      some start.yield := by
  decide +kernel

end Demo

end Ocserv

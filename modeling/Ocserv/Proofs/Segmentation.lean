import Ocserv.Worker.Callbacks

/-!
# Requests that arrive in pieces

The callbacks for the headers and the body accumulate what they are given, so it does not
matter how the parser cuts a header or the body (`ReqSt.run_tail_whole`).  The callback
for the URL overwrites: of a URL that is cut, the last fragment is left, and the size is
checked for each fragment alone.  A cookie is decoded into the buffer while the parser still
reads from it, which makes a difference only after a further read
(`undamaged_of_in_order`).  `http_segmentation_iff` says for which of the other arrivals the
outcome is that of the request in one read.

A request that is delivered in one piece is the `Request` of the loop in
`Ocserv.Worker.Http` (`ReqSt.receive_whole_ws`).
-/

namespace Ocserv

open List Option

namespace ReqSt

/-! ## Accumulating and overwriting callbacks -/

section Append

variable {st st' : ReqSt} {data : CStr} {store : ReqSt → CStr → ReqSt}

theorem append_header_eq :
    st.append_header data store =
      if st.header_bytes + data.length ≤ MAX_HTTP_HEADERS_SIZE then
        some (store { st with header_bytes := st.header_bytes + data.length } data)
      else none := by
  unfold append_header
  by_cases h : st.header_bytes + data.length ≤ MAX_HTTP_HEADERS_SIZE
  · rw [if_pos h, if_neg (by omega)]
  · rw [if_neg h, if_pos (by omega)]

/-- What the two header callbacks store grows by the data, and nothing else is changed. -/
theorem append_header_accumulates
    (hbytes : ∀ st data, (store st data).header_bytes = st.header_bytes)
    (hstore : ∀ st l l' n, store { store st l with header_bytes := n } l' =
      store { st with header_bytes := n } (l ++ l')) :
    Accumulates fun st data => append_header st data store := by
  intro st l l'
  simp only [append_header_eq]
  by_cases hl : st.header_bytes + l.length ≤ MAX_HTTP_HEADERS_SIZE
  · rw [if_pos hl, bind_some, hbytes, hstore, length_append, Nat.add_assoc]
  · have hll : ¬ st.header_bytes + (l ++ l').length ≤ MAX_HTTP_HEADERS_SIZE := by
      rw [length_append]
      omega
    rw [if_neg hl, if_neg hll, bind_none]

theorem append_header_eq_some :
    st.append_header data store = some st' ↔
      st.header_bytes + data.length ≤ MAX_HTTP_HEADERS_SIZE ∧
        store { st with header_bytes := st.header_bytes + data.length } data = st' := by
  rw [append_header_eq]
  split <;> simp [*]

end Append

section Headers

variable [Platform] (env : HeaderEnv)

theorem begin_field_state (st : ReqSt) : (st.begin_field env).header_state = .recv := by
  unfold begin_field
  split
  · assumption
  · rfl
  · rfl

variable {env} in
theorem begin_field_of_recv {st : ReqSt} (h : st.header_state = .recv) :
    st.begin_field env = st := by
  unfold begin_field
  rw [h]

theorem field_accumulates : Accumulates fun st data => http_header_field_cb env st data := by
  apply Accumulates.of_prepared (f := fun st data => append_header st data _) (g := begin_field env)
  · exact append_header_accumulates (fun _ _ => rfl) fun _ _ _ _ => by simp
  · intro st data st' hcall
    obtain ⟨-, rfl⟩ := append_header_eq_some.1 hcall
    exact begin_field_of_recv (begin_field_state env st)

end Headers

theorem begin_value_state (st : ReqSt) : st.begin_value.header_state = .value_recv := by
  unfold begin_value
  split
  · assumption
  · rfl

theorem value_accumulates : Accumulates http_header_value_cb := by
  apply Accumulates.of_prepared (f := fun st data => append_header st data _) (g := begin_value)
  · exact append_header_accumulates (fun _ _ => rfl) fun _ _ _ _ => by simp
  · intro st data st' hcall
    obtain ⟨-, rfl⟩ := append_header_eq_some.1 hcall
    exact if_pos (begin_value_state st)

theorem http_body_cb_eq {st : ReqSt} {data : List UInt8} :
    st.http_body_cb data =
      if st.body.length + data.length ≤ MAX_HTTP_REQUEST_BODY then
        some { st with body := st.body.append data }
      else none := by
  unfold http_body_cb
  by_cases h : st.body.length + data.length ≤ MAX_HTTP_REQUEST_BODY
  · rw [if_pos h, if_neg (by omega)]
  · rw [if_neg h, if_pos (by omega)]

theorem body_accumulates : Accumulates http_body_cb := by
  intro st l l'
  simp only [http_body_cb_eq]
  by_cases hl : st.body.length + l.length ≤ MAX_HTTP_REQUEST_BODY
  · rw [if_pos hl, bind_some, ReqBody.append_append, length_append, ← Nat.add_assoc]
    rfl
  · have hll : ¬ st.body.length + (l ++ l').length ≤ MAX_HTTP_REQUEST_BODY := by
      rw [length_append]
      omega
    rw [if_neg hl, if_neg hll, bind_none]

theorem url_overwrites :
    Overwrites http_url_cb (fun data => data.length < MAX_URL_SIZE) setUrl where
  call st data := by
    unfold http_url_cb
    by_cases h : data.length < MAX_URL_SIZE
    · rw [if_neg (by omega), if_pos h]
    · rw [if_pos (by omega), if_neg h]
  store_store _ _ _ := rfl

/-! ## The elements of a request -/

section Run

variable [Platform] (env : HeaderEnv)

variable (st : ReqSt) (cb : Callback)

theorem run_append (cbs cbs' : List Callback) :
    st.run env (cbs ++ cbs') = (st.run env cbs).bind (·.run env cbs') :=
  List.foldlM_append

theorem run_cons (cbs : List Callback) :
    st.run env (cb :: cbs) = (cb.call env st).bind (·.run env cbs) := rfl

theorem run_singleton : st.run env [cb] = cb.call env st :=
  bind_fun_some _

variable {env} in
theorem run_append_congr {cbs₁ cbs₁' cbs₂ cbs₂' : List Callback}
    (h₁ : ∀ st, run env st cbs₁ = run env st cbs₁') (h₂ : ∀ st, run env st cbs₂ = run env st cbs₂')
    (st : ReqSt) : st.run env (cbs₁ ++ cbs₂) = st.run env (cbs₁' ++ cbs₂') := by
  rw [run_append, run_append, h₁]
  exact congrArg _ (funext h₂)

theorem run_field_whole (h : Field) (st : ReqSt) :
    st.run env h.callbacks = st.run env h.whole.callbacks := by
  have hname : ∀ st, run env st (h.name.parts.map .header_field) =
      run env st [.header_field h.name.whole] := by
    intro st
    rw [run_singleton, run, foldlM_map]
    exact (field_accumulates env).foldlM_parts h.name st
  have hvalue : ∀ st, run env st (h.value.parts.map .header_value) =
      run env st [.header_value h.value.whole] := by
    intro st
    rw [run_singleton, run, foldlM_map]
    exact value_accumulates.foldlM_parts h.value st
  exact run_append_congr hname hvalue st

theorem run_chunk_whole (chunk : Fragments UInt8) (st : ReqSt) :
    st.run env (chunk.parts.map .body) = st.run env [.body chunk.whole] := by
  rw [run_singleton, run, foldlM_map]
  exact body_accumulates.foldlM_parts chunk st

/-- It does not matter how the headers and the body are cut. -/
theorem run_tail_whole (d : Delivery) (st : ReqSt) :
    st.run env d.tail = st.run env d.whole.tail := by
  have hfields : ∀ (l : List Field) st, run env st (l.flatMap Field.callbacks) =
      run env st ((l.map Field.whole).flatMap Field.callbacks) := by
    intro l st
    rw [flatMap_map]
    exact Fragments.foldlM_flatMap_congr (fun h st => run_field_whole env h st) l st
  have hbody : ∀ st, run env st (d.body.flatMap fun chunk => chunk.parts.map .body) =
      run env st ((d.body.map fun chunk => Fragments.one chunk.whole).flatMap
        fun chunk => chunk.parts.map .body) := by
    intro st
    rw [flatMap_map]
    exact Fragments.foldlM_flatMap_congr (fun chunk st => run_chunk_whole env chunk st) d.body st
  have htrailers : ∀ st, run env st (d.trailers.flatMap Field.callbacks ++ [.message_complete]) =
      run env st (d.whole.trailers.flatMap Field.callbacks ++ [.message_complete]) :=
    run_append_congr (hfields d.trailers) fun _ => rfl
  have hrest : ∀ st, run env st (.headers_complete :: _) = run env st (.headers_complete :: _) :=
    fun st => congrArg (Option.bind (st.http_header_complete_cb env))
      (funext (run_append_congr hbody htrailers))
  exact run_append_congr (hfields d.headers) hrest st

end Run

end ReqSt

section Segmentation

variable [Platform] (env : HeaderEnv)

/-! ## The URL does not matter for the rest -/

theorem WorkerSt.process_tokens_setUrl (ws : WorkerSt) (url : CStr) (tokens : List CStr) :
    (ws.setUrl url).process_tokens tokens = (ws.process_tokens tokens).setUrl url := by
  induction tokens generalizing ws with
  | nil => rfl
  | cons token tokens ih =>
    simp only [process_tokens]
    split
    · split
      · split
        · exact ih { ws with cookie_set := false }
        · exact ih { ws with cookie := _, auth_state := .cookie, cookie_set := true }
      · rfl
    · split
      · split
        · split
          · exact ih { ws with sid_set := false }
          · exact ih { ws with sid := _, sid_set := true }
        · rfl
      · exact ih ws

theorem WorkerSt.header_value_check_setUrl (ws : WorkerSt) (url : CStr) (x : HeaderId × CStr) :
    (ws.setUrl url).header_value_check x = (ws.header_value_check x).setUrl url := by
  obtain ⟨id, value⟩ := x
  cases id with
  | cookie =>
    show (if AuthState.cookie.code < ws.auth_state.code then ws.setUrl url
      else (ws.setUrl url).process_tokens (cookie_tokens value)) =
      (if AuthState.cookie.code < ws.auth_state.code then ws
        else ws.process_tokens (cookie_tokens value)).setUrl url
    rw [process_tokens_setUrl, apply_ite (setUrl · url)]
  | other => rfl

namespace HeaderSt

omit [Platform] in
theorem setUrl_ite (p : Prop) [Decidable p] (hdr hdr' : HeaderSt) (url : CStr) :
    (if p then hdr else hdr').setUrl url = if p then hdr.setUrl url else hdr'.setUrl url :=
  apply_ite (setUrl · url) p hdr hdr'

/-- No header looks at the URL, or changes it. -/
theorem header_value_check_setUrl (hdr : HeaderSt) (url : CStr) (next_header : Option HttpHeader)
    (value : CStr) :
    (hdr.setUrl url).header_value_check env next_header value =
      (hdr.header_value_check env next_header value).setUrl url := by
  unfold header_value_check
  rw [setUrl_ite]
  congr 1
  cases next_header with
  | none => rfl
  | some header =>
    cases header with
    | cookie => exact congrArg ({ hdr with ws := · }) (hdr.ws.header_value_check_setUrl url _)
    | dtls12_ciphersuite =>
      unfold set_dtls12_ciphersuite
      cases env.negotiate ciphersuites12 value <;> simp only [setUrl_ite] <;> rfl
    | _ =>
      simp only [set_master_secret, set_hostname, set_full_hostname, set_strap_dh_pubkey,
        set_device_type, set_platform, set_spnego, set_user_agent, set_dtls_ciphersuite,
        set_address_types, setUrl_ite] <;>
      rfl

end HeaderSt

/-- The callback for the URL, and the one that starts a request, are not called again. -/
def Callback.inTail : Callback → Bool
  | .message_begin => false
  | .url _ => false
  | _ => true

namespace ReqSt

variable (st : ReqSt) (url : CStr)

theorem header_value_check_setUrl :
    (st.setUrl url).header_value_check env = (st.header_value_check env).setUrl url :=
  congrArg ({ st with hdr := · }) (st.hdr.header_value_check_setUrl env url _ _)

theorem begin_field_setUrl :
    (st.setUrl url).begin_field env = (st.begin_field env).setUrl url := by
  have hstate : (st.setUrl url).header_state = st.header_state := rfl
  unfold begin_field
  rw [hstate]
  cases st.header_state with
  | init => rfl
  | recv => rfl
  | value_recv =>
    exact congrArg (fun st : ReqSt => { st with header_state := .recv, header := [] })
      (st.header_value_check_setUrl env url)

omit [Platform] in
theorem append_header_setUrl {store : ReqSt → CStr → ReqSt}
    (hstore : ∀ st data url, store (setUrl st url) data = (store st data).setUrl url)
    (st : ReqSt) (data url : CStr) :
    (st.setUrl url).append_header data store =
      (st.append_header data store).map (·.setUrl url) := by
  rw [append_header_eq, append_header_eq, apply_ite (Option.map _), map_some, ← hstore]
  rfl

omit [Platform] in
theorem gssapi_fallback_setUrl (hdr : HeaderSt) (url : CStr) :
    gssapi_fallback (hdr.setUrl url) = (gssapi_fallback hdr).setUrl url := by
  unfold gssapi_fallback
  rw [HeaderSt.setUrl_ite]
  rfl

omit [Platform] in
theorem begin_value_setUrl :
    (st.setUrl url).begin_value = st.begin_value.setUrl url := by
  unfold begin_value
  rw [apply_ite (setUrl · url)]
  rfl

variable {env} in
/-- After the URL the callbacks neither look at it nor change it. -/
theorem call_setUrl {cb : Callback} (hcb : cb.inTail) (st : ReqSt) (url : CStr) :
    cb.call env (st.setUrl url) = (cb.call env st).map (·.setUrl url) := by
  cases cb with
  | message_begin => cases hcb
  | url => cases hcb
  | header_field data =>
    simp only [Callback.call, http_header_field_cb, begin_field_setUrl]
    exact append_header_setUrl (fun _ _ _ => rfl) _ _ _
  | header_value data =>
    simp only [Callback.call, http_header_value_cb, begin_value_setUrl]
    exact append_header_setUrl (fun _ _ _ => rfl) _ _ _
  | headers_complete =>
    simp only [Callback.call, http_header_complete_cb, header_value_check_setUrl]
    exact congrArg
      (fun hdr => some { st.header_value_check env with hdr, headers_complete := true })
      (gssapi_fallback_setUrl _ _)
  | body data =>
    show http_body_cb (st.setUrl url) data = (http_body_cb st data).map _
    rw [http_body_cb_eq, http_body_cb_eq, apply_ite (Option.map _)]
    rfl
  | message_complete => rfl

end ReqSt

/-! ## The sizes -/

/-- What a call adds to the size of the headers. -/
def Callback.header_size : Callback → Nat
  | .header_field data => data.length
  | .header_value data => data.length
  | _ => 0

/-- What a call adds to the size of the body. -/
def Callback.body_size : Callback → Nat
  | .body data => data.length
  | _ => 0

namespace ReqSt

/-- The limits are kept. -/
def Within (st : ReqSt) : Prop :=
  st.header_bytes ≤ MAX_HTTP_HEADERS_SIZE ∧ st.body.length ≤ MAX_HTTP_REQUEST_BODY

variable (st : ReqSt) {data : CStr} {cb : Callback} {cbs : List Callback}

theorem begin_field_bytes :
    (st.begin_field env).header_bytes = st.header_bytes ∧
      (st.begin_field env).body = st.body ∧ (st.begin_field env).value = st.value := by
  unfold begin_field
  split <;> exact ⟨rfl, rfl, rfl⟩

omit [Platform] in
theorem begin_value_bytes :
    st.begin_value.header_bytes = st.header_bytes ∧ st.begin_value.body = st.body ∧
      st.begin_value.value.length ≤ st.value.length := by
  unfold begin_value
  split
  · exact ⟨rfl, rfl, le_rfl⟩
  · exact ⟨rfl, rfl, Nat.zero_le _⟩

variable {env} {st st' : ReqSt}

theorem http_header_field_cb_eq :
    st.http_header_field_cb env data =
      if st.header_bytes + data.length ≤ MAX_HTTP_HEADERS_SIZE then
        some { st.begin_field env with
          header_bytes := st.header_bytes + data.length
          header := (st.begin_field env).header ++ data }
      else none := by
  rw [http_header_field_cb, append_header_eq, (begin_field_bytes env st).1]

omit [Platform] in
theorem http_header_value_cb_eq :
    st.http_header_value_cb data =
      if st.header_bytes + data.length ≤ MAX_HTTP_HEADERS_SIZE then
        some { st.begin_value with
          header_bytes := st.header_bytes + data.length
          value := st.begin_value.value ++ data }
      else none := by
  rw [http_header_value_cb, append_header_eq, (begin_value_bytes st).1]

/-- A call that is not refused adds its data to the sizes, and keeps the limits. -/
theorem call_sizes (h : cb.call env st = some st') :
    st'.header_bytes = st.header_bytes + cb.header_size ∧
      st'.body.length = st.body.length + cb.body_size ∧
      st'.value.length ≤ st.value.length + cb.header_size ∧ (st.Within → st'.Within) := by
  cases cb with
  | message_begin =>
    simp only [Callback.call, http_message_begin_cb, ite_none_left_eq_some,
      some.injEq] at h
    obtain ⟨-, rfl⟩ := h
    exact ⟨rfl, rfl, le_rfl, id⟩
  | url data =>
    simp only [Callback.call, http_url_cb, ite_none_left_eq_some,
      some.injEq] at h
    obtain ⟨-, rfl⟩ := h
    exact ⟨rfl, rfl, le_rfl, id⟩
  | header_field data =>
    simp only [Callback.call, http_header_field_cb_eq, ite_none_right_eq_some,
      some.injEq] at h
    obtain ⟨hle, rfl⟩ := h
    have hbody : (st.begin_field env).body.length = st.body.length :=
      congrArg ReqBody.length (begin_field_bytes env st).2.1
    have hvalue : (st.begin_field env).value.length ≤ st.value.length + data.length := by
      rw [(begin_field_bytes env st).2.2]
      exact Nat.le_add_right _ _
    exact ⟨rfl, hbody, hvalue, fun hst => ⟨hle, hbody.trans_le hst.2⟩⟩
  | header_value data =>
    simp only [Callback.call, http_header_value_cb_eq, ite_none_right_eq_some,
      some.injEq] at h
    obtain ⟨hle, rfl⟩ := h
    have hbody : st.begin_value.body.length = st.body.length :=
      congrArg ReqBody.length (begin_value_bytes st).2.1
    have hvalue : (st.begin_value.value ++ data).length ≤ st.value.length + data.length := by
      rw [length_append]
      exact Nat.add_le_add_right (begin_value_bytes st).2.2 _
    exact ⟨rfl, hbody, hvalue, fun hst => ⟨hle, hbody.trans_le hst.2⟩⟩
  | headers_complete =>
    rw [← some.inj h]
    exact ⟨rfl, rfl, le_rfl, id⟩
  | body data =>
    simp only [Callback.call, http_body_cb_eq, ite_none_right_eq_some,
      some.injEq] at h
    obtain ⟨hle, rfl⟩ := h
    exact ⟨rfl, rfl, le_rfl, fun hst => ⟨hst.1, hle⟩⟩
  | message_complete =>
    rw [← some.inj h]
    exact ⟨rfl, rfl, le_rfl, id⟩

/-- After the URL a call is refused only for the sizes. -/
theorem call_isSome (hcb : cb.inTail) (hst : st.Within) :
    (cb.call env st).isSome ↔
      st.header_bytes + cb.header_size ≤ MAX_HTTP_HEADERS_SIZE ∧
        st.body.length + cb.body_size ≤ MAX_HTTP_REQUEST_BODY := by
  cases cb with
  | message_begin => cases hcb
  | url => cases hcb
  | header_field data =>
    rw [Callback.call, http_header_field_cb_eq, isSome_ite]
    exact (and_iff_left hst.2).symm
  | header_value data =>
    rw [Callback.call, http_header_value_cb_eq, isSome_ite]
    exact (and_iff_left hst.2).symm
  | headers_complete => exact iff_of_true rfl hst
  | body data =>
    rw [Callback.call, http_body_cb_eq, isSome_ite]
    exact (and_iff_right hst.1).symm
  | message_complete => exact iff_of_true rfl hst

/-- After the URL a request is rejected only for the sizes. -/
theorem run_isSome (hcbs : ∀ cb ∈ cbs, cb.inTail) (hst : st.Within) :
    (st.run env cbs).isSome ↔
      st.header_bytes + (cbs.map Callback.header_size).sum ≤ MAX_HTTP_HEADERS_SIZE ∧
        st.body.length + (cbs.map Callback.body_size).sum ≤ MAX_HTTP_REQUEST_BODY := by
  induction cbs generalizing st with
  | nil => exact iff_of_true rfl hst
  | cons cb cbs ih =>
    obtain ⟨hcb, hcbs⟩ := forall_mem_cons.1 hcbs
    have hsome : (cb.call env st).isSome ↔ _ := call_isSome hcb hst
    rw [run_cons, map_cons, map_cons, sum_cons, sum_cons]
    cases hcall : cb.call env st with
    | none =>
      rw [hcall] at hsome
      have hlarge := mt hsome.2 Bool.false_ne_true
      refine iff_of_false Bool.false_ne_true ?_
      omega
    | some mid =>
      obtain ⟨hheader, hbody, -, hwithin⟩ := call_sizes hcall
      rw [bind_some, ih hcbs (hwithin hst), hheader, hbody, Nat.add_assoc, Nat.add_assoc]

end ReqSt

section Sizes

omit [Platform]

theorem sum_flatMap {ι : Type*} (size : Callback → Nat) (F : ι → List Callback) (l : List ι) :
    ((l.flatMap F).map size).sum = (l.map fun x => ((F x).map size).sum).sum := by
  induction l with
  | nil => rfl
  | cons x l ih => rw [List.flatMap_cons, map_append, sum_append_nat, ih]; rfl

namespace Field

theorem header_size_callbacks (h : Field) :
    (h.callbacks.map Callback.header_size).sum = h.size := by
  simp [callbacks, size, Fragments.whole, Function.comp_def, Callback.header_size]

theorem body_size_callbacks (h : Field) : (h.callbacks.map Callback.body_size).sum = 0 := by
  simp [callbacks, Function.comp_def, Callback.body_size]

theorem inTail_callbacks (h : Field) : ∀ cb ∈ h.callbacks, cb.inTail := by
  simp [callbacks, Callback.inTail, or_imp, forall_and]

end Field

namespace Delivery

theorem header_size_tail (d : Delivery) :
    (d.tail.map Callback.header_size).sum = d.header_size := by
  simp [tail, header_size, sum_flatMap, Field.header_size_callbacks, Callback.header_size,
    Function.comp_def]

theorem body_size_tail (d : Delivery) : (d.tail.map Callback.body_size).sum = d.body_size := by
  simp [tail, body_size, sum_flatMap, Field.body_size_callbacks, Callback.body_size,
    Function.comp_def, Fragments.whole]

theorem inTail_tail (d : Delivery) : ∀ cb ∈ d.tail, cb.inTail := by
  intro cb hcb
  simp only [tail, mem_append, mem_cons, mem_flatMap, List.mem_map] at hcb
  rcases hcb with ⟨h, -, hcb⟩ | rfl | ⟨chunk, -, data, -, rfl⟩ | ⟨h, -, hcb⟩ | rfl | hcb
  · exact h.inTail_callbacks cb hcb
  · rfl
  · rfl
  · exact h.inTail_callbacks cb hcb
  · rfl
  · cases hcb

end Delivery

end Sizes

/-! ## The buffer -/

section Overwriting

variable {env} {st st' : ReqSt} {top : List UInt8} {cb : Callback}

end Overwriting

/-- The bytes that a call reads. -/
def Callback.length : Callback → Nat
  | .url data | .header_field data | .header_value data => List.length data
  | .body data => List.length data
  | _ => 0

namespace ReqSt

variable {env} {st : ReqSt} {d : Delivery}

theorem run_tail_setUrl (url : CStr) :
    (st.setUrl url).run env d.tail = (st.run env d.tail).map (·.setUrl url) :=
  Fragments.foldlM_map (fun cb hcb st => call_setUrl (d.inTail_tail cb hcb) st url) st

/-- A delivery is accepted if each fragment of the URL fits and the rest is accepted, and
leaves the last fragment of the URL. -/
theorem receive_eq :
    st.receive env d =
      if ∀ data ∈ d.url.parts, data.length < MAX_URL_SIZE then
        (st.http_req_reset.run env d.tail).map (·.setUrl d.url.last)
      else none := by
  have hurl : st.http_req_reset.run env (d.url.parts.map .url) =
      if ∀ data ∈ d.url.parts, data.length < MAX_URL_SIZE then
        some (st.http_req_reset.setUrl d.url.last)
      else none := by
    rw [run, foldlM_map]
    exact url_overwrites.foldlM_parts d.url st.http_req_reset
  show st.http_req_reset.run env (d.url.parts.map .url ++ d.tail) = _
  rw [run_append, hurl]
  split
  · exact run_tail_setUrl d.url.last
  · rfl

/-- After the URL a request is rejected only for its sizes. -/
theorem run_tail_isSome :
    (st.http_req_reset.run env d.tail).isSome ↔
      d.header_size ≤ MAX_HTTP_HEADERS_SIZE ∧ d.body_size ≤ MAX_HTTP_REQUEST_BODY := by
  rw [run_isSome d.inTail_tail ⟨Nat.zero_le _, Nat.zero_le _⟩, d.header_size_tail,
    d.body_size_tail]
  show 0 + _ ≤ _ ∧ 0 + _ ≤ _ ↔ _
  rw [Nat.zero_add, Nat.zero_add]

end ReqSt

end Segmentation

/-! ### A request in two pieces -/

section Demo

local instance segmentationPlatform : Platform := Platform.simple

namespace SplitDemo

def settings : HeaderEnv where
  dtls_psk := true
  dtls_legacy := true
  enable_compression := true
  comp_methods := comp_methods
  cert_auth_ok := false
  want_cipher := some .aes_256_gcm
  want_mac := .aead
  gnutls_check_version_numeric _ _ _ := true
  gnutls_hex2bin _ buf := buf

def between_requests : ReqSt where
  hdr :=
    { ws :=
        { config := { camouflage := false, camouflage_secret := none, camouflage_realm := none } }
      auth := ⟨[⟨true, AUTH_TYPE_PLAIN, none⟩], 0⟩ }
  body := .empty

def device_type : CStr := "X-AnyConnect-Identifier-DeviceType".toList

/-- A login request with a cookie. -/
def login (url : Fragments Char) (name : Fragments Char := .one device_type) : Delivery where
  url
  headers :=
    [⟨.one "Cookie".toList, .one ("webvpn=".toList ++ replicate 43 'A' ++ ['='])⟩,
      ⟨name, .one "box".toList⟩,
      ⟨.one "Content-Length".toList, .one "2".toList⟩]
  body := [.one [60, 62]]
  trailers := []

end SplitDemo

open SplitDemo

end Demo

/-! ## The request of the loop -/

section Loop

variable [Platform] (env : HeaderEnv)

/-- How the loop sees a header. -/
def HttpHeader.toId : Option HttpHeader → HeaderId
  | some .cookie => .cookie
  | _ => .other

def Field.toHeader (h : Field) : HeaderId × CStr :=
  (HttpHeader.toId (in_word_set h.name.whole), h.value.whole)

/-- A header is handled. -/
def Field.handle (hdr : HeaderSt) (h : Field) : HeaderSt :=
  hdr.header_value_check env (in_word_set h.name.whole) h.value.whole

/-- The headers that are handled after the headers are complete.  If some follow the body,
then the last one before the body is handled again, and the last one of all is not. -/
def Delivery.late (d : Delivery) : List Field :=
  if d.trailers = [] then [] else d.headers.getLast?.toList ++ d.trailers.dropLast

/-- Only the cookies change what the loop looks at. -/
theorem HeaderSt.header_value_check_ws (hdr : HeaderSt) (next_header : Option HttpHeader)
    (value : CStr) :
    (hdr.header_value_check env next_header value).ws =
      hdr.ws.header_value_check (HttpHeader.toId next_header, value) := by
  by_cases hvalue : value = []
  · subst hvalue
    have hnone : hdr.ws.header_value_check (.cookie, []) = hdr.ws := ite_self _
    cases next_header with
    | none => rfl
    | some header =>
      cases header with
      | cookie => exact hnone.symm
      | _ => rfl
  · unfold header_value_check
    rw [if_neg hvalue]
    cases next_header with
    | none => rfl
    | some header =>
      cases header with
      | cookie => rfl
      | dtls12_ciphersuite =>
        unfold set_dtls12_ciphersuite
        cases env.negotiate ciphersuites12 value <;>
          (simp only [apply_ite HeaderSt.ws, set_psk, ite_self]; rfl)
      | _ =>
        simp only [set_master_secret, set_hostname, set_full_hostname, set_strap_dh_pubkey,
          set_device_type, set_platform, set_spnego, set_user_agent, set_dtls_ciphersuite,
          set_psk, set_address_types, apply_ite HeaderSt.ws, ite_self]
        rfl

namespace ReqSt

/-- What the headers have set once the value that has been received is handled. -/
def settledHdr (st : ReqSt) : HeaderSt := (st.header_value_check env).hdr

/-- Between two headers: the value of the last one, if there is one, is not handled yet. -/
def Between (st : ReqSt) : Prop :=
  st.header_state = .value_recv ∨ st.header_state = .init ∧ st.value = []

variable {env} {st st' : ReqSt}

variable (env) in
theorem Between.begin_field (h : st.Between) :
    (st.begin_field env).hdr = st.settledHdr env ∧ (st.begin_field env).header = [] := by
  rcases h with hstate | ⟨hstate, hvalue⟩
  · unfold ReqSt.begin_field
    rw [hstate]
    exact ⟨rfl, rfl⟩
  · unfold ReqSt.begin_field settledHdr header_value_check HeaderSt.header_value_check
    rw [hstate, hvalue]
    exact ⟨rfl, rfl⟩

theorem Between.name {data : CStr} (hst : st.Between)
    (hcall : st.http_header_field_cb env data = some st') :
    st'.header_state = .recv ∧ st'.header = data ∧ st'.hdr = st.settledHdr env := by
  obtain ⟨hhdr, hheader⟩ := hst.begin_field env
  simp only [http_header_field_cb_eq, ite_none_right_eq_some, some.injEq] at hcall
  obtain ⟨-, rfl⟩ := hcall
  refine ⟨begin_field_state env st, ?_, hhdr⟩
  show (st.begin_field env).header ++ data = data
  rw [hheader, nil_append]

omit [Platform] in
theorem value_after_name {data : CStr} (hst : st.header_state = .recv)
    (hcall : st.http_header_value_cb data = some st') :
    st'.header_state = .value_recv ∧ st'.next_header = in_word_set st.header ∧ st'.value = data ∧
      st'.hdr = st.hdr := by
  have hbegin :
      st.begin_value = { st.header_check with header_state := .value_recv, value := [] } :=
    if_neg (by rw [hst]; decide)
  simp only [http_header_value_cb_eq, ite_none_right_eq_some, some.injEq] at hcall
  obtain ⟨-, rfl⟩ := hcall
  rw [hbegin]
  exact ⟨rfl, rfl, rfl, rfl⟩

/-- A header in one piece is what is handled next. -/
theorem Between.field {h : Field} (hst : st.Between)
    (hrun : st.run env h.whole.callbacks = some st') :
    st'.header_state = .value_recv ∧ st'.next_header = in_word_set h.name.whole ∧
      st'.value = h.value.whole ∧ st'.hdr = st.settledHdr env := by
  have hcalls : h.whole.callbacks = [.header_field h.name.whole, .header_value h.value.whole] := rfl
  rw [hcalls, run_cons, bind_eq_some_iff] at hrun
  obtain ⟨mid, hname, hrun⟩ := hrun
  rw [run_singleton] at hrun
  obtain ⟨hrecv, hheader, hhdr⟩ := hst.name hname
  obtain ⟨hstate, hnext, hvalue, hhdr'⟩ := value_after_name hrecv hrun
  exact ⟨hstate, by rw [hnext, hheader], hvalue, hhdr'.trans hhdr⟩

/-- The headers are handled one after the other, the last one not yet: it is what the worker
handles next, as often as it does so. -/
theorem Between.fields {l : List Field} (hst : st.Between)
    (hrun : st.run env ((l.map Field.whole).flatMap Field.callbacks) = some st') :
    st'.Between ∧ st'.settledHdr env = l.foldl (Field.handle env) (st.settledHdr env) ∧
      ∀ hdr : HeaderSt, hdr.header_value_check env st'.next_header st'.value =
        l.getLast?.elim (hdr.header_value_check env st.next_header st.value)
          (Field.handle env hdr) := by
  induction l generalizing st with
  | nil =>
    rw [← some.inj hrun]
    exact ⟨hst, rfl, fun _ => rfl⟩
  | cons h l ih =>
    rw [map_cons, List.flatMap_cons, run_append, bind_eq_some_iff] at hrun
    obtain ⟨mid, hfield, hrun⟩ := hrun
    obtain ⟨hstate, hnext, hvalue, hhdr⟩ := hst.field hfield
    obtain ⟨hst', hfold, hagain⟩ := ih (.inl hstate) hrun
    have hmid : ∀ hdr : HeaderSt, hdr.header_value_check env mid.next_header mid.value =
        h.handle env hdr := by
      intro hdr
      rw [hnext, hvalue]
      rfl
    refine ⟨hst', ?_, fun hdr => ?_⟩
    · rw [hfold, foldl_cons, ← hhdr]
      exact congrArg (l.foldl (Field.handle env)) (hmid mid.hdr)
    · rw [hagain, hmid, List.getLast?_cons]
      cases l.getLast? <;> rfl

theorem foldl_handle_ws (l : List Field) (hdr : HeaderSt) :
    (l.foldl (Field.handle env) hdr).ws =
      (l.map Field.toHeader).foldl .header_value_check hdr.ws := by
  rw [foldl_map]
  refine (foldl_hom HeaderSt.ws fun hdr h => ?_).symm
  exact (HeaderSt.header_value_check_ws env hdr _ _).symm

variable {d : Delivery} {req : Request}

theorem run_body_kept
    (hrun : st.run env (d.body.flatMap fun chunk => chunk.parts.map .body) = some st') :
    (st'.hdr, st'.header_state, st'.next_header, st'.value) =
      (st.hdr, st.header_state, st.next_header, st.value) := by
  refine Fragments.foldlM_kept (fun s : ReqSt => (s.hdr, s.header_state, s.next_header, s.value))
    (fun cb hcb s s' hcall => ?_) hrun
  simp only [mem_flatMap, List.mem_map] at hcb
  obtain ⟨chunk, -, data, -, rfl⟩ := hcb
  simp only [Callback.call, http_body_cb_eq, ite_none_right_eq_some,
    some.injEq] at hcall
  obtain ⟨-, rfl⟩ := hcall
  rfl

/-- Of the headers behind the body all but the last one are handled. -/
theorem Between.trailers (hst : st.Between)
    (hrun : st.run env ((d.trailers.map Field.whole).flatMap Field.callbacks) = some st') :
    st'.hdr = if d.trailers = [] then st.hdr
      else d.trailers.dropLast.foldl (Field.handle env) (st.settledHdr env) := by
  cases htrailers : d.trailers using List.reverseRecOn with
  | nil =>
    rw [htrailers] at hrun
    rw [if_pos rfl, ← some.inj hrun]
  | append_singleton l h =>
    rw [htrailers, map_append, flatMap_append, run_append,
      bind_eq_some_iff] at hrun
    obtain ⟨mid, hmid, hlast⟩ := hrun
    obtain ⟨hbetween, hfold, -⟩ := hst.fields hmid
    obtain ⟨-, -, -, hhdr⟩ := hbetween.field (h := h) (by simpa using hlast)
    rw [if_neg (by simp), dropLast_concat, ← hfold, hhdr]

theorem receive_hdr (hreceive : st.receive env d = some st') :
    st'.hdr = d.late.foldl (Field.handle env) (gssapi_fallback
      (d.headers.foldl (Field.handle env) (st.http_req_reset.setUrl d.url.last).hdr)) := by
  have hrun : (st.http_req_reset.setUrl d.url.last).run env d.whole.tail = some st' := by
    rw [receive_eq, ite_none_right_eq_some] at hreceive
    rw [← run_tail_whole, run_tail_setUrl]
    exact hreceive.2
  have hbetween : (st.http_req_reset.setUrl d.url.last).Between := .inr ⟨rfl, rfl⟩
  rw [Delivery.tail, run_append, bind_eq_some_iff] at hrun
  obtain ⟨mid, hmid, hrest⟩ := hrun
  obtain ⟨hmid_between, hfold, hagain⟩ := hbetween.fields hmid
  rw [run_cons, bind_eq_some_iff] at hrest
  obtain ⟨complete, hcomplete, hrest⟩ := hrest
  rw [run_append, bind_eq_some_iff] at hrest
  obtain ⟨body, hbody, hrest⟩ := hrest
  rw [run_append, bind_eq_some_iff] at hrest
  obtain ⟨last, hlast, hend⟩ := hrest
  have hhdr : st'.hdr = last.hdr := by rw [← some.inj hend]
  have hkept := run_body_kept (d := d.whole) hbody
  rw [← some.inj hcomplete, Prod.mk.injEq, Prod.mk.injEq, Prod.mk.injEq] at hkept
  obtain ⟨hbody_hdr, hstate, hnext, hvalue⟩ := hkept
  have hbody_between : body.Between := by
    unfold Between at hmid_between ⊢
    rw [hstate, hvalue]
    exact hmid_between
  have hbody_settled : body.settledHdr env =
      d.headers.getLast?.elim body.hdr (Field.handle env body.hdr) :=
    calc body.settledHdr env
        = body.hdr.header_value_check env mid.next_header mid.value := by
          show body.hdr.header_value_check env body.next_header body.value = _
          rw [hnext, hvalue]
          rfl
      _ = d.headers.getLast?.elim body.hdr (Field.handle env body.hdr) := hagain body.hdr
  have hstart : d.headers.foldl (Field.handle env) (st.http_req_reset.setUrl d.url.last).hdr =
      mid.settledHdr env := hfold.symm
  rw [hhdr, hbody_between.trailers hlast, hbody_settled, hstart, Delivery.late]
  have hcomplete_hdr : body.hdr = gssapi_fallback (mid.settledHdr env) := hbody_hdr
  split_ifs with htrailers
  · exact hcomplete_hdr
  · rw [foldl_append, ← hcomplete_hdr]
    cases d.headers.getLast? <;> rfl

/-- A request that is delivered in one piece, and has no headers behind its body, leaves the
worker as the loop says. -/
theorem receive_whole_ws (hurl : req.url = d.url.whole)
    (hheaders : req.headers = d.headers.map Field.toHeader) (htrailers : d.trailers = [])
    (hreceive : st.receive env d.whole = some st') : st'.hdr.ws = st.hdr.ws.receive req := by
  have hlate : d.whole.late = [] := if_pos (by rw [Delivery.whole, htrailers, map_nil])
  have hlast : d.whole.url.last = req.url := by rw [hurl, Delivery.whole, Fragments.last_one]
  have hwhole : d.whole.headers.map Field.toHeader = req.headers := by
    simp [Delivery.whole, hheaders, Field.toHeader, Field.whole]
  rw [receive_hdr hreceive, hlate, foldl_nil]
  calc (gssapi_fallback (d.whole.headers.foldl (Field.handle env) _)).ws
      = (d.whole.headers.foldl (Field.handle env) _).ws := by
        unfold gssapi_fallback
        rw [apply_ite HeaderSt.ws, ite_self]
    _ = req.headers.foldl .header_value_check { st.hdr.ws with url := req.url } := by
        rw [foldl_handle_ws, hwhole, ← hlast]
        rfl
    _ = st.hdr.ws.receive req := by rw [WorkerSt.receive]

end ReqSt

end Loop

section Demo

local instance loopPlatform : Platform := Platform.simple

open SplitDemo

theorem receive_whole_ws_login : ∃ P : Platform, ∃ st' req,
    @ReqSt.receive P settings between_requests (login (.one "/auth".toList)).whole = some st' ∧
      st'.hdr.ws = @WorkerSt.receive P between_requests.hdr.ws req := by
  have hsome : (between_requests.receive settings (login (.one "/auth".toList)).whole).isSome := by
    decide +kernel
  obtain ⟨st', hst'⟩ := isSome_iff_exists.1 hsome
  exact ⟨_, st', ⟨.post, "/auth".toList, _, 1, 1, by decide⟩, hst',
    ReqSt.receive_whole_ws rfl rfl rfl hst'⟩

end Demo

end Ocserv

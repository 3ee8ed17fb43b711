import Ocserv.Worker.Form

/-!
# Forms

A form is sent as its names and values, escaped, with `=` between a name and its value and `&`
between the pairs.  Since neither character is left in an escaped text, what is searched for
stands within one pair (`find_body`).  A field is found at the first name that ends as the name of
the field does, and the password at the first name or value that contains the word.
-/

namespace Ocserv

open List Option

namespace Form

open Plain (c_string)

/-! ## Encoding -/

/-- The characters that an encoder must not leave as they are. -/
def special : List Char := ['%', '+', '&', '=', '<', '\x00']

/-- A way to write a text into a form. -/
structure Encoder where
  /-- the characters that are left as they are -/
  safe : Char → Bool
  safe_not_special : ∀ {c}, safe c → c ∉ special
  /-- a blank is written as a plus -/
  plus : Bool
  upper : Bool

/-- The pairs of a form; texts are made of bytes. -/
structure Pairs where
  list : List (CStr × CStr)
  nodup : (list.map Prod.fst).Nodup
  bytes : ∀ pair ∈ list, ∀ c ∈ pair.2, c.toNat < 256

variable (e : Encoder)

def escape_char (c : Char) : CStr :=
  if e.safe c then [c]
  else if c = ' ' ∧ e.plus then ['+']
  else ['%', hex_digit e.upper (c.toNat / 16), hex_digit e.upper c.toNat]

def escape (s : CStr) : CStr := s.flatMap (escape_char e)

/-- A pair as it is sent. -/
def segment (pair : CStr × CStr) : CStr := escape e pair.1 ++ '=' :: escape e pair.2

/-- The body of the request. -/
def body : List (CStr × CStr) → CStr
  | [] => []
  | [pair] => segment e pair
  | pair :: pairs => segment e pair ++ '&' :: body pairs

/-- The value of the field with a name. -/
def lookup (pairs : List (CStr × CStr)) (f : CStr) : Option CStr :=
  (pairs.find? fun pair => pair.1 == f).map Prod.snd

/-- Fields are extracted by their names: `parse_reply`, which gets the name as it stands in the
body, returns the value of the field or fails, and `match_password_in_reply` returns the value of
the password. -/
def Extracts (lib : CLib) (pairs : Pairs) (f : CStr) : Prop :=
  (∀ xml_field, parse_reply lib (body e pairs.list) (escape e f) xml_field = lookup pairs.list f) ∧
    ∀ value, lookup pairs.list "password".toList = some value →
      match_password_in_reply lib (body e pairs.list) = some value

/-! ## Where fields are found -/

/-- The name of the pair ends with that of the field, in any case. -/
def ends_with (f : CStr) (pair : CStr × CStr) : Bool :=
  ((escape e f).map Char.toLower).isSuffixOf ((escape e pair.1).map Char.toLower)

/-- The text contains the word, in any case. -/
def has_password (s : CStr) : Bool := (strcasestr (escape e s) "password".toList).isSome

/-- What is taken for the password: the value of the first pair whose name contains the word, or the
value behind the first one that does. -/
def password_value : List (CStr × CStr) → Option CStr
  | [] => none
  | pair :: pairs =>
    if has_password e pair.1 then some pair.2
    else if has_password e pair.2 then pairs.head?.map Prod.snd
    else password_value pairs

/-- What stands in a pair behind the first characters of a long name. -/
def behind (f : CStr) (pair : CStr × CStr) : Option CStr :=
  (strcasestr (segment e pair) ((escape e f).take 63)).map (·.drop 63)

/-- What is taken for the field. -/
def found (lib : CLib) (pairs : List (CStr × CStr)) (f : CStr) : Option CStr :=
  if (escape e f).length < 63 then (pairs.find? (ends_with e f)).map fun pair => c_string pair.2
  else (pairs.findSome? (behind e f)).bind fun rest => field_value lib false rest rest.length

/-- The pair that is found has the value of the field. -/
def Unmistaken (lib : CLib) (pairs : Pairs) (f : CStr) : Prop :=
  found e lib pairs.list f = lookup pairs.list f ∧
    ∀ value, lookup pairs.list "password".toList = some value →
      (password_value e pairs.list).map c_string = some value

variable {e} {lib : CLib} {s sub rest tail : CStr} {c x : Char} {pair : CStr × CStr}
  {pairs : List (CStr × CStr)} {f : CStr}

/-! ## Characters -/

/-- Only letters change their case. -/
theorem eq_of_toLower_eq (hx : ¬ (97 ≤ x.val.toNat ∧ x.val.toNat ≤ 122)) (h : c.toLower = x) :
    c = x := by
  unfold Char.toLower at h
  split at h
  next hupper =>
    subst h
    have hbounds : 65 ≤ c.val.toNat ∧ c.val.toNat ≤ 90 := hupper
    have hval : (c.val + ('a'.val - 'A'.val)).toNat = c.val.toNat + 32 := by
      rw [UInt32.toNat_add, show ('a'.val - 'A'.val).toNat = 32 from rfl]
      omega
    have hlower : ¬ (97 ≤ (c.val + ('a'.val - 'A'.val)).toNat ∧
        (c.val + ('a'.val - 'A'.val)).toNat ≤ 122) := hx
    omega
  next => exact h

theorem not_mem_map_toLower (hx : ¬ (97 ≤ x.val.toNat ∧ x.val.toNat ≤ 122)) (hlower : x.toLower = x)
    (h : x ∉ s) : x.toLower ∉ s.map Char.toLower := by
  intro hmem
  obtain ⟨c, hc, heq⟩ := mem_map.1 hmem
  exact h (eq_of_toLower_eq hx (heq.trans hlower) ▸ hc)

theorem bne_of_not_mem (hs : x ∉ s) : ∀ c ∈ s, (c != x) := by
  intro c hc
  have hne : c ≠ x := fun h => hs (h ▸ hc)
  simpa using hne

theorem hex_digit_not_special (upper : Bool) (n : Nat) : hex_digit upper n ∉ special := by
  have hall : ∀ upper : Bool, ∀ k < 16, hex_digit upper k ∉ special := by decide
  have hmod : hex_digit upper n = hex_digit upper (n % 16) := by
    unfold hex_digit
    rw [Nat.mod_mod]
  rw [hmod]
  exact hall upper (n % 16) (Nat.mod_lt n (by decide))

/-- Of the special characters only the two that start an escape are left. -/
theorem not_mem_escape (hx : x ∈ special) (hpercent : x ≠ '%') (hplus : x ≠ '+') (s : CStr) :
    x ∉ escape e s := by
  intro h
  obtain ⟨c, -, hc⟩ := mem_flatMap.1 h
  unfold escape_char at hc
  split at hc
  next hsafe =>
    obtain rfl := mem_singleton.1 hc
    exact e.safe_not_special hsafe hx
  next =>
    split at hc
    · exact hplus (mem_singleton.1 hc)
    · simp only [mem_cons, not_mem_nil, or_false] at hc
      rcases hc with hc | hc | hc
      · exact hpercent hc
      · exact hex_digit_not_special _ _ (hc ▸ hx)
      · exact hex_digit_not_special _ _ (hc ▸ hx)

theorem amp_not_mem_escape (s : CStr) : '&' ∉ escape e s :=
  not_mem_escape (by decide) (by decide) (by decide) s

theorem eq_not_mem_escape (s : CStr) : '=' ∉ escape e s :=
  not_mem_escape (by decide) (by decide) (by decide) s

theorem amp_not_mem_segment (pair : CStr × CStr) : '&' ∉ segment e pair := by
  simp only [segment, mem_append, mem_cons, not_or]
  exact ⟨amp_not_mem_escape _, by decide, amp_not_mem_escape _⟩

/-- Neither an XML document nor the end of a string is found in a form. -/
theorem not_mem_body (hx : x ∈ special) (hpercent : x ≠ '%') (hplus : x ≠ '+') (heq : x ≠ '=')
    (hamp : x ≠ '&') (pairs : List (CStr × CStr)) : x ∉ body e pairs := by
  have hsegment : ∀ pair, x ∉ segment e pair := by
    intro pair
    simp only [segment, mem_append, mem_cons, not_or]
    exact ⟨not_mem_escape hx hpercent hplus _, heq, not_mem_escape hx hpercent hplus _⟩
  induction pairs with
  | nil => exact not_mem_nil
  | cons pair pairs ih =>
    cases pairs with
    | nil => exact hsegment pair
    | cons next pairs =>
      rw [body]
      · simp only [mem_append, mem_cons, not_or]
        exact ⟨hsegment pair, hamp, ih⟩
      · simp

theorem c_string_body (pairs : List (CStr × CStr)) : c_string (body e pairs) = body e pairs := by
  apply takeWhile_eq_self_iff.2
  apply bne_of_not_mem
  exact not_mem_body (by decide) (by decide) (by decide) (by decide) (by decide) pairs

theorem is_xml_body (pairs : List (CStr × CStr)) : is_xml (body e pairs) = false := by
  have hnot : '<' ∉ body e pairs :=
    not_mem_body (by decide) (by decide) (by decide) (by decide) (by decide) pairs
  unfold is_xml
  rw [Search.find_eq_none (a := '<') (by decide) (by simpa using hnot)]
  rfl

/-! ## Decoding -/

/-- Every escape is complete. -/
def Closed : CStr → Prop
  | [] => True
  | c :: s => (c = '%' → 2 ≤ s.length) ∧ Closed s

theorem Closed.of_suffix (h : Closed s) (hsub : sub <:+ s) : Closed sub := by
  induction s with
  | nil => rwa [suffix_nil.1 hsub]
  | cons c s ih =>
    rcases suffix_cons_iff.1 hsub with rfl | hsub
    · exact h
    · exact ih h.2 hsub

theorem closed_append (hs : Closed s) (ht : Closed tail) : Closed (s ++ tail) := by
  induction s with
  | nil => exact ht
  | cons c s ih =>
    refine ⟨fun hc => ?_, ih hs.2⟩
    have hlen := hs.1 hc
    show 2 ≤ (s ++ tail).length
    rw [length_append]
    omega

theorem closed_escape (s : CStr) : Closed (escape e s) := by
  induction s with
  | nil => trivial
  | cons c s ih =>
    apply closed_append ?_ ih
    have hdigit : ∀ n, hex_digit e.upper n ≠ '%' := fun n h =>
      hex_digit_not_special e.upper n (h ▸ by decide)
    unfold escape_char
    split
    next hsafe =>
      refine ⟨fun hc => ?_, trivial⟩
      exact absurd (hc ▸ by decide) (e.safe_not_special hsafe)
    next =>
      split
      · exact ⟨fun hc => absurd hc (by decide), trivial⟩
      · exact ⟨fun _ => by simp, fun hc => absurd hc (hdigit _), fun hc => absurd hc (hdigit _),
          trivial⟩

theorem closed_segment (pair : CStr × CStr) : Closed (segment e pair) := by
  apply closed_append (closed_escape _)
  exact ⟨fun h => absurd h (by decide), closed_escape _⟩

theorem unescape_url_zero (url : CStr) : unescape_url lib url 0 = some [] := by
  cases url <;> unfold unescape_url <;> simp

theorem unescape_url_percent (b0 b1 : Char) (url : CStr) (len : Nat) :
    unescape_url lib ('%' :: b0 :: b1 :: url) (len + 3) =
      (lib.scan_hex b0 b1).bind fun u =>
        (unescape_url lib url len).map (Char.ofNat (u % 256) :: ·) := by
  rw [unescape_url, if_neg (by omega), if_pos rfl, Nat.add_sub_cancel]
  cases lib.scan_hex b0 b1 <;> rfl

theorem unescape_url_plus (url : CStr) (len : Nat) :
    unescape_url lib ('+' :: url) (len + 1) = (unescape_url lib url len).map (' ' :: ·) := by
  rw [unescape_url.eq_def]
  simp

theorem unescape_url_cons (hpercent : c ≠ '%') (hplus : c ≠ '+') (url : CStr) (len : Nat) :
    unescape_url lib (c :: url) (len + 1) = (unescape_url lib url len).map (c :: ·) := by
  rw [unescape_url.eq_def]
  simp [hpercent, hplus]

/-- What follows does not matter to a text in which every escape is complete. -/
theorem unescape_url_append (h : Closed s) (tail : CStr) :
    unescape_url lib (s ++ tail) s.length = unescape_url lib s s.length := by
  induction hlen : s.length using Nat.strongRecOn generalizing s with
  | _ len ih =>
    cases s with
    | nil =>
      obtain rfl : 0 = len := hlen
      rw [unescape_url_zero, unescape_url_zero]
    | cons c s =>
      obtain rfl : s.length + 1 = len := hlen
      by_cases hpercent : c = '%'
      · match s, h with
        | b0 :: b1 :: s, h =>
          subst hpercent
          have hrest := ih s.length (by simp only [length_cons]; omega) h.2.2.2 rfl
          simp only [cons_append, length_cons, unescape_url_percent, hrest]
        | [b0], h => exact absurd (h.1 hpercent) (by simp)
        | [], h => exact absurd (h.1 hpercent) (by simp)
      · have hrest := ih s.length (by simp) h.2 rfl
        by_cases hplus : c = '+'
        · subst hplus
          rw [cons_append, unescape_url_plus, unescape_url_plus, hrest]
        · rw [cons_append, unescape_url_cons hpercent hplus,
            unescape_url_cons hpercent hplus, hrest]

/-- A text is read back. -/
theorem unescape_url_escape (hs : ∀ c ∈ s, c.toNat < 256) :
    unescape_url lib (escape e s) (escape e s).length = some s := by
  induction s with
  | nil => rfl
  | cons c s ih =>
    have hrest := ih fun d hd => hs d (mem_cons_of_mem c hd)
    have hc := hs c List.mem_cons_self
    have hcons : escape e (c :: s) = escape_char e c ++ escape e s := rfl
    rw [hcons, escape_char]
    split
    next hsafe =>
      have hspecial := e.safe_not_special hsafe
      have hpercent : c ≠ '%' := fun h => hspecial (h ▸ by decide)
      have hplus : c ≠ '+' := fun h => hspecial (h ▸ by decide)
      rw [singleton_append, length_cons, unescape_url_cons hpercent hplus, hrest]
      rfl
    next =>
      split
      next hblank =>
        rw [singleton_append, length_cons, unescape_url_plus, hrest, hblank.1]
        rfl
      next =>
        simp only [cons_append, nil_append, length_cons, unescape_url_percent,
          lib.scan_hex_digits e.upper c.toNat hc, hrest, bind_some, map_some,
          Nat.mod_eq_of_lt hc, Char.ofNat_toNat]

/-! ## Searching a body -/

/-- What follows a pair. -/
def following (e : Encoder) (pairs : List (CStr × CStr)) : CStr :=
  if pairs.isEmpty then [] else '&' :: body e pairs

theorem body_eq (pair : CStr × CStr) (pairs : List (CStr × CStr)) :
    body e (pair :: pairs) = segment e pair ++ following e pairs := by
  cases pairs with
  | nil => simp [body, following]
  | cons next pairs => rfl

/-- A value ends where the next pair begins. -/
theorem takeWhile_following (hs : '&' ∉ s) (pairs : List (CStr × CStr)) :
    (s ++ following e pairs).takeWhile (· != '&') = s := by
  rw [takeWhile_append_of_pos (bne_of_not_mem hs), following]
  split <;> simp

theorem field_value_following (hs : Closed s) (hamp : '&' ∉ s) (pairs : List (CStr × CStr)) :
    field_value lib false (s ++ following e pairs)
        ((s ++ following e pairs).takeWhile (· != '&')).length =
      field_value lib false s s.length := by
  rw [takeWhile_following hamp, field_value, field_value, unescape_url_append hs]
  simp only [Bool.false_eq_true, if_false]

theorem field_value_escape (hs : ∀ c ∈ s, c.toNat < 256) :
    field_value lib false (escape e s) (escape e s).length = some (c_string s) := by
  unfold field_value
  split
  next hnil =>
    cases s with
    | nil => rfl
    | cons c s =>
      have hback := @unescape_url_escape e lib (c :: s) hs
      rw [hnil, unescape_url_zero] at hback
      cases hback
  next =>
    rw [if_neg Bool.false_ne_true, unescape_url_escape hs]
    rfl

/-- A text without the separator of the pairs stands within one pair. -/
theorem find_body (hne : sub ≠ []) (hsub : '&' ∉ sub) (pair : CStr × CStr)
    (pairs : List (CStr × CStr)) :
    strcasestr (body e (pair :: pairs)) sub =
      ((strcasestr (segment e pair) sub).map (· ++ following e pairs)).or
        (strcasestr (body e pairs) sub) := by
  rw [body_eq, following]
  cases pairs with
  | nil =>
    have hnil : strcasestr (body e []) sub = none := by
      cases sub with
      | nil => exact absurd rfl hne
      | cons c sub => rfl
    rw [hnil]
    simp
  | cons next pairs =>
    exact Search.find_append (not_mem_map_toLower (by decide) rfl hsub) _ _

/-! ## A field -/

theorem temp64_field (f : CStr) :
    temp64 (escape e f ++ ['=']) =
      if (escape e f).length < 63 then escape e f ++ ['='] else (escape e f).take 63 := by
  unfold temp64
  split
  next hshort =>
    apply take_of_length_le
    rw [length_append, length_singleton]
    omega
  next hlong => rw [take_append_of_le_length (by omega)]

/-- What stands in a pair behind a text. -/
def rest_of (e : Encoder) (sub : CStr) (pair : CStr × CStr) : Option CStr :=
  (strcasestr (segment e pair) sub).map (·.drop sub.length)

/-- The first pair that contains the text gives what is decoded. -/
theorem parse_body (hne : sub ≠ []) (hsub : '&' ∉ sub) (pairs : List (CStr × CStr)) :
    (match strcasestr (body e pairs) sub with
      | none => none
      | some value =>
        field_value lib false (value.drop sub.length)
          ((value.drop sub.length).takeWhile (· != '&')).length) =
      (pairs.findSome? (rest_of e sub)).bind fun rest =>
        field_value lib false rest rest.length := by
  induction pairs with
  | nil =>
    cases sub with
    | nil => exact absurd rfl hne
    | cons c sub => rfl
  | cons pair pairs ih =>
    rw [find_body hne hsub, List.findSome?_cons, rest_of]
    cases hfound : strcasestr (segment e pair) sub with
    | none => exact ih
    | some value =>
      obtain ⟨hsuffix, hlen⟩ := Search.suffix_of_find hfound
      have hrest : value.drop sub.length <:+ segment e pair :=
        (drop_suffix _ _).trans hsuffix
      have hamp : '&' ∉ value.drop sub.length :=
        fun h => amp_not_mem_segment pair (hrest.subset h)
      simp only [map_some, some_or, bind_some]
      rw [drop_append_of_le_length hlen,
        field_value_following ((closed_segment pair).of_suffix hrest) hamp]

/-- A short name is found at the end of a name. -/
theorem rest_of_short (f : CStr) (pair : CStr × CStr) :
    rest_of e (escape e f ++ ['=']) pair =
      if ends_with e f pair then some (escape e pair.2) else none := by
  have heq : ∀ s : CStr, '='.toLower ∉ (escape e s).map Char.toLower := fun s =>
    not_mem_map_toLower (by decide) rfl (eq_not_mem_escape s)
  have hfind := Search.find_concat (heq f) (heq pair.1) (heq pair.2)
  rw [rest_of, strcasestr, segment, hfind]
  by_cases hend : (escape e f).map Char.toLower <:+ (escape e pair.1).map Char.toLower
  · have hlen : (escape e f).length ≤ (escape e pair.1).length := by
      simpa using hend.length_le
    have hfront : ((escape e pair.1).drop ((escape e pair.1).length - (escape e f).length)).length =
        (escape e f).length := by
      rw [length_drop]
      omega
    rw [if_pos hend, if_pos (by simpa [ends_with] using hend), map_some, length_append,
      length_singleton]
    generalize (escape e pair.1).drop _ = front at hfront ⊢
    rw [← hfront]
    simp [drop_append]
  · rw [if_neg hend, if_neg (by simpa [ends_with] using hend)]
    rfl

theorem findSome?_ite {α β : Type} (p : α → Bool) (g : α → β) (l : List α) :
    (l.findSome? fun a => if p a then some (g a) else none) = (l.find? p).map g := by
  induction l with
  | nil => rfl
  | cons a l ih =>
    rw [List.findSome?_cons, List.find?_cons]
    cases p a with
    | true => rfl
    | false => exact ih

theorem parse_reply_body (pairs : Pairs) (f : CStr) (xml_field : Option CStr) :
    parse_reply lib (body e pairs.list) (escape e f) xml_field = found e lib pairs.list f := by
  have hamp : '&' ∉ escape e f ++ ['='] := by
    simpa using amp_not_mem_escape f
  by_cases hnil : pairs.list = []
  · rw [hnil]
    simp [parse_reply, body, found]
  · have hbody : body e pairs.list ≠ [] := by
      obtain ⟨pair, rest, hcons⟩ := List.exists_cons_of_ne_nil hnil
      rw [hcons, body_eq, segment]
      simp
    have hsub : temp64 (escape e f ++ ['=']) ≠ [] := by simp [temp64]
    have hparse := @parse_body e lib _ hsub (fun h => hamp (mem_of_mem_take h)) pairs.list
    rw [parse_reply, if_neg hbody, is_xml_body, if_neg Bool.false_ne_true, c_string_body]
    refine hparse.trans ?_
    rw [found, temp64_field]
    split
    next hshort =>
      have hrest : rest_of e (escape e f ++ ['=']) =
          fun pair => if ends_with e f pair then some (escape e pair.2) else none :=
        funext (rest_of_short f)
      rw [hrest, findSome?_ite]
      cases hfind : pairs.list.find? (ends_with e f) with
      | none => rfl
      | some pair =>
        exact field_value_escape (pairs.bytes pair (mem_of_find?_eq_some hfind))
    next hlong =>
      have hrest : rest_of e ((escape e f).take 63) = behind e f := by
        funext pair
        rw [rest_of, behind, length_take, Nat.min_eq_left (by omega)]
      rw [hrest]

/-! ## The password -/

theorem strchr_of_mem (hs : x ∉ s) (rest : CStr) :
    strchr (s ++ x :: rest) x = some (x :: rest) := by
  rw [strchr, dropWhile_append_of_pos (bne_of_not_mem hs),
    dropWhile_cons_of_neg (by simp)]

theorem strchr_of_not_mem (hs : x ∉ s) : strchr s x = none := by
  rw [strchr, dropWhile_eq_nil_iff.2 (bne_of_not_mem hs)]

/-- The search for the value behind a place in the body. -/
def value_behind (lib : CLib) (value : CStr) : Option CStr :=
  match strchr value '=' with
  | none => none
  | some p => field_value lib false (p.drop 1) ((p.drop 1).takeWhile (· != '&')).length

/-- Within a name the value of the pair follows. -/
theorem value_behind_name (hs : '=' ∉ s) (hbytes : ∀ c ∈ pair.2, c.toNat < 256) :
    value_behind lib (s ++ '=' :: escape e pair.2 ++ following e pairs) =
      some (c_string pair.2) := by
  rw [append_assoc, cons_append, value_behind, strchr_of_mem hs]
  dsimp only
  rw [drop_one, tail_cons, field_value_following (closed_escape _) (amp_not_mem_escape _),
    field_value_escape hbytes]

/-- Within a value that of the next pair follows. -/
theorem value_behind_value (hs : '=' ∉ s) (hbytes : ∀ pair ∈ pairs, ∀ c ∈ pair.2, c.toNat < 256) :
    value_behind lib (s ++ following e pairs) = pairs.head?.map fun pair => c_string pair.2 := by
  cases pairs with
  | nil =>
    rw [following, isEmpty_nil, if_pos rfl, append_nil, value_behind,
      strchr_of_not_mem hs]
    rfl
  | cons next pairs =>
    have hname : '=' ∉ s ++ '&' :: escape e next.1 := by
      simpa using ⟨hs, eq_not_mem_escape next.1⟩
    have hvalue := @value_behind_name e lib _ next pairs hname
      (hbytes next List.mem_cons_self)
    rw [following, isEmpty_cons, if_neg Bool.false_ne_true, body_eq, segment]
    simpa using hvalue

/-- The word is found in a name, or in a value, or behind the pair. -/
theorem find_password (pair : CStr × CStr) (pairs : List (CStr × CStr)) :
    strcasestr (body e (pair :: pairs)) "password".toList =
      ((strcasestr (escape e pair.1) "password".toList).map
          (· ++ '=' :: escape e pair.2 ++ following e pairs)).or
        (((strcasestr (escape e pair.2) "password".toList).map (· ++ following e pairs)).or
          (strcasestr (body e pairs) "password".toList)) := by
  have hsegment : strcasestr (segment e pair) "password".toList =
      ((strcasestr (escape e pair.1) "password".toList).map (· ++ '=' :: escape e pair.2)).or
        (strcasestr (escape e pair.2) "password".toList) :=
    Search.find_append (by decide) _ _
  rw [find_body (by decide) (by decide), hsegment]
  cases strcasestr (escape e pair.1) "password".toList with
  | some value => rfl
  | none => cases strcasestr (escape e pair.2) "password".toList <;> rfl

theorem value_behind_password (hbytes : ∀ pair ∈ pairs, ∀ c ∈ pair.2, c.toNat < 256) :
    (strcasestr (body e pairs) "password".toList).bind (value_behind lib) =
      (password_value e pairs).map c_string := by
  induction pairs with
  | nil => rfl
  | cons pair pairs ih =>
    have hrest : ∀ pair ∈ pairs, ∀ c ∈ pair.2, c.toNat < 256 :=
      fun p hp => hbytes p (mem_cons_of_mem pair hp)
    have heq : ∀ {s value : CStr}, strcasestr (escape e s) "password".toList = some value →
        '=' ∉ value := fun {s value} h hmem =>
      eq_not_mem_escape s ((Search.suffix_of_find h).1.subset hmem)
    rw [find_password, password_value, has_password, has_password]
    cases hname : strcasestr (escape e pair.1) "password".toList with
    | some value =>
      exact value_behind_name (heq hname) (hbytes pair List.mem_cons_self)
    | none =>
      cases hvalue : strcasestr (escape e pair.2) "password".toList with
      | some value =>
        have hnext := @value_behind_value e lib value pairs (heq hvalue) hrest
        simpa [Function.comp_def] using hnext
      | none => exact ih hrest

theorem match_password_body (pairs : Pairs) :
    match_password_in_reply lib (body e pairs.list) =
      (password_value e pairs.list).map c_string := by
  rw [← value_behind_password pairs.bytes]
  by_cases hnil : pairs.list = []
  · rw [hnil]
    rfl
  · have hbody : body e pairs.list ≠ [] := by
      obtain ⟨pair, rest, hcons⟩ := List.exists_cons_of_ne_nil hnil
      rw [hcons, body_eq, segment]
      simp
    rw [match_password_in_reply, if_neg hbody, is_xml_body, if_neg Bool.false_ne_true,
      c_string_body]
    cases strcasestr (body e pairs.list) "password".toList with
    | none => rfl
    | some value => rfl

/-- The fields of a form are extracted exactly when what is found for the field and for the password
has their values. -/
theorem extracts_iff (e : Encoder) (lib : CLib) (pairs : Pairs) (f : CStr) :
    Extracts e lib pairs f ↔ Unmistaken e lib pairs f := by
  simp only [Extracts, Unmistaken, parse_reply_body, match_password_body, forall_const]

/-! ## An example -/

section Example

/-- Letters and digits are left as they are. -/
def formEncoder : Encoder where
  safe c := c.isAlphanum
  safe_not_special := by
    intro c hc hmem
    simp only [special, mem_cons, not_mem_nil, or_false] at hmem
    rcases hmem with rfl | rfl | rfl | rfl | rfl | rfl <;> exact absurd hc (by decide)
  plus := true
  upper := true

/-- `sscanf` with the format `%02x`. -/
def scanHex (b0 b1 : Char) : Option Nat :=
  match Inet.hexDigit? b0, Inet.hexDigit? b1 with
  | some x, some y => some (16 * x + y)
  | x, _ => x

theorem scanHex_digits : ∀ (upper : Bool), ∀ n < 256,
    scanHex (hex_digit upper (n / 16)) (hex_digit upper n) = some n := by decide +kernel

/-- A library that knows hexadecimal digits, and no character references. -/
def formLib : CLib where
  scan_hex := scanHex
  scan_hex_digits := scanHex_digits
  strtol s _ := (0, s)
  wcrtomb _ := none

theorem bytes_of_all {list : List (CStr × CStr)}
    (h : (list.all fun pair => pair.2.all fun c => c.toNat < 256)) :
    ∀ pair ∈ list, ∀ c ∈ pair.2, c.toNat < 256 := by
  intro pair hpair c hc
  exact of_decide_eq_true (all_eq_true.1 (all_eq_true.1 h pair hpair) c hc)

/-- A name that ends with that of the field. -/
def twoNames : Pairs where
  list := [("xusername".toList, "eve".toList), ("username".toList, "bob".toList)]
  nodup := by decide
  bytes := bytes_of_all (by decide)

/-- A value with the word in it. -/
def threeFields : Pairs where
  list :=
    [("username".toList, "mypassword".toList), ("realm".toList, "r".toList),
      ("password".toList, "x".toList)]
  nodup := by decide
  bytes := bytes_of_all (by decide)

/-- The value of another field is returned for the username, and for the password. -/
theorem extracts_other_fields :
    (parse_reply formLib (body formEncoder twoNames.list) "username".toList none =
        some "eve".toList ∧ ¬ Extracts formEncoder formLib twoNames "username".toList) ∧
      match_password_in_reply formLib (body formEncoder threeFields.list) = some "r".toList ∧
        ¬ Extracts formEncoder formLib threeFields "username".toList := by
  refine ⟨⟨by decide +kernel, fun h => ?_⟩, by decide +kernel, fun h => ?_⟩
  · exact absurd (h.1 none) (by decide +kernel)
  · exact absurd (h.2 "x".toList (by decide +kernel)) (by decide +kernel)

end Example

end Form

end Ocserv

import Ocserv.Lib.Search
import Ocserv.Worker.Headers
import Ocserv.Auth.Plain

/-!
# The fields of a request

A client sends the username, the group and the password in the body of a request, as an XML
document or as a form.  `parse_reply` and `match_password_in_reply` look for a field in the body
as it was received, and decode what follows up to the end of the field.

A body is followed by a null character, so the string functions see it up to the first null
character it contains.
-/

namespace Ocserv

namespace Form

open Plain (c_string)

/-- A hexadecimal digit. -/
def hex_digit (upper : Bool) (n : Nat) : Char :=
  (if upper then "0123456789ABCDEF" else "0123456789abcdef").toList.getD (n % 16) '0'

/-- Functions of the C library. -/
structure CLib where
  /-- `sscanf (b, "%02x", &u)` on two characters; a null character ends the string -/
  scan_hex : Char → Char → Option Nat
  scan_hex_digits : ∀ upper n, n < 256 →
    scan_hex (hex_digit upper (n / 16)) (hex_digit upper n) = some n
  /-- `strtol` with a base: the number, and the rest -/
  strtol : CStr → Nat → Int × CStr
  /-- `wcrtomb`: the bytes of a character, if there are any -/
  wcrtomb : Int → Option CStr

/-- `strcasestr`: the rest of the string from the first occurrence on, in any case. -/
def strcasestr (s sub : CStr) : Option CStr := Search.find Char.toLower sub s

def strchr (s : CStr) (c : Char) : Option CStr :=
  match s.dropWhile (· != c) with
  | [] => none
  | p => some p

/-- Whether the body is an XML document. -/
def is_xml (body : List Char) : Bool := (Search.find id "<?xml".toList body).isSome

/-! ## Decoding -/

/-- `unescape_url (url, len)`: `url` is the string from the field on. -/
def unescape_url (lib : CLib) : CStr → Nat → Option CStr
  | [], _ => some []
  | c :: url, len =>
    if len = 0 then some []
    else if c = '%' then
      match url with
      | b0 :: b1 :: url =>
        match lib.scan_hex b0 b1 with
        | none => none
        | some u => (unescape_url lib url (len - 3)).map (Char.ofNat (u % 256) :: ·)
      | url =>
        -- the escape reaches over the end of the string
        (lib.scan_hex (url.getD 0 '\x00') '\x00').map fun u => [Char.ofNat (u % 256)]
    else if c = '+' then (unescape_url lib url (len - 1)).map (' ' :: ·)
    else (unescape_url lib url (len - 1)).map (c :: ·)

/-- The entities, in the order they are tried. -/
def entities : List (String × Char) :=
  [("&lt;", '<'), ("&gt;", '>'), ("&nbsp;", ' '), ("&quot;", '"'), ("&amp;", '&'),
    ("&apos;", Char.ofNat 39)]

def WCHAR_MAX : Int := 0x7fffffff

/-- A character reference at the start of the string: the number, and the rest behind the
semicolon. -/
def char_ref (lib : CLib) (html : CStr) : Option (Int × CStr) :=
  let r :=
    if (html.getD 2 '\x00') = 'x' then lib.strtol (html.drop 3) 16 else lib.strtol (html.drop 2) 10
  if r.2.head? ≠ some ';' ∨ WCHAR_MAX < r.1 then none else some (r.1, r.2.drop 1)

/-- The loop of `unescape_html`: `html` is the string from the position `i` on. -/
def unescape_html_loop (lib : CLib) (len : Nat) : Nat → CStr → Nat → CStr → Option CStr
  | 0, _, _, msg => some msg
  | fuel + 1, html, i, msg =>
    if i < len then
      if len - msg.length < 1 then none
      else
        match entities.find? fun e => starts_with_nocase html e.1 with
        | some e =>
          unescape_html_loop lib len fuel (html.drop e.1.length) (i + e.1.length)
            (msg ++ [e.2])
        | none =>
          match if html.take 2 = "&#".toList then char_ref lib html else none with
          | some (val, rest) =>
            match lib.wcrtomb val with
            | none => none
            | some tmpmb =>
              if tmpmb.length < len - msg.length then
                unescape_html_loop lib len fuel rest (i + (html.length - rest.length))
                  (msg ++ tmpmb)
              else none
          | none =>
            unescape_html_loop lib len fuel (html.drop 1) (i + 1)
              (msg ++ [html.getD 0 '\x00'])
    else some msg

def unescape_html (lib : CLib) (html : CStr) (len : Nat) : Option CStr :=
  unescape_html_loop lib len len html 0 []

/-- The value of `len` characters, as a string. -/
def field_value (lib : CLib) (xml : Bool) (value : CStr) (len : Nat) : Option CStr :=
  if len = 0 then some []
  else if xml then (unescape_html lib value len).map c_string
  else (unescape_url lib value len).map c_string

/-! ## Fields -/

/-- The characters before a text, or all. -/
def length_until (s stop : CStr) : Nat :=
  match strcasestr s stop with
  | none => s.length
  | some rest => s.length - rest.length

/-- What `snprintf` writes into a buffer of 64 bytes. -/
def temp64 (s : CStr) : CStr := s.take 63

def parse_reply (lib : CLib) (body : List Char) (field : CStr) (xml_field : Option CStr) :
    Option CStr :=
  if body = [] then none
  else if is_xml body then
    let field := xml_field.getD field
    let temp1 := temp64 ('<' :: field ++ ['>'])
    let temp2 := temp64 ('<' :: '/' :: field ++ ['>'])
    match strcasestr (c_string body) temp1 with
    | none => none
    | some value =>
      let value := value.drop temp1.length
      field_value lib true value (length_until value temp2)
  else
    let temp1 := temp64 (field ++ ['='])
    match strcasestr (c_string body) temp1 with
    | none => none
    | some value =>
      let value := value.drop temp1.length
      field_value lib false value (value.takeWhile (· != '&')).length

def match_password_in_reply (lib : CLib) (body : List Char) : Option CStr :=
  if body = [] then none
  else if is_xml body then
    match (strcasestr (c_string body) "<password".toList).or
        (strcasestr (c_string body) "_password>".toList) with
    | none => none
    | some value =>
      match strchr value '>' with
      | none => none
      | some p => field_value lib true (p.drop 1) (length_until (p.drop 1) "</".toList)
  else
    match strcasestr (c_string body) "password".toList with
    | none => none
    | some value =>
      match strchr value '=' with
      | none => none
      | some p => field_value lib false (p.drop 1) ((p.drop 1).takeWhile (· != '&')).length

end Form

end Ocserv

import Ocserv.Auth.Plain

/-!
# The password tool

`ocpasswd` sets the password of a user in the password file, deletes a user, and locks and
unlocks one.  Each operation reads the file line by line and writes a new one, which then takes the
place of the old one.  A line is a record of the user whose name stands before its first colon;
lines without a colon are left out.
-/

namespace Ocserv

namespace Ocpasswd

open Lines (lines)
open Plain (c_string)

/-- The end of a line. -/
def is_newline (c : Char) : Bool := c == '\n'

/-- A text that can be a field of a record. -/
def Field (s : CStr) : Prop := ':' ∉ s ∧ '\n' ∉ s ∧ '\x00' ∉ s

instance (s : CStr) : Decidable (Field s) := inferInstanceAs (Decidable (_ ∧ _))

/-- The part of the file system the tool works on. -/
structure Files where
  /-- the password file, if there is one -/
  passwd : Option (List Char) := none
  /-- the temporary file exists -/
  locked : Bool := false
  /-- the temporary file can be written, and can take the place of the password file -/
  writable : Bool := true
deriving DecidableEq, Repr

def Files.text (files : Files) : List Char := files.passwd.getD []

/-- What the tool gets from the libraries. -/
structure Env where
  gnutls_rnd : Option (List UInt8)
  crypt : CStr → CStr → Option CStr
  /-- a hash is a text for a password file -/
  crypt_field : ∀ {passwd salt hash}, crypt passwd salt = some hash → Field hash

inductive Op where
  | set (groupname : Option CStr) (passwd : CStr)
  | delete
  | lock
  | unlock
deriving DecidableEq, Repr

/-! ## Lines -/

/-- `strchr (s, ':')`: what stands before the colon, and what stands behind it. -/
def cut (s : List Char) : Option (List Char × List Char) :=
  if ':' ∈ c_string s then some (s.takeWhile (· != ':'), (s.dropWhile (· != ':')).drop 1) else none

/-- The name of the user of a line. -/
def user_field (line : List Char) : Option CStr := (cut line).map Prod.fst

/-- What is written for a line; `edit` is what is written for one of the user. -/
def edit_line (username : CStr) (edit : List Char → List Char) (line : List Char) : List Char :=
  match user_field line with
  | none => []
  | some user => if user = username then edit line else line

/-- The loop that the operations share. -/
def edit_lines (username : CStr) (edit : List Char → List Char) (text : List Char) : List Char :=
  (lines is_newline text).flatMap (edit_line username edit)

/-- The two parts of a line: up to its second colon, and from there on. -/
def split_hash (line : List Char) : Option (List Char × List Char) :=
  match cut line with
  | none => none
  | some (user, rest) =>
    match cut rest with
    | none => none
    | some (groups, p) => some (user ++ ':' :: (groups ++ [':']), p)

/-! ## Operations -/

def alphabet : List Char :=
  "0123456789abcdefghijklmnopqrstuvwxyzABCDEFGHIJKLMNOPQRSTUVWXYZ./".toList

def salt (method : Char) (nonce : List UInt8) : CStr :=
  '$' :: method :: '$' :: (nonce.map fun b => alphabet.getD (b.toNat % 64) '0') ++ ['$']

/-- The hash of the password: SHA-2 if there is one, and MD5 otherwise. -/
def crypt_passwd (env : Env) (passwd : CStr) : Option CStr :=
  match env.gnutls_rnd with
  | none => none
  | some nonce =>
    match env.crypt passwd (salt '5' nonce) with
    | none => env.crypt passwd (salt '1' nonce)
    | some cr_passwd => some cr_passwd

/-- A record as it is written. -/
def record (username groupname hash : CStr) : List Char :=
  username ++ ':' :: groupname ++ ':' :: hash ++ ['\n']

/-- What `crypt_int` writes: each line of the user is replaced, and without one a record is
appended. -/
def set_text (username groupname hash : CStr) (text : List Char) : List Char :=
  edit_lines username (fun _ => record username groupname hash) text ++
    if (lines is_newline text).any fun line => user_field line == some username then []
    else record username groupname hash

def delete_text (username : CStr) (text : List Char) : List Char :=
  edit_lines username (fun _ => []) text

def lock_line (line : List Char) : List Char :=
  match split_hash line with
  | none => []
  | some (front, p) => if p.head? = some '!' then line else front ++ '!' :: p

def lock_text (username : CStr) (text : List Char) : List Char :=
  edit_lines username lock_line text

def unlock_line (line : List Char) : List Char :=
  match split_hash line with
  | none => []
  | some (front, p) => if p.head? = some '!' then front ++ p.tail else front ++ p

def unlock_text (username : CStr) (text : List Char) : List Char :=
  edit_lines username unlock_line text

/-- The new text takes the place of the password file. -/
def replace (files : Files) (text : List Char) : Option Files :=
  if files.locked ∨ ¬ files.writable then none else some { files with passwd := some text }

def crypt_int (env : Env) (files : Files) (username groupname passwd : CStr) : Option Files :=
  match crypt_passwd env passwd with
  | none => none
  | some cr_passwd =>
    -- a file that does not exist is written from nothing
    replace files (set_text username groupname cr_passwd files.text)

/-- The operations that need a file. -/
def edit_file (files : Files) (edit : List Char → List Char) : Option Files :=
  match files.passwd with
  | none => none
  | some text => replace files (edit text)

def delete_user (files : Files) (username : CStr) : Option Files :=
  edit_file files (delete_text username)

def lock_user (files : Files) (username : CStr) : Option Files :=
  edit_file files (lock_text username)

def unlock_user (files : Files) (username : CStr) : Option Files :=
  edit_file files (unlock_text username)

/-- The files after the operation; without a result the program has ended with an error. -/
def ocpasswd (env : Env) (files : Files) (username : CStr) : Op → Option Files
  | .set groupname passwd => crypt_int env files username (groupname.getD ['*']) passwd
  | .delete => delete_user files username
  | .lock => lock_user files username
  | .unlock => unlock_user files username

end Ocpasswd

end Ocserv

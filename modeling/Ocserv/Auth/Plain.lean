import Ocserv.Lib.Inet
import Ocserv.Lib.Lines
import Ocserv.SecMod.Auth
import Mathlib.Data.List.DropRight

/-!
# Authentication with a password file

The module of `auth/plain.c`.  The password file has a line `user:groups:hash` for each user.
`plain_auth_init` looks for the line of the user, and `plain_auth_pass` checks the passwords
that are submitted: the first one against the hash, and when one-time passwords are configured a
later one against the file of `oath_authenticate_usersfile`.

`crypt` and the one-time password check are parameters of each call.
-/

namespace Ocserv

open Inet (isSpace)
open SecMod (MAX_GROUPS)

def ERR_AUTH_FAIL : Int := -3
def MAX_PASSWORD_TRIES : Nat := 3

def pass_msg_failed : String := "Login failed.\nPlease enter your password."
def pass_msg_otp : String := "Please enter your OTP password."

namespace Plain

def MAX_CPASS_SIZE : Nat := 128

/-- `plain_cfg_st`: the names of the two files. -/
structure PlainCfg where
  passwd : Option CStr := none
  otp_file : Option CStr := none
deriving DecidableEq, Repr

/-- `plain_st`. -/
structure PlainSt where
  username : CStr
  cpass : CStr := []
  dummy_salt : CStr := []
  groupnames : List CStr := []
  pass_msg : Option String := none
  /-- an `unsigned int` -/
  retries : Nat := 0
  unknown_user : Bool := false
  config : PlainCfg
deriving DecidableEq, Repr

/-- What one call gets from outside. -/
structure PlainEnv where
  /-- the contents of a file that can be opened -/
  fopen : CStr → Option (List Char)
  crypt : CStr → CStr → Option CStr
  /-- whether `oath_authenticate_usersfile` returns `OATH_OK` -/
  oath_ok : CStr → CStr → CStr → Bool

/-! ## Groups -/

/-- The text without its trailing white space. -/
def strip_end (text : CStr) : CStr := text.rdropWhile isSpace

/-- What is left of the last element: from its last blank on backwards, white space is
removed. -/
def strip_last (text : CStr) : CStr :=
  match text.rdropWhile (· != ' ') with
  | [] => text
  | c :: l => (c :: l).rdropWhile isSpace

/-- The loop of `break_group_list`: `p` is what is left of the text. -/
def break_loop : Nat → CStr → List CStr → List CStr
  | 0, _, broken_text => broken_text
  | fuel + 1, p, broken_text =>
    match p.dropWhile (· != ',') with
    | [] =>
      if (strip_last p).length = 1 then broken_text else broken_text ++ [strip_last p]
    | _ :: rest =>
      -- the length is taken before the white space is removed
      let broken_text :=
        if (p.takeWhile (· != ',')).length = 1 then broken_text
        else broken_text ++ [strip_end (p.takeWhile (· != ','))]
      if broken_text.length < MAX_GROUPS then
        break_loop fuel (rest.dropWhile isSpace) broken_text
      else broken_text

def break_group_list (text : CStr) : List CStr := break_loop (text.length + 1) text []

/-! ## The password file -/

/-- `strsep (&sp, ":")`: the token, and what `sp` points to afterwards. -/
def strsep : Option CStr → Option CStr × Option CStr
  | none => (none, none)
  | some s =>
    (some (s.takeWhile (· != ':')),
      match s.dropWhile (· != ':') with
      | [] => none
      | _ :: rest => some rest)

/-- Remove one character from the end. -/
def chop (c : Char) (line : CStr) : CStr := if line.getLast? = some c then line.dropLast else line

/-- The string that `fgets` has left in the buffer. -/
def c_string (line : List Char) : CStr := line.takeWhile (· != '\x00')

/-- The string without the end of the line. -/
def line_text (line : List Char) : CStr := chop '\r' (chop '\n' (c_string line))

/-- The characters that one call of `fgets` reads at most. -/
def LINE_SIZE : Nat := 510

/-- The loop body of `read_auth_pass`, and whether it is the last one. -/
def read_line (pctx : PlainSt) (line : List Char) : PlainSt × Bool :=
  if (c_string line).length ≤ 4 then (pctx, false)
  else
    let user := strsep (some (line_text line))
    if user.1 = some pctx.username then
      let groups := strsep user.2
      match groups.1 with
      | none => (pctx, false)
      | some g =>
        let pctx := { pctx with groupnames := break_group_list g }
        match (strsep groups.2).1 with
        | none => (pctx, false)
        | some hash =>
          ({ pctx with cpass := strlcpy hash MAX_CPASS_SIZE, unknown_user := false }, true)
    else if pctx.dummy_salt = [] then
      -- a salt for the time it takes to check a password of an unknown user
      match (strsep (strsep user.2).2).1 with
      | none => (pctx, false)
      | some hash =>
        if hash.head? = some '$' then
          ({ pctx with dummy_salt := strlcpy hash MAX_CPASS_SIZE }, false)
        else (pctx, false)
    else (pctx, false)

/-- The loop of `read_auth_pass`. -/
def read_lines (pctx : PlainSt) : List (List Char) → PlainSt
  | [] => pctx
  | line :: rest =>
    if (read_line pctx line).2 then (read_line pctx line).1
    else read_lines (read_line pctx line).1 rest

/-- The pieces into which the file is cut. -/
def passwd_lines (file : List Char) : List (List Char) := Lines.pieces (· == '\n') LINE_SIZE file

def read_auth_pass (env : PlainEnv) (pctx : PlainSt) : Option PlainSt :=
  match pctx.config.passwd with
  | none => some pctx
  | some passwd =>
    (env.fopen passwd).map fun file =>
      read_lines { pctx with unknown_user := true } (passwd_lines file)

/-! ## The module -/

def plain_auth_init (env : PlainEnv) (config : PlainCfg) (username : Option CStr) :
    Int × Option PlainSt :=
  match username with
  | none => (ERR_AUTH_FAIL, none)
  | some username =>
    if username = [] then (ERR_AUTH_FAIL, none)
    else
      match read_auth_pass env { username := strlcpy username MAX_USERNAME_SIZE, config } with
      | none => (ERR_AUTH_FAIL, none)
      | some pctx =>
        if pctx.cpass = [] ∧ pctx.unknown_user = false then
          if pctx.config.otp_file = none then (0, some pctx)
          else (ERR_AUTH_CONTINUE, some { pctx with pass_msg := some pass_msg_otp })
        else (ERR_AUTH_CONTINUE, some pctx)

/-- `plain_auth_group`: the result, and the group name. -/
def plain_auth_group (pctx : PlainSt) (suggested : Option CStr) (groupname_size : Nat) :
    Int × CStr :=
  match suggested with
  | none =>
    match pctx.groupnames with
    | [] => (0, [])
    | g :: _ => (0, strlcpy g groupname_size)
  | some suggested =>
    match pctx.groupnames.find? (· == suggested) with
    | none => (-1, [])
    | some g =>
      -- a group without a name is as good as none
      if strlcpy g groupname_size = [] then
        (0, strlcpy (pctx.groupnames.headD []) groupname_size)
      else (0, strlcpy g groupname_size)

/-- The salt for `crypt`. -/
def PlainSt.salt (pctx : PlainSt) : CStr :=
  if pctx.cpass ≠ [] then pctx.cpass
  else if pctx.dummy_salt ≠ [] then pctx.dummy_salt
  else "$5$fakesalt$".toList

/-- The local variable `wrong_pass` of `plain_auth_pass`. -/
def wrong_pass (env : PlainEnv) (pctx : PlainSt) (pass : CStr) : Bool :=
  pctx.unknown_user ||
    match env.crypt pass pctx.salt with
    | none => true
    | some p => pctx.cpass != [] && p != pctx.cpass

def plain_auth_pass (env : PlainEnv) (pctx : PlainSt) (pass : CStr) : PlainSt × Int :=
  if wrong_pass env pctx pass then
    let pctx' := { pctx with retries := (pctx.retries + 1) % 4294967296 }
    if pctx.retries < MAX_PASSWORD_TRIES - 1 then
      ({ pctx' with pass_msg := some pass_msg_failed }, ERR_AUTH_CONTINUE)
    else (pctx', ERR_AUTH_FAIL)
  else
    match pctx.config.otp_file with
    | none => if pctx.cpass = [] then (pctx, ERR_AUTH_FAIL) else (pctx, 0)
    | some otp_file =>
      if pctx.cpass ≠ [] then
        -- the password has just been checked
        ({ pctx with cpass := [], pass_msg := some pass_msg_otp }, ERR_AUTH_CONTINUE)
      else if env.oath_ok otp_file pctx.username pass then (pctx, 0)
      else (pctx, ERR_AUTH_FAIL)

end Plain

end Ocserv

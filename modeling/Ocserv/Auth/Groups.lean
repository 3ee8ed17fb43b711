import Ocserv.Auth.Plain

/-!
# The group of a session

A user may ask for a group.  Each authentication module has its own hook for it: the password file,
RADIUS and OpenID Connect have the groups of the user in their context, PAM and GSSAPI ask the
group database of the system.  A hook returns its result and the name it leaves in the buffer.
-/

namespace Ocserv

namespace Groups

open SecMod (MAX_GROUPS)

/-- The user and group databases of the system. -/
structure UnixDb where
  /-- the main group of a user -/
  getpwnam : CStr → Option Nat
  /-- all groups of a user with this main group -/
  groups : CStr → Nat → List Nat
  /-- whether the groups of a user can be read at all -/
  readable : CStr → Bool
  /-- the name of a group -/
  getgrgid : Nat → Option CStr

/-- `getgrouplist` with room for `MAX_GROUPS` groups: their number, unless there are more or
they cannot be read, and the groups. -/
def getgrouplist (db : UnixDb) (username : CStr) (gid : Nat) : Int × List Nat :=
  if db.readable username && (db.groups username gid).length ≤ MAX_GROUPS then
    ((db.groups username gid).length, db.groups username gid)
  else (-1, [])

/-- The loop over the groups: the name is copied when it is the suggested one. -/
def find_group (db : UnixDb) (suggested : CStr) (groups : List Nat) (groupname_size : Nat) :
    Option CStr :=
  (groups.find? fun gid => db.getgrgid gid == some suggested).map fun _ =>
    strlcpy suggested groupname_size

def get_user_auth_group (db : UnixDb) (username : CStr) (suggested : Option CStr)
    (groupname_size : Nat) : Int × CStr :=
  match db.getpwnam username with
  | none => (0, [])
  | some pw_gid =>
    match suggested with
    | none => (0, ((db.getgrgid pw_gid).map fun name => strlcpy name groupname_size).getD [])
    | some suggested =>
      if (getgrouplist db username pw_gid).1 ≤ 0 then (0, [])
      else
        match find_group db suggested (getgrouplist db username pw_gid).2 groupname_size with
        | none => (-1, [])
        | some groupname => (0, groupname)

def radius_auth_group (groupnames : List CStr) (suggested : Option CStr) (groupname_size : Nat) :
    Int × CStr :=
  match suggested with
  | some suggested =>
    match groupnames.find? (· == suggested) with
    | some g => (0, strlcpy g groupname_size)
    | none => (-1, [])
  | none =>
    match groupnames with
    | [] => (0, [])
    | g :: _ => (0, strlcpy g groupname_size)

/-- Without a suggestion no group is chosen on behalf of the user. -/
def oidc_auth_group (groups : List CStr) (suggested : Option CStr) (groupname_size : Nat) :
    Int × CStr :=
  match suggested with
  | none => (0, [])
  | some suggested =>
    match groups.find? (· == suggested) with
    | some g => (0, strlcpy g groupname_size)
    | none => (-1, [])

/-- The modules with a group hook, each with what its hook reads of its context. -/
inductive GroupHook where
  | plain (pctx : Plain.PlainSt)
  | radius (groupnames : List CStr)
  | oidc (groups : List CStr)
  | pam (username : CStr)
  | gssapi (username : CStr)

def auth_group (db : UnixDb) : GroupHook → Option CStr → Nat → Int × CStr
  | .plain pctx => Plain.plain_auth_group pctx
  | .radius groupnames => radius_auth_group groupnames
  | .oidc groups => oidc_auth_group groups
  | .pam username => get_user_auth_group db username
  | .gssapi username => get_user_auth_group db username

end Groups

end Ocserv

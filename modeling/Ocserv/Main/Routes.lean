import Ocserv.Proofs.Route

/-!
# The routes of a client

The routes of the main configuration and of the files for groups and users are normalised one
by one.  Main completes the routes of a user from the configuration of the virtual host, and
the worker sends them to the client unless one of them says that all traffic is to take the
tunnel.
-/

namespace Ocserv

/-! ## Completing the routes of a user -/

/-- `GroupCfgSt`, as far as it is about routes; an empty list is a null pointer. -/
structure UserRoutes where
  routes : List CStr := []
  no_routes : List CStr := []
  iroutes : List CStr := []
deriving DecidableEq, Repr

/-- The configuration of a virtual host, as far as it is about routes. -/
structure VhostRoutes where
  known_iroutes : List CStr := []
  append_routes : Bool := false
  routes : List CStr := []
  no_routes : List CStr := []

namespace VhostRoutes

/-- The known routes of others. -/
def others (vhost : VhostRoutes) (gc : UserRoutes) : List CStr :=
  vhost.known_iroutes.filter fun route => !gc.iroutes.contains route

/-- The function `append_routes`. -/
def append (vhost : VhostRoutes) (gc : UserRoutes) : UserRoutes :=
  if vhost.known_iroutes ≠ [] ∨ vhost.append_routes then
    let gc := { gc with routes := gc.routes ++ vhost.others gc }
    if vhost.append_routes then
      let gc := { gc with routes := gc.routes ++ vhost.routes }
      if vhost.no_routes = [] then gc
      else { gc with no_routes := gc.no_routes ++ vhost.no_routes }
    else gc
  else gc

/-- `apply_default_config`, as far as it is about routes. -/
def apply_default_config (vhost : VhostRoutes) (gc : UserRoutes) : UserRoutes :=
  let gc := if gc.routes = [] then { gc with routes := vhost.routes } else gc
  let gc := vhost.append gc
  if gc.no_routes = [] then { gc with no_routes := vhost.no_routes } else gc

/-- A user's own list, with the global one added if that is asked for, or else the global one. -/
def completed (vhost : VhostRoutes) (own between global : List CStr) : List CStr :=
  if own = [] then global ++ between
  else own ++ between ++ if vhost.append_routes then global else []

/-- What the routes of a user are to be. -/
def intended (vhost : VhostRoutes) (gc : UserRoutes) : UserRoutes :=
  { gc with
    routes := vhost.completed gc.routes (vhost.others gc) vhost.routes
    no_routes := vhost.completed gc.no_routes [] vhost.no_routes }

/-- The known routes are appended whether or not there are any. -/
theorem append_routes_eq (vhost : VhostRoutes) (gc : UserRoutes) :
    vhost.append gc =
      { gc with
        routes := gc.routes ++ vhost.others gc ++ if vhost.append_routes then vhost.routes else []
        no_routes := gc.no_routes ++ if vhost.append_routes then vhost.no_routes else [] } := by
  unfold append
  cases happ : vhost.append_routes with
  | true =>
    by_cases hno : vhost.no_routes = [] <;> simp [hno]
  | false =>
    by_cases hknown : vhost.known_iroutes = []
    · simp [hknown, others]
    · simp [hknown]

/-- What is appended to the routes is appended to the global ones too; the other list takes
the global one only afterwards. -/
theorem apply_default_config_eq (vhost : VhostRoutes) (gc : UserRoutes) :
    vhost.apply_default_config gc =
      { vhost.intended gc with
        routes := (if gc.routes = [] then vhost.routes else gc.routes) ++ vhost.others gc ++
          if vhost.append_routes then vhost.routes else [] } := by
  simp only [apply_default_config, append_routes_eq]
  by_cases hown : gc.routes = [] <;> by_cases hno : gc.no_routes = [] <;>
    cases happ : vhost.append_routes <;> simp [happ, hown, hno, intended, completed, others]

/-- The routes are as intended unless the global ones have been filled in and are then
appended again. -/
theorem apply_default_config_routes_iff (vhost : VhostRoutes) (gc : UserRoutes) :
    vhost.apply_default_config gc = vhost.intended gc ↔
      (gc.routes = [] → vhost.append_routes = true → vhost.routes = []) := by
  rw [apply_default_config_eq]
  simp only [intended, UserRoutes.mk.injEq, and_true, completed]
  by_cases hown : gc.routes = []
  · cases happ : vhost.append_routes <;> simp [hown]
  · simp [hown]

/-- A user without routes gets the global ones twice. -/
theorem apply_default_config_routes_twice :
    let vhost : VhostRoutes := { append_routes := true, routes := ["10.0.0.0/255.0.0.0".toList] }
    (vhost.apply_default_config {}).routes = vhost.routes ++ vhost.routes ∧
      vhost.apply_default_config {} ≠ vhost.intended {} := by
  decide

end VhostRoutes

/-! ## All traffic -/

/-- The texts that are taken for the default route. -/
def is_default_route (route : CStr) : Bool :=
  route == "default".toList || route == "0.0.0.0/0".toList

/-- The loop of `check_cfg` over the routes; `done` are those before.  The default route leaves
no routes, `none` says that the server exits. -/
def check_cfg_routes (done : List CStr) : List CStr → Option (List CStr)
  | [] => some done
  | line :: lines =>
    (ip_route_sanity_check line).bind fun route =>
      if is_default_route route then some [] else check_cfg_routes (done ++ [route]) lines

/-- `run_group_cfg_sanity_checks` for one of its three lists, and `append_iroutes_from_file`. -/
def run_group_cfg_sanity_checks (lines : List CStr) : Option (List CStr) :=
  lines.mapM ip_route_sanity_check

def check_if_default_route (routes : List CStr) : Bool := routes.any is_default_route

/-- The routes that `connect_handler` sends. -/
def split_routes (routes : List CStr) : List CStr :=
  if check_if_default_route routes then [] else routes

/-- The lines that the routes of a user are made of: those of the main configuration, those of
the files for the group or the user, and the routes to the networks of all users. -/
structure RouteLines where
  main : List CStr := []
  own : List CStr := []
  iroutes : List CStr := []
  known_iroutes : List CStr := []
  append_routes : Bool := false

/-- A route after the check. -/
def checked (line : CStr) : CStr := (ip_route_sanity_check line).getD line

namespace RouteLines

/-- What the client is sent. -/
def sent (l : RouteLines) : Option (List CStr) := do
  let routes ← check_cfg_routes [] l.main
  let known_iroutes ← run_group_cfg_sanity_checks l.known_iroutes
  let own ← run_group_cfg_sanity_checks l.own
  let iroutes ← run_group_cfg_sanity_checks l.iroutes
  let vhost : VhostRoutes := { known_iroutes, append_routes := l.append_routes, routes }
  return split_routes (vhost.apply_default_config { routes := own, iroutes }).routes

/-- The lines for the networks of others. -/
def others (l : RouteLines) : List CStr :=
  l.known_iroutes.filter fun line => !(l.iroutes.map checked).contains (checked line)

/-- The lines that are meant for the client. -/
def in_force (l : RouteLines) : List CStr :=
  (if l.own = [] then l.main else l.own) ++ l.others ++ if l.append_routes then l.main else []

/-- Every line is accepted. -/
def Accepted (l : RouteLines) : Prop :=
  ∀ line ∈ l.main ++ l.own ++ l.iroutes ++ l.known_iroutes, (ip_route_sanity_check line).isSome

end RouteLines

section Accepted

variable {lines : List CStr}

end Accepted

namespace RouteLines

variable {l : RouteLines}

end RouteLines

end Ocserv

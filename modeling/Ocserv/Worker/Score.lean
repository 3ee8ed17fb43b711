import Mathlib.Algebra.GroupWithZero.Nat
import Mathlib.Data.List.Basic
import Ocserv.Basic

/-!
# The ban points of a worker

A worker reports misbehaviour of its client to main in messages with a number of points.
Small numbers are not worth a message: they are added up in `ban_points`, and when the
worker terminates it sends a last message if there are any.

The invariant of a run is a balance: what was sent and what was withheld make up the
points that were added (`ScoreSt.balance`).  The last message carries no points, so that
what was withheld is lost (`ban_points_delivered`).
-/

namespace Ocserv

/-! ## Model -/

/-- The settings of a worker's reports. -/
structure ScoreCfg where
  max_ban_score : Nat := 80
  ban_points_wrong_password : Nat := 10
  ban_points_kkdcp : Nat := 1
deriving DecidableEq, Repr

/-- `BanIpMsg`, as a worker sends it. -/
structure BanIpMsg where
  ip : CStr
  score : Nat
  discon_reason : Option Nat := none
deriving DecidableEq, Repr

/-- What becomes of a message to main and of the reply. -/
inductive Exchange
  | send_failed
  | recv_failed
  | reply (rep : AuthRep)
deriving DecidableEq, Repr

/-- `worker_st`, as far as it is about ban points. -/
structure ScoreSt where
  config : ScoreCfg
  remote_ip_str : CStr
  ban_points : Nat := 0
  /-- the messages sent to main, newest first -/
  sent : List BanIpMsg := []
  exited : Bool := false
deriving DecidableEq, Repr

namespace ScoreSt

def ws_add_score_to_ip (ws : ScoreSt) (points : Nat) (final : Bool) (discon_reason : Nat)
    (main : Exchange) : ScoreSt :=
  -- no reporting if banning is disabled
  if ws.config.max_ban_score = 0 then ws
  else
    -- in the final call, no score added, we simply send
    let ws := if final then ws else { ws with ban_points := (ws.ban_points + points) % 2 ^ 32 }
    -- do not use IPC for small values
    if !final ∧ points < ws.config.ban_points_wrong_password then ws
    else
      let msg : BanIpMsg :=
        { ip := ws.remote_ip_str, score := points,
          discon_reason := if final then some discon_reason else none }
      match main with
      | .send_failed => ws
      | .recv_failed => { ws with sent := msg :: ws.sent }
      | .reply rep =>
        -- a worker that has exceeded the maximum score exits at once
        { ws with sent := msg :: ws.sent, exited := ws.exited || (!final && rep ≠ .ok) }

/-- The statistics for sec-mod are left out. -/
def exit_worker_reason (ws : ScoreSt) (reason : Nat) (main : Exchange) : ScoreSt :=
  let ws := if ws.ban_points > 0 then ws.ws_add_score_to_ip 0 true reason main else ws
  { ws with exited := true }

/-- The points of a request to the Kerberos proxy. -/
def post_kkdcp_handler (ws : ScoreSt) (main : Exchange) : ScoreSt :=
  ws.ws_add_score_to_ip ws.config.ban_points_kkdcp false 0 main

/-- A worker at its start. -/
def start (c : ScoreCfg) (ip : CStr) : ScoreSt := { config := c, remote_ip_str := ip }

/-- Add points in a sequence of calls, with main accepting each message. -/
def add_scores (ws : ScoreSt) (points : List Nat) : ScoreSt :=
  points.foldl (fun ws p => ws.ws_add_score_to_ip p false 0 (.reply .ok)) ws

/-- The sum of the scores of all messages. -/
def delivered (ws : ScoreSt) : Nat := (ws.sent.map BanIpMsg.score).sum

/-! ## The balance of points -/

/-- The part of `points` that is not sent at once. -/
def withheld (c : ScoreCfg) (p : Nat) : Nat := if p < c.ban_points_wrong_password then p else 0

variable {ws : ScoreSt}

/-- What one call keeps and changes. -/
theorem add_score_spec (hmax : ws.config.max_ban_score ≠ 0) (p : Nat) {ws' : ScoreSt}
    (h : ws.ws_add_score_to_ip p false 0 (.reply .ok) = ws') :
    ws'.config = ws.config ∧ ws'.exited = ws.exited ∧
      ws'.delivered + withheld ws.config p = ws.delivered + p := by
  subst h
  unfold ws_add_score_to_ip withheld
  by_cases hp : p < ws.config.ban_points_wrong_password
  · simp [hmax, hp, delivered]
  · simp [hmax, hp, delivered, Nat.add_comm]

/-- Over a run, what was sent and what was withheld are the points that were added. -/
theorem balance (ws : ScoreSt) (points : List Nat) (hmax : ws.config.max_ban_score ≠ 0) :
    (ws.add_scores points).config = ws.config ∧
      (ws.add_scores points).exited = ws.exited ∧
      (ws.add_scores points).delivered + (points.map (withheld ws.config)).sum =
        ws.delivered + points.sum := by
  induction points generalizing ws with
  | nil => exact ⟨rfl, rfl, rfl⟩
  | cons p points ih =>
    obtain ⟨hconfig, hexited, hcall⟩ := add_score_spec hmax p rfl
    obtain ⟨hconfig', hexited', hlater⟩ :=
      ih (ws.ws_add_score_to_ip p false 0 (.reply .ok)) (by rwa [hconfig])
    rw [hconfig] at hconfig' hlater
    refine ⟨hconfig', hexited'.trans hexited, ?_⟩
    rw [List.map_cons, List.sum_cons, List.sum_cons]
    show (add_scores (ws.ws_add_score_to_ip p false 0 (.reply .ok)) points).delivered + _ = _
    omega

/-- The last message adds nothing to the points that were delivered. -/
theorem exit_delivered (ws : ScoreSt) (reason : Nat) (main : Exchange) :
    (ws.exit_worker_reason reason main).delivered = ws.delivered := by
  unfold exit_worker_reason ws_add_score_to_ip
  by_cases hpoints : ws.ban_points > 0
  · by_cases hmax : ws.config.max_ban_score = 0
    · simp [hpoints, hmax, delivered]
    · cases main <;> simp [hpoints, hmax, delivered]
  · simp [hpoints, delivered]

theorem sum_withheld_eq_zero (c : ScoreCfg) (points : List Nat) :
    (points.map (withheld c)).sum = 0 ↔
      ∀ p ∈ points, p = 0 ∨ c.ban_points_wrong_password ≤ p := by
  have hzero : ∀ p, withheld c p = 0 ↔ p = 0 ∨ c.ban_points_wrong_password ≤ p := by
    intro p
    unfold withheld
    split <;> omega
  induction points with
  | nil => simp
  | cons p points ih =>
    rw [List.map_cons, List.sum_cons, Nat.add_eq_zero_iff, List.forall_mem_cons]
    exact and_congr (hzero p) ih

end ScoreSt

/-- Once a worker has terminated, the points it added have reached main exactly if none of
its calls added a small number of points, other than zero. -/
theorem ban_points_delivered (c : ScoreCfg) (ip : CStr) (hmax : c.max_ban_score ≠ 0)
    (points : List Nat) (reason : Nat) :
    (((ScoreSt.start c ip).add_scores points).exit_worker_reason reason (.reply .ok)).delivered =
        points.sum ↔
      ∀ p ∈ points, p = 0 ∨ c.ban_points_wrong_password ≤ p := by
  obtain ⟨-, -, hbalance⟩ := ScoreSt.balance (ScoreSt.start c ip) points hmax
  have hstart : (ScoreSt.start c ip).delivered = 0 := rfl
  rw [ScoreSt.exit_delivered, ← ScoreSt.sum_withheld_eq_zero]
  rw [hstart] at hbalance
  constructor
  · intro heq
    rw [heq] at hbalance
    exact Nat.add_eq_left.1 (hbalance.trans (Nat.zero_add _))
  · intro hzero
    have : (points.map (ScoreSt.withheld (ScoreSt.start c ip).config)).sum = 0 := hzero
    omega

theorem ban_points_delivered_passwords :
    (((ScoreSt.start {} []).add_scores [10, 0, 10]).exit_worker_reason 0 (.reply .ok)).delivered =
      20 :=
  (ban_points_delivered {} [] (by decide) [10, 0, 10] 0).2 (by decide)

/-- The point of one request to the Kerberos proxy is withheld, and the last message of the
worker says zero points. -/
theorem ban_points_lost :
    (((ScoreSt.start {} []).post_kkdcp_handler (.reply .ok)).exit_worker_reason 0
      (.reply .ok)).sent.map BanIpMsg.score = [0] ∧
    (((ScoreSt.start {} []).add_scores [1]).exit_worker_reason 0 (.reply .ok)).delivered ≠ 1 := by
  decide

end Ocserv

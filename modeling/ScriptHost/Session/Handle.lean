import ScriptHost.Mode
import ScriptHost.Report.Basic
import ScriptHost.Session.State

/-!
# What is known of a session

* `Outcome`: how a session ended.
* `Handle`: the state of a session, those it went through, and its outcome.
* `Handle.advance`: go on to a state, if it may follow.
* `Handle.finish`: record the outcome, once.
-/

namespace ScriptHost

/-- How a session ended. -/
inductive Outcome where
  | completed
  | interrupted
  | failed (r : Report)
  deriving DecidableEq, Repr, Inhabited

namespace Outcome

/-- The state in which a session has this outcome. -/
def state : Outcome → Session.State
  | .completed => .completed
  | .interrupted => .interrupted
  | .failed _ => .failed

/-- The script came to its end. -/
def isCompleted : Outcome → Bool
  | .completed => true
  | _ => false

/-- The report of a failure. -/
def report? : Outcome → Option Report
  | .failed r => some r
  | _ => none

/-- The number with which the command line tells an outcome; without one it is seven. -/
def exitCode : Option Outcome → Nat
  | some .completed => 0
  | some .interrupted => 6
  | some (.failed r) =>
    match r.kind with
    | .compile => 3
    | .runtime => 4
    | .setup => 5
  | none => 7

/-- The outcome of a session whose work ended without one. -/
def aborted : Outcome := .failed (Report.ofTexts .runtime ["session worker aborted"])

end Outcome

namespace Session

/-- What is known of a session. -/
structure Handle where
  mode : Mode := .restricted
  state : State := .created
  outcome : Option Outcome := none
  /-- The states so far, the first one first. -/
  history : List State := [.created]
  deriving DecidableEq, Repr, Inhabited

namespace Handle

/-- Go on to a state, if it may follow. -/
def advance (h : Handle) (next : State) : Bool × Handle :=
  if h.state.canBecome next then (true, { h with state := next, history := h.history ++ [next] })
  else (false, h)

/-- Record the outcome, unless there is one, and go on to its state. -/
def finish (h : Handle) (o : Outcome) : Bool × Handle :=
  if h.outcome.isSome then (false, h) else { h with outcome := some o }.advance o.state

/-- The session has ended and given back all it held. -/
def isFinished (h : Handle) : Bool := h.state == .tornDown

end Handle

end Session

end ScriptHost

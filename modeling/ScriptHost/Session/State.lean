/-!
# The states of a session

* `State`: the stages that a session goes through.
* `State.canBecome`: which stage may follow which. Nothing follows the last one, and every other one may be
  followed by it.
-/

namespace ScriptHost.Session

/-- A stage of a session. -/
inductive State where
  | created
  | compiling
  | running
  | completed
  | interrupted
  | failed
  | tornDown
  deriving DecidableEq, Repr, Inhabited

namespace State

/-- All states, in the order in which they can come. -/
def all : List State := [created, compiling, running, completed, interrupted, failed, tornDown]

/-- The word for a state. -/
def display : State → String
  | .created => "created"
  | .compiling => "compiling"
  | .running => "running"
  | .completed => "completed"
  | .interrupted => "interrupted"
  | .failed => "failed"
  | .tornDown => "torn down"

/-- A state may be followed by another. -/
def canBecome : State → State → Bool
  | .tornDown, _ => false
  | _, .tornDown => true
  | .created, .compiling | .created, .failed => true
  | .compiling, .running | .compiling, .failed | .compiling, .interrupted => true
  | .running, .completed | .running, .interrupted | .running, .failed => true
  | _, _ => false

/-- A state that says how a run ended. -/
def isOutcome : State → Bool
  | .completed | .interrupted | .failed => true
  | _ => false

end State

end ScriptHost.Session

import ScriptHost.Stream.Pipe
import ScriptHost.Stream.Writer

/-!
# Terminals

A terminal has an input that lines are delivered to, an output, and a place for one session at a time.

* `Delivery.ofLine`: a line is a control sequence, if it begins with a circumflex and goes on; else it is text.
* `Terminal`: a terminal and the session that holds it.
-/

namespace ScriptHost

/-- What a line delivers. -/
inductive Delivery where
  | text (s : String)
  | control (code : Char)
  deriving DecidableEq, Repr

/-- What a line delivers: a circumflex and one more character make a control sequence, whatever follows. -/
def Delivery.ofLine (line : String) : Delivery :=
  match line.toList with
  | '^' :: code :: _ => .control code
  | _ => .text line

/-- What a session may change of its terminal. -/
structure Hooks where
  /-- Only the owner may end the session. -/
  isProtected : Bool := false
  /-- Control sequences are delivered as text. -/
  rawInput : Bool := false
  deriving DecidableEq, Repr, Inhabited

/-- A terminal. -/
structure Terminal where
  owner : Option String := none
  /-- The current directory. -/
  dir : String := "/"
  hooks : Hooks := {}
  /-- The session that holds the terminal. -/
  active : Option Nat := none
  input : Pipe := {}
  output : Writer := {}
  deriving Inhabited

namespace Terminal

/-- A session takes the terminal, if it is free. -/
def claim (t : Terminal) (session : Nat) : Bool × Terminal :=
  if t.active.isSome then (false, t) else (true, { t with active := some session })

/-- A session gives the terminal back, if it holds it. -/
def release (t : Terminal) (session : Nat) : Terminal :=
  if t.active = some session then { t with active := none } else t

/-- Undo all changes that sessions made. -/
def clearHooks (t : Terminal) : Terminal := { t with hooks := {} }

/-- Put a line into the input. -/
def pushLine (t : Terminal) (line : String) : Terminal :=
  { t with input := t.input.push (Bytes.ofString (line ++ "\n")) }

/-- The session that ends when a requester asks for it: the one that holds the terminal, unless it is
protected and the requester is not the owner. -/
def target? (t : Terminal) (requester : Option String) : Option Nat :=
  if t.hooks.isProtected && requester != t.owner then none else t.active

end Terminal

end ScriptHost

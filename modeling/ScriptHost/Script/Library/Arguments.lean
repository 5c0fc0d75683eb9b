import ScriptHost.Script.Act

/-!
# Arguments of built-in functions

Arguments are numbered from one. Each function here takes an argument as a certain kind of value, or fails
with the message about a bad argument.
-/

namespace ScriptHost.Script.Library

variable {σ α : Type}

/-- The arguments of a call. -/
abbrev Args := Array Value

namespace Args

/-- An argument, `nil` if it is missing. -/
@[inline] def at' (args : Args) (n : Nat) : Value := args.getD (n - 1) .nil

/-- The argument is missing or `nil`. -/
@[inline] def absent (args : Args) (n : Nat) : Bool := (args.at' n).isNil

/-- The word for an argument's kind in a message. -/
def kindName (args : Args) (n : Nat) (h : Heap) : Bytes :=
  if args.size < n then Bytes.ofString "no value" else h.typeNameOf (args.at' n)

/-- Fail because an argument is not of the kind expected. -/
def wrongKind (args : Args) (n : Nat) (expected : String) : Act σ α := fun h s =>
  .raised (.argument n (Bytes.concat
    [Bytes.ofString (expected ++ " expected, got "), args.kindName n h])) h s

/-- An argument that must be there. -/
def any (args : Args) (n : Nat) : Act σ Value :=
  if args.size < n then Act.badArgument n "value expected" else return args.at' n

/-- An argument that must be a table: its number. -/
def table (args : Args) (n : Nat) : Act σ Nat :=
  match args.at' n with
  | .table id => return id
  | _ => args.wrongKind n "table"

/-- An argument that must be a function. -/
def function (args : Args) (n : Nat) : Act σ Value :=
  match args.at' n with
  | .closure i => return .closure i
  | .native f => return .native f
  | _ => args.wrongKind n "function"

/-- An argument that must be an integer, or a text or float that equals one. -/
def integer (args : Args) (n : Nat) : Act σ Int64 :=
  match args.at' n with
  | .int i => return i
  | v =>
    match v.coerceInt? with
    | some i => return i
    | none =>
      if v.toNumber?.isSome then Act.badArgument n "number has no integer representation"
      else args.wrongKind n "number"

/-- An integer argument that may be missing. -/
def integerOr (args : Args) (n : Nat) (default : Int64) : Act σ Int64 :=
  if args.absent n then return default else args.integer n

/-- An argument that must be a number, or a text that writes one. -/
def numberValue (args : Args) (n : Nat) : Act σ Value :=
  match (args.at' n).toNumber? with
  | some v => return v
  | none => args.wrongKind n "number"

/-- An argument that must be a number, as a float. -/
def number (args : Args) (n : Nat) : Act σ Float := do
  return (← args.numberValue n).toFloat?.getD 0

/-- An argument that must be a text or a number, as a text. -/
def text (args : Args) (n : Nat) : Act σ Bytes :=
  match (args.at' n).toText? with
  | some s => return s
  | none => args.wrongKind n "string"

/-- A text argument that may be missing. -/
def textOr (args : Args) (n : Nat) (default : Bytes) : Act σ Bytes :=
  if args.absent n then return default else args.text n

/-- An argument that must be a thread. -/
def thread (args : Args) (n : Nat) : Act σ Nat :=
  match args.at' n with
  | .thread t => return t
  | _ => args.wrongKind n "thread"

/-- The arguments from number `n` on. -/
@[inline] def from' (args : Args) (n : Nat) : Array Value := args.extract (n - 1) args.size

/-- Fail with a message about an argument unless a condition holds. -/
@[inline] def check (cond : Bool) (n : Nat) (message : String) : Act σ Unit :=
  if cond then return () else Act.badArgument n message

end Args

/-- A position given relative to the end, if negative, as one from the start; zero stays, and so does what
lies before the start. -/
def startPosition (pos : Int64) (size : Nat) : Nat :=
  let p := pos.toInt
  if 0 < p then p.toNat
  else if p = 0 then 1
  else if p < -(size : Int) then 1
  else (size + p + 1).toNat

/-- The end of a range, cut to the size; a negative one counts from the end. -/
def endPosition (pos : Int64) (size : Nat) : Nat :=
  let p := pos.toInt
  if (size : Int) < p then size
  else if 0 ≤ p then p.toNat
  else if p < -(size : Int) then 0
  else (size + p + 1).toNat

end ScriptHost.Script.Library

import ScriptHost.Fault
import ScriptHost.Script.Table
import ScriptHost.Script.Code

/-!
# Objects

Values refer to objects by number; the heap holds them.

* `Heap`: tables, functions, variables shared between functions, failures and threads.
* `Heap.metamethod`: what a value's metatable says about an event.
-/

namespace ScriptHost.Script

/-- A function of a script with the variables it shares with others. -/
structure Closure where
  proto : Proto
  upvalues : Array Nat
  deriving Inhabited

/-- A variable that functions share: still in a register of a thread, or on its own. -/
inductive Cell where
  | opened (thread slot : Nat)
  | closed (v : Value)
  deriving Inhabited

/-- The functions that are made while running. -/
inductive BoundKind where
  /-- The step of a search for all matches: text, pattern, place and end of the last match. -/
  | matches
  /-- A thread called like a function. -/
  | wrapped
  deriving DecidableEq, Inhabited

/-- A function made while running and the values it keeps. -/
structure Bound where
  kind : BoundKind
  kept : Array Value
  deriving Inhabited

/-- A failure raised by the host as an object of the script: an ordinary one, or one that only the
host may end. -/
inductive HostFailure where
  | fault (f : Fault)
  | panic (message : String)
  deriving Inhabited

/-- What a thread is doing. -/
inductive ThreadStatus where
  | suspended
  | running
  | normal
  | dead
  deriving DecidableEq, Inhabited

/-- The word for a thread's status. -/
def ThreadStatus.name : ThreadStatus → String
  | .suspended => "suspended"
  | .running => "running"
  | .normal => "normal"
  | .dead => "dead"

/-- All objects. -/
structure Heap where
  tables : Array Table := #[]
  closures : Array Closure := #[]
  cells : Array Cell := #[]
  bounds : Array Bound := #[]
  failures : Array HostFailure := #[]
  threads : Array ThreadStatus := #[]
  /-- The metatable of all strings. -/
  stringMeta : Option Nat := none
  /-- The time in milliseconds. -/
  clock : Nat := 0
  /-- The time when the script began. -/
  started : Nat := 0
  /-- State of the pseudo-random numbers. -/
  seed : UInt64 := 0x9E3779B97F4A7C15
  deriving Inhabited

namespace Heap

/-- The table with a number. -/
@[inline] def table (h : Heap) (id : Nat) : Table := h.tables.getD id default

/-- Change one of some tables. -/
@[noinline] def changeTable (tables : Array Table) (id : Nat) (f : Table → Table) : Array Table :=
  tables.modify id f

/-- File a value in one of some tables. -/
@[noinline] def fileIn (tables : Array Table) (id : Nat) (k v : Value) : Array Table :=
  tables.modify id fun t => t.set k v

/-- Change a table. -/
@[inline] def onTable (h : Heap) (id : Nat) (f : Table → Table) : Heap :=
  { h with tables := changeTable h.tables id f }

/-- A new table. -/
def newTable (h : Heap) (t : Table := {}) : Nat × Heap :=
  (h.tables.size, { h with tables := h.tables.push t })

/-- A new function. -/
def newClosure (h : Heap) (c : Closure) : Nat × Heap :=
  (h.closures.size, { h with closures := h.closures.push c })

/-- A new shared variable. -/
def newCell (h : Heap) (c : Cell) : Nat × Heap := (h.cells.size, { h with cells := h.cells.push c })

/-- A new failure object. -/
def newFailure (h : Heap) (f : HostFailure) : Value × Heap :=
  (.failure h.failures.size, { h with failures := h.failures.push f })

/-- A new function that keeps values. -/
def newBound (h : Heap) (b : Bound) : Value × Heap :=
  (.native (.bound h.bounds.size), { h with bounds := h.bounds.push b })

/-- The metatable of a value. -/
@[inline] def metatable? (h : Heap) : Value → Option Nat
  | .table id => (h.table id).metatable
  | .str _ => h.stringMeta
  | _ => none

/-- What the metatable of a value says about an event, `nil` if it says nothing. The text of a failure
object is a matter of its own. -/
def metamethod (h : Heap) (v : Value) (event : Bytes) : Value :=
  match h.metatable? v with
  | some m => (h.table m).getStr event
  | none => .nil

/-- The word for a value's kind; a table can have its own, in its metatable. -/
def typeNameOf (h : Heap) (v : Value) : Bytes :=
  match v with
  | .table id =>
    match (h.table id).metatable with
    | some m =>
      match (h.table m).getStr (Bytes.ofString "__name") with
      | .str s => s
      | _ => Bytes.ofString v.typeName
    | none => Bytes.ofString v.typeName
  | _ => Bytes.ofString v.typeName

end Heap

end ScriptHost.Script

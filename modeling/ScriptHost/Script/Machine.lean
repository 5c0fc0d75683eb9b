import ScriptHost.Script.Act
import ScriptHost.Script.Naming

/-!
# The state of a running script

A machine holds the objects, the host's state and the activations of the running thread: the one that
executes instructions and below it those that wait for it, the innermost first.

* `Frame`: an activation of a script function. Its registers are a part of the thread's stack.
* `Native`: an activation of a native function that waits for an answer, or of an operation that the
  machine itself began on behalf of an instruction; the latter is no level of a trace.
* `Closing`: variables that are being closed.
* `Machine`: all of it.
-/

namespace ScriptHost.Script

/-- Where the results of an activation go. -/
inductive Finish where
  /-- To the stack from a slot on: as many as wanted, or all. -/
  | results (slot : Nat) (wanted : Option Nat)
  /-- The first one to a slot. -/
  | store (slot : Nat)
  /-- The next instruction is left out unless the first one's truth is `k`. -/
  | test (k : Bool)
  | nothing
  /-- They are the results of the script function that waits for them. -/
  | ret
  /-- To the native activation that waits for them. -/
  | reply
  /-- The first one is the failure to go on with. -/
  | handled
  /-- The variables are closed one by one. -/
  | closed
  /-- The thread ends with them. -/
  | threadEnd
  /-- The thread that was to be ended has ended. -/
  | threadClosed
  /-- The machine stops with them. -/
  | stop
  deriving Inhabited

/-- How an activation of a script function may be named by those it calls. -/
inductive Calls where
  | instruction
  /-- Interrupted between two instructions. -/
  | hook
  /-- The instruction does not call by itself. -/
  | unnamed
  deriving DecidableEq, Inhabited

/-- An activation of a script function. -/
structure Frame where
  proto : Proto
  upvalues : Array Nat
  /-- The slot of the function itself; its registers begin with the next one. -/
  func : Nat
  base : Nat
  /-- The instruction to execute next. -/
  pc : Nat := 0
  /-- How many arguments it was called with, before the extra ones are set aside. -/
  argCount : Nat := 0
  /-- How many extra arguments lie below `func`. -/
  extra : Nat := 0
  finish : Finish
  tail : Bool := false
  calls : Calls := .instruction
  depth : Nat
  yieldable : Bool
  deriving Inhabited

/-- The guard of a protected call. -/
structure Guard where
  handler : Handler
  /-- Whether the hook was on when the call began. -/
  hookOn : Bool
  deriving Inhabited

/-- What a native activation waits for. -/
inductive Pending (σ : Type) where
  | never
  | reply (k : Reply → Heap → σ → Outcome σ (Array Value))
  | resumed (k : Array Value → Heap → σ → Outcome σ (Array Value))
  | woken (k : Unit → Heap → σ → Outcome σ (Array Value))
  deriving Inhabited

/-- An activation of a native function. -/
structure Native (σ : Type) where
  /-- The function; `none` for an operation of the machine itself, which is no level of a trace. -/
  self : Option Value
  /-- The first free slot. -/
  top : Nat
  finish : Finish
  depth : Nat
  yieldable : Bool
  guard : Option Guard := none
  pending : Pending σ := .never
  deriving Inhabited

/-- What happens when variables have been closed. -/
inductive AfterClosing where
  /-- The next instruction. -/
  | resume
  /-- The script function returns. -/
  | ret (vs : Array Value)
  /-- The failed call is answered. -/
  | fail (v : Value)
  /-- The native activation is answered. -/
  | reply (vs : Array Value)
  /-- The termination signal is raised. -/
  | interrupt
  deriving Inhabited

/-- Variables that are being closed: all from a slot up, because of a failure or not. -/
structure Closing where
  level : Nat
  reason : Value
  top : Nat
  depth : Nat
  yieldable : Bool
  after : AfterClosing
  deriving Inhabited

/-- An activation that waits. -/
inductive Activation (σ : Type) where
  | script (f : Frame)
  | native (n : Native σ)
  | closing (c : Closing)
  deriving Inhabited

/-- Why a machine stopped. -/
inductive Stop where
  | returned (vs : Array Value)
  | failed (v : Value)
  /-- Nothing to do for some milliseconds. -/
  | waiting (ms : Nat)
  deriving Inhabited

/-- What a machine does next. -/
inductive Control where
  /-- Execute an instruction. -/
  | execute
  /-- Call a value for the innermost activation. -/
  | enter (f : Value) (args : Array Value) (finish : Finish)
  | raise (v : Value)
  | unwind (v : Value)
  | close
  | answer (r : Reply)
  | stopped (s : Stop)
  deriving Inhabited

/-- A thread that does not run. -/
structure Parked (σ : Type) where
  /-- The function of a thread that has not begun. -/
  start : Option Value := none
  stack : Array Value := #[]
  callers : List (Activation σ) := []
  opened : List (Nat × Nat) := []
  toClose : List Nat := []
  /-- The failure that ended the thread. -/
  failure : Option Value := none
  deriving Inhabited

/-- A running script. -/
structure Machine (σ : Type) where
  heap : Heap
  host : σ
  /-- The functions of the host. -/
  hosts : Array (Array Value → Act σ (Array Value))
  /-- Termination was requested. -/
  interrupted : σ → Bool
  frame : Frame := default
  stack : Array Value := #[]
  /-- The end of the results of the last instruction that gave as many as there were. -/
  top : Nat := 0
  callers : List (Activation σ) := []
  control : Control := .stopped (.returned #[])
  /-- Variables that functions share, by slot, the highest first, with their cells. -/
  opened : List (Nat × Nat) := []
  /-- Slots of variables to be closed, the highest first. -/
  toClose : List Nat := []
  thread : Nat := 0
  parked : Array (Parked σ) := #[{}]
  /-- The threads that wait for the running one. -/
  resumers : List Nat := []
  /-- How often the hook looks for an interrupt; never if zero. -/
  interval : Nat := 0
  countdown : Nat := 0
  hookOn : Bool := true

/-- How deep calls from native functions may nest. -/
def maxDepth : Nat := 200

/-- Beyond this depth not even a failure is handled. -/
def maxHandlerDepth : Nat := 220

/-- How many slots a stack has. -/
def maxSlots : Nat := 1000000

/-- More slots for handling a failure. -/
def spareSlots : Nat := 200

/-- The slots that a native function needs. -/
def nativeSlots : Nat := 20

/-- A level of a trace. -/
inductive Level where
  | script (f : Frame)
  | native (self : Value)

namespace Level

/-- The levels of activations that wait. -/
def ofCallers {σ : Type} (callers : List (Activation σ)) : List Level :=
  callers.filterMap fun
    | .script f => some (.script f)
    | .native n => n.self.map .native
    | .closing _ => none

/-- The instruction that an activation executes. -/
def instruction (f : Frame) : Nat := f.pc - 1

/-- The place in the source, for a script function. -/
def place? : Level → Option (Bytes × Nat)
  | .script f => some (f.proto.source, f.proto.lineAt (instruction f))
  | .native _ => none

/-- The mark of a place at the start of a message. -/
def mark : Level → Bytes
  | l => match l.place? with
    | some (source, line) => Bytes.concat [source, Bytes.ofString (":" ++ toString line ++ ": ")]
    | none => ByteArray.empty

/-- The name of what a level calls. -/
def callee? : Level → Option Naming
  | .script f =>
    match f.calls with
    | .hook => some ⟨"hook", Bytes.ofString "?"⟩
    | .unnamed => none
    | .instruction => f.proto.callee? (instruction f)
  | .native _ => none

/-- The name of the innermost of some levels, as its caller has it. -/
def name? : List Level → Option Naming
  | .script f :: caller :: _ => if f.tail then none else caller.callee?
  | .native _ :: caller :: _ => caller.callee?
  | _ => none

/-- The name that a library gives to a function. -/
def libraryName? : Level → Option String
  | .native (.native (.builtin b)) => b.qualifiedName?
  | _ => none

/-- How a trace speaks of the innermost of some levels. -/
def describe (levels : List Level) : Bytes :=
  match levels with
  | [] => ByteArray.empty
  | l :: _ =>
    match l.libraryName? with
    | some s => Bytes.ofString ("function '" ++ s ++ "'")
    | none =>
      match name? levels, l with
      | some n, _ => Bytes.concat [Bytes.ofString (n.kind ++ " '"), n.name, Bytes.ofString "'"]
      | none, .script f =>
        if f.proto.isChunk then Bytes.ofString "main chunk"
        else Bytes.concat [Bytes.ofString "function <", f.proto.source,
          Bytes.ofString (":" ++ toString f.proto.lineDefined ++ ">")]
      | none, .native _ => Bytes.ofString "?"

/-- The line of a trace for the innermost of some levels. -/
def traceLine (levels : List Level) : Bytes :=
  match levels with
  | [] => ByteArray.empty
  | l :: _ =>
    let place := match l.place? with
      | some (source, line) =>
        if line = 0 then source.append (Bytes.ofString ": in ")
        else source.append (Bytes.ofString (":" ++ toString line ++ ": in "))
      | none => Bytes.ofString "[C]: in "
    let tail := match l with
      | .script f => f.tail
      | .native _ => false
    Bytes.concat [Bytes.ofString "\n\t", place, describe levels,
      if tail then Bytes.ofString "\n\t(...tail calls...)" else ByteArray.empty]

/-- The lines of a trace for each of some levels. -/
def traceLines : List Level → Nat → Bytes
  | _, 0 => ByteArray.empty
  | [], _ => ByteArray.empty
  | l :: rest, n + 1 => (traceLine (l :: rest)).append (traceLines rest n)

/-- How many levels a trace shows at its start. -/
def firstShown : Nat := 10

/-- How many levels a trace shows at its end. -/
def lastShown : Nat := 11

/-- A trace: all levels, or the first and the last ones. -/
def trace (levels : List Level) : Bytes :=
  let count := levels.length
  let header := Bytes.ofString "stack traceback:"
  if count - 1 ≤ firstShown + lastShown then header.append (traceLines levels count)
  else
    let skipped := count - 1 - firstShown - lastShown
    Bytes.concat [header, traceLines levels firstShown,
      Bytes.ofString ("\n\t...\t(skipping " ++ toString skipped ++ " levels)"),
      traceLines (levels.drop (count - lastShown)) lastShown]

end Level

end ScriptHost.Script

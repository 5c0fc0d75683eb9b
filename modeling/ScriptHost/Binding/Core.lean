import ScriptHost.Binding.Function
import ScriptHost.Binding.Text
import ScriptHost.Session.Access

/-!
# Input, output and time

The host functions that every script has: writing, reading in pieces or by lines, sleeping, and asking whether
termination was requested. A function that waits looks for such a request again and again, and fails with the
termination signal when there is one.

* `Core.takeLine`: the first line of what was read.
* `Core.functions`: all of them.
-/

namespace ScriptHost.Core

open ScriptHost.Script Binding

/-- A computation of a session's functions. -/
abbrev Doing (α : Type) : Type := Act Access α

/-- Fail with the termination signal if termination was requested. -/
def checkSignal : Doing Unit := fun h a =>
  if a.isTerminated then .raised (.host .signal) h a else .done () h a

/-- Fail if there is a failure. -/
def orFail : Option IoError → Doing Unit
  | none => return ()
  | some e => Act.raise (.host (.io e))

/-- Write a text to the session's output and flush it. -/
def write (text : String) : Doing (Array Value) := do
  orFail (← Act.withHost fun a => a.write (Bytes.ofString text))
  return #[]

/-- How many bytes are read at once. -/
def fillSize : Nat := 1024

/-- The greatest number of bytes that `read` gives. -/
def maxRead : Nat := 65536

/-- How long a line without an end may grow. -/
def maxLine : Nat := 65536

/-- What an attempt to read more has found. -/
inductive Filled where
  | data
  | ended
  | nothingYet

/-- Read more of the input. -/
def fill : Doing Filled := do
  match ← Act.withHost (·.read fillSize) with
  | .ok b =>
    if b.size = 0 then return .ended
    Act.withHost fun ⟨host, own⟩ => ((), ⟨host, { own with pending := own.pending.append b }⟩)
    return .data
  | .error e =>
    match e.kind with
    | .wouldBlock | .interrupted => return .nothingYet
    | _ => Act.raise (.host (.io e))

/-- Take the first bytes of what was read. -/
def take (n : Nat) : Doing Bytes := Act.withHost fun ⟨host, own⟩ =>
  (own.pending.extract 0 n, ⟨host, { own with pending := own.pending.extract n own.pending.size }⟩)

/-- Where the first line ends. -/
def lineEnd? (b : Bytes) : Option Nat := Bytes.findFrom b (Bytes.ofString "\n") 0

/-- A line without the carriage return at its end. -/
def withoutReturn (line : Bytes) : Bytes :=
  if line.size ≠ 0 && line.get! (line.size - 1) == 13 then line.extract 0 (line.size - 1) else line

/-- Wait a moment before looking again. -/
def pause : Doing Unit := do Act.wait (← Act.readHost fun a => a.own.poll)

/-- How often a waiting function looks again. -/
def maxPolls : Nat := 0x4000000000000000

/-- Read at most `limit` bytes: those that are there, or those that come next; nothing at the end. -/
def readSome (limit : Nat) : Nat → Doing Value
  | 0 => return .nil
  | fuel + 1 => do
    checkSignal
    if (← Act.readHost fun a => a.own.pending.size) ≠ 0 then return .str (← take limit)
    match ← fill with
    | .data => readSome limit fuel
    | .ended => return .nil
    | .nothingYet =>
      pause
      readSome limit fuel

/-- Read a line: up to its end, or the rest at the end of the input, or all that was read if it is too long. -/
def readLine : Nat → Doing Value
  | 0 => return .nil
  | fuel + 1 => do
    checkSignal
    let pending ← Act.readHost fun a => a.own.pending
    match lineEnd? pending with
    | some n =>
      let line ← take (n + 1)
      return .str (withoutReturn (line.extract 0 n))
    | none =>
      if maxLine ≤ pending.size then return .str (← take pending.size)
      match ← fill with
      | .data => readLine fuel
      | .ended => if pending.size = 0 then return .nil else return .str (← take pending.size)
      | .nothingYet =>
        pause
        readLine fuel

/-- Let time pass until a moment. -/
def sleepUntil (deadline : Nat) : Nat → Doing Unit
  | 0 => return ()
  | fuel + 1 => do
    checkSignal
    let now ← Act.readHeap fun h => h.clock
    if deadline ≤ now then return ()
    let poll ← Act.readHost fun a => a.own.poll
    Act.wait (min poll (deadline - now))
    sleepUntil deadline fuel

/-- The functions that every script has. -/
def functions : List (HostFunction Access) :=
  [.variadic "print" fun vs => do write ((← Act.readHeap fun h => showAll h vs) ++ "\n"),
   .variadic "write" fun vs => do write (← Act.readHeap fun h => String.join (vs.toList.map (showPlain h))),
   .unary "read" (.optional .usize) fun n =>
    return #[← readSome (max 1 (min (n.getD maxRead).toNat maxRead)) maxPolls],
   .nullary "read_line" (return #[← readLine maxPolls]),
   .unary "sleep" .u64 fun ms => do
    let now ← Act.readHeap fun h => h.clock
    sleepUntil (now + ms.toNat) maxPolls
    return #[],
   .nullary "terminated" (return #[.bool (← Act.readHost Access.isTerminated)]),
   .nullary "time_ms" (return #[.ofNat (← Act.readHeap fun h => h.clock)])]

end ScriptHost.Core

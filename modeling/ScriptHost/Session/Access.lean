import ScriptHost.Session.Resources
import ScriptHost.Stream.Reader

/-!
# What the functions of a session reach

* `Own`: the part of a session that its functions change: what it holds, where it reads and writes.
* `Access`: the host and that part.
* `Access.write`, `Access.read`: the session's output and input.
-/

namespace ScriptHost

/-- Where a session reads. -/
inductive Input where
  | pieces (r : Reader)
  /-- The input of the session's terminal. -/
  | terminal
  deriving Inhabited

/-- Where a session writes. -/
inductive Output where
  | kept (w : Writer)
  /-- The output of the session's terminal. -/
  | terminal
  | nowhere
  deriving Inhabited

/-- The part of a session that its functions change. -/
structure Own where
  resources : Resources
  input : Input
  output : Output
  /-- What was read but not yet asked for. -/
  pending : Bytes := ByteArray.empty
  /-- How many milliseconds to wait before looking again. -/
  poll : Nat := 1
  deriving Inhabited

/-- What the functions of a session reach. -/
structure Access where
  host : Host
  own : Own
  deriving Inhabited

namespace Access

/-- The number of the session. -/
@[inline] def id (a : Access) : Nat := a.own.resources.id

/-- Termination was requested. -/
@[inline] def isTerminated (a : Access) : Bool := a.host.isTerminated a.id

/-- Change the host. -/
@[inline] def onHost {α : Type} (a : Access) (f : Host → α × Host) : α × Access :=
  let ⟨host, own⟩ := a
  let (x, host) := f host
  (x, ⟨host, own⟩)

/-- Change what the session holds, and the host. -/
@[inline] def onResources {α : Type} (a : Access) (f : Resources → Host → α × Resources × Host) : α × Access :=
  let ⟨host, own⟩ := a
  let (x, resources, host) := f own.resources host
  (x, ⟨host, { own with resources }⟩)

/-- Write to the session's output and flush it. -/
def write (a : Access) (b : Bytes) : Option IoError × Access :=
  let ⟨host, own⟩ := a
  match own.output with
  | .nowhere => (none, ⟨host, own⟩)
  | .terminal =>
    match own.resources.terminal with
    | some t =>
      let (e, host) := host.write t b
      (e, ⟨host, own⟩)
    | none => (none, ⟨host, own⟩)
  | .kept w =>
    let own := { own with output := .nowhere }
    let (e, w) := w.writeFlushed b
    (e, ⟨host, { own with output := .kept w }⟩)

/-- Read at most `n` bytes of the session's input. -/
def read (a : Access) (n : Nat) : Except IoError Bytes × Access :=
  match a.own.input with
  | .pieces r =>
    let attempt := r.read n
    let host := if attempt.requested then a.host.terminate a.id else a.host
    (attempt.result, ⟨host, { a.own with input := .pieces attempt.rest }⟩)
  | .terminal =>
    match a.own.resources.terminal with
    | some t => a.onHost (·.read t n)
    | none => (.ok ByteArray.empty, a)

end Access

end ScriptHost

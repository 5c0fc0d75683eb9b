import ScriptHost.Fault
import ScriptHost.Text.Bytes

/-!
# Writers

A writer keeps what is written to it. It may have room for a limited number of bytes, and it may refuse to be
flushed.

* `Writer.write`: write all of some bytes, or as many as there is room for, and fail.
-/

namespace ScriptHost

/-- Something to write to. -/
structure Writer where
  /-- What was written since it was last taken. -/
  written : Bytes := ByteArray.empty
  /-- How many more bytes are taken; `none` if there is no limit. -/
  room : Option Nat := none
  flushFails : Bool := false
  deriving Inhabited

namespace Writer

/-- The failure of a writer without room. -/
def full : IoError := ⟨.brokenPipe, "broken pipe"⟩

/-- The failure of a writer that refuses to be flushed. -/
def unflushed : IoError := ⟨.other, "flush refused"⟩

/-- Append to what was written. It is kept apart from its callers so that the bytes are changed in place. -/
@[noinline] def extend (written b : Bytes) : Bytes := written.append b

/-- Write all of some bytes, or as many as there is room for, and fail. -/
def write (w : Writer) (b : Bytes) : Option IoError × Writer :=
  match w with
  | ⟨written, none, fails⟩ => (none, ⟨extend written b, none, fails⟩)
  | ⟨written, some n, fails⟩ =>
    if b.size ≤ n then (none, ⟨extend written b, some (n - b.size), fails⟩)
    else (some full, ⟨extend written (b.extract 0 n), some 0, fails⟩)

/-- Make sure that all has been written. -/
def flush (w : Writer) : Option IoError := if w.flushFails then some unflushed else none

/-- Write all of some bytes and flush. -/
def writeFlushed (w : Writer) (b : Bytes) : Option IoError × Writer :=
  match w.write b with
  | (none, w) => (w.flush, w)
  | failed => failed

/-- What was written since it was last taken, and the writer without it. -/
def take (w : Writer) : Bytes × Writer := (w.written, { w with written := ByteArray.empty })

end Writer

end ScriptHost

import ScriptHost.Fault
import ScriptHost.Text.Bytes

/-!
# Pipes

A pipe holds the bytes that were pushed into it and not yet read. An empty pipe that is still open has nothing
to read yet; one that is closed has ended.
-/

namespace ScriptHost

/-- Bytes on their way. -/
structure Pipe where
  buffer : Bytes := ByteArray.empty
  closed : Bool := false
  deriving Inhabited

namespace Pipe

/-- The failure of reading where nothing has come yet. -/
def nothingYet : IoError := ⟨.wouldBlock, "operation would block"⟩

/-- Add bytes. -/
def push (p : Pipe) (b : Bytes) : Pipe := { p with buffer := p.buffer.append b }

/-- No more bytes will come. -/
def close (p : Pipe) : Pipe := { p with closed := true }

/-- How many bytes wait to be read. -/
def pending (p : Pipe) : Nat := p.buffer.size

/-- Read at most `n` bytes; none are read at the end. -/
def read (p : Pipe) (n : Nat) : Except IoError Bytes × Pipe :=
  if p.buffer.size = 0 then
    if p.closed || n = 0 then (.ok ByteArray.empty, p) else (.error nothingYet, p)
  else (.ok (p.buffer.extract 0 n), { p with buffer := p.buffer.extract n p.buffer.size })

end Pipe

end ScriptHost

import ScriptHost.Fault
import ScriptHost.Text.Utf8

/-!
# Readers

A reader gives its bytes in pieces, and some attempts to read may fail.

* `Reader`: the pieces that are still to come.
* `Collected`: what has been read of a program's source, and what to do next.
* `readSource`: read the source of a program to its end, unless termination is requested.
-/

namespace ScriptHost

/-- What a reader meets. -/
inductive Piece where
  | data (b : Bytes)
  /-- This attempt fails. -/
  | failure (e : IoError)
  /-- Termination is requested while the next attempt waits. -/
  | request
  deriving Inhabited

/-- The pieces that are still to come. -/
abbrev Reader : Type := List Piece

/-- The outcome of an attempt to read. -/
structure Attempt where
  /-- The bytes, none at the end; or why the attempt failed. -/
  result : Except IoError Bytes
  rest : Reader
  /-- Termination was requested meanwhile. -/
  requested : Bool := false

/-- Read at most `n` bytes of one piece. -/
def Reader.read (r : Reader) (n : Nat) : Attempt :=
  match r with
  | [] => ⟨.ok ByteArray.empty, [], false⟩
  | .failure e :: rest => ⟨.error e, rest, false⟩
  | .request :: rest => { Reader.read rest n with requested := true }
  | .data b :: rest =>
    if b.size = 0 then Reader.read rest n
    else if b.size ≤ n then ⟨.ok b, rest, false⟩
    else ⟨.ok (b.extract 0 n), .data (b.extract n b.size) :: rest, false⟩

/-- How many bytes of a program's source are read at once. -/
def sourceChunk : Nat := 4096

/-- How reading a program's source goes on after an attempt. -/
inductive Collected where
  /-- More is to be read, at once or after a moment. -/
  | more (read : Bytes) (wait : Bool)
  | finished (text : String)
  | failed (e : SourceError)

/-- Add an attempt to what has been read. The text of a source that is not UTF-8 has marks in the places of
its invalid parts. -/
def collect (read : Bytes) : Except IoError Bytes → Collected
  | .ok b => if b.size = 0 then .finished (Utf8.decodeLossy read) else .more (read.append b) false
  | .error e =>
    match e.kind with
    | .wouldBlock => .more read true
    | .interrupted => .more read false
    | _ => .failed (.io e)

/-- How many attempts it takes to read all pieces and meet the end. -/
def Reader.attempts (r : Reader) : Nat :=
  r.foldl (fun n p => match p with
    | .data b => n + b.size / sourceChunk + 1
    | _ => n + 1) 1

/-- Read the source of a program, with at most `fuel` attempts. -/
def readSourceFrom : Nat → Reader → Bool → Bytes → Except SourceError String × Reader
  | 0, r, _, read => (.ok (Utf8.decodeLossy read), r)
  | fuel + 1, r, requested, read =>
    if requested then (.error .interrupted, r)
    else
      let a := r.read sourceChunk
      match collect read a.result with
      | .more read _ => readSourceFrom fuel a.rest a.requested read
      | .finished text => (.ok text, a.rest)
      | .failed e => (.error e, a.rest)

/-- Read the source of a program to its end, unless termination is requested; with it, the pieces that are
left. -/
def readSource (r : Reader) (requested : Bool) : Except SourceError String × Reader :=
  readSourceFrom r.attempts r requested ByteArray.empty

end ScriptHost

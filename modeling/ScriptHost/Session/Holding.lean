import ScriptHost.Binding.Pool
import ScriptHost.Session.Access

/-!
# Giving everything back

A holding keeps the functions of a session and what the session holds. At the end it runs the actions of the
pool and then gives back what the session holds; doing so again changes nothing. If records of what happens
are written, one says how much was given back.

* `Use`: how a part that several may use is in use. It can be read while nobody changes it, and changed while
  nobody uses it.
* `Holding.release`: give everything back, and record it.
-/

namespace ScriptHost

/-- How a part that several may use is in use. -/
inductive Use where
  | free
  /-- It is being read, by so many. -/
  | read (readers : Nat)
  /-- It is being changed. -/
  | changed
  deriving DecidableEq, Repr, Inhabited

namespace Use

/-- The failure to read a part that is being changed. -/
def readRefused : String := "RefCell already mutably borrowed"

/-- The failure to change a part that is in use. -/
def changeRefused : String := "RefCell already borrowed"

/-- Begin to read a part: nobody may be changing it. -/
def beginRead : Use → Except String Use
  | .free => .ok (.read 1)
  | .read n => .ok (.read (n + 1))
  | .changed => .error readRefused

/-- Begin to change a part: nobody may be using it. -/
def beginChange : Use → Except String Use
  | .free => .ok .changed
  | _ => .error changeRefused

end Use

/-- The functions of a session and what it holds. -/
structure Holding where
  pool : Pool Access := {}
  access : Access
  /-- What was given back the first time. -/
  summary : Option ReleaseSummary := none

namespace Holding

/-- Record how much was given back. The record names the session, so what the session holds is read for it. -/
def record (logging : Bool) (use : Use) : Except String Use := if logging then use.beginRead else .ok use

/-- Run the actions of the pool and give back what the session holds, and record how much it was. The change
is not over before the record is written, so writing it can fail; the first answer is that failure. -/
def releaseRecorded (g : Holding) (logging : Bool) : Option String × Holding :=
  let (_, pool, access) := g.pool.cleanup g.access
  match Use.free.beginChange with
  | .error failure => (some failure, { g with pool, access })
  | .ok use =>
    let (given, access) := access.onResources fun r h => r.release h
    match given with
    | none => (none, { g with pool, access })
    | some summary =>
      match record logging use with
      | .error failure => (some failure, { g with pool, access })
      | .ok _ => (none, { pool, access, summary := some summary })

/-- Run the actions of the pool and give back what the session holds, without a record. -/
def release (g : Holding) : Holding := (g.releaseRecorded false).2

/-- What was given back. -/
def released (g : Holding) : ReleaseSummary := g.summary.getD {}

/-- Have an action run at the end, or at once if that has come. -/
def onCleanup (g : Holding) (action : Access → Access) : Holding :=
  let (pool, access) := g.pool.onCleanup action g.access
  { g with pool, access }

end Holding

end ScriptHost

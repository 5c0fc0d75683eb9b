import ScriptHost.Session.Job

/-!
# Many sessions on one host

Sessions take turns on the host, and time passes while they run or wait.

* `Request`: what a session is asked to do.
* `World`: the host, the sessions and the time.
* `World.spawn`, `World.run`, `World.exec`, `World.execFile`: start a session.
* `World.driveUntil`: let the sessions take turns until something has come about.
-/

namespace ScriptHost

open ScriptHost.Script

/-- What a session is asked to do. -/
structure Request where
  source : ProgramSource
  name : String := "program"
  args : String := ""
  mode : Mode := .restricted
  terminal : Option Nat := none
  /-- What the session reads; without it that is the input of the terminal, or nothing. -/
  input : Option Reader := none
  /-- What the session writes to; without it that is the output of the terminal, or nowhere. -/
  output : Option Writer := none
  deriving Inhabited

namespace Request

/-- The session that does what is asked, under a number, at a moment. -/
def job (r : Request) (c : Config) (id clock : Nat) : Job :=
  let own : Own :=
    { resources := { id, terminal := r.terminal }
      input := match r.input, r.terminal with
        | some reader, _ => .pieces reader
        | none, some _ => .terminal
        | none, none => .pieces []
      output := match r.output, r.terminal with
        | some w, _ => .kept w
        | none, some _ => .terminal
        | none, none => .nowhere
      poll := c.poll }
  let machine : Machine Access := Machine.create ⟨{}, own⟩ #[] Access.isTerminated
  { id, terminal := r.terminal, name := r.name, args := r.args, source := r.source, handle := { mode := r.mode }
    machine := { machine with heap := { machine.heap with started := clock } } }

end Request

/-- A session and the time until which it waits. -/
structure Slot where
  job : Job
  wake : Nat := 0
  progress : Progress := .ready
  deriving Inhabited

/-- The host, the sessions and the time in milliseconds. -/
structure World where
  engine : Engine := {}
  host : Host := {}
  slots : Array Slot := #[]
  clock : Nat := 0
  deriving Inhabited

namespace World

/-- A session. -/
def job (w : World) (id : Nat) : Job := (w.slots.getD id default).job

/-- A session is over. -/
def isOver (w : World) (id : Nat) : Bool := (w.slots.getD id default).progress == .ended

/-- Add a session. -/
def add (w : World) (r : Request) : Nat × World :=
  let id := w.slots.size
  (id, { w with slots := w.slots.push { job := r.job w.engine.config id w.clock } })

/-- A session takes its terminal, if it has one and that is free. -/
def claim (w : World) (r : Request) (id : Nat) : Bool × World :=
  match r.terminal with
  | none => (true, w)
  | some t =>
    match (w.host.terminal t).claim id with
    | (true, _) => (true, { w with host := w.host.onTerminal t fun x => (x.claim id).2 })
    | (false, _) => (false, w)

/-- Start a session, unless its terminal is taken. -/
def spawn (w : World) (r : Request) : Option Nat × World :=
  match w.claim r w.slots.size with
  | (true, w) =>
    let (id, w) := w.add r
    (some id, w)
  | (false, w) => (none, w)

/-- Start a session; if its terminal is taken it goes on without it. -/
def run (w : World) (r : Request) : Nat × World := (w.claim r w.slots.size).2.add r

/-- Start a privileged session on a terminal. -/
def exec (w : World) (source : String) (terminal : Nat) (args : String) : Option Nat × World :=
  w.spawn { source := .text source, args, mode := .privileged, terminal := some terminal }

/-- The path of a program in the directory of programs: it must stay below it. -/
def programPath? (dataDir path : String) : Option String :=
  let relative := Text.trimStartChar path '/'
  let parts := Path.components relative
  if relative = "" || parts.any fun c => match c with
    | .name _ => false
    | _ => true then none
  else some (Path.join dataDir relative)

/-- What reading an open file gives. -/
def fileReader : Node → Reader
  | .file b => [.data b]
  | .dir => [.failure .directory]

/-- The name of a program by its path. -/
def programName (path : String) : String := (Path.fileName? path).getD "program"

/-- Start a privileged session on a terminal with a program from the directory of programs. -/
def execFile (w : World) (path : String) (terminal : Nat) (args : String) : Option Nat × World :=
  match programPath? w.engine.config.dataDir path with
  | none => (none, w)
  | some full =>
    match w.host.files.openFile full with
    | .error _ => (none, w)
    | .ok node =>
      w.spawn { source := .stream (fileReader node), name := programName full, args, mode := .privileged
                terminal := some terminal }

/-- Request that a session ends. -/
def terminate (w : World) (id : Nat) : World := { w with host := w.host.terminate id }

/-- More of a session's program comes through its pipe. -/
def feed (w : World) (id : Nat) (b : Bytes) (close : Bool) : World :=
  { w with slots := w.slots.modify id fun s =>
      match s.job.source with
      | .pipe p =>
        let p := p.push b
        { s with job := { s.job with source := .pipe (if close then p.close else p) } }
      | _ => s }

/-- Let a session have its turn, unless it waits or is over. -/
def turn (w : World) (id : Nat) : World :=
  let s := w.slots.getD id default
  match s.progress with
  | .ended => w
  | _ =>
    if w.clock < s.wake then w
    else
      let ⟨engine, host, slots, clock⟩ := w
      let slots := put slots id default
      let (progress, job, host) := s.job.turn engine clock host
      let wake := match progress with
        | .waiting ms => clock + max ms 1
        | _ => clock
      ⟨engine, host, put slots id ⟨job, wake, progress⟩, clock⟩

/-- The earliest moment at which a session goes on; none if all are over. -/
def nextWake (w : World) : Option Nat :=
  w.slots.foldl (fun next s => match s.progress with
    | .ended => next
    | _ => some (match next with
      | some n => min n s.wake
      | none => s.wake)) none

/-- Let every session have its turn, and time pass; the answer is whether any session is left. -/
def round (w : World) : Bool × World :=
  let w := (List.range w.slots.size).foldl turn w
  match w.nextWake with
  | none => (false, w)
  | some next => (true, { w with clock := max (w.clock + 1) next })

/-- Let the sessions take turns until something has come about or none is left. -/
def driveUntil (p : World → Bool) : Nat → World → World
  | 0, w => w
  | fuel + 1, w =>
    if p w then w
    else match w.round with
      | (true, w) => driveUntil p fuel w
      | (false, w) => w

/-- How many rounds are played at most. -/
def maxRounds : Nat := 0x10000000000

/-- Let the sessions take turns until one of them is over. -/
def finish (w : World) (id : Nat) : World := w.driveUntil (·.isOver id) maxRounds

/-- A session has nothing to do at the moment. -/
def isIdle (w : World) (id : Nat) : Bool :=
  match (w.slots.getD id default).progress with
  | .ready => false
  | _ => true

/-- How many turns a session that was started has before anything else happens. -/
def firstTurns : Nat := 16

/-- Let a session begin, until it waits for something or has run for a while. -/
def settle (w : World) (id : Nat) : World := (w.turn id).driveUntil (·.isIdle id) firstTurns

end World

end ScriptHost

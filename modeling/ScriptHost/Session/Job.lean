import ScriptHost.Binding.Console
import ScriptHost.Binding.Core
import ScriptHost.Namespace
import ScriptHost.Report.Emit
import ScriptHost.Session.Holding
import ScriptHost.Session.Handle

/-!
# Running a session

A session is prepared, reads its program, compiles it, runs its body and its exit routine, and is torn down.
The body is the program itself and after it the global function `main`; the exit routine is the global
function `exit`.

* `Job`: a session that runs.
* `Job.setUp`: bind the functions and make the environment.
* `Job.collect`, `Job.compile`: read the program and compile it.
* `Job.bodyEnded`, `Job.exitEnded`: what follows the body and the exit routine, by how they ended.
* `Job.conclude`: the outcome is known; what remains is to give everything back.
* `Job.tearDown`: give everything back and record the outcome.
* `Job.abort`: a failure that no session survives ends this one.
* `Job.turn`: let a session run for a while.
-/

namespace ScriptHost

open ScriptHost.Script

/-- How sessions are run. -/
structure Config where
  /-- How many milliseconds to wait before looking for an interrupt again. -/
  poll : Nat := 1
  /-- After how many instructions to look for an interrupt. -/
  hookInterval : Nat := 1
  reporter : Reporter := {}
  debug : Bool := false
  /-- The directory of the programs. -/
  dataDir : String := ""
  /-- Records of what happens are written. -/
  logging : Bool := false
  deriving Inhabited

/-- Adds functions to a session when it is prepared. It may fail after it has done a part of its work. -/
structure Binder where
  bind : Mode → Pool Access → Access → Except SetupError Unit × Pool Access × Access

namespace Binder

/-- A binder that registers functions. -/
def ofFunctions (fs : List (HostFunction Access)) : Binder where
  bind _ p a :=
    match p.registerAll fs with
    | .ok p => (.ok (), p, a)
    | .error e => (.error e, p, a)

/-- Bind one after the other until one fails. -/
def runAll : List Binder → Mode → Pool Access → Access → Except SetupError Unit × Pool Access × Access
  | [], _, p, a => (.ok (), p, a)
  | b :: rest, mode, p, a =>
    match b.bind mode p a with
    | (.ok (), p, a) => runAll rest mode p a
    | failed => failed

end Binder

/-- What sessions are made of. -/
structure Engine where
  config : Config := {}
  registry : Registry Access := {}
  /-- What is bound beside the functions of the core, the bundles and the host. -/
  binders : List Binder := []

namespace Engine

instance : Inhabited Engine := ⟨{}⟩

/-- All binders of a session in their order. -/
def allBinders (e : Engine) (mode : Mode) : List Binder :=
  let seed : Binder := ⟨fun _ p a => match p.seed (e.registry.resolve mode) with
    | .ok p => (.ok (), p, a)
    | .error f => (.error f, p, a)⟩
  Binder.ofFunctions Core.functions :: seed :: Binder.ofFunctions Console.functions :: e.binders

end Engine

/-- Where a program comes from. -/
inductive ProgramSource where
  | text (s : String)
  | stream (r : Reader)
  | pipe (p : Pipe)
  deriving Inhabited

/-- What a session does next. -/
inductive Phase where
  | preparing
  /-- Reading the program, of which a part has been read. -/
  | reading (read : Bytes)
  /-- The program itself runs. -/
  | chunk
  /-- The function `main` runs. -/
  | main
  /-- The function `exit` runs after a body with this outcome. -/
  | exit (o : Outcome)
  /-- Everything is to be given back; then this outcome is recorded. -/
  | closing (o : Outcome)
  | ended
  /-- While a failure ended the session there was another one, and no session survives that. -/
  | lost
  deriving Inhabited

/-- There is something to do next. -/
def Phase.isLive : Phase → Bool
  | .ended | .lost => false
  | _ => true

/-- How a part of a session ended. -/
inductive Ending where
  | returned
  /-- With the termination signal. -/
  | signal
  | failed (f : Fault)
  /-- With a failure that no session survives. -/
  | panicked (message : String)

/-- How a failure ends a part of a session. -/
def Ending.ofFailure : HostFailure → Ending
  | .panic m => .panicked m
  | .fault f => if f.isInterrupt then .signal else .failed f

/-- What a session that had its turn does. -/
inductive Progress where
  | ready
  | waiting (ms : Nat)
  | ended
  deriving DecidableEq, Inhabited

/-- A session that runs. While it does, the host is part of its machine. -/
structure Job where
  id : Nat
  /-- The terminal that the session was started on. -/
  terminal : Option Nat := none
  name : String := "program"
  args : String := ""
  source : ProgramSource := .text ""
  handle : Session.Handle := {}
  pool : Pool Access := {}
  machine : Machine Access
  space : Namespace := default
  phase : Phase := .preparing
  /-- The message of a failure that no session survives. -/
  panic : Option String := none

namespace Job

instance : Inhabited Job := ⟨{ id := 0, machine := Machine.create default #[] fun _ => false }⟩

/-- The host becomes part of the session. -/
def enter (j : Job) (h : Host) : Job :=
  { j with machine := { j.machine with host := ⟨h, j.machine.host.own⟩ } }

/-- The host leaves the session. -/
def leave (j : Job) : Job × Host :=
  let h := j.machine.host.host
  ({ j with machine := { j.machine with host := ⟨{}, j.machine.host.own⟩ } }, h)

/-- What the session's functions reach. -/
@[inline] def access (j : Job) : Access := j.machine.host

/-- Change what the session's functions reach. -/
@[inline] def onAccess {α : Type} (j : Job) (f : Access → α × Access) : α × Job :=
  let (x, host) := f j.machine.host
  (x, { j with machine := { j.machine with host } })

/-- Write a line to the session's output, whatever comes of it. -/
def notice (j : Job) (text : String) : Job := (j.onAccess (·.write (Bytes.ofString (text ++ "\n")))).2

/-- What the output says when the body is ended. -/
def programTerminated : String := "\nProgram terminated"

/-- What the output says when the exit routine is ended. -/
def exitTerminated : String := "\nExit routine terminated"

/-- What the output says when reading the program is ended. -/
def parseTerminated : String := " [PARSE TERMINATED]"

/-- Where the session's long reports are dumped: in the directory of its terminal. -/
def dumpTarget (j : Job) : Option DumpTarget :=
  j.terminal.map fun t =>
    let dir := (j.access.host.terminal t).dir
    ⟨j.access.host.resolveDir dir, dir⟩

/-- Report a failure on the session's output. If that fails, the report says nothing of a dump. -/
def report (j : Job) (c : Config) (f : Failure) : Report × Job :=
  let target := j.dumpTarget
  j.onAccess fun a =>
    let ⟨host, own⟩ := a
    let w := match own.output, own.resources.terminal with
      | .kept w, _ => w
      | .terminal, some t => (host.terminal t).output
      | _, _ => {}
    let e := c.reporter.emit f w target Namespace.version j.machine.heap.clock host.disk host.files
    let host := { host with files := e.files }
    let (host, own) := match own.output, own.resources.terminal with
      | .kept _, _ => (host, { own with output := .kept e.output })
      | .terminal, some t => (host.onTerminal t fun x => { x with output := e.output }, own)
      | _, _ => (host, own)
    let report := match e.result with
      | .ok r => r
      | .error _ => f.classify
    (report, ⟨host, own⟩)

/-- Go on to a state. -/
def advance (j : Job) (s : Session.State) : Job := { j with handle := (j.handle.advance s).2 }

/-! ### The end -/

/-- Run the actions of the pool and give back what the session holds; the answer is the failure to record it. -/
def release (j : Job) (c : Config) : Option String × Job :=
  let (failure, g) := Holding.releaseRecorded { pool := j.pool, access := j.machine.host } c.logging
  (failure, { j with pool := g.pool, machine := { j.machine with host := g.access } })

/-- The session gives its terminal back and is over; without an outcome it was aborted. -/
def close (j : Job) : Job :=
  let handle := if j.handle.outcome.isNone then (j.handle.finish Outcome.aborted).2 else j.handle
  let (_, j) := j.onAccess fun a => match j.terminal with
    | some t => a.onHost fun h => ((), h.onTerminal t fun x => x.release j.id)
    | none => ((), a)
  { j with handle := (handle.advance .tornDown).2, phase := .ended }

/-- The session is over because of a failure that it does not survive. Everything is given back; if that fails
too, nothing more is done. -/
def abort (j : Job) (c : Config) (message : String) : Job :=
  match j.release c with
  | (none, j) => { j with panic := some message }.close
  | (some _, j) => { j with panic := some message, phase := .lost }

/-- Give everything back and record the outcome. -/
def tearDown (j : Job) (c : Config) (o : Outcome) : Job :=
  match j.release c with
  | (none, j) => { j with handle := (j.handle.finish o).2 }.close
  | (some failure, j) => j.abort c failure

/-- The session has come to an outcome; what remains is to give everything back. -/
def conclude (j : Job) (o : Outcome) : Job := { j with phase := .closing o }

/-- Report a failure and end with it. -/
def fail (j : Job) (c : Config) (f : Failure) : Job :=
  let (r, j) := j.report c f
  j.conclude (.failed r)

/-! ### The beginning -/

/-- Make the environment of the functions that are bound. -/
def furnish (j : Job) : Except SetupError Unit × Job :=
  match Namespace.Builder.bindAll { mode := j.handle.mode } (Namespace.poolValues j.pool) with
  | .error f => (.error f, j)
  | .ok builder =>
    let frozen := builder.freeze { j.machine with hosts := Namespace.hostBodies j.pool }
    (.ok (), { j with space := frozen.1, machine := frozen.2 })

/-- Bind the functions and make the environment. -/
def prepare (j : Job) (e : Engine) : Except SetupError Unit × Job :=
  let mode := j.handle.mode
  let (bound, pool, a) := Binder.runAll (e.allBinders mode) mode j.pool j.machine.host
  let j := { j with pool, machine := { j.machine with host := a } }
  match bound with
  | .error f => (.error f, j)
  | .ok () => j.furnish

/-- Compile the program and call it. -/
def compile (j : Job) (c : Config) (text : String) : Job :=
  match Script.compile (Bytes.ofString j.name) (Bytes.ofString text) with
  | .error message => j.fail c (.compile (.malformed (Utf8.decodeLossy message)))
  | .ok p =>
    let (f, m) := j.machine.load p (.table j.space.env)
    let interval := max 1 c.hookInterval
    let m := { m with interval, countdown := interval }
    { j with machine := m.start f #[], phase := .chunk }.advance .running

/-- Go on reading the program; the answer is whether to wait a moment. -/
def collect (j : Job) (c : Config) (read : Bytes) : Bool × Job :=
  match j.source with
  | .text s => (false, j.compile c s)
  | source =>
    if j.access.isTerminated then
      (false, (j.notice parseTerminated).conclude .interrupted)
    else
      let (result, source, requested) := match source with
        | .stream r =>
          let a := r.read sourceChunk
          (a.result, ProgramSource.stream a.rest, a.requested)
        | .pipe p =>
          let (result, p) := p.read sourceChunk
          (result, .pipe p, false)
        | .text s => (.ok ByteArray.empty, .text s, false)
      let j := { j with source }
      let (_, j) := j.onAccess fun a => ((), if requested then (a.onHost fun h => ((), h.terminate a.id)).2 else a)
      match ScriptHost.collect read result with
      | .more read wait => (wait, { j with phase := .reading read })
      | .finished text => (false, j.compile c text)
      | .failed (.io e) => (false, j.fail c (.setup (.io e)))
      | .failed .interrupted => (false, (j.notice parseTerminated).conclude .interrupted)

/-- Prepare the session; it reads its program next. -/
def setUp (j : Job) (e : Engine) : Job :=
  match j.prepare e with
  | (.error f, j) => j.fail e.config (.setup f)
  | (.ok (), j) => { j with phase := .reading ByteArray.empty }.advance .compiling

/-! ### Body and exit routine -/

/-- The exit routine ended: it can only spoil an outcome that was good. -/
def exitEnded (j : Job) (c : Config) (o : Outcome) : Ending → Job
  | .returned => j.conclude o
  | .signal => (j.notice exitTerminated).conclude (if o.isCompleted then .interrupted else o)
  | .failed f =>
    let (r, j) := j.report c (.runtime f)
    j.conclude (if o.isCompleted then .failed r else o)
  | .panicked m => j.abort c m

/-- The body ended with an outcome. If termination was requested there is no exit routine, and the outcome is
not that of a completed program. -/
def bodyOutcome (j : Job) (o : Outcome) : Job :=
  if j.access.isTerminated then
    if o.isCompleted then (j.notice programTerminated).conclude .interrupted else j.conclude o
  else
    match j.space.entryPoint j.machine "exit" with
    | some f => { j with machine := j.machine.start f #[], phase := .exit o }
    | none => j.conclude o

/-- The body ended. -/
def bodyEnded (j : Job) (c : Config) : Ending → Job
  | .returned => j.bodyOutcome .completed
  | .signal => (j.notice programTerminated).bodyOutcome .interrupted
  | .failed f =>
    let (r, j) := j.report c (.runtime f)
    j.bodyOutcome (.failed r)
  | .panicked m => j.abort c m

/-- The program itself ended; if it returned and there is a function `main`, that is called. -/
def chunkEnded (j : Job) (c : Config) : Ending → Job
  | .returned =>
    match j.space.entryPoint j.machine "main" with
    | some f => { j with machine := j.machine.start f #[.ofString j.args], phase := .main }
    | none => j.bodyEnded c .returned
  | e => j.bodyEnded c e

/-- A part of the session ended. -/
def ended (j : Job) (c : Config) (e : Ending) : Job :=
  match j.phase with
  | .chunk => j.chunkEnded c e
  | .main => j.bodyEnded c e
  | .exit o => j.exitEnded c o e
  | _ => j

/-! ### Turns -/

/-- How many steps a machine runs in a turn. -/
def turnSteps : Nat := 10000

/-- Let the machine of a session run for a while. -/
def runMachine (j : Job) (c : Config) : Progress × Job :=
  let m := j.machine
  let j := { j with machine := Machine.create default #[] fun _ => false }
  match m.run turnSteps with
  | (none, m) => (.ready, { j with machine := m })
  | (some (.waiting ms), m) => (.waiting ms, { j with machine := m.wake })
  | (some (.returned _), m) => (.ready, { j with machine := m }.ended c .returned)
  | (some (.failed v), m) => (.ready, { j with machine := m }.ended c (.ofFailure (m.heap.hostFailure v)))

/-- Let a session go on from what it does next. -/
def step (j : Job) (e : Engine) : Progress × Job :=
  match j.phase with
  | .preparing => (.ready, j.setUp e)
  | .reading read =>
    let (wait, j) := j.collect e.config read
    (if wait then .waiting e.config.poll else .ready, j)
  | .chunk | .main | .exit _ => j.runMachine e.config
  | .closing o => (.ready, j.tearDown e.config o)
  | .ended | .lost => (.ended, j)

/-- How many parts of a session a turn may go through. -/
def turnParts : Nat := 64

/-- Let a session go through its parts until it waits, has ended or has run for a while. -/
def parts : Nat → Engine → Job → Progress × Job
  | 0, _, j => (.ready, j)
  | fuel + 1, e, j =>
    match j.phase with
    | .ended | .lost => (.ended, j)
    | .preparing | .reading _ | .closing _ =>
      match j.step e with
      | (.ready, j) => parts fuel e j
      | stopped => stopped
    | .chunk | .main | .exit _ =>
      match j.step e with
      | (.ready, j) => match j.machine.control, j.phase with
        | .enter .., _ | _, .closing _ => parts fuel e j
        | _, .ended | _, .lost => (.ended, j)
        | _, _ => (.ready, j)
      | stopped => stopped

/-- Let a session run for a while on the host, at a moment. -/
def turn (j : Job) (e : Engine) (clock : Nat) (h : Host) : Progress × Job × Host :=
  let j := j.enter h
  let (p, j) := parts turnParts e
    { j with machine := { j.machine with heap := { j.machine.heap with clock } } }
  let (j, h) := j.leave
  (p, j, h)

end Job

end ScriptHost

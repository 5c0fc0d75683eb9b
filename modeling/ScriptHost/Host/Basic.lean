import ScriptHost.Files.Tree
import ScriptHost.Host.Channels
import ScriptHost.Host.Display
import ScriptHost.Host.Renderer
import ScriptHost.Host.Terminal

/-!
# The host

The host is what all sessions share and what outlives them.

* `Host`: the channels, the display, the frames, the terminals, the files and the requests to terminate.
* `Host.resolveDir`: the directory that a terminal's directory stands for.
* `Host.terminate`, `Host.sigTerm`: request that a session ends.
* `Host.deliver`: a line arrives at a terminal.
-/

namespace ScriptHost

/-- What all sessions share. -/
structure Host where
  /-- The directory below which terminals have theirs. -/
  root : String := ""
  channels : Channels := {}
  display : Display := {}
  renderer : Renderer := {}
  terminals : Array Terminal := #[]
  files : Tree := {}
  /-- What a new file takes that a report is dumped to. -/
  disk : Writer := {}
  /-- Whether a session's termination was requested, by its number. -/
  requested : Array Bool := #[]
  /-- What happened, the first entry first. -/
  log : Array String := #[]
  deriving Inhabited

namespace Host

/-- The directory that a terminal's directory stands for: slashes at its start mean the root of the host. -/
def resolveDir (h : Host) (dir : String) : String :=
  let relative := Text.trimStartChar dir '/'
  if relative = "" then h.root else Path.join h.root relative

/-- The pixels of the frame in view; `none` if there is none. -/
def refresh (h : Host) : Option (List (Nat × Nat × UInt8)) :=
  (h.display.get h.display.view).map h.renderer.paint

/-- Request that a session ends. -/
def terminate (h : Host) (session : Nat) : Host :=
  let flags := h.requested
  let h := { h with requested := #[] }
  let missing := session + 1 - flags.size
  { h with requested := Script.put (flags ++ Array.replicate missing false) session true }

/-- A session's termination was requested. -/
@[inline] def isTerminated (h : Host) (session : Nat) : Bool := h.requested.getD session false

/-- Note what happened. -/
def note (h : Host) (entry : String) : Host := { h with log := h.log.push entry }

/-- A terminal. -/
def terminal (h : Host) (t : Nat) : Terminal := h.terminals.getD t {}

/-- Change a terminal. -/
def onTerminal (h : Host) (t : Nat) (f : Terminal → Terminal) : Host :=
  let terminals := h.terminals
  let h := { h with terminals := #[] }
  { h with terminals := Script.changeAt terminals t f }

/-- A session holds a terminal. -/
def isHeldBy (h : Host) (t session : Nat) : Bool := (h.terminal t).active == some session

/-- Request that the session of a terminal ends. -/
def sigTerm (h : Host) (t : Nat) (requester : Option String) : Bool × Host :=
  match (h.terminal t).target? requester with
  | some session => (true, h.terminate session)
  | none => (false, h)

/-- A control sequence arrives at a terminal: it ends the session or switches the view. -/
def control (h : Host) (t : Nat) (code : Char) (source : String) : Host :=
  if (h.terminal t).hooks.rawInput then h.onTerminal t fun x => x.pushLine (String.ofList ['^', code])
  else if code = 'c' || code = 'C' then (h.sigTerm t (some source)).2
  else if code.isDigit then { h with display := (h.display.switchView (code.toNat - 48)).2 }
  else h

/-- A line arrives at a terminal. -/
def deliver (h : Host) (t : Nat) (line source : String) : Host :=
  match Delivery.ofLine line with
  | .text s => h.onTerminal t fun x => x.pushLine s
  | .control code => h.control t code source

/-- Write to a terminal's output and flush it. -/
def write (h : Host) (t : Nat) (b : Bytes) : Option IoError × Host :=
  let terminals := h.terminals
  match terminals[t]? with
  | none => (none, h)
  | some x =>
    let h := { h with terminals := #[] }
    let terminals := Script.put terminals t {}
    let w := x.output
    let x := { x with output := {} }
    let (e, w) := w.writeFlushed b
    (e, { h with terminals := Script.put terminals t { x with output := w } })

/-- Read at most `n` bytes of a terminal's input. -/
def read (h : Host) (t : Nat) (n : Nat) : Except IoError Bytes × Host :=
  let (result, input) := (h.terminal t).input.read n
  (result, h.onTerminal t fun x => { x with input })

end Host

end ScriptHost

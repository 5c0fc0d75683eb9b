import ScriptHost.Text.Blank

/-!
# Failures

A failure of a script is a tree: what happened at its root, and around it layers that say through which
host functions and contexts it came.

* `Causes`: the texts of the causes of a failure, of which there may be no end.
* `Fault`: a failure of a script or of a host function, with its text `Fault.display`.
* `SetupError`: a failure before a script runs.
* `Fault.isInterrupt`: the failure is the termination signal, at most sixteen layers down.
* `Fault.tagged`: a failure with the name of the host function that raised it.
-/

namespace ScriptHost

/-- The texts of the causes of a failure, the nearest cause first. -/
inductive Causes where
  /-- The last of them has no cause. -/
  | ending (texts : List String)
  /-- Each of them has a cause in its turn, as where a failure is its own cause. -/
  | endless (text : Nat → String)

namespace Causes

/-- The causes with one more, the nearest. -/
def cons (text : String) : Causes → Causes
  | ending texts => ending (text :: texts)
  | endless more => endless fun
    | 0 => text
    | n + 1 => more n

/-- The text of the nearest cause. -/
def head? : Causes → Option String
  | ending texts => texts.head?
  | endless text => some (text 0)

/-- The texts of the nearest causes, so many if there are. -/
def take (n : Nat) : Causes → List String
  | ending texts => texts.take n
  | endless text => (List.range n).map text

end Causes

/-- The kinds of input and output failures. -/
inductive IoKind where
  | notFound
  | permissionDenied
  | brokenPipe
  | wouldBlock
  | interrupted
  | unexpectedEnd
  | invalidData
  | timedOut
  | alreadyExists
  | notADirectory
  | isADirectory
  | invalidInput
  | other
  deriving DecidableEq, Repr, Inhabited

/-- An input or output failure with the text that describes it. -/
structure IoError where
  kind : IoKind
  message : String
  deriving DecidableEq, Repr, Inhabited

/-- An input or output failure that is passed on, with the causes that it has if it came from another component. -/
structure IoFailure extends IoError where
  causes : Causes := .ending []

instance : Coe IoError IoFailure := ⟨fun e => { toIoError := e }⟩

/-- Why a program's source could not be read. -/
inductive SourceError where
  /-- Termination was requested while more source was awaited. -/
  | interrupted
  | io (e : IoError)
  deriving DecidableEq, Inhabited

/-- The text of a source failure. -/
def SourceError.display : SourceError → String
  | .interrupted => "read interrupted"
  | .io e => e.message

mutual

/-- A failure of a script. -/
inductive Fault where
  /-- A failure while running, with the message and trace it was raised with. -/
  | runtime (message : String)
  /-- The source is no program. -/
  | malformed (message : String)
  | memory (message : String)
  | safety (message : String)
  /-- A host function failed; the trace is that of the script at the call. -/
  | callback (trace : String) (cause : Fault)
  | context (text : String) (cause : Fault)
  /-- A value could not be converted between the script and the host. -/
  | conversion (source target : String) (reason : Option String)
  | badArgument (callee : Option String) (position : Nat) (name : Option String) (cause : Fault)
  | stackExhausted
  | unresumable
  /-- The termination signal. -/
  | signal
  /-- A failure tagged with the host function that raised it. -/
  | invocation (function : String) (source : Fault)
  /-- A failure of another component: its text and those of its causes, outermost first. -/
  | chain (first : String) (causes : List String)
  /-- A failure of another component with endless causes: its text and theirs. -/
  | endless (text : Nat → String)
  /-- A failure carried as the payload of another. -/
  | carried (inner : Fault)
  | io (e : IoFailure)
  | setup (e : SetupError)

/-- A failure before a script runs. -/
inductive SetupError where
  | duplicateBundle (name : String)
  | duplicateBinding (name : String)
  | script (e : Fault)
  | io (e : IoFailure)
  | source (e : SourceError)

end

instance : Inhabited Fault := ⟨.unresumable⟩

instance : Inhabited SetupError := ⟨.duplicateBundle ""⟩

namespace Fault

/-- The trace part of a callback's text. When callbacks are nested, the innermost trace is shown, with
a mark where the outermost one begins in it. -/
def traceText (outer : String) (inner : Option String) : String :=
  match inner with
  | none => Text.trimEnd outer
  | some full =>
    let wanted := Text.trim (Text.trimStartMatches outer "stack traceback:")
    match Text.splitAt? full wanted with
    | some (before, after) => before ++ ">" ++ Text.trimEnd after
    | none => Text.trimEnd full

mutual

/-- The text of a failure. -/
def display : Fault → String
  | .runtime m => "runtime error: " ++ m
  | .malformed m => "syntax error: " ++ m
  | .memory m => "memory error: " ++ m
  | .safety m => "safety error: " ++ m
  | .callback trace cause => callbackText trace none cause
  | .context text cause => text ++ "\n" ++ display cause
  | .conversion source target reason =>
    "error converting Lua " ++ source ++ " to " ++ target ++
      (match reason with
        | some r => " (" ++ r ++ ")"
        | none => "")
  | .badArgument callee position name cause =>
    (match name with
      | some n => "bad argument `" ++ n ++ "`"
      | none => "bad argument #" ++ toString position) ++
      (match callee with
        | some t => " to `" ++ t ++ "`"
        | none => "") ++ ": " ++ display cause
  | .stackExhausted =>
    "out of Lua stack, too many arguments to a Lua function or too many return values from a callback"
  | .unresumable => "coroutine is non-resumable"
  | .signal => "program terminated"
  | .invocation f _ => "error invoking host function '" ++ f ++ "'"
  | .chain first _ => first
  | .endless text => text 0
  | .carried inner => display inner
  | .io e => e.message
  | .setup e => setupText e

/-- The text of a callback failure: that of the first cause that is none, and a trace. -/
def callbackText (outer : String) (inner : Option String) : Fault → String
  | .callback trace cause => callbackText outer (some trace) cause
  | cause => display cause ++ "\n" ++ traceText outer inner ++ "\n"

/-- The text of a setup failure. -/
def setupText : SetupError → String
  | .duplicateBundle n => "capability bundle '" ++ n ++ "' is already registered"
  | .duplicateBinding n => "global '" ++ n ++ "' is bound more than once"
  | .script e => "Lua setup failed: " ++ display e
  | .io e => "I/O error: " ++ e.message
  | .source e => "could not read program: " ++ e.display

end

mutual

/-- The texts of a failure's causes, where the failure does not show them itself. -/
def causes : Fault → Causes
  | .context _ cause => causes cause
  | .invocation _ source => .cons (display source) (causes source)
  | .chain _ rest => .ending rest
  | .endless text => .endless fun n => text (n + 1)
  | .carried inner => causes inner
  | .io e => e.causes
  | .setup e => setupCauses e
  | _ => .ending []

/-- The texts of a setup failure's causes. -/
def setupCauses : SetupError → Causes
  | .script e => .cons (display e) (causes e)
  | .io e => .cons e.message e.causes
  | .source e => .ending [e.display]
  | _ => .ending []

end

/-- How many layers of a failure are looked at. -/
def maxDepth : Nat := 16

/-- Look for the termination signal, at most `fuel` layers down. -/
def isInterruptWithin : Nat → Fault → Bool
  | 0, _ => false
  | fuel + 1, f =>
    match f with
    | .callback _ cause => isInterruptWithin fuel cause
    | .context _ cause => isInterruptWithin fuel cause
    | .signal => true
    | .invocation _ source => isInterruptWithin fuel source
    | .carried inner => isInterruptWithin fuel inner
    | _ => false

/-- The failure is the termination signal, or wraps it. -/
def isInterrupt (f : Fault) : Bool := isInterruptWithin maxDepth f

/-- A failure tagged with a host function's name; the termination signal passes untagged. -/
def tagged (function : String) (f : Fault) : Fault :=
  if f.isInterrupt then f else .invocation function f

end Fault

/-- The text of a setup failure. -/
def SetupError.display (e : SetupError) : String := Fault.setupText e

/-- The texts of a setup failure's causes. -/
def SetupError.causes (e : SetupError) : Causes := Fault.setupCauses e

end ScriptHost

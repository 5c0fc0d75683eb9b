import ScriptHost.Report.Basic

/-!
# The layers of a failure

* `Fault.breakdown`: the messages of a failure from the outside in, and the trace of the script where the
  outermost call of a host function failed. At most sixteen links are followed.
* `SetupError.layers`: the messages of a failure before the script ran.
* `Failure.classify`: the report of a failure.
-/

namespace ScriptHost

/-- Put the name of a host function before a message. -/
def withFunction (function : Option String) (message : String) : String :=
  match function with
  | some f => f ++ ": " ++ message
  | none => message

/-- The messages of causes, as many of them as there is room for beside those that come before. -/
def roomFor (before : Nat) (messages : Causes) : List String :=
  messages.take (Fault.maxDepth - before)

/-- The layers of a failure and the trace of the script. -/
structure Breakdown where
  layers : List String
  trace : Option String
  deriving DecidableEq, Repr, Inhabited

namespace Fault

/-- The layers that follow those found so far, looking at no more than `fuel` links; `function` is the host
function that failed, until its name has been told. -/
def breakdownFrom : Nat → Fault → Option String → List String → Option String → Breakdown
  | 0, _, _, layers, trace => ⟨layers, trace⟩
  | fuel + 1, f, function, layers, trace =>
    match f with
    | .callback t cause => breakdownFrom fuel cause function layers (trace.or (some t))
    | .context text cause => breakdownFrom fuel cause function (layers ++ [text]) trace
    | .carried inner => breakdownFrom fuel inner function layers trace
    | .invocation name source =>
      match function with
      | none => breakdownFrom fuel source (some name) layers trace
      | some _ => ending f function layers trace
    | .runtime m | .malformed m => ⟨layers ++ [withFunction function m], trace⟩
    | f => ending f function layers trace
where
  /-- The last links: the failure itself and the causes that it has. -/
  ending (f : Fault) (function : Option String) (layers : List String) (trace : Option String) : Breakdown :=
    let layers := layers ++ [withFunction function f.display]
    ⟨layers ++ roomFor layers.length f.causes, trace⟩

/-- The layers of a failure and the trace of the script. -/
def breakdown (f : Fault) : Breakdown := breakdownFrom maxDepth f none [] none

end Fault

/-- The layers of a failure before the script ran. -/
def SetupError.layers : SetupError → List String
  | .script f => "Lua setup failed" :: f.breakdown.layers
  | e => e.display :: roomFor 1 e.causes

namespace Failure

/-- The layers of a failure and the trace of the script; a failure before the script ran has none. -/
def breakdown : Failure → Breakdown
  | .compile f | .runtime f => f.breakdown
  | .setup e => ⟨e.layers, none⟩

/-- The lines of a layer. The first line of every layer but the outermost says that it is a cause. -/
def layerLines (outermost : Bool) (layer : String) : List String :=
  match Text.lines layer with
  | [] => []
  | first :: rest => (if outermost then first else "Caused by: " ++ first) :: rest

/-- The lines of all layers. -/
def layersLines : List String → List String
  | [] => []
  | outer :: causes => layerLines true outer ++ causes.flatMap (layerLines false)

/-- The lines of the trace, unless a layer shows the whole of it already. -/
def traceLines (b : Breakdown) : List String :=
  match b.trace with
  | none => []
  | some t => if b.layers.any (Text.contains · t) then [] else Text.lines t

/-- The report of a failure. -/
def classify (f : Failure) : Report :=
  Report.ofTexts f.kind (layersLines f.breakdown.layers ++ traceLines f.breakdown)

end Failure

end ScriptHost

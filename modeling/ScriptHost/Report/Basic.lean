import ScriptHost.Fault
import ScriptHost.Text.Utf8

/-!
# Reports of failures

A failure is reported as lines of text: a header that names its kind, the layers of its cause, and the
trace of the script.

* `Report`: the lines with their severity, and the file they were dumped to, if any.
* `Failure`: what went wrong, and at which stage.
-/

namespace ScriptHost

/-- How grave a line of a report is. -/
inductive Severity where
  | warning
  | error
  deriving DecidableEq, Repr, Inhabited

namespace Severity

/-- The word for a severity. -/
def display : Severity → String
  | .warning => "warning"
  | .error => "error"

/-- The control sequence that switches to the colour of a severity. -/
def color : Severity → String
  | .warning => "\x1b[33m"
  | .error => "\x1b[31m"

/-- The control sequence that ends a colour. -/
def reset : String := "\x1b[0m"

end Severity

/-- The stage at which a session failed. -/
inductive ReportKind where
  | compile
  | runtime
  | setup
  deriving DecidableEq, Repr, Inhabited

namespace ReportKind

/-- The word for a stage. -/
def display : ReportKind → String
  | .compile => "compile"
  | .runtime => "runtime"
  | .setup => "setup"

/-- The first line of a report. -/
def header : ReportKind → String
  | .compile => "lua: compile error"
  | .runtime => "lua: runtime error"
  | .setup => "lua: setup error"

/-- How grave failures of a stage are. -/
def severity : ReportKind → Severity
  | .compile => .warning
  | .runtime | .setup => .error

end ReportKind

/-- A line of a report. -/
structure ReportLine where
  severity : Severity
  text : String
  deriving DecidableEq, Repr, Inhabited

/-- A report of a failure. -/
structure Report where
  kind : ReportKind
  lines : List ReportLine
  /-- The file that holds the lines, if they were dumped. -/
  dump : Option String := none
  deriving DecidableEq, Repr, Inhabited

namespace Report

/-- How many lines a report has. -/
def lineCount (r : Report) : Nat := r.lines.length

/-- The lines of a report as one text. -/
def text (r : Report) : String := Text.join "\n" (r.lines.map ReportLine.text)

/-- A report whose lines all have the severity of its kind, the header first. -/
def ofTexts (kind : ReportKind) (texts : List String) : Report :=
  { kind, lines := (kind.header :: texts).map fun text => { severity := kind.severity, text } }

end Report

/-- What went wrong, and at which stage. -/
inductive Failure where
  | compile (e : Fault)
  | runtime (e : Fault)
  | setup (e : SetupError)
  deriving Inhabited

/-- The stage at which a failure happened. -/
def Failure.kind : Failure → ReportKind
  | .compile _ => .compile
  | .runtime _ => .runtime
  | .setup _ => .setup

end ScriptHost

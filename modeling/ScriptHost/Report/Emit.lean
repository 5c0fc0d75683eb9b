import ScriptHost.Calendar
import ScriptHost.Files.Tree
import ScriptHost.Report.Layers
import ScriptHost.Stream.Writer

/-!
# Writing reports

A reporter writes the report of a failure to an output. A long report of a running script goes to a new file
instead, and the output gets two lines that say where.

* `Reporter.isOversized`: the report is too long for the output.
* `Reporter.dump`: write the lines to the first file of a directory whose name is free.
* `Reporter.emit`: write a report.
-/

namespace ScriptHost

/-- Where long reports are dumped. -/
structure DumpTarget where
  /-- The directory of the files. -/
  dir : String
  /-- The name by which the output speaks of it. -/
  display : String
  deriving DecidableEq, Repr, Inhabited

/-- How reports are written. -/
structure Reporter where
  /-- The greatest number of lines that a running script's failure may take. -/
  lineLimit : Nat := 16
  /-- The start of the names of dump files. -/
  dumpName : String := "lua_dump"
  color : Bool := false
  deriving Inhabited

namespace Reporter

/-- How many dump files a directory holds at most. -/
def maxDumps : Nat := 10000

/-- The text of a line on the output. -/
def lineText (r : Reporter) (l : ReportLine) : String :=
  if r.color then l.severity.color ++ l.text ++ Severity.reset ++ "\n" else l.text ++ "\n"

/-- Write lines until one cannot be written. -/
def writeLines (r : Reporter) (w : Writer) : List ReportLine → Option IoError × Writer
  | [] => (none, w)
  | l :: rest =>
    match w.write (Bytes.ofString (r.lineText l)) with
    | (none, w) => writeLines r w rest
    | failed => failed

/-- Write lines and flush. -/
def writeFlushed (r : Reporter) (w : Writer) (lines : List ReportLine) : Option IoError × Writer :=
  match r.writeLines w lines with
  | (none, w) => (w.flush, w)
  | failed => failed

/-- The report is too long for the output. -/
def isOversized (r : Reporter) (report : Report) : Bool :=
  report.kind = .runtime && r.lineLimit < report.lineCount

/-- A text with four spaces for each tab. -/
def withoutTabs (s : String) : String :=
  String.ofList (s.toList.flatMap fun c => if c = '\t' then [' ', ' ', ' ', ' '] else [c])

/-- The text of a moment in milliseconds. -/
def stamp (clock : Nat) : String :=
  let d := Date.ofTime (clock / 1000 : Nat)
  let two (n : Int) : String := Date.filled 2 '0' n
  toString d.year ++ "-" ++ two (d.month + 1) ++ "-" ++ two d.day ++ " " ++ two d.hour ++ ":" ++
    two d.minute ++ ":" ++ two d.second

/-- The content of a dump file. -/
def dumpText (report : Report) (version : String) (clock : Nat) : String :=
  "Lua stack trace from " ++ stamp clock ++ "\nLua version: " ++ version ++ "\n\n" ++
    String.join (report.lines.map fun l => withoutTabs l.text ++ "\n")

/-- The failure to find a free name. -/
def noFreeName (dir : String) : IoError := ⟨.alreadyExists, "no free dump file name in " ++ dir⟩

/-- Write a file under the first free one of the names that end in a number from `n` on. -/
def dumpFrom (r : Reporter) (dir : String) (content : Bytes) (t : Tree) : Nat → Nat → Except IoError (String × Tree)
  | 0, _ => .error (noFreeName dir)
  | fuel + 1, n =>
    let name := r.dumpName ++ toString n
    match t.createNew (Path.join dir name) content with
    | .ok t => .ok (name, t)
    | .error e =>
      if e.kind = .alreadyExists then dumpFrom r dir content t fuel (n + 1) else .error e

/-- Write the lines of a report to the first file of a directory whose name is free; the directory is made
if it is missing. The file keeps what the disk takes of the lines. The answer is the name of the file, if the disk
takes all of them. -/
def dump (r : Reporter) (report : Report) (dir version : String) (clock : Nat) (disk : Writer) (t : Tree) :
    Except IoError String × Tree :=
  match t.createDirs dir with
  | .error e => (.error e, t)
  | .ok t =>
    let (failure, file) := disk.take.2.writeFlushed (Bytes.ofString (dumpText report version clock))
    match r.dumpFrom dir file.written t maxDumps 0 with
    | .ok (name, t) => (match failure with
        | none => .ok name
        | some e => .error e, t)
    | .error e => (.error e, t)

/-- What the output says of a dump. -/
def dumpNotice (target : DumpTarget) (name : String) : List ReportLine :=
  [⟨.error, "lua: stack trace too large!"⟩,
   ⟨.error, "lua: dumped: " ++ Text.trimEndChar target.display '/' ++ "/" ++ name⟩]

/-- What came of writing a report. -/
structure Emitted where
  result : Except IoError Report
  output : Writer
  files : Tree

/-- Write the report of a failure. -/
def emit (r : Reporter) (f : Failure) (output : Writer) (target : Option DumpTarget) (version : String)
    (clock : Nat) (disk : Writer) (files : Tree) : Emitted :=
  let report := f.classify
  match target, r.isOversized report with
  | some target, true =>
    match r.dump report target.dir version clock disk files with
    | (.error e, files) => ⟨.error e, output, files⟩
    | (.ok name, files) =>
      match r.writeFlushed output (dumpNotice target name) with
      | (some e, output) => ⟨.error e, output, files⟩
      | (none, output) => ⟨.ok { report with dump := some (Path.join target.dir name) }, output, files⟩
  | _, _ =>
    match r.writeFlushed output report.lines with
    | (some e, output) => ⟨.error e, output, files⟩
    | (none, output) => ⟨.ok report, output, files⟩

end Reporter

end ScriptHost

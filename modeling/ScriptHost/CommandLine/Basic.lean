import ScriptHost.CommandLine.Options
import ScriptHost.Settings.Basic
import ScriptHost.World

/-!
# The command line

* `Engine.ofSettings`: how the settings run sessions.
* `CommandLine.bundles`: the functions that programs get from the command line.
* `CommandLine.needs`: the files and the input that an answer depends on.
* `CommandLine.answer`: the answer to a command: an exit code, what is written, and the files afterwards.
-/

namespace ScriptHost

open ScriptHost.Script Binding

/-- How the settings run sessions. -/
def Config.ofSettings (s : Settings) (p : Places) : Config where
  poll := max s.pollInterval 1
  hookInterval := max s.hookInterval 1
  reporter := ⟨s.lineLimit, s.dumpName, s.color⟩
  debug := s.debug
  dataDir := s.programDir p

namespace CommandLine

/-- The version of the program. -/
def version : String := "0.3.0"

/-- What is told about the program and its parts. -/
def longVersion : String :=
  "consoles " ++ version ++ "\nsandbox: consoles-sandbox " ++ version ++
    "\nvm:      Lua 5.4 (vendored)\nbuild:   debug\n"

/-- Who the terminal belongs to. -/
def owner : String := "console"

/-- The value of an environment variable. -/
def envValue? (env : List (String × String)) (name : String) : Option String :=
  if name.contains '=' || name.contains '\x00' then none else env.lookup name

/-- The environment from its entries, each of which ends with a zero byte. Entries that are not UTF-8 are left
out. -/
def environment (b : Bytes) : List (String × String) :=
  let entries := b.toList.foldr (fun c parts => match c, parts with
    | 0, parts => [] :: parts
    | c, p :: parts => (c :: p) :: parts
    | c, [] => [[c]]) []
  entries.filterMap fun e => do
    let e ← (Utf8.decode e.toByteArray).toOption
    let name := e.toList.takeWhile (· != '=')
    if name.length < e.length then
      some (String.ofList name, String.ofList (e.toList.drop (name.length + 1)))
    else none

/-- The functions that programs get from the command line. -/
def bundles (env : List (String × String)) : List (Bundle Access) :=
  [{ name := "console"
     functions :=
       [.nullary "version" (return #[.ofString version]),
        .nullary "platform" (return #[.ofString "linux"])] },
   { name := "env", isRestricted := true
     functions := [.unary "getenv" .text fun name =>
       return #[match envValue? env name with
         | some v => .ofString v
         | none => .nil]] }]

/-- The bundles that programs get, by mode. -/
def registry (env : List (String × String)) : Registry Access :=
  (bundles env).foldl (fun r b => match r.register b with
    | .ok r => r
    | .error _ => r) {}

/-- What the command line is given: arguments, environment, standard input and files. -/
structure Invocation where
  args : List String
  env : List (String × String)
  stdin : Bytes
  files : Tree
  /-- The number that the system gives to the thread of the session. -/
  thread : Nat := 0

/-- What an answer depends on besides arguments and environment. -/
structure Needs where
  /-- The paths that are looked up. -/
  paths : List String := []
  /-- A path that is looked up with every number behind it, from zero on, until nothing is there. -/
  numbered : Option String := none
  /-- The standard input is read. -/
  input : Bool := false

/-- The answer to a command. -/
structure Answer where
  code : Nat := 0
  stdout : Bytes := ByteArray.empty
  stderr : String := ""
  files : Tree

namespace Answer

/-- The exit code of an error that is no fault of the arguments. -/
def errorCode : Nat := 1

/-- The exit code of arguments that cannot be used. -/
def usageCode : Nat := 2

/-- Text on the standard output. -/
def text (s : String) (files : Tree) : Answer := { stdout := Bytes.ofString s, files }

/-- An error with its message. -/
def error (code : Nat) (message : String) (files : Tree) : Answer :=
  { code, stderr := "error: " ++ message ++ "\n", files }

/-- Say how the arguments are to be used. -/
def usage (files : Tree) : Answer := { code := usageCode, stderr := "<usage>", files }

/-- Lines of messages come before an answer. -/
def after (messages : List String) (a : Answer) : Answer :=
  { a with stderr := String.join (messages.map (· ++ "\n")) ++ a.stderr }

end Answer

/-- The lines of a text, up to the first one that is not UTF-8. -/
def stdinLines (b : Bytes) : List String :=
  let rec split : List UInt8 → List UInt8 → List (List UInt8)
    | [], [] => []
    | [], line => [line.reverse]
    | 10 :: rest, line => (match line with
        | 13 :: line => line
        | line => line).reverse :: split rest []
    | c :: rest, line => split rest (c :: line)
  ((split b.toList []).map fun line => Utf8.decode line.toByteArray).takeWhile Except.isOk
    |>.filterMap Except.toOption

/-- The levels of records; each includes those before it. -/
def levels : List String := ["off", "error", "warn", "info", "debug", "trace"]

/-- The place of a level among the levels, given by its name or its place. Nothing stands for errors. -/
def level? (s : String) : Option Nat :=
  if s = "" then some 1
  else (levels.zipIdx.find? fun (name, n) => s.map Char.toLower == name || s == toString n).map Prod.snd

/-- The level that a directive sets, for all parts of the program or for one. A part alone gets the last level. -/
def directiveLevel? (s : String) : Option Nat :=
  match s.splitOn "=" with
  | [one] => some ((level? one).getD (levels.length - 1))
  | parts => parts.getLast?.bind level?

/-- The greatest level that some directives set; none if one of them cannot be read. -/
def recordLevel? (s : String) : Option Nat :=
  ((s.splitOn ",").filter (· != "")).foldlM (fun n d => (directiveLevel? d).map (max n)) 1

/-- Records of how sessions go are written: the environment says so, or else an option. What a record says is
worked out even when the part of the program that it comes from is not to write any. -/
def isLogging (env : List (String × String)) (debug : Bool) : Bool :=
  match (env.lookup "RUST_LOG").bind recordLevel? with
  | some level => levels.idxOf "debug" ≤ level
  | none => debug

/-- What is told about a panic that ended the thread of a session. The functions of the command line do not
panic: where it happens is the record of what was given back. -/
def panicNote (id thread : Nat) (message : String) : String :=
  "\nthread 'lua-session-" ++ toString id ++ "' (" ++ toString thread ++
    ") panicked at crates/sandbox/src/resources.rs:304:32:\n" ++ message ++
    "\nnote: run with `RUST_BACKTRACE=1` environment variable to display a backtrace\n"

/-- Run a program on a terminal: its input is what was given, and it ends after some milliseconds at the
latest, if there is a limit. -/
def runProgram (g : Invocation) (c : Command) (config : Config) (source : ProgramSource) (name : String) : Answer :=
  if !g.files.isDir c.root then
    .error Answer.usageCode ("root " ++ c.root ++ " is not a directory") g.files
  else
    let terminal := { owner := some owner, dir := c.cwd : Terminal }
    let host : Host := { root := c.root, terminals := #[terminal], files := g.files }
    let engine : Engine := { config, registry := registry g.env }
    let w : World := { engine, host }
    let args := (c.operands.drop 1).headD ""
    match w.spawn { source, name, args, mode := c.mode, terminal := some 0 } with
    | (none, w) => .error Answer.errorCode "could not start the session" w.host.files
    | (some id, w) =>
      let host := (stdinLines g.stdin).foldl (fun h line => h.deliver 0 line owner) w.host
      let w := { w with host := host.onTerminal 0 fun t => { t with input := t.input.close } }
      let w := match c.timeout with
        | none => w
        | some ms =>
          let w := w.driveUntil (fun w => w.isOver id || ms ≤ w.clock) World.maxRounds
          if w.isOver id then w else w.terminate id
      let w := w.finish id
      let job := w.job id
      { code := Outcome.exitCode job.handle.outcome, stdout := (w.host.terminal 0).output.written
        stderr := (job.panic.map (panicNote (id + 1) g.thread)).getD "", files := w.host.files }

/-- Show the settings; a file for them is made first, if that is asked for and there is none. -/
def showSettings (g : Invocation) (p : Places) (path : Option String) (init : Bool) : Answer :=
  let path := path.getD p.settingsFile
  match (if init && !g.files.has path then ({} : Settings).save g.files path else (.ok (), g.files)) with
  | (.error e, files) => .error Answer.errorCode ("cannot write " ++ path ++ ": " ++ e.message) files
  | (.ok (), files) =>
    let (s, messages) := Settings.load files path
    (Answer.text
      ("path:          " ++ path ++ "\npoll interval: " ++ toString s.pollInterval ++
        " ms\nhook interval: " ++ toString s.hookInterval ++ " instructions\nreport limit:  " ++
        toString s.lineLimit ++ " lines\ndump prefix:   " ++ s.dumpName ++ "\ncolor:         " ++
        Settings.printTruth s.color ++ "\ndebug:         " ++ Settings.printTruth s.debug ++
        "\ndata dir:      " ++ s.programDir p ++ "\n") files).after messages

/-- Show the functions that programs get in a mode. -/
def showLibraries (g : Invocation) (mode : Mode) : Answer :=
  let lines (b : Bundle Access) : List String :=
    (b.name ++ if b.isRestricted then " (privileged only)" else "") :: b.functions.map fun f => "  " ++ f.name
  .text (String.join (((registry g.env).resolve mode).flatMap lines |>.map (· ++ "\n"))) g.files

/-- The answer to a command. -/
def answerCommand (g : Invocation) (c : Command) : Answer :=
  let places := Places.ofEnv g.env
  let (settings, messages) := Settings.load g.files (c.config.getD places.settingsFile)
  let config := { Config.ofSettings settings places with logging := isLogging g.env c.debug }
  let config := if c.noColor then { config with reporter := { config.reporter with color := false } } else config
  let operand := c.operands.headD ""
  match c.verb with
  | .run =>
    (match g.files.openFile operand with
      | .error e =>
        let a := Answer.error Answer.usageCode ("cannot open " ++ operand ++ ": " ++ e.message) g.files
        { a with stderr := a.stderr ++ "hint:  the program path is resolved against the current directory\n" }
      | .ok node =>
        runProgram g c config (.stream (World.fileReader node)) (World.programName operand)).after messages
  | .exec => (runProgram g c config (.text operand) "program").after messages
  | .libs => showLibraries g c.mode
  | .config => showSettings g places c.config c.init

/-- What the answer depends on, as far as the files that are known tell. -/
def needs (g : Invocation) : Needs :=
  match parse g.args g.env with
  | .command c =>
    let places := Places.ofEnv g.env
    let path := c.config.getD places.settingsFile
    let runs := c.verb = .run || c.verb = .exec
    let s := (Settings.load g.files path).1
    let dir := s.programDir places
    { paths := [path, c.root, dir] ++ (if c.verb = .run then c.operands.take 1 else [])
      numbered := if runs then some (Path.join dir s.dumpName) else none
      input := runs }
  | _ => {}

/-- The answer to what the command line is given. -/
def answer (g : Invocation) : Answer :=
  match parse g.args g.env with
  | .version => .text ("consoles " ++ version ++ "\n") g.files
  | .longVersion => .text longVersion g.files
  | .refused => .usage g.files
  | .command c => answerCommand g c

end CommandLine

end ScriptHost

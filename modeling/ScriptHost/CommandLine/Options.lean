import ScriptHost.Mode

/-!
# Arguments of the command line

A command has options, which begin with two dashes, and operands. The options that concern all commands may
stand before the command's name or behind it. After two dashes alone there are only operands.

* `Command`: what the command line asks for.
* `Command.parse`: the command of some arguments, or a refusal.
-/

namespace ScriptHost.CommandLine

/-- The name of a command. -/
inductive Verb where
  | run
  | exec
  | libs
  | config
  deriving DecidableEq, Repr, Inhabited

/-- The options that take a value. -/
inductive ValueOption where
  | config
  | mode
  | root
  | cwd
  | timeout
  deriving DecidableEq, Repr

/-- The options without a value. -/
inductive Switch where
  | noColor
  | debug
  | init
  deriving DecidableEq, Repr

/-- An option by its name. -/
inductive OptionKind where
  | value (o : ValueOption)
  | switch (s : Switch)
  deriving DecidableEq, Repr

namespace Verb

/-- A command by its name. -/
def ofName? : String → Option Verb
  | "run" => some .run
  | "exec" => some .exec
  | "libs" => some .libs
  | "config" => some .config
  | _ => none

/-- The options that a command has beside those that concern all commands. -/
def option? : Verb → String → Option OptionKind
  | .run, name | .exec, name =>
    match name with
    | "mode" => some (.value .mode)
    | "root" => some (.value .root)
    | "cwd" => some (.value .cwd)
    | "timeout" => some (.value .timeout)
    | _ => none
  | .libs, "mode" => some (.value .mode)
  | .config, "init" => some (.switch .init)
  | _, _ => none

/-- How many operands a command needs, and how many it takes. -/
def operands : Verb → Nat × Nat
  | .run | .exec => (1, 2)
  | .libs | .config => (0, 0)

end Verb

/-- The options that concern all commands. -/
def commonOption? : String → Option OptionKind
  | "config" => some (.value .config)
  | "no-color" => some (.switch .noColor)
  | "debug" => some (.switch .debug)
  | _ => none

/-- What was given before a command's name, or behind it. -/
structure Given where
  values : List (ValueOption × String) := []
  switches : List Switch := []
  operands : List String := []
  deriving Inhabited

/-- A number of 64 bits in decimal digits, perhaps after a plus sign. -/
def number? (s : String) : Option Nat :=
  let ds := match s.toList with
    | '+' :: rest => rest
    | ds => ds
  if ds.isEmpty || !ds.all Char.isDigit then none
  else
    let n := ds.foldl (fun n d => n * 10 + (d.toNat - 48)) 0
    if n < 0x10000000000000000 then some n else none

/-- A mode by its name. -/
def mode? : String → Option Mode
  | "restricted" => some .restricted
  | "privileged" => some .privileged
  | _ => none

/-- The value is one that the option takes. -/
def isValue (s : String) : ValueOption → Bool
  | .config | .root => s ≠ ""
  | .mode => (mode? s).isSome
  | .cwd => true
  | .timeout => (number? s).isSome

/-- The argument stands for itself, and is no option. -/
def isPlain (s : String) : Bool := s = "-" || !s.startsWith "-"

/-- An option's name and the value that is joined to it. -/
def splitOption (s : String) : String × Option String :=
  let cs := s.toList.drop 2
  match cs.dropWhile (· ≠ '=') with
  | _ :: value => (String.ofList (cs.takeWhile (· ≠ '=')), some (String.ofList value))
  | [] => (String.ofList cs, none)

namespace Given

/-- Give an option a value, once. -/
def setValue (g : Given) (o : ValueOption) (s : String) : Option Given :=
  if (g.values.lookup o).isSome || !isValue s o then none else some { g with values := (o, s) :: g.values }

/-- Give an option without a value, once. -/
def setSwitch (g : Given) (s : Switch) : Option Given :=
  if g.switches.contains s then none else some { g with switches := s :: g.switches }

/-- Add the arguments behind a command's name, which has the given options and takes some operands. -/
def addAll (option? : String → Option OptionKind) (most : Nat) : List String → Given → Option Given
  | [], g => some g
  | "--" :: rest, g =>
    if g.operands.length + rest.length ≤ most then some { g with operands := g.operands ++ rest } else none
  | s :: rest, g =>
    if isPlain s then
      if g.operands.length < most then addAll option? most rest { g with operands := g.operands ++ [s] }
      else none
    else if s.startsWith "--" then
      match splitOption s, rest with
      | (name, value), rest =>
        match option? name, value, rest with
        | some (.switch x), none, rest => (g.setSwitch x).bind (addAll option? most rest)
        | some (.value o), some v, rest => (g.setValue o v).bind (addAll option? most rest)
        | some (.value o), none, v :: rest =>
          if isPlain v then (g.setValue o v).bind (addAll option? most rest) else none
        | _, _, _ => none
    else none

end Given

/-- A command with its operands and options. -/
structure Command where
  verb : Verb
  operands : List String
  config : Option String
  noColor : Bool
  debug : Bool
  init : Bool
  mode : Mode
  root : String
  cwd : String
  timeout : Option Nat
  deriving Repr, Inhabited

/-- What the command line asks for. -/
inductive Asked where
  | command (c : Command)
  | version
  | longVersion
  | refused
  deriving Repr, Inhabited

/-- The command with what was given before its name and behind it. -/
def Command.of (verb : Verb) (before behind : Given) (envConfig : Option String) : Asked :=
  let config := (behind.values.lookup .config).or ((before.values.lookup .config).or envConfig)
  let (least, _) := verb.operands
  let emptyFile := verb = .run && behind.operands.head? = some ""
  if config = some "" || behind.operands.length < least || emptyFile then .refused
  else
    let has (s : Switch) : Bool := before.switches.contains s || behind.switches.contains s
    .command
      { verb, operands := behind.operands, config, noColor := has .noColor, debug := has .debug
        init := has .init
        mode := ((behind.values.lookup .mode).bind mode?).getD .privileged
        root := (behind.values.lookup .root).getD "."
        cwd := (behind.values.lookup .cwd).getD "/"
        timeout := (behind.values.lookup .timeout).bind number? }

/-- What some arguments ask for, after what was given before them. -/
def parseFrom (envConfig : Option String) : List String → Given → Asked
  | [], _ => .refused
  | "-V" :: _, _ => .version
  | "--version" :: _, _ => .longVersion
  | s :: rest, g =>
    if isPlain s then
      match Verb.ofName? s with
      | none => .refused
      | some verb =>
        let options (name : String) : Option OptionKind := (verb.option? name).or (commonOption? name)
        match Given.addAll options verb.operands.2 rest {} with
        | some behind => Command.of verb g behind envConfig
        | none => .refused
    else if s.startsWith "--" then
      match splitOption s with
      | (name, value) =>
        match commonOption? name, value, rest with
        | some (.switch x), none, rest => match g.setSwitch x with
          | some g => parseFrom envConfig rest g
          | none => .refused
        | some (.value o), some v, rest => match g.setValue o v with
          | some g => parseFrom envConfig rest g
          | none => .refused
        | some (.value o), none, v :: rest =>
          if isPlain v then match g.setValue o v with
            | some g => parseFrom envConfig rest g
            | none => .refused
          else .refused
        | _, _, _ => .refused
    else .refused

/-- What some arguments ask for, in an environment. -/
def parse (args : List String) (env : List (String × String)) : Asked :=
  parseFrom (env.lookup "CONSOLES_CONFIG") args {}

end ScriptHost.CommandLine

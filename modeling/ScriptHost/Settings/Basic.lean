import ScriptHost.Files.Tree
import ScriptHost.Settings.Json
import ScriptHost.Text.Printable

/-!
# Settings

The settings are kept in a file as an object in JSON. Lines that begin with two slashes are comments. A key
that is missing has its default; unknown keys mean nothing; a key that occurs twice or has a value of another
kind spoils the file.

* `Settings.parse`: the settings of a text.
* `Settings.print`: the text of the settings.
* `Settings.load`, `Settings.save`: the same with a file; a file that cannot be used counts as the defaults.
* `Places`: where the settings and the programs are, by the environment.
-/

namespace ScriptHost

/-- The settings. -/
structure Settings where
  /-- How many milliseconds to wait before looking for an interrupt again. -/
  pollInterval : Nat := 50
  /-- After how many instructions to look for an interrupt. -/
  hookInterval : Nat := 1000
  /-- How many lines a report may have. -/
  lineLimit : Nat := 16
  /-- The start of the names of dump files. -/
  dumpName : String := "lua_dump"
  color : Bool := true
  debug : Bool := false
  /-- The directory of the programs. -/
  dataDir : Option String := none
  deriving DecidableEq, Repr, Inhabited

namespace Settings

open Json

/-- The keys of a settings object. -/
inductive Key where
  | pollInterval
  | hookInterval
  | lineLimit
  | dumpName
  | color
  | debug
  | dataDir
  deriving DecidableEq, Repr

namespace Key

/-- All keys in the order in which they are written. -/
def all : List Key := [pollInterval, hookInterval, lineLimit, dumpName, color, debug, dataDir]

/-- A key as it is written. -/
def name : Key → String
  | .pollInterval => "sandbox.pollIntervalMs"
  | .hookInterval => "sandbox.hookInterval"
  | .lineLimit => "report.lineLimit"
  | .dumpName => "report.dumpPrefix"
  | .color => "report.color"
  | .debug => "debug"
  | .dataDir => "dataDir"

/-- The key that is written so. -/
def ofName? (s : String) : Option Key := all.find? fun k => k.name == s

end Key

/-! ### Values -/

/-- Fail because a value of another kind stands where one was expected. -/
def wrongType {α : Type} (found expected : String) : Reads α :=
  failHere ("invalid type: " ++ found ++ ", expected " ++ expected)

/-- The words for a number in a message. -/
def numeralWords : Numeral → String
  | .integer n => "integer \x60" ++ toString n ++ "\x60"
  | .float x => "floating point \x60" ++ showFloat x ++ "\x60"

/-- Fail at a value that is not of the kind expected. -/
def wrongValue {α : Type} (expected : String) : Reads α := do
  match ← peekToken with
  | none => failNext eofValue
  | some b =>
    if b = code 'n' then pass; word ['u', 'l', 'l']; wrongType "null" expected
    else if b = code 't' then pass; word ['r', 'u', 'e']; wrongType "boolean \x60true\x60" expected
    else if b = code 'f' then pass; word ['a', 'l', 's', 'e']; wrongType "boolean \x60false\x60" expected
    else if b = code '-' then pass; wrongType (numeralWords (← number true)) expected
    else if isDigit b then wrongType (numeralWords (← number false)) expected
    else if b = 34 then pass; wrongType ("string " ++ Text.debug (← text)) expected
    else if b = code '[' then wrongType "sequence" expected
    else if b = 123 then wrongType "map" expected
    else failNext expectedValue

/-- A number from zero to a limit. -/
def natural (expected : String) (greatest : Nat) : Reads Nat := do
  let b ← peekToken
  let negative := isByte b '-'
  if negative || (b.map isDigit).getD false then
    if negative then pass
    match ← number negative with
    | .float x => wrongType (numeralWords (.float x)) expected
    | .integer n =>
      if 0 ≤ n && n ≤ greatest then return n.toNat
      else failHere ("invalid value: " ++ numeralWords (.integer n) ++ ", expected " ++ expected)
  else wrongValue expected

/-- A truth value. -/
def truth : Reads Bool := do
  let b ← peekToken
  if isByte b 't' then pass; word ['r', 'u', 'e']; return true
  else if isByte b 'f' then pass; word ['a', 'l', 's', 'e']; return false
  else wrongValue "a boolean"

/-- A text. -/
def textValue (expected : String) : Reads String := do
  if (← peekToken) = some 34 then pass; text else wrongValue expected

/-- A path, or none. -/
def pathOrNone : Reads (Option String) := do
  if isByte (← peekToken) 'n' then pass; word ['u', 'l', 'l']; return none
  else return some (← textValue "path string")

/-- Read the value of a key. -/
def readValue (s : Settings) : Key → Reads Settings
  | .pollInterval => return { s with pollInterval := ← natural "u64" 0xFFFFFFFFFFFFFFFF }
  | .hookInterval => return { s with hookInterval := ← natural "u32" 0xFFFFFFFF }
  | .lineLimit => return { s with lineLimit := ← natural "usize" 0xFFFFFFFFFFFFFFFF }
  | .dumpName => return { s with dumpName := ← textValue "a string" }
  | .color => return { s with color := ← truth }
  | .debug => return { s with debug := ← truth }
  | .dataDir => return { s with dataDir := ← pathOrNone }

/-! ### Objects and lists -/

/-- Whether an object has one more member; its key comes next. -/
def moreMembers (first : Bool) : Reads Bool := do
  match ← peekToken with
  | none => failNext eofObject
  | some b =>
    if b = 125 then return false
    else if first then if b = 34 then return true else failNext keyNoText
    else if b = code ',' then
      pass
      match ← peekToken with
      | none => failNext eofValue
      | some b =>
        if b = 34 then return true
        else if b = 125 then failNext trailingComma
        else failNext keyNoText
    else failNext objectGoesOn

/-- The colon between a key and its value. -/
def colon : Reads Unit := do
  match ← peekToken with
  | none => failNext eofObject
  | some b => if b = code ':' then pass else failNext "expected \x60:\x60"

/-- A key that occurred before; the problem lies behind the end of the object, if that follows. -/
def duplicate {α : Type} (k : Key) : Reads α := do
  if (← peekToken) = some 125 then pass
  failHere ("duplicate field \x60" ++ k.name ++ "\x60")

/-- Read the members of an object from behind its opening brace. -/
def members : Nat → Bool → List Key → Settings → Reads Settings
  | 0, _, _, _ => failNext eofObject
  | fuel + 1, first, seen, s => do
    if ← moreMembers first then
      pass
      match Key.ofName? (← text) with
      | none =>
        colon
        skipValue
        members fuel false seen s
      | some k =>
        if seen.contains k then duplicate k
        else
          colon
          members fuel false (k :: seen) (← s.readValue k)
    else
      pass
      return s

/-- Whether a list has one more element. -/
def moreElements (first : Bool) : Reads Bool := do
  match ← peekToken with
  | none => failNext eofList
  | some b =>
    if b = code ']' then return false
    else if first then return true
    else if b = code ',' then
      pass
      match ← peekToken with
      | none => failNext eofValue
      | some b => if b = code ']' then failNext trailingComma else return true
    else failNext listGoesOn

/-- Read the elements of a list, which are the values of the keys in their order. -/
def elements : List Key → Bool → Settings → Reads Settings
  | [], _, s => return s
  | k :: rest, first, s => do
    if ← moreElements first then elements rest false (← s.readValue k) else return s

/-- The end of a list. -/
def listEnd : Reads Unit := do
  match ← peekToken with
  | none => failNext eofList
  | some b =>
    if b = code ']' then pass
    else if b = code ',' then
      pass
      if isByte (← peekToken) ']' then failNext trailingComma else failNext trailing
    else failNext trailing

/-- Read settings and make sure that nothing follows. -/
def read : Reads Settings := do
  let s ← match ← peekToken with
    | none => failNext eofValue
    | some b =>
      if b = 123 then
        pass
        members ((← get).length + 1) true [] {}
      else if b = code '[' then
        pass
        let s ← elements Key.all true {}
        listEnd
        pure s
      else wrongValue "struct SandboxSettings"
  if (← peekToken).isSome then failNext trailing
  return s

/-- A line is a comment. -/
def isComment (line : String) : Bool := (Text.trim line).startsWith "//"

/-- A text without its comments. -/
def withoutComments (s : String) : String := Text.join "\n" ((Text.lines s).filter fun l => !isComment l)

/-- The settings of a text, or what is wrong with it. -/
def parse (s : String) : Except String Settings :=
  let whole := (Bytes.ofString (withoutComments s)).toList
  match read whole with
  | .ok (settings, _) => .ok settings
  | .error p => .error (p.display whole)

/-- A truth value as it is written. -/
def printTruth (b : Bool) : String := if b then "true" else "false"

/-- The value of a key as it is written; a path that is missing is not. -/
def printValue (s : Settings) : Key → Option String
  | .pollInterval => some (toString s.pollInterval)
  | .hookInterval => some (toString s.hookInterval)
  | .lineLimit => some (toString s.lineLimit)
  | .dumpName => some (quoted s.dumpName)
  | .color => some (printTruth s.color)
  | .debug => some (printTruth s.debug)
  | .dataDir => s.dataDir.map quoted

/-- The text of the settings: an object with a line for each key. -/
def print (s : Settings) : String :=
  let lines := Key.all.filterMap fun k => (s.printValue k).map fun v => "  " ++ quoted k.name ++ ": " ++ v
  "\x7b\n" ++ Text.join ",\n" lines ++ "\n\x7d"

/-- The settings in a file, with what is to be told of problems. Without a file they are the defaults, and so
they are if it cannot be used. -/
def load (t : Tree) (path : String) : Settings × List String :=
  if t.has path then
    match t.readText path with
    | .error e => ({}, ["Error reading " ++ path ++ ": " ++ e.message])
    | .ok s =>
      match parse s with
      | .ok settings => (settings, [])
      | .error e => ({}, ["Error parsing " ++ path ++ ": " ++ e, "Using default sandbox settings"])
  else ({}, [])

/-- Write the settings to a file; the directory is made if it is missing. -/
def save (s : Settings) (t : Tree) (path : String) : Except IoError Unit × Tree :=
  match (match Path.parent? path with
    | some dir => t.createDirs dir
    | none => .ok t) with
  | .error e => (.error e, t)
  | .ok t =>
    match t.write path (Bytes.ofString s.print) with
    | .ok t => (.ok (), t)
    | .error e => (.error e, t)

end Settings

/-- Where the settings and the programs are, by the environment. -/
structure Places where
  home : Option String := none
  config : Option String := none
  data : Option String := none
  deriving DecidableEq, Repr, Inhabited

namespace Places

/-- The places that environment variables tell; only absolute ones count, and the home must not be empty. -/
def ofEnv (env : List (String × String)) : Places :=
  let absolute (name : String) : Option String := (env.lookup name).filter Path.isAbsolute
  ⟨(env.lookup "HOME").filter (· ≠ ""), absolute "XDG_CONFIG_HOME", absolute "XDG_DATA_HOME"⟩

/-- A directory below the home. -/
def below (p : Places) (dir : String) : Option String := p.home.map fun h => Path.join h dir

/-- The directory of configurations. -/
def configDir (p : Places) : String := (p.config.or (p.below ".config")).getD "."

/-- The directory of data. -/
def dataDir (p : Places) : String := (p.data.or (p.below ".local/share")).getD "."

/-- The file of the settings. -/
def settingsFile (p : Places) : String := Path.join (Path.join p.configDir "consoles") "sandbox.json"

end Places

/-- The directory of the programs. -/
def Settings.programDir (s : Settings) (p : Places) : String :=
  s.dataDir.getD (Path.join p.dataDir "consoles")

end ScriptHost

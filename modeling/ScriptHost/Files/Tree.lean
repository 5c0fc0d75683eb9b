import ScriptHost.Fault
import ScriptHost.Files.Path
import ScriptHost.Text.Utf8
import Std.Data.HashMap

/-!
# A tree of files

* `Tree`: the files and directories by their places.
* `Tree.locate`: the place that a path leads to, walking from directory to directory.
* `Tree.read`, `Tree.createNew`, `Tree.write`, `Tree.createDirs`: the operations, with the failures that the
  system gives them.
-/

namespace ScriptHost

namespace IoError

/-- No such file or directory. -/
def missing : IoError := ⟨.notFound, "No such file or directory (os error 2)"⟩

/-- A file stands where a directory should be. -/
def noDirectory : IoError := ⟨.notADirectory, "Not a directory (os error 20)"⟩

/-- A directory stands where a file should be. -/
def directory : IoError := ⟨.isADirectory, "Is a directory (os error 21)"⟩

/-- There is a file or directory already. -/
def taken : IoError := ⟨.alreadyExists, "File exists (os error 17)"⟩

/-- A text that is not UTF-8. -/
def noText : IoError := ⟨.invalidData, "stream did not contain valid UTF-8"⟩

end IoError

/-- What is at a place of a tree. -/
inductive Node where
  | file (content : Bytes)
  | dir
  deriving Inhabited

/-- A tree of files. Places are paths without dots; those that start at the root begin with a slash. The
directory that relative paths start from and the root are always there. -/
structure Tree where
  nodes : Std.HashMap String Node := {}
  deriving Inhabited

namespace Tree

/-- The place one name below another place. -/
def below (place name : String) : String :=
  if place = "" then name
  else if place = "/" then "/" ++ name
  else place ++ "/" ++ name

/-- The place above another place. Above the directory that relative paths start from there is none known. -/
def above (place : String) : String :=
  if place = "/" then "/"
  else
    let rest := place.toList.reverse.dropWhile (· != '/')
    match rest with
    | [] => if place = "" then "/.." else ""
    | ['/'] => "/"
    | _ :: r => String.ofList r.reverse

/-- What is at a place. -/
def node? (t : Tree) (place : String) : Option Node :=
  if place = "" || place = "/" then some .dir else t.nodes[place]?

/-- Where a path leads. -/
inductive Location where
  | found (place : String) (node : Node)
  /-- Nothing is there, but the directory that would hold it is. -/
  | vacant (place : String)

/-- Walk from a place; `mustBeDir` says whether the path ends with a slash or a dot. -/
def walk (t : Tree) (place : String) (mustBeDir : Bool) : List Component → Except IoError Location
  | [] =>
    match t.node? place with
    | some .dir => .ok (.found place .dir)
    | some (.file b) => if mustBeDir then .error .noDirectory else .ok (.found place (.file b))
    | none => .error .missing
  | c :: rest =>
    match t.node? place with
    | some .dir =>
      match c with
      | .root => walk t "/" mustBeDir rest
      | .current => walk t place mustBeDir rest
      | .parent => walk t (above place) mustBeDir rest
      | .name s =>
        match t.node? (below place s), rest with
        | none, [] => if mustBeDir then .error .missing else .ok (.vacant (below place s))
        | _, _ => walk t (below place s) mustBeDir rest
    | some (.file _) => .error .noDirectory
    | none => .error .missing

/-- The path ends with a slash or a dot, so that only a directory can be meant. -/
def meansDir (path : String) : Bool :=
  path.endsWith "/" || path.endsWith "/." || path = "."

/-- The place that a path leads to. -/
def locate (t : Tree) (path : String) : Except IoError Location :=
  if path = "" then .error .missing else t.walk "" (meansDir path) (Path.components path)

/-- There is something at a path. -/
def has (t : Tree) (path : String) : Bool :=
  match t.locate path with
  | .ok (.found _ _) => true
  | _ => false

/-- There is a directory at a path. -/
def isDir (t : Tree) (path : String) : Bool :=
  match t.locate path with
  | .ok (.found _ .dir) => true
  | _ => false

/-- Open what is at a path; a directory can be opened but not read. -/
def openFile (t : Tree) (path : String) : Except IoError Node :=
  match t.locate path with
  | .ok (.found _ n) => .ok n
  | .ok (.vacant _) => .error .missing
  | .error e => .error e

/-- The content of a file. -/
def read (t : Tree) (path : String) : Except IoError Bytes :=
  match t.openFile path with
  | .ok (.file b) => .ok b
  | .ok .dir => .error .directory
  | .error e => .error e

/-- The content of a file as text. -/
def readText (t : Tree) (path : String) : Except IoError String :=
  match t.read path with
  | .ok b => match Utf8.decode b with
    | .ok s => .ok s
    | .error _ => .error .noText
  | .error e => .error e

/-- Put something at a place. -/
def insert (t : Tree) (place : String) (n : Node) : Tree := { t with nodes := t.nodes.insert place n }

/-- Create a file that is not there yet. -/
def createNew (t : Tree) (path : String) (content : Bytes) : Except IoError Tree :=
  match t.locate path with
  | .ok (.vacant place) => .ok (t.insert place (.file content))
  | .ok (.found _ _) => .error .taken
  | .error e => .error e

/-- Write a file, in the place of the one that is there, if any. -/
def write (t : Tree) (path : String) (content : Bytes) : Except IoError Tree :=
  match t.locate path with
  | .ok (.vacant place) => .ok (t.insert place (.file content))
  | .ok (.found place (.file _)) => .ok (t.insert place (.file content))
  | .ok (.found _ .dir) => .error .directory
  | .error e => .error e

/-- Create the missing directories on the way from a place. -/
def createFrom (t : Tree) (place : String) : List Component → Except IoError Tree
  | [] => .ok t
  | .root :: rest => createFrom t "/" rest
  | .current :: rest => createFrom t place rest
  | .parent :: rest => createFrom t (above place) rest
  | .name s :: rest =>
    match t.node? (below place s) with
    | some .dir => createFrom t (below place s) rest
    | some (.file _) => .error (if rest.isEmpty then .taken else .noDirectory)
    | none => createFrom (t.insert (below place s) .dir) (below place s) rest

/-- Create a directory and those above it, as far as they are missing. -/
def createDirs (t : Tree) (path : String) : Except IoError Tree := t.createFrom "" (Path.components path)

/-- Put a node at a place and directories above it. -/
def plant (t : Tree) (path : String) (n : Node) : Tree :=
  match (Path.components path).reverse with
  | .name s :: rest =>
    let dirs := rest.reverse
    match t.createFrom "" dirs with
    | .ok t => t.insert (below (dirs.foldl (fun place c => match c with
        | .root => "/"
        | .name d => below place d
        | _ => place) "") s) n
    | .error _ => t
  | _ => t

/-- The files below the directory that relative paths start from. -/
def files (t : Tree) : List (String × Bytes) :=
  t.nodes.toList.filterMap fun (place, n) => match n with
    | .file b => if place.startsWith "/" then none else some (place, b)
    | .dir => none

end Tree

end ScriptHost

import ScriptHost.Text.Blank

/-!
# Paths

A path is a text whose components are parted by slashes.

* `Path.join`: a path below another one.
* `Path.parent?`, `Path.fileName?`: a path without its last component, and that component.
* `Path.components`: what the parts of a path mean.
-/

namespace ScriptHost

/-- A part of a path. -/
inductive Component where
  /-- The slash at the start. -/
  | root
  /-- A dot at the start. -/
  | current
  /-- Two dots. -/
  | parent
  | name (s : String)
  deriving DecidableEq, Repr, Inhabited

namespace Path

/-- The texts between the slashes. -/
def split : List Char → List (List Char)
  | [] => [[]]
  | c :: rest =>
    if c = '/' then [] :: split rest
    else match split rest with
      | first :: others => (c :: first) :: others
      | [] => [[c]]

/-- The texts between the slashes of a path. -/
def parts (path : String) : List String := (split path.toList).map String.ofList

/-- What a text between slashes means where it is not the first: nothing, if it is empty or a single dot. -/
def component? (s : String) : Option Component :=
  if s = "" || s = "." then none
  else if s = ".." then some .parent
  else some (.name s)

/-- The path starts at the root. -/
def isAbsolute (path : String) : Bool := path.startsWith "/"

/-- The parts of a path: slashes that follow another one and dots that follow a slash mean nothing. -/
def components (path : String) : List Component :=
  let rest := (parts path).filterMap component?
  if isAbsolute path then .root :: rest
  else match parts path with
    | "." :: _ => .current :: rest
    | _ => rest

/-- A path below another one; an absolute path replaces it. -/
def join (base path : String) : String :=
  if isAbsolute path then path
  else if base = "" || base.endsWith "/" then base ++ path
  else base ++ "/" ++ path

/-- The text of a part. -/
def Component.text : Component → String
  | .root => "/"
  | .current => "."
  | .parent => ".."
  | .name s => s

/-- The path with the given parts. -/
def ofComponents (cs : List Component) : String := cs.foldl (fun path c => join path (Component.text c)) ""

/-- A path without its last part; the root and the empty path have no parent. -/
def parent? (path : String) : Option String :=
  match (components path).reverse with
  | [] | .root :: _ => none
  | _ :: rest => some (ofComponents rest.reverse)

/-- The last part of a path, if it is a name. -/
def fileName? (path : String) : Option String :=
  match (components path).getLast? with
  | some (.name s) => some s
  | _ => none

end Path

end ScriptHost

/-!
# Modes

A session is restricted or privileged. The mode decides which libraries a script gets and which bundles of
host functions are offered to it.
-/

namespace ScriptHost

/-- How much a session may do. -/
inductive Mode where
  | restricted
  | privileged
  deriving DecidableEq, Repr, Inhabited

namespace Mode

/-- The word for a mode. -/
def display : Mode → String
  | .restricted => "restricted"
  | .privileged => "privileged"

/-- The libraries that every script gets. -/
def commonLibraries : List String := ["string", "table", "math", "utf8"]

/-- The libraries that only a privileged script gets. -/
def privilegedLibraries : List String := ["coroutine", "os"]

/-- The libraries of a mode. -/
def libraries : Mode → List String
  | .restricted => commonLibraries
  | .privileged => commonLibraries ++ privilegedLibraries

end Mode

end ScriptHost

import ScriptHost.CommandLine.Basic

/-!
# The program

The environment, the standard input and the files that matter are gathered, and the answer of the command line
is carried out: files are written, then both outputs, and the exit code is handed back.
-/

namespace ScriptHost.CommandLine

/-- What has been opened: a directory can be opened but not read. -/
def nodeOf (opened : IO.FS.Handle) : IO Node := do
  try return .file (← opened.readBinToEnd)
  catch _ => return .dir

/-- What is at a path, if anything is. -/
def lookAt (path : String) : IO (Option Node) := do
  try return some (← nodeOf (← IO.FS.Handle.mk path .read))
  catch _ => return none

/-- The tree with what is at a path. -/
def addPath (t : Tree) (path : String) : IO Tree := do
  match ← lookAt path with
  | some n => return t.plant path n
  | none => return t

/-- The tree with what is at a path with a number behind it, from `n` on, until nothing is there. -/
def addNumbered (t : Tree) (path : String) : Nat → Nat → IO Tree
  | 0, _ => return t
  | fuel + 1, n => do
    match ← lookAt (path ++ toString n) with
    | some found => addNumbered (t.plant (path ++ toString n) found) path fuel (n + 1)
    | none => return t

/-- The number of the first thread that a process starts: the one behind its own. -/
def firstThread : IO Nat := do
  let fields := (← IO.FS.readFile "/proc/self/stat").splitOn " "
  return ((fields.headD "").toNat?.getD 0) + 1

/-- Everything that the answer depends on. -/
def gather (args : List String) : IO Invocation := do
  let env := environment (← IO.FS.readBinFile "/proc/self/environ")
  let g : Invocation := { args, env, stdin := ByteArray.empty, files := {}, thread := ← firstThread }
  let files ← (needs g).paths.foldlM addPath {}
  let known := needs { g with files }
  let files ← known.paths.foldlM addPath files
  let files ← match known.numbered with
    | some path => addNumbered files path Reporter.maxDumps 0
    | none => pure files
  let stdin ← if known.input then (← IO.getStdin).readBinToEnd else pure ByteArray.empty
  return { g with files, stdin }

/-- Write the files that an answer brings and that were not there before. -/
def store (before after : Tree) : IO Unit := do
  for (place, n) in after.nodes.toList.mergeSort (fun a b => decide (a.1.length ≤ b.1.length)) do
    match n with
    | .dir => unless (before.node? place).isSome do IO.FS.createDirAll place
    | .file b =>
      match before.node? place with
      | some (.file old) => unless old == b do IO.FS.writeBinFile place b
      | _ => IO.FS.writeBinFile place b

end ScriptHost.CommandLine

/-- Answer the arguments. -/
def main (args : List String) : IO UInt32 := do
  let g ← ScriptHost.CommandLine.gather args
  let a := ScriptHost.CommandLine.answer g
  ScriptHost.CommandLine.store g.files a.files
  let out ← IO.getStdout
  out.write a.stdout
  out.flush
  (← IO.getStderr).putStr a.stderr
  return a.code.toUInt32

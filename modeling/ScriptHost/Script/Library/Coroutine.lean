import ScriptHost.Script.Library.Arguments

/-!
# The coroutine library
-/

namespace ScriptHost.Script.Library

variable {σ : Type}

/-- What a thread is doing. -/
def threadStatus (t : Nat) : Act σ ThreadStatus := Act.readHeap fun h => h.threads.getD t .dead

def coCreate (args : Args) : Act σ (Array Value) := do
  return #[.thread (← Act.spawn (← args.function 1))]

def coResume (args : Args) : Act σ (Array Value) := do
  let t ← args.thread 1
  match ← Act.resume t (args.from' 2) with
  | .values vs => return #[.bool true] ++ vs
  | .failed v => return #[.bool false, v]

def coWrap (args : Args) : Act σ (Array Value) := do
  let t ← Act.spawn (← args.function 1)
  return #[← Act.withHeap fun h => h.newBound ⟨.wrapped, #[.thread t]⟩]

/-- A thread called like a function: its failure ends it and is raised again, a text with the place of the
caller in front. -/
def callWrapped (t : Nat) (args : Args) : Act σ (Array Value) := do
  let before ← threadStatus t
  match ← Act.resume t args with
  | .values vs => return vs
  | .failed v =>
    let v ← if before == .suspended && (← threadStatus t) == .dead then
        match ← Act.finish t with
        | .failed v => pure v
        | .values _ => pure v
      else pure v
    match v with
    | .str s => Act.raise (.level 1 s)
    | v => Act.raise (.value v)

def coStatus (args : Args) : Act σ (Array Value) := do
  return #[.ofString (← threadStatus (← args.thread 1)).name]

def coRunning (_ : Args) : Act σ (Array Value) := do
  let t := (← Act.context).thread
  return #[.thread t, .bool (t == 0)]

def coIsYieldable (args : Args) : Act σ (Array Value) := do
  if args.size == 0 then return #[.bool (← Act.context).yieldable]
  let t ← args.thread 1
  let c ← Act.context
  return #[.bool (if t == c.thread then c.yieldable else t != 0)]

def coClose (args : Args) : Act σ (Array Value) := do
  let t ← args.thread 1
  match ← threadStatus t with
  | .dead | .suspended =>
    match ← Act.finish t with
    | .values _ => return #[.bool true]
    | .failed v => return #[.bool false, v]
  | s => Act.fail ("cannot close a " ++ s.name ++ " coroutine")

end ScriptHost.Script.Library

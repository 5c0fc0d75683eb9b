import ScriptHost.Binding.Function

/-!
# The functions of a session

A pool holds the functions that a session gets from the host, in the order in which they came, and the actions
to run when it ends.

* `Pool.register`, `Pool.install`, `Pool.insert`: three ways to add a function; they differ in how it fails.
* `Pool.onCleanup`, `Pool.cleanup`: the actions, which run once, the newest first.
-/

namespace ScriptHost

open ScriptHost.Script Binding

/-- A function of a pool. -/
structure PoolEntry (σ : Type) where
  name : String
  body : Array Value → Act σ (Array Value)

/-- The functions of a session. -/
structure Pool (σ : Type) where
  entries : Array (PoolEntry σ) := #[]
  /-- The actions to run at the end, the newest first. -/
  cleanups : List (σ → σ) := []
  isCleanedUp : Bool := false

namespace Pool

variable {σ : Type}

instance : Inhabited (Pool σ) := ⟨{}⟩

/-- There is a function of this name. -/
def contains (p : Pool σ) (name : String) : Bool := p.entries.any fun e => e.name == name

/-- The names of the functions. -/
def names (p : Pool σ) : List String := p.entries.toList.map PoolEntry.name

/-- Add a function that fails as it likes. -/
def insert (p : Pool σ) (name : String) (body : Array Value → Act σ (Array Value)) :
    Except SetupError (Pool σ) :=
  if p.contains name then .error (.duplicateBinding name)
  else .ok { p with entries := p.entries.push ⟨name, body⟩ }

/-- Add a function that converts its arguments itself: all its failures carry its name. -/
def install (p : Pool σ) (f : HostFunction σ) : Except SetupError (Pool σ) :=
  p.insert f.name fun args => Act.tagging f.name (do
    let values ← Arguments.all ⟨.inside, args⟩
    let run ← f.accept ⟨.inside, values⟩
    run)

/-- Add a function whose arguments are converted before it begins: the failures to do so do not carry its
name. -/
def register (p : Pool σ) (f : HostFunction σ) : Except SetupError (Pool σ) :=
  p.insert f.name fun args => do
    let run ← f.accept ⟨.before, args⟩
    Act.tagging f.name run

/-- Add functions in order. -/
def registerAll (p : Pool σ) (fs : List (HostFunction σ)) : Except SetupError (Pool σ) := fs.foldlM register p

/-- Add the functions of some bundles. -/
def seed (p : Pool σ) (bundles : List (Bundle σ)) : Except SetupError (Pool σ) :=
  bundles.foldlM (fun p b => b.functions.foldlM install p) p

/-- Have an action run at the end, or at once if that has come. -/
def onCleanup (p : Pool σ) (action : σ → σ) (s : σ) : Pool σ × σ :=
  if p.isCleanedUp then (p, action s) else ({ p with cleanups := action :: p.cleanups }, s)

/-- Run the actions, the newest first, unless that has been done. -/
def cleanup (p : Pool σ) (s : σ) : Bool × Pool σ × σ :=
  if p.isCleanedUp then (false, p, s)
  else (true, { p with cleanups := [], isCleanedUp := true }, p.cleanups.foldl (fun s action => action s) s)

end Pool

end ScriptHost

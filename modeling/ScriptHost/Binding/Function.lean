import ScriptHost.Binding.Conversion
import ScriptHost.Mode
import ScriptHost.Text.Printable

/-!
# Host functions

* `HostFunction`: a function of the host under a name, with the conversion of its arguments.
* `Act.tagging`: a failure of a host function carries its name.
* `Bundle`, `Registry`: functions that are offered together, and the bundles in the order in which they came.
  A bundle can be restricted; then only privileged sessions get it.
-/

namespace ScriptHost

open ScriptHost.Script

namespace Script

variable {σ α : Type}

/-- Change the failures that the host raises. -/
def Outcome.mapFault (f : Fault → Fault) : Outcome σ α → Outcome σ α
  | .done a h s => .done a h s
  | .raised (.host e) h s => .raised (.host (f e)) h s
  | .raised r h s => .raised r h s
  | .call g args mode k h s => .call g args mode (fun r h s => (k r h s).mapFault f) h s
  | .spawn g k h s => .spawn g (fun r h s => (k r h s).mapFault f) h s
  | .resume t args k h s => .resume t args (fun r h s => (k r h s).mapFault f) h s
  | .yield vs k h s => .yield vs (fun r h s => (k r h s).mapFault f) h s
  | .finish t k h s => .finish t (fun r h s => (k r h s).mapFault f) h s
  | .inspect k h s => .inspect (fun r h s => (k r h s).mapFault f) h s
  | .wait ms k h s => .wait ms (fun r h s => (k r h s).mapFault f) h s

/-- What a value that a call failed with means to the host: the failure that it raised itself, or the text of
the value. -/
def Heap.hostFailure (h : Heap) (v : Value) : HostFailure :=
  match v with
  | .failure id => h.failures.getD id default
  | v => .fault (.runtime (match v.toText? with
    | some b => Utf8.decodeLossy b
    | none => "<unprintable error>"))

/-- Call a function of the script from a host function; its failure becomes that of the host function. -/
def Act.callScript (f : Value) (args : Array Value) : Act σ (Array Value) := do
  match ← Act.guarded f args .trace with
  | .values vs => return vs
  | .failed v =>
    match ← Act.readHeap fun h => h.hostFailure v with
    | .fault e => Act.raise (.host e)
    | .panic m => Act.raise (.panic m)

/-- A computation whose failures carry the name of a host function. -/
def Act.tagging (name : String) (act : Act σ α) : Act σ α := fun h s => (act h s).mapFault (·.tagged name)

end Script

open Binding

/-- A function of the host. -/
structure HostFunction (σ : Type) where
  name : String
  /-- Converts the arguments; the answer is what to do with them. -/
  accept : Arguments → Act σ (Act σ (Array Value))

namespace HostFunction

variable {σ α β γ δ : Type}

/-- A function without arguments. -/
def nullary (name : String) (run : Act σ (Array Value)) : HostFunction σ := ⟨name, fun _ => return run⟩

/-- A function of one argument. -/
def unary (name : String) (a : Kind α) (run : α → Act σ (Array Value)) : HostFunction σ where
  name := name
  accept args := do return run (← args.take 1 a)

/-- A function of two arguments. -/
def binary (name : String) (a : Kind α) (b : Kind β) (run : α → β → Act σ (Array Value)) :
    HostFunction σ where
  name := name
  accept args := do return run (← args.take 1 a) (← args.take 2 b)

/-- A function of three arguments. -/
def ternary (name : String) (a : Kind α) (b : Kind β) (c : Kind γ)
    (run : α → β → γ → Act σ (Array Value)) : HostFunction σ where
  name := name
  accept args := do return run (← args.take 1 a) (← args.take 2 b) (← args.take 3 c)

/-- A function of four arguments. -/
def quaternary (name : String) (a : Kind α) (b : Kind β) (c : Kind γ) (d : Kind δ)
    (run : α → β → γ → δ → Act σ (Array Value)) : HostFunction σ where
  name := name
  accept args := do return run (← args.take 1 a) (← args.take 2 b) (← args.take 3 c) (← args.take 4 d)

/-- A function of any number of arguments. -/
def variadic (name : String) (run : Array Value → Act σ (Array Value)) : HostFunction σ where
  name := name
  accept args := do return run (← args.all)

end HostFunction

/-- Functions that are offered together. -/
structure Bundle (σ : Type) where
  name : String
  /-- Only privileged sessions get the functions. -/
  isRestricted : Bool := false
  functions : List (HostFunction σ) := []

/-- The functions of a bundle as a list of their names. -/
def Bundle.debug {σ : Type} (b : Bundle σ) : String :=
  "[" ++ Text.join ", " (b.functions.map fun f => "HostFunction \x7b name: " ++ Text.debug f.name ++ " \x7d") ++ "]"

/-- A bundle is offered to sessions of a mode. -/
def Bundle.allowedIn {σ : Type} (b : Bundle σ) (m : Mode) : Bool := m = .privileged || !b.isRestricted

/-- The bundles in the order in which they came; no two have the same name. -/
structure Registry (σ : Type) where
  bundles : List (Bundle σ) := []

namespace Registry

variable {σ : Type}

/-- Add a bundle, unless there is one of its name. -/
def register (r : Registry σ) (b : Bundle σ) : Except SetupError (Registry σ) :=
  if r.bundles.any fun c => c.name == b.name then .error (.duplicateBundle b.name)
  else .ok ⟨r.bundles ++ [b]⟩

/-- The bundles for sessions of a mode. -/
def resolve (r : Registry σ) (m : Mode) : List (Bundle σ) := r.bundles.filter fun b => b.allowedIn m

/-- The bundle of a name. -/
def get? (r : Registry σ) (name : String) : Option (Bundle σ) := r.bundles.find? fun b => b.name == name

/-- The names of all bundles. -/
def names (r : Registry σ) : List String := r.bundles.map Bundle.name

end Registry

end ScriptHost

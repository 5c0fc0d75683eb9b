import ScriptHost.Proofs.Session.Nesting
import ScriptHost.Report.Layers

/-!
# The breakdown of a failure under layers

A failure comes with layers around it: calls of host functions, contexts, the name of a host function, and failures that
carry others.  Its breakdown is read off the layers, wherever each of them lies.

* `Layer.text?`, `Layer.function?`, `Layer.trace?` — what a layer says;
* `Fault.isBare`, `Fault.isForeign`, `Fault.message` — a failure under no layer, one of another component, and what
  it says itself;
* `Fault.told` — the layers that such a failure makes;
* **`breakdownFrom_follows`**, **`breakdownFrom_under`** — the walk from any point on;
* **`breakdown_under`** — the layers and the trace of a failure under at most fifteen layers.

The walk carries three things: the layers found so far, the trace of the outermost call, and the name of the host
function that has not been told yet.  It is generalised over all three.
-/

namespace ScriptHost

/-! ### What a layer says -/

namespace Layer

/-- The text of a context. -/
def text? : Layer → Option String
  | context text => some text
  | _ => none

/-- The name of the host function that failed. -/
def function? : Layer → Option String
  | invocation function => some function
  | _ => none

/-- The trace at the call of a host function. -/
def trace? : Layer → Option String
  | callback trace => some trace
  | _ => none

end Layer

namespace Fault

/-- A failure that is under no layer. -/
def isBare : Fault → Bool
  | .callback .. | .context .. | .invocation .. | .carried _ => false
  | _ => true

/-- A failure of another component, which may have causes of its own. -/
def isForeign : Fault → Bool
  | .signal | .chain .. | .endless _ | .io _ | .setup _ => true
  | _ => false

/-- What a failure says itself: its text if it came about while the script ran or was compiled, else how it is shown. -/
def message : Fault → String
  | .runtime m | .malformed m => m
  | f => f.display

/-- The layers that a failure under no layer makes when there are some before it: what it says, after the name of the
host function that failed, and its causes if it is of another component. -/
def told (f : Fault) (function : Option String) (before : Nat) : List String :=
  withFunction function f.message :: if f.isForeign then roomFor (before + 1) f.causes else []

/-! ### The walk -/

/-- The walk ends at a failure that is under no layer. -/
theorem breakdownFrom_bare {f : Fault} (hf : f.isBare = true) (fuel : Nat) (function : Option String)
    (layers : List String) (trace : Option String) :
    breakdownFrom (fuel + 1) f function layers trace = ⟨layers ++ f.told function layers.length, trace⟩ := by
  -- a failure that is not of another component has no causes, so what stands after its message is empty
  have hending (hmessage : f.message = f.display) (hcauses : f.isForeign = false → f.causes = .ending []) :
      breakdownFrom.ending f function layers trace = ⟨layers ++ f.told function layers.length, trace⟩ := by
    rw [breakdownFrom.ending, told, hmessage, List.length_append, List.length_singleton, List.append_assoc,
      List.singleton_append]
    cases hforeign : f.isForeign with
    | true => rfl
    | false =>
      rw [hcauses hforeign, roomFor, Causes.take, List.take_nil]
      rfl
  cases f with
  | runtime m => rfl
  | malformed m => rfl
  | callback _ _ | context _ _ | invocation _ _ | carried _ => cases hf
  | _ => exact hending rfl fun hforeign => by first | rfl | cases hforeign

/-- **The walk follows layers** of which at most one names a host function, one after the other. -/
theorem breakdownFrom_follows (ls : List Layer) (fuel : Nat) (f : Fault) :
    ∀ (function : Option String) (layers : List String) (trace : Option String),
      (function.toList ++ ls.filterMap Layer.function?).length ≤ 1 →
      breakdownFrom (ls.length + fuel) (under ls f) function layers trace
        = breakdownFrom fuel f (function.or (ls.findSome? Layer.function?)) (layers ++ ls.filterMap Layer.text?)
            (trace.or (ls.findSome? Layer.trace?)) := by
  induction ls with
  | nil =>
    intro function layers trace _
    rw [List.length_nil, Nat.zero_add, List.filterMap_nil, List.append_nil, List.findSome?_nil, List.findSome?_nil,
      Option.or_none, Option.or_none]
    rfl
  | cons l rest ih =>
    intro function layers trace hone
    rw [List.length_cons, Nat.succ_add]
    cases l with
    | callback t =>
      have hwalk := ih function layers (trace.or (some t)) hone
      rw [Option.or_assoc] at hwalk
      exact hwalk
    | context text =>
      have hwalk := ih function (layers ++ [text]) trace hone
      rw [← List.append_cons] at hwalk
      exact hwalk
    | invocation name =>
      -- no other host function has been named so far
      cases function with
      | some other => exact absurd hone (by simp [Layer.function?])
      | none => exact ih (some name) layers trace hone
    | carried => exact ih function layers trace hone

/-- **The walk** through layers of which at most one names a host function, from any point on. -/
theorem breakdownFrom_under {f : Fault} (hf : f.isBare = true) (ls : List Layer) {fuel : Nat} {function : Option String}
    (layers : List String) (trace : Option String) (hfuel : ls.length < fuel)
    (hone : (function.toList ++ ls.filterMap Layer.function?).length ≤ 1) :
    breakdownFrom fuel (under ls f) function layers trace
      = { layers := layers ++ ls.filterMap Layer.text?
            ++ f.told (function.or (ls.findSome? Layer.function?)) (layers ++ ls.filterMap Layer.text?).length
          trace := trace.or (ls.findSome? Layer.trace?) } := by
  obtain ⟨more, rfl⟩ := Nat.exists_eq_add_of_lt hfuel
  rw [Nat.add_assoc, breakdownFrom_follows ls _ f function layers trace hone, breakdownFrom_bare hf]

/-- **The breakdown of a failure under layers.**  There are at most fifteen of them, and at most one names a host
function.  The layers of the breakdown are the contexts from the outside in, and then what the failure itself says,
after the name of the host function if one is named; if the failure is of another component its causes follow, up to
sixteen layers in all.  The trace is that of the outermost call. -/
theorem breakdown_under {f : Fault} (hf : f.isBare = true) {ls : List Layer} (hdepth : ls.length ≤ 15)
    (hone : (ls.filterMap Layer.function?).length ≤ 1) :
    let contexts := ls.filterMap Layer.text?
    (under ls f).breakdown =
      { layers := contexts ++ withFunction (ls.findSome? Layer.function?) f.message ::
          if f.isForeign then f.causes.take (16 - (contexts.length + 1)) else []
        trace := ls.findSome? Layer.trace? } :=
  breakdownFrom_under hf ls [] none (Nat.lt_succ_of_le hdepth) hone

/-- A failure of another component with four causes, under fifteen layers: there is room for three of the causes. -/
theorem breakdown_under_full :
    let f : Fault := .chain "disk full" ["quota", "volume", "device", "bus"]
    let ls := .callback "outer" :: .invocation "save" :: .callback "inner" :: List.replicate 12 (.context "saving")
    f.isBare = true ∧ ls.length = 15 ∧ (ls.filterMap Layer.function?).length = 1 ∧
      (under ls f).breakdown
        = ⟨List.replicate 12 "saving" ++ ["save: disk full", "quota", "volume", "device"], some "outer"⟩ := by
  intro f ls
  have hmessage : f.message = "disk full" := by simp only [f, message, display]
  have hcauses : f.causes = .ending ["quota", "volume", "device", "bus"] := by simp only [f, causes]
  refine ⟨rfl, rfl, rfl, ?_⟩
  have hbreakdown : (under ls f).breakdown = _ := breakdown_under rfl (by decide) (by decide)
  rw [hmessage, hcauses] at hbreakdown
  exact hbreakdown

end Fault

end ScriptHost

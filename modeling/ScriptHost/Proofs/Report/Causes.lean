import ScriptHost.Proofs.Report.Lines
import ScriptHost.Proofs.Report.Unwrapping

/-!
# When a report names a cause

The walk through a failure stops after sixteen layers, and most kinds of layers say nothing themselves.  So a failure may
have layers and yet a report without a cause.  Here it is said exactly which failures are reported with one.

* `Fault.wrapping`, `Fault.innermost`, `under_wrapping` — the layers around any failure, and what is under them;
* `Fault.reached` — the layers that are looked at;
* `Fault.IsTold` — the walk comes to a failure that it tells;
* **`exists_layer_iff`** — the walk from any point on finds a layer with a property that all told failures have;
* **`cause_named_iff`** — the failures with a layer in their breakdown, and those with a line that names a cause.
-/

namespace ScriptHost

namespace Fault

/-! ### The layers around a failure -/

/-- The layers around a failure, the outermost first. -/
def wrapping : Fault → List Layer
  | .callback trace cause => .callback trace :: wrapping cause
  | .context text cause => .context text :: wrapping cause
  | .invocation function source => .invocation function :: wrapping source
  | .carried inner => .carried :: wrapping inner
  | _ => []

/-- The failure under all its layers. -/
def innermost : Fault → Fault
  | .callback _ cause => innermost cause
  | .context _ cause => innermost cause
  | .invocation _ source => innermost source
  | .carried inner => innermost inner
  | f => f

/-- Every failure is its innermost one under its layers. -/
theorem under_wrapping (e : Fault) : under e.wrapping e.innermost = e := by
  fun_induction wrapping e with
  | case1 trace cause ih => exact congrArg (Fault.callback trace) ih
  | case2 text cause ih => exact congrArg (Fault.context text) ih
  | case3 function source ih => exact congrArg (Fault.invocation function) ih
  | case4 inner ih => exact congrArg Fault.carried ih
  | case5 e hcallback hcontext hinvocation hcarried =>
    show e.innermost = e
    rw [innermost]
    · exact hcallback
    · exact hcontext
    · exact hinvocation
    · exact hcarried

theorem isBare_innermost (e : Fault) : e.innermost.isBare = true := by
  fun_induction innermost e with
  | case1 _ _ ih | case2 _ _ ih | case3 _ _ ih | case4 _ ih => exact ih
  | case5 e hcallback hcontext hinvocation hcarried =>
    rw [isBare]
    · exact hcallback
    · exact hcontext
    · exact hinvocation
    · exact hcarried

/-- The layers that the walk looks at. -/
def reached (e : Fault) : List Layer := e.wrapping.take maxDepth

/-- The walk comes to a failure that it tells: the innermost one, or that of a second host function. -/
def IsTold (e : Fault) : Prop :=
  e.wrapping.length < maxDepth ∨ 2 ≤ (e.reached.filterMap Layer.function?).length

/-! ### The walk -/

/-- On its way through layers, of which it looks at no more than `fuel`, the walk comes to a failure that it tells, or to a
context whose text has a property; so many host functions have been named before. -/
def Finds (p : String → Prop) (fuel named : Nat) (ls : List Layer) : Prop :=
  (ls.length < fuel ∨ 2 ≤ named + ((ls.take fuel).filterMap Layer.function?).length) ∨
    ∃ text, Layer.context text ∈ ls.take fuel ∧ p text

variable {p : String → Prop} {fuel named : Nat} {rest : List Layer}

theorem not_finds_zero (hnamed : named ≤ 1) (ls : List Layer) : ¬ Finds p 0 named ls := by
  rintro ((hlt | htwo) | ⟨text, htext, -⟩)
  · exact Nat.not_lt_zero _ hlt
  · exact absurd (Nat.le_trans htwo hnamed) (by decide)
  · cases htext

theorem finds_nil : Finds p (fuel + 1) named [] := .inl (.inl (Nat.succ_pos fuel))

/-- A layer that says nothing. -/
theorem finds_cons_silent {l : Layer} (hfunction : l.function? = none) (htext : ∀ text, l ≠ .context text) :
    Finds p (fuel + 1) named (l :: rest) ↔ Finds p fuel named rest := by
  have hcontext : ∀ text, Layer.context text ∈ l :: rest.take fuel ↔ Layer.context text ∈ rest.take fuel := by
    intro text
    rw [List.mem_cons, or_iff_right]
    exact fun h => htext text h.symm
  simp only [Finds, List.take_succ_cons, List.filterMap_cons_none hfunction, hcontext, List.length_cons,
    Nat.add_lt_add_iff_right]

theorem finds_cons_context (text : String) :
    Finds p (fuel + 1) named (.context text :: rest) ↔ p text ∨ Finds p fuel named rest := by
  have hfunction : (Layer.context text).function? = none := rfl
  have hcontext : (∃ t, Layer.context t ∈ Layer.context text :: rest.take fuel ∧ p t) ↔
      p text ∨ ∃ t, Layer.context t ∈ rest.take fuel ∧ p t := by
    simp only [List.mem_cons, Layer.context.injEq, or_and_right, exists_or, exists_eq_left]
  simp only [Finds, List.take_succ_cons, List.filterMap_cons_none hfunction, hcontext, List.length_cons,
    Nat.add_lt_add_iff_right]
  exact or_left_comm

/-- A second host function is told. -/
theorem finds_cons_second (name : String) : Finds p (fuel + 1) 1 (.invocation name :: rest) := by
  refine .inl (.inr ?_)
  rw [List.take_succ_cons, List.filterMap_cons_some (rfl : (Layer.invocation name).function? = some name),
    List.length_cons]
  omega

/-- The first host function is not. -/
theorem finds_cons_first (name : String) :
    Finds p (fuel + 1) 0 (.invocation name :: rest) ↔ Finds p fuel 1 rest := by
  have hcontext : ∀ text, Layer.context text ∈ Layer.invocation name :: rest.take fuel ↔
      Layer.context text ∈ rest.take fuel := by
    intro text
    rw [List.mem_cons, or_iff_right nofun]
  simp only [Finds, List.take_succ_cons, List.filterMap_cons_some (rfl : (Layer.invocation name).function? = some name),
    hcontext, List.length_cons, Nat.add_lt_add_iff_right, Nat.zero_add, Nat.add_comm 1]

/-- **What the walk finds.**  A property of texts may hold of what the failure says itself, and of every text that has the
name of a host function before it.  Then some layer of the breakdown has it exactly if one found so far has it, or the walk
finds one on its way. -/
theorem exists_layer_iff {f : Fault} (hf : f.isBare = true) (hmessage : p f.message)
    (hnamed : ∀ name m, p (withFunction (some name) m)) (ls : List Layer) :
    ∀ (fuel : Nat) (function : Option String) (layers : List String) (trace : Option String),
      (∃ l ∈ (breakdownFrom fuel (under ls f) function layers trace).layers, p l) ↔
        (∃ l ∈ layers, p l) ∨ Finds p fuel function.toList.length ls := by
  have hstopped (function : Option String) (g : Fault) (ls : List Layer) (layers : List String) (trace : Option String) :
      (∃ l ∈ (breakdownFrom 0 g function layers trace).layers, p l) ↔
        (∃ l ∈ layers, p l) ∨ Finds p 0 function.toList.length ls := by
    have hone : function.toList.length ≤ 1 := by cases function <;> simp
    rw [breakdownFrom, or_iff_left (not_finds_zero hone ls)]
  induction ls with
  | nil =>
    intro fuel function layers trace
    cases fuel with
    | zero => exact hstopped function _ _ layers trace
    | succ fuel =>
      have htold : p (withFunction function f.message) := by
        cases function with
        | none => exact hmessage
        | some name => exact hnamed name _
      show (∃ l ∈ (breakdownFrom (fuel + 1) f function layers trace).layers, p l) ↔ _
      rw [breakdownFrom_bare hf]
      refine ⟨fun _ => .inr finds_nil, fun _ => ⟨_, ?_, htold⟩⟩
      exact List.mem_append_right _ List.mem_cons_self
  | cons l rest ih =>
    intro fuel function layers trace
    cases fuel with
    | zero => exact hstopped function _ _ layers trace
    | succ fuel =>
      cases l with
      | callback t =>
        rw [finds_cons_silent (l := .callback t) rfl fun _ => nofun]
        exact ih fuel function layers (trace.or (some t))
      | context text =>
        have hlayers : (∃ l ∈ layers ++ [text], p l) ↔ (∃ l ∈ layers, p l) ∨ p text := by
          simp only [List.mem_append, List.mem_singleton, or_and_right, exists_or, exists_eq_left]
        rw [finds_cons_context, ← or_assoc, ← hlayers]
        exact ih fuel function (layers ++ [text]) trace
      | invocation name =>
        cases function with
        | some other =>
          -- the walk ends with the text of this failure and its causes
          have hsecond := hnamed other (Fault.invocation name (under rest f)).display
          refine ⟨fun _ => .inr (finds_cons_second name), fun _ => ⟨_, ?_, hsecond⟩⟩
          exact List.mem_append_left _ (List.mem_append_right layers List.mem_cons_self)
        | none =>
          show _ ↔ (∃ l ∈ layers, p l) ∨ Finds p (fuel + 1) 0 (.invocation name :: rest)
          rw [finds_cons_first]
          exact ih fuel (some name) layers trace
      | carried =>
        rw [finds_cons_silent (l := .carried) rfl fun _ => nofun]
        exact ih fuel function layers trace

/-- What some layer of a breakdown says. -/
theorem exists_layer_breakdown_iff {e : Fault} (hmessage : p e.innermost.message)
    (hnamed : ∀ name m, p (withFunction (some name) m)) :
    (∃ l ∈ e.breakdown.layers, p l) ↔ e.IsTold ∨ ∃ text, Layer.context text ∈ e.reached ∧ p text := by
  have hwalk := exists_layer_iff e.isBare_innermost hmessage hnamed e.wrapping maxDepth none [] none
  rw [under_wrapping] at hwalk
  rw [breakdown, hwalk, or_iff_right (by simp), Finds, Option.toList_none, List.length_nil, Nat.zero_add]
  rfl

theorem withFunction_some_ne_empty (name m : String) : withFunction (some name) m ≠ "" := by
  intro h
  have hlength := congrArg String.length h
  rw [withFunction, String.length_append, String.length_append] at hlength
  have hcolon : ": ".length = 2 := by decide
  have hempty : "".length = 0 := by decide
  omega

/-- **Which failures are reported with a cause.**  The breakdown of a failure has a layer exactly if the failure has fewer
than sixteen layers around it, or two of the first sixteen name host functions, or one of these is a context.  If what the
innermost failure says is not empty, the report on a program or its compilation has lines besides the header and those of
the trace exactly in the same cases, where the context has a text that is not empty. -/
theorem cause_named_iff (e : Fault) :
    (e.breakdown.layers ≠ [] ↔ e.IsTold ∨ ∃ text, Layer.context text ∈ e.reached) ∧
      (e.innermost.message ≠ "" → ∀ f ∈ [Failure.compile e, Failure.runtime e], ∃ lines : List String,
        f.classify.lines.map ReportLine.text = f.kind.header :: (lines ++ Failure.traceLines e.breakdown) ∧
          (lines ≠ [] ↔ e.IsTold ∨ ∃ text, Layer.context text ∈ e.reached ∧ text ≠ "")) := by
  refine ⟨?_, fun hmessage f hf => ⟨Failure.layersLines e.breakdown.layers, ?_, ?_⟩⟩
  · have hany := exists_layer_breakdown_iff (e := e) (p := fun _ => True) trivial fun _ _ => trivial
    simp only [and_true] at hany
    rw [← hany, ne_eq, List.eq_nil_iff_forall_not_mem, not_forall_not]
  · have hbreakdown : f.breakdown = e.breakdown := by
      rcases List.mem_pair.mp hf with rfl | rfl <;> rfl
    rw [Failure.classify_texts, hbreakdown]
  · rw [← exists_layer_breakdown_iff (p := (· ≠ "")) hmessage withFunction_some_ne_empty, ne_eq,
      Failure.layersLines_eq_nil_iff]
    simp only [not_forall, exists_prop]

/-- A failure under some calls of host functions that put no names on it. -/
def nestedCalls (n : Nat) : Fault := under (List.replicate n (.callback "stack")) (.runtime "disk full")

/-- Under fifteen calls it is told, and the report has a line that says so. -/
theorem cause_named_iff_fifteen : (nestedCalls 15).innermost.message ≠ "" ∧
    Failure.runtime (nestedCalls 15) ∈ [Failure.compile (nestedCalls 15), Failure.runtime (nestedCalls 15)] ∧
      (nestedCalls 15).breakdown.layers ≠ [] ∧ ∃ lines : List String,
        (Failure.runtime (nestedCalls 15)).classify.lines.map ReportLine.text
          = "lua: runtime error" :: (lines ++ Failure.traceLines (nestedCalls 15).breakdown) ∧ lines ≠ [] := by
  have hmessage : (nestedCalls 15).innermost.message ≠ "" := by decide
  have hmem : Failure.runtime (nestedCalls 15) ∈ [Failure.compile (nestedCalls 15), Failure.runtime (nestedCalls 15)] :=
    List.mem_cons_of_mem _ List.mem_cons_self
  have htold : (nestedCalls 15).IsTold := .inl (by decide)
  obtain ⟨hlayers, hlines⟩ := cause_named_iff (nestedCalls 15)
  obtain ⟨lines, htexts, hne⟩ := hlines hmessage _ hmem
  exact ⟨hmessage, hmem, hlayers.mpr (.inl htold), lines, htexts, hne.mpr (.inl htold)⟩

/-- Under sixteen calls nothing is told: the report has its header and the trace only. -/
theorem cause_unnamed_sixteen : (nestedCalls 16).innermost.message = "disk full" ∧
    (nestedCalls 16).breakdown = ⟨[], some "stack"⟩ ∧
      (Failure.runtime (nestedCalls 16)).classify.lines.map ReportLine.text = ["lua: runtime error", "stack"] := by
  refine ⟨rfl, rfl, ?_⟩
  have htrace : Failure.traceLines ⟨[], some "stack"⟩ = ["stack"] := by
    rw [Failure.traceLines_of_not_shown rfl (by simp)]
    exact Text.lines_single (by decide) (by decide)
  rw [Failure.classify_texts]
  exact congrArg ("lua: runtime error" :: ·) htrace

end Fault

end ScriptHost

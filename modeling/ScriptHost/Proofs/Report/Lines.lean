import Mathlib.Data.List.Forall2
import ScriptHost.Proofs.Text.Lines
import ScriptHost.Report.Layers

/-!
# The lines of a report

A report shows its header, the lines of all layers of the failure, and the lines of the trace.  Here it is said which lines
those are, whatever texts the layers and the trace hold.

* `Text.contains_iff` — that one text occurs in another;
* `Failure.marked` — the lines of layers, numbered, with the mark of a cause where it belongs;
* **`layersLines_eq_marked`** — the lines of all layers are these; `layersLines_eq_nil_iff`, when there are none;
* `traceLines_of_shown`, `traceLines_of_not_shown` — the lines of the trace;
* **`classify_texts`**, `severity_of_mem`, `newline_notMem_of_mem` — the lines of a report.
-/

namespace ScriptHost

/-! ### Searching a text -/

namespace Text

theorem splitAtFrom_isSome_iff (needle s : List Char) : ∀ before : List Char,
    (splitAtFrom needle s before).isSome = true ↔ needle <:+: s := by
  induction s with
  | nil =>
    intro before
    rw [splitAtFrom, List.infix_nil]
    cases needle <;> simp
  | cons c rest ih =>
    intro before
    rw [splitAtFrom, List.infix_cons_iff, ← ih (c :: before), ← List.isPrefixOf_iff_prefix]
    split
    · rename_i hhere
      simp [hhere]
    · rename_i hhere
      simp [hhere]

/-- One text occurs in another if its characters stand there in a row. -/
theorem contains_iff (s needle : String) : contains s needle = true ↔ needle.toList <:+: s.toList := by
  rw [contains, splitAt?, Option.isSome_map, splitAtFrom_isSome_iff]

end Text

namespace Failure

/-! ### The lines of the layers -/

/-- What stands before the first line of a cause. -/
def causeMark : String := "Caused by: "

/-- The lines of layers, in order.  The first line of each layer but the first layer has the mark of a cause. -/
def marked (cuts : List (List String)) : List String :=
  (cuts.mapIdx fun i ls => ls.mapIdx fun j text => if 0 < i ∧ j = 0 then causeMark ++ text else text).flatten

/-- Numbers that do not matter. -/
theorem mapIdx_eq_map {α β : Type} {f : Nat → α → β} {g : α → β} (h : ∀ i x, f i x = g x) (l : List α) :
    l.mapIdx f = l.map g := by
  refine List.ext_getElem? fun i => ?_
  rw [List.getElem?_mapIdx, List.getElem?_map]
  exact congrArg (Option.map · l[i]?) (funext (h i))

theorem layerLines_outermost (layer : String) : layerLines true layer = Text.lines layer := by
  rw [layerLines]
  cases Text.lines layer <;> rfl

theorem layerLines_cause (layer : String) :
    layerLines false layer = (Text.lines layer).mapIdx fun j text => if j = 0 then causeMark ++ text else text := by
  rw [layerLines]
  cases Text.lines layer with
  | nil => rfl
  | cons first rest =>
    rw [List.mapIdx_cons]
    have hrest := mapIdx_eq_map (f := fun i text => if i + 1 = 0 then causeMark ++ text else text) (g := id)
      (fun i text => if_neg (Nat.succ_ne_zero i)) rest
    rw [hrest, List.map_id]
    rfl

/-- **The lines of all layers**: every line of every layer in order, with the mark of a cause where it belongs. -/
theorem layersLines_eq_marked (layers : List String) : layersLines layers = marked (layers.map Text.lines) := by
  cases layers with
  | nil => rfl
  | cons outer causes =>
    have houter : (Text.lines outer).mapIdx (fun j text => if 0 < 0 ∧ j = 0 then causeMark ++ text else text)
        = layerLines true outer := by
      have hplain : ∀ (j : Nat) (text : String), (if 0 < 0 ∧ j = 0 then causeMark ++ text else text) = id text :=
        fun j text => if_neg fun h => Nat.lt_irrefl 0 h.1
      rw [layerLines_outermost, mapIdx_eq_map hplain, List.map_id]
    have hcauses : (causes.map Text.lines).mapIdx (fun i ls => ls.mapIdx fun j text =>
        if 0 < i + 1 ∧ j = 0 then causeMark ++ text else text) = causes.map (layerLines false) := by
      have hmark : ∀ (i : Nat) (ls : List String), (ls.mapIdx fun j text =>
          if 0 < i + 1 ∧ j = 0 then causeMark ++ text else text)
            = ls.mapIdx fun j text => if j = 0 then causeMark ++ text else text := by
        intro i ls
        simp only [Nat.zero_lt_succ, true_and]
      rw [mapIdx_eq_map hmark, List.map_map]
      exact List.map_congr_left fun layer _ => (layerLines_cause layer).symm
    rw [layersLines, marked, List.map_cons, List.mapIdx_cons, List.flatten_cons, houter, hcauses, List.flatMap_def]

theorem layerLines_eq_nil_iff (outermost : Bool) (layer : String) : layerLines outermost layer = [] ↔ layer = "" := by
  rw [← Text.lines_eq_nil_iff, layerLines]
  cases Text.lines layer <;> simp

/-- There are no lines exactly if all layers are empty. -/
theorem layersLines_eq_nil_iff (layers : List String) : layersLines layers = [] ↔ ∀ layer ∈ layers, layer = "" := by
  cases layers with
  | nil => simp [layersLines]
  | cons outer causes => simp [layersLines, layerLines_eq_nil_iff]

/-! ### The lines of the trace -/

variable {b : Breakdown} {t : String}

/-- A trace that a layer shows is not shown again. -/
theorem traceLines_of_shown (ht : b.trace = some t) (h : ∃ layer ∈ b.layers, t.toList <:+: layer.toList) :
    traceLines b = [] := by
  obtain ⟨layer, hlayer, hoccurs⟩ := h
  have hany : b.layers.any (Text.contains · t) = true :=
    List.any_eq_true.mpr ⟨layer, hlayer, (Text.contains_iff layer t).mpr hoccurs⟩
  simp only [traceLines, ht, if_pos hany]

/-- A trace that no layer shows is cut into its lines. -/
theorem traceLines_of_not_shown (ht : b.trace = some t) (h : ¬ ∃ layer ∈ b.layers, t.toList <:+: layer.toList) :
    traceLines b = Text.lines t := by
  have hany : ¬ b.layers.any (Text.contains · t) = true := by
    intro hany
    obtain ⟨layer, hlayer, hcontains⟩ := List.any_eq_true.mp hany
    exact h ⟨layer, hlayer, (Text.contains_iff layer t).mp hcontains⟩
  simp only [traceLines, ht, if_neg hany]

theorem traceLines_of_none (h : b.trace = none) : traceLines b = [] := by
  rw [traceLines, h]

/-! ### All lines -/

/-- **The texts of a report's lines.** -/
theorem classify_texts (f : Failure) :
    f.classify.lines.map ReportLine.text = f.kind.header :: (layersLines f.breakdown.layers ++ traceLines f.breakdown) := by
  rw [classify, Report.ofTexts, List.map_map]
  exact List.map_id _

theorem severity_of_mem {f : Failure} {l : ReportLine} (h : l ∈ f.classify.lines) : l.severity = f.kind.severity := by
  obtain ⟨text, -, rfl⟩ := List.mem_map.mp h
  rfl

theorem newline_notMem_header (kind : ReportKind) : '\n' ∉ kind.header.toList := by
  cases kind <;> decide

theorem newline_notMem_of_mem_layerLines {outermost : Bool} {layer l : String} (h : l ∈ layerLines outermost layer) :
    '\n' ∉ l.toList := by
  rw [layerLines] at h
  cases hlines : Text.lines layer with
  | nil =>
    rw [hlines] at h
    cases h
  | cons first rest =>
    rw [hlines] at h
    have hfirst : '\n' ∉ first.toList := Text.newline_notMem_of_mem_lines (s := layer) (hlines ▸ List.mem_cons_self)
    rcases List.mem_cons.mp h with rfl | hrest
    · cases outermost with
      | true => exact hfirst
      | false =>
        rw [if_neg Bool.false_ne_true, String.toList_append, List.mem_append, not_or]
        exact ⟨by decide, hfirst⟩
    · exact Text.newline_notMem_of_mem_lines (s := layer) (hlines ▸ List.mem_cons_of_mem first hrest)

/-- **Every line** of a report is one line. -/
theorem newline_notMem_of_mem {f : Failure} {l : ReportLine} (h : l ∈ f.classify.lines) : '\n' ∉ l.text.toList := by
  have htext : l.text ∈ f.classify.lines.map ReportLine.text := List.mem_map_of_mem h
  rw [classify_texts, List.mem_cons, List.mem_append] at htext
  rcases htext with hheader | hlayers | htrace
  · rw [hheader]
    exact newline_notMem_header f.kind
  · generalize f.breakdown.layers = layers at hlayers
    cases layers with
    | nil => cases hlayers
    | cons outer causes =>
      rcases List.mem_append.mp hlayers with houter | hcauses
      · exact newline_notMem_of_mem_layerLines houter
      · obtain ⟨cause, -, hcause⟩ := List.mem_flatMap.mp hcauses
        exact newline_notMem_of_mem_layerLines hcause
  · rw [traceLines] at htrace
    split at htrace
    · cases htrace
    · split at htrace
      · cases htrace
      · exact Text.newline_notMem_of_mem_lines htrace

end Failure

end ScriptHost

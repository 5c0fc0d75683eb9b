import ScriptHost.Proofs.Report.Dumps
import ScriptHost.Proofs.Report.Lines
import ScriptHost.Proofs.Text.Utf8

/-!
# A report on the output

Whatever texts a failure and its trace hold, its report shows all of them in order, one line at a time, and where it goes to
the output the lines can be read back from there.

* `SetupError.Says`, `Failure.Says` — the layers of a failure and its trace, **`says_breakdown`**;
* `Failure.TraceTail` — the lines that follow those of the layers;
* `Reporter.colored`, `Reporter.uncolored` — a line with its colours, and without them again;
* `splitOn_flatMap_feed` — lines that each end with a line feed are found again by splitting there;
* **`report_faithful`** — what a report says, and what the output gets of it.
-/

namespace ScriptHost

/-! ### The layers of a failure -/

/-- What is told of a failure before the program runs, from the outside in: what it is, and its causes from the nearest on,
sixteen texts at most.  A failure of the script machine is announced, and then it is told as where a program runs. -/
inductive SetupError.Says : SetupError → List String → Prop
  | duplicateBundle (name : String) :
      Says (.duplicateBundle name) ["capability bundle '" ++ name ++ "' is already registered"]
  | duplicateBinding (name : String) : Says (.duplicateBinding name) ["global '" ++ name ++ "' is bound more than once"]
  | script (f : Fault) : Says (.script f) ("Lua setup failed" :: f.breakdown.layers)
  | io (e : IoFailure) : Says (.io e) (("I/O error: " ++ e.message) :: e.message :: e.causes.take 14)
  | source (e : SourceError) : Says (.source e) ["could not read program: " ++ e.display, e.display]

/-- The nearest of some causes comes first. -/
theorem Causes.take_cons (text : String) (causes : Causes) (n : Nat) :
    (causes.cons text).take (n + 1) = text :: causes.take n := by
  cases causes with
  | ending texts => rfl
  | endless more =>
    rw [Causes.cons, Causes.take, List.range_succ_eq_map, List.map_cons, List.map_map]
    rfl

/-- **The layers of a failure before the program runs.** -/
theorem SetupError.says_layers (e : SetupError) : e.Says e.layers := by
  have hroom (causes : Causes) : roomFor 1 causes = causes.take 15 := rfl
  cases e with
  | duplicateBundle name =>
    rw [layers, hroom, display, Fault.setupText, causes, Fault.setupCauses]
    · exact .duplicateBundle name
    all_goals intros; contradiction
  | duplicateBinding name =>
    rw [layers, hroom, display, Fault.setupText, causes, Fault.setupCauses]
    · exact .duplicateBinding name
    all_goals intros; contradiction
  | script f => exact .script f
  | io e =>
    rw [layers, hroom, display, Fault.setupText, causes, Fault.setupCauses, Causes.take_cons]
    · exact .io e
    · intros; contradiction
  | source e =>
    rw [layers, hroom, display, Fault.setupText, causes, Fault.setupCauses]
    · exact .source e
    · intros; contradiction

/-- What is told of a failure: its layers, and its trace if it came about while a program was compiled or ran. -/
inductive Failure.Says : Failure → Breakdown → Prop
  | compile (f : Fault) : Says (.compile f) f.breakdown
  | runtime (f : Fault) : Says (.runtime f) f.breakdown
  | setup {e : SetupError} {layers : List String} (h : e.Says layers) : Says (.setup e) ⟨layers, none⟩

/-- **The layers of a failure and its trace.** -/
theorem Failure.says_breakdown (f : Failure) : f.Says f.breakdown := by
  cases f with
  | compile f => exact .compile f
  | runtime f => exact .runtime f
  | setup e => exact .setup e.says_layers

/-! ### The lines of the trace -/

/-- The lines that follow those of the layers: there are none without a trace, or where some layer shows the whole of the
trace; else they are the lines of the trace. -/
def Failure.TraceTail (b : Breakdown) (tail : List String) : Prop :=
  match b.trace with
  | none => tail = []
  | some t =>
    (∃ layer ∈ b.layers, t.toList <:+: layer.toList) ∧ tail = [] ∨
      (¬ ∃ layer ∈ b.layers, t.toList <:+: layer.toList) ∧ Text.Cut t tail

theorem Failure.traceTail_traceLines (b : Breakdown) : TraceTail b (traceLines b) := by
  rw [TraceTail]
  split
  · rename_i hnone
    exact traceLines_of_none hnone
  · rename_i t hsome
    by_cases hshown : ∃ layer ∈ b.layers, t.toList <:+: layer.toList
    · exact .inl ⟨hshown, traceLines_of_shown hsome hshown⟩
    · rw [traceLines_of_not_shown hsome hshown]
      exact .inr ⟨hshown, Text.cut_lines t⟩

/-! ### Lines and colours -/

namespace Reporter

variable (r : Reporter)

/-- The text of a line with its colours, if there are any. -/
def colored (l : ReportLine) : String := if r.color then l.severity.color ++ l.text ++ Severity.reset else l.text

/-- The bytes of a line without the colours of a severity; nothing if it does not have them. -/
def uncolored (s : Severity) (line : List UInt8) : Option (List UInt8) :=
  if r.color then
    (line.dropPrefix? (Bytes.ofString s.color).toList).bind (·.dropSuffix? (Bytes.ofString Severity.reset).toList)
  else some line

theorem lineText_eq (l : ReportLine) : r.lineText l = r.colored l ++ "\n" := by
  rw [lineText, colored]
  split <;> rfl

/-- The colours of a line can be taken off again. -/
theorem uncolored_colored (l : ReportLine) :
    r.uncolored l.severity (Bytes.ofString (r.colored l)).toList = some (Bytes.ofString l.text).toList := by
  rw [uncolored, colored]
  split
  · simp only [Utf8.toList_ofString, String.toList_append, Utf8.encoded_append, List.append_assoc]
    rw [List.dropPrefix?_append_of_beq _ (BEq.refl _), Option.bind_some, List.dropSuffix?_eq_some_iff]
    exact ⟨_, rfl, BEq.refl _⟩
  · rfl

/-- A line with its colours is still one line. -/
theorem newline_notMem_colored {l : ReportLine} (h : '\n' ∉ l.text.toList) : '\n' ∉ (r.colored l).toList := by
  rw [colored]
  split
  · have hcolor : '\n' ∉ l.severity.color.toList := by cases l.severity <;> decide
    have hreset : '\n' ∉ Severity.reset.toList := by decide
    simp only [String.toList_append, List.mem_append, hcolor, h, hreset, or_self, not_false_eq_true]
  · exact h

/-- The bytes of some lines on the output: each line, and a line feed. -/
theorem toList_linesText (lines : List ReportLine) :
    (Bytes.ofString (r.linesText lines)).toList
      = (lines.map fun l => (Bytes.ofString (r.colored l)).toList).flatMap (· ++ [10]) := by
  induction lines with
  | nil =>
    rw [Utf8.toList_ofString]
    rfl
  | cons l rest ih =>
    have hfeed : Utf8.encoded "\n".toList = [10] := rfl
    rw [Utf8.toList_ofString] at ih ⊢
    rw [linesText, List.map_cons, String.join_cons, ← linesText, String.toList_append, Utf8.encoded_append, ih,
      lineText_eq, String.toList_append, Utf8.encoded_append, hfeed, List.map_cons, List.flatMap_cons,
      Utf8.toList_ofString]

end Reporter

/-- Lines that each end with a line feed are found again by splitting there. -/
theorem splitOn_flatMap_feed {ls : List (List UInt8)} (h : ∀ l ∈ ls, 10 ∉ l) :
    (ls.flatMap (· ++ [10])).splitOn 10 = ls ++ [[]] := by
  induction ls with
  | nil => rfl
  | cons l rest ih =>
    have hl : ∀ b ∈ l, (b == 10) = false := fun b hb => beq_false_of_ne fun hten => h l List.mem_cons_self (hten ▸ hb)
    have hrest := ih fun k hk => h k (List.mem_cons_of_mem l hk)
    rw [List.splitOn] at hrest ⊢
    rw [List.flatMap_cons, List.append_assoc, List.singleton_append,
      List.splitOnP_append_cons_of_forall_mem hl 10 rfl, hrest]
    rfl

/-! ### What a report says -/

/-- **The texts of a report**: the header, every line of every layer, and the lines of the trace. -/
theorem Failure.exists_cuts (f : Failure) : ∃ said cuts tail, f.Says said ∧
    List.Forall₂ Text.Cut said.layers cuts ∧ TraceTail said tail ∧ (f.kind = .setup → tail = []) ∧
      f.classify.lines.map ReportLine.text = f.kind.header :: (marked cuts ++ tail) := by
  have hcuts : List.Forall₂ Text.Cut f.breakdown.layers (f.breakdown.layers.map Text.lines) := by
    rw [List.forall₂_map_right_iff, List.forall₂_same]
    exact fun layer _ => Text.cut_lines layer
  refine ⟨f.breakdown, _, traceLines f.breakdown, f.says_breakdown, hcuts, traceTail_traceLines _, ?_, ?_⟩
  · intro hsetup
    cases f with
    | setup _ => exact traceLines_of_none rfl
    | _ => cases hsetup
  · rw [← layersLines_eq_marked]
    exact f.classify_texts

namespace Emission

variable (e : Emission)

/-- The lines of the report as they go to the output. -/
def pieces : List (List UInt8) := e.report.lines.map fun l => (Bytes.ofString (e.reporter.colored l)).toList

theorem feed_notMem_of_mem_pieces {piece : List UInt8} (h : piece ∈ e.pieces) : 10 ∉ piece := by
  intro hten
  obtain ⟨l, hl, rfl⟩ := List.mem_map.mp h
  rw [Bytes.toList_eq] at hten
  have hcolored := Utf8.char_of_mem hten (c := '\n') rfl (by decide)
  exact e.reporter.newline_notMem_colored (Failure.newline_notMem_of_mem hl) hcolored

/-- What is split from the output, without the colours, are the texts of the lines. -/
theorem map_uncolored_pieces : e.pieces.map (e.reporter.uncolored e.failure.kind.severity)
    = e.report.lines.map fun l => some (Bytes.ofString l.text).toList := by
  rw [pieces, List.map_map]
  refine List.map_congr_left fun l hl => ?_
  rw [← Failure.severity_of_mem hl]
  exact e.reporter.uncolored_colored l

/-- **A report is faithful.**  Each of its lines is one line with the severity of its kind, the header first; then comes every
line of every layer that the failure has in order, with the mark of a cause before the first line of each layer but the first
layer, and then the lines of the trace, unless some layer shows the whole of it.  A report that is not to be dumped goes to an output that
takes everything line by line: split at the line feeds and without the colours, what the output gets are the texts
of the lines. -/
theorem report_faithful (t : Tree) :
    (∀ l ∈ e.report.lines, '\n' ∉ l.text.toList ∧ l.severity = e.failure.kind.severity) ∧
      (∃ said cuts tail, e.failure.Says said ∧ List.Forall₂ Text.Cut said.layers cuts ∧ Failure.TraceTail said tail ∧
        (e.failure.kind = .setup → tail = []) ∧
        e.report.lines.map ReportLine.text = e.failure.kind.header :: (Failure.marked cuts ++ tail)) ∧
      ((∀ target, ¬ e.Due target) → e.output.TakesAll →
        (e.emitted t).result = .ok e.report ∧ (e.emitted t).files = t ∧ ∃ (got : Bytes) (pieces : List (List UInt8)),
          (e.emitted t).output.written = e.output.written.append got ∧ got.toList.splitOn 10 = pieces ++ [[]] ∧
          pieces.length = e.report.lineCount ∧
          pieces.map (e.reporter.uncolored e.failure.kind.severity)
            = e.report.lines.map fun l => some (Bytes.ofString l.text).toList) := by
  refine ⟨fun l hl => ⟨Failure.newline_notMem_of_mem hl, Failure.severity_of_mem hl⟩, e.failure.exists_cuts, ?_⟩
  intro hdue hall
  have hemitted : e.emitted t = _ := e.emitted_of_not_due t (e.due_eq_none_iff.mpr hdue)
  rw [emittedWith, e.reporter.writeFlushed_takesAll e.report.lines hall] at hemitted
  have hsplit : (Bytes.ofString (e.reporter.linesText e.report.lines)).toList.splitOn 10 = e.pieces ++ [[]] := by
    rw [e.reporter.toList_linesText]
    exact splitOn_flatMap_feed fun _ => e.feed_notMem_of_mem_pieces
  rw [hemitted]
  exact ⟨rfl, rfl, _, e.pieces, rfl, hsplit, List.length_map .., e.map_uncolored_pieces⟩

/-- A report in colours. -/
def inColours (f : Failure) : Emission where
  reporter := { color := true }
  failure := f
  output := {}
  target := none
  version := "5.4"
  clock := 0

/-- A failure with a layer of several lines, some of them empty or with carriage returns. -/
def colorful : Emission :=
  inColours (.runtime (.callback "stack\r\n\tin main" (.context "saving\r\n\n\rstate\n" (.runtime "disk full\r"))))

/-- A failure before the program ran, with a cause of two lines. -/
def unprepared : Emission :=
  inColours (.setup (.io { kind := .other, message := "no room\nleft", causes := .ending ["quota"] }))

/-- A failure of the script machine before the program ran. -/
def unfurnished : Emission := inColours (.setup (.script (.context "binding" (.runtime "disk full"))))

theorem report_faithful_colorful :
    (∀ e ∈ [colorful, unprepared, unfurnished], (∀ target, ¬ e.Due target) ∧ e.output.TakesAll ∧
      ∃ got : Bytes, (e.emitted {}).output.written = ByteArray.empty.append got ∧
        ∃ pieces : List (List UInt8), got.toList.splitOn 10 = pieces ++ [[]] ∧ pieces.length = e.report.lineCount) ∧
    colorful.report.lines.map ReportLine.text
      = ["lua: runtime error", "saving", "", "\rstate", "Caused by: disk full\r", "stack", "\tin main"] ∧
    unprepared.report.lines.map ReportLine.text
      = ["lua: setup error", "I/O error: no room", "left", "Caused by: no room", "left", "Caused by: quota"] ∧
    unfurnished.report.lines.map ReportLine.text
      = ["lua: setup error", "Lua setup failed", "Caused by: binding", "Caused by: disk full"] := by
  have hlayers : unprepared.failure.breakdown.layers = ["I/O error: no room\nleft", "no room\nleft", "quota"] := by
    have hsays := SetupError.says_layers (.io { kind := .other, message := "no room\nleft", causes := .ending ["quota"] })
    generalize hl : SetupError.layers _ = layers at hsays
    cases hsays with
    | io => exact hl
  have htexts : unprepared.report.lines.map ReportLine.text
      = ["lua: setup error", "I/O error: no room", "left", "Caused by: no room", "left", "Caused by: quota"] := by
    have hlines := unprepared.failure.classify_texts
    rw [hlayers, Failure.traceLines_of_none rfl] at hlines
    rw [report, hlines]
    decide +kernel
  refine ⟨?_, by decide +kernel, htexts, by decide +kernel⟩
  intro e he
  have hcolours : ∃ f, e = inColours f := by
    simp only [List.mem_cons, List.not_mem_nil, or_false] at he
    rcases he with rfl | rfl | rfl <;> exact ⟨_, rfl⟩
  obtain ⟨f, rfl⟩ := hcolours
  have hdue : ∀ target, ¬ (inColours f).Due target := fun target h => absurd h.2.2.symm (Option.some_ne_none target)
  have hall : (inColours f).output.TakesAll := ⟨rfl, rfl⟩
  obtain ⟨-, -, hinline⟩ := (inColours f).report_faithful {}
  obtain ⟨-, -, got, pieces, hgot, hsplit, hlength, -⟩ := hinline hdue hall
  exact ⟨hdue, hall, got, hgot, pieces, hsplit, hlength⟩

end Emission

end ScriptHost

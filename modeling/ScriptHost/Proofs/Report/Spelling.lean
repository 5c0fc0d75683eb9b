import Mathlib.Data.List.TakeWhile
import ScriptHost.Proofs.Report.Emission

/-!
# A report letter by letter

What the output gets and what a dump holds, in the letters that a reader meets there.

* `Text.untabbed`, **`withoutTabs_eq`** — a text with four spaces for each tab is what lies between the tabs, with the
  spaces between;
* `Text.trimEndChar_spec` — a text without the slashes at its end;
* `newline_notMem_stamp` — the time of a dump is told in one line;
* `Reporter.painted`, **`linesText_eq_painted`** — a line of the output, in the colour of its severity;
* `Emission.dumpLetters`, **`dumpContent_eq`** — what a dump holds;
* `Emission.noticeLetters`, **`linesText_dumpNotice`** — the two lines that the output gets of a dump.
-/

namespace ScriptHost

/-! ### Texts without tabs, and without slashes at the end -/

namespace Text

/-- A text with four spaces in the place of each tab. -/
def untabbed (s : String) : String := String.ofList ([' ', ' ', ' ', ' '].intercalate (s.toList.splitOn '\t'))

/-- What is joined begins with all that comes before the first text. -/
theorem intercalate_modifyHead {α : Type} (separator : List α) (c : α) {ls : List (List α)} (hls : ls ≠ []) :
    separator.intercalate (ls.modifyHead (List.cons c)) = c :: separator.intercalate ls := by
  cases ls with
  | nil => exact absurd rfl hls
  | cons l rest =>
    cases rest with
    | nil => simp [List.intercalate]
    | cons m rest => simp [List.intercalate]

/-- **Four spaces for each tab**: that is what lies between the tabs, joined by them. -/
theorem withoutTabs_eq (s : String) : Reporter.withoutTabs s = untabbed s := by
  rw [Reporter.withoutTabs, untabbed]
  congr 1
  induction s.toList with
  | nil => rfl
  | cons c rest ih =>
    have hne := List.splitOnP_ne_nil (· == '\t') rest
    rw [List.splitOn] at ih ⊢
    rw [List.flatMap_cons, List.splitOnP_cons_eq_if_modifyHead, ih]
    by_cases hc : c = '\t'
    · rw [if_pos hc, if_pos (beq_iff_eq.mpr hc)]
      cases hrest : rest.splitOnP (· == '\t') with
      | nil => exact absurd hrest hne
      | cons l more => simp [List.intercalate]
    · rw [if_neg hc, if_neg fun h => hc (beq_iff_eq.mp h)]
      exact (intercalate_modifyHead _ c hne).symm

/-- What is cut off at the end of a text is that character, as often as it stands there. -/
theorem trimEndChar_spec (s : String) (c : Char) :
    ∃ k, s.toList = (trimEndChar s c).toList ++ List.replicate k c ∧ (trimEndChar s c).toList.getLast? ≠ some c := by
  rw [trimEndChar, String.toList_ofList]
  refine ⟨(s.toList.reverse.takeWhile (· == c)).length, ?_, ?_⟩
  · have hcut : s.toList.reverse.takeWhile (· == c)
        = List.replicate (s.toList.reverse.takeWhile (· == c)).length c := by
      refine List.eq_replicate_iff.mpr ⟨rfl, fun d hd => ?_⟩
      have hsame := List.mem_takeWhile_imp hd
      exact beq_iff_eq.mp hsame
    have hsplit := congrArg List.reverse (List.takeWhile_append_dropWhile (p := (· == c)) (l := s.toList.reverse))
    rw [List.reverse_append, List.reverse_reverse] at hsplit
    rw [← List.reverse_replicate, ← hcut]
    exact hsplit.symm
  · intro hlast
    rw [List.getLast?_reverse] at hlast
    have hhead := List.head?_dropWhile_not (· == c) s.toList.reverse
    rw [hlast] at hhead
    simp at hhead

end Text

/-! ### The time of a dump -/

theorem newline_notMem_repr (n : Nat) : '\n' ∉ (toString n).toList := by
  intro h
  rw [Nat.toString_eq_repr, Nat.toList_repr] at h
  exact absurd (Nat.isDigit_of_mem_toDigits (by decide) (by decide) h) (by decide)

theorem newline_notMem_int (n : Int) : '\n' ∉ (toString n).toList := by
  cases n with
  | ofNat n => exact newline_notMem_repr n
  | negSucc n =>
    show '\n' ∉ ("-" ++ (n + 1).repr).toList
    rw [String.toList_append, List.mem_append, not_or]
    exact ⟨by decide, newline_notMem_repr (n + 1)⟩

theorem newline_notMem_zeros (n : Nat) : '\n' ∉ ("".pushn '0' n).toList := by
  rw [String.pushn]
  induction n with
  | zero => decide
  | succ n ih =>
    rw [Nat.repeat, String.toList_push, List.mem_append, not_or]
    exact ⟨ih, by decide⟩

theorem newline_notMem_filled (width : Nat) (n : Int) : '\n' ∉ (Date.filled width '0' n).toList := by
  have hdigits := newline_notMem_repr n.natAbs
  rw [Date.filled]
  split
  · simp only [String.toList_append, List.mem_append, not_or]
    exact ⟨⟨by decide, newline_notMem_zeros _⟩, hdigits⟩
  · simp only [String.toList_append, List.mem_append, not_or]
    exact ⟨newline_notMem_zeros _, hdigits⟩

/-- The time of a dump is told in one line. -/
theorem newline_notMem_stamp (clock : Nat) : '\n' ∉ (Reporter.stamp clock).toList := by
  have hdash : '\n' ∉ "-".toList := by decide
  have hcolon : '\n' ∉ ":".toList := by decide
  have hblank : '\n' ∉ " ".toList := by decide
  rw [Reporter.stamp]
  simp only [String.toList_append, List.mem_append, not_or, newline_notMem_filled, newline_notMem_int, hdash, hcolon,
    hblank, not_false_eq_true, and_self]

/-! ### Lines of the output -/

namespace Reporter

variable (r : Reporter)

/-- A line of the output, in yellow or red if there are colours. -/
def painted (severity : Severity) (text : String) : String :=
  if r.color then
    (match severity with
      | .warning => "\x1b[33m"
      | .error => "\x1b[31m") ++ text ++ "\x1b[0m" ++ "\n"
  else text ++ "\n"

theorem lineText_eq_painted (l : ReportLine) : r.lineText l = r.painted l.severity l.text := by
  obtain ⟨severity, text⟩ := l
  cases severity <;> rfl

/-- **Lines of the output**: each of them in its colour. -/
theorem linesText_eq_painted (lines : List ReportLine) :
    r.linesText lines = String.join (lines.map fun l => r.painted l.severity l.text) := by
  have hline : r.lineText = fun l => r.painted l.severity l.text := funext r.lineText_eq_painted
  rw [linesText, hline]

end Reporter

/-! ### A dump and its notice -/

namespace Emission

variable (e : Emission)

/-- The letters of a dump: two lines that say when it was made and by which version, an empty line, and each line of the
report with four spaces for each tab. -/
def dumpLetters : String :=
  "Lua stack trace from " ++ Reporter.stamp e.clock ++ "\n" ++ "Lua version: " ++ e.version ++ "\n" ++ "\n" ++
    String.join (e.report.lines.map fun l => Text.untabbed l.text ++ "\n")

/-- **What a dump holds.** -/
theorem dumpContent_eq : e.dumpContent = Bytes.ofString e.dumpLetters := by
  have htabs : (fun l : ReportLine => Reporter.withoutTabs l.text ++ "\n") = fun l => Text.untabbed l.text ++ "\n" := by
    funext l
    rw [Text.withoutTabs_eq]
  have hversion : "\nLua version: " = "\n" ++ "Lua version: " := by decide
  have hempty : "\n\n" = "\n" ++ "\n" := by decide
  rw [dumpContent]
  refine congrArg Bytes.ofString ?_
  unfold Reporter.dumpText dumpLetters
  rw [htabs, hversion, hempty]
  simp only [String.append_assoc]

/-- The letters of the notice of a dump: that it was made, and under which name; `shown` is the directory without slashes at
its end. -/
def noticeLetters (shown : String) (n : Nat) : String :=
  e.reporter.painted .error "lua: stack trace too large!" ++
    e.reporter.painted .error ("lua: dumped: " ++ shown ++ "/" ++ e.reporter.dumpName ++ toString n)

/-- **What the output gets of a dump.** -/
theorem linesText_dumpNotice (target : DumpTarget) (n : Nat) :
    e.reporter.linesText (Reporter.dumpNotice target (e.name n))
      = e.noticeLetters (Text.trimEndChar target.display '/') n := by
  rw [Reporter.linesText_eq_painted, Reporter.dumpNotice, name, noticeLetters]
  simp only [List.map_cons, List.map_nil, String.join_cons, String.join_nil, String.append_empty, String.append_assoc]

end Emission

end ScriptHost

import Mathlib.Logic.Function.Basic
import ScriptHost.Proofs.Report.Spelling

/-!
# The dumps of many reporters

Any number of reports are written at the same time, in steps of any order, and anybody may add files and directories.

* `Desk`, `Desk.act` — the files and how far every report is, and the next step of one of them;
* `Desk.Course` — what comes about;
* `Emission.Effect`, **`effect_step`** — what one step can do;
* `Desk.Standing` — what is true of a report at each stage;
* `Emission.Spelled`, **`Standing.spelled`** — letter by letter, what a report that is over has left;
* **`dumps_of_course`** — a report that is dumped gets a file of its own under the first free name, no file that was
  there before is changed, whatever is not dumped makes no file, and the letters of all that is written are known.
-/

namespace ScriptHost

open ScriptHost.Tree (Keeps Grows)

/-! ### What one step can do -/

namespace Emission

/-- A report is to be dumped: that of a running script, with more lines than the limit, where there is a place for it. -/
def Due (e : Emission) (target : DumpTarget) : Prop :=
  e.report.kind = .runtime ∧ e.reporter.lineLimit < e.report.lineCount ∧ e.target = some target

theorem due_eq_some_iff (e : Emission) (target : DumpTarget) : e.due = some target ↔ e.Due target := by
  rw [due, Due, Reporter.isOversized]
  by_cases hkind : e.report.kind = .runtime
  · by_cases hlimit : e.reporter.lineLimit < e.report.lineCount
    · simp [hkind, hlimit]
    · simp [hlimit]
  · simp [hkind]

theorem due_eq_none_iff (e : Emission) : e.due = none ↔ ∀ target, ¬ e.Due target := by
  simp only [← due_eq_some_iff, Option.eq_none_iff_forall_ne_some, ne_eq]

/-- The output is told some lines: they are written and flushed, and if that works the report is given back. -/
def Tells (e : Emission) (way : Way) (report : Report) (lines : List ReportLine) (stage : Stage) : Prop :=
  stage = e.told way report lines ∧
    (e.output.TakesAll → stage = .over way (.ok report)
      { e.output with written := e.output.written.append (Bytes.ofString (e.reporter.linesText lines)) })

theorem tells_told (e : Emission) (way : Way) (report : Report) (lines : List ReportLine) :
    e.Tells way report lines (e.told way report lines) := by
  refine ⟨rfl, fun hall => ?_⟩
  rw [told, e.reporter.writeFlushed_takesAll lines hall]

/-- What the writing of a report leaves in the end where the output takes everything: the whole report is on the output, if
no dump was due; or there is a dump with all lines, and the output got two lines that name it; or all names for a dump were
taken, and nothing was written; or there was no way to one. -/
inductive Spelled (e : Emission) (files : Tree) : Way → Except IoError Report → Writer → Prop
  | inline (hdue : ∀ target, ¬ e.Due target) :
      Spelled e files .inline (.ok e.report)
        { e.output with
          written := e.output.written.append
            (Bytes.ofString (String.join (e.report.lines.map fun l => e.reporter.painted l.severity l.text))) }
  | dumped {target : DumpTarget} {n k : Nat} {q shown : String} (hdue : e.Due target) (hn : n < 10000)
      (hleads : files.LeadsTo (Path.join target.dir (e.reporter.dumpName ++ toString n)) q)
      (hfile : files.node? q = some (.file (Bytes.ofString e.dumpLetters)))
      (htime : '\n' ∉ (Reporter.stamp e.clock).toList)
      (hshown : target.display.toList = shown.toList ++ List.replicate k '/') (hend : shown.toList.getLast? ≠ some '/') :
      Spelled e files (.dumped target n)
        (.ok { e.report with dump := some (Path.join target.dir (e.reporter.dumpName ++ toString n)) })
        { e.output with written := e.output.written.append (Bytes.ofString (e.noticeLetters shown n)) }
  | full {target : DumpTarget} (hdue : e.Due target)
      (htaken : ∀ n, n < 10000 → files.Taken (Path.join target.dir (e.reporter.dumpName ++ toString n))) :
      Spelled e files .full (.error ⟨.alreadyExists, "no free dump file name in " ++ target.dir⟩) e.output
  | failed {target : DumpTarget} (hdue : e.Due target) (x : IoError) : Spelled e files .failed (.error x) e.output

/-- The file of a dump is where its path leads, with all lines. -/
theorem Spelled.file_of_dumped {e : Emission} {files : Tree} {target : DumpTarget} {n : Nat}
    {result : Except IoError Report} {output : Writer} (h : e.Spelled files (.dumped target n) result output) :
    ∃ q, files.LeadsTo (e.path target n) q ∧ files.node? q = some (.file (Bytes.ofString e.dumpLetters)) := by
  cases h with
  | dumped _ _ hleads hfile => exact ⟨_, hleads, hfile⟩

/-- All that one step can do. -/
inductive Effect (e : Emission) (t : Tree) : Stage → Stage → Tree → Prop
  | inline (hdue : e.due = none) : Effect e t .begun (e.told .inline e.report e.report.lines) t
  | directory {target : DumpTarget} {t' : Tree} (hdue : e.due = some target) (hdirs : t.createDirs target.dir = .ok t') :
      Effect e t .begun (.trying target 0) t'
  | noDirectory {target : DumpTarget} {x : IoError} (hdue : e.due = some target)
      (hdirs : t.createDirs target.dir = .error x) : Effect e t .begun (.over .failed (.error x) e.output) t
  | taken {target : DumpTarget} {n : Nat} {q : String} (hn : n < Reporter.maxDumps)
      (hleads : t.LeadsTo (e.path target n) q) (htaken : t.node? q ≠ none) :
      Effect e t (.trying target n) (.trying target (n + 1)) t
  | made {target : DumpTarget} {n : Nat} {q : String} (hn : n < Reporter.maxDumps)
      (hleads : t.LeadsTo (e.path target n) q) (hfree : t.node? q = none) :
      Effect e t (.trying target n) (.writing target n 0) (t.insert q (.file ByteArray.empty))
  | lost {target : DumpTarget} {n : Nat} {x : IoError} (hn : n < Reporter.maxDumps)
      (hlocate : t.locate (e.path target n) = .error x) :
      Effect e t (.trying target n) (.over .failed (.error x) e.output) t
  | full {target : DumpTarget} {n : Nat} (hn : ¬ n < Reporter.maxDumps) :
      Effect e t (.trying target n) (.over .full (.error (Reporter.noFreeName target.dir)) e.output) t
  | wrote {target : DumpTarget} {n k : Nat} {q : String} (hk : k < e.parts.length)
      (hleads : t.LeadsTo (e.path target n) q) (hfile : t.HasFile q) :
      Effect e t (.writing target n k) (.writing target n (k + 1)) (t.insert q (.file (e.content (k + 1))))
  | dumped {target : DumpTarget} {n k : Nat} (hk : ¬ k < e.parts.length) : Effect e t (.writing target n k)
      (e.told (.dumped target n) (e.dumpedReport target n) (Reporter.dumpNotice target (e.name n))) t
  | over {way : Way} {result : Except IoError Report} {output : Writer} :
      Effect e t (.over way result output) (.over way result output) t

end Emission

/-- The file that the report of a stage is written to, or was. -/
def Stage.file? : Stage → Option (DumpTarget × Nat)
  | .writing target n _ => some (target, n)
  | .over (.dumped target n) _ _ => some (target, n)
  | _ => none

namespace Emission

/-- The file of a stage is there. -/
def HasOwn (e : Emission) (t : Tree) (stage : Stage) : Prop :=
  ∀ target n, stage.file? = some (target, n) → ∃ q, t.LeadsTo (e.path target n) q ∧ t.HasFile q

/-- **What one step can do**, where the file that is written to is there. -/
theorem effect_step (e : Emission) (t : Tree) {stage : Stage} (hown : e.HasOwn t stage) :
    e.Effect t stage (e.step t stage).1 (e.step t stage).2 := by
  cases stage with
  | begun =>
    cases hdue : e.due with
    | none =>
      rw [step_begun_inline hdue]
      exact .inline hdue
    | some target =>
      cases hdirs : t.createDirs target.dir with
      | error x =>
        rw [step_begun_failed hdue hdirs]
        exact .noDirectory hdue hdirs
      | ok t' =>
        rw [step_begun_directory hdue hdirs]
        exact .directory hdue hdirs
  | trying target n =>
    by_cases hn : n < Reporter.maxDumps
    · cases hlocate : t.locate (e.path target n) with
      | error x =>
        rw [step_trying_failed hn hlocate]
        exact .lost hn hlocate
      | ok l =>
        obtain ⟨q, -, hleads⟩ := Tree.exists_leadsTo hlocate
        by_cases hfree : t.node? q = none
        · rw [step_trying_free hn hleads hfree]
          exact .made hn hleads hfree
        · rw [step_trying_taken hn hleads hfree]
          exact .taken hn hleads hfree
    · rw [step_trying_last hn]
      exact .full hn
  | writing target n k =>
    by_cases hk : k < e.parts.length
    · obtain ⟨q, hleads, hfile⟩ := hown target n rfl
      rw [step_writing hk hleads hfile]
      exact .wrote hk hleads hfile
    · rw [step_written hk]
      exact .dumped hk
  | «over» way result output => exact .over

variable {e : Emission} {t t' : Tree} {stage stage' : Stage}

theorem file?_told_dumped (e : Emission) (target : DumpTarget) (n : Nat) (report : Report) (lines : List ReportLine) :
    (e.told (.dumped target n) report lines).file? = some (target, n) := by
  rw [told]
  split <;> rfl

theorem file?_told_inline (e : Emission) (report : Report) (lines : List ReportLine) :
    (e.told .inline report lines).file? = none := by
  rw [told]
  split <;> rfl

/-- A file once made stays the report's own. -/
theorem Effect.file?_of_some (h : e.Effect t stage stage' t') {f : DumpTarget × Nat} (hf : stage.file? = some f) :
    stage'.file? = some f := by
  cases h with
  | wrote => exact hf
  | dumped => rw [file?_told_dumped]; exact hf
  | «over» => exact hf
  | inline => cases hf
  | directory => cases hf
  | noDirectory => cases hf
  | taken => cases hf
  | made => cases hf
  | lost => cases hf
  | full => cases hf

/-- A file becomes the report's own when it is made. -/
theorem Effect.file?_of_none (h : e.Effect t stage stage' t') (hnone : stage.file? = none) {target : DumpTarget}
    {n : Nat} (hf : stage'.file? = some (target, n)) : ∃ q, t.LeadsTo (e.path target n) q ∧ t.node? q = none := by
  cases h with
  | made _ hleads hfree =>
    cases hf
    exact ⟨_, hleads, hfree⟩
  | inline =>
    rw [file?_told_inline] at hf
    cases hf
  | wrote => cases hnone
  | dumped => cases hnone
  | «over» =>
    rw [hnone] at hf
    cases hf
  | directory => cases hf
  | noDirectory => cases hf
  | taken => cases hf
  | lost => cases hf
  | full => cases hf

/-- A step keeps directories and files. -/
theorem Effect.keeps (h : e.Effect t stage stage' t') : Keeps t t' := by
  cases h with
  | directory _ hdirs => exact (Tree.createDirs_grows hdirs).keeps
  | made _ _ hfree => exact (Grows.insert hfree _).keeps
  | wrote _ _ hfile => exact Keeps.overwrite hfile _
  | inline => exact .refl t
  | noDirectory => exact .refl t
  | taken => exact .refl t
  | lost => exact .refl t
  | full => exact .refl t
  | dumped => exact .refl t
  | «over» => exact .refl t

/-- A step changes no file but the report's own. -/
theorem Effect.node?_of_some (h : e.Effect t stage stage' t') {place : String} {n : Node} (hn : t.node? place = some n)
    (hother : ∀ target m, stage.file? = some (target, m) → ¬ t.LeadsTo (e.path target m) place) :
    t'.node? place = some n := by
  cases h with
  | directory _ hdirs => exact Tree.createDirs_grows hdirs place n hn
  | made _ _ hfree => exact Grows.insert hfree _ place n hn
  | wrote _ hleads _ =>
    have hne : place ≠ _ := fun heq => hother _ _ rfl (heq ▸ hleads)
    rw [Tree.node?_insert_of_ne _ hne]
    exact hn
  | inline => exact hn
  | noDirectory => exact hn
  | taken => exact hn
  | lost => exact hn
  | full => exact hn
  | dumped => exact hn
  | «over» => exact hn

end Emission

/-! ### Many reports -/

/-- The files, and how far the writing of each report is. -/
structure Desk where
  files : Tree
  stage : Nat → Stage

namespace Desk

/-- One of the reports takes its next step. -/
def act (es : Nat → Emission) (s : Desk) (i : Nat) : Desk where
  files := ((es i).step s.files (s.stage i)).2
  stage := Function.update s.stage i ((es i).step s.files (s.stage i)).1

variable (es : Nat → Emission) (s : Desk) (i : Nat)

theorem act_files : (s.act es i).files = ((es i).step s.files (s.stage i)).2 := rfl

theorem act_stage_self : (s.act es i).stage i = ((es i).step s.files (s.stage i)).1 := Function.update_self ..

theorem act_stage_of_ne {j : Nat} (h : j ≠ i) : (s.act es i).stage j = s.stage j := Function.update_of_ne h ..

theorem act_eq {stage stage' : Stage} {files : Tree} (hstage : s.stage i = stage)
    (h : (es i).step s.files stage = (stage', files)) :
    s.act es i = ⟨files, Function.update s.stage i stage'⟩ := by
  rw [act, hstage, h]

/-- What comes about when the reports take their steps in any order, and anybody adds files and directories. -/
inductive Course (es : Nat → Emission) (s : Desk) : Desk → Prop
  | here : Course es s s
  | act {t : Desk} (h : Course es s t) (i : Nat) : Course es s (t.act es i)
  | others {t : Desk} (h : Course es s t) {files : Tree} (hgrows : Grows t.files files) :
      Course es s { t with files }

theorem Course.trans {es : Nat → Emission} {s t u : Desk} (h : Course es s t) (k : Course es t u) : Course es s u := by
  induction k with
  | here => exact h
  | act _ i ih => exact .act ih i
  | others _ hgrows ih => exact .others ih hgrows

/-- The moment `u` at which a report made its file, on the way from `a` to `s`: all names with smaller numbers were taken,
and this one was free. -/
structure Made (es : Nat → Emission) (a s : Desk) (i : Nat) (target : DumpTarget) (n : Nat) (q : String) (u : Desk) :
    Prop where
  before : Course es a u
  stage : u.stage i = .trying target n
  bound : n < 10000
  least : ∀ m, m < n → u.files.Taken ((es i).path target m)
  leads : u.files.LeadsTo ((es i).path target n) q
  free : u.files.node? q = none
  after : Course es (u.act es i) s

/-- A report has a file that was not there in the beginning, and the file holds some bytes. -/
def Holds (es : Nat → Emission) (a s : Desk) (i : Nat) (target : DumpTarget) (n : Nat) (b : Bytes) : Prop :=
  ∃ q u, Made es a s i target n q u ∧ a.files.node? q = none ∧ s.files.LeadsTo ((es i).path target n) q ∧
    s.files.node? q = some (.file b)

/-- The failure of a way to a name: there was none to the directory, or none to the name in it. -/
def NoWay (es : Nat → Emission) (u : Desk) (i : Nat) (target : DumpTarget) (x : IoError) : Prop :=
  u.files.createDirs target.dir = .error x ∨
    ∃ n, n < 10000 ∧ u.files.locate ((es i).path target n) = .error x

/-- What is true of a report at each stage, on the way from `a` to `s`. -/
def Standing (es : Nat → Emission) (a s : Desk) (i : Nat) : Stage → Prop
  | .begun => True
  | .trying target n =>
    (es i).Due target ∧ n ≤ 10000 ∧ ∀ m, m < n → s.files.Taken ((es i).path target m)
  | .writing target n k =>
    (es i).Due target ∧ k ≤ (es i).parts.length ∧ Holds es a s i target n ((es i).content k)
  | .over .inline result output =>
    (∀ target, ¬ (es i).Due target) ∧
      (es i).Tells .inline (es i).report (es i).report.lines (.over .inline result output)
  | .over (.dumped target n) result output =>
    (es i).Due target ∧ Holds es a s i target n (es i).dumpContent ∧
      (es i).Tells (.dumped target n) ((es i).dumpedReport target n) (Reporter.dumpNotice target ((es i).name n))
        (.over (.dumped target n) result output)
  | .over .full result output =>
    ∃ target, (es i).Due target ∧ (∀ n, n < 10000 → s.files.Taken ((es i).path target n)) ∧
      result = .error (Reporter.noFreeName target.dir) ∧ output = (es i).output
  | .over .failed result output =>
    ∃ target u x, (es i).Due target ∧ Course es a u ∧ Course es u s ∧ NoWay es u i target x ∧
      result = .error x ∧ output = (es i).output

variable {es : Nat → Emission} {a s s' : Desk} {i : Nat}

/-- What has been said of a file stays true. -/
theorem Holds.later {target : DumpTarget} {n : Nat} {b b' : Bytes} (h : Holds es a s i target n b)
    (hcourse : ∀ u, Course es u s → Course es u s') (hkeeps : Keeps s.files s'.files)
    (hcontent : ∀ q, s.files.LeadsTo ((es i).path target n) q → s.files.node? q = some (.file b) →
      s'.files.node? q = some (.file b')) : Holds es a s' i target n b' := by
  obtain ⟨q, u, hmade, hold, hleads, hnode⟩ := h
  exact ⟨q, u, { hmade with after := hcourse _ hmade.after }, hold, hleads.later hkeeps, hcontent q hleads hnode⟩

/-- What has been said of a report stays true when others go on. -/
theorem Standing.later {stage : Stage} (h : Standing es a s i stage) (hcourse : ∀ u, Course es u s → Course es u s')
    (hkeeps : Keeps s.files s'.files)
    (hown : ∀ target n q b, stage.file? = some (target, n) → s.files.LeadsTo ((es i).path target n) q →
      s.files.node? q = some (.file b) → s'.files.node? q = some (.file b)) : Standing es a s' i stage := by
  cases stage with
  | begun => trivial
  | trying target n =>
    obtain ⟨hdue, hn, htaken⟩ := h
    exact ⟨hdue, hn, fun m hm => (htaken m hm).later hkeeps⟩
  | writing target n k =>
    obtain ⟨hdue, hk, hholds⟩ := h
    exact ⟨hdue, hk, hholds.later hcourse hkeeps fun q => hown target n q _ rfl⟩
  | «over» way result output =>
    cases way with
    | inline => exact h
    | dumped target n =>
      obtain ⟨hdue, hholds, htells⟩ := h
      exact ⟨hdue, hholds.later hcourse hkeeps fun q => hown target n q _ rfl, htells⟩
    | full =>
      obtain ⟨target, hdue, htaken, hresult, houtput⟩ := h
      exact ⟨target, hdue, fun n hn => (htaken n hn).later hkeeps, hresult, houtput⟩
    | failed =>
      obtain ⟨target, u, x, hdue, hbefore, hafter, hnoWay, hresult, houtput⟩ := h
      exact ⟨target, u, x, hdue, hbefore, hcourse u hafter, hnoWay, hresult, houtput⟩

/-- Where nothing is due, the output is told the lines. -/
theorem Standing.told_inline (hdue : ∀ target, ¬ (es i).Due target) :
    Standing es a s i ((es i).told .inline (es i).report (es i).report.lines) := by
  have htells := (es i).tells_told .inline (es i).report (es i).report.lines
  obtain ⟨result, output, htold, -⟩ := (es i).told_isOver .inline (es i).report (es i).report.lines
  rw [htold] at htells ⊢
  exact ⟨hdue, htells⟩

/-- Where the dump has been written, the output is told of it. -/
theorem Standing.told_dumped {target : DumpTarget} {n : Nat} (hdue : (es i).Due target)
    (hholds : Holds es a s i target n (es i).dumpContent) :
    Standing es a s i ((es i).told (.dumped target n) ((es i).dumpedReport target n)
      (Reporter.dumpNotice target ((es i).name n))) := by
  have htells := (es i).tells_told (.dumped target n) ((es i).dumpedReport target n)
    (Reporter.dumpNotice target ((es i).name n))
  obtain ⟨result, output, htold, -⟩ := (es i).told_isOver (.dumped target n) ((es i).dumpedReport target n)
    (Reporter.dumpNotice target ((es i).name n))
  rw [htold] at htells ⊢
  exact ⟨hdue, hholds, htells⟩

/-- A report that has a file has made it. -/
theorem Standing.holds {stage : Stage} (h : Standing es a s i stage) {target : DumpTarget} {n : Nat}
    (hfile : stage.file? = some (target, n)) : ∃ b, Holds es a s i target n b := by
  cases stage with
  | begun => cases hfile
  | trying => cases hfile
  | writing =>
    cases hfile
    exact ⟨_, h.2.2⟩
  | «over» way =>
    cases way with
    | dumped =>
      cases hfile
      exact ⟨_, h.2.1⟩
    | inline => cases hfile
    | full => cases hfile
    | failed => cases hfile

/-- A report that has a file was to be dumped. -/
theorem Standing.due {stage : Stage} (h : Standing es a s i stage) {target : DumpTarget} {n : Nat}
    (hfile : stage.file? = some (target, n)) : (es i).Due target := by
  cases stage with
  | begun => cases hfile
  | trying => cases hfile
  | writing =>
    cases hfile
    exact h.1
  | «over» way =>
    cases way with
    | dumped =>
      cases hfile
      exact h.1
    | inline => cases hfile
    | full => cases hfile
    | failed => cases hfile

/-- The file of a report that has one is there. -/
theorem Standing.hasOwn {stage : Stage} (h : Standing es a s i stage) : (es i).HasOwn s.files stage := by
  intro target n hfile
  obtain ⟨b, q, u, -, -, hleads, hnode⟩ := h.holds hfile
  exact ⟨q, hleads, b, hnode⟩

/-- **What a report that is over has left**, letter by letter. -/
theorem Standing.spelled {way : Way} {result : Except IoError Report} {output : Writer}
    (h : Standing es a s i (.over way result output)) (hall : (es i).output.TakesAll) :
    (es i).Spelled s.files way result output := by
  cases way with
  | inline =>
    obtain ⟨hdue, -, htold⟩ := h
    have hover := htold hall
    rw [Reporter.linesText_eq_painted] at hover
    cases hover
    exact .inline hdue
  | dumped target n =>
    obtain ⟨hdue, ⟨q, u, hmade, -, hleads, hnode⟩, -, htold⟩ := h
    have hover := htold hall
    rw [Emission.linesText_dumpNotice] at hover
    cases hover
    rw [Emission.dumpContent_eq] at hnode
    obtain ⟨k, hshown, hend⟩ := Text.trimEndChar_spec target.display '/'
    exact .dumped hdue hmade.bound hleads hnode (newline_notMem_stamp _) hshown hend
  | full =>
    obtain ⟨target, hdue, htaken, rfl, rfl⟩ := h
    exact .full hdue htaken
  | failed =>
    obtain ⟨target, u, x, hdue, -, -, -, rfl, rfl⟩ := h
    exact .failed hdue x

/-! ### The invariant -/

/-- A report has its file at a place. -/
def OwnsPlace (es : Nat → Emission) (s : Desk) (i : Nat) (q : String) : Prop :=
  ∃ target n, (s.stage i).file? = some (target, n) ∧ s.files.LeadsTo ((es i).path target n) q

/-- What holds of all files and reports, on the way from `a` to `s`. -/
structure Sound (es : Nat → Emission) (a s : Desk) : Prop where
  /-- What was there before is still there as it was. -/
  kept : Grows a.files s.files
  /-- No two reports have the same file. -/
  apart : ∀ i j q, i ≠ j → OwnsPlace es s i q → ¬ OwnsPlace es s j q
  standing : ∀ i, Standing es a s i (s.stage i)

namespace Sound

theorem start (ha : ∀ i, a.stage i = .begun) : Sound es a a where
  kept := .refl _
  apart := by
    intro i j q _ hi
    obtain ⟨target, n, hfile, -⟩ := hi
    rw [ha i] at hfile
    cases hfile
  standing := by
    intro i
    rw [ha i]
    trivial

theorem effect (h : Sound es a s) (i : Nat) :
    (es i).Effect s.files (s.stage i) ((s.act es i).stage i) (s.act es i).files := by
  rw [Desk.act_stage_self, Desk.act_files]
  exact (es i).effect_step _ (h.standing i).hasOwn

/-- A place that a report has is that of a new file. -/
theorem of_ownsPlace (h : Sound es a s) {q : String} (hi : OwnsPlace es s i q) :
    a.files.node? q = none ∧ s.files.HasFile q := by
  obtain ⟨target, n, hfile, hleads⟩ := hi
  obtain ⟨b, q', u, -, hold, hleads', hnode⟩ := (h.standing i).holds hfile
  obtain rfl := hleads'.place_unique hleads
  exact ⟨hold, b, hnode⟩

/-- A place that a report has later is the one it had, if it had one. -/
theorem ownsPlace_of_later (h : Sound es a s) (hkeeps : Keeps s.files s'.files)
    (hstage : (s'.stage i).file? = (s.stage i).file?) {q : String} (hi : OwnsPlace es s' i q) : OwnsPlace es s i q := by
  obtain ⟨target, n, hfile, hleads⟩ := hi
  rw [hstage] at hfile
  obtain ⟨q', hleads', -⟩ := (h.standing i).hasOwn target n hfile
  obtain rfl := (hleads'.later hkeeps).place_unique hleads
  exact ⟨target, n, hfile, hleads'⟩

/-- A place that the acting report has afterwards is the one it had, or one that was free. -/
theorem ownsPlace_act (h : Sound es a s) {q : String} (hi : OwnsPlace es (s.act es i) i q) :
    OwnsPlace es s i q ∨ s.files.node? q = none := by
  have heffect := h.effect i
  cases hfile : (s.stage i).file? with
  | some f =>
    have hsame := heffect.file?_of_some hfile
    exact .inl (h.ownsPlace_of_later heffect.keeps (hsame.trans hfile.symm) hi)
  | none =>
    obtain ⟨target, n, hafter, hleads⟩ := hi
    obtain ⟨q', hleads', hfree⟩ := heffect.file?_of_none hfile hafter
    obtain rfl := (hleads'.later heffect.keeps).place_unique hleads
    exact .inr hfree

/-- A place that another report has afterwards is the one it had. -/
theorem ownsPlace_act_of_ne (h : Sound es a s) {j : Nat} (hj : j ≠ i) {q : String}
    (hown : OwnsPlace es (s.act es i) j q) : OwnsPlace es s j q :=
  h.ownsPlace_of_later (h.effect i).keeps (congrArg Stage.file? (s.act_stage_of_ne es i hj)) hown

/-- A file is made where no other report has its own. -/
theorem apart_actor (h : Sound es a s) {j : Nat} (hj : j ≠ i) {q : String} (hi : OwnsPlace es (s.act es i) i q) :
    ¬ OwnsPlace es (s.act es i) j q := by
  intro hown
  have hbefore := h.ownsPlace_act_of_ne hj hown
  rcases h.ownsPlace_act hi with hold | hfree
  · exact h.apart j i q hj hbefore hold
  · obtain ⟨b, hb⟩ := (h.of_ownsPlace hbefore).2
    rw [hfree] at hb
    cases hb

/-- **Files stay apart.** -/
theorem apart_act (h : Sound es a s) (i j k : Nat) (q : String) (hjk : j ≠ k) (hj : OwnsPlace es (s.act es i) j q) :
    ¬ OwnsPlace es (s.act es i) k q := by
  intro hk
  by_cases hji : j = i
  · subst hji
    exact h.apart_actor hjk.symm hj hk
  · by_cases hki : k = i
    · subst hki
      exact h.apart_actor hjk hk hj
    · exact h.apart j k q hjk (h.ownsPlace_act_of_ne hji hj) (h.ownsPlace_act_of_ne hki hk)

/-- **What was there before** is not touched. -/
theorem kept_act (h : Sound es a s) (i : Nat) : Grows a.files (s.act es i).files := by
  intro place n hn
  refine (h.effect i).node?_of_some (h.kept place n hn) ?_
  intro target m hfile hleads
  obtain ⟨hnone, -⟩ := h.of_ownsPlace ⟨target, m, hfile, hleads⟩
  rw [hnone] at hn
  cases hn

/-- **The acting report** is where it should be. -/
theorem standing_actor (h : Sound es a s) (hs : Course es a s) (i : Nat) :
    Standing es a (s.act es i) i ((s.act es i).stage i) := by
  have heffect := h.effect i
  have hstanding := h.standing i
  have hcourse : ∀ u, Course es u s → Course es u (s.act es i) := fun u hu => .act hu i
  have hkeeps := heffect.keeps
  generalize hstage : s.stage i = stage at heffect hstanding
  generalize hfiles : (s.act es i).files = t' at heffect
  generalize (s.act es i).stage i = stage' at heffect
  cases heffect with
  | inline hdue => exact .told_inline ((es i).due_eq_none_iff.mp hdue)
  | directory hdue =>
    refine ⟨((es i).due_eq_some_iff _).mp hdue, Nat.zero_le _, ?_⟩
    intro m hm
    exact absurd hm (Nat.not_lt_zero m)
  | noDirectory hdue hdirs =>
    exact ⟨_, s, _, ((es i).due_eq_some_iff _).mp hdue, hs, hcourse s .here, .inl hdirs, rfl, rfl⟩
  | taken hn hleads htaken =>
    rename_i target n q
    obtain ⟨hdue, -, hbelow⟩ := hstanding
    refine ⟨hdue, hn, ?_⟩
    intro m hm
    have hm' : m < n ∨ m = n := by omega
    rcases hm' with hlt | rfl
    · exact (hbelow m hlt).later hkeeps
    · exact .later hkeeps ⟨q, hleads, htaken⟩
  | made hn hleads hfree =>
    rename_i target n q
    obtain ⟨hdue, -, hbelow⟩ := hstanding
    have hdir : s.files.node? q ≠ some .dir := by
      rw [hfree]
      nofun
    have hmade : Made es a (s.act es i) i target n q s :=
      { before := hs, stage := hstage, bound := hn, least := hbelow, leads := hleads, free := hfree, after := .here }
    refine ⟨hdue, Nat.zero_le _, q, s, hmade, h.kept.none_of_none hfree, hleads.later hkeeps, ?_⟩
    rw [hfiles, Tree.node?_insert_self hdir]
    rfl
  | lost hn hlocate =>
    obtain ⟨hdue, -⟩ := hstanding
    exact ⟨_, s, _, hdue, hs, hcourse s .here, .inr ⟨_, hn, hlocate⟩, rfl, rfl⟩
  | full hn =>
    rename_i target n
    obtain ⟨hdue, -, hbelow⟩ := hstanding
    refine ⟨target, hdue, ?_, rfl, rfl⟩
    intro m hm
    have hlt : m < n := Nat.lt_of_lt_of_le hm (Nat.not_lt.mp hn)
    exact (hbelow m hlt).later hkeeps
  | wrote hk hleads hfile =>
    rename_i target n k q
    obtain ⟨hdue, -, hholds⟩ := hstanding
    refine ⟨hdue, hk, hholds.later hcourse hkeeps ?_⟩
    intro q' hleads' hnode
    have hdir : s.files.node? q' ≠ some .dir := by
      rw [hnode]
      nofun
    obtain rfl := hleads'.place_unique hleads
    rw [hfiles, Tree.node?_insert_self hdir]
  | dumped hk =>
    rename_i target n k
    obtain ⟨hdue, hle, hholds⟩ := hstanding
    have hwhole : (es i).content k = (es i).dumpContent := by
      rw [Nat.le_antisymm hle (Nat.not_lt.mp hk), Emission.content_parts]
    rw [hwhole] at hholds
    refine .told_dumped hdue (hholds.later hcourse hkeeps ?_)
    intro q _ hnode
    rw [hfiles]
    exact hnode
  | «over» =>
    refine hstanding.later hcourse hkeeps ?_
    intro _ _ q b _ _ hnode
    rw [hfiles]
    exact hnode

/-- **The others** are where they were. -/
theorem standing_other (h : Sound es a s) {j : Nat} (hj : j ≠ i) :
    Standing es a (s.act es i) j ((s.act es i).stage j) := by
  rw [s.act_stage_of_ne es i hj]
  have hcourse : ∀ u, Course es u s → Course es u (s.act es i) := fun u hu => .act hu i
  refine (h.standing j).later hcourse (h.effect i).keeps ?_
  intro target n q b hfile hleads hnode
  refine (h.effect i).node?_of_some hnode ?_
  intro target' m hfile' hleads'
  exact h.apart j i q hj ⟨target, n, hfile, hleads⟩ ⟨target', m, hfile', hleads'⟩

/-- **A step** of one report keeps all sound. -/
theorem act (h : Sound es a s) (hs : Course es a s) (i : Nat) : Sound es a (s.act es i) where
  kept := h.kept_act i
  apart := h.apart_act i
  standing := by
    intro j
    by_cases hj : j = i
    · subst hj
      exact h.standing_actor hs j
    · exact h.standing_other hj

/-- Files and directories that anybody adds keep all sound. -/
theorem others (h : Sound es a s) {files : Tree} (hgrows : Grows s.files files) :
    Sound es a { s with files } where
  kept := h.kept.trans hgrows
  apart := by
    intro j k q hjk hj hk
    have hkeeps : Keeps s.files ({ s with files } : Desk).files := hgrows.keeps
    exact h.apart j k q hjk (h.ownsPlace_of_later hkeeps rfl hj) (h.ownsPlace_of_later hkeeps rfl hk)
  standing := by
    intro j
    refine (h.standing j).later (fun u hu => .others hu hgrows) hgrows.keeps ?_
    intro target n q b _ _ hnode
    exact hgrows q _ hnode

end Sound

/-- **Everything stays sound.** -/
theorem sound_of_course (ha : ∀ i, a.stage i = .begun) (h : Course es a s) : Sound es a s := by
  induction h with
  | here => exact .start ha
  | act hs i ih => exact ih.act hs i
  | others _ hgrows ih => exact ih.others hgrows

/-- **What is nobody's own** stays as it is. -/
theorem untouched_of_course (ha : ∀ i, a.stage i = .begun) (hs : Course es a s) (h : Course es s s') {place : String}
    {n : Node} (hn : s.files.node? place = some n) (hnobody : ∀ i, ¬ OwnsPlace es s i place) :
    s'.files.node? place = some n ∧ ∀ i, ¬ OwnsPlace es s' i place := by
  induction h with
  | here => exact ⟨hn, hnobody⟩
  | act h i ih =>
    obtain ⟨hnode, hnot⟩ := ih
    have hsound := sound_of_course ha (hs.trans h)
    refine ⟨(hsound.effect i).node?_of_some hnode ?_, ?_⟩
    · intro target m hfile hleads
      exact hnot i ⟨target, m, hfile, hleads⟩
    · intro j hj
      by_cases hji : j = i
      · subst hji
        rcases hsound.ownsPlace_act hj with hold | hfree
        · exact hnot j hold
        · rw [hfree] at hnode
          cases hnode
      · exact hnot j (hsound.ownsPlace_act_of_ne hji hj)
  | @others t h files hgrows ih =>
    obtain ⟨hnode, hnot⟩ := ih
    refine ⟨hgrows place n hnode, ?_⟩
    intro i hi
    have hkeeps : Keeps t.files ({ t with files } : Desk).files := hgrows.keeps
    exact hnot i ((sound_of_course ha (hs.trans h)).ownsPlace_of_later hkeeps rfl hi)

/-! ### Which reports make files -/

/-- A report that has its file keeps it. -/
theorem file?_of_course (ha : ∀ i, a.stage i = .begun) (hs : Course es a s) (h : Course es s s')
    {f : DumpTarget × Nat} (hf : (s.stage i).file? = some f) : (s'.stage i).file? = some f := by
  induction h with
  | here => exact hf
  | others _ _ ih => exact ih
  | act h j ih =>
    by_cases hj : i = j
    · subst hj
      exact ((sound_of_course ha (hs.trans h)).effect i).file?_of_some ih
    · rw [Desk.act_stage_of_ne _ _ _ hj]
      exact ih

/-- A report makes no file, and changes none, unless it has one of its own afterwards. -/
theorem Sound.idle (h : Sound es a s) (hnone : ((s.act es i).stage i).file? = none) {place : String} {b : Bytes}
    (hb : (s.act es i).files.node? place = some (.file b)) : s.files.node? place = some (.file b) := by
  have heffect := h.effect i
  generalize s.stage i = stage at heffect
  generalize (s.act es i).files = t' at heffect hb
  generalize (s.act es i).stage i = stage' at heffect hnone
  cases heffect with
  | directory _ hdirs => exact Tree.file_of_createFrom hdirs hb
  | made => cases hnone
  | wrote => cases hnone
  | inline => exact hb
  | noDirectory => exact hb
  | taken => exact hb
  | lost => exact hb
  | full => exact hb
  | dumped => exact hb
  | «over» => exact hb

/-- Where all names are taken, a report gets no file. -/
theorem file?_of_taken (ha : ∀ i, a.stage i = .begun) (hs : Course es a s) {target : DumpTarget}
    (hdue : (es i).Due target) (htaken : ∀ n, n < Reporter.maxDumps → a.files.Taken ((es i).path target n)) :
    (s.stage i).file? = none := by
  have hsound := sound_of_course ha hs
  cases hfile : (s.stage i).file? with
  | none => rfl
  | some f =>
    obtain ⟨target', n⟩ := f
    have hstanding := hsound.standing i
    obtain ⟨b, q, u, hmade, hold, hleads, -⟩ := hstanding.holds hfile
    have hdue' : (es i).Due target' := hstanding.due hfile
    have htarget : target' = target := Option.some.inj (hdue'.2.2.symm.trans hdue.2.2)
    subst htarget
    obtain ⟨q', hleads', hnode⟩ := htaken n hmade.bound
    obtain rfl := (hleads'.later hsound.kept.keeps).place_unique hleads
    exact absurd hold hnode

/-- What holds of all reports and files, on the way from `a` to `s`. -/
structure Orderly (es : Nat → Emission) (a s : Desk) : Prop extends Sound es a s where
  /-- What was nobody's own at some moment is as it was then. -/
  untouched : ∀ u, Course es a u → Course es u s → ∀ place n, u.files.node? place = some n →
    (∀ i, ¬ OwnsPlace es u i place) → s.files.node? place = some n
  /-- A report that has no file by now has made none on the way, and has changed none. -/
  idle : ∀ i u, Course es a u → Course es (u.act es i) s → (s.stage i).file? = none → ∀ place b,
    (u.act es i).files.node? place = some (.file b) → u.files.node? place = some (.file b)
  /-- Where all names were taken from the beginning, a report has no file. -/
  full : ∀ i target, (es i).Due target →
    (∀ n, n < 10000 → a.files.Taken ((es i).path target n)) → (s.stage i).file? = none
  /-- Every step of a report brings it closer to its end. -/
  ends : ∀ i, ¬ (s.stage i).IsOver → ((s.act es i).stage i).rank (es i) < (s.stage i).rank (es i)
  /-- What a report that is over has left, where the output takes everything. -/
  spelled : ∀ i way result output, s.stage i = .over way result output → (es i).output.TakesAll →
    (es i).Spelled s.files way result output
  /-- Where nothing comes between the steps of a report, and the disk takes everything, they end as `Reporter.emit` does. -/
  alone : ∀ i, (es i).disk.TakesAll → ∃ way t,
    (es i).Leads (.begun, s.files) (.over way ((es i).emitted s.files).result ((es i).emitted s.files).output, t) ∧
      ∀ place, t.node? place = ((es i).emitted s.files).files.node? place

/-- **Dumps never collide.** However the steps of any number of reports come between each other, and whatever files others
add: a report is dumped if and only if it is due; its file was made under the first name that was free then, holds the whole
text in the end, and is nobody else's; what was there before is as it was; and the output gets the lines of the report or the
notice. -/
theorem dumps_of_course (es : Nat → Emission) (files : Tree) {s : Desk} (h : Course es ⟨files, fun _ => .begun⟩ s) :
    Orderly es ⟨files, fun _ => .begun⟩ s where
  toSound := sound_of_course (fun _ => rfl) h
  untouched := fun _ hu hs _ _ hn hnobody => (untouched_of_course (fun _ => rfl) hu hs hn hnobody).1
  idle := by
    intro i u hu hs hnone place b hb
    have hbegun : ∀ i, (Desk.mk files fun _ => .begun).stage i = .begun := fun _ => rfl
    refine (sound_of_course hbegun hu).idle ?_ hb
    cases hfile : ((u.act es i).stage i).file? with
    | none => rfl
    | some f =>
      have hlater := file?_of_course hbegun (.act hu i) hs hfile
      rw [hnone] at hlater
      cases hlater
  full := fun _ _ => file?_of_taken (fun _ => rfl) h
  ends := by
    intro i hover
    rw [act_stage_self]
    exact (es i).rank_step s.files hover
  spelled := by
    intro i way result output hover hall
    have hstanding := (sound_of_course (fun _ => rfl) h).standing i
    rw [hover] at hstanding
    exact hstanding.spelled hall
  alone := fun i hdisk => (es i).emit_of_steps hdisk s.files

/-! ### Two reports in one directory -/

/-- Where the files are when there is no other directory. -/
def plainTarget : DumpTarget := ⟨"", "/"⟩

theorem createDirs_plainTarget (t : Tree) : t.createDirs plainTarget.dir = .ok t := by
  have hcomponents : Path.components plainTarget.dir = [] := by decide +kernel
  rw [Tree.createDirs, hcomponents]
  rfl

/-- Reports that are all to be dumped to one directory. -/
def rivals (_ : Nat) : Emission where
  reporter := { lineLimit := 0, dumpName := "p" }
  failure := .runtime (.runtime "x\ty")
  output := {}
  target := some plainTarget
  version := "5.4"
  clock := 0

theorem rivals_due (i : Nat) : (rivals i).due = some plainTarget := by
  refine ((rivals i).due_eq_some_iff plainTarget).mpr ⟨rfl, ?_, rfl⟩
  exact Nat.succ_pos _

theorem step_rivals_begun (i : Nat) (t : Tree) : (rivals i).step t .begun = (.trying plainTarget 0, t) :=
  Emission.step_begun_directory (rivals_due i) (createDirs_plainTarget t)

theorem rivals_leadsTo_zero (i : Nat) (t : Tree) : t.LeadsTo ((rivals i).path plainTarget 0) "p0" := by
  have hpath : (rivals i).path plainTarget 0 = "p0" := by
    show Path.join "" ("p" ++ toString 0) = "p0"
    decide +kernel
  rw [hpath]
  exact t.leadsTo_name (by decide) (by decide +kernel) (by decide +kernel)

theorem rivals_leadsTo_one (i : Nat) (t : Tree) : t.LeadsTo ((rivals i).path plainTarget 1) "p1" := by
  have hpath : (rivals i).path plainTarget 1 = "p1" := by
    show Path.join "" ("p" ++ toString 1) = "p1"
    decide +kernel
  rw [hpath]
  exact t.leadsTo_name (by decide) (by decide +kernel) (by decide +kernel)

/-- Two reports try the same name, one after the other. -/
def rivalry : Desk :=
  (((((Desk.mk {} fun _ => .begun).act rivals 0).act rivals 1).act rivals 0).act rivals 1).act rivals 1

theorem rivalry_course : Course rivals ⟨{}, fun _ => .begun⟩ rivalry := .act (.act (.act (.act (.act .here 0) 1) 0) 1) 1

/-- The second of them takes the next name. -/
theorem rivalry_stages : rivalry.stage 0 = .writing plainTarget 0 0 ∧ rivalry.stage 1 = .writing plainTarget 1 0 := by
  have hfirst : 0 < Reporter.maxDumps := by decide
  have hsecond : 1 < Reporter.maxDumps := by decide
  have hempty : ({} : Tree).node? "p0" = none := Tree.node?_empty (by decide)
  have hdir : ({} : Tree).node? "p0" ≠ some .dir := by
    rw [hempty]
    exact (Option.some_ne_none _).symm
  have htaken : (({} : Tree).insert "p0" (.file ByteArray.empty)).node? "p0" ≠ none := by
    rw [Tree.node?_insert_self hdir]
    exact Option.some_ne_none _
  have hfree : (({} : Tree).insert "p0" (.file ByteArray.empty)).node? "p1" = none := by
    rw [Tree.node?_insert_of_ne _ (by decide), Tree.node?_empty (by decide)]
  have hbegun (f : Nat → Stage) (i : Nat) (hi : f i = .begun) :
      (Desk.mk {} f).act rivals i = ⟨{}, Function.update f i (.trying plainTarget 0)⟩ :=
    act_eq rivals _ i hi (step_rivals_begun i {})
  have hmade (f : Nat → Stage) (hf : f 0 = .trying plainTarget 0) :
      (Desk.mk {} f).act rivals 0
        = ⟨({} : Tree).insert "p0" (.file ByteArray.empty), Function.update f 0 (.writing plainTarget 0 0)⟩ :=
    act_eq rivals _ 0 hf (Emission.step_trying_free hfirst (rivals_leadsTo_zero 0 {}) hempty)
  have hpassed (t : Tree) (f : Nat → Stage) (ht : t.node? "p0" ≠ none) (hf : f 1 = .trying plainTarget 0) :
      (Desk.mk t f).act rivals 1 = ⟨t, Function.update f 1 (.trying plainTarget 1)⟩ :=
    act_eq rivals _ 1 hf (Emission.step_trying_taken hfirst (rivals_leadsTo_zero 1 t) ht)
  have hnext (t : Tree) (f : Nat → Stage) (ht : t.node? "p1" = none) (hf : f 1 = .trying plainTarget 1) :
      (Desk.mk t f).act rivals 1
        = ⟨t.insert "p1" (.file ByteArray.empty), Function.update f 1 (.writing plainTarget 1 0)⟩ :=
    act_eq rivals _ 1 hf (Emission.step_trying_free hsecond (rivals_leadsTo_one 1 t) ht)
  rw [rivalry, hbegun _ 0 rfl, hbegun _ 1 rfl, hmade, hpassed _ _ htaken, hnext _ _ hfree]
  · exact ⟨rfl, rfl⟩
  · rfl
  · rfl
  · rfl

/-- What leads a report on leads all of them on. -/
theorem Course.of_leads {es : Nat → Emission} {i : Nat} {p p' : Stage × Tree} (h : (es i).Leads p p') :
    ∀ {s : Desk}, s.stage i = p.1 → s.files = p.2 → ∃ s', Course es s s' ∧ s'.stage i = p'.1 ∧ s'.files = p'.2 := by
  induction h with
  | refl p => exact fun {s} hstage hfiles => ⟨s, .here, hstage, hfiles⟩
  | @head p p' _ hstep _ ih =>
    intro s hstage hfiles
    have hstage' : (s.act es i).stage i = p'.1 := by
      rw [act_stage_self, hstage, hfiles, hstep]
    have hfiles' : (s.act es i).files = p'.2 := by
      rw [act_files, hstage, hfiles, hstep]
    obtain ⟨s', hcourse, hend⟩ := ih hstage' hfiles'
    exact ⟨s', (Course.act .here i).trans hcourse, hend⟩

/-- The first of them goes on to its end. -/
theorem rivalry_ends : ∃ s, Course rivals ⟨{}, fun _ => .begun⟩ s ∧
    s.stage 0 = .over (.dumped plainTarget 0) (.ok ((rivals 0).dumpedReport plainTarget 0))
      { written := Bytes.ofString ((rivals 0).noticeLetters "" 0) } := by
  have hstanding := (sound_of_course (fun _ => rfl) rivalry_course).standing 0
  rw [rivalry_stages.1] at hstanding
  obtain ⟨-, -, q, -, -, -, hleads, hnode⟩ := hstanding
  obtain ⟨t, hsteps, -⟩ := Emission.leads_of_writing (Nat.zero_add _) hleads hnode
  obtain ⟨s, hcourse, hstage, -⟩ := Course.of_leads hsteps rivalry_stages.1 rfl
  refine ⟨s, rivalry_course.trans hcourse, ?_⟩
  have htold := ((rivals 0).tells_told (.dumped plainTarget 0) ((rivals 0).dumpedReport plainTarget 0)
    (Reporter.dumpNotice plainTarget ((rivals 0).name 0))).2 ⟨rfl, rfl⟩
  rw [hstage, htold, Emission.linesText_dumpNotice]
  rfl

theorem dumps_of_course_rivals : ∃ s output, rivalry.stage 0 = .writing plainTarget 0 0 ∧
    rivalry.stage 1 = .writing plainTarget 1 0 ∧ Orderly rivals ⟨{}, fun _ => .begun⟩ rivalry ∧
    s.stage 0 = .over (.dumped plainTarget 0) (.ok ((rivals 0).dumpedReport plainTarget 0)) output ∧
    Orderly rivals ⟨{}, fun _ => .begun⟩ s ∧
    output.written = Bytes.ofString "lua: stack trace too large!\nlua: dumped: /p0\n" ∧
    s.files.node? "p0" = some (.file (Bytes.ofString
      "Lua stack trace from 1970-01-01 00:00:00\nLua version: 5.4\n\nlua: runtime error\nx    y\n")) := by
  obtain ⟨s, hcourse, hover⟩ := rivalry_ends
  have horderly := dumps_of_course rivals {} hcourse
  have hspelled := horderly.spelled 0 _ _ _ hover ⟨rfl, rfl⟩
  have hnotice : (rivals 0).noticeLetters "" 0 = "lua: stack trace too large!\nlua: dumped: /p0\n" := by decide +kernel
  have htext : (rivals 0).dumpLetters
      = "Lua stack trace from 1970-01-01 00:00:00\nLua version: 5.4\n\nlua: runtime error\nx    y\n" := by
    decide +kernel
  refine ⟨s, _, rivalry_stages.1, rivalry_stages.2, dumps_of_course rivals {} rivalry_course, hover, horderly, ?_, ?_⟩
  · rw [hnotice]
  · obtain ⟨q, hleads, hfile⟩ := hspelled.file_of_dumped
    obtain rfl := hleads.place_unique (rivals_leadsTo_zero 0 s.files)
    rw [hfile, htext]

end Desk

end ScriptHost

import ScriptHost.Proofs.Files.Lookup
import ScriptHost.Report.Emit

/-!
# Writing a report step by step

Several reporters may write at the same time, and some of their reports are dumped to files of one directory.  What one
of them does falls into steps, between which the files may be changed by others.

* `Emission` — the writing of one report, and `Emission.due`, where the report is to be dumped;
* `Stage`, `Emission.step` — how far it is, and its next step;
* `Stage.rank`, **`rank_step`** — every step brings it closer to its end;
* **`emit_of_steps`** — when nobody else changes the files and the disk takes everything, the steps are what
  `Reporter.emit` does.
-/

namespace ScriptHost

/-! ### Unlimited writers -/

namespace Bytes

theorem append_eq (a b : Bytes) : a.append b = a ++ b := rfl

theorem ofString_append (s t : String) : ofString (s ++ t) = (ofString s).append (ofString t) :=
  String.toByteArray_append

end Bytes

/-- A writer that takes all that is written to it. -/
structure Writer.TakesAll (w : Writer) : Prop where
  room : w.room = none
  flushes : w.flushFails = false

/-- A writer that takes all gets all bytes. -/
theorem Writer.TakesAll.writeFlushed {w : Writer} (hw : w.TakesAll) (b : Bytes) :
    w.writeFlushed b = (none, { w with written := w.written.append b }) := by
  obtain ⟨written, room, fails⟩ := w
  obtain ⟨hroom, hflushes⟩ := hw
  dsimp only at hroom hflushes
  subst hroom hflushes
  rfl

namespace Reporter

/-- The text of some lines on the output. -/
def linesText (r : Reporter) (lines : List ReportLine) : String := String.join (lines.map r.lineText)

theorem writeLines_takesAll (r : Reporter) (lines : List ReportLine) : ∀ {w : Writer}, w.TakesAll →
    r.writeLines w lines = (none, { w with written := w.written.append (Bytes.ofString (r.linesText lines)) }) := by
  induction lines with
  | nil =>
    intro w _
    have hnothing : w.written.append (Bytes.ofString (r.linesText [])) = w.written := ByteArray.append_empty
    rw [hnothing]
    rfl
  | cons l rest ih =>
    intro w hw
    obtain ⟨written, room, fails⟩ := w
    obtain ⟨hroom, hflushes⟩ := hw
    dsimp only at hroom hflushes
    subst hroom hflushes
    have htext : r.linesText (l :: rest) = r.lineText l ++ r.linesText rest := by
      rw [linesText, List.map_cons, String.join_cons, ← linesText]
    rw [writeLines, Writer.write]
    dsimp only
    rw [ih ⟨rfl, rfl⟩, htext, Bytes.ofString_append]
    show (_, Writer.mk ((written ++ _) ++ _) _ _) = (_, Writer.mk (written ++ (_ ++ _)) _ _)
    rw [ByteArray.append_assoc]

/-- A writer that takes all gets all lines. -/
theorem writeFlushed_takesAll (r : Reporter) (lines : List ReportLine) {w : Writer} (hw : w.TakesAll) :
    r.writeFlushed w lines
      = (none, { w with written := w.written.append (Bytes.ofString (r.linesText lines)) }) := by
  rw [writeFlushed, r.writeLines_takesAll lines hw]
  simp only [Writer.flush, hw.flushes]
  rfl

end Reporter

/-! ### The steps of an emission -/

/-- The writing of a report: who writes the report of which failure, to which output, where it may be dumped, and what a
new file takes. -/
structure Emission where
  reporter : Reporter
  failure : Failure
  output : Writer
  target : Option DumpTarget
  version : String
  clock : Nat
  disk : Writer := {}

/-- How the writing of a report ended. -/
inductive Way where
  /-- The lines went to the output. -/
  | inline
  /-- The lines went to the file with this number. -/
  | dumped (target : DumpTarget) (n : Nat)
  /-- All names for a dump were taken. -/
  | full
  /-- There was no way to the directory or to a name in it. -/
  | failed

/-- How far the writing of a report is. -/
inductive Stage where
  | begun
  /-- The name with this number is tried next. -/
  | trying (target : DumpTarget) (n : Nat)
  /-- The file with this number is there, and so many parts of its text have been written. -/
  | writing (target : DumpTarget) (n k : Nat)
  | over (way : Way) (result : Except IoError Report) (output : Writer)

namespace Emission

variable (e : Emission)

/-- The report. -/
def report : Report := e.failure.classify

/-- Where the report is to be dumped: nowhere, unless it is too long for the output. -/
def due : Option DumpTarget := if e.reporter.isOversized e.report then e.target else none

/-- The name of the file with a number. -/
def name (n : Nat) : String := e.reporter.dumpName ++ toString n

/-- The path of the file with a number. -/
def path (target : DumpTarget) (n : Nat) : String := Path.join target.dir (e.name n)

/-- The parts of the text of a dump, as they are written: what stands above the lines, and each line with four spaces for
each tab. -/
def parts : List String :=
  ("Lua stack trace from " ++ Reporter.stamp e.clock ++ "\nLua version: " ++ e.version ++ "\n\n")
    :: e.report.lines.map fun l => Reporter.withoutTabs l.text ++ "\n"

/-- The content of a dump of which so many parts have been written. -/
def content (k : Nat) : Bytes := Bytes.ofString (String.join (e.parts.take k))

/-- The content of a whole dump. -/
def dumpContent : Bytes := Bytes.ofString (Reporter.dumpText e.report e.version e.clock)

/-- The report with the file that it was dumped to. -/
def dumpedReport (target : DumpTarget) (n : Nat) : Report := { e.report with dump := some (e.path target n) }

/-- Some lines go to the output, and the writing is over. -/
def told (way : Way) (report : Report) (lines : List ReportLine) : Stage :=
  match e.reporter.writeFlushed e.output lines with
  | (some x, output) => .over way (.error x) output
  | (none, output) => .over way (.ok report) output

/-- The next step. -/
def step (t : Tree) : Stage → Stage × Tree
  | .begun =>
    match e.due with
    | none => (e.told .inline e.report e.report.lines, t)
    | some target =>
      match t.createDirs target.dir with
      | .ok t => (.trying target 0, t)
      | .error x => (.over .failed (.error x) e.output, t)
  | .trying target n =>
    if n < Reporter.maxDumps then
      match t.createNew (e.path target n) ByteArray.empty with
      | .ok t => (.writing target n 0, t)
      | .error x =>
        if x.kind = .alreadyExists then (.trying target (n + 1), t) else (.over .failed (.error x) e.output, t)
    else (.over .full (.error (Reporter.noFreeName target.dir)) e.output, t)
  | .writing target n k =>
    if k < e.parts.length then
      match t.write (e.path target n) (e.content (k + 1)) with
      | .ok t => (.writing target n (k + 1), t)
      | .error x => (.over .failed (.error x) e.output, t)
    else (e.told (.dumped target n) (e.dumpedReport target n) (Reporter.dumpNotice target (e.name n)), t)
  | .over way result output => (.over way result output, t)

end Emission

/-! ### Coming to an end -/

namespace Stage

/-- The writing is over. -/
def IsOver : Stage → Prop
  | .over .. => True
  | _ => False

/-- How many steps it can take at most. -/
def rank (e : Emission) : Stage → Nat
  | .begun => Reporter.maxDumps + e.parts.length + 4
  | .trying _ n => Reporter.maxDumps - n + e.parts.length + 3
  | .writing _ _ k => e.parts.length - k + 1
  | .over .. => 0

end Stage

namespace Emission

variable (e : Emission)

theorem told_isOver (way : Way) (report : Report) (lines : List ReportLine) :
    ∃ result output, e.told way report lines = .over way result output ∧
      e.reporter.writeFlushed e.output lines = (match result with
        | .error x => some x
        | .ok _ => none, output) ∧ ∀ r, result = .ok r → r = report := by
  rw [told]
  cases h : e.reporter.writeFlushed e.output lines with
  | mk failure output =>
    cases failure with
    | none =>
      refine ⟨.ok report, output, rfl, rfl, fun r hr => ?_⟩
      cases hr
      rfl
    | some x => exact ⟨.error x, output, rfl, rfl, nofun⟩

theorem rank_told (way : Way) (report : Report) (lines : List ReportLine) : (e.told way report lines).rank e = 0 := by
  obtain ⟨result, output, htold, -⟩ := e.told_isOver way report lines
  rw [htold]
  rfl

/-- **Every step** brings the writing of a report closer to its end. -/
theorem rank_step (t : Tree) {s : Stage} (hs : ¬ s.IsOver) : (e.step t s).1.rank e < s.rank e := by
  cases s with
  | begun =>
    rw [step]
    split
    · show (e.told _ _ _).rank e < _
      rw [rank_told]
      simp [Stage.rank]
    · split <;> simp [Stage.rank]
  | trying target n =>
    rw [step]
    split
    · split
      · simp only [Stage.rank]
        omega
      · split <;> simp only [Stage.rank] <;> omega
    · simp [Stage.rank]
  | writing target n k =>
    rw [step]
    split
    · split <;> simp only [Stage.rank] <;> omega
    · show (e.told _ _ _).rank e < _
      rw [rank_told]
      simp [Stage.rank]
  | «over» way result output => exact absurd trivial hs

/-! ### Writing alone -/

/-- The parts make up the text of the dump. -/
theorem content_parts : e.content e.parts.length = e.dumpContent := by
  have hjoin : String.join e.parts = Reporter.dumpText e.report e.version e.clock := by
    rw [parts, String.join_cons]
    unfold Reporter.dumpText
    congr 1
  rw [content, List.take_length, hjoin, dumpContent]

/-- Some steps, with nothing else between them, lead from a stage and files to others. -/
inductive Leads : Stage × Tree → Stage × Tree → Prop
  | refl (p : Stage × Tree) : Leads p p
  | head {p p' p'' : Stage × Tree} (h : e.step p.2 p.1 = p') (h' : Leads p' p'') : Leads p p''

variable {e} {p p' p'' : Stage × Tree}

theorem Leads.trans (h : e.Leads p p') (h' : e.Leads p' p'') : e.Leads p p'' := by
  induction h with
  | refl _ => exact h'
  | head hstep _ ih => exact .head hstep (ih h')

variable {t : Tree} {target : DumpTarget} {n : Nat} {q : String}

/-- Where nothing is due, the output is told the lines. -/
theorem step_begun_inline (hdue : e.due = none) :
    e.step t .begun = (e.told .inline e.report e.report.lines, t) := by
  rw [step, hdue]

/-- Where the report is to be dumped, its directory is made first. -/
theorem step_begun_directory {u : Tree} (hdue : e.due = some target) (hdirs : t.createDirs target.dir = .ok u) :
    e.step t .begun = (.trying target 0, u) := by
  rw [step, hdue]
  simp only [hdirs]

/-- Without a directory there is no dump. -/
theorem step_begun_failed {x : IoError} (hdue : e.due = some target) (hdirs : t.createDirs target.dir = .error x) :
    e.step t .begun = (.over .failed (.error x) e.output, t) := by
  rw [step, hdue]
  simp only [hdirs]

/-- A name that is free is taken by a new file. -/
theorem step_trying_free (hn : n < Reporter.maxDumps) (hleads : t.LeadsTo (e.path target n) q)
    (hfree : t.node? q = none) :
    e.step t (.trying target n) = (.writing target n 0, t.insert q (.file ByteArray.empty)) := by
  rw [step, if_pos hn, Tree.createNew_of_leadsTo hleads, if_pos hfree]

/-- A name that is taken is passed over. -/
theorem step_trying_taken (hn : n < Reporter.maxDumps) (hleads : t.LeadsTo (e.path target n) q)
    (htaken : t.node? q ≠ none) : e.step t (.trying target n) = (.trying target (n + 1), t) := by
  rw [step, if_pos hn, Tree.createNew_of_leadsTo hleads, if_neg htaken]
  rfl

/-- A name to which no path leads ends the search. -/
theorem step_trying_failed {x : IoError} (hn : n < Reporter.maxDumps)
    (hlocate : t.locate (e.path target n) = .error x) :
    e.step t (.trying target n) = (.over .failed (.error x) e.output, t) := by
  rw [step, if_pos hn, Tree.createNew_of_error hlocate]
  simp only [if_neg (Tree.locate_error_kind hlocate)]

/-- After the last name there is no other one. -/
theorem step_trying_last (hn : ¬ n < Reporter.maxDumps) :
    e.step t (.trying target n) = (.over .full (.error (Reporter.noFreeName target.dir)) e.output, t) := by
  rw [step, if_neg hn]

/-- A part of the text is written to the file. -/
theorem step_writing {k : Nat} (hk : k < e.parts.length) (hleads : t.LeadsTo (e.path target n) q)
    (hfile : t.HasFile q) :
    e.step t (.writing target n k) = (.writing target n (k + 1), t.insert q (.file (e.content (k + 1)))) := by
  obtain ⟨b, hb⟩ := hfile
  have hdir : t.node? q ≠ some .dir := by
    rw [hb]
    nofun
  rw [step, if_pos hk, Tree.write_of_leadsTo hleads hdir]

/-- Where all of the text has been written, the output is told. -/
theorem step_written {k : Nat} (hk : ¬ k < e.parts.length) :
    e.step t (.writing target n k)
      = (e.told (.dumped target n) (e.dumpedReport target n) (Reporter.dumpNotice target (e.name n)), t) := by
  rw [step, if_neg hk]

/-- **A file that is there** gets the rest of the text, and nothing else is changed. -/
theorem leads_of_writing : ∀ {j k : Nat} {t : Tree}, k + j = e.parts.length → t.LeadsTo (e.path target n) q →
    t.node? q = some (.file (e.content k)) → ∃ t', e.Leads (.writing target n k, t)
      (e.told (.dumped target n) (e.dumpedReport target n) (Reporter.dumpNotice target (e.name n)), t') ∧
      t'.node? q = some (.file e.dumpContent) ∧ ∀ place, place ≠ q → t'.node? place = t.node? place := by
  intro j
  induction j with
  | zero =>
    intro k t hk _ hnode
    have hk : k = e.parts.length := hk
    have hstep : e.step t (.writing target n k) = _ := step_written (by rw [hk]; exact Nat.lt_irrefl _)
    refine ⟨t, .head hstep (.refl _), ?_, fun _ _ => rfl⟩
    rw [hnode, hk, content_parts]
  | succ j ih =>
    intro k t hk hleads hnode
    have hfile : t.HasFile q := ⟨_, hnode⟩
    have hlt : k < e.parts.length := by omega
    have hstep := step_writing hlt hleads hfile
    have hdir : t.node? q ≠ some .dir := by
      rw [hnode]
      nofun
    have hnext : k + 1 + j = e.parts.length := by omega
    obtain ⟨t', hrun, hcontent, helse⟩ := ih hnext (hleads.later (Tree.Keeps.overwrite hfile _))
      (Tree.node?_insert_self hdir _)
    refine ⟨t', .head hstep hrun, hcontent, fun place hplace => ?_⟩
    rw [helse place hplace, Tree.node?_insert_of_ne _ hplace]

/-- One round of the search for a free name. -/
theorem dumpFrom_succ (e : Emission) (t : Tree) (target : DumpTarget) (content : Bytes) (fuel n : Nat) :
    e.reporter.dumpFrom target.dir content t (fuel + 1) n
      = match t.createNew (e.path target n) content with
        | .ok t => .ok (e.name n, t)
        | .error x =>
          if x.kind = .alreadyExists then e.reporter.dumpFrom target.dir content t fuel (n + 1) else .error x := rfl

/-- What the search for a free name came to, and the steps that come to the same. -/
inductive Searched (e : Emission) (b : Bytes) (t : Tree) (target : DumpTarget) (n : Nat) :
    Except IoError (String × Tree) → Prop
  | found {m : Nat} {q : String} (hleads : t.LeadsTo (e.path target m) q) (hfree : t.node? q = none)
      (hsteps : e.Leads (.trying target n, t) (.writing target m 0, t.insert q (.file ByteArray.empty))) :
      Searched e b t target n (.ok (e.name m, t.insert q (.file b)))
  | ended {way : Way} {x : IoError} (hsteps : e.Leads (.trying target n, t) (.over way (.error x) e.output, t)) :
      Searched e b t target n (.error x)

/-- **The search** for a free name is the trying of one after another. -/
theorem searched (b : Bytes) : ∀ {fuel n : Nat}, n + fuel = Reporter.maxDumps →
    Searched e b t target n (e.reporter.dumpFrom target.dir b t fuel n) := by
  intro fuel
  induction fuel with
  | zero =>
    intro n hn
    exact .ended (.head (step_trying_last (by omega)) (.refl _))
  | succ fuel ih =>
    intro n hn
    have hlt : n < Reporter.maxDumps := by omega
    rw [dumpFrom_succ]
    cases hlocate : t.locate (e.path target n) with
    | error x =>
      rw [Tree.createNew_of_error hlocate]
      simp only [if_neg (Tree.locate_error_kind hlocate)]
      exact .ended (.head (step_trying_failed hlt hlocate) (.refl _))
    | ok l =>
      obtain ⟨q, -, hleads⟩ := Tree.exists_leadsTo hlocate
      rw [Tree.createNew_of_leadsTo hleads]
      by_cases hfree : t.node? q = none
      · rw [if_pos hfree]
        exact .found hleads hfree (.head (step_trying_free hlt hleads hfree) (.refl _))
      · rw [if_neg hfree]
        have hstep := step_trying_taken hlt hleads hfree
        have hrest := ih (n := n + 1) (by omega)
        simp only [IoError.taken, if_true]
        generalize e.reporter.dumpFrom target.dir b t fuel (n + 1) = found at hrest
        cases hrest with
        | found hleads' hfree' hsteps => exact .found hleads' hfree' (.head hstep hsteps)
        | ended hsteps => exact .ended (.head hstep hsteps)

variable (e)

/-- What `Reporter.emit` does with the report. -/
def emitted (t : Tree) : Reporter.Emitted := e.reporter.emit e.failure e.output e.target e.version e.clock e.disk t

/-- What a new file keeps of the text of a dump. -/
def kept : Bytes := (e.disk.take.2.writeFlushed e.dumpContent).2.written

/-- The failure to write all of the text to a new file. -/
def cutShort : Option IoError := (e.disk.take.2.writeFlushed e.dumpContent).1

/-- On a disk that takes all, a new file keeps the whole text. -/
theorem kept_takesAll (hdisk : e.disk.TakesAll) : e.kept = e.dumpContent ∧ e.cutShort = none := by
  have hfresh : e.disk.take.2.TakesAll := ⟨hdisk.room, hdisk.flushes⟩
  rw [kept, cutShort, hfresh.writeFlushed]
  exact ⟨ByteArray.empty_append, rfl⟩

/-- The output is told, and the report is given back. -/
def emittedWith (report : Report) (lines : List ReportLine) (t : Tree) : Reporter.Emitted :=
  match e.reporter.writeFlushed e.output lines with
  | (some x, output) => ⟨.error x, output, t⟩
  | (none, output) => ⟨.ok report, output, t⟩

/-- The output is told of a dump, if the disk took all of it. -/
def dumpedWith (report : Report) (lines : List ReportLine) (t : Tree) : Reporter.Emitted :=
  match e.cutShort with
  | some x => ⟨.error x, e.output, t⟩
  | none => e.emittedWith report lines t

theorem told_eq (way : Way) (report : Report) (lines : List ReportLine) (t : Tree) :
    e.told way report lines
      = .over way (e.emittedWith report lines t).result (e.emittedWith report lines t).output := by
  rw [told, emittedWith]
  split <;> rfl

theorem emittedWith_files (report : Report) (lines : List ReportLine) (t : Tree) :
    (e.emittedWith report lines t).files = t := by
  rw [emittedWith]
  split <;> rfl

theorem dumpedWith_files (report : Report) (lines : List ReportLine) (t : Tree) :
    (e.dumpedWith report lines t).files = t := by
  rw [dumpedWith]
  cases e.cutShort with
  | none => exact e.emittedWith_files report lines t
  | some x => rfl

/-- A dump that the disk took is told of. -/
theorem dumpedWith_of_whole (hwhole : e.cutShort = none) (report : Report) (lines : List ReportLine) (t : Tree) :
    e.dumpedWith report lines t = e.emittedWith report lines t := by
  rw [dumpedWith, hwhole]

theorem emitted_of_not_due (t : Tree) (hdue : e.due = none) : e.emitted t = e.emittedWith e.report e.report.lines t := by
  have hnot : ∀ target, e.target = some target → e.reporter.isOversized e.failure.classify = true → False := by
    intro target htarget hover
    rw [due, report, if_pos hover, htarget] at hdue
    cases hdue
  rw [emitted, Reporter.emit]
  · rfl
  · exact hnot

theorem emitted_of_due {t : Tree} {target : DumpTarget} (hdue : e.due = some target) :
    e.emitted t = match t.createDirs target.dir with
      | .error x => ⟨.error x, e.output, t⟩
      | .ok t =>
        match e.reporter.dumpFrom target.dir e.kept t Reporter.maxDumps 0 with
        | .error x => ⟨.error x, e.output, t⟩
        | .ok (name, t) =>
          e.dumpedWith { e.report with dump := some (Path.join target.dir name) } (Reporter.dumpNotice target name) t := by
  rw [due] at hdue
  split at hdue
  case isFalse => cases hdue
  case isTrue hover =>
    rw [report] at hover
    rw [emitted, hdue, Reporter.emit]
    case heq => exact hover
    simp only [Reporter.dump]
    cases t.createDirs target.dir with
    | error x => rfl
    | ok t =>
      simp only
      have hkept : (e.disk.take.2.writeFlushed
          (Bytes.ofString (Reporter.dumpText e.failure.classify e.version e.clock))).2.written = e.kept := rfl
      have hcut : (e.disk.take.2.writeFlushed
          (Bytes.ofString (Reporter.dumpText e.failure.classify e.version e.clock))).1 = e.cutShort := rfl
      rw [hkept, hcut]
      cases e.reporter.dumpFrom target.dir e.kept t Reporter.maxDumps 0 with
      | error x => rfl
      | ok found =>
        simp only [dumpedWith]
        cases e.cutShort <;> rfl

/-- **When nobody else changes the files** and the disk takes all of a dump, the steps end as `Reporter.emit` does. -/
theorem emit_of_steps (hdisk : e.disk.TakesAll) (t : Tree) : ∃ way t',
    e.Leads (.begun, t) (.over way (e.emitted t).result (e.emitted t).output, t') ∧
      ∀ place, t'.node? place = (e.emitted t).files.node? place := by
  cases hdue : e.due with
  | none =>
    have hstep : e.step t .begun = _ := step_begun_inline hdue
    rw [e.told_eq _ _ _ t, ← e.emitted_of_not_due t hdue] at hstep
    refine ⟨.inline, t, .head hstep (.refl _), fun place => ?_⟩
    rw [e.emitted_of_not_due t hdue, emittedWith_files]
  | some target =>
    obtain ⟨hkept, hwhole⟩ := e.kept_takesAll hdisk
    rw [e.emitted_of_due hdue, hkept]
    cases hdirs : t.createDirs target.dir with
    | error x =>
      exact ⟨.failed, t, .head (step_begun_failed hdue hdirs) (.refl _), fun _ => rfl⟩
    | ok u =>
      have hstep := step_begun_directory hdue hdirs
      have hsearched : Searched e e.dumpContent u target 0 _ := searched _ (Nat.zero_add _)
      simp only
      generalize e.reporter.dumpFrom target.dir e.dumpContent u Reporter.maxDumps 0 = found at hsearched
      cases hsearched with
      | ended hsteps => exact ⟨_, u, .head hstep hsteps, fun _ => rfl⟩
      | found hleads hfree hsteps =>
        rename_i m q
        have hdir : u.node? q ≠ some .dir := by
          rw [hfree]
          nofun
        have hgrows := Tree.Grows.insert hfree (.file ByteArray.empty)
        obtain ⟨t', hrest, hcontent, helse⟩ := leads_of_writing (e := e) (Nat.zero_add _) (hleads.later hgrows.keeps)
          (Tree.node?_insert_self hdir _)
        rw [e.told_eq _ _ _ (u.insert q (.file e.dumpContent))] at hrest
        simp only [e.dumpedWith_of_whole hwhole]
        refine ⟨_, t', .head hstep (hsteps.trans hrest), fun place => ?_⟩
        rw [emittedWith_files]
        by_cases hplace : place = q
        · rw [hplace, hcontent, Tree.node?_insert_self hdir]
        · rw [helse place hplace, Tree.node?_insert_of_ne _ hplace, Tree.node?_insert_of_ne _ hplace]

end Emission

end ScriptHost

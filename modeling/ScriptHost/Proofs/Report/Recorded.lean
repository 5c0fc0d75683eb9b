import ScriptHost.Proofs.Report.Dumps
import ScriptHost.Session.Job

/-!
# What a session records of a report

A session keeps the report of its failure.  The report may have been dumped to a file first and told to the output after
that, and the disk and the output may fail.  Here it is said which file comes about and whether the record names it.

* `Writer.Takes`, `Writer.writeFlushed_iff`, **`writeFlushed_fst_iff`** — when all bytes, or all lines, get to a writer;
* `Tree.Makes`, `Tree.SameFiles` — one file has come about, or none;
* `Emission.Left`, **`left_emitted`** — what the writing of a report leaves;
* **`recorded_iff`** — the record has the lines of the failure's report, and it names the file that has come about exactly
  if the disk takes the whole dump, and the output has room for the notice and can be flushed.
-/

namespace ScriptHost

/-! ### Writers that may fail -/

/-- A writer takes so many bytes: it has room for them, and it can be flushed. -/
structure Writer.Takes (w : Writer) (size : Nat) : Prop where
  room : ∀ n, w.room = some n → size ≤ n
  flushes : w.flushFails = false

theorem Writer.takes_iff (w : Writer) (size : Nat) :
    w.Takes size ↔ (∀ n, w.room = some n → size ≤ n) ∧ w.flushFails = false :=
  ⟨fun h => ⟨h.room, h.flushes⟩, fun h => ⟨h.1, h.2⟩⟩

/-- A writer without room for all of some bytes keeps the first of them. -/
theorem Writer.written_writeFlushed (w : Writer) (b : Bytes) :
    ∃ k, (w.writeFlushed b).2.written = w.written.append (b.extract 0 k) ∧
      ((∀ n, w.room = some n → b.size ≤ n) → k = b.size) := by
  obtain ⟨written, room, fails⟩ := w
  have hwhole : b.extract 0 b.size = b := ByteArray.extract_zero_size
  cases room with
  | none => exact ⟨b.size, by rw [hwhole]; rfl, fun _ => rfl⟩
  | some n =>
    rw [Writer.writeFlushed, Writer.write]
    by_cases hfits : b.size ≤ n
    · rw [if_pos hfits]
      exact ⟨b.size, by rw [hwhole]; rfl, fun _ => rfl⟩
    · rw [if_neg hfits]
      exact ⟨n, rfl, fun hroom => absurd (hroom n rfl) hfits⟩

/-- **All bytes get to a writer** exactly if it takes so many. -/
theorem Writer.writeFlushed_iff (w : Writer) (b : Bytes) : (w.writeFlushed b).1 = none ↔ w.Takes b.size := by
  obtain ⟨written, room, fails⟩ := w
  cases room with
  | none => cases fails <;> simp [Writer.writeFlushed, Writer.write, Writer.flush, Writer.takes_iff]
  | some n =>
    by_cases hfits : b.size ≤ n <;> cases fails <;>
      simp [Writer.writeFlushed, Writer.write, Writer.flush, Writer.takes_iff, hfits]

namespace Reporter

variable (r : Reporter)

theorem linesText_cons_size (l : ReportLine) (rest : List ReportLine) :
    (Bytes.ofString (r.linesText (l :: rest))).size
      = (Bytes.ofString (r.lineText l)).size + (Bytes.ofString (r.linesText rest)).size := by
  rw [linesText, List.map_cons, String.join_cons, ← linesText, Bytes.ofString_append, Bytes.append_eq, ByteArray.size_append]

/-- Lines are written exactly if there is room for all of them. -/
theorem writeLines_fst_iff (lines : List ReportLine) : ∀ {w : Writer},
    ((r.writeLines w lines).1 = none ↔ ∀ n, w.room = some n → (Bytes.ofString (r.linesText lines)).size ≤ n) ∧
      (r.writeLines w lines).2.flushFails = w.flushFails := by
  induction lines with
  | nil => exact fun {w} => ⟨⟨fun _ n _ => Nat.zero_le n, fun _ => rfl⟩, rfl⟩
  | cons l rest ih =>
    rintro ⟨written, room, fails⟩
    rw [r.linesText_cons_size l rest, writeLines]
    cases room with
    | none =>
      rw [Writer.write]
      obtain ⟨hrest, hflush⟩ := ih (w := ⟨Writer.extend written (Bytes.ofString (r.lineText l)), none, fails⟩)
      exact ⟨⟨fun _ n hn => (by cases hn), fun _ => hrest.mpr fun n hn => (by cases hn)⟩, hflush⟩
    | some n =>
      rw [Writer.write]
      by_cases hfits : (Bytes.ofString (r.lineText l)).size ≤ n
      · obtain ⟨hrest, hflush⟩ := ih (w := ⟨Writer.extend written (Bytes.ofString (r.lineText l)),
          some (n - (Bytes.ofString (r.lineText l)).size), fails⟩)
        simp only [if_pos hfits, Option.some.injEq, forall_eq'] at hrest hflush ⊢
        refine ⟨?_, hflush⟩
        rw [hrest]
        omega
      · simp only [if_neg hfits, Option.some.injEq, forall_eq']
        refine ⟨⟨fun h => (by cases h), fun h => absurd h ?_⟩, trivial⟩
        omega

/-- **All lines get to an output** exactly if it has room for them and can be flushed. -/
theorem writeFlushed_fst_iff (lines : List ReportLine) (w : Writer) :
    (r.writeFlushed w lines).1 = none ↔ w.Takes (Bytes.ofString (r.linesText lines)).size := by
  obtain ⟨hroom, hflush⟩ := r.writeLines_fst_iff lines (w := w)
  rw [writeFlushed]
  cases hlines : r.writeLines w lines with
  | mk failure w' =>
    rw [hlines] at hroom hflush
    cases failure with
    | some x =>
      refine ⟨fun h => (by cases h), fun h => ?_⟩
      have hwritten := hroom.mpr h.room
      cases hwritten
    | none =>
      have hfails : w'.flushFails = w.flushFails := hflush
      simp only [Writer.flush, hfails]
      cases hw : w.flushFails with
      | true =>
        refine ⟨fun h => (by cases h), fun h => ?_⟩
        rw [h.flushes] at hw
        cases hw
      | false => exact ⟨fun _ => ⟨hroom.mp rfl, hw⟩, fun _ => rfl⟩

end Reporter

/-! ### Files that come about -/

namespace Tree

variable {t t' t'' : Tree}

/-- The files are the same; directories may have come about. -/
def SameFiles (t t' : Tree) : Prop := ∀ place b, t'.node? place = some (.file b) ↔ t.node? place = some (.file b)

/-- One file has come about: it is where a path leads, nothing was there before, and all other files are the same. -/
def Makes (t t' : Tree) (path : String) (b : Bytes) : Prop :=
  ∃ q, t'.LeadsTo path q ∧ t.node? q = none ∧ t'.node? q = some (.file b) ∧
    ∀ place c, place ≠ q → (t'.node? place = some (.file c) ↔ t.node? place = some (.file c))

theorem SameFiles.refl (t : Tree) : SameFiles t t := fun _ _ => Iff.rfl

/-- Making directories leaves the files the same. -/
theorem sameFiles_of_createDirs {dir : String} (h : t.createDirs dir = .ok t') : SameFiles t t' :=
  fun _ _ => ⟨file_of_createFrom h, createDirs_grows h _ _⟩

/-- A file is put where a path leads and nothing was. -/
theorem makes_insert {dir path q : String} (h : t.createDirs dir = .ok t') (hleads : t'.LeadsTo path q)
    (hfree : t'.node? q = none) (b : Bytes) : Makes t (t'.insert q (.file b)) path b := by
  have hdir : t'.node? q ≠ some .dir := by
    rw [hfree]
    nofun
  refine ⟨q, hleads.later (Grows.insert hfree _).keeps, (createDirs_grows h).none_of_none hfree,
    node?_insert_self hdir _, ?_⟩
  intro place c hplace
  rw [node?_insert_of_ne _ hplace]
  exact sameFiles_of_createDirs h place c

end Tree

/-! ### What the writing of a report leaves -/

namespace Emission

variable (e : Emission)

/-- What is kept of a report: what the writing gave back, or the report without a file if the writing failed. -/
def record (x : Reporter.Emitted) : Report :=
  match x.result with
  | .ok r => r
  | .error _ => e.report

/-- The size of the notice of a dump. -/
def noticeSize (target : DumpTarget) (n : Nat) : Nat :=
  (Bytes.ofString (e.reporter.linesText (Reporter.dumpNotice target (e.name n)))).size

/-- The disk takes the whole text of a dump. -/
def Fits : Prop := e.disk.Takes e.dumpContent.size

theorem cutShort_eq_none_iff : e.cutShort = none ↔ e.Fits := by
  rw [cutShort, Writer.writeFlushed_iff]
  exact ⟨fun h => ⟨h.room, h.flushes⟩, fun h => ⟨h.room, h.flushes⟩⟩

/-- A new file keeps the first bytes of the text, and all of them if there is room. -/
theorem exists_kept : ∃ k, e.kept = e.dumpContent.extract 0 k ∧ (e.Fits → k = e.dumpContent.size) := by
  obtain ⟨k, hkept, hall⟩ := e.disk.take.2.written_writeFlushed e.dumpContent
  refine ⟨k, ?_, fun hfits => hall hfits.room⟩
  rw [kept, hkept]
  exact ByteArray.empty_append

/-- On a disk that takes the whole text, that is what a new file keeps. -/
theorem kept_of_fits (hfits : e.Fits) : e.kept = e.dumpContent := by
  obtain ⟨k, hkept, hall⟩ := e.exists_kept
  rw [hkept, hall hfits]
  exact ByteArray.extract_zero_size

/-- All that the writing of a report can leave. -/
inductive Left (t : Tree) : Reporter.Emitted → Prop
  /-- The report was dumped, and the output was told. -/
  | dumped {target : DumpTarget} {n : Nat} {t' : Tree} (hdue : e.Due target) (hfits : e.Fits)
      (hmakes : t.Makes t' (e.path target n) e.kept) :
      Left t (e.emittedWith (e.dumpedReport target n) (Reporter.dumpNotice target (e.name n)) t')
  /-- A file was made, but the disk did not take the whole dump. -/
  | cut {target : DumpTarget} {n : Nat} {t' : Tree} {x : IoError} (hdue : e.Due target) (hfits : ¬ e.Fits)
      (hmakes : t.Makes t' (e.path target n) e.kept) : Left t ⟨.error x, e.output, t'⟩
  /-- The report was not dumped. -/
  | undumped {x : Reporter.Emitted} (hfiles : t.SameFiles x.files) (hrecord : e.record x = e.report) : Left t x

/-- What is kept after the output was told, or after that failed. -/
theorem record_emittedWith (report : Report) (lines : List ReportLine) (t : Tree) :
    (e.reporter.writeFlushed e.output lines).1 = none ∧ e.record (e.emittedWith report lines t) = report ∨
      (e.reporter.writeFlushed e.output lines).1 ≠ none ∧ e.record (e.emittedWith report lines t) = e.report := by
  rw [record, emittedWith]
  cases e.reporter.writeFlushed e.output lines with
  | mk failure output =>
    cases failure with
    | none => exact .inl ⟨rfl, rfl⟩
    | some x => exact .inr ⟨fun h => (by cases h), rfl⟩

/-- Where the first name is free, the report is dumped there. -/
theorem emitted_of_free {e : Emission} {t u : Tree} {target : DumpTarget} {q : String} (hdue : e.due = some target)
    (hfits : e.Fits) (hdirs : t.createDirs target.dir = .ok u) (hleads : u.LeadsTo (e.path target 0) q)
    (hfree : u.node? q = none) :
    e.emitted t = e.emittedWith (e.dumpedReport target 0) (Reporter.dumpNotice target (e.name 0))
      (u.insert q (.file e.dumpContent)) := by
  have hfound : e.reporter.dumpFrom target.dir e.dumpContent u Reporter.maxDumps 0
      = .ok (e.name 0, u.insert q (.file e.dumpContent)) := by
    rw [Reporter.maxDumps, dumpFrom_succ e u target e.dumpContent 9999 0, Tree.createNew_of_leadsTo hleads, if_pos hfree]
  rw [e.emitted_of_due hdue, hdirs, e.kept_of_fits hfits]
  simp only [hfound]
  exact e.dumpedWith_of_whole (e.cutShort_eq_none_iff.mpr hfits) ..

/-- **What the writing of a report leaves.** -/
theorem left_emitted (t : Tree) : e.Left t (e.emitted t) := by
  cases hdue : e.due with
  | none =>
    rw [e.emitted_of_not_due t hdue]
    refine .undumped ?_ ?_
    · rw [emittedWith_files]
      exact .refl t
    · rcases e.record_emittedWith e.report e.report.lines t with ⟨-, hrecord⟩ | ⟨-, hrecord⟩ <;> exact hrecord
  | some target =>
    rw [e.emitted_of_due hdue]
    cases hdirs : t.createDirs target.dir with
    | error x => exact .undumped (.refl t) rfl
    | ok u =>
      have hsearched : Searched e e.kept u target 0 _ := searched _ (Nat.zero_add _)
      simp only
      generalize e.reporter.dumpFrom target.dir e.kept u Reporter.maxDumps 0 = found at hsearched
      cases hsearched with
      | ended _ => exact .undumped (Tree.sameFiles_of_createDirs hdirs) rfl
      | found hleads hfree _ =>
        have hdue' := (e.due_eq_some_iff target).mp hdue
        have hmakes := Tree.makes_insert hdirs hleads hfree e.kept
        simp only [dumpedWith]
        cases hcut : e.cutShort with
        | none => exact .dumped hdue' (e.cutShort_eq_none_iff.mp hcut) hmakes
        | some x =>
          refine .cut hdue' (fun hfits => ?_) hmakes
          rw [e.cutShort_eq_none_iff.mpr hfits] at hcut
          cases hcut

end Emission

/-! ### The record of a session -/

namespace Job

variable (j : Job) (c : Config) (f : Failure)

/-- Where a session writes its reports. -/
def reportOutput : Writer :=
  match j.access.own.output, j.access.own.resources.terminal with
  | .kept w, _ => w
  | .terminal, some t => (j.access.host.terminal t).output
  | _, _ => {}

/-- The writing of the report of a failure in a session. -/
def emission : Emission where
  reporter := c.reporter
  failure := f
  output := j.reportOutput
  target := j.dumpTarget
  version := Namespace.version
  clock := j.machine.heap.clock
  disk := j.access.host.disk

/-- A session keeps what is kept of the report, and the files are what the writing has left. -/
theorem report_eq :
    (j.report c f).1 = (j.emission c f).record ((j.emission c f).emitted j.access.host.files) ∧
      (j.report c f).2.access.host.files = ((j.emission c f).emitted j.access.host.files).files := by
  refine ⟨rfl, ?_⟩
  simp only [report, onAccess, access]
  generalize hx : c.reporter.emit f _ j.dumpTarget Namespace.version _ _ _ = x
  have hemitted : (j.emission c f).emitted j.machine.host.host.files = x := hx
  rw [hemitted]
  split <;> rfl

/-- **The record and the files.**  What a session keeps of a failure has the kind and the lines of its report.  Either no file
has come about, and none is named; or one file has come about, for the dump of the report, which was due.  The file holds the
first bytes of the dump, and all of it if the disk takes it; and it is named exactly if the disk takes the dump and the output
takes the notice. -/
theorem recorded_iff :
    (j.report c f).1.kind = f.kind ∧ (j.report c f).1.lines = f.classify.lines ∧
      (j.access.host.files.SameFiles (j.report c f).2.access.host.files ∧ (j.report c f).1.dump = none ∨
        ∃ target n k, (j.emission c f).Due target ∧
          j.access.host.files.Makes (j.report c f).2.access.host.files ((j.emission c f).path target n)
            ((j.emission c f).dumpContent.extract 0 k) ∧
          (j.access.host.disk.Takes (j.emission c f).dumpContent.size → k = (j.emission c f).dumpContent.size) ∧
          ((j.report c f).1.dump = some ((j.emission c f).path target n) ∨ (j.report c f).1.dump = none) ∧
          ((j.report c f).1.dump = some ((j.emission c f).path target n) ↔
            j.access.host.disk.Takes (j.emission c f).dumpContent.size ∧
              j.reportOutput.Takes ((j.emission c f).noticeSize target n))) := by
  obtain ⟨hrecord, hfiles⟩ := j.report_eq c f
  have hleft := (j.emission c f).left_emitted j.access.host.files
  obtain ⟨k, hkept, hall⟩ := (j.emission c f).exists_kept
  have hdisk : (j.emission c f).Fits ↔ j.access.host.disk.Takes (j.emission c f).dumpContent.size := Iff.rfl
  rw [hrecord, hfiles]
  generalize (j.emission c f).emitted j.access.host.files = x at hleft
  cases hleft with
  | undumped hsame hplain =>
    rw [hplain]
    exact ⟨rfl, rfl, .inl ⟨hsame, rfl⟩⟩
  | @cut target n t' x hdue hfits hmakes =>
    rw [hkept] at hmakes
    exact ⟨rfl, rfl, .inr ⟨target, n, k, hdue, hmakes, hall, .inr rfl, nofun, fun h => absurd (hdisk.mpr h.1) hfits⟩⟩
  | @dumped target n t' hdue hfits hmakes =>
    have htakes : ((j.emission c f).reporter.writeFlushed (j.emission c f).output
        (Reporter.dumpNotice target ((j.emission c f).name n))).1 = none ↔
          j.reportOutput.Takes ((j.emission c f).noticeSize target n) := Reporter.writeFlushed_fst_iff ..
    rw [hkept] at hmakes
    rw [Emission.emittedWith_files]
    rcases (j.emission c f).record_emittedWith ((j.emission c f).dumpedReport target n)
      (Reporter.dumpNotice target ((j.emission c f).name n)) t' with ⟨htold, hrecorded⟩ | ⟨htold, hrecorded⟩ <;>
      rw [hrecorded]
    · exact ⟨rfl, rfl, .inr ⟨target, n, k, hdue, hmakes, hall, .inl rfl,
        fun _ => ⟨hdisk.mp hfits, htakes.mp htold⟩, fun _ => rfl⟩⟩
    · exact ⟨rfl, rfl, .inr ⟨target, n, k, hdue, hmakes, hall, .inr rfl, nofun,
        fun h => absurd (htakes.mpr h.2) htold⟩⟩

/-! ### A dump that is not recorded -/

/-- A session on a terminal whose output takes nothing. -/
def muted : Job where
  id := 0
  terminal := some 0
  machine := Script.Machine.create ⟨{ terminals := #[{}] }, {
    resources := { id := 0, terminal := some 0 }, input := .terminal, output := .kept { room := some 0 } }⟩ #[] fun _ => false

/-- Every report on a running program is dumped. -/
def dumpAll : Config := { reporter := { lineLimit := 0, dumpName := "p" } }

/-- The writing of its report on a program that failed. -/
def mutedEmission : Emission := muted.emission dumpAll (.runtime (.runtime "x"))

theorem mutedEmission_due : mutedEmission.due = some Desk.plainTarget := by
  have hdir : muted.access.host.resolveDir (muted.access.host.terminal 0).dir = "" := by decide +kernel
  have htarget : muted.dumpTarget = some Desk.plainTarget := by
    show some (DumpTarget.mk _ _) = _
    rw [hdir]
    rfl
  exact (mutedEmission.due_eq_some_iff _).mpr ⟨rfl, Nat.succ_pos _, htarget⟩

theorem mutedEmission_path : mutedEmission.path Desk.plainTarget 0 = "p0" := by
  show Path.join "" ("p" ++ toString 0) = "p0"
  decide +kernel

/-- The dump is there, and the record does not name it: the output has no room for the notice. -/
theorem dump_unrecorded :
    muted.access.host.files.Makes (muted.report dumpAll (.runtime (.runtime "x"))).2.access.host.files "p0"
        mutedEmission.dumpContent ∧
      (muted.report dumpAll (.runtime (.runtime "x"))).1.dump = none := by
  have hdirs : ({} : Tree).createDirs Desk.plainTarget.dir = .ok {} := Desk.createDirs_plainTarget {}
  have hleads : ({} : Tree).LeadsTo (mutedEmission.path Desk.plainTarget 0) "p0" := by
    rw [mutedEmission_path]
    exact Tree.leadsTo_name {} (by decide) (by decide +kernel) (by decide +kernel)
  have hfree : ({} : Tree).node? "p0" = none := Tree.node?_empty (by decide)
  have hfits : mutedEmission.Fits := ⟨nofun, rfl⟩
  have hemitted := Emission.emitted_of_free mutedEmission_due hfits hdirs hleads hfree
  have hmakes := Tree.makes_insert hdirs hleads hfree mutedEmission.dumpContent
  obtain ⟨hrecord, hfiles⟩ := muted.report_eq dumpAll (.runtime (.runtime "x"))
  have hfiles' : (muted.report dumpAll (.runtime (.runtime "x"))).2.access.host.files
      = ({} : Tree).insert "p0" (.file mutedEmission.dumpContent) := by
    refine hfiles.trans ?_
    show (mutedEmission.emitted {}).files = _
    rw [hemitted, Emission.emittedWith_files]
  have hfull : ¬ mutedEmission.output.Takes (mutedEmission.noticeSize Desk.plainTarget 0) :=
    fun h => absurd (h.room 0 rfl) (by decide +kernel)
  refine ⟨?_, ?_⟩
  · rw [mutedEmission_path] at hmakes
    rw [hfiles']
    exact hmakes
  · have hdump : (mutedEmission.record (mutedEmission.emitted {})).dump = none := by
      rw [hemitted]
      rcases mutedEmission.record_emittedWith (mutedEmission.dumpedReport Desk.plainTarget 0) _
        (({} : Tree).insert "p0" (.file mutedEmission.dumpContent)) with ⟨htold, -⟩ | ⟨-, hkept⟩
      · exact absurd ((Reporter.writeFlushed_fst_iff ..).mp htold) hfull
      · rw [hkept]
        rfl
    exact (congrArg Report.dump hrecord).trans hdump

end Job

end ScriptHost

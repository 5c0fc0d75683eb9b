import ScriptHost.Proofs.Files.Spots
import ScriptHost.Proofs.Report.Recorded

/-!
# Where reports are dumped

The directory of a terminal is a path, and it is taken to begin at the root of the host.  Only the slashes at its start are
taken away: two dots in it lead up, and they may lead out of the root, as they do elsewhere.  The reports of a session are
dumped to the directory of its terminal.

* `Host.way` — which way the directory of a terminal leads from the root, and **`Host.resolveDir_within_iff`**, when that
  stays within the root;
* **`Host.within_all_iff`** — the ways that stay within every root are those that never lead up;
* **`Emission.changed_emitted`** — what the writing of a report can change in the files;
* **`Job.dump_whereabouts`** — where that is, seen from the root of the host;
* `Job.dump_outside_root` — a dump outside the root.
-/

namespace ScriptHost

/-! ### The directories of terminals -/

namespace Host

variable (h : Host) (dir : String)

/-- Which way the directory of a terminal leads from the root of the host. -/
def way (dir : String) : Spot := Path.spot (Text.trimStartChar dir '/')

/-- The path for the directory of a terminal has further parts than the root, and these lead its way. -/
theorem exists_components_resolveDir : ∃ more, Path.components (h.resolveDir dir) = Path.components h.root ++ more ∧
    .root ∉ more ∧ Spot.follow {} more = way dir := by
  rw [way]
  simp only [resolveDir]
  by_cases hempty : Text.trimStartChar dir '/' = ""
  · rw [if_pos hempty, hempty]
    exact ⟨[], (List.append_nil _).symm, List.not_mem_nil, rfl⟩
  · obtain ⟨more, hcomponents, hroot, hmore⟩ := Path.exists_components_join h.root (Path.isAbsolute_trimStartChar dir)
    rw [if_neg hempty]
    exact ⟨more, hcomponents, hroot, hmore {}⟩

theorem spot_resolveDir :
    Path.spot (h.resolveDir dir) = ((Path.spot h.root).climb (way dir).up).descend (way dir).names := by
  obtain ⟨more, hcomponents, hroot, hmore⟩ := h.exists_components_resolveDir dir
  rw [Path.spot, hcomponents, Spot.follow_append, (Spot.follow_eq _ hroot).1, hmore]
  rfl

/-- **The directory of a terminal is within the root** exactly if its way comes back to the root wherever it leaves it. -/
theorem resolveDir_within_iff :
    (Path.spot (h.resolveDir dir)).Within (Path.spot h.root) ↔ (way dir).ReturnsTo (Path.spot h.root) := by
  rw [spot_resolveDir, Spot.within_iff_returnsTo]

/-- A way may leave the root and come back to it. -/
example : (way "/../srv/x").ReturnsTo (Path.spot "srv") ∧ ¬ (way "/../x").ReturnsTo (Path.spot "srv") := by
  decide +kernel

/-- **Within every root** stay only the ways that never lead up. -/
theorem within_all_iff :
    (∀ h : Host, (Path.spot (h.resolveDir dir)).Within (Path.spot h.root)) ↔ (way dir).up = 0 := by
  constructor
  · intro hall
    have hempty := (resolveDir_within_iff { root := "" } dir).mp (hall { root := "" })
    rcases hempty.1 with hroot | hup
    · cases hroot
    · exact Nat.le_zero.mp hup
  · exact fun hup h => (h.resolveDir_within_iff dir).mpr (Spot.returnsTo_of_up_eq_zero _ hup)

end Host

/-! ### What the writing of a report changes -/

namespace Emission

variable (e : Emission)

/-- A dump has a name for a file, if there is no slash before its number. -/
theorem isName_name (hslash : '/' ∉ e.reporter.dumpName.toList) (n : Nat) : Path.IsName (e.name n) := by
  have hchars : (e.name n).toList = e.reporter.dumpName.toList ++ Nat.toDigits 10 n := by
    rw [name, String.toList_append, Nat.toString_eq_repr, Nat.toList_repr]
  have hdigits : ∀ d ∈ Nat.toDigits 10 n, d.isDigit = true :=
    fun d => Nat.isDigit_of_mem_toDigits (by decide) (by decide)
  obtain ⟨d, hd⟩ := List.exists_mem_of_ne_nil _ (Nat.toDigits_ne_nil (n := n) (b := 10))
  -- a text without digits is not the name
  have hne : ∀ s : String, (s.toList.all fun c => !c.isDigit) = true → e.name n ≠ s := by
    rintro s hs rfl
    rw [hchars] at hs
    have hnot := List.all_eq_true.mp hs d (List.mem_append_right _ hd)
    rw [hdigits d hd] at hnot
    cases hnot
  refine ⟨hne "" (by decide), hne "." (by decide), hne ".." (by decide), ?_⟩
  rw [hchars, List.mem_append, not_or]
  exact ⟨hslash, fun hmem => absurd (hdigits _ hmem) (by decide)⟩

/-- A dump is in the directory of its target. -/
theorem spot_path (hslash : '/' ∉ e.reporter.dumpName.toList) (target : DumpTarget) (n : Nat) :
    Path.spot (e.path target n) = (Path.spot target.dir).descend [e.name n] := by
  have hname := e.isName_name hslash n
  rw [path, Path.spot_join (Path.isAbsolute_of_name hname), Path.components_of_name hname]
  rfl

/-- **What the writing of a report changes**: directories come about on the way to where the report is due, and the file to
which the path of a dump leads. -/
theorem changed_emitted {t : Tree} {place : String} (hnew : (e.emitted t).files.node? place ≠ t.node? place) :
    ∃ target, e.due = some target ∧
      ((e.emitted t).files.node? place = some .dir ∧ Tree.OnTheWay target.dir place ∨
        (e.emitted t).files.node? place = some (.file e.kept) ∧
          ∃ n, (e.emitted t).files.LeadsTo (e.path target n) place) := by
  cases hdue : e.due with
  | none =>
    rw [e.emitted_of_not_due t hdue, emittedWith_files] at hnew
    exact absurd rfl hnew
  | some target =>
    refine ⟨target, rfl, ?_⟩
    rw [e.emitted_of_due hdue] at hnew ⊢
    cases hdirs : t.createDirs target.dir with
    | error x =>
      rw [hdirs] at hnew
      exact absurd rfl hnew
    | ok u =>
      have hdir := fun h => Tree.createDirs_places (q := place) hdirs h
      have hsearched : Searched e e.kept u target 0 _ := searched _ (Nat.zero_add _)
      simp only [hdirs] at hnew ⊢
      generalize e.reporter.dumpFrom target.dir e.kept u Reporter.maxDumps 0 = found at hsearched hnew ⊢
      cases hsearched with
      | ended _ => exact .inl (hdir hnew)
      | @found n q hleads hfree _ =>
        simp only [dumpedWith_files] at hnew ⊢
        by_cases hplace : place = q
        · have hnot : u.node? q ≠ some .dir := by
            rw [hfree]
            nofun
          rw [hplace]
          exact .inr ⟨Tree.node?_insert_self hnot _, n, hleads.later (Tree.Grows.insert hfree _).keeps⟩
        · rw [Tree.node?_insert_of_ne _ hplace] at hnew ⊢
          exact .inl (hdir hnew)

end Emission

/-! ### Where that is -/

namespace Job

variable (j : Job) (c : Config) (f : Failure)

/-- **Where a session's reports are dumped.**  The directory of its terminal, and so a dump in it, is within the root of the
host exactly if the way there comes back to the root wherever it leaves it.  What the report of a failure changes in the files
are directories on the way and the dump, or as much of it as the disk takes.  If the way never leads up, all of these are within the root, or are directories on
the way to the root itself. -/
theorem dump_whereabouts {target : DumpTarget} (htarget : j.dumpTarget = some target)
    (hslash : '/' ∉ c.reporter.dumpName.toList) :
    target.dir = j.access.host.resolveDir target.display ∧
    ((Path.spot target.dir).Within (Path.spot j.access.host.root) ↔
      (Host.way target.display).ReturnsTo (Path.spot j.access.host.root)) ∧
    (∀ n, (Path.spot ((j.emission c f).path target n)).Within (Path.spot j.access.host.root) ↔
      ((Host.way target.display).descend [(j.emission c f).name n]).ReturnsTo (Path.spot j.access.host.root)) ∧
    ∀ place, (j.report c f).2.access.host.files.node? place ≠ j.access.host.files.node? place →
      ((j.report c f).2.access.host.files.node? place = some .dir ∧ Tree.OnTheWay target.dir place ∨
        (∃ k, (j.report c f).2.access.host.files.node? place = some (.file ((j.emission c f).dumpContent.extract 0 k)) ∧
            (j.access.host.disk.Takes (j.emission c f).dumpContent.size → k = (j.emission c f).dumpContent.size)) ∧
          ∃ n, (j.report c f).2.access.host.files.LeadsTo ((j.emission c f).path target n) place) ∧
      ((Host.way target.display).up = 0 → (Path.spot j.access.host.root).up = 0 →
        Tree.OnTheWay j.access.host.root place ∨ Tree.AtOrBelow (Path.spot j.access.host.root).place place) := by
  have hdir : target.dir = j.access.host.resolveDir target.display := by
    obtain ⟨t, -, hmade⟩ := Option.map_eq_some_iff.mp htarget
    rw [← hmade]
  have hdump : ∀ n, (Path.spot ((j.emission c f).path target n)).Within (Path.spot j.access.host.root) ↔
      ((Host.way target.display).descend [(j.emission c f).name n]).ReturnsTo (Path.spot j.access.host.root) := by
    intro n
    rw [(j.emission c f).spot_path hslash, hdir, Host.spot_resolveDir, Spot.descend_descend, ← Spot.within_iff_returnsTo,
      Spot.up_descend, Spot.names_descend]
  refine ⟨hdir, hdir ▸ j.access.host.resolveDir_within_iff target.display, hdump, ?_⟩
  intro place hnew
  rw [(j.report_eq c f).2] at hnew ⊢
  obtain ⟨target', hdue, hchanged⟩ := (j.emission c f).changed_emitted hnew
  obtain ⟨-, -, htarget'⟩ := ((j.emission c f).due_eq_some_iff target').mp hdue
  have hsame : j.dumpTarget = some target' := htarget'
  rw [htarget] at hsame
  cases hsame
  refine ⟨?_, fun hway hroot => ?_⟩
  · obtain ⟨k, hkept, hall⟩ := (j.emission c f).exists_kept
    rw [hkept] at hchanged
    exact hchanged.imp_right fun ⟨hfile, hleads⟩ => ⟨⟨k, hfile, hall⟩, hleads⟩
  rcases hchanged with ⟨-, first, hfirst, rfl⟩ | ⟨-, n, hleads⟩
  · obtain ⟨more, hcomponents, hmore, hfollow⟩ := j.access.host.exists_components_resolveDir target.display
    have hnames : ∀ n, .name n ∈ first → Path.IsName n := fun n hn => Path.isName_of_mem_components (hfirst.subset hn)
    rw [hdir, hcomponents] at hfirst
    rcases List.prefix_or_prefix_of_prefix hfirst (List.prefix_append _ more) with hshort | ⟨cs, rfl⟩
    · exact .inl ⟨first, hshort, rfl⟩
    · right
      refine Spot.atOrBelow_of_within hroot hnames ?_
      rw [Spot.follow_append]
      exact Spot.within_follow _ ((List.prefix_append_right_inj _).mp hfirst) hmore (hfollow ▸ hway)
  · right
    rw [hleads.eq_goes]
    refine Spot.atOrBelow_of_within hroot (fun _ => Path.isName_of_mem_components) ((hdump n).mpr ?_)
    refine Spot.returnsTo_of_up_eq_zero _ ?_
    rw [Spot.up_descend, hway]

/-- A session on a terminal with this directory, and the root of its host is the directory `root`. -/
def stationed (dir : String) : Job where
  id := 0
  terminal := some 0
  machine := Script.Machine.create ⟨{ root := "root", terminals := #[{ dir }] }, {
    resources := { id := 0, terminal := some 0 }, input := .terminal, output := .terminal }⟩ #[] fun _ => false

theorem dump_whereabouts_home :
    (stationed "/home").dumpTarget = some ⟨"root/home", "/home"⟩ ∧ '/' ∉ dumpAll.reporter.dumpName.toList ∧
      (Path.spot "root/home").Within (Path.spot "root") ∧
      ∀ f place, ((stationed "/home").report dumpAll f).2.access.host.files.node? place
          ≠ (stationed "/home").access.host.files.node? place →
        Tree.OnTheWay "root" place ∨ Tree.AtOrBelow "root" place := by
  have hdir : (stationed "/home").access.host.resolveDir "/home" = "root/home" := by decide +kernel
  have htarget : (stationed "/home").dumpTarget = some ⟨"root/home", "/home"⟩ := by
    rw [← hdir]
    rfl
  have hslash : '/' ∉ dumpAll.reporter.dumpName.toList := by decide
  have hway : (Host.way "/home").up = 0 := by decide +kernel
  have hroot : (Path.spot "root").up = 0 := by decide +kernel
  have hplace : (Path.spot "root").place = "root" := by decide +kernel
  refine ⟨htarget, hslash, ?_, fun f place hnew => ?_⟩
  · have hwithin := (dump_whereabouts (stationed "/home") dumpAll (.runtime (.runtime "x")) htarget hslash).2.1
    exact hwithin.mpr (Spot.returnsTo_of_up_eq_zero _ hway)
  · have hchanged := (dump_whereabouts (stationed "/home") dumpAll f htarget hslash).2.2.2 place hnew
    rcases hchanged.2 hway hroot with hway | hbelow
    · exact .inl hway
    · right
      rw [← hplace]
      exact hbelow

/-- The writing of the report on a program that failed, where the directory of the terminal leads up. -/
def outside : Emission := (stationed "/..").emission dumpAll (.runtime (.runtime "x"))

/-- The directory of a terminal may be outside the root, and then the dump comes about there. -/
theorem dump_outside_root :
    ¬ (Path.spot ((stationed "/..").access.host.resolveDir "/..")).Within (Path.spot (stationed "/..").access.host.root) ∧
      (stationed "/..").access.host.files.node? "p0" = none ∧
      ((stationed "/..").report dumpAll (.runtime (.runtime "x"))).2.access.host.files.node? "p0"
        = some (.file outside.dumpContent) ∧
      ¬ (Path.spot "p0").Within (Path.spot (stationed "/..").access.host.root) := by
  have hdir : (stationed "/..").access.host.resolveDir "/.." = "root/.." := by decide +kernel
  have hdue : outside.due = some ⟨"root/..", "/.."⟩ := by
    have htarget : (stationed "/..").dumpTarget = some ⟨"root/..", "/.."⟩ := by
      rw [← hdir]
      rfl
    exact (outside.due_eq_some_iff _).mpr ⟨rfl, Nat.succ_pos _, htarget⟩
  have hempty : ∀ place, ¬ (place = "" ∨ place = "/") → ({} : Tree).node? place = none := fun _ => Tree.node?_empty
  have hbelow : Tree.below "" "root" = "root" := rfl
  have hdirs : ({} : Tree).createDirs "root/.." = .ok (({} : Tree).insert "root" .dir) := by
    have hcomponents : Path.components "root/.." = [.name "root", .parent] := by decide +kernel
    rw [Tree.createDirs, hcomponents, Tree.createFrom, hbelow, hempty "root" (by decide)]
    rfl
  have hroot : (({} : Tree).insert "root" .dir).node? (Tree.below "" "root") = some .dir :=
    Tree.node?_insert_self (fun h => (by rw [hempty "root" (by decide)] at h; cases h)) _
  have hfree : (({} : Tree).insert "root" .dir).node? "p0" = none := by
    rw [Tree.node?_insert_of_ne _ (by decide), hempty "p0" (by decide)]
  have hleads : (({} : Tree).insert "root" .dir).LeadsTo (outside.path ⟨"root/..", "/.."⟩ 0) "p0" := by
    have hpath : outside.path ⟨"root/..", "/.."⟩ 0 = "root/../p0" := by
      show Path.join "root/.." ("p" ++ toString 0) = "root/../p0"
      decide +kernel
    have hname : Path.IsName "root" := ⟨by decide, by decide, by decide, by decide⟩
    have hcomponents : Path.components "root/../p0" = .name "root" :: .parent :: Path.components "p0" := by decide +kernel
    have hdir : Tree.meansDir "root/../p0" = Tree.meansDir "p0" := by decide +kernel
    have hshort : (({} : Tree).insert "root" .dir).LeadsTo "p0" "p0" :=
      Tree.leadsTo_name _ (by decide) (by decide +kernel) (by decide +kernel)
    rw [Tree.LeadsTo, Tree.locate, if_neg (by decide)] at hshort
    rw [hpath, Tree.LeadsTo, Tree.locate, if_neg (by decide), hcomponents, hdir,
      Tree.walk_down_up hname (Tree.node?_root _ (.inl rfl)) hroot, hshort]
  refine ⟨by decide +kernel, hempty "p0" (by decide), ?_, by decide +kernel⟩
  rw [(report_eq ..).2]
  show (outside.emitted {}).files.node? "p0" = _
  rw [Emission.emitted_of_free hdue ⟨fun _ h => absurd h.symm (Option.some_ne_none _), rfl⟩ hdirs hleads hfree, Emission.emittedWith_files]
  exact Tree.node?_insert_self (fun h => (by rw [hfree] at h; cases h)) _

end Job

end ScriptHost

import ScriptHost.Proofs.Files.Lookup
import ScriptHost.Proofs.Settings.Members
import ScriptHost.Proofs.Text.Lines

/-!
# Settings survive

Settings that are saved and loaded again are the same, also if somebody has written comments between the lines.

* `Settings.printedLines`, **`lines_print`** — the lines of the text, none of which is a comment;
* `Commented` — lines with comments before, between and after them;
* **`filter_lines_join`** — what is left of them without the comments;
* **`settings_survive`** — what is parsed or loaded is what was printed or saved.
-/

namespace ScriptHost

namespace Text

/-- A line that can be told from its neighbours and is not a comment. -/
structure IsPlainLine (l : String) : Prop where
  printable : ∀ c, c ∈ l.toList → 32 ≤ c.toNat
  begins : ∃ c rest, l.toList.dropWhile isBlank = c :: rest ∧ c ≠ '/'

namespace IsPlainLine

variable {l : String} (h : IsPlainLine l)
include h

theorem newline_not_mem : '\n' ∉ l.toList := fun hmem => absurd (h.printable '\n' hmem) (by decide)

theorem ne_empty : l ≠ "" := by
  intro hempty
  obtain ⟨c, rest, hdrop, -⟩ := h.begins
  rw [hempty] at hdrop
  cases hdrop

theorem bare_eq : bare l = l := by
  refine bare_eq_self ?_
  intro hlast
  exact absurd (h.printable '\r' (List.mem_of_getLast? hlast)) (by decide)

theorem not_isComment : Settings.isComment l = false := by
  obtain ⟨c, rest, hdrop, hc⟩ := h.begins
  rw [Settings.isComment, String.startsWith_string_eq_false_iff, toList_trim]
  intro hbeginning
  obtain ⟨tail, htail⟩ := hbeginning.trans (trimmed_isBeginning l.toList)
  rw [hdrop] at htail
  exact hc (List.cons.inj htail).1.symm

end IsPlainLine

end Text

namespace Settings

open Text

/-! ### The lines that are printed -/

theorem printable_of_all {cs : List Char} (h : cs.all (fun c => decide (32 ≤ c.toNat)) = true) : ∀ c, c ∈ cs → 32 ≤ c.toNat :=
  fun c hc => of_decide_eq_true (List.all_eq_true.mp h c hc)

theorem printable_hexChar : ∀ k, k < 16 → 32 ≤ (Json.hexChar k).toNat := by decide

/-- A character as it is written takes no control characters. -/
theorem printable_quotedChar (d : Char) : ∀ c, c ∈ Json.quotedChar d → 32 ≤ c.toNat := by
  rw [Json.quotedChar]
  iterate 7
    split
    case isTrue => exact printable_of_all rfl
  split
  case isTrue h =>
    intro c hc
    have hhigh := printable_hexChar (d.toNat / 16) (by omega)
    have hlow := printable_hexChar (d.toNat % 16) (by omega)
    simp only [List.mem_cons, List.not_mem_nil, or_false] at hc
    rcases hc with rfl | rfl | rfl | rfl | rfl | rfl
    · decide
    · decide
    · decide
    · decide
    · exact hhigh
    · exact hlow
  case isFalse h =>
    intro c hc
    rw [List.mem_singleton.mp hc]
    exact Nat.not_lt.mp h

theorem printable_quoted (v : String) : ∀ c, c ∈ (Json.quoted v).toList → 32 ≤ c.toNat := by
  intro c hc
  rw [toList_quoted, List.mem_cons, List.mem_append, List.mem_singleton] at hc
  rcases hc with rfl | hc | rfl
  · decide
  · obtain ⟨d, -, hd⟩ := List.mem_flatMap.mp hc
    exact printable_quotedChar d c hd
  · decide

theorem printable_toString (n : Nat) : ∀ c, c ∈ (toString n).toList → 32 ≤ c.toNat := by
  intro c hc
  have hwritten : (toString n).toList = Nat.toDigits 10 n := Nat.toList_repr
  rw [hwritten] at hc
  have hdigit := Json.toNat_digit (Nat.isDigit_of_mem_toDigits (by decide) (by decide) hc)
  omega

theorem printable_printValue {s : Settings} {k : Key} {v : String} (hv : s.printValue k = some v) :
    ∀ c, c ∈ v.toList → 32 ≤ c.toNat := by
  cases k with
  | pollInterval =>
    cases hv
    exact printable_toString s.pollInterval
  | hookInterval =>
    cases hv
    exact printable_toString s.hookInterval
  | lineLimit =>
    cases hv
    exact printable_toString s.lineLimit
  | dumpName =>
    cases hv
    exact printable_quoted s.dumpName
  | color =>
    cases hv
    cases s.color <;> exact printable_of_all rfl
  | debug =>
    cases hv
    cases s.debug <;> exact printable_of_all rfl
  | dataDir =>
    obtain ⟨dir, -, rfl⟩ := Option.map_eq_some_iff.mp hv
    exact printable_quoted dir

theorem isPlainLine_member {s : Settings} {m : Key × String} (hm : s.printValue m.1 = some m.2) (tail : String)
    (htail : ∀ c, c ∈ tail.toList → 32 ≤ c.toNat) : IsPlainLine (member m ++ tail) where
  printable := by
    intro c hc
    simp only [member, String.toList_append, List.mem_append] at hc
    rcases hc with ((((hc | hc) | hc) | hc) | hc)
    · exact printable_of_all (by decide) c hc
    · exact printable_quoted _ c hc
    · exact printable_of_all (by decide) c hc
    · exact printable_printValue hm c hc
    · exact htail c hc
  begins := by
    have hchars : (member m ++ tail).toList = ' ' :: ' ' :: '"' :: (m.1.name.toList.flatMap Json.quotedChar ++ ['"'] ++
        (": ".toList ++ m.2.toList ++ tail.toList)) := by
      simp only [member, String.toList_append, toList_quoted, List.append_assoc, List.cons_append]
      rfl
    rw [hchars]
    exact ⟨'"', _, rfl, by decide⟩

/-- The lines of the text that is printed. -/
def printedLines (s : Settings) : List String := "\x7b" :: (withCommas (s.written.map member) ++ ["\x7d"])

theorem isPlainLine_brace : IsPlainLine "\x7b" where
  printable := printable_of_all (by decide)
  begins := ⟨_, _, rfl, by decide⟩

theorem isPlainLine_closing : IsPlainLine "\x7d" where
  printable := printable_of_all (by decide)
  begins := ⟨_, _, rfl, by decide⟩

theorem isPlainLine_withCommas {s : Settings} {ms : List (Key × String)} (hms : ∀ m, m ∈ ms → s.printValue m.1 = some m.2) :
    ∀ l, l ∈ withCommas (ms.map member) → IsPlainLine l := by
  induction ms with
  | nil => nofun
  | cons m rest ih =>
    have hm := hms m List.mem_cons_self
    have hrest := ih fun n hn => hms n (List.mem_cons_of_mem m hn)
    cases rest with
    | nil =>
      intro l hl
      have hline := isPlainLine_member hm "" (printable_of_all rfl)
      rw [String.append_empty] at hline
      rw [List.mem_singleton.mp hl]
      exact hline
    | cons n rest =>
      intro l hl
      rcases List.mem_cons.mp hl with rfl | hl
      · exact isPlainLine_member hm "," (printable_of_all rfl)
      · exact hrest l hl

theorem isPlainLine_printedLines (s : Settings) : ∀ l, l ∈ s.printedLines → IsPlainLine l := by
  intro l hl
  rcases List.mem_cons.mp hl with rfl | hl
  · exact isPlainLine_brace
  · rcases List.mem_append.mp hl with hl | hl
    · exact isPlainLine_withCommas (fun m => printValue_of_mem_written) l hl
    · rw [List.mem_singleton.mp hl]
      exact isPlainLine_closing

theorem print_eq_join (s : Settings) : s.print = join "\n" s.printedLines := by
  have hne : withCommas (s.written.map member) ≠ [] := by
    rw [written_eq]
    exact withCommas_ne_nil _ _
  have hinner := join_append_singleton "\n" hne "\x7d"
  rw [print_eq, join_withCommas, printedLines]
  cases hlines : withCommas (s.written.map member) ++ ["\x7d"] with
  | nil => exact absurd hlines (by simp)
  | cons l rest =>
    rw [join_cons_cons, ← hlines, hinner]
    simp only [String.append_assoc]
    rfl

/-- **The lines** of the text that is printed. -/
theorem lines_print (s : Settings) : lines s.print = s.printedLines := by
  have hplain := isPlainLine_printedLines s
  rw [print_eq_join]
  exact lines_join (fun l hl => (hplain l hl).newline_not_mem) (fun l hl => (hplain l hl).bare_eq)
    (fun l hl => (hplain l hl).ne_empty)

/-! ### Comments -/

/-- Lines with comments before, between and after them. -/
inductive Commented : List String → List String → Prop
  | nil : Commented [] []
  | keep {ls ls' : List String} (l : String) (h : Commented ls ls') : Commented (l :: ls) (l :: ls')
  | comment {ls ls' : List String} {l : String} (hl : isComment l = true) (hline : '\n' ∉ l.toList)
      (h : Commented ls ls') : Commented ls (l :: ls')

/-- A line that is kept. -/
def isKept (l : String) : Bool := !isComment l

theorem isComment_bare (l : String) : isComment (bare l) = isComment l := by
  rw [isComment, isComment, trim_bare]

theorem not_isComment_empty : isComment "" = false := by decide +kernel

/-- What may stand at the end of the last line. -/
def MayEnd (ls : List String) (tail : String) : Prop := tail = "" ∨ tail = "\n" ∧ ls ≠ []

/-- The first of some lines, perhaps without a carriage return, and the others. -/
theorem lines_join_cons {l : String} (hline : '\n' ∉ l.toList) (hl : l ≠ "") {ls : List String} {tail : String}
    (htail : MayEnd (l :: ls) tail) : ∃ l' tail', (l' = l ∨ l' = bare l) ∧ MayEnd ls tail' ∧
      lines (join "\n" (l :: ls) ++ tail) = l' :: lines (join "\n" ls ++ tail') := by
  cases ls with
  | nil =>
    rcases htail with rfl | ⟨rfl, -⟩
    · refine ⟨l, "", .inl rfl, .inl rfl, ?_⟩
      show lines (l ++ "") = l :: lines ("" ++ "")
      rw [String.append_empty, lines_single hline hl]
      rfl
    · refine ⟨bare l, "", .inr rfl, .inl rfl, ?_⟩
      have hlines := lines_cons hline ""
      rwa [String.append_empty] at hlines
  | cons m rest =>
    refine ⟨bare l, tail, .inr rfl, htail.imp_right fun h => ⟨h.1, List.cons_ne_nil m rest⟩, ?_⟩
    rw [join_cons_cons, String.append_assoc, lines_cons hline]

/-- **Where comments are dropped**, the lines are left. -/
theorem Commented.filter_lines {ls ls' : List String} (h : Commented ls ls') (hls : ∀ l, l ∈ ls → IsPlainLine l) :
    ∀ {tail : String}, MayEnd ls' tail → (lines (join "\n" ls' ++ tail)).filter isKept = ls := by
  induction h with
  | nil =>
    intro tail htail
    rcases htail with rfl | ⟨-, hne⟩
    · rfl
    · exact absurd rfl hne
  | keep l _ ih =>
    intro tail htail
    have hplain := hls l List.mem_cons_self
    obtain ⟨l', tail', hl', htail', hlines⟩ := lines_join_cons hplain.newline_not_mem hplain.ne_empty htail
    have hsame : l' = l := hl'.elim id fun hbare => hbare.trans hplain.bare_eq
    have hkept : isKept l = true := by rw [isKept, hplain.not_isComment, Bool.not_false]
    rw [hlines, hsame, List.filter_cons_of_pos hkept, ih (fun k hk => hls k (List.mem_cons_of_mem l hk)) htail']
  | @comment _ _ l hl hline _ ih =>
    intro tail htail
    have hne : l ≠ "" := by
      intro hempty
      rw [hempty, not_isComment_empty] at hl
      cases hl
    obtain ⟨l', tail', hl', htail', hlines⟩ := lines_join_cons hline hne htail
    have hcomment : isComment l' = true := by
      rcases hl' with rfl | rfl
      · exact hl
      · rw [isComment_bare, hl]
    have hdropped : ¬ isKept l' = true := by
      rw [isKept, hcomment]
      nofun
    rw [hlines, List.filter_cons_of_neg hdropped, ih hls htail']

/-- The text without its comments is the text that was printed. -/
theorem withoutComments_eq {s : Settings} {ls : List String} (h : Commented (lines s.print) ls) {tail : String}
    (htail : MayEnd ls tail) : withoutComments (join "\n" ls ++ tail) = s.print := by
  rw [lines_print] at h
  have hfilter := h.filter_lines (isPlainLine_printedLines s) htail
  rw [withoutComments, print_eq_join, ← hfilter]
  rfl

/-- A text whose lines are those that were printed, without comments, is parsed to the settings. -/
theorem parse_of_withoutComments {s : Settings} (hs : s.InRange) {text : String} (h : withoutComments text = s.print) :
    parse text = .ok s := by
  have hread : Settings.read (Bytes.ofString s.print).toList = .ok (s, []) := by
    rw [Utf8.toList_ofString]
    exact takes_read hs
  rw [parse, h]
  simp only [hread]

theorem Commented.refl (ls : List String) : Commented ls ls := by
  induction ls with
  | nil => exact .nil
  | cons l ls ih => exact .keep l ih

/-- What is saved is written to the file. -/
theorem write_of_save {s : Settings} {t t' : Tree} {path : String} (h : s.save t path = (.ok (), t')) :
    ∃ u : Tree, u.write path (Bytes.ofString s.print) = .ok t' := by
  rw [save] at h
  split at h
  · cases h
  · rename_i u _
    cases hwrite : u.write path (Bytes.ofString s.print) with
    | error e =>
      rw [hwrite] at h
      cases h
    | ok v =>
      rw [hwrite] at h
      cases h
      exact ⟨u, hwrite⟩

/-- **Settings survive.** The text that was printed is parsed to the settings that it was printed from, also with any
comments between its lines, and what was saved to a file is loaded from it without a word. -/
theorem settings_survive {s : Settings} (hs : s.InRange) :
    (∀ ls tail, Commented (lines s.print) ls → MayEnd ls tail → parse (join "\n" ls ++ tail) = .ok s) ∧
      parse s.print = .ok s ∧
      ∀ t t' path, s.save t path = (.ok (), t') → load t' path = (s, []) := by
  have hcomments : ∀ ls tail, Commented (lines s.print) ls → MayEnd ls tail → parse (join "\n" ls ++ tail) = .ok s :=
    fun ls tail h htail => parse_of_withoutComments hs (withoutComments_eq h htail)
  have hprint : parse s.print = .ok s := by
    have hjoin := hcomments _ "" (.refl _) (.inl rfl)
    rwa [lines_print, ← print_eq_join, String.append_empty] at hjoin
  refine ⟨hcomments, hprint, ?_⟩
  intro t t' path hsave
  obtain ⟨u, hwrite⟩ := write_of_save hsave
  obtain ⟨hhas, hread⟩ := Tree.read_of_write hwrite
  have htext : t'.readText path = .ok s.print := by
    rw [Tree.readText, hread]
    simp only [Utf8.decode_ofString]
  rw [load, if_pos hhas, htext]
  simp only [hprint]

/-- Settings whose texts look like comments and ends of lines. -/
def awkward : Settings where
  pollInterval := 0xFFFFFFFFFFFFFFFF
  hookInterval := 0xFFFFFFFF
  lineLimit := 0
  dumpName := "// \"\\\n\x01"
  color := false
  debug := true
  dataDir := some "//\r\n"

/-- They can be saved where there is nothing yet. -/
theorem save_awkward : ∃ t, awkward.save {} "s.json" = (.ok (), t) := by
  have hparent : Path.parent? "s.json" = some "" := by decide +kernel
  have hcomponents : Path.components "" = [] := by decide +kernel
  have hdirs : ({} : Tree).createDirs "" = .ok {} := by
    rw [Tree.createDirs, hcomponents]
    rfl
  have hleads : ({} : Tree).LeadsTo "s.json" "s.json" :=
    Tree.leadsTo_name {} (by decide) (by decide +kernel) (by decide +kernel)
  have hfree : ({} : Tree).node? "s.json" ≠ some .dir := by
    rw [Tree.node?_empty (by decide)]
    nofun
  refine ⟨({} : Tree).insert "s.json" (.file (Bytes.ofString awkward.print)), ?_⟩
  rw [save, hparent]
  simp only [hdirs, Tree.write_of_leadsTo hleads hfree]

theorem settings_survive_awkward : awkward.InRange ∧
    parse (join "\n" ("// first" :: lines awkward.print) ++ "\n") = .ok awkward ∧
    ∃ t, awkward.save {} "s.json" = (.ok (), t) ∧ load t "s.json" = (awkward, []) := by
  have hrange : awkward.InRange := ⟨by decide, by decide, by decide⟩
  have hfirst : isComment "// first" = true := by decide +kernel
  obtain ⟨hcomments, -, hload⟩ := settings_survive hrange
  obtain ⟨t, hsave⟩ := save_awkward
  refine ⟨hrange, ?_, t, hsave, hload {} t "s.json" hsave⟩
  exact hcomments _ _ (.comment hfirst (by decide) (.refl _)) (.inr ⟨rfl, List.cons_ne_nil _ _⟩)

end Settings

end ScriptHost

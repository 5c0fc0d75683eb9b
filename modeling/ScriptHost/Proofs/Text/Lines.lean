import ScriptHost.Text.Blank

/-!
# Cutting a text at its line ends

* `Text.bare` — a line without the carriage return at its end;
* **`lines_cons`**, `lines_single` — the lines of a text that begins with a line, and of one that is a line;
* `Text.Cut`, **`cut_lines`**, `lines_of_cut` — how any text is cut into lines, and that this is the only way;
* `Text.withCommas`, `join_withCommas` — commas at the ends of lines;
* `Text.trimmed` — a list of characters without white space at either end.
-/

namespace ScriptHost.Text

/-! ### Joining -/

theorem join_cons_cons (separator s t : String) (rest : List String) :
    join separator (s :: t :: rest) = s ++ separator ++ join separator (t :: rest) := rfl

/-- Lines with a comma at the end of each but the last. -/
def withCommas : List String → List String
  | [] => []
  | [l] => [l]
  | l :: rest => (l ++ ",") :: withCommas rest

theorem withCommas_ne_nil (l : String) (rest : List String) : withCommas (l :: rest) ≠ [] := by
  cases rest <;> nofun

theorem join_withCommas (ls : List String) : join ",\n" ls = join "\n" (withCommas ls) := by
  induction ls with
  | nil => rfl
  | cons l rest ih =>
    cases rest with
    | nil => rfl
    | cons m rest =>
      have hcommas : withCommas (l :: m :: rest) = (l ++ ",") :: withCommas (m :: rest) := rfl
      rw [hcommas, join_cons_cons, ih]
      cases hrest : withCommas (m :: rest) with
      | nil => exact absurd hrest (withCommas_ne_nil m rest)
      | cons n rest' =>
        rw [join_cons_cons]
        simp only [String.append_assoc]
        rfl

theorem join_append_singleton (separator : String) {ls : List String} (h : ls ≠ []) (last : String) :
    join separator (ls ++ [last]) = join separator ls ++ separator ++ last := by
  induction ls with
  | nil => exact absurd rfl h
  | cons l rest ih =>
    cases rest with
    | nil => rfl
    | cons m rest =>
      have hrest := ih (List.cons_ne_nil m rest)
      rw [List.cons_append] at hrest
      rw [List.cons_append, List.cons_append, join_cons_cons, join_cons_cons, hrest]
      simp only [String.append_assoc]

/-! ### Lines -/

/-- A line, in reverse, without the carriage return at its end. -/
def bareReversed : List Char → List Char
  | '\r' :: line => line
  | line => line

theorem bareReversed_cons_of_ne {c : Char} (hc : c ≠ '\r') (line : List Char) :
    bareReversed (c :: line) = c :: line := by
  rw [bareReversed]
  exact fun _ h => hc (List.cons.inj h).1

/-- A line without the carriage return at its end. -/
def bare (l : String) : String := String.ofList (bareReversed l.toList.reverse).reverse

theorem linesOf_append {cs : List Char} (h : '\n' ∉ cs) (rest : List Char) : ∀ line : List Char,
    linesOf (cs ++ rest) line = linesOf rest (cs.reverse ++ line) := by
  induction cs with
  | nil =>
    intro line
    rfl
  | cons c cs ih =>
    intro line
    have hc : c ≠ '\n' := fun hc => h (hc ▸ List.mem_cons_self)
    have hcs : '\n' ∉ cs := fun hcs => h (List.mem_cons_of_mem c hcs)
    have hstep : linesOf (c :: (cs ++ rest)) line = linesOf (cs ++ rest) (c :: line) := by
      rw [linesOf]
      · exact hc
      · exact fun _ _ hc' => hc hc'
    rw [List.cons_append, hstep, ih hcs, List.reverse_cons, List.append_assoc]
    rfl

theorem linesOf_newline (rest line : List Char) :
    linesOf ('\n' :: rest) line = String.ofList (bareReversed line).reverse :: linesOf rest [] := by
  cases line with
  | nil => rfl
  | cons c line =>
    by_cases hc : c = '\r'
    · rw [hc]
      rfl
    · rw [bareReversed_cons_of_ne hc, linesOf]
      exact fun _ h => hc (List.cons.inj h).1

/-- **A text that begins with a line.** -/
theorem lines_cons {l : String} (h : '\n' ∉ l.toList) (t : String) : lines (l ++ "\n" ++ t) = bare l :: lines t := by
  have hchars : (l ++ "\n" ++ t).toList = l.toList ++ '\n' :: t.toList := by
    rw [String.toList_append, String.toList_append, List.append_assoc]
    rfl
  rw [lines, hchars, linesOf_append h, linesOf_newline, List.append_nil]
  rfl

/-- A text that is a line. -/
theorem lines_single {l : String} (h : '\n' ∉ l.toList) (hl : l ≠ "") : lines l = [l] := by
  have hreverse : l.toList.reverse ≠ [] := by
    intro hnil
    exact hl (String.toList_eq_nil_iff.mp (List.reverse_eq_nil_iff.mp hnil))
  have hend : linesOf [] l.toList.reverse = [String.ofList l.toList.reverse.reverse] := by
    rw [linesOf]
    exact hreverse
  have happend := linesOf_append h [] []
  rw [List.append_nil, List.append_nil] at happend
  rw [lines, happend, hend, List.reverse_reverse, String.ofList_toList]

/-- The lines that were joined. -/
theorem lines_join {ls : List String} (hnewline : ∀ l, l ∈ ls → '\n' ∉ l.toList) (hbare : ∀ l, l ∈ ls → bare l = l)
    (hne : ∀ l, l ∈ ls → l ≠ "") : lines (join "\n" ls) = ls := by
  induction ls with
  | nil => rfl
  | cons l rest ih =>
    have hl := hnewline l List.mem_cons_self
    cases rest with
    | nil => exact lines_single hl (hne l List.mem_cons_self)
    | cons m rest =>
      rw [join_cons_cons, lines_cons hl, hbare l List.mem_cons_self]
      exact congrArg (l :: ·) (ih (fun k hk => hnewline k (List.mem_cons_of_mem l hk))
        (fun k hk => hbare k (List.mem_cons_of_mem l hk)) (fun k hk => hne k (List.mem_cons_of_mem l hk)))

/-- A line without a carriage return at its end is bare. -/
theorem bare_eq_self {l : String} (h : l.toList.getLast? ≠ some '\r') : bare l = l := by
  have hbare : bareReversed l.toList.reverse = l.toList.reverse := by
    cases hrev : l.toList.reverse with
    | nil => rfl
    | cons c rest =>
      have hlast : l.toList.getLast? = some c := by
        rw [← List.head?_reverse, hrev]
        rfl
      exact bareReversed_cons_of_ne (fun hc => h (hlast.trans (congrArg some hc))) rest
  rw [bare, hbare, List.reverse_reverse, String.ofList_toList]

/-! ### The lines of any text -/

/-- A text and its lines.  A line ends with a line feed, which may have one carriage return before it; the last line may
end with the text, but then it is not empty. -/
inductive Cut : String → List String → Prop
  | nothing : Cut "" []
  | last {line : String} (hline : '\n' ∉ line.toList) (hne : line ≠ "") : Cut line [line]
  | feed {line rest : String} {ls : List String} (hline : '\n' ∉ line.toList)
      (hreturn : line.toList.getLast? ≠ some '\r') (hrest : Cut rest ls) : Cut (line ++ "\n" ++ rest) (line :: ls)
  | returnFeed {line rest : String} {ls : List String} (hline : '\n' ∉ line.toList) (hrest : Cut rest ls) :
      Cut (line ++ "\r\n" ++ rest) (line :: ls)

theorem append_return_feed (line rest : String) : line ++ "\r" ++ "\n" ++ rest = line ++ "\r\n" ++ rest :=
  congrArg (· ++ rest) String.append_assoc

theorem bare_append_return (l : String) : bare (l ++ "\r") = l := by
  have hrev : (l ++ "\r").toList.reverse = '\r' :: l.toList.reverse := by
    rw [String.toList_append, List.reverse_append]
    rfl
  rw [bare, hrev, bareReversed, List.reverse_reverse, String.ofList_toList]

/-- A line that is not bare has one carriage return more at its end. -/
theorem eq_bare_append_return {l : String} (h : l.toList.getLast? = some '\r') : l = bare l ++ "\r" := by
  obtain ⟨cs, hcs⟩ := List.getLast?_eq_some_iff.mp h
  have hl : l = String.ofList cs ++ "\r" := by
    rw [← String.toList_inj, String.toList_append, String.toList_ofList, hcs]
    rfl
  rw [hl, bare_append_return]

/-- A text is cut in one way only. -/
theorem lines_of_cut {s : String} {ls : List String} (h : Cut s ls) : lines s = ls := by
  induction h with
  | nothing => rfl
  | last hline hne => exact lines_single hline hne
  | feed hline hreturn _ ih => rw [lines_cons hline, bare_eq_self hreturn, ih]
  | @returnFeed line rest ls hline _ ih =>
    have hreturn : '\n' ∉ (line ++ "\r").toList := by
      rw [String.toList_append, List.mem_append, not_or]
      exact ⟨hline, by decide⟩
    rw [← append_return_feed, lines_cons hreturn, bare_append_return, ih]

/-- A line before a text that has been cut. -/
theorem Cut.cons {line rest : String} {ls : List String} (hline : '\n' ∉ line.toList) (hrest : Cut rest ls) :
    Cut (line ++ "\n" ++ rest) (bare line :: ls) := by
  by_cases hlast : line.toList.getLast? = some '\r'
  · have hl := eq_bare_append_return hlast
    have hbare : '\n' ∉ (bare line).toList := by
      intro hin
      rw [hl, String.toList_append] at hline
      exact hline (List.mem_append_left _ hin)
    have hcut := Cut.returnFeed hbare hrest
    rw [← append_return_feed, ← hl] at hcut
    exact hcut
  · rw [bare_eq_self hlast]
    exact .feed hline hlast hrest

/-- A text with a line feed begins with a line. -/
theorem exists_line {s : String} (h : '\n' ∈ s.toList) : ∃ line rest : String,
    s = line ++ "\n" ++ rest ∧ '\n' ∉ line.toList ∧ rest.length < s.length := by
  obtain ⟨before, after, hs, hbefore⟩ := List.eq_append_cons_of_mem h
  refine ⟨String.ofList before, String.ofList after, ?_, ?_, ?_⟩
  · rw [← String.toList_inj, hs]
    simp only [String.toList_append, String.toList_ofList, List.append_assoc]
    rfl
  · rw [String.toList_ofList]
    exact hbefore
  · rw [← String.length_toList, ← String.length_toList, String.toList_ofList, hs, List.length_append, List.length_cons]
    omega

/-- **The lines of a text** are what it is cut into. -/
theorem cut_lines (s : String) : Cut s (lines s) := by
  generalize hn : s.length = n
  -- the rest behind the first line feed is shorter
  induction n using Nat.strongRecOn generalizing s with
  | ind n ih =>
    by_cases hmem : '\n' ∈ s.toList
    · obtain ⟨line, rest, hs, hline, hshorter⟩ := exists_line hmem
      rw [hn] at hshorter
      rw [hs, lines_cons hline]
      exact .cons hline (ih _ hshorter _ rfl)
    · by_cases hne : s = ""
      · rw [hne]
        exact .nothing
      · rw [lines_single hmem hne]
        exact .last hmem hne

/-- No line holds a line feed. -/
theorem newline_notMem_of_mem_lines {s l : String} (hl : l ∈ lines s) : '\n' ∉ l.toList := by
  have hcut := cut_lines s
  generalize lines s = ls at hcut hl
  induction hcut with
  | nothing => cases hl
  | last hline _ =>
    obtain rfl := List.mem_singleton.mp hl
    exact hline
  | feed hline _ _ ih | returnFeed hline _ ih =>
    rcases List.mem_cons.mp hl with rfl | hl
    · exact hline
    · exact ih hl

/-- Only the empty text has no lines. -/
theorem lines_eq_nil_iff {s : String} : lines s = [] ↔ s = "" := by
  refine ⟨fun h => ?_, fun h => by rw [h]; rfl⟩
  have hcut := cut_lines s
  rw [h] at hcut
  cases hcut
  rfl

/-! ### White space -/

/-- Characters without white space at either end. -/
def trimmed (cs : List Char) : List Char := ((cs.dropWhile isBlank).reverse.dropWhile isBlank).reverse

theorem toList_trim (s : String) : (trim s).toList = trimmed s.toList := by
  rw [trim, trimEnd, trimStart, String.toList_ofList, String.toList_ofList, trimmed]

/-- What is left is a beginning of what follows the white space. -/
theorem trimmed_isBeginning (cs : List Char) : trimmed cs <+: cs.dropWhile isBlank := by
  have hsuffix := List.dropWhile_suffix (l := (cs.dropWhile isBlank).reverse) isBlank
  rw [trimmed, ← List.reverse_suffix, List.reverse_reverse]
  exact hsuffix

/-- White space at the end does not count. -/
theorem trimmed_append {c : Char} (hc : isBlank c = true) (cs : List Char) : trimmed (cs ++ [c]) = trimmed cs := by
  rw [trimmed, List.dropWhile_append]
  split
  · rename_i hempty
    rw [trimmed, List.isEmpty_iff.mp hempty, List.dropWhile_cons_of_pos hc]
    rfl
  · rw [trimmed, List.reverse_append, List.reverse_singleton, List.singleton_append, List.dropWhile_cons_of_pos hc]

/-- A line means the same with the carriage return at its end. -/
theorem trim_bare (l : String) : trim (bare l) = trim l := by
  rw [← String.toList_inj, toList_trim, toList_trim, bare, String.toList_ofList]
  cases hrev : l.toList.reverse with
  | nil =>
    rw [List.reverse_eq_nil_iff.mp hrev]
    rfl
  | cons c rest =>
    have hlist : l.toList = rest.reverse ++ [c] := by
      rw [← List.reverse_reverse l.toList, hrev, List.reverse_cons]
    by_cases hc : c = '\r'
    · have hblank : isBlank c = true := by
        rw [hc]
        decide
      have hbare : bareReversed (c :: rest) = rest := by
        rw [hc]
        rfl
      rw [hbare, hlist, trimmed_append hblank]
    · rw [bareReversed_cons_of_ne hc, hlist, List.reverse_cons]

end ScriptHost.Text

import ScriptHost.Files.Path

/-!
# The parts of a path

A path is parted at its slashes.  What the parts mean depends on where they stand: only the first one can be the root or
a dot that counts, and behind it empty parts and single dots mean nothing.

* `Path.split_eq_splitOn`, `Path.parts_slash` — a slash parts what is before it from what is behind it;
* `Path.IsName` — a text that can name something in a directory, and `Path.steps` — the parts that are not skipped;
* `Path.components_eq` — what the first part means by its position, then what the parts mean by themselves;
* **`Path.components_join`** — a path below another one has the components of both.
-/

namespace ScriptHost.Path

variable {base path s : String}

/-! ### Parting at slashes -/

theorem split_eq_splitOn (cs : List Char) : split cs = cs.splitOn '/' := by
  induction cs with
  | nil => rfl
  | cons c rest ih =>
    rw [split, List.splitOn_cons_eq_if_modifyHead, ih]
    by_cases hc : c = '/'
    · rw [if_pos hc, if_pos (beq_iff_eq.mpr hc)]
    · rw [if_neg hc, if_neg (mt beq_iff_eq.mp hc)]
      cases hrest : rest.splitOn '/' with
      | nil => exact absurd hrest (List.splitOn_ne_nil _ _)
      | cons first others => rfl

theorem parts_ne_nil (path : String) : parts path ≠ [] := by
  rw [parts, split_eq_splitOn, Ne, List.map_eq_nil_iff]
  exact List.splitOn_ne_nil _ _

/-- A slash parts a path. -/
theorem parts_slash (a b : List Char) :
    parts (String.ofList (a ++ '/' :: b)) = parts (String.ofList a) ++ parts (String.ofList b) := by
  simp only [parts, split_eq_splitOn, String.toList_ofList, List.splitOn_append_cons_self, List.map_append]

/-- No part holds a slash. -/
theorem slash_notMem_split (cs : List Char) : ∀ part ∈ split cs, '/' ∉ part := by
  induction cs with
  | nil =>
    intro part hpart
    rw [List.mem_singleton.mp hpart]
    exact List.not_mem_nil
  | cons c rest ih =>
    intro part hpart
    rw [split] at hpart
    by_cases hc : c = '/'
    · rw [if_pos hc] at hpart
      rcases List.mem_cons.mp hpart with rfl | hpart
      · exact List.not_mem_nil
      · exact ih part hpart
    · rw [if_neg hc] at hpart
      cases hrest : split rest with
      | nil =>
        rw [split_eq_splitOn] at hrest
        exact absurd hrest (List.splitOn_ne_nil _ _)
      | cons first others =>
        rw [hrest] at hpart ih
        rcases List.mem_cons.mp hpart with rfl | hpart
        · intro hmem
          rcases List.mem_cons.mp hmem with heq | hmem
          · exact hc heq.symm
          · exact ih first List.mem_cons_self hmem
        · exact ih part (List.mem_cons_of_mem _ hpart)

theorem slash_notMem_of_mem_parts (h : s ∈ parts path) : '/' ∉ s.toList := by
  obtain ⟨part, hpart, rfl⟩ := List.mem_map.mp h
  rw [String.toList_ofList]
  exact slash_notMem_split _ part hpart

/-! ### What the parts mean -/

/-- A text that can name something in a directory. -/
structure IsName (s : String) : Prop where
  ne_empty : s ≠ ""
  ne_dot : s ≠ "."
  ne_dots : s ≠ ".."
  slash_notMem : '/' ∉ s.toList

/-- The parts of a path that are not skipped: those that are not empty and not a single dot. -/
def steps (path : String) : List String := (parts path).filter fun s => s != "" && s != "."

theorem mem_steps_iff : s ∈ steps path ↔ s ∈ parts path ∧ s ≠ "" ∧ s ≠ "." := by
  rw [steps, List.mem_filter, Bool.and_eq_true, bne_iff_ne, bne_iff_ne]

/-- What the first part means by its position. -/
def lead (path : String) : List Component :=
  if isAbsolute path then [.root] else if (parts path).head? = some "." then [.current] else []

/-- What the parts mean by themselves. -/
def inner (path : String) : List Component := (parts path).filterMap component?

theorem components_eq (path : String) : components path = lead path ++ inner path := by
  rw [components, lead, inner]
  cases isAbsolute path with
  | true => rfl
  | false =>
    cases parts path with
    | nil => rfl
    | cons first others =>
      by_cases hfirst : first = "."
      · subst hfirst
        rfl
      · have hhead : ¬ (first :: others).head? = some "." := fun h => hfirst (Option.some.inj h)
        simp only [Bool.false_eq_true, if_false, if_neg hhead, List.nil_append]
        split
        · rename_i heq
          exact absurd (List.cons.inj heq).1 hfirst
        · rfl

theorem component?_of_name (h : IsName s) : component? s = some (.name s) := by
  rw [component?, if_neg, if_neg h.ne_dots]
  simp [h.ne_empty, h.ne_dot]

/-- What a part means by itself is two dots or a name. -/
theorem mem_inner_cases {c : Component} (h : c ∈ inner path) :
    c = .parent ∧ ".." ∈ parts path ∨ ∃ s ∈ parts path, IsName s ∧ c = .name s := by
  obtain ⟨s, hs, hc⟩ := List.mem_filterMap.mp h
  rw [component?] at hc
  by_cases hskip : (s = "" || s = ".") = true
  · rw [if_pos hskip] at hc
    cases hc
  · rw [if_neg hskip] at hc
    by_cases hdots : s = ".."
    · rw [if_pos hdots] at hc
      left
      exact ⟨(Option.some.inj hc).symm, hdots ▸ hs⟩
    · rw [if_neg hdots] at hc
      right
      have hname : IsName s := by
        refine ⟨?_, ?_, hdots, slash_notMem_of_mem_parts hs⟩ <;> rintro rfl <;> exact hskip (by decide)
      exact ⟨s, hs, hname, (Option.some.inj hc).symm⟩

theorem root_notMem_inner (path : String) : Component.root ∉ inner path := by
  intro h
  rcases mem_inner_cases h with ⟨heq, -⟩ | ⟨s, -, -, heq⟩ <;> cases heq

theorem isName_of_mem_inner (h : Component.name s ∈ inner path) : IsName s := by
  rcases mem_inner_cases h with ⟨heq, -⟩ | ⟨s', -, hname, heq⟩
  · cases heq
  · cases heq
    exact hname

theorem isName_of_mem_components (h : Component.name s ∈ components path) : IsName s := by
  rw [components_eq, List.mem_append] at h
  refine isName_of_mem_inner (h.resolve_left fun hlead => ?_)
  rw [lead] at hlead
  split at hlead
  · cases List.mem_singleton.mp hlead
  · split at hlead
    · cases List.mem_singleton.mp hlead
    · cases hlead

theorem parent_mem_inner_iff : Component.parent ∈ inner path ↔ ".." ∈ parts path := by
  constructor
  · intro h
    rcases mem_inner_cases h with ⟨-, hdots⟩ | ⟨s, -, -, heq⟩
    · exact hdots
    · cases heq
  · exact fun h => List.mem_filterMap.mpr ⟨"..", h, by decide⟩

theorem filterMap_component? {all : List String} (h : ".." ∉ all) :
    all.filterMap component? = (all.filter fun s => s != "" && s != ".").map .name := by
  induction all with
  | nil => rfl
  | cons first others ih =>
    rw [List.mem_cons, not_or] at h
    obtain ⟨hfirst, hothers⟩ := h
    rw [List.filterMap_cons, List.filter_cons]
    by_cases hskip : first = "" ∨ first = "."
    · have hnone : component? first = none := by
        rw [component?, if_pos (by simpa using hskip)]
      have hfalse : ¬ (first != "" && first != ".") = true := by
        rcases hskip with rfl | rfl <;> decide
      simp only [hnone, if_neg hfalse]
      exact ih hothers
    · have hname : component? first = some (.name first) := by
        rw [component?, if_neg (by simpa using hskip), if_neg (Ne.symm hfirst)]
      have htrue : (first != "" && first != ".") = true := by
        rw [not_or] at hskip
        rw [Bool.and_eq_true, bne_iff_ne, bne_iff_ne]
        exact hskip
      simp only [hname, if_pos htrue, List.map_cons]
      exact congrArg _ (ih hothers)

/-- Where no part is two dots, the parts that are not skipped are names, and nothing else is meant. -/
theorem inner_eq_names (h : ".." ∉ parts path) :
    inner path = (steps path).map .name ∧ ∀ s ∈ steps path, IsName s := by
  refine ⟨filterMap_component? h, fun s hs => ?_⟩
  obtain ⟨hpart, hempty, hdot⟩ := mem_steps_iff.mp hs
  exact ⟨hempty, hdot, fun hdots => h (hdots ▸ hpart), slash_notMem_of_mem_parts hpart⟩

/-! ### A path below another one -/

theorem isAbsolute_iff : isAbsolute path = true ↔ ['/'] <+: path.toList :=
  String.startsWith_string_iff

theorem endsWith_slash_iff : path.endsWith "/" = true ↔ ['/'] <:+ path.toList := by
  show path.toSlice.endsWith "/" = true ↔ _
  rw [String.Slice.endsWith_string_iff, String.copy_toSlice]
  rfl

/-- A relative path begins with its first part, which is empty only if the path is. -/
theorem head?_parts_ne_empty (hne : path ≠ "") (hrel : isAbsolute path = false) : (parts path).head? ≠ some "" := by
  rw [← Bool.not_eq_true, isAbsolute_iff] at hrel
  obtain ⟨c, cs, hchars⟩ := List.exists_cons_of_ne_nil (mt String.toList_eq_nil_iff.mp hne)
  have hc : ¬ c = '/' := by
    rintro rfl
    exact hrel (hchars ▸ List.cons_prefix_cons.mpr ⟨rfl, List.nil_prefix⟩)
  have hfirst : ∀ chars : List Char, some (String.ofList (c :: chars)) ≠ some "" := by
    intro chars h
    have hnil := congrArg String.toList (Option.some.inj h)
    rw [String.toList_ofList] at hnil
    cases hnil
  rw [parts, hchars, split, if_neg hc]
  cases split cs with
  | nil => exact hfirst []
  | cons first others => exact hfirst first

/-- A mere name is not absolute. -/
theorem isAbsolute_of_name (h : IsName path) : isAbsolute path = false := by
  rw [← Bool.not_eq_true, isAbsolute_iff]
  exact fun hstart => h.slash_notMem (hstart.subset List.mem_cons_self)

/-- A mere name is its only part. -/
theorem components_of_name (h : IsName path) : components path = [.name path] := by
  have hparts : parts path = [path] := by
    rw [parts, split_eq_splitOn, List.splitOn_eq_singleton h.slash_notMem, List.map_singleton, String.ofList_toList]
  have hhead : ¬ [path].head? = some "." := fun hdot => h.ne_dot (Option.some.inj hdot)
  rw [components_eq, lead, isAbsolute_of_name h, inner, hparts, if_neg Bool.false_ne_true, if_neg hhead,
    List.filterMap_cons, component?_of_name h]
  rfl

/-- A path that goes on after another one is absolute if that one is. -/
theorem isAbsolute_append (h : base ≠ "") (rest : String) : isAbsolute (base ++ rest) = isAbsolute base := by
  have hchars : base.toList ≠ [] := by
    rwa [Ne, String.toList_eq_nil_iff]
  obtain ⟨c, cs, hbase⟩ := List.exists_cons_of_ne_nil hchars
  rw [Bool.eq_iff_iff, isAbsolute_iff, isAbsolute_iff, String.toList_append, hbase, List.cons_append,
    List.cons_prefix_cons, List.cons_prefix_cons]
  simp

/-- The parts of a path below another one. -/
theorem parts_join (hbase : base ≠ "") (hrel : isAbsolute path = false) :
    ∃ first more, parts base = first ++ more ∧ first ≠ [] ∧ more.filterMap component? = [] ∧
      parts (join base path) = first ++ parts path := by
  rw [join, hrel, if_neg Bool.false_ne_true]
  by_cases hslash : base.endsWith "/" = true
  · obtain ⟨front, hfront⟩ := endsWith_slash_iff.mp hslash
    have hparts : parts base = parts (String.ofList front) ++ [""] := by
      rw [← String.ofList_toList (s := base), ← hfront]
      exact parts_slash front []
    have hjoined : base ++ path = String.ofList (front ++ '/' :: path.toList) := by
      rw [← String.toList_inj, String.toList_append, ← hfront, String.toList_ofList, List.append_assoc]
      rfl
    refine ⟨_, _, hparts, parts_ne_nil _, rfl, ?_⟩
    rw [if_pos (by rw [hslash, Bool.or_true]), hjoined, parts_slash, String.ofList_toList]
  · have hjoined : base ++ "/" ++ path = String.ofList (base.toList ++ '/' :: path.toList) := by
      rw [← String.toList_inj, String.toList_append, String.toList_append, String.toList_ofList, List.append_assoc,
        String.toList_ofList]
      rfl
    refine ⟨parts base, [], (List.append_nil _).symm, parts_ne_nil _, rfl, ?_⟩
    rw [if_neg (by simp [hbase, hslash]), hjoined, parts_slash, String.ofList_toList, String.ofList_toList]

/-- **A path below another one** has the components of that one, and then what its own parts mean by themselves. -/
theorem components_join (hbase : base ≠ "") (hrel : isAbsolute path = false) :
    components (join base path) = components base ++ inner path := by
  obtain ⟨first, more, hparts, hne, hmore, hjoined⟩ := parts_join hbase hrel
  have habsolute : isAbsolute (join base path) = isAbsolute base := by
    rw [join, hrel, if_neg Bool.false_ne_true]
    split
    · exact isAbsolute_append hbase _
    · rw [String.append_assoc]
      exact isAbsolute_append hbase _
  have hhead : (parts (join base path)).head? = (parts base).head? := by
    obtain ⟨x, xs, rfl⟩ := List.exists_cons_of_ne_nil hne
    rw [hjoined, hparts]
    rfl
  have hinner : inner (join base path) = inner base ++ inner path := by
    simp only [inner, hjoined, hparts, List.filterMap_append, hmore, List.append_nil]
  rw [components_eq, components_eq, hinner, lead, lead, habsolute, hhead, List.append_assoc]

/-- What is below nothing is the path itself. -/
theorem join_empty (hrel : isAbsolute path = false) : join "" path = path := by
  rw [join, hrel, if_neg Bool.false_ne_true]
  exact String.empty_append

/-- A path without the slashes at its start is not absolute. -/
theorem isAbsolute_trimStartChar (path : String) : isAbsolute (Text.trimStartChar path '/') = false := by
  rw [← Bool.not_eq_true, isAbsolute_iff, Text.trimStartChar, String.toList_ofList]
  intro hstart
  have hhead := List.head?_dropWhile_not (· == '/') path.toList
  obtain ⟨rest, hrest⟩ := hstart
  rw [← hrest] at hhead
  cases hhead

end ScriptHost.Path

import ScriptHost.Files.Tree

/-!
# Looking up files while others are made

Files and directories are only ever added to a tree, and some files get other contents.  A path then leads where it led.

* `Tree.Keeps` — every directory is still a directory and every file still a file;
* `Tree.Grows` — everything is still there as it was;
* `Tree.LeadsTo` — a path leads to a place, and `Tree.Taken` — to something;
* **`LeadsTo.later`** — it leads there later, too;
* `createDirs_grows`, **`createNew_of_leadsTo`**, **`write_of_leadsTo`** — what the operations do at that place;
* **`read_of_write`** — what was written to a path is read from it.
-/

namespace ScriptHost.Tree

variable {t t' t'' : Tree} {place path q : String}

/-! ### Places -/

theorem node?_root (t : Tree) (h : place = "" ∨ place = "/") : t.node? place = some .dir := by
  rw [node?, if_pos (by simpa using h)]

/-- In the beginning there is nothing. -/
theorem node?_empty (h : ¬ (place = "" ∨ place = "/")) : ({} : Tree).node? place = none := by
  rw [node?, if_neg (by simpa using h)]
  exact Std.HashMap.getElem?_empty

theorem node?_insert (t : Tree) (q : String) (n : Node) (place : String) :
    (t.insert q n).node? place
      = if place = "" ∨ place = "/" then some .dir else if place = q then some n else t.node? place := by
  by_cases hroot : place = "" ∨ place = "/"
  · rw [if_pos hroot, node?_root _ hroot]
  · have hroot' : ¬ (place = "" || place = "/") = true := by simpa using hroot
    rw [if_neg hroot, node?, if_neg hroot', insert, Std.HashMap.getElem?_insert]
    by_cases hq : q = place
    · rw [if_pos (beq_iff_eq.mpr hq), if_pos hq.symm]
    · rw [if_neg (mt beq_iff_eq.mp hq), if_neg fun h => hq h.symm, node?, if_neg hroot']

/-- A place where there is no directory is not one of those that are always there. -/
theorem not_root (h : t.node? q ≠ some .dir) : ¬ (q = "" ∨ q = "/") := fun hroot => h (t.node?_root hroot)

theorem node?_insert_self (h : t.node? q ≠ some .dir) (n : Node) : (t.insert q n).node? q = some n := by
  rw [node?_insert, if_neg (not_root h), if_pos rfl]

theorem node?_insert_of_ne (t : Tree) {q place : String} (h : place ≠ q) (n : Node) :
    (t.insert q n).node? place = t.node? place := by
  rw [node?_insert, if_neg h]
  split
  · rename_i hroot
    exact (t.node?_root hroot).symm
  · rfl

/-! ### What is kept -/

/-- There is a file at a place, whatever it holds. -/
def HasFile (t : Tree) (place : String) : Prop := ∃ b, t.node? place = some (.file b)

/-- Every directory is still a directory, and every file is still a file. -/
structure Keeps (t t' : Tree) : Prop where
  dir : ∀ place, t.node? place = some .dir → t'.node? place = some .dir
  file : ∀ place, t.HasFile place → t'.HasFile place

/-- Everything is still there as it was. -/
def Grows (t t' : Tree) : Prop := ∀ place n, t.node? place = some n → t'.node? place = some n

theorem Keeps.refl (t : Tree) : Keeps t t := ⟨fun _ h => h, fun _ h => h⟩

theorem Grows.refl (t : Tree) : Grows t t := fun _ _ h => h

theorem Grows.trans (h : Grows t t') (h' : Grows t' t'') : Grows t t'' := fun place n hp => h' place n (h place n hp)

theorem Grows.keeps (h : Grows t t') : Keeps t t' :=
  ⟨fun place hp => h place _ hp, fun place ⟨b, hb⟩ => ⟨b, h place _ hb⟩⟩

/-- What is not there was not there before. -/
theorem Grows.none_of_none (h : Grows t t') (hnone : t'.node? place = none) : t.node? place = none := by
  cases hnode : t.node? place with
  | none => rfl
  | some n =>
    have hlater := h place n hnode
    rw [hnone] at hlater
    cases hlater

theorem Grows.insert (h : t.node? q = none) (n : Node) : Grows t (t.insert q n) := by
  intro place m hm
  have hne : place ≠ q := by
    intro heq
    rw [heq, h] at hm
    cases hm
  rw [t.node?_insert_of_ne hne]
  exact hm

/-- A file gets another content. -/
theorem Keeps.overwrite (h : t.HasFile q) (b : Bytes) : Keeps t (t.insert q (.file b)) := by
  obtain ⟨c, hc⟩ := h
  have hdir : t.node? q ≠ some .dir := by
    rw [hc]
    nofun
  refine ⟨fun place hp => ?_, fun place hp => ?_⟩
  · have hne : place ≠ q := fun heq => hdir (heq ▸ hp)
    rw [t.node?_insert_of_ne hne]
    exact hp
  · by_cases heq : place = q
    · exact ⟨b, heq ▸ node?_insert_self hdir _⟩
    · obtain ⟨d, hd⟩ := hp
      exact ⟨d, by rw [t.node?_insert_of_ne heq]; exact hd⟩

/-- Something that is there is a directory or a file. -/
theorem Keeps.exists_node (h : Keeps t t') {n : Node} (hn : t.node? place = some n) : ∃ n', t'.node? place = some n' := by
  cases n with
  | dir => exact ⟨.dir, h.dir place hn⟩
  | file b =>
    obtain ⟨c, hc⟩ := h.file place ⟨b, hn⟩
    exact ⟨.file c, hc⟩

/-! ### Walking -/

/-- A place with what is there. -/
def location (t : Tree) (q : String) : Location :=
  match t.node? q with
  | some n => .found q n
  | none => .vacant q

theorem location_of_node {n : Node} (h : t.node? q = some n) : t.location q = .found q n := by
  rw [location, h]

theorem location_of_none (h : t.node? q = none) : t.location q = .vacant q := by
  rw [location, h]

theorem location_inj {q' : String} (h : t.location q = t.location q') : q = q' := by
  rw [location, location] at h
  split at h <;> split at h <;> cases h <;> rfl

/-- A walk begins at a directory, unless it is over. -/
theorem walk_from_dir {c : Component} {rest : List Component} {mustBeDir : Bool} {l : Location}
    (h : t.walk place mustBeDir (c :: rest) = .ok l) : t.node? place = some .dir := by
  rw [walk.eq_def] at h
  cases hnode : t.node? place with
  | none =>
    rw [hnode] at h
    cases h
  | some n =>
    rw [hnode] at h
    cases n with
    | dir => rfl
    | file b => cases h

/-- A walk over a name goes on from what is there, or ends where nothing is. -/
theorem walk_name {s : String} {rest : List Component} {mustBeDir : Bool} (hplace : t.node? place = some .dir) :
    t.walk place mustBeDir (.name s :: rest)
      = if t.node? (below place s) = none ∧ rest = [] then
          if mustBeDir then .error .missing else .ok (.vacant (below place s))
        else t.walk (below place s) mustBeDir rest := by
  rw [walk.eq_def]
  simp only [hplace]
  cases hnode : t.node? (below place s) with
  | none => cases rest <;> simp
  | some n => simp

/-- A walk that is over has come to a directory, or to a file where one may be meant. -/
theorem walk_nil_ok {mustBeDir : Bool} {l : Location} (h : t.walk place mustBeDir [] = .ok l) :
    l = t.location place ∧ (t.node? place = some .dir ∨ mustBeDir = false ∧ t.HasFile place) := by
  rw [walk] at h
  cases hnode : t.node? place with
  | none =>
    rw [hnode] at h
    cases h
  | some n =>
    rw [hnode] at h
    rw [location_of_node hnode]
    cases n with
    | dir =>
      cases h
      exact ⟨rfl, .inl rfl⟩
    | file b =>
      cases mustBeDir with
      | true => cases h
      | false =>
        cases h
        exact ⟨rfl, .inr ⟨rfl, b, hnode⟩⟩

/-- A walk over a name that ends well ends there, where nothing is, or goes on. -/
theorem walk_name_ok {s : String} {rest : List Component} {mustBeDir : Bool} {l : Location}
    (hplace : t.node? place = some .dir) (h : t.walk place mustBeDir (.name s :: rest) = .ok l) :
    (rest = [] ∧ mustBeDir = false ∧ t.node? (below place s) = none ∧ l = t.location (below place s)) ∨
      ¬ (t.node? (below place s) = none ∧ rest = []) ∧ t.walk (below place s) mustBeDir rest = .ok l := by
  rw [walk_name hplace] at h
  by_cases hlast : t.node? (below place s) = none ∧ rest = []
  · rw [if_pos hlast] at h
    obtain ⟨hnone, rfl⟩ := hlast
    cases mustBeDir with
    | true => cases h
    | false =>
      cases h
      exact .inl ⟨rfl, rfl, hnone, (location_of_none hnone).symm⟩
  · rw [if_neg hlast] at h
    exact .inr ⟨hlast, h⟩

/-- **A walk** that ends well ends at the same place later. -/
theorem walk_keeps (h : Keeps t t') {mustBeDir : Bool} {cs : List Component} {l : Location} :
    ∀ {place : String}, t.walk place mustBeDir cs = .ok l →
      ∃ q, l = t.location q ∧ t'.walk place mustBeDir cs = .ok (t'.location q) := by
  induction cs with
  | nil =>
    intro place hwalk
    obtain ⟨rfl, hdir | ⟨rfl, hfile⟩⟩ := walk_nil_ok hwalk
    · have hdir' := h.dir place hdir
      exact ⟨place, rfl, by rw [walk, hdir', location_of_node hdir']⟩
    · obtain ⟨b', hb'⟩ := h.file place hfile
      exact ⟨place, rfl, by rw [walk, hb', location_of_node hb']; rfl⟩
  | cons c rest ih =>
    intro place hwalk
    have hplace := walk_from_dir hwalk
    have hplace' := h.dir place hplace
    cases c with
    | root =>
      simp only [walk, hplace, hplace'] at hwalk ⊢
      exact ih hwalk
    | current =>
      simp only [walk, hplace, hplace'] at hwalk ⊢
      exact ih hwalk
    | parent =>
      simp only [walk, hplace, hplace'] at hwalk ⊢
      exact ih hwalk
    | name s =>
      rw [walk_name hplace']
      rcases walk_name_ok hplace hwalk with ⟨rfl, rfl, hnone, hl⟩ | ⟨hlast, hon⟩
      · refine ⟨below place s, hl, ?_⟩
        cases hnode' : t'.node? (below place s) with
        | none => simp [location, hnode']
        | some n' => cases n' <;> simp [location, hnode', walk]
      · have hlast' : ¬ (t'.node? (below place s) = none ∧ rest = []) := by
          rintro ⟨hnone', hrest⟩
          refine hlast ⟨?_, hrest⟩
          cases hnode : t.node? (below place s) with
          | none => rfl
          | some n =>
            obtain ⟨n', hn'⟩ := h.exists_node hnode
            rw [hnone'] at hn'
            cases hn'
        rw [if_neg hlast']
        exact ih hon

/-- A walk fails where something is missing, or where a file stands on the way. -/
theorem walk_error {mustBeDir : Bool} {cs : List Component} {e : IoError} : ∀ {place : String},
    t.walk place mustBeDir cs = .error e → e = .missing ∨ e = .noDirectory := by
  induction cs with
  | nil =>
    intro place h
    rw [walk] at h
    split at h
    · cases h
    · split at h <;> cases h
      exact .inr rfl
    · cases h
      exact .inl rfl
  | cons c rest ih =>
    intro place h
    rw [walk.eq_def] at h
    cases hnode : t.node? place with
    | none =>
      simp only [hnode] at h
      cases h
      exact .inl rfl
    | some n =>
      cases n with
      | file b =>
        simp only [hnode] at h
        cases h
        exact .inr rfl
      | dir =>
        simp only [hnode] at h
        cases c with
        | root => exact ih h
        | current => exact ih h
        | parent => exact ih h
        | name s =>
          simp only at h
          split at h
          · split at h <;> cases h
            exact .inl rfl
          · exact ih h

/-- A path leads to a place, whether something is there or not. -/
def LeadsTo (t : Tree) (path q : String) : Prop := t.locate path = .ok (t.location q)

/-- **A path leads where it led**, as long as directories and files stay what they are. -/
theorem LeadsTo.later (h : Keeps t t') (hleads : t.LeadsTo path q) : t'.LeadsTo path q := by
  rw [LeadsTo, locate] at hleads
  rw [LeadsTo, locate]
  by_cases hpath : path = ""
  · rw [if_pos hpath] at hleads
    cases hleads
  · rw [if_neg hpath] at hleads
    rw [if_neg hpath]
    obtain ⟨q', hq', hwalk⟩ := walk_keeps h hleads
    rw [hwalk, location_inj hq']

theorem LeadsTo.place_unique {q' : String} (h : t.LeadsTo path q) (h' : t.LeadsTo path q') : q = q' :=
  location_inj (Except.ok.inj (h.symm.trans h'))

theorem exists_leadsTo {l : Location} (h : t.locate path = .ok l) : ∃ q, l = t.location q ∧ t.LeadsTo path q := by
  have hpath : path ≠ "" := by
    intro hpath
    rw [locate, if_pos hpath] at h
    cases h
  have hwalk := h
  rw [locate, if_neg hpath] at hwalk
  obtain ⟨q, hq, -⟩ := walk_keeps (Keeps.refl t) hwalk
  exact ⟨q, hq, by rw [LeadsTo, h, hq]⟩

/-- A path that is a mere name leads to the place of that name. -/
theorem leadsTo_name (t : Tree) {name : String} (hname : name ≠ "") (hcomponents : Path.components name = [.name name])
    (hdir : meansDir name = false) : t.LeadsTo name name := by
  have hroot : t.node? "" = some .dir := t.node?_root (.inl rfl)
  have hbelow : below "" name = name := rfl
  rw [LeadsTo, locate, if_neg hname, hcomponents, hdir, walk_name hroot, hbelow]
  cases hnode : t.node? name with
  | none => rw [location_of_none hnode, if_pos ⟨rfl, rfl⟩, if_neg nofun]
  | some n =>
    rw [location_of_node hnode, if_neg (fun h => nomatch h.1), walk, hnode]
    cases n <;> rfl

/-- A path leads to something. -/
def Taken (t : Tree) (path : String) : Prop := ∃ q, t.LeadsTo path q ∧ t.node? q ≠ none

theorem Taken.later (hkeeps : Keeps t t') (h : t.Taken path) : t'.Taken path := by
  obtain ⟨q, hleads, htaken⟩ := h
  obtain ⟨n, hn⟩ := Option.ne_none_iff_exists'.mp htaken
  obtain ⟨n', hn'⟩ := hkeeps.exists_node hn
  refine ⟨q, hleads.later hkeeps, ?_⟩
  rw [hn']
  nofun

/-- That a path leads nowhere is another failure than that its name is taken. -/
theorem locate_error_kind {e : IoError} (h : t.locate path = .error e) : e.kind ≠ .alreadyExists := by
  have hcases : e = .missing ∨ e = .noDirectory := by
    rw [locate] at h
    split at h
    · cases h
      exact .inl rfl
    · exact walk_error h
  rcases hcases with rfl | rfl <;> nofun

/-! ### Operations -/

/-- A directory of some name is made where nothing is, and one that is there is kept. -/
theorem createFrom_name_ok {s : String} {rest : List Component} (h : t.createFrom place (.name s :: rest) = .ok t') :
    t.node? (below place s) = none ∧ (t.insert (below place s) .dir).createFrom (below place s) rest = .ok t' ∨
      t.createFrom (below place s) rest = .ok t' := by
  rw [createFrom] at h
  cases hnode : t.node? (below place s) with
  | none =>
    rw [hnode] at h
    exact .inl ⟨rfl, h⟩
  | some n =>
    rw [hnode] at h
    cases n with
    | dir => exact .inr h
    | file b => cases h

theorem createFrom_grows {cs : List Component} : ∀ {t : Tree} {place : String}, t.createFrom place cs = .ok t' →
    Grows t t' := by
  induction cs with
  | nil =>
    intro t place h
    cases h
    exact .refl t'
  | cons c rest ih =>
    intro t place h
    cases c with
    | root => exact ih h
    | current => exact ih h
    | parent => exact ih h
    | name s =>
      rcases createFrom_name_ok h with ⟨hnode, hon⟩ | hon
      · exact (Grows.insert hnode .dir).trans (ih hon)
      · exact ih hon

/-- Making directories makes no file. -/
theorem file_of_createFrom {cs : List Component} : ∀ {t : Tree} {place : String}, t.createFrom place cs = .ok t' →
    ∀ {q : String} {b : Bytes}, t'.node? q = some (.file b) → t.node? q = some (.file b) := by
  induction cs with
  | nil =>
    intro t place h q b hb
    cases h
    exact hb
  | cons c rest ih =>
    intro t place h q b hb
    cases c with
    | root => exact ih h hb
    | current => exact ih h hb
    | parent => exact ih h hb
    | name s =>
      rcases createFrom_name_ok h with ⟨-, hon⟩ | hon
      · have hinserted := ih hon hb
        rw [node?_insert] at hinserted
        split at hinserted
        · cases hinserted
        · split at hinserted
          · cases hinserted
          · exact hinserted
      · exact ih hon hb

/-- Making directories leaves everything as it was. -/
theorem createDirs_grows (h : t.createDirs path = .ok t') : Grows t t' := createFrom_grows h

/-- **A new file** is made where nothing was; where something is, the name is taken. -/
theorem createNew_of_leadsTo (h : t.LeadsTo path q) (b : Bytes) :
    t.createNew path b = if t.node? q = none then .ok (t.insert q (.file b)) else .error .taken := by
  rw [createNew, h]
  cases hnode : t.node? q with
  | none => rw [location_of_none hnode, if_pos rfl]
  | some n => rw [location_of_node hnode, if_neg nofun]

/-- Where no path leads, there is a failure of another kind. -/
theorem createNew_of_error {e : IoError} (h : t.locate path = .error e) (b : Bytes) : t.createNew path b = .error e := by
  rw [createNew, h]

/-- **A file is written** in the place of the one that is there, or where nothing was. -/
theorem write_of_leadsTo (h : t.LeadsTo path q) (hdir : t.node? q ≠ some .dir) (b : Bytes) :
    t.write path b = .ok (t.insert q (.file b)) := by
  rw [write, h]
  cases hnode : t.node? q with
  | none => rw [location_of_none hnode]
  | some n =>
    rw [location_of_node hnode]
    cases n with
    | dir => exact absurd hnode hdir
    | file c => rfl

/-- A directory is not written to. -/
theorem write_of_dir (h : t.LeadsTo path q) (hdir : t.node? q = some .dir) (b : Bytes) :
    t.write path b = .error .directory := by
  rw [write, h, location_of_node hdir]

/-- What is written is at the place to which the path leads. -/
theorem exists_of_write {b : Bytes} (h : t.write path b = .ok t') :
    ∃ q, t' = t.insert q (.file b) ∧ Keeps t t' ∧ t'.LeadsTo path q ∧ t'.node? q = some (.file b) := by
  cases hlocate : t.locate path with
  | error e =>
    rw [write, hlocate] at h
    cases h
  | ok l =>
    obtain ⟨q, -, hleads⟩ := exists_leadsTo hlocate
    by_cases hdir : t.node? q = some .dir
    · rw [write_of_dir hleads hdir] at h
      cases h
    · rw [write_of_leadsTo hleads hdir] at h
      cases h
      have hkeeps : Keeps t (t.insert q (.file b)) := by
        cases hnode : t.node? q with
        | none => exact (Grows.insert hnode _).keeps
        | some n =>
          cases n with
          | dir => exact absurd hnode hdir
          | file c => exact Keeps.overwrite ⟨c, hnode⟩ b
      exact ⟨q, rfl, hkeeps, hleads.later hkeeps, node?_insert_self hdir _⟩

/-- **What was written** to a path is read from it. -/
theorem read_of_write {b : Bytes} (h : t.write path b = .ok t') : t'.has path = true ∧ t'.read path = .ok b := by
  obtain ⟨q, -, -, hleads, hnode⟩ := exists_of_write h
  have hlocate : t'.locate path = .ok (.found q (.file b)) := by
    rw [hleads, location_of_node hnode]
  exact ⟨by rw [has, hlocate], by rw [read, openFile, hlocate]⟩

end ScriptHost.Tree

import ScriptHost.Proofs.Namespace.Building

/-!
# The frozen namespace

A namespace is frozen on a machine that may have objects already.  This says which objects are there afterwards.

* `Layout` — where they are;
* `Frozen` — what they are;
* `Spares` — what was there before is there as it was;
* **`freeze_spec`** — freezing leads there.
-/

namespace ScriptHost

open ScriptHost.Script ScriptHost.Script.Machine Namespace

/-- Where the objects of a frozen namespace are. -/
structure Layout extends Shelves where
  /-- The registry of environments. -/
  hosts : Nat
  /-- The environment. -/
  env : Nat
  /-- The members of the first library. -/
  copies : Nat
  /-- The first function of the prelude. -/
  helpers : Nat
  /-- The function that refuses to write to the first library. -/
  refuse : Nat
  /-- The function that writes to the environment. -/
  assign : Nat

/-- The function of the machine that resumes threads, if scripts of a mode have threads. -/
def vmResume (mode : Mode) : Value := if mode.libraries.contains "coroutine" then builtin .coResume else .nil

/-- The fields of the metatable of strings before it is guarded. -/
def textFields (index : Value) : List (String × Value) :=
  ("__index", index) :: Library.textEvents.zipIdx.map fun (e, i) => (e, .native (.builtin (.strArith i)))

/-- The guarded functions. -/
def Layout.guarded (l : Layout) (name : String) : Value :=
  .closure (l.helpers + if name = "pcall" then 4 else if name = "xpcall" then 5 else 2)

/-- What the host binds: first the base library, then the other libraries, then the functions of the session and the
environment itself. -/
def boundFields (b : Builder) (l : Layout) : List (String × Value) :=
  boundBase l.guarded ++ proxyFields l.copies b.mode.libraries ++ b.bindings ++ [("_G", .table l.env)]

/-- A new table with a metatable. -/
def behind (m : Nat) : Table := { Table.empty 0 0 with metatable := some m }

/-- The functions of the prelude that hand on what they are given are there, the last one if threads are. -/
structure Passes (p : Proto) (l : Layout) (resume : Value) (h : Heap) : Prop where
  low : l.helpers + 5 < l.refuse ∧ l.refuse ≤ h.closures.size
  resumes : resume.truthy = true → l.helpers + 6 < l.refuse
  vararg : ∀ (id : Nat) (c : Closure), l.helpers + 2 < id → id < l.refuse → h.closures[id]? = some c → c.proto.isVararg = true
  pass : IsMade h (l.helpers + 3) (Prelude.pass p) [.native (.host 0), builtin .error]
  pcall : IsMade h (l.helpers + 4) (Prelude.pcall p) [.closure (l.helpers + 3), builtin .pcall]
  xpcall : IsMade h (l.helpers + 5) (Prelude.xpcall p) [.closure (l.helpers + 3), builtin .xpcall, .native (.host 0)]
  resume : resume.truthy = true → IsMade h (l.helpers + 6) (Prelude.resume p) [.closure (l.helpers + 3), resume]

theorem Passes.later {p : Proto} {l : Layout} {resume : Value} {h h' : Heap} {filled : List Nat}
    (hpasses : Passes p l resume h) (hlater : Later h h' filled) : Passes p l resume h' := by
  obtain ⟨hlow, hsize⟩ := hpasses.low
  have hold (id : Nat) (hid : id < l.refuse) : ∃ c, h.closures[id]? = some c ∧ h'.closures[id]? = some c :=
    ⟨_, Array.getElem?_eq_getElem (Nat.lt_of_lt_of_le hid hsize),
      hlater.closures id _ (Array.getElem?_eq_getElem (Nat.lt_of_lt_of_le hid hsize))⟩
  refine ⟨⟨hlow, ?_⟩, hpasses.resumes, fun id c hfirst hlast hc => ?_, hpasses.pass.later hlater, hpasses.pcall.later hlater,
    hpasses.xpcall.later hlater, fun hresume => (hpasses.resume hresume).later hlater⟩
  · obtain ⟨c, -, hc⟩ := hold (l.refuse - 1) (by omega)
    have hlast := (Array.getElem?_eq_some_iff.mp hc).1
    omega
  · obtain ⟨c', hc', hlater⟩ := hold id hlast
    obtain rfl := Option.some.inj (hlater.symm.trans hc)
    exact hpasses.vararg id _ hfirst hlast hc'

/-- The objects of a frozen namespace. -/
structure Frozen (p : Proto) (b : Builder) (l : Layout) (h : Heap) : Prop where
  order : l.texts < l.frozen ∧ l.frozen + 1 < l.hosts ∧ l.hosts + 1 < l.host ∧ l.host < l.copies
  env : l.copies + 3 * b.mode.libraries.length = l.env
  size : h.tables.size = l.env + 2
  strings : h.stringMeta = some l.texts
  texts : ∃ t, h.table l.texts = guardedBy (Library.tableOf (textFields t)) (proxies l.copies b.mode.libraries)
  registered : h.table l.frozen = registered (behind (l.frozen + 1)) ((proxies l.copies b.mode.libraries).map Prod.snd)
  frozenFront : h.table (l.frozen + 1) = Library.tableOf weakFields
  hosted : h.table l.hosts = (behind (l.hosts + 1)).set (.table l.env) (.table l.host)
  hostsFront : h.table (l.hosts + 1) = Library.tableOf weakFields
  bound : ∃ n, h.table l.host = (boundFields b l).foldl (fun t (name, v) => t.setStr name v) (Table.empty 0 n)
  library : ∀ (i : Nat) (name : String), b.mode.libraries[i]? = some name →
    IsLibrary p h (guardedResume (l.helpers + 6) (vmResume b.mode)) name (l.copies + 3 * i) (l.refuse + 3 * i)
  environment : h.table l.env = behind (l.env + 1)
  envFront : h.table (l.env + 1) = Library.tableOf (environmentFields l.host l.assign)
  assigns : IsMade h l.assign (Prelude.assign p)
    [builtin .rawget, .table l.host, builtin .error, builtin .tostring, builtin .rawset]
  rawsets : IsMade h (l.helpers + 2) (Prelude.rawset p)
    [.table l.frozen, builtin .error, .table l.hosts, builtin .rawget, builtin .tostring, builtin .rawset]
  passes : Passes p l (vmResume b.mode) h
  made : l.refuse + 3 * b.mode.libraries.length = l.assign ∧ h.closures.size = l.assign + 1

/-- What was there before a namespace was frozen is there as it was, and the objects of the namespace come after it. -/
structure Spares (l : Layout) (h h' : Heap) : Prop where
  low : h.tables.size ≤ l.texts ∧ h.closures.size ≤ l.helpers
  later : Later h h' []

section
variable {σ : Type} [Inhabited σ]

/-! ### The globals of the prelude -/

/-- The objects with more tables. -/
def withTables (h : Heap) (ts : List Table) : Heap := { h with tables := h.tables ++ ts.toArray }

/-- The members of libraries in tables. -/
def memberTables (names : List String) : List Table := names.map fun name => Library.tableOf (Library.members name)

theorem withTables_cons (h : Heap) (t : Table) (ts : List Table) : withTables (h.withTable t) ts = withTables h (t :: ts) := by
  rw [withTables, withTables, Heap.withTable]
  congr 1
  rw [← Array.toList_inj]
  simp

omit [Inhabited σ] in
theorem libraryTables_fold (names : List String) (m : Machine σ) (tables : List (String × Nat)) :
    names.foldl (fun (tables, m) name =>
        let (id, m) := tableWith m (Library.members name)
        (tables ++ [(name, id)], m)) (tables, m)
      = (tables ++ names.zipIdx m.heap.tables.size, { m with heap := withTables m.heap (memberTables names) }) := by
  induction names generalizing m tables with
  | nil => simp [memberTables, withTables]
  | cons name rest ih =>
    refine (ih { m with heap := m.heap.withTable (Library.tableOf (Library.members name)) }
      (tables ++ [(name, m.heap.tables.size)])).trans ?_
    rw [Heap.size_withTable, withTables_cons, List.zipIdx_cons, List.append_assoc]
    rfl

omit [Inhabited σ] in
theorem libraryTables_eq (m : Machine σ) (mode : Mode) : libraryTables m mode
    = (mode.libraries.zipIdx m.heap.tables.size, { m with heap := withTables m.heap (memberTables mode.libraries) }) :=
  libraryTables_fold mode.libraries m []

/-- The fields of the globals of the prelude; the first library is the `n`th table. -/
def globalFields (n : Nat) (mode : Mode) : List (String × Value) :=
  baseFields ++ (mode.libraries.zipIdx n).map fun x => (x.1, .table x.2)

theorem names_globalFields (n : Nat) (mode : Mode) :
    (globalFields n mode).map Prod.fst = baseFields.map Prod.fst ++ mode.libraries := by
  rw [globalFields, List.map_append, List.map_map]
  exact congrArg _ (List.zipIdx_map_fst ..)

theorem nodup_globalFields (n : Nat) (mode : Mode) : ((globalFields n mode).map Prod.fst).Nodup := by
  rw [names_globalFields]
  cases mode <;> decide +kernel

theorem withTables_append (h : Heap) (ts us : List Table) : withTables (withTables h ts) us = withTables h (ts ++ us) := by
  rw [withTables, withTables, withTables]
  congr 1
  rw [← Array.toList_inj]
  simp

theorem withTable_withTables (h : Heap) (ts : List Table) (t : Table) :
    (withTables h ts).withTable t = withTables h (ts ++ [t]) := withTables_append h ts [t]

theorem size_withTables (h : Heap) (ts : List Table) : (withTables h ts).tables.size = h.tables.size + ts.length := by
  rw [withTables]
  simp

theorem table_withTables (h : Heap) (ts : List Table) (i : Nat) : (withTables h ts).table i
    = if i < h.tables.size then h.table i else ts.getD (i - h.tables.size) default := by
  rw [Heap.table, Heap.table, withTables, Array.getD_eq_getD_getElem?, Array.getD_eq_getD_getElem?, Array.getElem?_append]
  split
  · rfl
  · simp

/-- The tables that the host makes before it loads the prelude. -/
def stock (n : Nat) (mode : Mode) : List Table :=
  memberTables mode.libraries ++ [Library.tableOf (textFields (.table n)), Library.tableOf (globalFields n mode)]

theorem length_stock (n : Nat) (mode : Mode) : (stock n mode).length = mode.libraries.length + 2 := by
  rw [stock, List.length_append, memberTables, List.length_map]
  rfl

/-- Behind the members of the libraries come the metatable of strings and the globals. -/
theorem getD_stock (n : Nat) (mode : Mode) :
    (stock n mode).getD mode.libraries.length default = Library.tableOf (textFields (.table n)) ∧
      (stock n mode).getD (mode.libraries.length + 1) default = Library.tableOf (globalFields n mode) := by
  have hlength : (memberTables mode.libraries).length = mode.libraries.length := List.length_map _
  rw [stock]
  generalize Library.tableOf (textFields (.table n)) = t, Library.tableOf (globalFields n mode) = u
  simp [← hlength]

/-- The objects when the prelude is loaded. -/
def beforePrelude (h : Heap) (mode : Mode) (p : Proto) : Heap :=
  { withTables h (stock h.tables.size mode) with
    stringMeta := some (h.tables.size + mode.libraries.length)
    cells := h.cells.push (.closed (.table (h.tables.size + mode.libraries.length + 1)))
    closures := h.closures.push ⟨p, #[h.cells.size]⟩ }

theorem size_beforePrelude (h : Heap) (mode : Mode) (p : Proto) :
    (beforePrelude h mode p).tables.size = h.tables.size + mode.libraries.length + 2 := by
  refine (size_withTables h (stock h.tables.size mode)).trans ?_
  rw [length_stock, Nat.add_assoc]

/-- The tables that were there. -/
theorem table_beforePrelude {h : Heap} {i : Nat} (hi : i < h.tables.size) (mode : Mode) (p : Proto) :
    (beforePrelude h mode p).table i = h.table i := by
  refine (table_withTables h (stock h.tables.size mode) i).trans ?_
  rw [if_pos hi]

/-- The tables that the host made. -/
theorem table_beforePrelude_add (h : Heap) (mode : Mode) (p : Proto) (i : Nat) :
    (beforePrelude h mode p).table (h.tables.size + i) = (stock h.tables.size mode).getD i default := by
  refine (table_withTables h (stock h.tables.size mode) (h.tables.size + i)).trans ?_
  rw [if_neg (by omega), Nat.add_sub_cancel_left]

theorem later_beforePrelude (h : Heap) (mode : Mode) (p : Proto) : Later h (beforePrelude h mode p) [] := by
  refine ⟨?_, fun i hi _ => table_beforePrelude hi mode p, fun i hi => congrArg _ (table_beforePrelude hi mode p),
    fun i v hi => ?_, fun i c hc => ?_⟩
  · rw [size_beforePrelude]
    omega
  · exact (Array.getElem?_push_lt (Array.getElem?_eq_some_iff.mp hi).1).trans ((Array.getElem?_eq_getElem _).symm.trans hi)
  · exact (Array.getElem?_push_lt (Array.getElem?_eq_some_iff.mp hc).1).trans ((Array.getElem?_eq_getElem _).symm.trans hc)

theorem hasGlobals_beforePrelude (h : Heap) (mode : Mode) (p : Proto) :
    HasGlobals (beforePrelude h mode p) (h.tables.size + mode.libraries.length + 1) (vmResume mode) := by
  have hglobals : (beforePrelude h mode p).table (h.tables.size + mode.libraries.length + 1)
      = Library.tableOf (globalFields h.tables.size mode) := by
    rw [Nat.add_assoc, table_beforePrelude_add, (getD_stock _ mode).2]
  refine ⟨?_, fun x hx => ?_, ?_⟩
  · rw [hglobals, Library.metatable_tableOf]
  · rw [hglobals]
    refine Library.find_tableOf (nodup_globalFields _ mode) (List.mem_append_left _ ?_)
    revert x
    simp [baseFields, Builtin.base]
  · rw [hglobals]
    cases mode with
    | restricted =>
      refine .inl ⟨Library.find_tableOf_of_no_field ?_, rfl⟩
      rw [names_globalFields]
      decide +kernel
    | privileged =>
      have hlibrary : (beforePrelude h .privileged p).table (h.tables.size + 4)
          = Library.tableOf (Library.members "coroutine") := by
        rw [table_beforePrelude_add, stock, List.getD_eq_getElem?_getD, List.getElem?_append_left (show 4 < 6 by decide)]
        rfl
      refine .inr ⟨h.tables.size + 4, Library.find_tableOf (nodup_globalFields _ .privileged) ?_, ?_, rfl, ?_⟩
      · simp [globalFields, Mode.libraries, Mode.commonLibraries, Mode.privilegedLibraries, List.zipIdx]
      · rw [hlibrary, Library.metatable_tableOf]
      · rw [hlibrary]
        refine Library.find_tableOf (by decide +kernel) ?_
        simp [Library.members, Builtin.coroutines, vmResume, Mode.libraries, Mode.commonLibraries, Mode.privilegedLibraries]

/-! ### The steps of freezing -/

/-- The machine before the prelude is loaded. -/
def stocked (m : Machine σ) (mode : Mode) : Machine σ :=
  { m with heap := { withTables m.heap (stock m.heap.tables.size mode) with
    stringMeta := some (m.heap.tables.size + mode.libraries.length) } }

/-- The machine with the prelude loaded. -/
def loaded (m : Machine σ) (mode : Mode) (p : Proto) : Machine σ := { m with heap := beforePrelude m.heap mode p }

omit [Inhabited σ] in
theorem setTexts_eq (m : Machine σ) (index : Value) : setTexts m index = { m with
    heap := { m.heap.withTable (Library.tableOf (textFields index)) with stringMeta := some m.heap.tables.size } } := rfl

omit [Inhabited σ] in
theorem globals_eq (m : Machine σ) (b : Builder) :
    b.globals m = (m.heap.tables.size + b.mode.libraries.length + 1, stocked m b.mode) := by
  have hsize : (withTables m.heap (memberTables b.mode.libraries)).tables.size
      = m.heap.tables.size + b.mode.libraries.length := by
    rw [size_withTables, memberTables, List.length_map]
  obtain ⟨rest, hrest⟩ : ∃ rest, b.mode.libraries.zipIdx m.heap.tables.size = ("string", m.heap.tables.size) :: rest := by
    cases b.mode <;> exact ⟨_, rfl⟩
  rw [Builder.globals, libraryTables_eq, hrest]
  dsimp only
  rw [setTexts_eq, tableWith_eq, ← hrest]
  dsimp only
  have hglobals (ts : List Table) (t u : Table) :
      ((withTables m.heap ts).withTable t).withTable u = withTables m.heap (ts ++ [t, u]) := by
    rw [withTable_withTables, withTable_withTables, List.append_assoc]
    rfl
  rw [hsize, withTable_withTables, stocked, stock, ← hglobals, ← withTable_withTables]
  refine Prod.ext ?_ rfl
  show ((withTables m.heap (memberTables b.mode.libraries)).withTable _).tables.size = _
  rw [Heap.size_withTable, hsize]

omit [Inhabited σ] in
theorem load_stocked (m : Machine σ) (mode : Mode) (p : Proto) :
    (stocked m mode).load p (.table (m.heap.tables.size + mode.libraries.length + 1))
      = (.closure m.heap.closures.size, loaded m mode p) := rfl

/-- **The prelude runs** on the machine that the host has stocked. -/
theorem helpers_spec {m : Machine σ} (hm : m.interval = 0) (mode : Mode) (p : Proto) :
    ∃ m', Namespace.helpers (.ok (Prelude.main p)) (m.heap.tables.size + mode.libraries.length + 1) (stocked m mode)
        = (.table (m.heap.tables.size + mode.libraries.length + 6), m') ∧
      Prepared p (vmResume mode) (beforePrelude m.heap mode (Prelude.main p)) m'.heap ∧ m'.interval = 0 := by
  have hclosure : (beforePrelude m.heap mode (Prelude.main p)).closures[m.heap.closures.size]?
      = some ⟨Prelude.main p, #[m.heap.cells.size]⟩ := Array.getElem?_push_size
  have hcell : (beforePrelude m.heap mode (Prelude.main p)).cells[m.heap.cells.size]?
      = some (.closed (.table (m.heap.tables.size + mode.libraries.length + 1))) := Array.getElem?_push_size
  have hreaches := main_spec (m := loaded m mode (Prelude.main p)) hm hclosure hcell
    (hasGlobals_beforePrelude m.heap mode (Prelude.main p))
  obtain ⟨m', hcall, hprepared, hsame⟩ := Namespace.call_spec hreaches (by decide)
  refine ⟨m', ?_, hprepared, hsame.interval.trans hm⟩
  rw [Namespace.helpers]
  simp only [load_stocked]
  rw [hcall]
  show (Value.table ((beforePrelude m.heap mode (Prelude.main p)).tables.size + 4), m') = _
  rw [size_beforePrelude]

namespace Prepared

variable {p : Proto} {resume : Value} {h h' : Heap}

omit [Inhabited σ] in
theorem helper {m : Machine σ} (hprepared : Prepared p resume h m.heap) {name : String} {v : Value}
    (hmem : (name, v) ∈ helperFields h.closures.size (guardedResume (h.closures.size + 6) resume)) :
    field m (h.tables.size + 4) name = v := by
  rw [field, hprepared.table, if_pos rfl]
  refine Library.find_tableOf ?_ hmem
  show (["read_only", "environment", "rawset", "pcall", "xpcall", "resume"] : List String).Nodup
  decide

theorem registries (hprepared : Prepared p resume h h') :
    h'.table h.tables.size = behind (h.tables.size + 1) ∧ h'.table (h.tables.size + 1) = Library.tableOf weakFields ∧
      h'.table (h.tables.size + 2) = behind (h.tables.size + 3) ∧
      h'.table (h.tables.size + 3) = Library.tableOf weakFields := by
  have hfirst := table_withFront (h := h) weakFields rfl
  have hsize := size_withFront (h := h) weakFields rfl
  have hboth := table_withFront weakFields hsize
  have hold (i : Nat) (hi : i < h.tables.size + 4) :
      h'.table i = (withFront (withFront h h.tables.size weakFields) (h.tables.size + 2) weakFields).table i := by
    rw [hprepared.table, if_neg (Nat.ne_of_lt hi), withRegistries]
  refine ⟨?_, ?_, ?_, ?_⟩
  · rw [hold _ (by omega), hboth, if_neg (by omega), if_neg (by omega), hfirst, if_pos rfl]
    rfl
  · rw [hold _ (by omega), hboth, if_neg (by omega), if_neg (by omega), hfirst, if_neg (by omega), if_pos rfl]
  · rw [hold _ (by omega), hboth, if_pos rfl]
    rfl
  · rw [hold _ (by omega), hboth, if_neg (by omega), if_pos rfl]

theorem table_of_lt (hprepared : Prepared p resume h h') {i : Nat} (hi : i < h.tables.size) :
    h'.table i = h.table i := by
  have hsize := size_withFront (h := h) weakFields rfl
  rw [hprepared.table, if_neg (by omega), withRegistries, table_withFront weakFields hsize, if_neg (by omega),
    if_neg (by omega), table_withFront weakFields rfl, if_neg (by omega), if_neg (by omega)]

theorem later (hprepared : Prepared p resume h h') : Later h h' [] := by
  refine ⟨?_, fun i hi _ => hprepared.table_of_lt hi, fun i hi => congrArg _ (hprepared.table_of_lt hi), hprepared.cells,
    fun i c hc => ?_⟩
  · rw [hprepared.size]
    omega
  · obtain ⟨_, _, _, _, hclosures, -⟩ := hprepared.closures
    rw [hclosures, Array.getElem?_append_left (Array.getElem?_eq_some_iff.mp hc).1]
    exact hc

/-- The functions that the prelude made, with what they keep. -/
theorem isMade (hprepared : Prepared p resume h h') :
    IsMade h' h.closures.size (Prelude.readOnly p)
        [builtin .setmetatable, builtin .error, builtin .next, .table h.tables.size] ∧
      IsMade h' (h.closures.size + 1) (Prelude.environment p) [builtin .setmetatable, builtin .rawget, builtin .error,
        builtin .tostring, builtin .rawset, .table (h.tables.size + 2)] ∧
      IsMade h' (h.closures.size + 2) (Prelude.rawset p) [.table h.tables.size, builtin .error,
        .table (h.tables.size + 2), builtin .rawget, builtin .tostring, builtin .rawset] := by
  obtain ⟨a, b, c, others, hclosures, -, ha, hb, hc⟩ := hprepared.closures
  have hget (i : Nat) : h'.closures[h.closures.size + i]?
      = (⟨Prelude.readOnly p, a⟩ :: ⟨Prelude.environment p, b⟩ :: ⟨Prelude.rawset p, c⟩ :: others)[i]? := by
    rw [hclosures, Array.getElem?_append_right (Nat.le_add_right ..), Nat.add_sub_cancel_left]
    simp
  exact ⟨⟨a, hget 0, ha⟩, ⟨b, hget 1, hb⟩, ⟨c, hget 2, hc⟩⟩

theorem passes (hprepared : Prepared p resume h h') {l : Layout} (hhelpers : l.helpers = h.closures.size)
    (hrefuse : l.refuse = h'.closures.size) : Passes p l resume h' := by
  obtain ⟨a, b, c, others, hclosures, hpass, -⟩ := hprepared.closures
  have hlength := hpass.length
  have hsize : h'.closures.size = h.closures.size + 3 + others.length := by
    simp only [hclosures, Array.size_append, List.size_toArray, List.length_cons]
    omega
  have hget (i : Nat) : h'.closures[l.helpers + (i + 3)]? = others[i]? := by
    rw [hclosures, hhelpers, Array.getElem?_append_right (Nat.le_add_right ..), Nat.add_sub_cancel_left]
    simp
  obtain ⟨hpasses, hpcall, hxpcall, hresumes⟩ : IsMade h' (l.helpers + 3) (Prelude.pass p) [.native (.host 0), builtin .error] ∧
      IsMade h' (l.helpers + 4) (Prelude.pcall p) [.closure (l.helpers + 3), builtin .pcall] ∧
      IsMade h' (l.helpers + 5) (Prelude.xpcall p) [.closure (l.helpers + 3), builtin .xpcall, .native (.host 0)] ∧
      (resume.truthy = true → IsMade h' (l.helpers + 6) (Prelude.resume p) [.closure (l.helpers + 3), resume]) := by
    obtain ⟨d, e, f, last, rfl, hd, he, hf, hlast⟩ := hpass
    rw [← hhelpers] at he hf hlast
    refine ⟨⟨d, hget 0, hd⟩, ⟨e, hget 1, he⟩, ⟨f, hget 2, hf⟩, fun hresume => ?_⟩
    rw [if_pos hresume] at hlast
    obtain ⟨i, rfl, hi⟩ := hlast
    exact ⟨i, hget 3, hi⟩
  refine ⟨⟨?_, Nat.le_of_eq hrefuse⟩, fun hresume => ?_, fun id y hfirst hlast hy => hpass.vararg y ?_, hpasses, hpcall, hxpcall,
    hresumes⟩
  · split at hlength <;> omega
  · rw [if_pos hresume] at hlength
    omega
  · obtain ⟨i, rfl⟩ : ∃ i, id = l.helpers + (i + 3) := ⟨id - l.helpers - 3, by omega⟩
    exact List.mem_of_getElem? ((hget i).symm.trans hy)

end Prepared

/-- The helpers are there, and the table of bound names with the base library in it. -/
structure Shelved (p : Proto) (l : Layout) (resume : Value) (h : Heap) : Prop where
  order : l.texts < l.frozen ∧ l.frozen + 1 < l.hosts ∧ l.hosts + 1 < l.host ∧ l.host + 1 = l.copies
  size : h.tables.size = l.copies
  strings : h.stringMeta = some l.texts
  texts : ∃ t, h.table l.texts = Library.tableOf (textFields t)
  frozen : h.table l.frozen = behind (l.frozen + 1)
  frozenFront : h.table (l.frozen + 1) = Library.tableOf weakFields
  hosts : h.table l.hosts = behind (l.hosts + 1)
  hostsFront : h.table (l.hosts + 1) = Library.tableOf weakFields
  base : h.table l.host = Library.tableOf (boundBase l.guarded)
  readOnly : IsMade h l.helpers (Prelude.readOnly p) [builtin .setmetatable, builtin .error, builtin .next, .table l.frozen]
  environment : IsMade h (l.helpers + 1) (Prelude.environment p)
    [builtin .setmetatable, builtin .rawget, builtin .error, builtin .tostring, builtin .rawset, .table l.hosts]
  rawset : IsMade h (l.helpers + 2) (Prelude.rawset p)
    [.table l.frozen, builtin .error, .table l.hosts, builtin .rawget, builtin .tostring, builtin .rawset]
  passes : Passes p l resume h
  made : h.closures.size = l.refuse

/-- Where the objects are when the prelude was loaded with `n` tables and `k` functions there. -/
def layoutAt (mode : Mode) (n k texts refuse : Nat) : Layout where
  host := n + 5
  frozen := n
  texts := texts
  hosts := n + 2
  env := n + 6 + 3 * mode.libraries.length
  copies := n + 6
  helpers := k
  refuse := refuse
  assign := refuse + 3 * mode.libraries.length

/-- The table of bound names is made with the base library in it. -/
theorem Prepared.shelved {p : Proto} {resume : Value} {h h' : Heap} (hprepared : Prepared p resume h h') {texts : Nat}
    (hstrings : h.stringMeta = some texts) (hlow : texts < h.tables.size) {index : Value}
    (htexts : h.table texts = Library.tableOf (textFields index)) {l : Layout} {mode : Mode}
    (hl : l = layoutAt mode h.tables.size h.closures.size texts h'.closures.size) :
    Shelved p l resume (h'.withTable (Library.tableOf (boundBase l.guarded))) := by
  have hsize : h'.tables.size = h.tables.size + 5 := hprepared.size
  obtain ⟨hfrozen, hfrozenFront, hhosts, hhostsFront⟩ := hprepared.registries
  obtain ⟨hreadOnly, henvironment, hrawset⟩ := hprepared.isMade
  obtain ⟨t, ht⟩ : ∃ t, Library.tableOf (boundBase l.guarded) = t := ⟨_, rfl⟩
  have hlater : Later h' (h'.withTable t) [] := Later.withTable h' t []
  have hold (i : Nat) (hi : i < h.tables.size + 5) : (h'.withTable t).table i = h'.table i :=
    hlater.table i (hsize ▸ hi) List.not_mem_nil
  have hnew : (h'.withTable t).table (h.tables.size + 5) = t := by rw [Heap.table_withTable, if_pos hsize.symm]
  obtain ⟨hat, hfrozenAt, hhostsAt, hhostAt, hcopiesAt⟩ : l.texts = texts ∧ l.frozen = h.tables.size ∧
      l.hosts = h.tables.size + 2 ∧ l.host = h.tables.size + 5 ∧ l.copies = h.tables.size + 6 := by
    rw [hl]
    exact ⟨rfl, rfl, rfl, rfl, rfl⟩
  obtain ⟨hhelpersAt, hrefuseAt⟩ : l.helpers = h.closures.size ∧ l.refuse = h'.closures.size := by
    rw [hl]
    exact ⟨rfl, rfl⟩
  rw [ht]
  exact
    { order := by omega
      size := by rw [Heap.size_withTable, hsize, hcopiesAt]
      strings := by rw [Heap.stringMeta_withTable, hprepared.texts, hstrings, hat]
      texts := ⟨index, by rw [hat, hold _ (by omega), hprepared.table_of_lt hlow, htexts]⟩
      frozen := by rw [hfrozenAt, hold _ (by omega), hfrozen]
      frozenFront := by rw [hfrozenAt, hold _ (by omega), hfrozenFront]
      hosts := by rw [hhostsAt, hold _ (by omega), hhosts]
      hostsFront := by rw [hhostsAt, hold _ (by omega), hhostsFront]
      base := by rw [hhostAt, hnew, ht]
      readOnly := by
        rw [hhelpersAt, hfrozenAt]
        exact hreadOnly.later hlater
      environment := by
        rw [hhelpersAt, hhostsAt]
        exact henvironment.later hlater
      rawset := by
        rw [hhelpersAt, hfrozenAt, hhostsAt]
        exact hrawset.later hlater
      passes := (hprepared.passes hhelpersAt hrefuseAt).later hlater
      made := by rw [hrefuseAt, Heap.closures_withTable] }

namespace Shelved

variable {p : Proto} {l : Layout} {resume : Value} {h : Heap}

theorem keepsKeys (hshelved : Shelved p l resume h) : KeepsKeys h l.frozen ∧ KeepsKeys h l.hosts := by
  obtain ⟨-, hfrozen, hhosts, hhost⟩ := hshelved.order
  have hsize := hshelved.size
  refine ⟨⟨by omega, ?_, hshelved.frozenFront⟩, ⟨by omega, ?_, hshelved.hostsFront⟩⟩
  · rw [hshelved.frozen]
    rfl
  · rw [hshelved.hosts]
    rfl

theorem apart (hshelved : Shelved p l resume h) : l.toShelves.Apart h := by
  obtain ⟨htexts, hfrozen, hhosts, hhost⟩ := hshelved.order
  have hsize := hshelved.size
  exact ⟨⟨by omega, by omega, by omega⟩, ⟨by omega, by omega, by omega⟩, ⟨by omega, by omega⟩, hshelved.strings⟩

end Shelved

/-- All names are bound but that of the environment. -/
structure Named (p : Proto) (b : Builder) (l : Layout) (h h₁ h₂ : Heap) : Prop where
  shelved : Shelved p l (vmResume b.mode) h
  adds : AddsLibraries p l.toShelves h h₁ (guardedResume (l.helpers + 6) (vmResume b.mode)) b.mode.libraries
  fields : withFields h₁ l.host b.bindings = h₂
  env : l.copies + 3 * b.mode.libraries.length = l.env
  assign : l.refuse + 3 * b.mode.libraries.length = l.assign

namespace Named

variable {p : Proto} {b : Builder} {l : Layout} {h h₁ h₂ : Heap}

theorem sizes (hnamed : Named p b l h h₁ h₂) :
    h₁.tables.size = l.env ∧ h₂.tables.size = l.env ∧ h₂.closures.size = l.assign := by
  have hsize : h₁.tables.size = l.env := by rw [hnamed.adds.size, hnamed.shelved.size, hnamed.env]
  refine ⟨hsize, ?_, ?_⟩
  · rw [← hnamed.fields, size_withFields, hsize]
  · rw [← hnamed.fields, (beside_withFields ..).2.1, hnamed.adds.made, hnamed.shelved.made, hnamed.assign]

theorem table (hnamed : Named p b l h h₁ h₂) (i : Nat) : h₂.table i
    = if i = l.host then b.bindings.foldl (fun t (name, v) => t.setStr name v) (h₁.table l.host) else h₁.table i := by
  obtain ⟨-, -, -, hcopies⟩ := hnamed.shelved.order
  have henv := hnamed.env
  rw [← hnamed.fields, table_withFields]
  rw [hnamed.sizes.1]
  omega

theorem later (hnamed : Named p b l h h₁ h₂) : Later h₁ h₂ [l.host] :=
  hnamed.fields ▸ Later.withFields h₁ List.mem_cons_self b.bindings

theorem mem_filled {i : Nat} (hi : i ∈ l.toShelves.filled) : i = l.frozen ∨ i = l.host ∨ i = l.texts := by
  simpa [Shelves.filled] using hi

theorem hosts (hnamed : Named p b l h h₁ h₂) : KeepsKeys h₂ l.hosts := by
  obtain ⟨horder, horder', horder'', -⟩ := hnamed.shelved.order
  refine (hnamed.shelved.keepsKeys.2.later hnamed.adds.later fun hmem => ?_).later hnamed.later fun hmem => ?_
  · have hwhich := mem_filled hmem
    omega
  · have hwhich := List.mem_singleton.mp hmem
    omega

/-- What was there before the environment was made is there when it was made and bound. -/
theorem enclosed (hnamed : Named p b l h h₁ h₂) {h₃ : Heap} {made : List Closure}
    (hguarded : Guarded h₂ h₃ (environmentFields l.host l.assign) l.hosts (.table l.host) made) :
    Later h₁ (h₃.filed l.host (.ofString "_G") (.table l.env)) [l.host, l.hosts] :=
  ((hnamed.later.mono (by simp)).trans (hguarded.later.mono (by simp))).trans (Later.filed h₃ (by simp) _ _)

/-- **The namespace is frozen** when the environment was made and bound. -/
theorem frozen (hnamed : Named p b l h h₁ h₂) {h₃ : Heap} {a : Array Nat}
    (hguarded : Guarded h₂ h₃ (environmentFields l.host l.assign) l.hosts (.table l.host) [⟨Prelude.assign p, a⟩])
    (hkeeps : Keeps h₃.cells a [builtin .rawget, .table l.host, builtin .error, builtin .tostring, builtin .rawset]) :
    Frozen p b l (h₃.filed l.host (.ofString "_G") (.table l.env)) := by
  obtain ⟨hsize₁, hsize₂, hclosures₂⟩ := hnamed.sizes
  obtain ⟨horder, horder', horder'', hcopies⟩ := hnamed.shelved.order
  have henv := hnamed.env
  have hassign := hnamed.assign
  have hadds := hnamed.adds
  have hlater := hnamed.enclosed hguarded
  have hguardedTable := hguarded.table
  rw [hsize₂] at hguardedTable
  have htable (i : Nat) (hi : i ≠ l.host) : (h₃.filed l.host (.ofString "_G") (.table l.env)).table i = h₃.table i := by
    rw [Heap.table_filed, if_neg fun heq : i = l.host ∧ _ => hi heq.1]
  have hold (i : Nat) (hi : i < l.env) (hhost : i ≠ l.host) (hhosts : i ≠ l.hosts) :
      (h₃.filed l.host (.ofString "_G") (.table l.env)).table i = h₁.table i := by
    rw [htable i hhost, hguardedTable, if_neg (by omega), if_neg (by omega), if_neg hhosts, hnamed.table, if_neg hhost]
  have hadded (i : Nat) (hi : i < l.copies) (hfilled : i ∉ l.toShelves.filled) : h₁.table i = h.table i :=
    hadds.later.table i (hnamed.shelved.size ▸ hi) hfilled
  have hother (i : Nat) (hi : i ≠ l.frozen ∧ i ≠ l.host ∧ i ≠ l.texts) : i ∉ l.toShelves.filled := fun hmem => by
    have hwhich := mem_filled hmem
    omega
  refine
    { order := by omega
      env := henv
      size := by rw [Heap.size_filed, hguarded.size, hsize₂]
      strings := ?_
      texts := ?_
      registered := ?_
      frozenFront := ?_
      hosted := ?_
      hostsFront := ?_
      bound := ?_
      library := ?_
      environment := ?_
      envFront := ?_
      assigns := ?_
      rawsets := ?_
      passes := (hnamed.shelved.passes.later hadds.later).later hlater
      made := ?_ }
  · have hfields : h₂.stringMeta = h₁.stringMeta := by
      rw [← hnamed.fields]
      exact (beside_withFields ..).2.2
    exact hguarded.texts.trans (hfields.trans (hadds.strings.trans hnamed.shelved.strings))
  · obtain ⟨t, ht⟩ := hnamed.shelved.texts
    exact ⟨t, by rw [hold _ (by omega) (by omega) (by omega), hadds.texts, ht, hnamed.shelved.size]⟩
  · rw [hold _ (by omega) (by omega) (by omega), hadds.registry, hnamed.shelved.frozen, hnamed.shelved.size]
  · rw [hold _ (by omega) (by omega) (by omega), hadded _ (by omega) (hother _ (by omega)), hnamed.shelved.frozenFront]
  · rw [htable _ (by omega), hguardedTable, if_neg (by omega), if_neg (by omega), if_pos rfl, hnamed.table, if_neg (by omega),
      hadded _ (by omega) (hother _ (by omega)), hnamed.shelved.hosts]
  · rw [hold _ (by omega) (by omega) (by omega), hadded _ (by omega) (hother _ (by omega)), hnamed.shelved.hostsFront]
  · have hhost : h₃.table l.host = b.bindings.foldl (fun t (name, v) => t.setStr name v)
        ((proxyFields l.copies b.mode.libraries).foldl (fun t (name, v) => t.setStr name v)
          (Library.tableOf (boundBase l.guarded))) := by
      rw [hguardedTable, if_neg (by omega), if_neg (by omega), if_neg (by omega), hnamed.table, if_pos rfl, hadds.host,
        hnamed.shelved.base, hnamed.shelved.size]
    have hlow : l.host < h₃.tables.size := by
      rw [hguarded.size]
      omega
    refine ⟨(boundBase l.guarded).length, ?_⟩
    rw [Heap.table_filed, if_pos ⟨rfl, hlow⟩, hhost, boundFields, List.foldl_append, List.foldl_append, List.foldl_append]
    rfl
  · intro i name hname
    have hlibrary := hadds.library i name hname
    rw [hnamed.shelved.size, hnamed.shelved.made] at hlibrary
    refine hlibrary.later hlater fun j hj => .inl ?_
    have hwhich : j = l.host ∨ j = l.hosts := by simpa using hj
    omega
  · rw [htable _ (by omega), hguardedTable, if_pos rfl]
    rfl
  · rw [htable _ (by omega), hguardedTable, if_neg (by omega), if_pos rfl]
  · have hclosure := hguarded.closure (i := 0) (c := ⟨Prelude.assign p, a⟩) rfl
    rw [hclosures₂] at hclosure
    exact ⟨a, hclosure, hkeeps⟩
  · exact (hnamed.shelved.rawset.later hadds.later).later hlater
  · refine ⟨hassign, ?_⟩
    have hclosures : (h₃.filed l.host (.ofString "_G") (.table l.env)).closures = h₃.closures := rfl
    rw [hclosures, hguarded.closures, Array.size_append, hclosures₂]
    rfl

end Named

/-- The environment is made when all names are bound but its own. -/
theorem enclose_spec {m : Machine σ} (hm : m.interval = 0) {p : Proto} {l : Layout} {h h₂ : Heap} {b : Builder}
    (hnamed : Named p b l h m.heap h₂) :
    ∃ m', b.enclose l.host (.closure (l.helpers + 1)) (b.bindings.foldl (fun m x => setField m l.host x.1 x.2) m)
        = (⟨l.env, l.host, b.bindings.map Prod.fst⟩, m') ∧ Frozen p b l m'.heap ∧ Later m.heap m'.heap [l.host, l.hosts] := by
  obtain ⟨-, hsize, hclosures⟩ := hnamed.sizes
  obtain ⟨upvalues, hclosure, hups⟩ := (hnamed.shelved.environment.later hnamed.adds.later).later hnamed.later
  let calling : Machine σ := { m with heap := h₂ }
  have hreaches : Reaches 14 (calling.start (.closure (l.helpers + 1)) #[.table l.host]) _ :=
    environment_spec (m := calling) hm hclosure hups hnamed.hosts.isRegistry
  rw [show calling.heap = h₂ from rfl, hsize, hclosures] at hreaches
  obtain ⟨m', hcall, ⟨a, hguarded, hkeeps⟩, -⟩ := Namespace.call_spec
    (P := fun h' => ∃ a, Guarded h₂ h' (environmentFields l.host l.assign) l.hosts (.table l.host) [⟨Prelude.assign p, a⟩] ∧
      Keeps h'.cells a [builtin .rawget, .table l.host, builtin .error, builtin .tostring, builtin .rawset])
    (hreaches.imp fun m' ⟨h', a, hguarded, hkeeps, hm'⟩ => ⟨h', ⟨a, hguarded, hkeeps⟩, hm'⟩) (by decide)
  rw [Builder.enclose, setFields_eq, hnamed.fields]
  simp only [calling] at hcall
  rw [hcall]
  exact ⟨_, rfl, hnamed.frozen hguarded hkeeps, hnamed.enclosed hguarded⟩

/-- All names are bound, and the environment is made. -/
theorem bindWith_spec {m : Machine σ} (hm : m.interval = 0) {p : Proto} {h : Heap} (b : Builder)
    (hprepared : Prepared p (vmResume b.mode) h m.heap) {texts : Nat} (hstrings : h.stringMeta = some texts)
    (hlow : texts < h.tables.size) {index : Value} (htexts : h.table texts = Library.tableOf (textFields index)) :
    ∃ l m', b.bindWith (field m (h.tables.size + 4)) m = (⟨l.env, l.host, b.bindings.map Prod.fst⟩, m') ∧
      Frozen p b l m'.heap ∧ l.texts = texts ∧ l.helpers = h.closures.size ∧
        Later h m'.heap (l.hosts :: l.toShelves.filled) := by
  obtain ⟨l, hl⟩ : ∃ l, l = layoutAt b.mode h.tables.size h.closures.size texts m.heap.closures.size := ⟨_, rfl⟩
  obtain ⟨htextsAt, hhelpersAt, hhostAt⟩ : l.texts = texts ∧ l.helpers = h.closures.size ∧ l.host = m.heap.tables.size := by
    rw [hl, hprepared.size]
    exact ⟨rfl, rfl, rfl⟩
  have hshelved := hprepared.shelved hstrings hlow htexts hl
  have hhelper {name : String} {v : Value}
      (hmem : (name, v) ∈ helperFields h.closures.size (guardedResume (h.closures.size + 6) (vmResume b.mode))) :
      field m (h.tables.size + 4) name = v := hprepared.helper hmem
  have hreadOnly : field m (h.tables.size + 4) "read_only" = .closure l.helpers := hhelper (by simp [helperFields, hhelpersAt])
  have henvironment : field m (h.tables.size + 4) "environment" = .closure (l.helpers + 1) :=
    hhelper (by simp [helperFields, hhelpersAt])
  have hresume : field m (h.tables.size + 4) "resume" = guardedResume (l.helpers + 6) (vmResume b.mode) :=
    hhelper (by simp [helperFields, hhelpersAt])
  have hbase : boundBase (field m (h.tables.size + 4)) = boundBase l.guarded := by
    have hpcall : field m (h.tables.size + 4) "pcall" = .closure (l.helpers + 4) := hhelper (by simp [helperFields, hhelpersAt])
    have hxpcall : field m (h.tables.size + 4) "xpcall" = .closure (l.helpers + 5) :=
      hhelper (by simp [helperFields, hhelpersAt])
    have hrawset : field m (h.tables.size + 4) "rawset" = .closure (l.helpers + 2) :=
      hhelper (by simp [helperFields, hhelpersAt])
    rw [boundBase, boundBase]
    simp only [List.map_cons, List.map_nil, hpcall, hxpcall, hrawset]
    rfl
  obtain ⟨h₁, hh₁⟩ : ∃ h₁, m.heap.withTable (Library.tableOf (boundBase l.guarded)) = h₁ := ⟨_, rfl⟩
  rw [hh₁] at hshelved
  obtain ⟨m', hbind, hadds, hsame⟩ := bindLibraries_spec (m := { m with heap := h₁ }) hm
    ⟨hshelved.readOnly, hshelved.keepsKeys.1⟩ hshelved.apart (guardedResume (l.helpers + 6) (vmResume b.mode)) b.mode.libraries
  have hnamed : Named p b l h₁ m'.heap (withFields m'.heap l.host b.bindings) :=
    { shelved := hshelved
      adds := hadds
      fields := rfl
      env := by rw [hl]; rfl
      assign := by rw [hl]; rfl }
  obtain ⟨m'', henclose, hfrozen, henclosed⟩ := enclose_spec (hsame.interval.trans hm) hnamed
  have hlater : Later h h₁ [] := hprepared.later.trans (hh₁ ▸ Later.withTable ..)
  refine ⟨l, m'', ?_, hfrozen, htextsAt, hhelpersAt, ((hlater.mono nofun).trans (hadds.later.mono ?_)).trans (henclosed.mono ?_)⟩
  · rw [Builder.bindWith, hbase, hreadOnly, hresume, henvironment, tableWith_eq, hh₁, ← hhostAt]
    dsimp only
    rw [hbind, henclose]
  · exact fun i hi => List.mem_cons_of_mem _ hi
  · simp [Shelves.filled]

/-- **Freezing** a namespace on a machine. -/
theorem freeze_spec {m : Machine σ} (hm : m.interval = 0) (b : Builder) :
    ∃ p l m', b.freeze m = (⟨l.env, l.host, b.bindings.map Prod.fst⟩, m') ∧ Frozen p b l m'.heap ∧
      Spares l m.heap m'.heap := by
  obtain ⟨p, hp⟩ := Prelude.exists_prelude_eq
  obtain ⟨m₁, hhelpers, hprepared, hinterval⟩ := helpers_spec hm b.mode p
  have hsize := size_beforePrelude m.heap b.mode (Prelude.main p)
  have htexts : (beforePrelude m.heap b.mode (Prelude.main p)).table (m.heap.tables.size + b.mode.libraries.length)
      = Library.tableOf (textFields (.table m.heap.tables.size)) := by
    rw [table_beforePrelude_add, (getD_stock _ b.mode).1]
  obtain ⟨l, m', hbind, hfrozen, htextsAt, hhelpersAt, hlater⟩ := bindWith_spec hinterval b hprepared rfl (by omega) htexts
  refine ⟨p, l, m', ?_, hfrozen, ⟨by omega, ?_⟩, ?_⟩
  · rw [hsize] at hbind
    rw [Builder.freeze, hp, Builder.freezeWith, globals_eq]
    simp only
    rw [hhelpers]
    exact hbind
  · rw [hhelpersAt, beforePrelude, Array.size_push]
    exact Nat.le_succ _
  · have horder := hfrozen.order
    refine (((later_beforePrelude m.heap b.mode (Prelude.main p)).mono nofun).trans hlater).since fun i hi => ?_
    simp only [Shelves.filled, List.mem_cons, List.not_mem_nil, or_false] at hi
    omega

end

end ScriptHost

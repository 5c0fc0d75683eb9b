import ScriptHost.Proofs.Script.Captures
import ScriptHost.Proofs.Script.Prelude

/-!
# Tables behind which others stand

The helpers of the prelude put an empty table in front of another one.  Its metatable reads through to the other table
and refuses to write, and a registry knows it.

* `Guarded` — a table with a metatable was made and entered in a registry;
* **`readOnly_spec`** — a read-only table is made;
* **`environment_spec`** — an environment is made.
-/

namespace ScriptHost

open ScriptHost.Script ScriptHost.Script.Machine

/-- A built-in function as a value. -/
abbrev builtin (b : Builtin) : Value := .native (.builtin b)

/-! ### The objects -/

section
variable (h : Heap)

theorem filed_withCells (cells : Array Cell) (id : Nat) (k x : Value) :
    (h.withCells cells).filed id k x = (h.filed id k x).withCells cells := rfl

theorem filed_withClosure (c : Closure) (id : Nat) (k x : Value) :
    (h.withClosure c).filed id k x = (h.filed id k x).withClosure c := rfl

theorem withMeta_withCells (cells : Array Cell) (id m : Nat) :
    (h.withCells cells).withMeta id m = (h.withMeta id m).withCells cells := rfl

theorem withMeta_withClosure (c : Closure) (id m : Nat) :
    (h.withClosure c).withMeta id m = (h.withMeta id m).withClosure c := rfl

end

/-- The objects after values were filed under names in a table. -/
def withFields (h : Heap) (id : Nat) (fields : List (String × Value)) : Heap :=
  fields.foldl (fun h (name, v) => h.filed id (.ofString name) v) h

theorem size_withFields (h : Heap) (id : Nat) (fields : List (String × Value)) :
    (withFields h id fields).tables.size = h.tables.size := by
  induction fields generalizing h with
  | nil => rfl
  | cons x rest ih => exact (ih _).trans (h.size_filed ..)

/-- Filing values in a table leaves everything else alone. -/
theorem beside_withFields (h : Heap) (id : Nat) (fields : List (String × Value)) :
    (withFields h id fields).cells = h.cells ∧ (withFields h id fields).closures = h.closures ∧
      (withFields h id fields).stringMeta = h.stringMeta := by
  induction fields generalizing h with
  | nil => exact ⟨rfl, rfl, rfl⟩
  | cons x rest ih => exact ih _

theorem table_withFields (h : Heap) {id : Nat} (fields : List (String × Value)) (hid : id < h.tables.size) (i : Nat) :
    (withFields h id fields).table i
      = if i = id then fields.foldl (fun t (name, v) => t.setStr name v) (h.table id) else h.table i := by
  induction fields generalizing h with
  | nil =>
    by_cases hi : i = id
    · rw [if_pos hi, hi]
      rfl
    · rw [if_neg hi]
      rfl
  | cons x rest ih =>
    refine (ih (h.filed id (.ofString x.1) x.2) (by rwa [h.size_filed])).trans ?_
    rw [h.table_filed, h.table_filed]
    by_cases hi : i = id
    · rw [if_pos hi, if_pos ⟨rfl, hid⟩, if_pos hi]
      rfl
    · rw [if_neg hi, if_neg fun h => hi h.1, if_neg hi]

/-- The objects after a new table got a new metatable with some fields. -/
def withFront (h : Heap) (n : Nat) (fields : List (String × Value)) : Heap :=
  (withFields ((h.withTable (Table.empty 0 0)).withTable (Table.empty 0 fields.length)) (n + 1) fields).withMeta n (n + 1)

section
variable {h : Heap} {n : Nat} (fields : List (String × Value))

theorem size_withFront (hn : h.tables.size = n) : (withFront h n fields).tables.size = n + 2 := by
  rw [withFront, Heap.size_withMeta, size_withFields, Heap.size_withTable, Heap.size_withTable, hn]

theorem beside_withFront (h : Heap) (n : Nat) :
    (withFront h n fields).cells = h.cells ∧ (withFront h n fields).closures = h.closures ∧
      (withFront h n fields).stringMeta = h.stringMeta :=
  beside_withFields ((h.withTable (Table.empty 0 0)).withTable (Table.empty 0 fields.length)) (n + 1) fields

theorem table_withFront (hn : h.tables.size = n) (i : Nat) :
    (withFront h n fields).table i =
      if i = n then { Table.empty 0 0 with metatable := some (n + 1) }
      else if i = n + 1 then Library.tableOf fields
      else h.table i := by
  have hsize : ((h.withTable (Table.empty 0 0)).withTable (Table.empty 0 fields.length)).tables.size = n + 2 := by
    rw [Heap.size_withTable, Heap.size_withTable, hn]
  have hlow : n + 1 < ((h.withTable (Table.empty 0 0)).withTable (Table.empty 0 fields.length)).tables.size := by omega
  have hfields := table_withFields _ fields hlow
  rw [withFront, Heap.table_withMeta, size_withFields, hsize, hfields]
  by_cases h₀ : i = n
  · subst h₀
    simp [hn]
  by_cases h₁ : i = n + 1
  · subst h₁
    simp [hn, Library.tableOf]
  · simp [hn, h₀, h₁]

end

/-- A new table got a new metatable with some fields and was entered in a registry, and functions were made on the
way. -/
structure Guarded (h h' : Heap) (fields : List (String × Value)) (registry : Nat) (mark : Value) (made : List Closure) :
    Prop where
  size : h'.tables.size = h.tables.size + 2
  table : ∀ i, h'.table i =
    if i = h.tables.size then { Table.empty 0 0 with metatable := some (h.tables.size + 1) }
    else if i = h.tables.size + 1 then Library.tableOf fields
    else if i = registry then (h.table registry).set (.table h.tables.size) mark
    else h.table i
  cells : CellsStay h.cells h'.cells
  closures : h'.closures = h.closures ++ made.toArray
  texts : h'.stringMeta = h.stringMeta

theorem table_filed_withFront {h : Heap} {n registry : Nat} (fields : List (String × Value)) (mark : Value)
    (hn : h.tables.size = n) (hregistry : registry < n) (i : Nat) :
    ((withFront h n fields).filed registry (.table n) mark).table i =
      if i = n then { Table.empty 0 0 with metatable := some (n + 1) }
      else if i = n + 1 then Library.tableOf fields
      else if i = registry then (h.table registry).set (.table n) mark
      else h.table i := by
  have hne : n ≠ registry ∧ n + 1 ≠ registry := by omega
  rw [Heap.table_filed, size_withFront fields hn, table_withFront fields hn]
  by_cases h₀ : i = n
  · subst h₀
    simp [hne]
  by_cases h₁ : i = n + 1
  · subst h₁
    simp [hne]
  simp only [h₀, h₁, if_false]
  by_cases h₂ : i = registry
  · rw [if_pos ⟨h₂, by omega⟩, if_pos h₂, h₂]
  · rw [if_neg fun h => h₂ h.1, if_neg h₂]

/-! ### Calls from the host -/

section
variable {σ : Type} [Inhabited σ]

/-- The activation from which the host calls. -/
def hostBase : Native σ :=
  { self := none, top := 1, finish := .stop, depth := 0, yieldable := false, guard := some ⟨.trace, true⟩ }

omit [Inhabited σ] in
theorem canEnter_start {m : Machine σ} (hm : m.interval = 0) (f : Value) (args : Array Value) {c : Closure}
    (hparams : Nat.ble c.proto.paramCount c.proto.maxStack = true)
    (hroom : Nat.ble (2 * args.size + 2 * c.proto.maxStack + 25) maxSlots = true) :
    CanEnter (m.start f args) c hostBase args.size where
  interval := hm
  callers := ⟨[], rfl⟩
  opened := rfl
  closes := rfl
  depth := Nat.lt_of_sub_eq_succ rfl
  params := Nat.le_of_ble_eq_true hparams
  room := by
    have hroom := Nat.le_of_ble_eq_true hroom
    show 1 + 2 * args.size + 2 * c.proto.maxStack + 20 + 4 ≤ maxSlots
    omega

/-- A registry that no metatable has a say in. -/
def IsRegistry (h : Heap) (registry : Nat) : Prop :=
  registry < h.tables.size ∧ ∀ i, (h.table registry).metatable = some i →
    i < h.tables.size ∧ (h.table i).getStr (Bytes.ofString "__newindex") = .nil

/-- The fields of the metatable of a read-only table. -/
def readOnlyFields (inner refuse : Nat) : List (String × Value) :=
  [("__index", .table inner), ("__newindex", .closure refuse), ("__pairs", .closure (refuse + 1)),
    ("__len", .closure (refuse + 2)), ("__metatable", .bool false)]

/-- **A read-only table** is made in front of another one. -/
theorem readOnly_spec {m : Machine σ} (hm : m.interval = 0) {id inner frozen : Nat} {name : Bytes} {p : Proto}
    {upvalues : Array Nat} (hclosure : m.heap.closures[id]? = some ⟨Prelude.readOnly p, upvalues⟩)
    (hups : Keeps m.heap.cells upvalues [builtin .setmetatable, builtin .error, builtin .next, .table frozen])
    (hfrozen : IsRegistry m.heap frozen) :
    Reaches 18 (m.start (.closure id) #[.table inner, .str name]) fun m' => ∃ h a b c,
      Guarded m.heap h (readOnlyFields inner m.heap.closures.size) frozen (.bool true)
        [⟨Prelude.refuse p, a⟩, ⟨Prelude.traverse p, b⟩, ⟨Prelude.measure p, c⟩] ∧
      Keeps h.cells a [builtin .error, .str name] ∧
      Keeps h.cells b [builtin .next, .table inner, .table m.heap.tables.size] ∧
      Keeps h.cells c [.table inner] ∧
      Answers (m.start (.closure id) #[.table inner, .str name]) h (.values #[.table m.heap.tables.size]) m' := by
  obtain ⟨n, hn⟩ : ∃ n, m.heap.tables.size = n := ⟨_, rfl⟩
  obtain ⟨k, hk⟩ : ∃ k, m.heap.closures.size = k := ⟨_, rfl⟩
  obtain ⟨hlow, hopen⟩ := hfrozen
  rw [hn] at hlow hopen
  refine Reaches.enter (canEnter_start hm _ _ rfl rfl) rfl (start_heap m _ _) hclosure fun junk hjunk => ?_
  match junk, hjunk with
  | [r2, r3, r4, r5, r6], _ =>
  refine Exec.newTable n rfl hn rfl ?_
  refine Exec.getUpvalue rfl (hups 0 _ rfl) rfl ?_
  refine Exec.move rfl rfl rfl ?_
  refine Exec.newTable (n + 1) rfl (by simp [hn]) rfl ?_
  refine Exec.setField (.ofString "__index") (.table inner) rfl rfl rfl rfl (fun _ => Act.setIndex_filed trivial ?_) ?_
  · simp [hn, Table.empty]
  refine Exec.makes (p := 0) (Prelude.refuse p) k rfl rfl hk (Shares.none _ 7 m.heap.cells) (Nat.le_refl _) rfl rfl
    fun a cells₁ opened₁ hshares₁ ha hkept₁ hstay₁ hfirst₁ => ?_
  refine Exec.setField (.ofString "__newindex") (.closure k) rfl rfl rfl rfl (fun _ => Act.setIndex_filed trivial ?_) ?_
  · simp [hn, Heap.table_filed, Table.empty]
  refine Exec.makes (p := 1) (Prelude.traverse p) (k + 1) rfl rfl (by simp [hk]) hshares₁ hfirst₁ rfl rfl
    fun b cells₂ opened₂ hshares₂ hb hkept₂ hstay₂ hfirst₂ => ?_
  refine Exec.setField (.ofString "__pairs") (.closure (k + 1)) rfl rfl rfl rfl
    (fun _ => Act.setIndex_filed trivial ?_) ?_
  · simp [hn, Heap.table_filed, Table.empty]
  refine Exec.makes (p := 2) (Prelude.measure p) (k + 2) rfl rfl (by simp [hk]) hshares₂ hfirst₂ rfl rfl
    fun c cells₃ opened₃ hshares₃ hc hkept₃ hstay₃ hfirst₃ => ?_
  refine Exec.setField (.ofString "__len") (.closure (k + 2)) rfl rfl rfl rfl
    (fun _ => Act.setIndex_filed trivial ?_) ?_
  · simp [hn, Heap.table_filed, Table.empty]
  refine Exec.setField (.ofString "__metatable") (.bool false) rfl rfl rfl rfl
    (fun _ => Act.setIndex_filed trivial ?_) ?_
  · simp [hn, Heap.table_filed, Table.empty]
  refine Exec.call_done [.table n, .table (n + 1)] rfl rfl rfl (Library.setmetatable_done ?_) ?_
  · simp [hn, Heap.metamethod, Heap.metatable?, Heap.table_filed, Table.empty]
  have hstay : CellsStay m.heap.cells cells₃ := hstay₁.trans (hstay₂.trans hstay₃)
  refine Exec.getUpvalue (x := .table frozen) rfl (hstay _ _ (hups 3 _ rfl)) rfl ?_
  have hold : frozen ≠ n ∧ frozen ≠ n + 1 := by omega
  refine Exec.setTable (.bool true) rfl rfl rfl rfl (fun _ => Act.setIndex_filed trivial fun i hi => ?_) ?_
  · simp [hn, hold, Heap.table_filed, Heap.table_withMeta] at hi
    obtain ⟨hlt, hnone⟩ := hopen i hi
    have hother : i ≠ n ∧ i ≠ n + 1 := by omega
    simp [hn, hother, Heap.table_filed, Heap.table_withMeta, hnone]
  refine Exec.returns [.table n] (a := 2) rfl rfl hshares₃ hstay rfl rfl fun cells hstay hkeeps m' hm' =>
    ⟨_, a, b, c, ⟨?_, fun i => ?_, hstay, ?_, ?_⟩, ?_, ?_, ?_, hn ▸ hm'⟩
  · simp [hn]
  · simp only [filed_withCells, filed_withClosure, withMeta_withCells, withMeta_withClosure, Heap.table_withCells,
      Heap.table_withClosure]
    subst hk hn
    exact table_filed_withFront (readOnlyFields inner _) (.bool true) rfl hlow i
  · rw [← Array.toList_inj]
    simp
  · simp
  · exact hkeeps a _ _ (ha.mono fun s hs => hkept₃ s (hkept₂ s hs)) hups rfl
  · subst hn
    exact hkeeps b _ _ (hb.mono hkept₃) hups rfl
  · exact hkeeps c _ _ hc hups rfl

/-- The fields of the metatable of an environment. -/
def environmentFields (host assign : Nat) : List (String × Value) :=
  [("__index", .table host), ("__newindex", .closure assign), ("__metatable", .bool false)]

/-- **An environment** is made in front of the table of bound names. -/
theorem environment_spec {m : Machine σ} (hm : m.interval = 0) {id host hosts : Nat} {p : Proto}
    {upvalues : Array Nat} (hclosure : m.heap.closures[id]? = some ⟨Prelude.environment p, upvalues⟩)
    (hups : Keeps m.heap.cells upvalues
      [builtin .setmetatable, builtin .rawget, builtin .error, builtin .tostring, builtin .rawset, .table hosts])
    (hhosts : IsRegistry m.heap hosts) :
    Reaches 14 (m.start (.closure id) #[.table host]) fun m' => ∃ h a,
      Guarded m.heap h (environmentFields host m.heap.closures.size) hosts (.table host) [⟨Prelude.assign p, a⟩] ∧
      Keeps h.cells a [builtin .rawget, .table host, builtin .error, builtin .tostring, builtin .rawset] ∧
      Answers (m.start (.closure id) #[.table host]) h (.values #[.table m.heap.tables.size]) m' := by
  obtain ⟨n, hn⟩ : ∃ n, m.heap.tables.size = n := ⟨_, rfl⟩
  obtain ⟨k, hk⟩ : ∃ k, m.heap.closures.size = k := ⟨_, rfl⟩
  obtain ⟨hlow, hopen⟩ := hhosts
  rw [hn] at hlow hopen
  refine Reaches.enter (canEnter_start hm _ _ rfl rfl) rfl (start_heap m _ _) hclosure fun junk hjunk => ?_
  match junk, hjunk with
  | [r1, r2, r3, r4, r5], _ =>
  refine Exec.newTable n rfl hn rfl ?_
  refine Exec.getUpvalue rfl (hups 0 _ rfl) rfl ?_
  refine Exec.move rfl rfl rfl ?_
  refine Exec.newTable (n + 1) rfl (by simp [hn]) rfl ?_
  refine Exec.setField (.ofString "__index") (.table host) rfl rfl rfl rfl (fun _ => Act.setIndex_filed trivial ?_) ?_
  · simp [hn, Table.empty]
  refine Exec.makes (p := 0) (Prelude.assign p) k rfl rfl hk (Shares.none _ 6 m.heap.cells) (Nat.le_refl _) rfl rfl
    fun a cells₁ opened₁ hshares₁ ha hkept₁ hstay₁ hfirst₁ => ?_
  refine Exec.setField (.ofString "__newindex") (.closure k) rfl rfl rfl rfl (fun _ => Act.setIndex_filed trivial ?_) ?_
  · simp [hn, Heap.table_filed, Table.empty]
  refine Exec.setField (.ofString "__metatable") (.bool false) rfl rfl rfl rfl
    (fun _ => Act.setIndex_filed trivial ?_) ?_
  · simp [hn, Heap.table_filed, Table.empty]
  refine Exec.call_done [.table n, .table (n + 1)] rfl rfl rfl (Library.setmetatable_done ?_) ?_
  · simp [hn, Heap.metamethod, Heap.metatable?, Heap.table_filed, Table.empty]
  refine Exec.getUpvalue (x := .table hosts) rfl (hstay₁ _ _ (hups 5 _ rfl)) rfl ?_
  have hold : hosts ≠ n ∧ hosts ≠ n + 1 := by omega
  refine Exec.setTable (.table host) rfl rfl rfl rfl (fun _ => Act.setIndex_filed trivial fun i hi => ?_) ?_
  · simp [hn, hold, Heap.table_filed, Heap.table_withMeta] at hi
    obtain ⟨hlt, hnone⟩ := hopen i hi
    have hother : i ≠ n ∧ i ≠ n + 1 := by omega
    simp [hn, hother, Heap.table_filed, Heap.table_withMeta, hnone]
  refine Exec.returns [.table n] (a := 1) rfl rfl hshares₁ hstay₁ rfl rfl fun cells hstay hkeeps m' hm' =>
    ⟨_, a, ⟨?_, fun i => ?_, hstay, ?_, ?_⟩, ?_, hn ▸ hm'⟩
  · simp [hn]
  · simp only [filed_withCells, filed_withClosure, withMeta_withCells, withMeta_withClosure, Heap.table_withCells,
      Heap.table_withClosure]
    subst hk hn
    exact table_filed_withFront (environmentFields host _) (.table host) rfl hlow i
  · simp
  · simp
  · exact hkeeps a _ _ ha hups rfl

end

end ScriptHost

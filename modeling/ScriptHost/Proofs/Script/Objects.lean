import ScriptHost.Proofs.Script.Table
import ScriptHost.Script.Library

/-!
# Making and changing objects

What the script's operations on tables make of the heap, when no metatable has a say.

* `Heap.withTable`, `Heap.filed`, `Heap.withMeta` — a new table, a value filed in one, a table with a metatable;
* `Heap.WellFormed` — all tables are maps;
* `index_found`, `index_missing`, `setIndex_filed` — reading and writing a field that no metatable has a say in;
* `setmetatable_done`, `rawget_done` … — the functions of the base library.
-/

namespace ScriptHost.Script

namespace Heap

/-- The objects with another table. -/
def withTable (h : Heap) (t : Table) : Heap := { h with tables := h.tables.push t }

/-- The objects after a value was filed in a table past its metatable. -/
def filed (h : Heap) (id : Nat) (k x : Value) : Heap := { h with tables := fileIn h.tables id k x }

/-- The objects after a table got a metatable. -/
def withMeta (h : Heap) (id m : Nat) : Heap := h.onTable id fun t => { t with metatable := some m }

/-- The objects with other cells. -/
def withCells (h : Heap) (cells : Array Cell) : Heap := { h with cells }

/-- The objects with another function. -/
def withClosure (h : Heap) (c : Closure) : Heap := { h with closures := h.closures.push c }

/-- All tables are maps. -/
def WellFormed (h : Heap) : Prop := ∀ i, (h.table i).WellFormed

section
variable (h : Heap)

theorem table_push (tables : Array Table) (t : Table) (i : Nat) :
    (tables.push t).getD i default = if i = tables.size then t else tables.getD i default := by
  rw [Array.getD_eq_getD_getElem?, Array.getElem?_push]
  by_cases hi : i = tables.size
  · rw [if_pos hi, if_pos hi]
    rfl
  · rw [if_neg hi, if_neg hi, Array.getD_eq_getD_getElem?]

@[simp] theorem table_withTable (t : Table) (i : Nat) :
    (h.withTable t).table i = if i = h.tables.size then t else h.table i :=
  table_push h.tables t i

@[simp] theorem size_withTable (t : Table) : (h.withTable t).tables.size = h.tables.size + 1 := Array.size_push t

theorem table_modify (tables : Array Table) (id : Nat) (f : Table → Table) (i : Nat) :
    (tables.modify id f).getD i default
      = if i = id ∧ id < tables.size then f (tables.getD i default) else tables.getD i default := by
  rw [Array.getD_eq_getD_getElem?, Array.getElem?_modify, Array.getD_eq_getD_getElem?]
  by_cases hi : id = i
  · subst hi
    rw [if_pos rfl]
    by_cases hlt : id < tables.size
    · rw [if_pos ⟨rfl, hlt⟩, Array.getElem?_eq_getElem hlt]
      rfl
    · rw [if_neg fun h => hlt h.2, Array.getElem?_eq_none (Nat.le_of_not_lt hlt)]
      rfl
  · rw [if_neg hi, if_neg fun h => hi h.1.symm]

@[simp] theorem size_filed (id : Nat) (k x : Value) : (h.filed id k x).tables.size = h.tables.size :=
  Array.size_modify

theorem table_filed (id : Nat) (k x : Value) (i : Nat) :
    (h.filed id k x).table i = if i = id ∧ id < h.tables.size then (h.table i).set k x else h.table i :=
  table_modify h.tables id _ i

@[simp] theorem size_withMeta (id m : Nat) : (h.withMeta id m).tables.size = h.tables.size := Array.size_modify

theorem table_withMeta (id m i : Nat) :
    (h.withMeta id m).table i
      = if i = id ∧ id < h.tables.size then { h.table i with metatable := some m } else h.table i :=
  table_modify h.tables id _ i

@[simp] theorem tables_withCells (cells : Array Cell) : (h.withCells cells).tables = h.tables := rfl

@[simp] theorem table_withCells (cells : Array Cell) (i : Nat) : (h.withCells cells).table i = h.table i := rfl

@[simp] theorem tables_withClosure (c : Closure) : (h.withClosure c).tables = h.tables := rfl

@[simp] theorem table_withClosure (c : Closure) (i : Nat) : (h.withClosure c).table i = h.table i := rfl

@[simp] theorem closures_withTable (t : Table) : (h.withTable t).closures = h.closures := rfl

@[simp] theorem closures_filed (id : Nat) (k x : Value) : (h.filed id k x).closures = h.closures := rfl

@[simp] theorem closures_withMeta (id m : Nat) : (h.withMeta id m).closures = h.closures := rfl

@[simp] theorem closures_withCells (cells : Array Cell) : (h.withCells cells).closures = h.closures := rfl

@[simp] theorem closures_withClosure (c : Closure) : (h.withClosure c).closures = h.closures.push c := rfl

@[simp] theorem stringMeta_withTable (t : Table) : (h.withTable t).stringMeta = h.stringMeta := rfl

@[simp] theorem stringMeta_filed (id : Nat) (k x : Value) : (h.filed id k x).stringMeta = h.stringMeta := rfl

@[simp] theorem stringMeta_withMeta (id m : Nat) : (h.withMeta id m).stringMeta = h.stringMeta := rfl

@[simp] theorem stringMeta_withCells (cells : Array Cell) : (h.withCells cells).stringMeta = h.stringMeta := rfl

@[simp] theorem stringMeta_withClosure (c : Closure) : (h.withClosure c).stringMeta = h.stringMeta := rfl

variable {h}

theorem table_of_size_le {i : Nat} (hi : h.tables.size ≤ i) : h.table i = default := by
  rw [table, Array.getD_eq_getD_getElem?, Array.getElem?_eq_none hi]
  rfl

end

end Heap

/-- Whether a table is a map does not depend on its metatable. -/
theorem Table.WellFormed.withMeta {t : Table} (ht : t.WellFormed) (m : Option Nat) :
    Table.WellFormed { t with metatable := m } :=
  ⟨ht.index, ht.outside, ht.reach⟩

/-- Whether a table is a map does not depend on where the search for its length starts. -/
theorem Table.WellFormed.withHint {t : Table} (ht : t.WellFormed) (hint : Nat) :
    Table.WellFormed { t with hint } :=
  ⟨ht.index, ht.outside, ht.reach⟩

/-! ### Fields -/

/-- A key that a table takes. -/
def Value.IsKey : Value → Prop
  | .nil | .nan => False
  | .float x => x.isNaN = false
  | _ => True

namespace Act

section
variable {σ : Type} {h : Heap} {id : Nat} {k x : Value} {source : Source} {yieldable : Bool} {s : σ}

/-- Reading what a table has itself. -/
theorem index_found (hget : (h.table id).get k = x) (hx : x ≠ .nil) :
    index (.table id) k source yieldable h s = .done x h s := by
  rw [index, maxChain, indexFrom]
  subst hget
  cases hget : (h.table id).get k with
  | nil => exact absurd hget hx
  | _ => simp only [hget]

/-- Reading what a table does not have and its metatable says nothing of. -/
theorem index_missing (hget : (h.table id).get k = .nil)
    (hmeta : ∀ m, (h.table id).metatable = some m → (h.table m).getStr (Bytes.ofString "__index") = .nil) :
    index (.table id) k source yieldable h s = .done .nil h s := by
  rw [index, maxChain, indexFrom]
  simp only [hget]
  cases hm : (h.table id).metatable with
  | none => rfl
  | some m => simp only [hmeta m hm]

theorem rawSet_filed (hk : k.IsKey) : rawSet id k x h s = .done () (h.filed id k x) s := by
  cases k with
  | nil => exact hk.elim
  | nan => exact hk.elim
  | float x =>
    rw [rawSet, show x.isNaN = false from hk]
    rfl
  | _ => rfl

/-- Writing to a table whose metatable says nothing of it. -/
theorem setIndex_filed (hk : k.IsKey)
    (hmeta : ∀ m, (h.table id).metatable = some m →
      (h.table id).get k ≠ .nil ∨ (h.table m).getStr (Bytes.ofString "__newindex") = .nil) :
    setIndex (.table id) k x source yieldable h s = .done () (h.filed id k x) s := by
  rw [setIndex, maxChain, setIndexFrom]
  cases hm : (h.table id).metatable with
  | none =>
    simp only [hm]
    exact rawSet_filed hk
  | some m =>
    cases hget : (h.table id).get k with
    | nil =>
      rcases hmeta m hm with hfound | hnothing
      · exact absurd hget hfound
      · simp only [hm, hget, hnothing]
        exact rawSet_filed hk
    | _ =>
      simp only [hm, hget]
      exact rawSet_filed hk

end

end Act

/-! ### Functions of the base library -/

namespace Library

section
variable {σ : Type} {h : Heap} {s : σ}

/-- Giving a metatable to a table whose present one is not protected. -/
theorem setmetatable_done {p q : Nat} (hfree : h.metamethod (.table p) (Bytes.ofString "__metatable") = .nil) :
    call .setmetatable #[.table p, .table q] h s = .done #[.table p] (h.withMeta p q) s := by
  have hfirst : Args.at' #[.table p, .table q] 1 = .table p := rfl
  have hsecond : Args.at' #[.table p, .table q] 2 = .table q := rfl
  simp only [call, baseSetMetatable, Args.table, hfirst, hsecond, metafield, Act.metamethod, Act.readHeap, Act.onHeap,
    bind, pure, Outcome.andThen, hfree]
  rfl

theorem rawget_done {id : Nat} {k : Value} :
    call .rawget #[.table id, k] h s = .done #[(h.table id).get k] h s := rfl

theorem rawset_done {id : Nat} {k v : Value} (hk : k.IsKey) :
    call .rawset #[.table id, k, v] h s = .done #[.table id] (h.filed id k v) s := by
  show (Outcome.andThen (Act.rawSet id k v h s) _ : Outcome σ (Array Value)) = _
  rw [Act.rawSet_filed hk]
  rfl

theorem error_raised {message : Bytes} {level : Int64} (hlevel : 0 < level) :
    call .error #[.str message, .int level] h s
      = .raised (.level level.toUInt64.toNat message) h s := by
  show raiseValue (.str message) level h s = _
  rw [raiseValue, if_pos hlevel]
  rfl

theorem tostring_str {t : Bytes} (hplain : h.metamethod (.str t) (Bytes.ofString "__tostring") = .nil) :
    call .tostring #[.str t] h s = .done #[.str t] h s := by
  have htext : Act.text (.str t) h s = .done t h s := by
    unfold Act.text
    show Outcome.andThen (.done (h.metamethod (.str t) (Bytes.ofString "__tostring")) h s) _ = _
    rw [hplain]
    rfl
  show Outcome.andThen (Act.text (.str t) h s) (fun t => pure #[Value.str t]) = _
  rw [htext]
  rfl

theorem length_table {id : Nat} {source : Source} {yieldable : Bool} (hplain : (h.table id).metatable = none) :
    Act.length (.table id) source yieldable h s
      = .done (.ofNat (h.table id).border.1) (h.onTable id fun _ => (h.table id).border.2) s := by
  have hmeta : h.metamethod (.table id) (Bytes.ofString "__len") = .nil := by
    rw [Heap.metamethod, Heap.metatable?]
    rw [hplain]
  simp only [Act.length, Act.metamethod, Act.readHeap, bind, Outcome.andThen, hmeta]
  rfl

end

end Library

end ScriptHost.Script

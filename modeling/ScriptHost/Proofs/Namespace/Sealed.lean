import ScriptHost.Proofs.Namespace.Capabilities
import ScriptHost.Proofs.Namespace.Keepers
import ScriptHost.Proofs.Script.Deeds

/-!
# Objects that stay sealed

A script gets hold of some of the objects of a frozen namespace and never of the others.  What it gets hold of is open; what
stays as it was is sealed.

* `Harmless` — what the host has before there is a namespace;
* `Ground` — a frozen namespace with accepted names;
* `Ground.Open`, `Ground.Tells` — the values that a script can get hold of, and what the metatables say that it never sees;
* `Ground.Sealed`, **`sealed`** — what stays, and that it holds at first;
* **`filed`**, **`fronted`**, **`withTable`**, **`withClosure`** — each change that a script can make to the objects keeps it.
-/

namespace ScriptHost

open ScriptHost.Script ScriptHost.Script.Machine Namespace

/-! ### The objects of a frozen namespace, key by key -/

/-- Values that were filed in an empty table under names. -/
theorem Script.Table.mem_of_find_setStrs {fields : List (String × Value)} {n : Nat} {k v : Value}
    (hfind : (fields.foldl (fun t (name, x) => t.setStr name x) (Table.empty 0 n)).find k = v) (hv : v ≠ .nil) :
    ∃ name, k = .ofString name ∧ (name, v) ∈ fields := by
  have hempty := wellFormed_empty 0 n
  by_cases hk : k ∈ fields.map fun x => Value.ofString x.1
  · obtain ⟨x, -, rfl⟩ := List.mem_map.mp hk
    refine ⟨x.1, rfl, List.mem_reverse.mp (mem_of_lookup ?_)⟩
    rw [find_setStrs fields hempty, find_empty] at hfind
    cases hlookup : fields.reverse.lookup x.1 with
    | none =>
      rw [hlookup] at hfind
      exact absurd hfind.symm hv
    | some w =>
      rw [hlookup] at hfind
      exact congrArg some hfind
  · rw [(setStrs_spec fields hempty).2.2.1 k hk, find_empty] at hfind
    exact absurd hfind.symm hv

theorem Script.Library.mem_of_find_tableOf {fields : List (String × Value)} {k v : Value}
    (hfind : (tableOf fields).find k = v) (hv : v ≠ .nil) : ∃ name, k = .ofString name ∧ (name, v) ∈ fields :=
  Table.mem_of_find_setStrs hfind hv

/-- A registry that knows more tables, key by key. -/
theorem find_registered (ids : List Nat) {t : Table} (ht : t.WellFormed) (k : Value) :
    (registered t ids).find k = if ∃ i ∈ ids, k = .table i then .bool true else t.find k := by
  induction ids generalizing t with
  | nil => simp [registered]
  | cons i rest ih =>
    refine (ih (Table.wellFormed_set ht _ _)).trans ?_
    rw [Table.find_set ht]
    by_cases hrest : ∃ j ∈ rest, k = .table j
    · rw [if_pos hrest, if_pos (hrest.imp fun j hj => ⟨List.mem_cons_of_mem i hj.1, hj.2⟩)]
    · rw [if_neg hrest]
      show (if k = .table i then _ else _) = _
      by_cases hk : k = .table i
      · rw [if_pos hk, if_pos ⟨i, List.mem_cons_self, hk⟩]
      · rw [if_neg hk, if_neg]
        rintro ⟨j, hj, rfl⟩
        rcases List.mem_cons.mp hj with rfl | hj
        · exact hk rfl
        · exact hrest ⟨j, hj, rfl⟩

theorem find_behind (m : Nat) (k : Value) : (behind m).find k = .nil := Table.find_empty 0 0 k

theorem wellFormed_behind (m : Nat) : (behind m).WellFormed := (Table.wellFormed_empty 0 0).withMeta (some m)

theorem guardedBy_of_not_mem {proxies : List (String × Nat)} (t : Table) (hnot : "string" ∉ proxies.map Prod.fst) :
    guardedBy t proxies = t := by
  induction proxies with
  | nil => rfl
  | cons x rest ih =>
    rw [List.map_cons, List.mem_cons, not_or] at hnot
    rw [guardedBy, List.foldl_cons, if_neg (Ne.symm hnot.1)]
    exact ih hnot.2

/-- The metatable of strings reads through the first library. -/
theorem guardedBy_libraries (t : Table) (n : Nat) (mode : Mode) :
    guardedBy t (proxies n mode.libraries) = guardedTexts t (n + 1) := by
  obtain ⟨rest, hrest, hnot⟩ : ∃ rest, mode.libraries = "string" :: rest ∧ "string" ∉ rest := by
    cases mode <;> exact ⟨_, rfl, by decide⟩
  rw [hrest, proxies, guardedBy, List.foldl_cons, if_pos rfl]
  refine guardedBy_of_not_mem _ ?_
  rwa [names_proxies]

/-- Beside what they read through, strings have the functions of arithmetic. -/
theorem find_textFields {index : Value} {event : String} (hindex : event ≠ "__index") {v : Value}
    (hfind : (Library.tableOf (textFields index)).find (.ofString event) = v) (hv : v ≠ .nil) :
    ∃ i, v = builtin (.strArith i) := by
  obtain ⟨name, hname, hmem⟩ := Library.mem_of_find_tableOf hfind hv
  obtain rfl := Table.ofString_inj hname
  rcases List.mem_cons.mp hmem with heq | hmem
  · exact absurd (Prod.ext_iff.mp heq).1 hindex
  · obtain ⟨x, -, heq⟩ := List.mem_map.mp hmem
    exact ⟨x.2, (Prod.ext_iff.mp heq).2.symm⟩

section
variable {p : Proto} {b : Builder} {l : Layout} {h : Heap}

/-- What the host binds is bound under a name. -/
theorem Frozen.mem_of_find (hfrozen : Frozen p b l h) {k v : Value} (hfind : (h.table l.host).find k = v) (hv : v ≠ .nil) :
    ∃ name, k = .ofString name ∧ (name, v) ∈ boundFields b l := by
  obtain ⟨n, hbound⟩ := hfrozen.bound
  rw [hbound] at hfind
  exact Table.mem_of_find_setStrs hfind hv

/-- The metatable of strings, event by event. -/
theorem Frozen.find_texts (hfrozen : Frozen p b l h) : ∃ index, ∀ event, (h.table l.texts).find (.ofString event)
    = if event = "__metatable" then .bool false
      else if event = "__index" then .table (l.copies + 1)
      else (Library.tableOf (textFields index)).find (.ofString event) := by
  obtain ⟨index, htexts⟩ := hfrozen.texts
  refine ⟨index, fun event => ?_⟩
  have hplain := Library.tableOf_wellFormed (textFields index)
  rw [htexts, guardedBy_libraries, guardedTexts, Table.setStr, Table.setStr, Table.find_set (Table.wellFormed_set hplain _ _),
    Table.find_set hplain, Table.asKey_ofString, Table.asKey_ofString]
  by_cases hmeta : event = "__metatable"
  · rw [if_pos hmeta, if_pos (congrArg Value.ofString hmeta)]
  · rw [if_neg hmeta, if_neg fun heq => hmeta (Table.ofString_inj heq)]
    by_cases hindex : event = "__index"
    · rw [if_pos hindex, if_pos (congrArg Value.ofString hindex)]
    · rw [if_neg hindex, if_neg fun heq => hindex (Table.ofString_inj heq)]

end

/-! ### What a script can get hold of -/

/-- What the host has before there is a namespace leads a script to nothing that it may not get hold of: tables hold and
functions keep such values only. -/
structure Harmless (h : Heap) : Prop where
  wellFormed : ∀ i < h.tables.size, (h.table i).WellFormed
  contents : ∀ i < h.tables.size, ∀ k v, (h.table i).find k = v → v ≠ .nil → IsForeign h k ∧ IsForeign h v
  fronts : ∀ i < h.tables.size, ∀ m, (h.table i).metatable = some m → m < h.tables.size
  kept : ∀ (i : Nat) (c : Closure), h.closures[i]? = some c → ∀ u ∈ c.upvalues, ∀ v,
    h.cells[u]? = some (.closed v) → IsForeign h v
  /-- The metatable of strings is not among it. -/
  strings : h.stringMeta = none

/-- A frozen namespace, and what it was made from. -/
structure Ground where
  code : Proto
  builder : Builder
  layout : Layout
  /-- What the host had before. -/
  before : Heap
  heap : Heap
  frozen : Frozen code builder layout heap
  accepted : Accepted builder
  spares : Spares layout before heap
  harmless : Harmless before
  foreign : ∀ x ∈ builder.bindings, IsForeign before x.2

namespace Ground

variable (g : Ground)

/-- How many libraries there are. -/
def count : Nat := g.builder.mode.libraries.length

/-- The function that resumes threads, as scripts get it. -/
def resume : Value := guardedResume (g.layout.helpers + 6) (vmResume g.builder.mode)

/-- The tables with which a script does as it likes: those that the host had before, and those that are made later. -/
abbrev Loose (i : Nat) : Prop := i < g.before.tables.size ∨ g.layout.env + 1 < i

/-- The tables that a script can get hold of: the environment, the read-only tables and the loose ones. -/
def Shown (i : Nat) : Prop :=
  i = g.layout.env ∨ (∃ j < g.count, i = g.layout.copies + 3 * j + 1) ∨ g.Loose i

/-- The tables that a script reads through others. -/
def Behind (i : Nat) : Prop := i = g.layout.host ∨ ∃ j < g.count, i = g.layout.copies + 3 * j

/-- The values that a script can get hold of. -/
def Open : Value → Prop
  | .table i => g.Shown i
  | .closure i => g.layout.helpers + 2 ≤ i ∧ i < g.layout.refuse ∨ i < g.before.closures.size ∨ g.layout.assign < i
  | .native f => f ≠ .builtin .rawset
  | _ => True

/-- A metatable that no script sees says this of an event. -/
inductive Tells : Value → String → Value → Prop
  | bound : Tells (.table g.layout.env) "__index" (.table g.layout.host)
  | assign : Tells (.table g.layout.env) "__newindex" (.closure g.layout.assign)
  | member (j : Nat) (hj : j < g.count) :
      Tells (.table (g.layout.copies + 3 * j + 1)) "__index" (.table (g.layout.copies + 3 * j))
  | refuse (j : Nat) (hj : j < g.count) :
      Tells (.table (g.layout.copies + 3 * j + 1)) "__newindex" (.closure (g.layout.refuse + 3 * j))
  | traverse (j : Nat) (hj : j < g.count) :
      Tells (.table (g.layout.copies + 3 * j + 1)) "__pairs" (.closure (g.layout.refuse + 3 * j + 1))
  | measure (j : Nat) (hj : j < g.count) :
      Tells (.table (g.layout.copies + 3 * j + 1)) "__len" (.closure (g.layout.refuse + 3 * j + 2))

variable {g}

@[simp] theorem open_nil : g.Open .nil := trivial

@[simp] theorem open_bool (b : Bool) : g.Open (.bool b) := trivial

@[simp] theorem open_builtin (b : Builtin) : g.Open (builtin b) ↔ b ≠ .rawset := by simp [Open]

/-- Where the objects are. -/
theorem order : g.layout.texts < g.layout.frozen ∧ g.layout.frozen + 1 < g.layout.hosts ∧
    g.layout.hosts + 1 < g.layout.host ∧ g.layout.host < g.layout.copies ∧
    g.layout.copies + 3 * g.count = g.layout.env ∧ g.heap.tables.size = g.layout.env + 2 ∧
    g.layout.helpers + 5 < g.layout.refuse ∧ g.layout.refuse + 3 * g.count = g.layout.assign ∧
    g.heap.closures.size = g.layout.assign + 1 ∧
    g.before.tables.size ≤ g.layout.texts ∧ g.before.closures.size ≤ g.layout.helpers :=
  have hfrozen := g.frozen
  ⟨hfrozen.order.1, hfrozen.order.2.1, hfrozen.order.2.2.1, hfrozen.order.2.2.2, hfrozen.env, hfrozen.size,
    hfrozen.passes.low.1, hfrozen.made.1, hfrozen.made.2, g.spares.low.1, g.spares.low.2⟩

theorem library (j : Nat) (hj : j < g.count) : ∃ name ∈ g.builder.mode.libraries,
    IsLibrary g.code g.heap g.resume name (g.layout.copies + 3 * j) (g.layout.refuse + 3 * j) := by
  have hname := List.getElem?_eq_getElem (l := g.builder.mode.libraries) hj
  exact ⟨_, List.getElem_mem hj, g.frozen.library j _ hname⟩

theorem open_of_isForeign {v : Value} (hv : IsForeign g.before v) : g.Open v := by
  cases v with
  | table i => exact .inr (.inr (.inl hv))
  | closure i => exact .inr (.inl hv)
  | native f => exact hv
  | _ => trivial

theorem open_of_isOwn {v : Value} (hv : IsOwn g.builder.mode g.layout v) : g.Open v := by
  have horder := g.order
  cases hv with
  | version => trivial
  | builtin name f hmem hname =>
    have hall : ∀ x ∈ Builtin.base, x.1 ∈ baseNames → x.2 ≠ .rawset := by decide +kernel
    exact fun heq => hall _ hmem hname (NativeRef.builtin.inj heq)
  | guarded i hi => exact .inl ⟨by omega, by omega⟩
  | library i hi => exact .inr (.inl ⟨i, hi, rfl⟩)
  | environment => exact .inl rfl

/-- A member of a library that is neither a table nor a function of a script, nor writes past metatables. -/
def isPlainMember : Value → Bool
  | .table _ | .closure _ | .native (.builtin .rawset) => false
  | _ => true

theorem open_of_isPlainMember {v : Value} (hv : isPlainMember v = true) : g.Open v := by
  cases v with
  | table i => cases hv
  | closure i => cases hv
  | native f =>
    rintro rfl
    cases hv
  | _ => trivial

theorem open_resume : g.Open g.resume := by
  have horder := g.order
  have hresumes := g.frozen.passes.resumes
  rw [resume, guardedResume]
  split
  · rename_i hthreads
    have hlast := hresumes hthreads
    exact .inl ⟨by omega, by omega⟩
  · trivial

/-- What a script reads through other tables is open, and filed under names. -/
theorem open_behind {i : Nat} (hi : g.Behind i) {k v : Value} (hfind : (g.heap.table i).find k = v) (hv : v ≠ .nil) :
    (∃ name, k = .ofString name) ∧ g.Open v := by
  rcases hi with rfl | ⟨j, hj, rfl⟩
  · obtain ⟨name, rfl, hmem⟩ := g.frozen.mem_of_find hfind hv
    refine ⟨⟨name, rfl⟩, ?_⟩
    rcases isOwn_or_mem hmem with hbinding | hown
    · exact open_of_isForeign (g.foreign _ hbinding)
    · exact open_of_isOwn hown
  · obtain ⟨library, hlibrary, his⟩ := g.library j hj
    rw [his.members] at hfind
    obtain ⟨name, rfl, hmem⟩ := Library.mem_of_find_tableOf hfind hv
    obtain ⟨w, hmember, -, heq⟩ := mem_offered.mp hmem
    refine ⟨⟨name, rfl⟩, ?_⟩
    rw [show v = _ from heq]
    split
    · exact open_resume
    · have hall : ∀ library ∈ Mode.libraries .privileged, ∀ x ∈ Library.members library, isPlainMember x.2 = true := by
        decide +kernel
      have hprivileged : library ∈ Mode.libraries .privileged := by
        cases hmode : g.builder.mode with
        | restricted =>
          rw [hmode] at hlibrary
          exact List.mem_append_left _ hlibrary
        | privileged => rwa [hmode] at hlibrary
      exact open_of_isPlainMember (hall library hprivileged _ hmember)

/-- What the metatable of strings says is open. -/
theorem open_texts {event : String} {v : Value} (hfind : (g.heap.table g.layout.texts).find (.ofString event) = v) :
    g.Open v := by
  obtain ⟨index, htexts⟩ := g.frozen.find_texts
  have hfirst : 0 < g.count := by
    rw [count]
    cases g.builder.mode <;> decide
  rw [htexts] at hfind
  subst hfind
  split
  · trivial
  · split
    · exact .inr (.inl ⟨0, hfirst, rfl⟩)
    · rename_i hindex
      generalize hv : (Library.tableOf (textFields index)).find (.ofString event) = v
      by_cases hnil : v = .nil
      · rw [hnil]
        trivial
      · obtain ⟨i, rfl⟩ := find_textFields hindex hv hnil
        exact nofun

/-! ### What stays -/

/-- The objects are those of the namespace, as far as a script can tell; the given functions are the script's own. -/
structure Sealed (g : Ground) (own : Nat → Prop) (h : Heap) : Prop where
  size : g.heap.tables.size ≤ h.tables.size
  metatable : ∀ i, g.before.tables.size ≤ i → i < g.heap.tables.size → (h.table i).metatable = (g.heap.table i).metatable
  find : ∀ i, g.before.tables.size ≤ i → i < g.heap.tables.size → i ≠ g.layout.env → ∀ k,
    (h.table i).find k = (g.heap.table i).find k
  wellFormed : ∀ i, g.Shown i ∨ g.Behind i → (h.table i).WellFormed
  /-- The environment hides nothing that the host binds. -/
  unshadowed : ∀ k, (g.heap.table g.layout.host).find k ≠ .nil → (h.table g.layout.env).find k = .nil
  contents : ∀ i, g.Shown i → ∀ k v, (h.table i).find k = v → v ≠ .nil → g.Open k ∧ g.Open v
  fronts : ∀ i m, g.Loose i → (h.table i).metatable = some m → g.Open (.table m)
  strings : h.stringMeta = g.heap.stringMeta
  closures : ∀ (i : Nat) (c : Closure), g.heap.closures[i]? = some c → h.closures[i]? = some c
  cells : CellsStay g.heap.cells h.cells
  /-- Functions that were made since are the script's own, or steps of traversals. -/
  steps : ∀ (i : Nat) (c : Closure), g.layout.assign < i → h.closures[i]? = some c → own i ∨ ∃ j < g.count,
    c.proto = Prelude.traverseStep g.code ∧ Keeps h.cells c.upvalues [builtin .next, .table (g.layout.copies + 3 * j)]
  /-- What the functions do that the host had before is up to the script, too. -/
  hosts : ∀ i < g.before.closures.size, own i
  own : ∀ i, own i → (i < g.before.closures.size ∨ g.layout.assign < i) ∧ i < h.closures.size

theorem wellFormed_default : (default : Table).WellFormed :=
  Table.wellFormed_empty 0 0

theorem find_default (k : Value) : (default : Table).find k = .nil := Table.find_empty 0 0 k

/-- The tables that the host had before are as they were. -/
theorem table_before {i : Nat} (hi : i < g.before.tables.size) : g.heap.table i = g.before.table i :=
  g.spares.later.table i hi List.not_mem_nil

/-- The environment and the read-only tables have nothing themselves, and what the other tables have is open. -/
theorem shown_at_first {i : Nat} (hi : g.Shown i) : (g.heap.table i).WellFormed ∧
    ∀ k, (g.heap.table i).find k ≠ .nil → i < g.before.tables.size ∧ g.Open k ∧ g.Open ((g.heap.table i).find k) := by
  have horder := g.order
  have hnone {i : Nat} {t : Table} (hnone : ∀ k, t.find k = .nil) (k : Value) (hk : t.find k ≠ .nil) :
      i < g.before.tables.size ∧ g.Open k ∧ g.Open (t.find k) := absurd (hnone k) hk
  rcases hi with rfl | ⟨j, hj, rfl⟩ | hi | hi
  · rw [g.frozen.environment]
    exact ⟨wellFormed_behind _, hnone (find_behind _)⟩
  · obtain ⟨name, -, hlibrary⟩ := g.library j hj
    rw [hlibrary.proxy]
    exact ⟨wellFormed_behind _, hnone (find_behind _)⟩
  · rw [table_before hi]
    refine ⟨g.harmless.wellFormed i hi, fun k hk => ⟨hi, ?_⟩⟩
    have hforeign := g.harmless.contents i hi k _ rfl hk
    exact ⟨open_of_isForeign hforeign.1, open_of_isForeign hforeign.2⟩
  · rw [Heap.table_of_size_le (by omega)]
    exact ⟨wellFormed_default, hnone find_default⟩

/-- The environment, or a read-only table, has nothing itself. -/
theorem empty_of_shown {i : Nat} (hi : g.Shown i) (hnew : g.before.tables.size ≤ i) (k : Value) :
    (g.heap.table i).find k = .nil := by
  by_contra hk
  have hold := ((shown_at_first hi).2 k hk).1
  omega

theorem wellFormed_of_behind {i : Nat} (hi : g.Behind i) : (g.heap.table i).WellFormed := by
  rcases hi with rfl | ⟨j, hj, rfl⟩
  · obtain ⟨n, hbound⟩ := g.frozen.bound
    rw [hbound]
    exact (Table.setStrs_spec _ (Table.wellFormed_empty 0 n)).1
  · obtain ⟨name, -, hlibrary⟩ := g.library j hj
    rw [hlibrary.members]
    exact Library.tableOf_wellFormed _

/-- **A frozen namespace is sealed.** -/
theorem sealed (g : Ground) : Sealed g (fun i => i < g.before.closures.size) g.heap where
  size := Nat.le_refl _
  metatable _ _ _ := rfl
  find _ _ _ _ _ := rfl
  wellFormed i hi := hi.elim (fun hshown => (shown_at_first hshown).1) wellFormed_of_behind
  unshadowed k _ := by
    have horder := g.order
    exact empty_of_shown (.inl rfl) (by omega) k
  contents i hi k v hfind hv := by
    subst hfind
    exact ((shown_at_first hi).2 k hv).2
  fronts i m hi hmeta := by
    have horder := g.order
    rcases hi with hi | hi
    · rw [table_before hi] at hmeta
      exact .inr (.inr (.inl (g.harmless.fronts i hi m hmeta)))
    · rw [Heap.table_of_size_le (by omega)] at hmeta
      cases hmeta
  strings := rfl
  closures _ _ hc := hc
  cells := CellsStay.refl _
  steps i c hi hc := by
    have horder := g.order
    have hlow := (Array.getElem?_eq_some_iff.mp hc).1
    omega
  hosts _ hi := hi
  own i hi := by
    have horder := g.order
    omega

namespace Sealed

variable {own : Nat → Prop} {h : Heap}

/-- A table is changed, in a way that a script may. -/
theorem onTable (hs : Sealed g own h) {id : Nat} {f : Table → Table} (hid : g.Shown id ∨ g.Behind id)
    (hwell : (f (h.table id)).WellFormed)
    (hmeta : ¬ g.Loose id → (f (h.table id)).metatable = (h.table id).metatable)
    (hfront : ∀ m, g.Loose id → (f (h.table id)).metatable = some m → g.Open (.table m))
    (hfind : ¬ g.Loose id → id ≠ g.layout.env → ∀ k, (f (h.table id)).find k = (h.table id).find k)
    (henv : id = g.layout.env → ∀ k, (g.heap.table g.layout.host).find k ≠ .nil → (f (h.table id)).find k = .nil)
    (hcontents : g.Shown id → ∀ k v, (f (h.table id)).find k = v → v ≠ .nil → g.Open k ∧ g.Open v) :
    Sealed g own (h.onTable id f) := by
  have horder := g.order
  -- one table at most is another one
  have htable (i : Nat) : (h.onTable id f).table i = h.table i ∨ i = id ∧ (h.onTable id f).table i = f (h.table id) := by
    rw [show (h.onTable id f).table i = _ from Heap.table_modify h.tables id f i]
    split
    · rename_i hi
      obtain rfl := hi.1
      exact .inr ⟨rfl, rfl⟩
    · exact .inl rfl
  refine
    { size := ?_
      metatable := fun i hnew hi => ?_
      find := fun i hnew hi hne k => ?_
      wellFormed := fun i hi => ?_
      unshadowed := fun k hk => ?_
      contents := fun i hi k v hv => ?_
      fronts := fun i m hi hm => ?_
      strings := hs.strings
      closures := hs.closures
      cells := hs.cells
      steps := hs.steps
      hosts := hs.hosts
      own := hs.own }
  · rw [show (h.onTable id f).tables.size = h.tables.size from Array.size_modify]
    exact hs.size
  · rcases htable i with heq | ⟨rfl, heq⟩
    · rw [heq, hs.metatable i hnew hi]
    · rw [heq, hmeta (by omega), hs.metatable i hnew hi]
  · rcases htable i with heq | ⟨rfl, heq⟩
    · rw [heq, hs.find i hnew hi hne k]
    · rw [heq, hfind (by omega) hne, hs.find i hnew hi hne k]
  · rcases htable i with heq | ⟨rfl, heq⟩
    · rw [heq]
      exact hs.wellFormed i hi
    · rw [heq]
      exact hwell
  · rcases htable g.layout.env with heq | ⟨hid, heq⟩
    · rw [heq]
      exact hs.unshadowed k hk
    · rw [heq]
      exact henv hid.symm k hk
  · rcases htable i with heq | ⟨rfl, heq⟩
    · rw [heq] at hv
      exact hs.contents i hi k v hv
    · rw [heq] at hv
      exact hcontents hi k v hv
  · rcases htable i with heq | ⟨rfl, heq⟩
    · rw [heq] at hm
      exact hs.fronts i m hi hm
    · rw [heq] at hm
      exact hfront m hi hm

/-- A table that a script may write to under a key: a loose one, or the environment if the host binds nothing there. -/
def Writable (g : Ground) (id : Nat) (k : Value) : Prop :=
  g.Loose id ∨ id = g.layout.env ∧ (g.heap.table g.layout.host).find k.asKey = .nil

theorem open_asKey {k : Value} (hk : g.Open k) : g.Open k.asKey := by
  cases k with
  | float x =>
    rw [Value.asKey]
    split <;> trivial
  | _ => exact hk

/-- **Filing a value** where a script may. -/
theorem filed (hs : Sealed g own h) {id : Nat} {k v : Value} (hid : Writable g id k) (hk : g.Open k) (hv : g.Open v) :
    Sealed g own (h.filed id k v) := by
  have horder := g.order
  have hshown : g.Shown id := by
    rcases hid with hid | ⟨rfl, -⟩
    · exact .inr (.inr hid)
    · exact .inl rfl
  have hwell := hs.wellFormed id (.inl hshown)
  have hfind (key : Value) := Table.find_set hwell k v key
  refine hs.onTable (f := fun t => t.set k v) (.inl hshown) (Table.wellFormed_set hwell k v)
    (fun _ => Table.metatable_set ..) (fun m hloose hm => ?_) (fun hfixed hne => ?_) (fun henv key hkey => ?_)
    fun _ key x hx hne => ?_
  · rw [Table.metatable_set] at hm
    exact hs.fronts id m hloose hm
  · rcases hid with hid | ⟨rfl, -⟩
    · exact absurd hid hfixed
    · exact absurd rfl hne
  · rw [hfind]
    split
    · rename_i heq
      rcases hid with hid | ⟨-, hfree⟩
      · omega
      · exact absurd (heq ▸ hfree) hkey
    · rw [henv]
      exact hs.unshadowed key hkey
  · rw [hfind] at hx
    split at hx
    · rename_i heq
      rw [heq, ← hx]
      exact ⟨open_asKey hk, hv⟩
    · exact hs.contents id hshown key x hx hne

/-- **Measuring a table** that a script reads. -/
theorem measured (hs : Sealed g own h) {id : Nat} (hid : g.Shown id ∨ g.Behind id) :
    Sealed g own (h.onTable id fun _ => (h.table id).border.2) := by
  obtain ⟨hint, hborder⟩ := Table.exists_border_eq (h.table id)
  rw [hborder]
  exact hs.onTable hid ((hs.wellFormed id hid).withHint hint) (fun _ => rfl) (fun m hloose hm => hs.fronts id m hloose hm)
    (fun _ _ _ => rfl) (fun henv k hk => henv ▸ hs.unshadowed k hk) fun hshown k v hv => hs.contents id hshown k v hv

/-- **Giving a metatable** to a loose table. -/
theorem fronted (hs : Sealed g own h) {id : Nat} (hid : g.Loose id) {m : Option Nat}
    (hm : ∀ i, m = some i → g.Open (.table i)) : Sealed g own (h.onTable id fun t => { t with metatable := m }) := by
  have horder := g.order
  have hshown : g.Shown id := .inr (.inr hid)
  exact hs.onTable (.inl hshown) ((hs.wellFormed id (.inl hshown)).withMeta m) (fun hfixed => absurd hid hfixed)
    (fun i _ hi => hm i hi) (fun hfixed => absurd hid hfixed) (fun henv => by omega) fun _ k v hv => hs.contents id hshown k v hv

/-- **Making a table.** -/
theorem withTable (hs : Sealed g own h) (arraySize entryCount : Nat) :
    Sealed g own (h.withTable (Table.empty arraySize entryCount)) := by
  have horder := g.order
  have hsize := hs.size
  have hnew := Heap.table_withTable h (Table.empty arraySize entryCount)
  have hold (i : Nat) (hi : i < g.heap.tables.size) :
      (h.withTable (Table.empty arraySize entryCount)).table i = h.table i := by
    rw [hnew, if_neg (by omega)]
  refine
    { size := by rw [Heap.size_withTable]; omega
      metatable := fun i hnew hi => by rw [hold i hi, hs.metatable i hnew hi]
      find := fun i hnew hi hne k => by rw [hold i hi, hs.find i hnew hi hne k]
      wellFormed := fun i hi => ?_
      unshadowed := fun k hk => by rw [hold _ (by omega), hs.unshadowed k hk]
      contents := fun i hi k v hv hne => ?_
      fronts := fun i m hi hm => ?_
      strings := hs.strings
      closures := hs.closures
      cells := hs.cells
      steps := hs.steps
      hosts := hs.hosts
      own := hs.own }
  · rw [hnew]
    split
    · exact Table.wellFormed_empty ..
    · exact hs.wellFormed i hi
  · rw [hnew] at hv
    split at hv
    · exact absurd (hv.symm.trans (Table.find_empty ..)) hne
    · exact hs.contents i hi k v hv hne
  · rw [hnew] at hm
    split at hm
    · cases hm
    · exact hs.fronts i m hi hm

/-- **Making a function**: one of the script's own, or a step of a traversal. -/
theorem withClosure (hs : Sealed g own h) (c : Closure) {own' : Nat → Prop}
    (hold : ∀ i, own i → own' i) (hnew : ∀ i, own' i → own i ∨ i = h.closures.size)
    (hc : own' h.closures.size ∨ ∃ j < g.count, c.proto = Prelude.traverseStep g.code ∧
      Keeps h.cells c.upvalues [builtin .next, .table (g.layout.copies + 3 * j)]) : Sealed g own' (h.withClosure c) := by
  have horder := g.order
  have hlow : g.layout.assign < h.closures.size := by
    have hlast := hs.closures g.layout.assign _ (Array.getElem?_eq_getElem (by omega))
    exact (Array.getElem?_eq_some_iff.mp hlast).1
  have hget (i : Nat) : (h.withClosure c).closures[i]? = if i = h.closures.size then some c else h.closures[i]? :=
    Array.getElem?_push
  refine { hs with
    closures := fun i c' hc' => ?_
    steps := fun i c' hi hc' => ?_
    hosts := fun i hi => hold i (hs.hosts i hi)
    own := fun i hi => ?_ }
  · have hold := hs.closures i c' hc'
    rw [hget, if_neg (Nat.ne_of_lt (Array.getElem?_eq_some_iff.mp hold).1)]
    exact hold
  · rw [hget] at hc'
    split at hc'
    · rename_i heq
      obtain rfl := Option.some.inj hc'
      rw [heq]
      exact hc
    · exact (hs.steps i c' hi hc').imp_left (hold i)
  · rw [Heap.closures_withClosure, Array.size_push]
    rcases hnew i hi with hi | rfl
    · have hbounds := hs.own i hi
      omega
    · omega

/-! ### What a script reads -/

/-- What a script reads is open. -/
theorem open_get (hs : Sealed g own h) {i : Nat} (hi : g.Shown i ∨ g.Behind i) (k : Value) : g.Open ((h.table i).get k) := by
  have horder := g.order
  rw [Table.get_eq]
  split
  · trivial
  · by_cases hnil : (h.table i).find k.asKey = .nil
    · rw [hnil]
      trivial
    · rcases hi with hshown | hbehind
      · exact (hs.contents i hshown _ _ rfl hnil).2
      · have hlow : g.before.tables.size ≤ i ∧ i < g.heap.tables.size ∧ i ≠ g.layout.env := by
          rcases hbehind with rfl | ⟨j, hj, rfl⟩ <;> omega
        rw [hs.find i hlow.1 hlow.2.1 hlow.2.2] at hnil ⊢
        exact (open_behind hbehind rfl hnil).2

/-- The metatable of the environment. -/
theorem front_env (hs : Sealed g own h) : (h.table g.layout.env).metatable = some (g.layout.env + 1) ∧
    ∀ k, (h.table (g.layout.env + 1)).find k
      = (Library.tableOf (environmentFields g.layout.host g.layout.assign)).find k := by
  have horder := g.order
  refine ⟨?_, fun k => ?_⟩
  · rw [hs.metatable _ (by omega) (by omega), g.frozen.environment]
    rfl
  · rw [hs.find _ (by omega) (by omega) (by omega), g.frozen.envFront]

/-- The metatable of a read-only table. -/
theorem front_library (hs : Sealed g own h) {j : Nat} (hj : j < g.count) :
    (h.table (g.layout.copies + 3 * j + 1)).metatable = some (g.layout.copies + 3 * j + 2) ∧
      ∀ k, (h.table (g.layout.copies + 3 * j + 2)).find k
        = (Library.tableOf (readOnlyFields (g.layout.copies + 3 * j) (g.layout.refuse + 3 * j))).find k := by
  have horder := g.order
  obtain ⟨name, -, hlibrary⟩ := g.library j hj
  refine ⟨?_, fun k => ?_⟩
  · rw [hs.metatable _ (by omega) (by omega), hlibrary.proxy]
  · rw [hs.find _ (by omega) (by omega) (by omega), hlibrary.front]

/-- **What metatables say** of what a script has is open, or it is one of what the fixed metatables say. -/
theorem metamethod (hs : Sealed g own h) {v : Value} (hv : g.Open v) (event : String) :
    g.Open (h.metamethod v (Bytes.ofString event)) ∨ g.Tells v event (h.metamethod v (Bytes.ofString event)) := by
  have horder := g.order
  have hfront {i m : Nat} (hm : (h.table i).metatable = some m) :
      h.metamethod (.table i) (Bytes.ofString event) = (h.table m).find (.ofString event) := by
    rw [Heap.metamethod, Heap.metatable?, hm]
    rfl
  cases v with
  | table i =>
    rcases hv with rfl | ⟨j, hj, rfl⟩ | hloose
    · obtain ⟨hm, hfields⟩ := hs.front_env
      rw [hfront hm, hfields]
      generalize hx : (Library.tableOf (environmentFields g.layout.host g.layout.assign)).find (.ofString event) = x
      by_cases hnil : x = .nil
      · exact .inl (hnil ▸ trivial)
      · obtain ⟨name, hname, hmem⟩ := Library.mem_of_find_tableOf hx hnil
        obtain rfl := Table.ofString_inj hname
        simp only [environmentFields, List.mem_cons, List.not_mem_nil, or_false, Prod.mk.injEq] at hmem
        obtain ⟨rfl, rfl⟩ | ⟨rfl, rfl⟩ | ⟨rfl, rfl⟩ := hmem
        · exact .inr .bound
        · exact .inr .assign
        · exact .inl trivial
    · obtain ⟨hm, hfields⟩ := hs.front_library hj
      rw [hfront hm, hfields]
      generalize hx : (Library.tableOf (readOnlyFields (g.layout.copies + 3 * j) (g.layout.refuse + 3 * j))).find
        (.ofString event) = x
      by_cases hnil : x = .nil
      · exact .inl (hnil ▸ trivial)
      · obtain ⟨name, hname, hmem⟩ := Library.mem_of_find_tableOf hx hnil
        obtain rfl := Table.ofString_inj hname
        simp only [readOnlyFields, List.mem_cons, List.not_mem_nil, or_false, Prod.mk.injEq] at hmem
        obtain ⟨rfl, rfl⟩ | ⟨rfl, rfl⟩ | ⟨rfl, rfl⟩ | ⟨rfl, rfl⟩ | ⟨rfl, rfl⟩ := hmem
        · exact .inr (.member j hj)
        · exact .inr (.refuse j hj)
        · exact .inr (.traverse j hj)
        · exact .inr (.measure j hj)
        · exact .inl trivial
    · cases hm : (h.table i).metatable with
      | none =>
        rw [Heap.metamethod, Heap.metatable?, hm]
        exact .inl trivial
      | some m =>
        rw [hfront hm]
        by_cases hnil : (h.table m).find (.ofString event) = .nil
        · rw [hnil]
          exact .inl trivial
        · exact .inl (hs.contents m (hs.fronts i m hloose hm) _ _ rfl hnil).2
  | str s =>
    left
    rw [Heap.metamethod, Heap.metatable?, hs.strings, g.frozen.strings]
    show g.Open ((h.table g.layout.texts).find (.ofString event))
    rw [hs.find _ (by omega) (by omega) (by omega)]
    exact open_texts rfl
  | _ => exact .inl trivial

end Sealed

end Ground

end ScriptHost

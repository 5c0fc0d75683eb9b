import Mathlib.Data.List.Nodup
import ScriptHost.Proofs.Namespace.Binding
import ScriptHost.Proofs.Namespace.Freeze
import ScriptHost.Proofs.Session.Course

/-!
# What a script is given

A session is prepared once: its functions are collected under their names, and the environment is made from them.  What
the script finds there is all that it is given.

* `Frozen.find_host` — the table of bound names, name by name;
* `IsLibrary.indexFrom` — reading from a library;
* `Shows` — a library shows the members that a script gets, and no others;
* `Gives` — a session gives its script just the names that it should;
* **`prepare_spec`** — a session is prepared if nothing is wrong with its names, and then it gives what it should.
-/

namespace ScriptHost

open ScriptHost.Script ScriptHost.Script.Machine Namespace

/-! ### Fields by their names -/

section
variable {fields : List (String × Value)} {n : String} {v : Value}

theorem lookup_of_mem (hnodup : (fields.map Prod.fst).Nodup) (h : (n, v) ∈ fields) : fields.lookup n = some v := by
  induction fields with
  | nil => cases h
  | cons x rest ih =>
    obtain ⟨hnew, hrest⟩ := List.nodup_cons.mp hnodup
    rcases List.mem_cons.mp h with rfl | hmem
    · exact List.lookup_cons_self
    · have hne : (n == x.1) = false := by
        refine beq_false_of_ne fun heq => hnew ?_
        exact heq ▸ List.mem_map_of_mem hmem
      rw [List.lookup_cons, hne]
      exact ih hrest hmem

theorem mem_of_lookup (h : fields.lookup n = some v) : (n, v) ∈ fields := by
  obtain ⟨l₁, l₂, hfields, -⟩ := List.lookup_eq_some_iff.mp h
  rw [hfields]
  exact List.mem_append_right l₁ List.mem_cons_self

theorem lookup_eq_none (h : n ∉ fields.map Prod.fst) : fields.lookup n = none := by
  refine List.lookup_eq_none_iff.mpr fun x hx => ?_
  have hne : n ≠ x.1 := fun heq => h (heq ▸ List.mem_map_of_mem hx)
  simpa using hne

theorem nodup_reverse_names (h : (fields.map Prod.fst).Nodup) : (fields.reverse.map Prod.fst).Nodup := by
  rw [List.map_reverse]
  exact List.nodup_reverse.mpr h

/-- Values that are filed under names: the last one under a name counts. -/
theorem Script.Table.find_setStrs (fields : List (String × Value)) {t : Table} (ht : t.WellFormed) (n : String) :
    (fields.foldl (fun t (k, v) => t.setStr k v) t).find (.ofString n)
      = (fields.reverse.lookup n).getD (t.find (.ofString n)) := by
  induction fields generalizing t with
  | nil => rfl
  | cons x rest ih =>
    refine (ih (wellFormed_set ht _ _)).trans ?_
    rw [List.reverse_cons, List.lookup_append, find_set ht, asKey_ofString]
    cases rest.reverse.lookup n with
    | some w => rfl
    | none =>
      by_cases hn : n = x.1
      · rw [if_pos (congrArg Value.ofString hn), hn, List.lookup_cons_self]
        rfl
      · have hne : (n == x.1) = false := beq_false_of_ne hn
        rw [if_neg fun heq => hn (ofString_inj heq), List.lookup_cons, hne]
        rfl

end

/-! ### The bound names -/

/-- A name that no host can bind. -/
def Reserved (mode : Mode) (name : String) : Prop :=
  name = "_G" ∨ name = "rawset" ∨ name ∈ baseNames ∨ name ∈ mode.libraries

theorem isReserved_iff (mode : Mode) (name : String) : isReserved mode name = true ↔ Reserved mode name := by
  simp [isReserved, Reserved, or_assoc]

/-- The names to be bound are all different, and none is reserved. -/
structure Accepted (b : Builder) : Prop where
  nodup : (b.bindings.map Prod.fst).Nodup
  free : ∀ name ∈ b.bindings.map Prod.fst, ¬ Reserved b.mode name

/-- Names that are bound one after the other are accepted. -/
theorem Namespace.Builder.accepted_of_bindAll {b b' : Builder} {xs : List (String × Value)} (hb : Accepted b)
    (h : b.bindAll xs = .ok b') : Accepted b' ∧ b'.mode = b.mode ∧ b'.bindings = b.bindings ++ xs := by
  induction xs generalizing b with
  | nil =>
    cases h
    exact ⟨hb, rfl, (List.append_nil _).symm⟩
  | cons x rest ih =>
    rw [bindAll, List.foldlM_cons, Builder.bind] at h
    cases hbound : b.contains x.1 || isReserved b.mode x.1 with
    | true =>
      rw [if_pos hbound] at h
      cases h
    | false =>
      rw [if_neg (by rw [hbound]; exact Bool.false_ne_true)] at h
      obtain ⟨hnew, hfree⟩ := Bool.or_eq_false_iff.mp hbound
      have hnext : Accepted { b with bindings := b.bindings ++ [(x.1, x.2)] } := by
        refine ⟨?_, fun name hname => ?_⟩
        · rw [List.map_append, List.nodup_append]
          refine ⟨hb.nodup, List.nodup_singleton _, ?_⟩
          rintro n hn m hm rfl
          rw [List.mem_singleton.mp hm] at hn
          exact Bool.false_ne_true (hnew.symm.trans ((contains_iff b x.1).mpr hn))
        · rw [List.map_append, List.mem_append] at hname
          rcases hname with hname | hname
          · exact hb.free name hname
          · rw [List.mem_singleton.mp hname, ← isReserved_iff]
            exact fun heq => Bool.false_ne_true (hfree.symm.trans heq)
      obtain ⟨haccepted, hmode, hbindings⟩ := ih hnext h
      exact ⟨haccepted, hmode, by rw [hbindings, List.append_assoc]; rfl⟩

/-- What comes of some names that are accepted. -/
theorem Namespace.Builder.accepted_of_ok {mode : Mode} {xs : List (String × Value)} {b : Builder}
    (h : (⟨mode, []⟩ : Builder).bindAll xs = .ok b) : Accepted b ∧ b.mode = mode ∧ b.bindings = xs := by
  have hempty : Accepted (⟨mode, []⟩ : Builder) := ⟨List.nodup_nil, fun _ hname => absurd hname List.not_mem_nil⟩
  exact accepted_of_bindAll hempty h

section
variable {p : Proto} {b : Builder} {l : Layout} {h : Heap}

theorem names_boundBase (guarded : String → Value) (name : String) :
    name ∈ (boundBase guarded).map Prod.fst ↔ name ∈ baseNames ∨ name = "rawset" := by
  have hnames : (boundBase guarded).map Prod.fst
      = (baseFields.filter fun x => baseNames.contains x.1).map Prod.fst ++ ["pcall", "xpcall", "rawset"] := by
    rw [boundBase, List.map_append]
    rfl
  have hbase : (baseFields.filter fun x => baseNames.contains x.1).map Prod.fst = baseNames := by decide +kernel
  rw [hnames, hbase]
  simp only [List.mem_append, List.mem_cons, List.not_mem_nil, or_false]
  refine ⟨fun hname => ?_, fun hname => hname.imp_right fun h => .inr (.inr h)⟩
  rcases hname with hname | rfl | rfl | rfl
  · exact .inl hname
  · exact .inl (by decide)
  · exact .inl (by decide)
  · exact .inr rfl

theorem mem_proxies {names : List String} {n : Nat} {x : String × Nat} :
    x ∈ proxies n names ↔ ∃ i, names[i]? = some x.1 ∧ x.2 = n + 3 * i + 1 := by
  induction names generalizing n with
  | nil => simp [proxies]
  | cons first rest ih =>
    rw [proxies, List.mem_cons, ih]
    refine ⟨fun h => ?_, fun ⟨i, hi, hx⟩ => ?_⟩
    · rcases h with rfl | ⟨i, hi, hx⟩
      · exact ⟨0, rfl, rfl⟩
      · exact ⟨i + 1, hi, by omega⟩
    · cases i with
      | zero => exact .inl (Prod.ext (Option.some.inj hi).symm hx)
      | succ i => exact .inr ⟨i, hi, by omega⟩

theorem names_proxies (n : Nat) (names : List String) : (proxies n names).map Prod.fst = names := by
  induction names generalizing n with
  | nil => rfl
  | cons name rest ih => rw [proxies, List.map_cons, ih]

theorem names_proxyFields (n : Nat) (names : List String) : (proxyFields n names).map Prod.fst = names := by
  rw [proxyFields, List.map_map]
  exact names_proxies n names

/-- The names that are bound. -/
theorem mem_names_boundFields (b : Builder) (l : Layout) (name : String) :
    name ∈ (boundFields b l).map Prod.fst ↔ name ∈ b.bindings.map Prod.fst ∨ Reserved b.mode name := by
  simp only [boundFields, List.map_append, List.mem_append, names_boundBase, names_proxyFields, List.map_cons, List.map_nil,
    List.mem_singleton, Reserved]
  grind

/-- What is bound under a reserved name. -/
inductive IsOwn (mode : Mode) (l : Layout) : Value → Prop
  | version : IsOwn mode l (.ofString version)
  | builtin (name : String) (f : Builtin) (hmem : (name, f) ∈ Builtin.base) (hname : name ∈ baseNames) :
      IsOwn mode l (builtin f)
  | guarded (i : Nat) (hi : i = 2 ∨ i = 4 ∨ i = 5) : IsOwn mode l (.closure (l.helpers + i))
  | library (i : Nat) (hi : i < mode.libraries.length) : IsOwn mode l (.table (l.copies + 3 * i + 1))
  | environment : IsOwn mode l (.table l.env)

theorem isOwn_of_mem_boundBase {x : String × Value} (hx : x ∈ boundBase l.guarded) (mode : Mode) :
    IsOwn mode l x.2 := by
  rcases List.mem_append.mp hx with hbase | hguarded
  · obtain ⟨hfield, hname⟩ := List.mem_filter.mp hbase
    rcases List.mem_append.mp hfield with hbuiltin | hversion
    · obtain ⟨⟨name, f⟩, hmem, rfl⟩ := List.mem_map.mp hbuiltin
      exact .builtin name f hmem (by simpa using hname)
    · rw [List.mem_singleton.mp hversion]
      exact .version
  · obtain ⟨name, -, rfl⟩ := List.mem_map.mp hguarded
    refine .guarded _ ?_
    split
    · exact .inr (.inl rfl)
    · split
      · exact .inr (.inr rfl)
      · exact .inl rfl

theorem isOwn_or_mem {x : String × Value} (hx : x ∈ boundFields b l) : x ∈ b.bindings ∨ IsOwn b.mode l x.2 := by
  rcases List.mem_append.mp hx with hx | hx
  · rcases List.mem_append.mp hx with hx | hx
    · rcases List.mem_append.mp hx with hx | hx
      · exact .inr (isOwn_of_mem_boundBase hx b.mode)
      · obtain ⟨y, hy, rfl⟩ := List.mem_map.mp hx
        obtain ⟨i, hi, hid⟩ := mem_proxies.mp hy
        refine .inr ?_
        rw [hid]
        exact .library i (List.getElem?_eq_some_iff.mp hi).1
    · exact .inl hx
  · rw [List.mem_singleton.mp hx]
    exact .inr .environment

theorem IsOwn.ne_nil {mode : Mode} {v : Value} (hv : IsOwn mode l v) : v ≠ .nil := by
  cases hv <;> exact nofun

namespace Frozen

/-- **The table of bound names**, name by name. -/
theorem find_host (hfrozen : Frozen p b l h) (name : String) :
    (h.table l.host).find (.ofString name) = ((boundFields b l).reverse.lookup name).getD .nil := by
  obtain ⟨n, hbound⟩ := hfrozen.bound
  rw [hbound]
  refine (Table.find_setStrs _ (Table.wellFormed_empty 0 n) name).trans ?_
  rw [Table.find_empty]

/-- What was bound under a name by the host. -/
theorem find_binding (hfrozen : Frozen p b l h) (haccepted : Accepted b) {name : String} {v : Value}
    (hmem : (name, v) ∈ b.bindings) : (h.table l.host).find (.ofString name) = v := by
  have hfree : ¬ Reserved b.mode name := haccepted.free name (List.mem_map_of_mem hmem)
  have hlast : ([("_G", .table l.env)] : List (String × Value)).reverse.lookup name = none :=
    lookup_eq_none fun h => hfree (.inl (List.mem_singleton.mp h))
  have hlookup : b.bindings.reverse.lookup name = some v :=
    lookup_of_mem (nodup_reverse_names haccepted.nodup) (List.mem_reverse.mpr hmem)
  rw [hfrozen.find_host, boundFields, List.reverse_append, List.lookup_append, hlast, Option.none_or, List.reverse_append,
    List.lookup_append, hlookup]
  rfl

/-- What is bound under the name of a library. -/
theorem find_library (hfrozen : Frozen p b l h) (haccepted : Accepted b) {i : Nat} {name : String}
    (hname : b.mode.libraries[i]? = some name) : (h.table l.host).find (.ofString name) = .table (l.copies + 3 * i + 1) := by
  have hmem : name ∈ b.mode.libraries := List.mem_of_getElem? hname
  have hreserved : Reserved b.mode name := .inr (.inr (.inr hmem))
  have hlibraries : b.mode.libraries.Nodup ∧ "_G" ∉ b.mode.libraries := by cases b.mode <;> decide
  have hlast : ([("_G", .table l.env)] : List (String × Value)).reverse.lookup name = none :=
    lookup_eq_none fun h => hlibraries.2 ((List.mem_singleton.mp h : name = "_G") ▸ hmem)
  have hbindings : b.bindings.reverse.lookup name = none := by
    refine lookup_eq_none fun h => ?_
    rw [List.map_reverse, List.mem_reverse] at h
    exact haccepted.free name h hreserved
  have hlookup : (proxyFields l.copies b.mode.libraries).reverse.lookup name = some (.table (l.copies + 3 * i + 1)) := by
    refine lookup_of_mem (nodup_reverse_names ?_) (List.mem_reverse.mpr ?_)
    · rw [names_proxyFields]
      exact hlibraries.1
    · exact List.mem_map.mpr ⟨(name, l.copies + 3 * i + 1), mem_proxies.mpr ⟨i, hname, rfl⟩, rfl⟩
  rw [hfrozen.find_host, boundFields, List.reverse_append, List.lookup_append, hlast, Option.none_or, List.reverse_append,
    List.lookup_append, hbindings, Option.none_or, List.reverse_append, List.lookup_append, hlookup]
  rfl

/-- What is bound under the names of the functions that the prelude puts before those of the language. -/
theorem find_guarded (hfrozen : Frozen p b l h) (haccepted : Accepted b) {name : String}
    (hname : name = "rawset" ∨ name = "pcall" ∨ name = "xpcall") : (h.table l.host).find (.ofString name) = l.guarded name := by
  have hreserved : Reserved b.mode name := by
    rcases hname with rfl | rfl | rfl
    · exact .inr (.inl rfl)
    · exact .inr (.inr (.inl (by decide)))
    · exact .inr (.inr (.inl (by decide)))
  have hlast : ([("_G", .table l.env)] : List (String × Value)).reverse.lookup name = none := by
    rcases hname with rfl | rfl | rfl <;> rfl
  have hlibraries : name ∉ (proxyFields l.copies b.mode.libraries).reverse.map Prod.fst := by
    rw [List.map_reverse, List.mem_reverse, names_proxyFields]
    rcases hname with rfl | rfl | rfl <;> cases b.mode <;> decide
  have hbindings : name ∉ b.bindings.reverse.map Prod.fst := by
    rw [List.map_reverse, List.mem_reverse]
    exact fun h => haccepted.free _ h hreserved
  rw [hfrozen.find_host, boundFields, List.reverse_append, List.lookup_append, hlast, Option.none_or, List.reverse_append,
    List.lookup_append, lookup_eq_none hbindings, Option.none_or, List.reverse_append, List.lookup_append,
    lookup_eq_none hlibraries, Option.none_or, boundBase, List.reverse_append, List.lookup_append]
  rcases hname with rfl | rfl | rfl <;> rfl

/-- What is there under a name was bound. -/
theorem mem_of_find_host (hfrozen : Frozen p b l h) {name : String} {v : Value}
    (hfind : (h.table l.host).find (.ofString name) = v) (hv : v ≠ .nil) : (name, v) ∈ boundFields b l := by
  rw [hfrozen.find_host] at hfind
  cases hlookup : (boundFields b l).reverse.lookup name with
  | none => exact absurd (by rw [← hfind, hlookup]; rfl) hv
  | some w =>
    rw [hlookup] at hfind
    obtain rfl : w = v := hfind
    exact List.mem_reverse.mp (mem_of_lookup hlookup)

/-- **The names that are bound** are those of the host and the reserved ones. -/
theorem find_host_ne_nil_iff (hfrozen : Frozen p b l h) (hvalues : ∀ x ∈ b.bindings, x.2 ≠ .nil) (name : String) :
    (h.table l.host).find (.ofString name) ≠ .nil ↔ name ∈ b.bindings.map Prod.fst ∨ Reserved b.mode name := by
  rw [← mem_names_boundFields b l]
  refine ⟨fun hbound => List.mem_map.mpr ⟨_, hfrozen.mem_of_find_host rfl hbound, rfl⟩, fun hname => ?_⟩
  have hname : name ∈ (boundFields b l).reverse.map Prod.fst := by rwa [List.map_reverse, List.mem_reverse]
  rw [hfrozen.find_host]
  cases hlookup : (boundFields b l).reverse.lookup name with
  | none =>
    obtain ⟨x, hx, rfl⟩ := List.mem_map.mp hname
    exact absurd (List.lookup_eq_none_iff.mp hlookup x hx) (by simp)
  | some v =>
    rcases isOwn_or_mem (List.mem_reverse.mp (mem_of_lookup hlookup)) with hbinding | hown
    · exact hvalues _ hbinding
    · exact hown.ne_nil

end Frozen

/-! ### Reading libraries -/

/-- A script gets a member of a library: of those of texts not the one that dumps functions, and of those of the operating
system only the four that tell and compare times. -/
def Granted (library member : String) : Prop :=
  (library = "string" → member ≠ "dump") ∧ (library = "os" → member ∈ ["clock", "date", "difftime", "time"])

theorem isOffered_iff (library member : String) : isOffered library member = true ↔ Granted library member := by
  simp only [isOffered, stripped, systemNames, Granted, Bool.and_eq_true, Bool.or_eq_true, Bool.not_eq_true', bne_iff_ne]
  simp
  grind

theorem mem_offered {library : String} {resume : Value} {x : String × Value} :
    x ∈ offered library resume ↔ ∃ v, (x.1, v) ∈ Library.members library ∧ Granted library x.1 ∧
      x.2 = if library = "coroutine" ∧ x.1 = "resume" then resume else v := by
  have hvalue (y : String × Value) : (if (library = "coroutine" && y.1 = "resume") = true then (y.1, resume) else y)
      = (y.1, if library = "coroutine" ∧ y.1 = "resume" then resume else y.2) := by
    by_cases hy : library = "coroutine" ∧ y.1 = "resume"
    · rw [if_pos (by simpa using hy), if_pos hy]
    · rw [if_neg (by simpa using hy), if_neg hy]
  rw [offered, List.mem_map]
  refine ⟨fun ⟨y, hy, hx⟩ => ?_, fun ⟨v, hmem, hgranted, hx⟩ => ⟨(x.1, v), ?_, ?_⟩⟩
  · obtain ⟨hmem, hoffered⟩ := List.mem_filter.mp hy
    obtain rfl := (hvalue y).symm.trans hx
    exact ⟨y.2, hmem, (isOffered_iff library y.1).mp hoffered, rfl⟩
  · exact List.mem_filter.mpr ⟨hmem, (isOffered_iff library x.1).mpr hgranted⟩
  · exact (hvalue (x.1, v)).trans (Prod.ext rfl hx.symm)

theorem nodup_offered {mode : Mode} {library : String} (hlibrary : library ∈ mode.libraries) (resume : Value) :
    ((offered library resume).map Prod.fst).Nodup := by
  have hnames : (offered library resume).map Prod.fst
      = ((Library.members library).filter fun x => isOffered library x.1).map Prod.fst := by
    rw [offered, List.map_map]
    refine List.map_congr_left fun y _ => ?_
    show Prod.fst (if _ then (y.1, resume) else (y.1, y.2)) = y.1
    split <;> rfl
  have hall : ∀ library ∈ Mode.libraries .privileged,
      (((Library.members library).filter fun x => isOffered library x.1).map Prod.fst).Nodup := by decide +kernel
  rw [hnames]
  refine hall library ?_
  cases mode with
  | restricted => exact List.mem_append_left _ hlibrary
  | privileged => exact hlibrary

/-- Reading what a table has itself or its metatable says nothing of. -/
theorem Script.Act.indexFrom_plain {σ : Type} {id : Nat} (hplain : (h.table id).metatable = none) (fuel : Nat) (k : Value)
    (source : Source) (yieldable : Bool) (s : σ) :
    Act.indexFrom yieldable (fuel + 1) source (.table id) k h s = .done ((h.table id).get k) h s := by
  rw [indexFrom]
  cases hget : (h.table id).get k with
  | nil => simp only [hget, hplain]
  | _ => simp only [hget]

/-- Reading what a table does not have, through another one. -/
theorem Script.Act.indexFrom_behind {σ : Type} {id m inner : Nat} {k : Value} (hget : (h.table id).get k = .nil)
    (hmeta : (h.table id).metatable = some m) (hfront : (h.table m).getStr (Bytes.ofString "__index") = .table inner)
    (fuel : Nat) (source : Source) (yieldable : Bool) (s : σ) :
    Act.indexFrom yieldable (fuel + 1) source (.table id) k h s
      = Act.indexFrom yieldable fuel .other (.table inner) k h s := by
  rw [indexFrom]
  simp only [hget, hmeta, hfront]

theorem Script.Table.get_empty (m : Option Nat) (k : Value) : Table.get { Table.empty 0 0 with metatable := m } k = .nil := by
  rw [get_eq]
  split
  · rfl
  · exact Table.find_empty 0 0 k.asKey

theorem nodup_readOnlyFields (inner refuse : Nat) : ((readOnlyFields inner refuse).map Prod.fst).Nodup := by
  show (["__index", "__newindex", "__pairs", "__len", "__metatable"] : List String).Nodup
  decide

/-- **Reading from a library** gives the member of its table. -/
theorem IsLibrary.indexFrom {resume : Value} {name : String} {copy refuse : Nat} (hlibrary : IsLibrary p h resume name copy refuse)
    {σ : Type} (fuel : Nat) (k : Value) (source : Source) (yieldable : Bool) (s : σ) :
    Act.indexFrom yieldable (fuel + 2) source (.table (copy + 1)) k h s
      = .done ((Library.tableOf (offered name resume)).get k) h s := by
  have hget : (h.table (copy + 1)).get k = .nil := by rw [hlibrary.proxy, Table.get_empty]
  have hmeta : (h.table (copy + 1)).metatable = some (copy + 2) := by rw [hlibrary.proxy]
  have hfront : (h.table (copy + 2)).getStr (Bytes.ofString "__index") = .table copy := by
    rw [hlibrary.front]
    exact Library.find_tableOf (nodup_readOnlyFields copy refuse) List.mem_cons_self
  have hplain : (h.table copy).metatable = none := by rw [hlibrary.members, Library.metatable_tableOf]
  rw [Act.indexFrom_behind hget hmeta hfront, Act.indexFrom_plain hplain, hlibrary.members]

/-- A library shows the members that a script gets, and no others.  The function that resumes threads is a guarded one. -/
structure Shows (h : Heap) (library : String) (proxy resume : Value) : Prop where
  member : ∀ n v, (n, v) ∈ Library.members library → Granted library n → ∀ {σ : Type} (s : σ),
    Act.index proxy (.ofString n) .other false h s
      = .done (if library = "coroutine" ∧ n = "resume" then resume else v) h s
  nothing : ∀ k, (∀ n, n ∈ (Library.members library).map Prod.fst → Granted library n → k ≠ .ofString n) →
    ∀ {σ : Type} (s : σ), Act.index proxy k .other false h s = .done .nil h s

theorem Shows.of_ne {library : String} {proxy resume : Value} (hshows : Shows h library proxy resume)
    (hlibrary : library ≠ "coroutine") (other : Value) : Shows h library proxy other where
  member n v hmem hgranted σ s := by
    have hmember := hshows.member n v hmem hgranted s
    rwa [if_neg fun heq => hlibrary heq.1] at hmember ⊢
  nothing := hshows.nothing

theorem eq_ofString_of_asKey {k : Value} {n : String} (h : k.asKey = .ofString n) : k = .ofString n := by
  cases k with
  | float x =>
    rw [Value.asKey] at h
    split at h <;> cases h
  | _ => exact h

/-- A library that was bound shows what it should. -/
theorem IsLibrary.shows {resume : Value} {name : String} {copy refuse : Nat} (hlibrary : IsLibrary p h resume name copy refuse)
    {mode : Mode} (hname : name ∈ mode.libraries) : Shows h name (.table (copy + 1)) resume where
  member n v hmem hgranted σ s := by
    have hoffered : (n, if name = "coroutine" ∧ n = "resume" then resume else v) ∈ offered name resume :=
      mem_offered.mpr ⟨v, hmem, hgranted, rfl⟩
    refine (hlibrary.indexFrom 1998 _ _ _ s).trans ?_
    rw [Table.get_eq, if_neg (show (Value.ofString n).asKey ≠ .nil from nofun), Table.asKey_ofString,
      Library.find_tableOf (nodup_offered hname resume) hoffered]
  nothing k hk σ s := by
    refine (hlibrary.indexFrom 1998 _ _ _ s).trans ?_
    rw [Table.get_eq]
    split
    · rfl
    · rw [Library.find_tableOf_of_not_mem]
      intro hmem
      obtain ⟨x, hx, hkey⟩ := List.mem_map.mp hmem
      obtain ⟨v, hmember, hgranted, -⟩ := mem_offered.mp hx
      exact hk x.1 (List.mem_map.mpr ⟨_, hmember, rfl⟩) hgranted (eq_ofString_of_asKey hkey.symm)

end

/-! ### Preparing a session -/

/-- A session gives its script the functions of its pool, the base library and the libraries of its mode, each under its
name, and nothing else. -/
structure Gives (mode : Mode) (names : List String) (j : Job) : Prop where
  pool : j.pool.names = names
  bound : ∀ n, j.space.isHostBound j.machine n = true
    ↔ n ∈ names ∨ n ∈ baseNames ∨ n = "rawset" ∨ n = "_G" ∨ n ∈ mode.libraries
  /-- Each name of the pool stands for its own function. -/
  functions : ∀ (i : Nat) (n : String), names[i]? = some n → field j.machine j.space.host n = .native (.host (i + 1))
  /-- A function of the host is there under a name of the pool only. -/
  only : ∀ n i, field j.machine j.space.host n = .native (.host i) → n ∈ names
  libraries : ∃ f, ∀ library ∈ mode.libraries,
    Shows j.machine.heap library (field j.machine j.space.host library) (.closure f)
  withheld : ∀ n ∈ ["load", "loadfile", "dofile", "require", "collectgarbage"], n ∉ names →
    j.space.isHostBound j.machine n = false

theorem field_eq {σ : Type} (m : Machine σ) (t : Nat) (n : String) : field m t n = (m.heap.table t).find (.ofString n) := rfl

/-- The names of a pool as they are bound. -/
theorem getElem?_poolValues {σ : Type} (p : Pool σ) (i : Nat) :
    (poolValues p)[i]? = p.names[i]?.map fun n => (n, .native (.host (i + 1))) := by
  rw [poolValues, List.getElem?_map, List.getElem?_zipIdx]
  cases p.names[i]? <;> simp

theorem isForeign_poolValues {σ : Type} (p : Pool σ) {x : String × Value} (hx : x ∈ poolValues p) :
    ∃ i, x.2 = .native (.host i) := by
  obtain ⟨y, -, rfl⟩ := List.mem_map.mp hx
  exact ⟨_, rfl⟩

/-- The environment of a session gives the names that were bound. -/
theorem Frozen.gives {p : Proto} {b : Builder} {l : Layout} {j : Job} (hfrozen : Frozen p b l j.machine.heap)
    (haccepted : Accepted b) (hvalues : b.bindings = poolValues j.pool) (hspace : j.space.host = l.host) :
    Gives b.mode j.pool.names j := by
  have hnames : b.bindings.map Prod.fst = j.pool.names := by rw [hvalues, poolValues_names]
  have hhosts : ∀ x ∈ b.bindings, ∃ i, x.2 = .native (.host i) := fun x hx => isForeign_poolValues j.pool (hvalues ▸ hx)
  have hbound (n : String) : j.space.isHostBound j.machine n = true ↔ n ∈ j.pool.names ∨ Reserved b.mode n := by
    rw [isHostBound, field_eq, hspace, ← hnames, ← hfrozen.find_host_ne_nil_iff (fun x hx => ?_) n]
    · rw [Bool.not_eq_true', ← Bool.not_eq_true, Table.isNil_iff]
    · obtain ⟨i, hi⟩ := hhosts x hx
      rw [hi]
      exact nofun
  refine ⟨rfl, fun n => ?_, fun i n hn => ?_, fun n i hn => ?_, ⟨l.helpers + 6, fun library hlibrary => ?_⟩, fun n hn hnot => ?_⟩
  · rw [hbound, Reserved]
    grind
  · rw [field_eq, hspace]
    refine hfrozen.find_binding haccepted ?_
    rw [hvalues]
    refine List.mem_of_getElem? (i := i) ?_
    rw [getElem?_poolValues, hn]
    rfl
  · rw [field_eq, hspace] at hn
    rcases isOwn_or_mem (hfrozen.mem_of_find_host hn nofun) with hmem | hown
    · rw [← hnames]
      exact List.mem_map_of_mem hmem
    · cases hown
  · obtain ⟨i, hi⟩ := List.getElem?_of_mem hlibrary
    have hshows := (hfrozen.library i library hi).shows hlibrary
    rw [field_eq, hspace, hfrozen.find_library haccepted hi]
    cases hmode : b.mode with
    | restricted =>
      -- Scripts of this mode have no threads.
      rw [hmode] at hlibrary
      refine hshows.of_ne (fun heq => ?_) _
      rw [heq] at hlibrary
      exact absurd hlibrary (by decide)
    | privileged =>
      rw [hmode] at hshows
      exact hshows
  · have hfree : ¬ Reserved b.mode n := by
      have hall : ∀ n ∈ ["load", "loadfile", "dofile", "require", "collectgarbage"], isReserved .restricted n = false ∧
          isReserved .privileged n = false := by decide +kernel
      rw [← isReserved_iff, Bool.not_eq_true]
      cases b.mode with
      | restricted => exact (hall n hn).1
      | privileged => exact (hall n hn).2
    rw [← Bool.not_eq_true, hbound]
    exact fun h => h.elim hnot hfree

/-- Functions are bound when nothing is wrong with their names. -/
theorem Job.furnish_spec {j : Job} (hm : j.machine.interval = 0) (hnodup : j.pool.names.Nodup) :
    (∀ n, j.pool.names.find? (isReserved j.handle.mode) = some n → j.furnish.1 = .error (.duplicateBinding n)) ∧
      (j.pool.names.find? (isReserved j.handle.mode) = none → j.furnish.1 = .ok () ∧
        Gives j.handle.mode j.pool.names j.furnish.2) := by
  have hall : ((([] : List (String × Value)) ++ poolValues j.pool).map Prod.fst).Nodup := by
    rwa [List.nil_append, poolValues_names]
  have hbind := Builder.bindAll_spec (b := ⟨j.handle.mode, []⟩) hall
  rw [poolValues_names] at hbind
  refine ⟨fun n hn => ?_, fun hnone => ?_⟩
  · simp only [hn] at hbind
    rw [Job.furnish, hbind]
  · simp only [hnone] at hbind
    let b : Builder := ⟨j.handle.mode, poolValues j.pool⟩
    let m : Machine Access := { j.machine with hosts := hostBodies j.pool }
    have haccepted : Accepted b := by
      refine ⟨by rwa [poolValues_names], fun n hn hreserved => ?_⟩
      rw [poolValues_names] at hn
      exact List.find?_eq_none.mp hnone n hn ((isReserved_iff _ n).mpr hreserved)
    obtain ⟨p, l, m', hfreeze, hfrozen, -⟩ := freeze_spec (m := m) hm b
    have hfurnish : j.furnish
        = (.ok (), { j with space := ⟨l.env, l.host, b.bindings.map Prod.fst⟩, machine := m' }) := by
      rw [Job.furnish, hbind]
      exact congrArg (fun x : Namespace × Machine Access =>
        ((.ok (), { j with space := x.1, machine := x.2 }) : Except SetupError Unit × Job)) hfreeze
    rw [hfurnish]
    exact ⟨rfl, Frozen.gives (b := b) (j := { j with space := ⟨l.env, l.host, b.bindings.map Prod.fst⟩, machine := m' })
      hfrozen haccepted rfl rfl⟩

/-- **What a session gives its script.**  A session is prepared exactly if its names are all different and none is reserved.
If it is not prepared, the refusal tells the first name that repeats an earlier one, or else the first reserved one.  If it
is, the script gets the functions under these names, the base library and the libraries of the mode, and no others; the
functions of a restricted bundle are not among those of a restricted session. -/
theorem prepare_spec {e : Engine} {r : Request} {further : List (List String)}
    (hbinders : List.Forall₂ (Binder.Adds r.mode) further e.binders) (id started clock : Nat) (host : Host)
    (source : ProgramSource) :
    let j := (r.job e.config id started).meanwhile host clock source
    let names := boundNames e.registry r.mode further
    ((j.prepare e).1 = .ok () ↔ names.Nodup ∧ ∀ n ∈ names, ¬ Reserved r.mode n) ∧
      (∀ n, firstRepeat [] names = some n → (j.prepare e).1 = .error (.duplicateBinding n)) ∧
      (names.Nodup → ∀ n, names.find? (isReserved r.mode) = some n → (j.prepare e).1 = .error (.duplicateBinding n)) ∧
      ((j.prepare e).1 = .ok () → Gives r.mode names (j.prepare e).2) ∧
      ∀ bundle ∈ e.registry.resolve r.mode, r.mode = .restricted → bundle.isRestricted = false := by
  intro j names
  have hadds := e.allBinders_adds hbinders
  have hmode : j.handle.mode = r.mode := rfl
  have hpool : j.pool.names = [] := rfl
  have hrepeat (n : String) (hn : firstRepeat [] names = some n) : (j.prepare e).1 = .error (.duplicateBinding n) := by
    obtain ⟨q, a, hrun⟩ := hadds.refused j.pool j.machine.host n hn
    have hbound : Binder.runAll (e.allBinders r.mode) r.mode j.pool j.machine.host = (.error (.duplicateBinding n), q, a) := hrun
    simp only [Job.prepare, hmode, hbound]
  have hbound (hnodup : names.Nodup) : ∃ k : Job, k.machine.interval = 0 ∧ k.handle.mode = r.mode ∧ k.pool.names = names ∧
      j.prepare e = k.furnish := by
    have hnone : firstRepeat j.pool.names names = none := (firstRepeat_eq_none_iff List.nodup_nil).mpr hnodup
    obtain ⟨q, a, hrun, hnames⟩ := hadds.added j.pool j.machine.host hnone
    have hbound : Binder.runAll (e.allBinders r.mode) r.mode j.pool j.machine.host = (.ok (), q, a) := hrun
    refine ⟨{ j with pool := q, machine := { j.machine with host := a } }, rfl, rfl, hnames, ?_⟩
    simp only [Job.prepare, hmode, hbound]
  have hreserved (hnodup : names.Nodup) (n : String) (hn : names.find? (isReserved r.mode) = some n) :
      (j.prepare e).1 = .error (.duplicateBinding n) := by
    obtain ⟨k, hk, hkmode, hnames, hprepare⟩ := hbound hnodup
    rw [hprepare]
    exact (Job.furnish_spec hk (hnames ▸ hnodup)).1 n (by rwa [hnames, hkmode])
  have hgives (hnodup : names.Nodup) (hfree : names.find? (isReserved r.mode) = none) :
      (j.prepare e).1 = .ok () ∧ Gives r.mode names (j.prepare e).2 := by
    obtain ⟨k, hk, hkmode, hnames, hprepare⟩ := hbound hnodup
    have hfurnish := (Job.furnish_spec hk (hnames ▸ hnodup)).2 (by rwa [hnames, hkmode])
    rwa [hprepare, ← hnames, ← hkmode]
  have hfree : (∀ n ∈ names, ¬ Reserved r.mode n) ↔ names.find? (isReserved r.mode) = none := by
    simp only [List.find?_eq_none, isReserved_iff]
  have hok (h : (j.prepare e).1 = .ok ()) : names.Nodup ∧ names.find? (isReserved r.mode) = none := by
    have hnodup : names.Nodup := by
      by_contra hnot
      obtain ⟨n, hn⟩ := exists_firstRepeat hnot
      cases h.symm.trans (hrepeat n hn)
    refine ⟨hnodup, ?_⟩
    cases hfind : names.find? (isReserved r.mode) with
    | none => rfl
    | some n => cases h.symm.trans (hreserved hnodup n hfind)
  refine ⟨?_, hrepeat, hreserved, fun h => (hgives (hok h).1 (hok h).2).2, fun bundle hbundle hrestricted => ?_⟩
  · rw [hfree]
    exact ⟨hok, fun h => (hgives h.1 h.2).1⟩
  · have hallowed := (List.mem_filter.mp hbundle).2
    rw [hrestricted] at hallowed
    simpa [Bundle.allowedIn] using hallowed

/-- An engine with a restricted bundle, whose sessions get one function more. -/
def furnished : Engine where
  registry := ⟨[{ name := "files", isRestricted := true, functions := [.nullary "erase" (return #[])] }]⟩
  binders := [.ofFunctions [.nullary "tidy" (return #[])]]

theorem prepare_spec_furnished :
    let j := (onTerminal.job furnished.config 0 0).meanwhile terminalHost 0 (.text "")
    let k := (j.prepare furnished).2
    (j.prepare furnished).1 = .ok () ∧ k.space.isHostBound k.machine "tidy" = true ∧
      k.space.isHostBound k.machine "erase" = false ∧
      Act.index (field k.machine k.space.host "string") (.ofString "dump") .other false k.machine.heap ()
        = .done .nil k.machine.heap () := by
  intro j k
  have hbinders : List.Forall₂ (Binder.Adds .restricted) [["tidy"]] furnished.binders :=
    .cons (Binder.ofFunctions_adds [.nullary "tidy" (return #[])]) .nil
  obtain ⟨hiff, -, -, hgives, -⟩ := prepare_spec (e := furnished) (r := onTerminal) hbinders 0 0 0 terminalHost (.text "")
  have hfree : ∀ n ∈ boundNames furnished.registry .restricted [["tidy"]], isReserved .restricted n = false := by
    decide +kernel
  have hok : (j.prepare furnished).1 = .ok () := by
    refine hiff.mpr ⟨by decide +kernel, fun n hn hreserved => ?_⟩
    exact Bool.false_ne_true ((hfree n hn).symm.trans ((isReserved_iff .restricted n).mpr hreserved))
  have hbound := hgives hok
  obtain ⟨f, hlibraries⟩ := hbound.libraries
  refine ⟨hok, (hbound.bound "tidy").mpr (by decide +kernel), ?_, ?_⟩
  · rw [← Bool.not_eq_true, hbound.bound]
    decide +kernel
  · refine (hlibraries "string" (by decide)).nothing _ (fun n _ hgranted heq => ?_) ()
    exact hgranted.1 rfl (Table.ofString_inj heq).symm

end ScriptHost

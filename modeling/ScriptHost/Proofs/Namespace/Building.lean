import ScriptHost.Proofs.Namespace.Helpers

/-!
# Building a namespace

The host makes tables and fills them, and calls the helpers of the prelude.  Each step only adds objects: of those that
were there, some tables get further fields, and nothing else changes.

* `Later` — the objects after such steps, with the frame law `Later.trans`;
* `Namespace.call_spec` — a call from the host that ends;
* `Maker` — the function that makes read-only tables, at work;
* `IsLibrary` — a library that was bound;
* **`bindLibraries_spec`** — all of them are bound, one after the other.
-/

namespace ScriptHost

open ScriptHost.Script ScriptHost.Script.Machine

/-! ### Tables of fields -/

namespace Script.Library

section
variable {fields : List (String × Value)}

theorem tableOf_wellFormed (fields : List (String × Value)) : (tableOf fields).WellFormed :=
  (Table.setStrs_spec fields (Table.wellFormed_empty 0 fields.length)).1

theorem metatable_tableOf (fields : List (String × Value)) : (tableOf fields).metatable = none :=
  (Table.setStrs_spec fields (Table.wellFormed_empty 0 fields.length)).2.1

theorem find_tableOf (hnodup : (fields.map Prod.fst).Nodup) {n : String} {v : Value} (h : (n, v) ∈ fields) :
    (tableOf fields).find (.ofString n) = v :=
  (Table.setStrs_spec fields (Table.wellFormed_empty 0 fields.length)).2.2.2 hnodup n v h

theorem find_tableOf_of_not_mem {k : Value} (h : k ∉ fields.map fun x => Value.ofString x.1) :
    (tableOf fields).find k = .nil :=
  ((Table.setStrs_spec fields (Table.wellFormed_empty 0 fields.length)).2.2.1 k h).trans (Table.find_empty ..)

/-- A name that no field has. -/
theorem find_tableOf_of_no_field {n : String} (h : n ∉ fields.map Prod.fst) : (tableOf fields).find (.ofString n) = .nil := by
  refine find_tableOf_of_not_mem fun hmem => h ?_
  obtain ⟨x, hx, heq⟩ := List.mem_map.mp hmem
  exact List.mem_map.mpr ⟨x, hx, Table.ofString_inj heq⟩

end

end Script.Library

/-! ### Later objects -/

/-- The objects after some steps: what was there is there as it was, but that some tables have further fields. -/
structure Later (h h' : Heap) (filled : List Nat) : Prop where
  size : h.tables.size ≤ h'.tables.size
  table : ∀ i < h.tables.size, i ∉ filled → h'.table i = h.table i
  metatable : ∀ i < h.tables.size, (h'.table i).metatable = (h.table i).metatable
  cells : CellsStay h.cells h'.cells
  closures : ∀ (i : Nat) (c : Closure), h.closures[i]? = some c → h'.closures[i]? = some c

section
variable {h h' h'' : Heap} {filled : List Nat}

theorem Later.refl (h : Heap) (filled : List Nat) : Later h h filled :=
  ⟨Nat.le_refl _, fun _ _ _ => rfl, fun _ _ => rfl, CellsStay.refl _, fun _ _ hc => hc⟩

theorem Later.trans (hfirst : Later h h' filled) (hnext : Later h' h'' filled) : Later h h'' filled where
  size := Nat.le_trans hfirst.size hnext.size
  table i hi hfilled := (hnext.table i (Nat.lt_of_lt_of_le hi hfirst.size) hfilled).trans (hfirst.table i hi hfilled)
  metatable i hi := (hnext.metatable i (Nat.lt_of_lt_of_le hi hfirst.size)).trans (hfirst.metatable i hi)
  cells := hfirst.cells.trans hnext.cells
  closures i c hc := hnext.closures i c (hfirst.closures i c hc)

theorem Later.mono {more : List Nat} (hlater : Later h h' filled) (hmore : ∀ i ∈ filled, i ∈ more) : Later h h' more :=
  { hlater with table := fun i hi hnot => hlater.table i hi fun hmem => hnot (hmore i hmem) }

/-- Only tables that were not there yet get further fields. -/
theorem Later.since (hlater : Later h h' filled) (hfilled : ∀ i ∈ filled, h.tables.size ≤ i) : Later h h' [] :=
  { hlater with table := fun i hi _ => hlater.table i hi fun hmem => Nat.not_lt_of_le (hfilled i hmem) hi }

theorem Later.withTable (h : Heap) (t : Table) (filled : List Nat) : Later h (h.withTable t) filled := by
  have hold : ∀ i < h.tables.size, (h.withTable t).table i = h.table i := fun i hi => by
    rw [Heap.table_withTable, if_neg (Nat.ne_of_lt hi)]
  refine ⟨?_, fun i hi _ => hold i hi, fun i hi => congrArg _ (hold i hi), CellsStay.refl _, fun _ _ hc => hc⟩
  rw [Heap.size_withTable]
  exact Nat.le_succ _

theorem Later.filed (h : Heap) {id : Nat} (hid : id ∈ filled) (k x : Value) : Later h (h.filed id k x) filled := by
  refine ⟨Nat.le_of_eq (h.size_filed ..).symm, fun i hi hnot => ?_, fun i hi => ?_, CellsStay.refl _, fun _ _ hc => hc⟩
  · rw [Heap.table_filed, if_neg fun heq : i = id ∧ _ => hnot (heq.1 ▸ hid)]
  · rw [Heap.table_filed]
    split
    · exact Table.metatable_set ..
    · rfl

theorem Later.withFields (h : Heap) {id : Nat} (hid : id ∈ filled) (fields : List (String × Value)) :
    Later h (withFields h id fields) filled := by
  induction fields generalizing h with
  | nil => exact Later.refl h filled
  | cons x rest ih => exact (Later.filed h hid _ _).trans (ih _)

theorem Guarded.later {fields : List (String × Value)} {registry : Nat} {mark : Value} {made : List Closure}
    (hguarded : Guarded h h' fields registry mark made) : Later h h' [registry] := by
  have hold : ∀ i < h.tables.size, i ≠ h.tables.size ∧ i ≠ h.tables.size + 1 := fun i hi => by omega
  refine ⟨by rw [hguarded.size]; omega, fun i hi hnot => ?_, fun i hi => ?_, hguarded.cells, fun i c hc => ?_⟩
  · rw [hguarded.table, if_neg (hold i hi).1, if_neg (hold i hi).2, if_neg (List.ne_of_not_mem_cons hnot)]
  · rw [hguarded.table, if_neg (hold i hi).1, if_neg (hold i hi).2]
    split
    · rename_i heq
      rw [heq]
      exact Table.metatable_set ..
    · rfl
  · rw [hguarded.closures, Array.getElem?_append_left (Array.getElem?_eq_some_iff.mp hc).1]
    exact hc

theorem Guarded.closure {fields : List (String × Value)} {registry i : Nat} {mark : Value} {made : List Closure} {c : Closure}
    (hguarded : Guarded h h' fields registry mark made) (hc : made[i]? = some c) :
    h'.closures[h.closures.size + i]? = some c := by
  rw [hguarded.closures, Array.getElem?_append_right (Nat.le_add_right ..), Nat.add_sub_cancel_left]
  simpa using hc

end

section
variable {σ : Type} [Inhabited σ]

/-- **A call from the host that ends** gives the first result. -/
theorem Namespace.call_spec {m : Machine σ} {f : Value} {args : Array Value} {n : Nat} {P : Heap → Prop} {vs : Array Value}
    (h : Reaches n (m.start f args) fun m' => ∃ h, P h ∧ Answers (m.start f args) h (.values vs) m')
    (hn : n + 1 < Namespace.setupFuel) :
    ∃ m', Namespace.call m f args = (vs.getD 0 .nil, m') ∧ P m'.heap ∧ SameBeside m m' := by
  have hstops := Reaches.stopped (P := fun h r => P h ∧ r = .values vs)
    (h.imp fun m' ⟨h, hP, hm'⟩ => ⟨h, .values vs, ⟨hP, rfl⟩, hm'⟩)
  have hreturns : Reaches (n + 1) (m.start f args) fun m' =>
      m'.control = .stopped (.returned vs) ∧ P m'.heap ∧ SameBeside m m' :=
    hstops.imp fun m' ⟨r, hcontrol, ⟨hP, hr⟩, hsame⟩ => ⟨hcontrol.trans (by rw [hr, stopOf]), hP, hsame⟩
  obtain ⟨m', ⟨hP, hsame⟩, hrun⟩ := hreturns.run hn
  refine ⟨m', ?_, hP, hsame⟩
  rw [Namespace.call, hrun]

omit [Inhabited σ] in
theorem setField_eq (m : Machine σ) (t : Nat) (name : String) (v : Value) :
    Namespace.setField m t name v = { m with heap := m.heap.filed t (.ofString name) v } := rfl

omit [Inhabited σ] in
theorem tableWith_eq (m : Machine σ) (fields : List (String × Value)) :
    Namespace.tableWith m fields
      = (m.heap.tables.size, { m with heap := m.heap.withTable (Library.tableOf fields) }) := rfl

omit [Inhabited σ] in
theorem setFields_eq (m : Machine σ) (t : Nat) (fields : List (String × Value)) :
    fields.foldl (fun m x => Namespace.setField m t x.1 x.2) m = { m with heap := withFields m.heap t fields } := by
  induction fields generalizing m with
  | nil => rfl
  | cons x rest ih => exact ih _

/-! ### Libraries -/

/-- A registry of the prelude: only its keys are weak. -/
structure KeepsKeys (h : Heap) (registry : Nat) : Prop where
  low : registry + 1 < h.tables.size
  front : (h.table registry).metatable = some (registry + 1)
  weak : h.table (registry + 1) = Library.tableOf weakFields

theorem KeepsKeys.isRegistry {h : Heap} {registry : Nat} (hkeys : KeepsKeys h registry) : IsRegistry h registry := by
  refine ⟨Nat.lt_of_succ_lt hkeys.low, fun i hi => ?_⟩
  obtain rfl : registry + 1 = i := Option.some.inj (hkeys.front.symm.trans hi)
  refine ⟨hkeys.low, ?_⟩
  rw [hkeys.weak]
  exact Library.find_tableOf_of_no_field (n := "__newindex") (by decide)

theorem KeepsKeys.later {h h' : Heap} {filled : List Nat} {registry : Nat} (hkeys : KeepsKeys h registry)
    (hlater : Later h h' filled) (hother : registry + 1 ∉ filled) : KeepsKeys h' registry where
  low := Nat.lt_of_lt_of_le hkeys.low hlater.size
  front := (hlater.metatable _ (Nat.lt_of_succ_lt hkeys.low)).trans hkeys.front
  weak := (hlater.table _ hkeys.low hother).trans hkeys.weak

/-- A function is there that was made from this code and keeps these values. -/
def IsMade (h : Heap) (id : Nat) (p : Proto) (xs : List Value) : Prop :=
  ∃ upvalues, h.closures[id]? = some ⟨p, upvalues⟩ ∧ Keeps h.cells upvalues xs

theorem IsMade.later {h h' : Heap} {filled : List Nat} {id : Nat} {p : Proto} {xs : List Value} (hmade : IsMade h id p xs)
    (hlater : Later h h' filled) : IsMade h' id p xs := by
  obtain ⟨upvalues, hclosure, hkeeps⟩ := hmade
  exact ⟨upvalues, hlater.closures _ _ hclosure, hlater.cells.keeps hkeeps⟩

/-- The function that makes read-only tables is there, with its registry. -/
structure Maker (p : Proto) (h : Heap) (frozen readOnly : Nat) : Prop where
  made : IsMade h readOnly (Prelude.readOnly p) [builtin .setmetatable, builtin .error, builtin .next, .table frozen]
  registry : KeepsKeys h frozen

theorem Maker.later {p : Proto} {h h' : Heap} {frozen readOnly : Nat} {filled : List Nat} (hmaker : Maker p h frozen readOnly)
    (hlater : Later h h' filled) (hother : frozen + 1 ∉ filled) : Maker p h' frozen readOnly :=
  ⟨hmaker.made.later hlater, hmaker.registry.later hlater hother⟩

/-- A library was bound: its members are in one table, a read-only table stands in front of it, and its metatable has
functions of its own. -/
structure IsLibrary (p : Proto) (h : Heap) (resume : Value) (name : String) (copy refuse : Nat) : Prop where
  low : copy + 2 < h.tables.size
  members : h.table copy = Library.tableOf (Namespace.offered name resume)
  proxy : h.table (copy + 1) = { Table.empty 0 0 with metatable := some (copy + 2) }
  front : h.table (copy + 2) = Library.tableOf (readOnlyFields copy refuse)
  refuses : IsMade h refuse (Prelude.refuse p) [builtin .error, .ofString name]
  traverses : IsMade h (refuse + 1) (Prelude.traverse p) [builtin .next, .table copy, .table (copy + 1)]
  measures : IsMade h (refuse + 2) (Prelude.measure p) [.table copy]

theorem IsLibrary.later {p : Proto} {h h' : Heap} {resume : Value} {name : String} {copy refuse : Nat} {filled : List Nat}
    (hlibrary : IsLibrary p h resume name copy refuse) (hlater : Later h h' filled)
    (hother : ∀ i ∈ filled, i < copy ∨ copy + 2 < i) : IsLibrary p h' resume name copy refuse := by
  have hlow := hlibrary.low
  have hold : ∀ i, copy ≤ i → i ≤ copy + 2 → h'.table i = h.table i := fun i hi hi' =>
    hlater.table i (by omega) fun hmem => by
      have hout := hother i hmem
      omega
  exact ⟨Nat.lt_of_lt_of_le hlow hlater.size, (hold _ (by omega) (by omega)).trans hlibrary.members,
    (hold _ (by omega) (by omega)).trans hlibrary.proxy, (hold _ (by omega) (by omega)).trans hlibrary.front,
    hlibrary.refuses.later hlater, hlibrary.traverses.later hlater, hlibrary.measures.later hlater⟩

/-- One more library is there, and the registry knows it. -/
structure AddsLibrary (p : Proto) (h h' : Heap) (resume : Value) (frozen : Nat) (name : String) : Prop where
  later : Later h h' [frozen]
  size : h'.tables.size = h.tables.size + 3
  made : h'.closures.size = h.closures.size + 3
  library : IsLibrary p h' resume name h.tables.size h.closures.size
  registry : h'.table frozen = (h.table frozen).set (.table (h.tables.size + 1)) (.bool true)
  texts : h'.stringMeta = h.stringMeta

/-- A library is copied and put behind a read-only table. -/
theorem addLibrary_spec {m : Machine σ} (hm : m.interval = 0) {p : Proto} {frozen readOnly : Nat}
    (hmaker : Maker p m.heap frozen readOnly) (resume : Value) (name : String) :
    ∃ m', Namespace.call (Namespace.tableWith m (Namespace.offered name resume)).2 (.closure readOnly)
        #[.table m.heap.tables.size, .ofString name] = (.table (m.heap.tables.size + 1), m') ∧
      AddsLibrary p m.heap m'.heap resume frozen name ∧ SameBeside m m' := by
  have hcopied := Later.withTable m.heap (Library.tableOf (Namespace.offered name resume)) [frozen]
  have hlow := hmaker.registry.low
  obtain ⟨⟨upvalues, hclosure, hkeeps⟩, hregistry⟩ := hmaker.later hcopied (by simp)
  obtain ⟨h, hh⟩ : ∃ h, m.heap.withTable (Library.tableOf (Namespace.offered name resume)) = h := ⟨_, rfl⟩
  have hsize : h.tables.size = m.heap.tables.size + 1 := by rw [← hh, Heap.size_withTable]
  have hclosures : h.closures = m.heap.closures := by rw [← hh, Heap.closures_withTable]
  have hold : ∀ i < m.heap.tables.size, h.table i = m.heap.table i := fun i hi => by
    rw [← hh, Heap.table_withTable, if_neg (Nat.ne_of_lt hi)]
  have hnew : h.table m.heap.tables.size = Library.tableOf (Namespace.offered name resume) := by
    rw [← hh, Heap.table_withTable, if_pos rfl]
  have htexts : h.stringMeta = m.heap.stringMeta := by rw [← hh, Heap.stringMeta_withTable]
  rw [tableWith_eq, hh]
  rw [hh] at hcopied hclosure hkeeps hregistry
  let calling : Machine σ := { m with heap := h }
  have hreaches : Reaches 18 (calling.start (.closure readOnly) #[.table m.heap.tables.size, .ofString name]) _ :=
    readOnly_spec (m := calling) hm hclosure hkeeps hregistry.isRegistry
  rw [show calling.heap = h from rfl, hsize, hclosures] at hreaches
  obtain ⟨m', hcall, ⟨a, b, c, hguarded, ha, hb, hc⟩, hsame⟩ := Namespace.call_spec
    (P := fun h' => ∃ a b c, Guarded h h' (readOnlyFields m.heap.tables.size m.heap.closures.size) frozen (.bool true)
        [⟨Prelude.refuse p, a⟩, ⟨Prelude.traverse p, b⟩, ⟨Prelude.measure p, c⟩] ∧
      Keeps h'.cells a [builtin .error, .ofString name] ∧
      Keeps h'.cells b [builtin .next, .table m.heap.tables.size, .table (m.heap.tables.size + 1)] ∧
      Keeps h'.cells c [.table m.heap.tables.size])
    (hreaches.imp fun m' ⟨h', a, b, c, hguarded, ha, hb, hc, hm'⟩ => ⟨h', ⟨a, b, c, hguarded, ha, hb, hc⟩, hm'⟩)
    (by decide)
  have hfront := hguarded.table
  rw [hsize] at hfront
  refine ⟨m', hcall, ⟨hcopied.trans hguarded.later, ?_, ?_, ⟨?_, ?_, ?_, ?_, ⟨a, ?_, ha⟩, ⟨b, ?_, hb⟩,
    ⟨c, ?_, hc⟩⟩, ?_, ?_⟩, hsame.host, hsame.hosts, hsame.interrupted, hsame.interval, hsame.parked⟩
  · rw [hguarded.size, hsize]
  · rw [hguarded.closures, hclosures, Array.size_append]
    rfl
  · rw [hguarded.size, hsize]
    omega
  · rw [hfront, if_neg (by omega), if_neg (by omega), if_neg (by omega), hnew]
  · rw [hfront, if_pos rfl]
  · rw [hfront, if_neg (by omega), if_pos rfl]
  · exact hclosures ▸ hguarded.closure (i := 0) rfl
  · exact hclosures ▸ hguarded.closure (i := 1) rfl
  · exact hclosures ▸ hguarded.closure (i := 2) rfl
  · rw [hfront, if_neg (by omega), if_neg (by omega), if_pos rfl, hold _ (by omega)]
  · rw [hguarded.texts, htexts]

/-- The read-only tables of some libraries, the first of which is made when there are `n` tables. -/
def proxies : Nat → List String → List (String × Nat)
  | _, [] => []
  | n, name :: rest => (name, n + 1) :: proxies (n + 3) rest

/-- The read-only tables as fields. -/
def proxyFields (n : Nat) (names : List String) : List (String × Value) := (proxies n names).map fun x => (x.1, .table x.2)

/-- A registry that knows more tables. -/
def registered (t : Table) (ids : List Nat) : Table := ids.foldl (fun t i => t.set (.table i) (.bool true)) t

/-- The metatable of strings, once it reads through a read-only table. -/
def guardedTexts (t : Table) (proxy : Nat) : Table :=
  (t.setStr "__index" (.table proxy)).setStr "__metatable" (.bool false)

/-- The metatable of strings after some libraries were bound. -/
def guardedBy (t : Table) (proxies : List (String × Nat)) : Table :=
  proxies.foldl (fun t x => if x.1 = "string" then guardedTexts t x.2 else t) t

/-- The table of bound names, the registry of read-only tables and the metatable of strings. -/
structure Shelves where
  host : Nat
  frozen : Nat
  texts : Nat

/-- The tables that get further fields when a library is bound. -/
def Shelves.filled (w : Shelves) : List Nat := [w.frozen, w.host, w.texts]

/-- They are there, and they are different tables. -/
structure Shelves.Apart (w : Shelves) (h : Heap) : Prop where
  low : w.host < h.tables.size ∧ w.texts < h.tables.size ∧ w.frozen < h.tables.size
  host : w.host ≠ w.frozen ∧ w.host ≠ w.frozen + 1 ∧ w.host ≠ w.texts
  texts : w.texts ≠ w.frozen ∧ w.texts ≠ w.frozen + 1
  strings : h.stringMeta = some w.texts

/-- Some libraries are bound. -/
structure AddsLibraries (p : Proto) (w : Shelves) (h h' : Heap) (resume : Value) (names : List String) : Prop where
  later : Later h h' w.filled
  size : h'.tables.size = h.tables.size + 3 * names.length
  made : h'.closures.size = h.closures.size + 3 * names.length
  library : ∀ (i : Nat) (name : String), names[i]? = some name →
    IsLibrary p h' resume name (h.tables.size + 3 * i) (h.closures.size + 3 * i)
  registry : h'.table w.frozen = registered (h.table w.frozen) ((proxies h.tables.size names).map Prod.snd)
  host : h'.table w.host = (proxyFields h.tables.size names).foldl (fun t (name, v) => t.setStr name v) (h.table w.host)
  texts : h'.table w.texts = guardedBy (h.table w.texts) (proxies h.tables.size names)
  strings : h'.stringMeta = h.stringMeta

theorem AddsLibraries.none (p : Proto) (w : Shelves) (h : Heap) (resume : Value) : AddsLibraries p w h h resume [] :=
  ⟨Later.refl h _, rfl, rfl, nofun, rfl, rfl, rfl, rfl⟩

theorem AddsLibraries.cons {p : Proto} {w : Shelves} {h h' h'' : Heap} {resume : Value} {name : String} {rest : List String}
    (hfirst : AddsLibraries p w h h' resume [name]) (hrest : AddsLibraries p w h' h'' resume rest)
    (hlow : ∀ i ∈ w.filled, i < h.tables.size) : AddsLibraries p w h h'' resume (name :: rest) := by
  have hsize : h'.tables.size = h.tables.size + 3 := hfirst.size
  have hmade : h'.closures.size = h.closures.size + 3 := hfirst.made
  refine ⟨hfirst.later.trans hrest.later, ?_, ?_, fun i n hn => ?_, ?_, ?_, ?_, hrest.strings.trans hfirst.strings⟩
  · rw [hrest.size, hsize, List.length_cons]
    omega
  · rw [hrest.made, hmade, List.length_cons]
    omega
  · cases i with
    | zero => exact (hfirst.library 0 n hn).later hrest.later fun i hi => .inl (hlow i hi)
    | succ i =>
      have hlibrary := hrest.library i n hn
      rw [hsize, hmade] at hlibrary
      rwa [show h.tables.size + 3 * (i + 1) = h.tables.size + 3 + 3 * i by omega,
        show h.closures.size + 3 * (i + 1) = h.closures.size + 3 + 3 * i by omega]
  · rw [hrest.registry, hfirst.registry, hsize]
    rfl
  · rw [hrest.host, hfirst.host, hsize]
    rfl
  · rw [hrest.texts, hfirst.texts, hsize]
    rfl

/-- A library is bound when it is entered among the bound names and, if it is that of strings, in their metatable. -/
theorem AddsLibrary.bound {p : Proto} {w : Shelves} {h h' h'' : Heap} {resume : Value} {name : String}
    (hadds : AddsLibrary p h h' resume w.frozen name) (hapart : w.Apart h) (hlater : Later h' h'' [w.host, w.texts])
    (hsize : h''.tables.size = h'.tables.size)
    (hhost : h''.table w.host = (h'.table w.host).setStr name (.table (h.tables.size + 1)))
    (htexts : h''.table w.texts = guardedBy (h'.table w.texts) [(name, h.tables.size + 1)])
    (hbeside : h''.closures = h'.closures ∧ h''.stringMeta = h'.stringMeta) :
    AddsLibraries p w h h'' resume [name] := by
  obtain ⟨⟨hlow, hlow', hlow''⟩, ⟨hne, -, hne'⟩, ⟨hne'', -⟩, -⟩ := hapart
  have hold : ∀ i < h.tables.size, i ≠ w.frozen → h'.table i = h.table i := fun i hi hi' =>
    hadds.later.table i hi (by simpa using hi')
  refine ⟨(hadds.later.mono (by simp [Shelves.filled])).trans (hlater.mono (by simp [Shelves.filled])), ?_, ?_,
    fun i n hn => ?_, ?_, ?_, ?_, hbeside.2.trans hadds.texts⟩
  · rw [hsize, hadds.size]
    rfl
  · rw [hbeside.1, hadds.made]
    rfl
  · match i, hn with
    | 0, hn =>
      obtain rfl : name = n := Option.some.inj hn
      exact hadds.library.later hlater fun i hi => .inl (by
        rcases (by simpa using hi : i = w.host ∨ i = w.texts) with rfl | rfl <;> assumption)
  · rw [hlater.table w.frozen (Nat.lt_of_lt_of_le hlow'' hadds.later.size) (by simp [hne.symm, hne''.symm]), hadds.registry]
    rfl
  · rw [hhost, hold _ hlow hne]
    rfl
  · rw [htexts, hold _ hlow' hne'']
    rfl

omit [Inhabited σ] in
theorem guardTexts_eq {m : Machine σ} {t : Nat} (h : m.heap.stringMeta = some t) (index : Value) :
    Namespace.guardTexts m index = { m with heap := withFields m.heap t [("__index", index), ("__metatable", .bool false)] } := by
  rw [Namespace.guardTexts]
  simp only [h]
  rfl

/-- Bind libraries, however functions are called. -/
def bindLibrariesBy (call : Machine σ → Value → Array Value → Value × Machine σ) (m : Machine σ) (host : Nat)
    (readOnly resume : Value) : List String → Machine σ
  | [] => m
  | name :: rest =>
    let (copy, m) := Namespace.tableWith m (Namespace.offered name resume)
    let (proxy, m) := call m readOnly #[.table copy, .ofString name]
    let m := if name = "string" then Namespace.guardTexts m proxy else m
    bindLibrariesBy call (Namespace.setField m host name proxy) host readOnly resume rest

theorem bindLibraries_eq (m : Machine σ) (host : Nat) (readOnly resume : Value) (names : List String) :
    Namespace.bindLibraries m host readOnly resume names
      = bindLibrariesBy Namespace.call m host readOnly resume names := by
  delta Namespace.bindLibraries bindLibrariesBy Namespace.bindLibraries._f bindLibrariesBy._f
  rfl

theorem bindLibraries_cons {m m' : Machine σ} {host : Nat} {readOnly resume proxy : Value} {name : String}
    (rest : List String)
    (hcall : Namespace.call (Namespace.tableWith m (Namespace.offered name resume)).2 readOnly
      #[.table m.heap.tables.size, .ofString name] = (proxy, m')) :
    Namespace.bindLibraries m host readOnly resume (name :: rest)
      = Namespace.bindLibraries (Namespace.setField (if name = "string" then Namespace.guardTexts m' proxy else m') host name
          proxy) host readOnly resume rest := by
  rw [bindLibraries_eq, bindLibraries_eq]
  -- from here on nothing may run the calls
  generalize @Namespace.call σ _ = call at hcall ⊢
  rw [bindLibrariesBy]
  rw [tableWith_eq] at hcall ⊢
  simp only [hcall]

omit [Inhabited σ] in
/-- One library is bound. -/
theorem bindLibrary_spec {m : Machine σ} {p : Proto} {w : Shelves} {h : Heap} {resume : Value} {name : String}
    (hadds : AddsLibrary p h m.heap resume w.frozen name) (hapart : w.Apart h) :
    ∃ h', Namespace.setField (if name = "string" then Namespace.guardTexts m (.table (h.tables.size + 1)) else m) w.host name
        (.table (h.tables.size + 1)) = { m with heap := h' } ∧ AddsLibraries p w h h' resume [name] := by
  obtain ⟨⟨hlow, hlow', -⟩, ⟨-, -, hne⟩, -, hstrings⟩ := id hapart
  have hsize := hadds.size
  by_cases hname : name = "string"
  · rw [if_pos hname, guardTexts_eq (hadds.texts.trans hstrings), setField_eq]
    refine ⟨_, rfl, hadds.bound hapart ?_ ?_ ?_ ?_ ?_⟩
    · exact (Later.withFields _ (by simp) _).trans (Later.filed _ (by simp) _ _)
    · rw [Heap.size_filed, size_withFields]
    · rw [Heap.table_filed, if_pos ⟨rfl, by rw [size_withFields]; omega⟩, table_withFields _ _ (by omega), if_neg hne]
      rfl
    · rw [Heap.table_filed, if_neg fun heq => hne heq.1.symm, table_withFields _ _ (by omega), if_pos rfl, guardedBy]
      simp only [hname, List.foldl_cons, List.foldl_nil, if_pos]
      rfl
    · obtain ⟨-, hclosures, htexts⟩ := beside_withFields m.heap w.texts
        [("__index", .table (h.tables.size + 1)), ("__metatable", .bool false)]
      exact ⟨hclosures, htexts⟩
  · rw [if_neg hname, setField_eq]
    refine ⟨_, rfl, hadds.bound hapart (Later.filed _ (by simp) _ _) (Heap.size_filed ..) ?_ ?_ ⟨rfl, rfl⟩⟩
    · rw [Heap.table_filed, if_pos ⟨rfl, by omega⟩]
      rfl
    · rw [Heap.table_filed, if_neg fun heq => hne heq.1.symm, guardedBy]
      simp only [hname, List.foldl_cons, List.foldl_nil, if_false]

theorem Shelves.Apart.later {w : Shelves} {h h' : Heap} {filled : List Nat} (hapart : w.Apart h) (hlater : Later h h' filled)
    (hstrings : h'.stringMeta = h.stringMeta) : w.Apart h' := by
  have hsize := hlater.size
  obtain ⟨⟨hlow, hlow', hlow''⟩, hhost, htexts, hstr⟩ := hapart
  exact ⟨⟨by omega, by omega, by omega⟩, hhost, htexts, hstrings.trans hstr⟩

/-- **The libraries** are bound, one after the other. -/
theorem bindLibraries_spec {m : Machine σ} (hm : m.interval = 0) {p : Proto} {w : Shelves} {readOnly : Nat}
    (hmaker : Maker p m.heap w.frozen readOnly) (hapart : w.Apart m.heap) (resume : Value) (names : List String) :
    ∃ m', Namespace.bindLibraries m w.host (.closure readOnly) resume names = m' ∧
      AddsLibraries p w m.heap m'.heap resume names ∧ SameBeside m m' := by
  induction names generalizing m with
  | nil => exact ⟨m, rfl, AddsLibraries.none p w m.heap resume, rfl, rfl, rfl, rfl, rfl⟩
  | cons name rest ih =>
    obtain ⟨m₁, hcall, hadds, hsame⟩ := addLibrary_spec hm hmaker resume name
    obtain ⟨h, hbound, hfirst⟩ := bindLibrary_spec hadds hapart
    obtain ⟨⟨hlow, hlow', hlow''⟩, ⟨-, hne, -⟩, ⟨-, hne'⟩, -⟩ := id hapart
    rw [bindLibraries_cons rest hcall, hbound]
    obtain ⟨m', hm', hrest, hsame'⟩ := ih (m := { m₁ with heap := h }) (hsame.interval.trans hm)
      (hmaker.later hfirst.later (by simp [Shelves.filled, hne.symm, hne'.symm]))
      (hapart.later hfirst.later hfirst.strings)
    refine ⟨m', hm', hfirst.cons hrest fun i hi => ?_, hsame.trans ⟨hsame'.host, hsame'.hosts, hsame'.interrupted,
      hsame'.interval, hsame'.parked⟩⟩
    simp only [Shelves.filled, List.mem_cons, List.not_mem_nil, or_false] at hi
    rcases hi with rfl | rfl | rfl <;> assumption

end

end ScriptHost

import ScriptHost.Proofs.Namespace.Safety

/-!
# What the keepers answer

The functions that keep a namespace run without the script.  Each of them comes to an answer on sealed objects, whatever a
script has it called with, and it leaves them sealed.

* `Sealed.looksUp` — the registries of the prelude, as it reads them;
* **`answers`** — the functions that run alone keep the objects sealed, and what they answer is open.
-/

namespace ScriptHost

open ScriptHost.Script ScriptHost.Script.Machine Namespace

theorem metatable_registered (t : Table) (ids : List Nat) : (registered t ids).metatable = t.metatable := by
  induction ids generalizing t with
  | nil => rfl
  | cons i rest ih => exact (ih _).trans (Table.metatable_set ..)

namespace Ground

variable {g : Ground} {own : Nat → Prop} {h : Heap}

/-- The functions of the namespace are still there. -/
theorem Sealed.isMade (hs : g.Sealed own h) {id : Nat} {p : Proto} {xs : List Value} (hmade : IsMade g.heap id p xs) :
    IsMade h id p xs := by
  obtain ⟨upvalues, hclosure, hkeeps⟩ := hmade
  exact ⟨upvalues, hs.closures _ _ hclosure, hs.cells.keeps hkeeps⟩

/-- What a table of the namespace has under a key. -/
theorem Sealed.get_eq (hs : g.Sealed own h) {i : Nat} (hnew : g.before.tables.size ≤ i) (hi : i < g.heap.tables.size)
    (hne : i ≠ g.layout.env) (k : Value) : (h.table i).get k = (g.heap.table i).get k := by
  rw [Table.get_eq, Table.get_eq, hs.find i hnew hi hne]

/-! ### The registries -/

/-- A registry tells what it has itself. -/
theorem Sealed.looksUp (hs : g.Sealed own h) {r : Nat} (hnew : g.before.tables.size ≤ r) (hr : r + 1 < g.layout.env)
    (hfront : (g.heap.table r).metatable = some (r + 1)) (hweak : g.heap.table (r + 1) = Library.tableOf weakFields)
    (k : Value) : LooksUp h r k ((g.heap.table r).get k) := by
  have horder := g.order
  have hget := hs.get_eq (i := r) (by omega) (by omega) (by omega) k
  have hmeta : (h.table r).metatable = some (r + 1) := (hs.metatable r hnew (by omega)).trans hfront
  have hindex : (h.table (r + 1)).getStr (Bytes.ofString "__index") = .nil := by
    rw [Table.getStr_eq, hs.find (r + 1) (by omega) (by omega) (by omega), hweak]
    exact Library.find_tableOf_of_no_field (n := "__index") (by decide)
  intro source
  show Act.indexFrom true (1999 + 1) source (.table r) k h () = _
  rw [Act.indexFrom]
  dsimp only
  rw [hget]
  cases (g.heap.table r).get k with
  | nil => simp only [hmeta, hindex]
  | _ => rfl

/-- The read-only tables. -/
def IsProxy (g : Ground) (i : Nat) : Prop := ∃ j < g.count, i = g.layout.copies + 3 * j + 1

/-- Tables are keys as they are. -/
theorem asKey_eq_table {k : Value} {i : Nat} : k.asKey = .table i ↔ k = .table i := by
  cases k with
  | float x =>
    rw [Value.asKey]
    split <;> simp
  | _ => exact Iff.rfl

/-- The registry of read-only tables knows them, and nothing else. -/
theorem Sealed.looksUp_frozen (hs : g.Sealed own h) (t : Value) :
    (∀ i, t = .table i → g.IsProxy i → LooksUp h g.layout.frozen t (.bool true)) ∧
      ((∀ i, t = .table i → ¬ g.IsProxy i) → LooksUp h g.layout.frozen t .nil) := by
  have horder := g.order
  have hfrozen := g.frozen.registered
  have hlooks := hs.looksUp (r := g.layout.frozen) (by omega) (by omega) (by rw [hfrozen, metatable_registered]; rfl)
    g.frozen.frozenFront t
  have hmem (i : Nat) : i ∈ (proxies g.layout.copies g.builder.mode.libraries).map Prod.snd ↔ g.IsProxy i := by
    rw [List.mem_map]
    refine ⟨fun ⟨x, hx, hi⟩ => ?_, fun ⟨j, hj, hi⟩ => ?_⟩
    · obtain ⟨j, hj, hid⟩ := mem_proxies.mp hx
      exact ⟨j, (List.getElem?_eq_some_iff.mp hj).1, hi ▸ hid⟩
    · exact ⟨(g.builder.mode.libraries[j], i), mem_proxies.mpr ⟨j, List.getElem?_eq_getElem hj, hi⟩, rfl⟩
  rw [Table.get_eq, hfrozen, find_registered _ (wellFormed_behind _), find_behind] at hlooks
  refine ⟨fun i ht hi => ?_, fun hnot => ?_⟩
  · rwa [if_neg (by rw [ht]; exact nofun), if_pos ⟨i, (hmem i).mpr hi, asKey_eq_table.mpr ht⟩] at hlooks
  · have hunknown : ¬ ∃ i, i ∈ (proxies g.layout.copies g.builder.mode.libraries).map Prod.snd ∧ t.asKey = .table i :=
      fun ⟨i, hi, ht⟩ => hnot i (asKey_eq_table.mp ht) ((hmem i).mp hi)
    rwa [if_neg hunknown, ite_self] at hlooks

/-- The registry of environments knows the one environment, with what the host binds. -/
theorem Sealed.looksUp_hosts (hs : g.Sealed own h) (t : Value) :
    (t = .table g.layout.env → LooksUp h g.layout.hosts t (.table g.layout.host)) ∧
      (t ≠ .table g.layout.env → LooksUp h g.layout.hosts t .nil) := by
  have horder := g.order
  have hlooks := hs.looksUp (r := g.layout.hosts) (by omega) (by omega) (by rw [g.frozen.hosted, Table.metatable_set]; rfl)
    g.frozen.hostsFront t
  rw [Table.get_eq, g.frozen.hosted, Table.find_set (wellFormed_behind _), find_behind] at hlooks
  have hkey : t.asKey = (Value.table g.layout.env).asKey ↔ t = .table g.layout.env := asKey_eq_table
  refine ⟨fun ht => ?_, fun hnot => ?_⟩
  · rwa [if_neg (by rw [ht]; exact nofun), if_pos (hkey.mpr ht)] at hlooks
  · rwa [if_neg (mt hkey.mp hnot), ite_self] at hlooks

/-! ### The keepers -/

/-- Of most events the metatable of strings says nothing. -/
theorem Sealed.metamethod_text (hs : g.Sealed own h) (text : Bytes) {event : String} (hevent : event ≠ "__metatable")
    (hplain : event ∉ "__index" :: Library.textEvents) : h.metamethod (.str text) (Bytes.ofString event) = .nil := by
  have horder := g.order
  obtain ⟨index, htexts⟩ := g.frozen.find_texts
  rw [Heap.metamethod, Heap.metatable?, hs.strings, g.frozen.strings]
  show (h.table g.layout.texts).find (.ofString event) = _
  rw [hs.find _ (by omega) (by omega) (by omega), htexts, if_neg hevent, if_neg (List.ne_of_not_mem_cons hplain)]
  refine Library.find_tableOf_of_no_field ?_
  rwa [textFields, List.map_cons, show (Library.textEvents.zipIdx.map fun e => (e.1, Value.native (.builtin (.strArith e.2)))).map
    Prod.fst = Library.textEvents from rfl]

/-- The text of a name is told as it is. -/
theorem Sealed.tostring_plain (hs : g.Sealed own h) (name : Bytes) :
    h.metamethod (.str name) (Bytes.ofString "__tostring") = .nil := hs.metamethod_text name (by decide) (by decide)

/-- What the host binds is bound under a name. -/
theorem name_of_bound {k : Value} (hbound : (g.heap.table g.layout.host).get k ≠ .nil) : ∃ name, k = .ofString name := by
  rw [Table.get_eq] at hbound
  split at hbound
  · exact absurd rfl hbound
  · obtain ⟨⟨name, hname⟩, -⟩ := open_behind (.inl rfl) rfl hbound
    exact ⟨name, eq_ofString_of_asKey hname⟩

/-- Where the host binds nothing. -/
theorem find_of_free {k : Value} (hfree : (g.heap.table g.layout.host).get k = .nil) :
    (g.heap.table g.layout.host).find k.asKey = .nil := by
  rw [Table.get_eq] at hfree
  split at hfree
  · rename_i hnil
    by_contra hbound
    obtain ⟨⟨name, hname⟩, -⟩ := open_behind (.inl rfl) rfl hbound
    exact absurd (hnil.symm.trans hname) nofun
  · exact hfree

/-- An answer that keeps the objects sealed. -/
def Answers (g : Ground) (own : Nat → Prop) (h : Heap) (f : Value) (args : Array Value) : Prop :=
  ∃ r h', Comes h f args r h' ∧ g.Sealed own h' ∧ ∀ x ∈ r.contents, g.Open x

/-- A failure with a text that leaves the objects as they are. -/
theorem Answers.of_failed (hs : g.Sealed own h) {f : Value} {args : Array Value}
    (hfails : ∃ s, Comes h f args (.failed (.str s)) h) : g.Answers own h f args := by
  obtain ⟨s, hcomes⟩ := hfails
  refine ⟨_, h, hcomes, hs, fun x hx => ?_⟩
  rw [List.mem_singleton.mp hx]
  trivial

/-- **Writing to the environment.** -/
theorem assign_answers (hs : g.Sealed own h) {k v : Value} (hk : g.Open k) (hv : g.Open v) :
    g.Answers own h (.closure g.layout.assign) #[.table g.layout.env, k, v] := by
  have horder := g.order
  have hmade := hs.isMade g.frozen.assigns
  have hhost := hs.get_eq (i := g.layout.host) (by omega) (by omega) (by omega) k
  by_cases hfree : (g.heap.table g.layout.host).get k = .nil
  · rw [hfree] at hhost
    by_cases hkey : k.IsKey
    · exact ⟨_, _, assign_comes hmade hhost hkey, hs.filed (.inr ⟨rfl, find_of_free hfree⟩) hk hv, nofun⟩
    · exact .of_failed hs (assign_fails hmade hhost hkey)
  · obtain ⟨name, rfl⟩ := name_of_bound hfree
    exact .of_failed hs (assign_refuses hmade (hhost ▸ hfree) (hs.tostring_plain _))

/-- **Writing past metatables.** -/
theorem rawset_answers (hs : g.Sealed own h) {args : Array Value} (hsize : args.size ≤ 255) (hargs : ∀ x ∈ args.toList, g.Open x) :
    g.Answers own h (.closure (g.layout.helpers + 2)) args := by
  have horder := g.order
  have hmade := hs.isMade g.frozen.rawsets
  obtain ⟨t, ht⟩ : ∃ t, args.getD 0 .nil = t := ⟨_, rfl⟩
  obtain ⟨k, hk⟩ : ∃ k, args.getD 1 .nil = k := ⟨_, rfl⟩
  obtain ⟨v, hv⟩ : ∃ v, args.getD 2 .nil = v := ⟨_, rfl⟩
  have hopen : g.Open t ∧ g.Open k ∧ g.Open v := ⟨ht ▸ open_getD hargs 0, hk ▸ open_getD hargs 1, hv ▸ open_getD hargs 2⟩
  have hknown : args.getD 0 .nil = t ∧ args.getD 1 .nil = k ∧ args.getD 2 .nil = v := ⟨ht, hk, hv⟩
  -- what comes of it where nothing keeps the function from writing
  have hwrites (hfree : IsFree h g.layout.frozen g.layout.hosts t k)
      (hwritable : ∀ i, t = .table i → Sealed.Writable g i k) : g.Answers own h (.closure (g.layout.helpers + 2)) args := by
    by_cases hfit : (∃ i, t = .table i) ∧ k.IsKey
    · obtain ⟨⟨i, rfl⟩, hkey⟩ := hfit
      refine ⟨_, _, rawset_comes hmade hknown hsize hfree hkey, hs.filed (hwritable i rfl) hopen.2.1 hopen.2.2, fun x hx => ?_⟩
      rw [List.mem_singleton.mp hx]
      exact hopen.1
    · refine .of_failed hs (rawset_fails hmade hknown hsize hfree ?_)
      rw [not_and_or, not_exists] at hfit
      exact hfit
  by_cases hproxy : ∃ i, t = .table i ∧ g.IsProxy i
  · obtain ⟨i, hi, hproxy⟩ := hproxy
    exact .of_failed hs (rawset_refuses hmade hknown hsize ((hs.looksUp_frozen t).1 i hi hproxy))
  · have hfrozen := (hs.looksUp_frozen t).2 fun i hi hproxy' => hproxy ⟨i, hi, hproxy'⟩
    by_cases henv : t = .table g.layout.env
    · have hhosts := (hs.looksUp_hosts t).1 henv
      have hhost := hs.get_eq (i := g.layout.host) (by omega) (by omega) (by omega) k
      by_cases hfree : (g.heap.table g.layout.host).get k = .nil
      · refine hwrites ⟨hfrozen, .inr ⟨_, hhosts, hhost.trans hfree⟩⟩ fun i hi => .inr ⟨?_, find_of_free hfree⟩
        exact (Value.table.inj (henv.symm.trans hi)).symm
      · obtain ⟨name, rfl⟩ := name_of_bound hfree
        exact .of_failed hs (rawset_protects hmade hknown hsize hfrozen hhosts (hhost ▸ hfree) (hs.tostring_plain _))
    · refine hwrites ⟨hfrozen, .inl ((hs.looksUp_hosts t).2 henv)⟩ fun i hi => .inl ?_
      have hshown := hopen.1
      rw [hi] at hshown
      rcases hshown with rfl | hshown | hloose
      · exact absurd hi henv
      · exact absurd ⟨i, hi, hshown⟩ hproxy
      · exact hloose

/-- **A step of a traversal.** -/
theorem traverseStep_answers (hs : g.Sealed own h) {id j : Nat} (hj : j < g.count)
    (hmade : IsMade h id (Prelude.traverseStep g.code) [builtin .next, .table (g.layout.copies + 3 * j)]) {args : Array Value}
    (hsize : args.size ≤ 255) : g.Answers own h (.closure id) args := by
  have hbehind : g.Behind (g.layout.copies + 3 * j) := .inr ⟨j, hj, rfl⟩
  obtain ⟨r, hcomes, hr⟩ := traverseStep_comes hmade hsize
  cases hnext : (h.table (g.layout.copies + 3 * j)).next (args.getD 1 .nil) with
  | none =>
    rw [hnext] at hr
    obtain ⟨s, rfl⟩ := hr
    exact .of_failed hs ⟨s, hcomes⟩
  | some pair =>
    rw [hnext] at hr
    cases pair with
    | none =>
      obtain rfl := hr
      exact ⟨_, h, hcomes, hs, by simp [Reply.contents]⟩
    | some pair =>
      obtain ⟨k, v⟩ := pair
      obtain rfl := hr
      refine ⟨_, h, hcomes, hs, ?_⟩
      obtain ⟨hfind, hv⟩ := Table.find_of_next (hs.wellFormed _ (.inr hbehind)) hnext
      have horder := g.order
      rw [hs.find _ (by omega) (by omega) (by omega)] at hfind
      obtain ⟨⟨name, rfl⟩, hopen⟩ := open_behind hbehind hfind hv
      simp only [Reply.contents, List.mem_cons, List.not_mem_nil, or_false, forall_eq_or_imp, forall_eq]
      exact ⟨trivial, hopen⟩

/-- **Beginning to traverse** a read-only table. -/
theorem traverse_answers (hs : g.Sealed own h) {j : Nat} (hj : j < g.count) {args : Array Value} (hsize : args.size ≤ 255) :
    g.Answers own h (.closure (g.layout.refuse + 3 * j + 1)) args := by
  obtain ⟨name, -, hlibrary⟩ := g.library j hj
  obtain ⟨h', hcomes, upvalues, rfl, hkeeps⟩ := traverse_comes (hs.isMade hlibrary.traverses) hsize
  refine ⟨_, _, hcomes, hs.withClosure _ (fun _ hi => hi) (fun _ hi => .inl hi) (.inr ⟨j, hj, rfl, hkeeps⟩), ?_⟩
  have horder := g.order
  have hlow := (Array.getElem?_eq_some_iff.mp (hs.closures g.layout.assign _ (Array.getElem?_eq_getElem (by omega)))).1
  simp only [Reply.contents, List.mem_cons, List.not_mem_nil, or_false, forall_eq_or_imp, forall_eq]
  exact ⟨.inr (.inr hlow), .inr (.inl ⟨j, hj, rfl⟩), trivial⟩

/-- **Measuring** a read-only table. -/
theorem measure_answers (hs : g.Sealed own h) {j : Nat} (hj : j < g.count) {args : Array Value} (hsize : args.size ≤ 255) :
    g.Answers own h (.closure (g.layout.refuse + 3 * j + 2)) args := by
  obtain ⟨name, -, hlibrary⟩ := g.library j hj
  have hbehind : g.Behind (g.layout.copies + 3 * j) := .inr ⟨j, hj, rfl⟩
  refine ⟨_, _, measure_comes (hs.isMade hlibrary.measures) (hs.metatable_behind hbehind) hsize, hs.measured (.inr hbehind),
    fun x hx => ?_⟩
  rw [List.mem_singleton.mp hx]
  trivial

/-- **The functions that run alone** keep the objects sealed, and what they answer is open. -/
theorem answers (hs : g.Sealed own h) {f : Value} {args : Array Value} (hcallable : g.Callable f args)
    (halone : RunsAlone h own f) : g.Answers own h f args := by
  have horder := g.order
  obtain ⟨id, c, rfl, hnot, hclosure, hfixed⟩ := halone
  obtain ⟨hsize, hargs, hopen | ⟨v, event, htells, hassign⟩⟩ := hcallable
  · rcases hopen with ⟨hfirst, hlast⟩ | hearly | hlater
    · by_cases hrawset : id = g.layout.helpers + 2
      · exact hrawset ▸ rawset_answers hs hsize hargs
      · -- the other functions of the prelude hand on what they are given
        have hlow : id < g.heap.closures.size := by omega
        have hc := hs.closures id _ (Array.getElem?_eq_getElem hlow)
        obtain rfl := Option.some.inj (hc.symm.trans hclosure)
        have hvararg := g.frozen.passes.vararg id _ (by omega) hlast (Array.getElem?_eq_getElem hlow)
        rw [hvararg] at hfixed
        cases hfixed
    · exact absurd (hs.hosts id hearly) hnot
    · rcases hs.steps id c hlater hclosure with hown | ⟨j, hj, hproto, hkeeps⟩
      · exact absurd hown hnot
      · refine traverseStep_answers hs hj ⟨c.upvalues, ?_, hkeeps⟩ hsize
        rw [hclosure, ← hproto]
  · cases htells with
    | assign =>
      obtain ⟨k, x, rfl⟩ := hassign rfl
      exact assign_answers hs (hargs k (by simp)) (hargs x (by simp))
    | refuse j hj =>
      obtain ⟨name, -, hlibrary⟩ := g.library j hj
      exact .of_failed hs (refuse_comes (hs.isMade hlibrary.refuses) hsize)
    | traverse j hj => exact traverse_answers hs hj hsize
    | measure j hj => exact measure_answers hs hj hsize

end Ground

end ScriptHost

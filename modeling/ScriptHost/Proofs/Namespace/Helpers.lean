import ScriptHost.Proofs.Namespace.Guarded

/-!
# The helpers of the prelude

The prelude keeps the functions that it uses, makes two registries with weak keys, makes its own functions and hands six
of them over in a table.

* `HasGlobals` — the globals that it reads;
* `exec_globals`, `exec_registries`, `exec_functions`, `exec_results` — its parts, one after the other;
* `Prepared` — the objects afterwards;
* **`main_spec`** — the prelude leads there.
-/

namespace ScriptHost

open ScriptHost.Script ScriptHost.Script.Machine

section
variable {σ : Type} [Inhabited σ]

/-- The machine in the prelude, whose argument is the function that knows the termination signal. -/
def inPrelude (m : Machine σ) (id : Nat) (p : Proto) (upvalues : Array Nat) : Machine σ :=
  ((m.start (.closure id) #[.native (.host 0)]).entered ⟨Prelude.main p, upvalues⟩ hostBase 1).aside

/-- The globals that the prelude uses. -/
structure HasGlobals (h : Heap) (globals : Nat) (resume : Value) : Prop where
  plain : (h.table globals).metatable = none
  base : ∀ x ∈ [("next", Builtin.next), ("error", .error), ("rawget", .rawget), ("rawset", .rawset),
    ("setmetatable", .setmetatable), ("tostring", .tostring), ("pcall", .pcall), ("xpcall", .xpcall)],
    (h.table globals).find (.ofString x.1) = builtin x.2
  coroutines : (h.table globals).find (.ofString "coroutine") = .nil ∧ resume = .nil ∨
    ∃ co, (h.table globals).find (.ofString "coroutine") = .table co ∧ (h.table co).metatable = none ∧
      resume = builtin .coResume ∧ (h.table co).find (.ofString "resume") = resume

/-- The values that the prelude keeps of its globals. -/
def preludeLocals (resume : Value) : List Value :=
  [.native (.host 0), builtin .next, builtin .error, builtin .rawget, builtin .rawset, builtin .setmetatable,
    builtin .tostring, builtin .pcall, builtin .xpcall, resume]

omit [Inhabited σ] in
theorem gives_found {m : Machine σ} {h : Heap} {t : Nat} {s : String} {x : Value}
    (hfind : (h.table t).find (.ofString s) = x) (hx : x ≠ .nil) : Gives m h (.table t) (.ofString s) x := by
  intro source
  refine Act.index_found ?_ hx
  rw [Table.get_eq, Table.asKey_ofString, if_neg (by simp [Value.ofString])]
  exact hfind

omit [Inhabited σ] in
theorem gives_missing {m : Machine σ} {h : Heap} {t : Nat} {s : String}
    (hfind : (h.table t).find (.ofString s) = .nil) (hplain : (h.table t).metatable = none) :
    Gives m h (.table t) (.ofString s) .nil := by
  intro source
  refine Act.index_missing ?_ fun i hi => ?_
  · rw [Table.get_eq, Table.asKey_ofString, if_neg (by simp [Value.ofString])]
    exact hfind
  · rw [hplain] at hi
    cases hi

section
variable {m : Machine σ} {id n : Nat} {p : Proto} {upvalues : Array Nat} {h : Heap} {extras : List Value} {top : Nat}
  {Q : Machine σ → Prop}

/-- The prelude looks up its globals. -/
theorem exec_globals {globals : Nat} {resume : Value} {junk rest : List Value}
    (hcell : h.cells[upvalues.getD 0 0]? = some (.closed (.table globals))) (hglobals : HasGlobals h globals resume)
    (hjunk : junk.length = 10)
    (next : Exec (inPrelude m id p upvalues) n ⟨15, preludeLocals resume ++ rest, h, [.native (.host 0)], top, []⟩ Q) :
    Exec (inPrelude m id p upvalues) (n + 13) ⟨1, junk ++ rest, h, [.native (.host 0)], top, []⟩ Q := by
  match junk, hjunk with
  | [r0, r1, r2, r3, r4, r5, r6, r7, r8, r9], _ =>
  have hbase : ∀ x ∈ [("next", Builtin.next), ("error", .error), ("rawget", .rawget), ("rawset", .rawset),
      ("setmetatable", .setmetatable), ("tostring", .tostring), ("pcall", .pcall), ("xpcall", .xpcall)],
      Gives (inPrelude m id p upvalues) h (.table globals) (.ofString x.1) (builtin x.2) :=
    fun x hx => gives_found (hglobals.base x hx) nofun
  refine Exec.vararg (x := .native (.host 0)) rfl rfl rfl rfl ?_
  refine Exec.getTabUp (.ofString "next") (builtin .next) rfl rfl hcell (hbase ("next", .next) (by simp)) rfl ?_
  refine Exec.getTabUp (.ofString "error") (builtin .error) rfl rfl hcell (hbase ("error", .error) (by simp)) rfl ?_
  refine Exec.getTabUp (.ofString "rawget") (builtin .rawget) rfl rfl hcell (hbase ("rawget", .rawget) (by simp)) rfl ?_
  refine Exec.getTabUp (.ofString "rawset") (builtin .rawset) rfl rfl hcell (hbase ("rawset", .rawset) (by simp)) rfl ?_
  refine Exec.getTabUp (.ofString "setmetatable") (builtin .setmetatable) rfl rfl hcell
    (hbase ("setmetatable", .setmetatable) (by simp)) rfl ?_
  refine Exec.getTabUp (.ofString "tostring") (builtin .tostring) rfl rfl hcell
    (hbase ("tostring", .tostring) (by simp)) rfl ?_
  refine Exec.getTabUp (.ofString "pcall") (builtin .pcall) rfl rfl hcell (hbase ("pcall", .pcall) (by simp)) rfl ?_
  refine Exec.getTabUp (.ofString "xpcall") (builtin .xpcall) rfl rfl hcell (hbase ("xpcall", .xpcall) (by simp)) rfl ?_
  rcases hglobals.coroutines with ⟨hnone, rfl⟩ | ⟨co, hco, hplain, rfl, hresume⟩
  · have hmissing : Gives (inPrelude m id p upvalues) h (.table globals) (.ofString "coroutine") .nil :=
      gives_missing hnone hglobals.plain
    refine Exec.getTabUp (.ofString "coroutine") .nil rfl rfl hcell hmissing rfl ?_
    refine Exec.test rfl rfl ?_
    exact next.mono (Nat.le_add_right n 2)
  · have hfound : Gives (inPrelude m id p upvalues) h (.table globals) (.ofString "coroutine") (.table co) :=
      gives_found hco nofun
    refine Exec.getTabUp (.ofString "coroutine") (.table co) rfl rfl hcell hfound rfl ?_
    refine Exec.test rfl rfl ?_
    refine Exec.getTabUp (.ofString "coroutine") (.table co) rfl rfl hcell hfound rfl ?_
    refine Exec.getField (.ofString "resume") (builtin .coResume) rfl rfl rfl (gives_found hresume nofun) rfl ?_
    exact next

/-- The field of a metatable that makes keys weak. -/
def weakFields : List (String × Value) := [("__mode", .ofString "k")]

/-- The objects with the two registries. -/
def withRegistries (h : Heap) (n : Nat) : Heap := withFront (withFront h n weakFields) (n + 2) weakFields

theorem beside_withRegistries (h : Heap) (n : Nat) :
    (withRegistries h n).cells = h.cells ∧ (withRegistries h n).closures = h.closures ∧
      (withRegistries h n).stringMeta = h.stringMeta := by
  obtain ⟨hcells, hclosures, htexts⟩ := beside_withFront weakFields h n
  obtain ⟨hcells', hclosures', htexts'⟩ := beside_withFront weakFields (withFront h n weakFields) (n + 2)
  exact ⟨hcells'.trans hcells, hclosures'.trans hclosures, htexts'.trans htexts⟩

/-- The prelude makes its registries. -/
theorem exec_registries {resume : Value} {junk : List Value} {t : Nat} (hn : h.tables.size = t) (hjunk : junk.length = 10)
    (next : ∀ r12 r13 rest, rest.length = 6 → Exec (inPrelude m id p upvalues) n ⟨25, preludeLocals resume ++
      (.table t :: .table (t + 2) :: r12 :: r13 :: rest), withRegistries h t, extras, top, []⟩ Q) :
    Exec (inPrelude m id p upvalues) (n + 10) ⟨15, preludeLocals resume ++ junk, h, extras, top, []⟩ Q := by
  match junk, hjunk with
  | [r10, r11, r12, r13, r14, r15, r16, r17, r18, r19], _ =>
  refine Exec.move rfl rfl rfl ?_
  refine Exec.newTable t rfl hn rfl ?_
  refine Exec.newTable (t + 1) rfl (by simp [hn]) rfl ?_
  refine Exec.setField (.ofString "__mode") (.ofString "k") rfl rfl rfl rfl (fun _ => Act.setIndex_filed trivial ?_) ?_
  · simp [hn, Table.empty]
  refine Exec.call1_done [.table t, .table (t + 1)] rfl rfl rfl (Library.setmetatable_done ?_) ?_
  · simp [hn, Heap.metamethod, Heap.metatable?, Heap.table_filed, Table.empty]
  refine Exec.move rfl rfl rfl ?_
  refine Exec.newTable (t + 2) rfl (by simp [hn]) rfl ?_
  refine Exec.newTable (t + 3) rfl (by simp [hn]) rfl ?_
  refine Exec.setField (.ofString "__mode") (.ofString "k") rfl rfl rfl rfl (fun _ => Act.setIndex_filed trivial ?_) ?_
  · simp [hn, Table.empty]
  refine Exec.call1_done [.table (t + 2), .table (t + 3)] rfl rfl rfl
    (Library.setmetatable_done ?_) ?_
  · simp [hn, Heap.metamethod, Heap.metatable?, Heap.table_filed, Table.empty]
  exact next _ _ [r14, r15, r16, r17, r18, r19] rfl

/-- The fields of the table of helpers, whose functions are the first ones from `k` on; `resume` is there or not. -/
def helperFields (k : Nat) (resume : Value) : List (String × Value) :=
  [("read_only", .closure k), ("environment", .closure (k + 1)), ("rawset", .closure (k + 2)), ("pcall", .closure (k + 4)),
    ("xpcall", .closure (k + 5)), ("resume", resume)]

/-- The guarded function that resumes threads, which is there if threads are. -/
def guardedResume (k : Nat) (resume : Value) : Value := if resume.truthy then .closure k else .nil

/-- The functions that the prelude makes. -/
def madeFirst (p : Proto) (a b c d e f : Array Nat) : List Closure :=
  [⟨Prelude.readOnly p, a⟩, ⟨Prelude.environment p, b⟩, ⟨Prelude.rawset p, c⟩, ⟨Prelude.pass p, d⟩, ⟨Prelude.pcall p, e⟩,
    ⟨Prelude.xpcall p, f⟩]

/-- The function that the prelude makes last, if threads are there. -/
def MadeLast (p : Proto) (resume : Value) (others : List Closure) : Prop :=
  if resume.truthy then ∃ i, others = [⟨Prelude.resume p, i⟩] else others = []

/-- The prelude makes its functions. -/
theorem exec_functions {k : Nat} {resume r s r12 r13 : Value} {junk : List Value} (hk : h.closures.size = k)
    (hjunk : junk.length = 6) (hresume : resume = .nil ∨ resume = builtin .coResume)
    (next : ∀ h' opened a b c d e f others x,
      Makes (inPrelude m id p upvalues).frame.base 20 upvalues h h' opened (madeFirst p a b c d e f ++ others) →
      MadeLast p resume others →
      Exec (inPrelude m id p upvalues) n ⟨34, preludeLocals resume ++ [r, s, .closure k, .closure (k + 1), .closure (k + 2),
        .closure (k + 3), .closure (k + 4), .closure (k + 5), guardedResume (k + 6) resume, x], h', extras, top, opened⟩ Q) :
    Exec (inPrelude m id p upvalues) (n + 8)
      ⟨25, preludeLocals resume ++ (r :: s :: r12 :: r13 :: junk), h, extras, top, []⟩ Q := by
  subst hk
  match junk, hjunk with
  | [r14, r15, r16, r17, r18, r19], _ =>
  refine Exec.makesNext (p := 0) (Prelude.readOnly p) _ (Makes.none _ 20 upvalues h) rfl rfl rfl rfl rfl
    fun a h₁ opened₁ hmade => ?_
  refine Exec.makesNext (p := 1) (Prelude.environment p) _ hmade rfl rfl rfl rfl rfl fun b h₂ opened₂ hmade => ?_
  refine Exec.makesNext (p := 2) (Prelude.rawset p) _ hmade rfl rfl rfl rfl rfl fun c h₃ opened₃ hmade => ?_
  refine Exec.makesNext (p := 3) (Prelude.pass p) _ hmade rfl rfl rfl rfl rfl fun d h₄ opened₄ hmade => ?_
  refine Exec.makesNext (p := 4) (Prelude.pcall p) _ hmade rfl rfl rfl rfl rfl fun e h₅ opened₅ hmade => ?_
  refine Exec.makesNext (p := 5) (Prelude.xpcall p) _ hmade rfl rfl rfl rfl rfl fun f h₆ opened₆ hmade => ?_
  rcases hresume with rfl | rfl
  · refine Exec.testSet_kept rfl rfl rfl rfl ?_
    exact (next _ _ a b c d e f [] r19 hmade rfl).mono (Nat.le_succ n)
  · refine Exec.testSet rfl rfl rfl ?_
    refine Exec.makesNext (p := 6) (Prelude.resume p) _ hmade rfl rfl rfl rfl rfl fun i h₇ opened₇ hmade => ?_
    exact next _ _ a b c d e f [⟨Prelude.resume p, i⟩] r19 hmade ⟨i, rfl⟩

/-- The prelude hands its helpers over. -/
theorem exec_results {h' : Heap} {k t : Nat} {resume r s last x : Value} {opened : List (Nat × Nat)} {made : List Closure}
    (hn : h.tables.size = t) (hmade : Makes (inPrelude m id p upvalues).frame.base 20 upvalues h h' opened made)
    (hQ : ∀ cells, CellsStay h.cells cells →
      (∀ c ∈ made, ∀ xs, Keeps h.cells upvalues xs → known xs.length c.proto.upvalues.toList = true →
        Keeps cells c.upvalues (captured ((preludeLocals resume ++ [r, s, .closure k, .closure (k + 1), .closure (k + 2),
          .closure (k + 3), .closure (k + 4), .closure (k + 5), last, x]).set 19 (.table t)) xs c.proto.upvalues.toList)) →
      ∀ m', Answers (inPrelude m id p upvalues)
        ((withFields (h'.withTable (Table.empty 0 6)) t (helperFields k last)).withCells cells)
        (.values #[.table t]) m' → Q m') :
    Exec (inPrelude m id p upvalues) 8 ⟨34, preludeLocals resume ++ [r, s, .closure k, .closure (k + 1), .closure (k + 2),
      .closure (k + 3), .closure (k + 4), .closure (k + 5), last, x], h', extras, top, opened⟩ Q := by
  have hn' : h'.tables.size = t := hmade.tables ▸ hn
  refine Exec.newTable t rfl hn' rfl ?_
  refine Exec.setField (.ofString "read_only") (.closure k) rfl rfl rfl rfl (fun _ => Act.setIndex_filed trivial ?_) ?_
  · simp [hn', Table.empty]
  refine Exec.setField (.ofString "environment") (.closure (k + 1)) rfl rfl rfl rfl
    (fun _ => Act.setIndex_filed trivial ?_) ?_
  · simp [hn', Heap.table_filed, Table.empty]
  refine Exec.setField (.ofString "rawset") (.closure (k + 2)) rfl rfl rfl rfl (fun _ => Act.setIndex_filed trivial ?_) ?_
  · simp [hn', Heap.table_filed, Table.empty]
  refine Exec.setField (.ofString "pcall") (.closure (k + 4)) rfl rfl rfl rfl (fun _ => Act.setIndex_filed trivial ?_) ?_
  · simp [hn', Heap.table_filed, Table.empty]
  refine Exec.setField (.ofString "xpcall") (.closure (k + 5)) rfl rfl rfl rfl (fun _ => Act.setIndex_filed trivial ?_) ?_
  · simp [hn', Heap.table_filed, Table.empty]
  refine Exec.setField (.ofString "resume") last rfl rfl rfl rfl (fun _ => Act.setIndex_filed trivial ?_) ?_
  · simp [hn', Heap.table_filed, Table.empty]
  have hshares : Shares (inPrelude m id p upvalues).frame.base 20 h.cells.size
      (withFields (h'.withTable (Table.empty 0 6)) t (helperFields k last)).cells opened := by
    rw [(beside_withFields ..).1]
    exact hmade.shares
  have hstay : CellsStay h.cells (withFields (h'.withTable (Table.empty 0 6)) t (helperFields k last)).cells := by
    rw [(beside_withFields ..).1]
    exact hmade.cells
  have hreturn : (inPrelude m id p upvalues).frame.proto.code.getD 41 default = .ret 19 2 true := rfl
  have hfinish : (inPrelude m id p upvalues).frame.finish = .reply := rfl
  refine Exec.returns [.table t] (a := 19) hreturn hfinish hshares hstay rfl rfl fun cells hstay hkeeps => ?_
  refine hQ cells hstay fun c hc xs houter hknown => ?_
  exact hkeeps _ _ xs (hmade.captures c hc) houter hknown

/-- Functions that hand all their arguments on, with what they keep: three of them, and a fourth one if threads are there.
All but the first keep that one, which is the function with number `k + 3`. -/
def PassOn (p : Proto) (h : Heap) (k : Nat) (resume : Value) (others : List Closure) : Prop :=
  ∃ d e f last, others = ⟨Prelude.pass p, d⟩ :: ⟨Prelude.pcall p, e⟩ :: ⟨Prelude.xpcall p, f⟩ :: last ∧
    Keeps h.cells d [.native (.host 0), builtin .error] ∧
    Keeps h.cells e [.closure (k + 3), builtin .pcall] ∧
    Keeps h.cells f [.closure (k + 3), builtin .xpcall, .native (.host 0)] ∧
    if resume.truthy then ∃ i, last = [⟨Prelude.resume p, i⟩] ∧ Keeps h.cells i [.closure (k + 3), resume] else last = []

theorem PassOn.length {h : Heap} {k : Nat} {resume : Value} {others : List Closure} (hpass : PassOn p h k resume others) :
    others.length = if resume.truthy then 4 else 3 := by
  obtain ⟨d, e, f, last, rfl, -, -, -, hlast⟩ := hpass
  split at hlast
  · rename_i hresume
    obtain ⟨i, rfl, -⟩ := hlast
    exact (if_pos hresume).symm
  · rename_i hresume
    subst hlast
    exact (if_neg hresume).symm

theorem PassOn.vararg {h : Heap} {k : Nat} {resume : Value} {others : List Closure} (hpass : PassOn p h k resume others) :
    ∀ c ∈ others, c.proto.isVararg = true := by
  obtain ⟨d, e, f, last, rfl, -, -, -, hlast⟩ := hpass
  split at hlast
  · obtain ⟨i, rfl, -⟩ := hlast
    simp [Prelude.pass, Prelude.pcall, Prelude.xpcall, Prelude.resume]
  · subst hlast
    simp [Prelude.pass, Prelude.pcall, Prelude.xpcall]

/-- The prelude has run. -/
structure Prepared (p : Proto) (resume : Value) (h h' : Heap) : Prop where
  size : h'.tables.size = h.tables.size + 5
  table : ∀ i, h'.table i =
    if i = h.tables.size + 4 then Library.tableOf (helperFields h.closures.size (guardedResume (h.closures.size + 6) resume))
    else (withRegistries h h.tables.size).table i
  texts : h'.stringMeta = h.stringMeta
  cells : CellsStay h.cells h'.cells
  closures : ∃ a b c others, h'.closures
      = h.closures ++ (⟨Prelude.readOnly p, a⟩ :: ⟨Prelude.environment p, b⟩ :: ⟨Prelude.rawset p, c⟩ :: others).toArray ∧
    PassOn p h' h.closures.size resume others ∧
    Keeps h'.cells a [builtin .setmetatable, builtin .error, builtin .next, .table h.tables.size] ∧
    Keeps h'.cells b [builtin .setmetatable, builtin .rawget, builtin .error, builtin .tostring, builtin .rawset,
      .table (h.tables.size + 2)] ∧
    Keeps h'.cells c [.table h.tables.size, builtin .error, .table (h.tables.size + 2), builtin .rawget, builtin .tostring,
      builtin .rawset]

/-- The registers of the prelude in the end. -/
def finalRegs (resume : Value) (t k : Nat) (x : Value) : List Value :=
  (preludeLocals resume ++ [.table t, .table (t + 2), .closure k, .closure (k + 1), .closure (k + 2), .closure (k + 3),
    .closure (k + 4), .closure (k + 5), guardedResume (k + 6) resume, x]).set 19 (.table (t + 4))

omit [Inhabited σ] in
/-- What the prelude leaves. -/
theorem Prepared.of_makes {base : Nat} {outer a b c d e f : Array Nat} {opened : List (Nat × Nat)} {others : List Closure}
    {h' : Heap} {cells : Array Cell} {resume x : Value}
    (hmade : Makes base 20 outer (withRegistries h h.tables.size) h' opened (madeFirst p a b c d e f ++ others))
    (hlast : MadeLast p resume others)
    (hstay : CellsStay (withRegistries h h.tables.size).cells cells)
    (hkeeps : ∀ y ∈ madeFirst p a b c d e f ++ others, Keeps cells y.upvalues
      (captured (finalRegs resume h.tables.size h.closures.size x) [] y.proto.upvalues.toList)) :
    Prepared p resume h ((withFields (h'.withTable (Table.empty 0 6)) (h.tables.size + 4)
      (helperFields h.closures.size (guardedResume (h.closures.size + 6) resume))).withCells cells) := by
  obtain ⟨hcells, hclosures, htexts⟩ := beside_withRegistries h h.tables.size
  have hsize : (withRegistries h h.tables.size).tables.size = h.tables.size + 4 := by
    rw [withRegistries, size_withFront _ (size_withFront _ rfl)]
  have hsize' : h'.tables.size = h.tables.size + 4 := by rw [hmade.tables, hsize]
  have hlow : h.tables.size + 4 < (h'.withTable (Table.empty 0 6)).tables.size := by
    rw [Heap.size_withTable, hsize']
    omega
  obtain ⟨-, hclosures', htexts'⟩ := beside_withFields (h'.withTable (Table.empty 0 6)) (h.tables.size + 4)
    (helperFields h.closures.size (guardedResume (h.closures.size + 6) resume))
  refine ⟨?_, fun i => ?_, ?_, ?_, a, b, c, ⟨Prelude.pass p, d⟩ :: ⟨Prelude.pcall p, e⟩ :: ⟨Prelude.xpcall p, f⟩ :: others, ?_,
    ⟨d, e, f, others, rfl, ?_, ?_, ?_, ?_⟩, ?_, ?_, ?_⟩
  · rw [Heap.tables_withCells, size_withFields, Heap.size_withTable, hsize']
  · have hold : h'.table i = (withRegistries h h.tables.size).table i := by
      rw [Heap.table, hmade.tables, Heap.table]
    rw [Heap.table_withCells, table_withFields _ _ hlow, Heap.table_withTable, hsize', if_pos rfl, Heap.table_withTable, hsize',
      hold]
    by_cases hi : i = h.tables.size + 4
    · rw [if_pos hi, if_pos hi]
      rfl
    · rw [if_neg hi, if_neg hi, if_neg hi]
  · rw [Heap.stringMeta_withCells, htexts', Heap.stringMeta_withTable, hmade.texts, htexts]
  · rwa [hcells] at hstay
  · rw [Heap.closures_withCells, hclosures', Heap.closures_withTable, hmade.closures, hclosures]
    rfl
  · exact hkeeps ⟨Prelude.pass p, d⟩ (by simp [madeFirst])
  · exact hkeeps ⟨Prelude.pcall p, e⟩ (by simp [madeFirst])
  · exact hkeeps ⟨Prelude.xpcall p, f⟩ (by simp [madeFirst])
  · rw [MadeLast] at hlast
    split at hlast
    · rename_i hresume
      obtain ⟨i, rfl⟩ := hlast
      rw [if_pos hresume]
      exact ⟨i, rfl, hkeeps ⟨Prelude.resume p, i⟩ (by simp)⟩
    · rename_i hresume
      rwa [if_neg hresume]
  · exact hkeeps ⟨Prelude.readOnly p, a⟩ (by simp [madeFirst])
  · exact hkeeps ⟨Prelude.environment p, b⟩ (by simp [madeFirst])
  · exact hkeeps ⟨Prelude.rawset p, c⟩ (by simp [madeFirst])

/-- **The prelude** makes the helpers. -/
theorem main_spec (hm : m.interval = 0) {globals : Nat} {resume : Value}
    (hclosure : m.heap.closures[id]? = some ⟨Prelude.main p, upvalues⟩)
    (hcell : m.heap.cells[upvalues.getD 0 0]? = some (.closed (.table globals)))
    (hglobals : HasGlobals m.heap globals resume) :
    Reaches 41 (m.start (.closure id) #[.native (.host 0)]) fun m' => ∃ h,
      Prepared p resume m.heap h ∧
      Answers (m.start (.closure id) #[.native (.host 0)]) h (.values #[.table (m.heap.tables.size + 4)]) m' := by
  refine Reaches.enterVararg (n := 39) (canEnter_start hm _ _ rfl rfl) rfl (start_heap m _ _) hclosure rfl fun junk hjunk => ?_
  have hsize : (withRegistries m.heap m.heap.tables.size).tables.size = m.heap.tables.size + 4 := by
    rw [withRegistries, size_withFront _ (size_withFront _ rfl)]
  obtain ⟨-, hclosures, -⟩ := beside_withRegistries m.heap m.heap.tables.size
  obtain ⟨junk, rest, rfl, hjunk, hrest⟩ : ∃ l r, junk = l ++ r ∧ l.length = 10 ∧ r.length = 10 :=
    ⟨junk.take 10, junk.drop 10, (List.take_append_drop 10 junk).symm, by simp [hjunk, Prelude.main],
      by simp [hjunk, Prelude.main]⟩
  have hresume : resume = .nil ∨ resume = builtin .coResume := by
    rcases hglobals.coroutines with ⟨-, h⟩ | ⟨co, -, -, h, -⟩
    · exact .inl h
    · exact .inr h
  show Exec (inPrelude m id p upvalues) 39 ⟨1, junk ++ rest, m.heap, [.native (.host 0)], _, []⟩ _
  refine exec_globals hcell hglobals hjunk ?_
  refine exec_registries (t := m.heap.tables.size) rfl hrest fun r12 r13 rest hrest => ?_
  refine exec_functions (k := m.heap.closures.size) (congrArg Array.size hclosures) hrest hresume
    fun h' opened a b c d e f others x hmade hlast => ?_
  refine exec_results hsize hmade fun cells hstay hkeeps m' hm' => ⟨_, ?_, hm'⟩
  have hnone : Keeps (withRegistries m.heap m.heap.tables.size).cells upvalues [] := fun u x hx => absurd hx nofun
  refine Prepared.of_makes (x := x) hmade hlast hstay fun y hy => ?_
  refine hkeeps y hy [] hnone ?_
  rcases List.mem_append.mp hy with hy | hy
  · simp only [madeFirst, List.mem_cons, List.not_mem_nil, or_false] at hy
    rcases hy with rfl | rfl | rfl | rfl | rfl | rfl <;> rfl
  · rw [MadeLast] at hlast
    split at hlast
    · obtain ⟨i, rfl⟩ := hlast
      rw [List.mem_singleton.mp hy]
      rfl
    · subst hlast
      exact absurd hy List.not_mem_nil

end

end

end ScriptHost

import ScriptHost.Namespace

/-!
# The code of the prelude

What the compiler makes of the prelude, function by function. The names of variables and the lines of
instructions are left as the compiler gives them; everything that decides what a function does is written out.

* `Prelude.main`: the prelude; its inner functions come before it.
* **`Prelude.exists_prelude_eq`**: this is the code that the compiler gives.
-/

namespace ScriptHost.Prelude

open ScriptHost.Script

/-- An inner function. -/
def inner (p : Proto) (i : Nat) : Proto := p.inner.getD i default

/-- Writing to a read-only table: it fails. -/
def refuse (c : Proto) : Proto :=
  { inner (inner c 0) 0 with
    paramCount := 0
    isVararg := false
    maxStack := 4
    code := #[.getUpvalue 0 0, .loadConst 1 0, .getUpvalue 2 1, .loadConst 3 1, .concat 1 3, .loadInt 2 2,
      .call 0 3 1, .ret 0 1 false]
    consts := #[.ofString "attempt to modify read-only table '", .ofString "'"]
    inner := #[]
    upvalues := #[⟨.ofString "error", false, 1⟩, ⟨.ofString "name", true, 1⟩] }

/-- The step of a traversal of a read-only table. -/
def traverseStep (c : Proto) : Proto :=
  { inner (inner (inner c 0) 1) 0 with
    paramCount := 2
    isVararg := false
    maxStack := 5
    code := #[.getUpvalue 2 0, .getUpvalue 3 1, .move 4 1, .tailCall 2 3 false, .ret 2 0 false, .ret 2 1 false]
    consts := #[]
    inner := #[]
    upvalues := #[⟨.ofString "next", false, 0⟩, ⟨.ofString "inner", false, 1⟩] }

/-- Begin to traverse a read-only table. -/
def traverse (c : Proto) : Proto :=
  { inner (inner c 0) 1 with
    paramCount := 0
    isVararg := false
    maxStack := 3
    code := #[.closure 0 0, .getUpvalue 1 2, .loadNil 2 0, .ret 0 4 false, .ret 0 1 false]
    consts := #[]
    inner := #[traverseStep c]
    upvalues := #[⟨.ofString "next", false, 2⟩, ⟨.ofString "inner", true, 0⟩, ⟨.ofString "proxy", true, 2⟩] }

/-- The length of a read-only table. -/
def measure (c : Proto) : Proto :=
  { inner (inner c 0) 2 with
    paramCount := 0
    isVararg := false
    maxStack := 2
    code := #[.getUpvalue 0 0, .len 0 0, .ret 0 2 false, .ret 0 1 false]
    consts := #[]
    inner := #[]
    upvalues := #[⟨.ofString "inner", true, 0⟩] }

/-- Make a read-only table in front of another one. -/
def readOnly (c : Proto) : Proto :=
  { inner c 0 with
    paramCount := 2
    isVararg := false
    maxStack := 7
    code := #[.newTable 2 0 0, .getUpvalue 3 0, .move 4 2, .newTable 5 5 0, .setField 5 0 (.reg 0), .closure 6 0,
      .setField 5 1 (.reg 6), .closure 6 1, .setField 5 2 (.reg 6), .closure 6 2, .setField 5 3 (.reg 6),
      .setField 5 4 (.const 5), .call 3 3 1, .getUpvalue 3 3, .setTable 3 2 (.const 6), .ret 2 2 true,
      .ret 3 1 true]
    consts := #[.ofString "__index", .ofString "__newindex", .ofString "__pairs", .ofString "__len",
      .ofString "__metatable", .bool false, .bool true]
    inner := #[refuse c, traverse c, measure c]
    upvalues := #[⟨.ofString "setmetatable", true, 5⟩, ⟨.ofString "error", true, 2⟩, ⟨.ofString "next", true, 1⟩,
      ⟨.ofString "frozen", true, 10⟩] }

/-- Writing to an environment where it has no entry yet. -/
def assign (c : Proto) : Proto :=
  { inner (inner c 1) 0 with
    paramCount := 3
    isVararg := false
    maxStack := 7
    code := #[.getUpvalue 3 0, .getUpvalue 4 1, .move 5 1, .call 3 3 2, .eqConst 3 0 true, .jump 9, .getUpvalue 3 2,
      .loadConst 4 1, .getUpvalue 5 3, .move 6 1, .call 5 2 2, .loadConst 6 2, .concat 4 3, .loadInt 5 2,
      .call 3 3 1, .getUpvalue 3 4, .move 4 0, .move 5 1, .move 6 2, .call 3 4 1, .ret 3 1 false]
    consts := #[.nil, .ofString "cannot assign to protected global '", .ofString "'"]
    inner := #[]
    upvalues := #[⟨.ofString "rawget", false, 1⟩, ⟨.ofString "host", true, 0⟩, ⟨.ofString "error", false, 2⟩,
      ⟨.ofString "tostring", false, 3⟩, ⟨.ofString "rawset", false, 4⟩] }

/-- Make an environment in front of the table of bound names. -/
def environment (c : Proto) : Proto :=
  { inner c 1 with
    paramCount := 1
    isVararg := false
    maxStack := 6
    code := #[.newTable 1 0 0, .getUpvalue 2 0, .move 3 1, .newTable 4 3 0, .setField 4 0 (.reg 0), .closure 5 0,
      .setField 4 1 (.reg 5), .setField 4 2 (.const 3), .call 2 3 1, .getUpvalue 2 5, .setTable 2 1 (.reg 0),
      .ret 1 2 true, .ret 2 1 true]
    consts := #[.ofString "__index", .ofString "__newindex", .ofString "__metatable", .bool false]
    inner := #[assign c]
    upvalues := #[⟨.ofString "setmetatable", true, 5⟩, ⟨.ofString "rawget", true, 3⟩, ⟨.ofString "error", true, 2⟩,
      ⟨.ofString "tostring", true, 6⟩, ⟨.ofString "rawset", true, 4⟩, ⟨.ofString "hosts", true, 11⟩] }

/-- Writing to a table past its metatable, as scripts get it. -/
def rawset (c : Proto) : Proto :=
  { inner c 2 with
    paramCount := 3
    isVararg := false
    maxStack := 8
    code := #[.getUpvalue 3 0, .getTable 3 3 0, .test 3 false, .jump 4, .getUpvalue 3 1, .loadConst 4 0, .loadInt 5 2,
      .call 3 3 1, .getUpvalue 3 2, .getTable 3 3 0, .eqConst 3 1 true, .jump 15, .getUpvalue 4 3, .move 5 3,
      .move 6 1, .call 4 3 2, .eqConst 4 1 true, .jump 9, .getUpvalue 4 1, .loadConst 5 2, .getUpvalue 6 4,
      .move 7 1, .call 6 2 2, .loadConst 7 3, .concat 5 3, .loadInt 6 2, .call 4 3 1, .getUpvalue 4 5,
      .move 5 0, .move 6 1, .move 7 2, .tailCall 4 4 false, .ret 4 0 false, .ret 4 1 false]
    consts := #[.ofString "attempt to modify read-only table", .nil, .ofString "cannot assign to protected global '",
      .ofString "'"]
    inner := #[]
    upvalues := #[⟨.ofString "frozen", true, 10⟩, ⟨.ofString "error", true, 2⟩, ⟨.ofString "hosts", true, 11⟩,
      ⟨.ofString "rawget", true, 3⟩, ⟨.ofString "tostring", true, 6⟩, ⟨.ofString "rawset", true, 4⟩] }

/-- Hand the answer of a protected call on, unless it is the termination signal. -/
def pass (c : Proto) : Proto :=
  { inner c 3 with
    paramCount := 1
    isVararg := true
    maxStack := 4
    code := #[.varargPrep 1, .test 0 true, .jump 9, .getUpvalue 1 0, .vararg 2 2, .call 1 2 2, .test 1 false, .jump 4,
      .getUpvalue 1 1, .vararg 2 2, .loadInt 3 0, .call 1 3 1, .move 1 0, .vararg 2 0, .ret 1 0 false,
      .ret 1 1 false]
    consts := #[]
    inner := #[]
    upvalues := #[⟨.ofString "is_interrupt", true, 0⟩, ⟨.ofString "error", true, 2⟩] }

/-- Call a function; its failure is an answer. -/
def pcall (c : Proto) : Proto :=
  { inner c 4 with
    paramCount := 1
    isVararg := true
    maxStack := 5
    code := #[.varargPrep 1, .getUpvalue 1 0, .getUpvalue 2 1, .move 3 0, .vararg 4 0, .call 2 0 0,
      .tailCall 1 0 false, .ret 1 0 false, .ret 1 1 false]
    consts := #[]
    inner := #[]
    upvalues := #[⟨.ofString "pass", true, 15⟩, ⟨.ofString "pcall", true, 7⟩] }

/-- Let a handler see a failure, unless it is the termination signal. -/
def handle (c : Proto) : Proto :=
  { inner (inner c 5) 0 with
    paramCount := 1
    isVararg := false
    maxStack := 3
    code := #[.getUpvalue 1 0, .move 2 0, .call 1 2 2, .test 1 false, .jump 1, .ret 0 2 false, .getUpvalue 1 1,
      .move 2 0, .tailCall 1 2 false, .ret 1 0 false, .ret 1 1 false]
    consts := #[]
    inner := #[]
    upvalues := #[⟨.ofString "is_interrupt", false, 2⟩, ⟨.ofString "handler", true, 1⟩] }

/-- Call a function with a handler of its failures. -/
def xpcall (c : Proto) : Proto :=
  { inner c 5 with
    paramCount := 2
    isVararg := true
    maxStack := 7
    code := #[.varargPrep 2, .getUpvalue 2 0, .getUpvalue 3 1, .move 4 0, .closure 5 0, .vararg 6 0, .call 3 0 0,
      .tailCall 2 0 true, .ret 2 0 true, .ret 2 1 true]
    consts := #[]
    inner := #[handle c]
    upvalues := #[⟨.ofString "pass", true, 15⟩, ⟨.ofString "xpcall", true, 8⟩, ⟨.ofString "is_interrupt", true, 0⟩] }

/-- Resume a thread; its failure is an answer. -/
def resume (c : Proto) : Proto :=
  { inner c 6 with
    paramCount := 1
    isVararg := true
    maxStack := 5
    code := #[.varargPrep 1, .getUpvalue 1 0, .getUpvalue 2 1, .move 3 0, .vararg 4 0, .call 2 0 0,
      .tailCall 1 0 false, .ret 1 0 false, .ret 1 1 false]
    consts := #[]
    inner := #[]
    upvalues := #[⟨.ofString "pass", true, 15⟩, ⟨.ofString "resume", true, 9⟩] }

/-- The prelude itself. -/
def main (c : Proto) : Proto :=
  { c with
    paramCount := 0
    isVararg := true
    maxStack := 20
    code := #[.varargPrep 0, .vararg 0 2, .getTabUp 1 0 0, .getTabUp 2 0 1, .getTabUp 3 0 2, .getTabUp 4 0 3,
      .getTabUp 5 0 4, .getTabUp 6 0 5, .getTabUp 7 0 6, .getTabUp 8 0 7, .getTabUp 9 0 8, .test 9 false,
      .jump 2, .getTabUp 9 0 8, .getField 9 9 9, .move 10 5, .newTable 11 0 0, .newTable 12 1 0,
      .setField 12 10 (.const 11), .call 10 3 2, .move 11 5, .newTable 12 0 0, .newTable 13 1 0,
      .setField 13 10 (.const 11), .call 11 3 2, .closure 12 0, .closure 13 1, .closure 14 2, .closure 15 3,
      .closure 16 4, .closure 17 5, .testSet 18 9 false, .jump 1, .closure 18 6, .newTable 19 6 0,
      .setField 19 12 (.reg 12), .setField 19 13 (.reg 13), .setField 19 3 (.reg 14),
      .setField 19 6 (.reg 16), .setField 19 7 (.reg 17), .setField 19 9 (.reg 18), .ret 19 2 true,
      .ret 19 1 true]
    consts := #[.ofString "next", .ofString "error", .ofString "rawget", .ofString "rawset", .ofString "setmetatable",
      .ofString "tostring", .ofString "pcall", .ofString "xpcall", .ofString "coroutine", .ofString "resume",
      .ofString "__mode", .ofString "k", .ofString "read_only", .ofString "environment"]
    inner := #[readOnly c, environment c, rawset c, pass c, pcall c, xpcall c, resume c]
    upvalues := #[⟨.ofString "_ENV", true, 0⟩] }

/-- One function has the code of another, and so many inner functions. -/
def HasCodeOf (p q : Proto) : Prop :=
  p.paramCount = q.paramCount ∧ p.isVararg = q.isVararg ∧ p.maxStack = q.maxStack ∧ p.code = q.code ∧
    p.consts = q.consts ∧ p.upvalues = q.upvalues ∧ p.inner.size = q.inner.size

instance (p q : Proto) : Decidable (HasCodeOf p q) := by
  unfold HasCodeOf
  infer_instance

/-- A chunk and its inner functions have the code that is written out above. -/
def HasCode (c : Proto) : Prop :=
  HasCodeOf c (main c) ∧ HasCodeOf (inner c 0) (readOnly c) ∧ HasCodeOf (inner (inner c 0) 0) (refuse c) ∧
    HasCodeOf (inner (inner c 0) 1) (traverse c) ∧ HasCodeOf (inner (inner (inner c 0) 1) 0) (traverseStep c) ∧
    HasCodeOf (inner (inner c 0) 2) (measure c) ∧ HasCodeOf (inner c 1) (environment c) ∧
    HasCodeOf (inner (inner c 1) 0) (assign c) ∧ HasCodeOf (inner c 2) (rawset c) ∧ HasCodeOf (inner c 3) (pass c) ∧
    HasCodeOf (inner c 4) (pcall c) ∧ HasCodeOf (inner c 5) (xpcall c) ∧
    HasCodeOf (inner (inner c 5) 0) (handle c) ∧ HasCodeOf (inner c 6) (resume c)

instance (c : Proto) : Decidable (HasCode c) := by
  unfold HasCode
  infer_instance

/-- Functions with the same code, the same inner functions and the same rest are the same. -/
theorem HasCodeOf.eq {p q : Proto} (h : HasCodeOf p q) (hsource : p.source = q.source)
    (hdefined : p.lineDefined = q.lineDefined) (hlines : p.lines = q.lines) (hlocals : p.locals = q.locals)
    (hinner : ∀ i < q.inner.size, inner p i = inner q i) : p = q := by
  obtain ⟨hparams, hvararg, hstack, hcode, hconsts, hupvalues, hsize⟩ := h
  have harrays : p.inner = q.inner := by
    refine Array.ext hsize fun i hp hq => ?_
    have hi := hinner i hq
    rwa [inner, inner, Array.getD_eq_getD_getElem?, Array.getD_eq_getD_getElem?, Array.getElem?_eq_getElem hp,
      Array.getElem?_eq_getElem hq] at hi
  cases p
  cases q
  simp_all

theorem forall_lt_one {p : Nat → Prop} (h : p 0) : ∀ i < 1, p i := by
  intro i hi
  obtain rfl : i = 0 := by omega
  exact h

/-- A chunk that has the code of the prelude is the prelude. -/
theorem HasCode.eq_main {c : Proto} (h : HasCode c) : c = main c := by
  obtain ⟨hmain, hreadOnly, hrefuse, htraverse, hstep, hmeasure, henvironment, hassign, hrawset, hpass, hpcall, hxpcall,
    hhandle, hresume⟩ := h
  have hnone : ∀ {q : Proto}, q.inner = #[] → ∀ i < q.inner.size, ∀ p, inner p i = inner q i := by
    intro q hq i hi
    rw [hq] at hi
    cases hi
  have hstep := hstep.eq rfl rfl rfl rfl fun i hi => hnone (q := traverseStep c) rfl i hi _
  have hrefuse := hrefuse.eq rfl rfl rfl rfl fun i hi => hnone (q := refuse c) rfl i hi _
  have htraverse := htraverse.eq rfl rfl rfl rfl (forall_lt_one hstep)
  have hmeasure := hmeasure.eq rfl rfl rfl rfl fun i hi => hnone (q := measure c) rfl i hi _
  have hassign := hassign.eq rfl rfl rfl rfl fun i hi => hnone (q := assign c) rfl i hi _
  have hhandle := hhandle.eq rfl rfl rfl rfl fun i hi => hnone (q := handle c) rfl i hi _
  have hreadOnly := hreadOnly.eq rfl rfl rfl rfl fun i (hi : i < 3) => by
    obtain rfl | rfl | rfl : i = 0 ∨ i = 1 ∨ i = 2 := by omega
    · exact hrefuse
    · exact htraverse
    · exact hmeasure
  have henvironment := henvironment.eq rfl rfl rfl rfl (forall_lt_one hassign)
  have hxpcall := hxpcall.eq rfl rfl rfl rfl (forall_lt_one hhandle)
  have hrawset := hrawset.eq rfl rfl rfl rfl fun i hi => hnone (q := rawset c) rfl i hi _
  have hpass := hpass.eq rfl rfl rfl rfl fun i hi => hnone (q := pass c) rfl i hi _
  have hpcall := hpcall.eq rfl rfl rfl rfl fun i hi => hnone (q := pcall c) rfl i hi _
  have hresume := hresume.eq rfl rfl rfl rfl fun i hi => hnone (q := resume c) rfl i hi _
  exact hmain.eq rfl rfl rfl rfl fun i (hi : i < 7) => by
    obtain rfl | rfl | rfl | rfl | rfl | rfl | rfl :
      i = 0 ∨ i = 1 ∨ i = 2 ∨ i = 3 ∨ i = 4 ∨ i = 5 ∨ i = 6 := by omega
    · exact hreadOnly
    · exact henvironment
    · exact hrawset
    · exact hpass
    · exact hpcall
    · exact hxpcall
    · exact hresume

/-! ### What the compiler gives -/

/-- The bytes of a text that is given by its characters. -/
theorem data_ofString (l : List Char) :
    (Bytes.ofString (String.ofList l)).data.toList = l.flatMap String.utf8EncodeChar := by
  simp [Bytes.ofString, String.toByteArray_ofList, List.utf8Encode]

theorem compile_ofList (name : Bytes) (l : List Char) :
    compile name (Bytes.ofString (String.ofList l)) = compileFrom name (l.flatMap String.utf8EncodeChar) := by
  rw [compile, data_ofString]

/-- Compiling gives a chunk with the code of the prelude. -/
def CompilesToCode : Except Bytes Proto → Prop
  | .ok c => HasCode c
  | .error _ => False

instance (r : Except Bytes Proto) : Decidable (CompilesToCode r) := by
  unfold CompilesToCode
  cases r <;> infer_instance

set_option maxRecDepth 100000 in
theorem compilesToCode_prelude : CompilesToCode Namespace.prelude := by
  have text : Namespace.prelude = compileFrom (Bytes.ofString "sandbox") _ :=
    compile_ofList (Bytes.ofString "sandbox") _
  rw [text]
  decide +kernel

theorem exists_main {r : Except Bytes Proto} (hr : CompilesToCode r) : ∃ c, r = .ok (main c) := by
  cases r with
  | error e => exact hr.elim
  | ok c => exact ⟨c, congrArg _ hr.eq_main⟩

set_option maxRecDepth 100000 in
/-- **The prelude.**  It is compiled to the code that is written out above. -/
theorem exists_prelude_eq : ∃ c, Namespace.prelude = .ok (main c) := exists_main compilesToCode_prelude

end ScriptHost.Prelude

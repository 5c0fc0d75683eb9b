import ScriptHost.Script.Token
import ScriptHost.Script.Code

/-!
# Writing the code of a function

The compiler reads a source once and writes instructions as it goes. An expression is described by
where its value is (`Place`) together with the jumps that leave it when it turns out true or false;
only when the value is wanted is it put somewhere.

* `Compile`: the compiler's state and its failures, which are finished messages.
* `toNextReg`, `toAnyReg`, `toOperand`: put a value where an instruction can use it.
* `jumpIfFalse`, `jumpIfTrue`: leave an expression by a jump.
* `emitBinary`, `emitUnary`: operators, with constants folded.
-/

namespace ScriptHost.Script

/-- The kind of a local variable. -/
inductive VarKind where
  | regular
  | constant
  | toClose
  /-- A constant whose value the compiler knows; it has no register. -/
  | known
  deriving DecidableEq, Inhabited

/-- A local variable in scope. -/
structure VarDesc where
  name : Bytes
  kind : VarKind := .regular
  reg : Nat := 0
  /-- Its place among the described locals of its function. -/
  slot : Nat := 0
  value : Value := .nil
  deriving Inhabited

/-- A label, or a jump to a label that is still to come. -/
structure LabelDesc where
  name : Bytes
  /-- The jumps to patch, or the label's one position. -/
  pcs : List Nat
  line : Nat
  /-- How many variables are in scope there. -/
  level : Nat
  /-- A jump leaves the scope of a variable that has to be closed. -/
  close : Bool := false
  deriving Inhabited

/-- A block of statements. -/
structure Block where
  isLoop : Bool
  level : Nat
  firstLabel : Nat
  firstGoto : Nat
  /-- A variable of the block is used by an inner function. -/
  captured : Bool := false
  /-- The block is inside the scope of a variable to be closed. -/
  insideClose : Bool := false
  deriving Inhabited

/-- A function under construction. -/
structure Draft where
  lineDefined : Nat := 0
  paramCount : Nat := 0
  isVararg : Bool := false
  maxStack : Nat := 2
  code : Array Instr := #[]
  lines : Array Nat := #[]
  consts : Array Value := #[]
  inner : Array Proto := #[]
  upvalues : Array UpvalueDesc := #[]
  upvalueKinds : Array VarKind := #[]
  locals : Array LocalDesc := #[]
  /-- The last position that a jump may lead to. -/
  lastTarget : Nat := 0
  blocks : List Block := []
  /-- How many local variables are in scope. -/
  level : Nat := 0
  freeReg : Nat := 0
  needClose : Bool := false
  /-- The first of its variables among all variables in scope. -/
  firstVar : Nat := 0
  firstLabel : Nat := 0
  deriving Inhabited

/-- The compiler's state. -/
structure CompileState where
  chunk : Bytes
  cursor : Cursor := {}
  /-- The line of the last token that was used. -/
  lastLine : Nat := 1
  current : Lexeme := ⟨.eof, ByteArray.empty⟩
  ahead : Option (Lexeme × Cursor) := none
  draft : Draft := {}
  outer : List Draft := []
  vars : Array VarDesc := #[]
  gotos : Array LabelDesc := #[]
  labels : Array LabelDesc := #[]
  /-- How deep the parser is nested. -/
  depth : Nat := 0
  deriving Inhabited

/-- The compiler: a state, or the message of the first fault. -/
abbrev Compile := StateT CompileState (Except Bytes)

namespace Compile

/-- Stop with a message exactly as given. -/
def failPlain {α : Type} (message : Bytes) : Compile α := throw message

/-- A message with its place in front. -/
def located (s : CompileState) (line : Nat) (message : Bytes) : Bytes :=
  (s.chunk.append (Bytes.ofString (":" ++ toString line ++ ": "))).append message

/-- Stop with a message about the place that is being read. -/
def failHere {α : Type} (message : Bytes) : Compile α := do
  let s ← get
  throw (located s s.cursor.line message)

/-- Stop with a message that names the current token. -/
def failNear {α : Type} (message : Bytes) : Compile α := do
  let s ← get
  failHere ((message.append (Bytes.ofString " near ")).append s.current.quoted)

/-- The function under construction. -/
@[inline] def draft : Compile Draft := return (← get).draft

/-- Change the function under construction. -/
@[inline] def onDraft (f : Draft → Draft) : Compile Unit := modify fun s => { s with draft := f s.draft }

/-- A limit of the language was met. -/
def limitError {α : Type} (limit : Nat) (what : String) : Compile α := do
  let d ← draft
  let place := if d.lineDefined = 0 then "main function"
    else "function at line " ++ toString d.lineDefined
  failNear (Bytes.ofString
    ("too many " ++ what ++ " (limit is " ++ toString limit ++ ") in " ++ place))

/-- The description of a variable of the current function. -/
def varAt (i : Nat) : Compile VarDesc := do
  let s ← get
  return s.vars.getD (s.draft.firstVar + i) default

/-- Change the description of a variable of the current function. -/
def onVar (i : Nat) (f : VarDesc → VarDesc) : Compile Unit :=
  modify fun s => { s with vars := s.vars.modify (s.draft.firstVar + i) f }

/-- The number of registers that the first `n` variables of a function take. -/
def registersOf (vars : Array VarDesc) (firstVar : Nat) : Nat → Nat
  | 0 => 0
  | n + 1 =>
    let v := vars.getD (firstVar + n) default
    if v.kind = .known then registersOf vars firstVar n else v.reg + 1

/-- The number of registers below the scope level `n`. -/
def registerLevel (n : Nat) : Compile Nat := do
  let s ← get
  return registersOf s.vars s.draft.firstVar n

/-- The number of registers that hold variables now. -/
def variableRegs : Compile Nat := do registerLevel (← draft).level

end Compile

/-- Where the value of an expression is. -/
inductive Place where
  | void
  | nil
  | true
  | false
  | konst (k : Nat)
  | float (x : Float)
  | int (n : Int64)
  | str (s : Bytes)
  /-- In a register of its own. -/
  | reg (r : Nat)
  /-- In the register of a variable. -/
  | local (r : Nat) (var : Nat)
  | upvalue (u : Nat)
  /-- The known value of a variable, by its number among all variables. -/
  | known (var : Nat)
  | index (t i : Nat)
  | indexUp (u k : Nat)
  | indexInt (t : Nat) (n : Nat)
  | indexField (t k : Nat)
  /-- It is the outcome of a test; the jump after the test is given. -/
  | jump (pc : Nat)
  /-- The instruction that computes it still lacks its destination. -/
  | pending (pc : Nat)
  | call (pc : Nat)
  | vararg (pc : Nat)
  deriving Inhabited

/-- An expression: where its value is, and the jumps that leave it when it is true or false. -/
structure Exp where
  place : Place
  onTrue : List Nat := []
  onFalse : List Nat := []
  deriving Inhabited

namespace Exp

/-- Jumps leave the expression early. -/
def hasJumps (e : Exp) : Bool := !(e.onTrue.isEmpty && e.onFalse.isEmpty)

/-- The expression can have any number of values. -/
def isMulti (e : Exp) : Bool := match e.place with
  | .call _ | .vararg _ => true
  | _ => false

/-- The expression is a field or element of something. -/
def isIndexed (e : Exp) : Bool := match e.place with
  | .index .. | .indexUp .. | .indexInt .. | .indexField .. => true
  | _ => false

/-- The expression names something that might be assigned to. -/
def isVariable (e : Exp) : Bool := match e.place with
  | .local .. | .upvalue _ | .known _ => true
  | _ => e.isIndexed

/-- The number an expression is, if it is written as one. -/
def numeral? (e : Exp) : Option Value :=
  if e.hasJumps then none
  else match e.place with
    | .int n => some (.int n)
    | .float x => some (.float x)
    | _ => none

end Exp

namespace Compile

/-- The greatest number of registers of a function. -/
def maxRegs : Nat := 255

/-- The greatest number of a constant that most instructions can name. -/
def maxConstOperand : Nat := 255

/-- A small number that fits an instruction's operand. -/
def isSmall (n : Int) : Bool := decide (-127 ≤ n) && decide (n ≤ 128)

/-- A small number that fits a load instruction. -/
def isLoadable (n : Int) : Bool := decide (-65535 ≤ n) && decide (n ≤ 65536)

/-- The longest string that can name a field in an instruction. -/
def maxFieldName : Nat := 40

/-- Append an instruction; its number is returned. -/
def emit (i : Instr) : Compile Nat := do
  let s ← get
  let pc := s.draft.code.size
  onDraft fun d => { d with code := d.code.push i, lines := d.lines.push s.lastLine }
  return pc

/-- Set the line of the last instruction. -/
def fixLine (line : Nat) : Compile Unit :=
  onDraft fun d => { d with lines := put d.lines (d.lines.size - 1) line }

/-- The instruction at a position. -/
def instrAt (pc : Nat) : Compile Instr := return (← draft).code.getD pc default

/-- Change the instruction at a position. -/
def onInstr (pc : Nat) (f : Instr → Instr) : Compile Unit :=
  onDraft fun d => { d with code := changeAt d.code pc f }

/-- Take the last instruction back. -/
def dropLast : Compile Unit := onDraft fun d => { d with code := d.code.pop, lines := d.lines.pop }

/-- The last instruction, unless a jump may lead behind it. -/
def previous? : Compile (Option Instr) := do
  let d ← draft
  return if d.lastTarget < d.code.size then d.code.back? else none

/-- Mark the current position as one that jumps may lead to. -/
def here : Compile Nat := do
  let d ← draft
  onDraft fun d => { d with lastTarget := d.code.size }
  return d.code.size

/-- The number of a constant, added if it is new. Integers and floats of one value stay apart. -/
def constant (v : Value) : Compile Nat := do
  let d ← draft
  match d.consts.findIdx? (· == v) with
  | some k => return k
  | none =>
    onDraft fun d => { d with consts := d.consts.push v }
    return d.consts.size

/-- Make sure that `n` more registers fit. -/
def checkStack (n : Nat) : Compile Unit := do
  let d ← draft
  let wanted := d.freeReg + n
  if d.maxStack < wanted then
    if maxRegs ≤ wanted then
      failNear (Bytes.ofString "function or expression needs too many registers")
    onDraft fun d => { d with maxStack := wanted }

/-- Take `n` registers. -/
def reserve (n : Nat) : Compile Unit := do
  checkStack n
  onDraft fun d => { d with freeReg := d.freeReg + n }

/-- Give a register back unless it belongs to a variable. -/
def freeRegister (r : Nat) : Compile Unit := do
  if (← variableRegs) ≤ r then onDraft fun d => { d with freeReg := d.freeReg - 1 }

/-- Give the register of an expression back. -/
def freeExp (e : Exp) : Compile Unit := match e.place with
  | .reg r => freeRegister r
  | _ => pure ()

/-- Give the registers of two expressions back, the higher one first. -/
def freeExps (a b : Exp) : Compile Unit := match a.place, b.place with
  | .reg r, .reg q => do freeRegister (max r q); freeRegister (min r q)
  | _, _ => do freeExp a; freeExp b

/-- Set `n` registers from `r` on to `nil`, together with those just before if possible. -/
def emitNil (r n : Nat) : Compile Unit := do
  let last := r + n - 1
  match ← previous? with
  | some (.loadNil p m) =>
    let pl := p + m
    if (p ≤ r && r ≤ pl + 1) || (r ≤ p && p ≤ last + 1) then
      let first := min p r
      let last := max pl last
      onDraft fun d => { d with code := put d.code (d.code.size - 1) (.loadNil first (last - first)) }
    else discard <| emit (.loadNil r (n - 1))
  | _ => discard <| emit (.loadNil r (n - 1))

/-- Append a jump whose goal is still open. -/
def emitJump : Compile Nat := emit (.jump 0)

/-- Append a test and the jump that it decides about. -/
def emitTest (i : Instr) : Compile Nat := do
  discard <| emit i
  emitJump

/-- The instruction that decides about a jump: the test before it, or the jump itself. -/
def controlOf (code : Array Instr) (pc : Nat) : Nat :=
  if 0 < pc && (code.getD (pc - 1) default).isTest then pc - 1 else pc

/-- Give a jump its goal. -/
def aim (pc goal : Nat) : Compile Unit := onInstr pc fun _ => .jump ((goal : Int) - (pc + 1))

/-- If a jump's test also copies the tested value: copy it to `r`, or no longer at all if there is no
`r`. Says whether it was such a test. -/
def redirectCopy (pc : Nat) (r : Option Nat) : Compile Bool := do
  let d ← draft
  let at_ := controlOf d.code pc
  match d.code.getD at_ default with
  | .testSet _ b k =>
    match r with
    | some r =>
      if r ≠ b then onInstr at_ fun _ => .testSet r b k
      else onInstr at_ fun _ => .test b k
    | none => onInstr at_ fun _ => .test b k
    return true
  | _ => return false

/-- Aim all jumps of a list: those that copy their value into `r` at `copied`, the others at `plain`. -/
def aimAll (list : List Nat) (copied : Nat) (r : Option Nat) (plain : Nat) : Compile Unit :=
  list.forM fun pc => do
    if ← redirectCopy pc r then aim pc copied else aim pc plain

/-- Aim all jumps of a list at one goal. -/
def patch (list : List Nat) (goal : Nat) : Compile Unit := aimAll list goal none goal

/-- Aim all jumps of a list at the current position. -/
def patchHere (list : List Nat) : Compile Unit := do patch list (← here)

/-- Some jump of the list leaves with a value that is not copied anywhere. -/
def needsValue (list : List Nat) : Compile Bool := do
  let d ← draft
  return list.any fun pc => match d.code.getD (controlOf d.code pc) default with
    | .testSet .. => false
    | _ => true

/-- Ask a call or the extra arguments for `n` results, or for all. -/
def setResults (e : Exp) (n : Option Nat) : Compile Unit := do
  let c := match n with
    | some n => n + 1
    | none => 0
  match e.place with
  | .call pc => onInstr pc fun i => match i with
    | .call a b _ => .call a b c
    | i => i
  | .vararg pc =>
    let d ← draft
    onInstr pc fun _ => .vararg d.freeReg c
    reserve 1
  | _ => pure ()

/-- Cut a call or the extra arguments to one value. -/
def setOneResult (e : Exp) : Compile Exp := do
  match e.place with
  | .call pc =>
    match ← instrAt pc with
    | .call a _ _ => return { e with place := .reg a }
    | _ => return e
  | .vararg pc =>
    onInstr pc fun i => match i with
      | .vararg a _ => .vararg a 2
      | i => i
    return { e with place := .pending pc }
  | _ => return e

/-- The place of a constant value. -/
def placeOf : Value → Place
  | .int n => .int n
  | .float x => .float x
  | .bool b => if b then .true else .false
  | .str s => .str s
  | _ => .nil

/-- Make sure an expression is no longer a variable: it is a constant, in a register or pending. -/
def discharge (e : Exp) : Compile Exp := do
  match e.place with
  | .known i => return { e with place := placeOf ((← get).vars.getD i default).value }
  | .local r _ => return { e with place := .reg r }
  | .upvalue u => return { e with place := .pending (← emit (.getUpvalue 0 u)) }
  | .indexUp u k => return { e with place := .pending (← emit (.getTabUp 0 u k)) }
  | .indexInt t n =>
    freeRegister t
    return { e with place := .pending (← emit (.getInt 0 t n)) }
  | .indexField t k =>
    freeRegister t
    return { e with place := .pending (← emit (.getField 0 t k)) }
  | .index t i =>
    freeRegister (max t i)
    freeRegister (min t i)
    return { e with place := .pending (← emit (.getTable 0 t i)) }
  | .call _ | .vararg _ => setOneResult e
  | _ => return e

/-- Load an integer. -/
def emitInt (r : Nat) (n : Int64) : Compile Unit := do
  if isLoadable n.toInt then discard <| emit (.loadInt r n.toInt)
  else discard <| emit (.loadConst r (← constant (.int n)))

/-- Load a float. -/
def emitFloat (r : Nat) (x : Float) : Compile Unit := do
  match Value.floatToInt? x with
  | some n =>
    if isLoadable n.toInt then discard <| emit (.loadFloat r n.toInt)
    else discard <| emit (.loadConst r (← constant (.float x)))
  | none => discard <| emit (.loadConst r (← constant (.float x)))

/-- Put a value into register `r`; what is still a test stays one. -/
def dischargeTo (e : Exp) (r : Nat) : Compile Exp := do
  let e ← discharge e
  match e.place with
  | .nil => emitNil r 1; return { e with place := .reg r }
  | .false => discard <| emit (.loadFalse r); return { e with place := .reg r }
  | .true => discard <| emit (.loadTrue r); return { e with place := .reg r }
  | .str s => discard <| emit (.loadConst r (← constant (.str s))); return { e with place := .reg r }
  | .konst k => discard <| emit (.loadConst r k); return { e with place := .reg r }
  | .float x => emitFloat r x; return { e with place := .reg r }
  | .int n => emitInt r n; return { e with place := .reg r }
  | .pending pc => onInstr pc (Instr.withTarget r); return { e with place := .reg r }
  | .reg q =>
    if r ≠ q then discard <| emit (.move r q)
    return { e with place := .reg r }
  | _ => return e

/-- Put a value into some register unless it is in one already. -/
def dischargeAny (e : Exp) : Compile Exp := do
  match e.place with
  | .reg _ => return e
  | _ =>
    reserve 1
    dischargeTo e ((← draft).freeReg - 1)

/-- Put the final value of an expression, its jumps included, into register `r`. -/
def toReg (e : Exp) (r : Nat) : Compile Exp := do
  let e ← dischargeTo e r
  let (e, isTest) := match e.place with
    | .jump pc => ({ e with onTrue := e.onTrue ++ [pc] }, true)
    | _ => (e, false)
  if e.hasJumps then
    let wanted := (← needsValue e.onTrue) || (← needsValue e.onFalse)
    let (pf, pt) ←
      if wanted then do
        let skip ← if isTest then pure [] else do pure [← emitJump]
        discard here
        let pf ← emit (.loadFalseSkip r)
        discard here
        let pt ← emit (.loadTrue r)
        patchHere skip
        pure (pf, pt)
      else pure (0, 0)
    let final ← here
    aimAll e.onFalse final (some r) pf
    aimAll e.onTrue final (some r) pt
  return { place := .reg r }

/-- Put an expression into the next free register. -/
def toNextReg (e : Exp) : Compile Exp := do
  let e ← discharge e
  freeExp e
  reserve 1
  toReg e ((← draft).freeReg - 1)

/-- The register of an expression that is in one. -/
def regOf (e : Exp) : Nat := match e.place with
  | .reg r => r
  | _ => 0

/-- Put an expression into some register. -/
def toAnyReg (e : Exp) : Compile Exp := do
  let e ← discharge e
  match e.place with
  | .reg r =>
    if !e.hasJumps then return e
    if (← variableRegs) ≤ r then toReg e r else toNextReg e
  | _ => toNextReg e

/-- Put an expression into some register or leave it an upvalue. -/
def toAnyRegOrUpvalue (e : Exp) : Compile Exp := do
  match e.place with
  | .upvalue _ => if e.hasJumps then toAnyReg e else return e
  | _ => toAnyReg e

/-- Make an expression a value: in a register, or a constant. -/
def toValue (e : Exp) : Compile Exp := do
  match e.place with
  | .jump _ => toAnyReg e
  | _ => if e.hasJumps then toAnyReg e else discharge e

/-- Make an expression a constant that an instruction can name, if it is one. -/
def toConst? (e : Exp) : Compile (Option Nat) := do
  if e.hasJumps then return none
  let k? ← match e.place with
    | .true => some <$> constant (.bool .true)
    | .false => some <$> constant (.bool .false)
    | .nil => some <$> constant .nil
    | .int n => some <$> constant (.int n)
    | .float x => some <$> constant (.float x)
    | .str s => some <$> constant (.str s)
    | .konst k => pure (some k)
    | _ => pure none
  match k? with
  | some k => return if k ≤ maxConstOperand then some k else none
  | none => return none

/-- Make an expression an operand: a constant if possible, else a register. -/
def toOperand (e : Exp) : Compile (Operand × Exp) := do
  match ← toConst? e with
  | some k => return (.const k, { e with place := .konst k })
  | none =>
    let e ← toAnyReg e
    return (.reg (regOf e), e)

/-- Store a value into a variable. -/
def store (var ex : Exp) : Compile Unit := do
  match var.place with
  | .local r _ =>
    freeExp ex
    discard <| toReg ex r
  | .upvalue u =>
    let e ← toAnyReg ex
    discard <| emit (.setUpvalue (regOf e) u)
    freeExp e
  | .indexUp u k =>
    let (o, e) ← toOperand ex
    discard <| emit (.setTabUp u k o)
    freeExp e
  | .indexInt t n =>
    let (o, e) ← toOperand ex
    discard <| emit (.setInt t n o)
    freeExp e
  | .indexField t k =>
    let (o, e) ← toOperand ex
    discard <| emit (.setField t k o)
    freeExp e
  | .index t i =>
    let (o, e) ← toOperand ex
    discard <| emit (.setTable t i o)
    freeExp e
  | _ => freeExp ex

/-- Fetch a method: the function and its receiver go to two new registers. -/
def emitSelf (e key : Exp) : Compile Exp := do
  let e ← toAnyReg e
  let object := regOf e
  freeExp e
  let base := (← draft).freeReg
  reserve 2
  let (o, k) ← toOperand key
  discard <| emit (.self base object o)
  freeExp k
  return { place := .reg base }

/-- Jump away if the expression's truth is `cond`; the jump is returned. -/
def jumpOn (e : Exp) (cond : Bool) : Compile Nat := do
  match e.place with
  | .pending pc =>
    match ← instrAt pc with
    | .not _ b =>
      dropLast
      return ← emitTest (.test b !cond)
    | _ => pure ()
  | _ => pure ()
  let e ← dischargeAny e
  freeExp e
  emitTest (.testSet maxRegs (regOf e) cond)

/-- Go on only if the expression is true; false leaves by a jump. -/
def goIfTrue (e : Exp) : Compile Exp := do
  let e ← discharge e
  let left ← match e.place with
    | .jump pc =>
      onInstr (controlOf (← draft).code pc) Instr.negated
      pure [pc]
    | .konst _ | .float _ | .int _ | .str _ | .true => pure []
    | _ => do pure [← jumpOn e .false]
  patchHere e.onTrue
  return { e with onFalse := e.onFalse ++ left, onTrue := [] }

/-- Go on only if the expression is false; true leaves by a jump. -/
def goIfFalse (e : Exp) : Compile Exp := do
  let e ← discharge e
  let left ← match e.place with
    | .jump pc => pure [pc]
    | .nil | .false => pure []
    | _ => do pure [← jumpOn e .true]
  patchHere e.onFalse
  return { e with onTrue := e.onTrue ++ left, onFalse := [] }

/-- No jump of the list copies its value. -/
def dropCopies (list : List Nat) : Compile Unit := list.forM fun pc => discard <| redirectCopy pc none

/-- Negation by `not`. -/
def emitNot (e : Exp) : Compile Exp := do
  let e ← match e.place with
    | .nil | .false => pure { e with place := .true }
    | .konst _ | .float _ | .int _ | .str _ | .true => pure { e with place := .false }
    | .jump pc =>
      onInstr (controlOf (← draft).code pc) Instr.negated
      pure e
    | .pending _ | .reg _ => do
      let e ← dischargeAny e
      freeExp e
      pure { e with place := .pending (← emit (.not 0 (regOf e))) }
    | _ => pure e
  dropCopies e.onTrue
  dropCopies e.onFalse
  return { e with onTrue := e.onFalse, onFalse := e.onTrue }

/-- A constant short string. -/
def fieldName? (e : Exp) : Compile (Option Nat) := do
  if e.hasJumps then return none
  match e.place with
  | .konst k =>
    if k ≤ maxConstOperand then
      match (← draft).consts.getD k .nil with
      | .str s => return if s.size ≤ maxFieldName then some k else none
      | _ => return none
    else return none
  | _ => return none

/-- The element of `t` under a key. -/
def indexed (t key : Exp) : Compile Exp := do
  let key ← match key.place with
    | .str s => do pure { key with place := .konst (← constant (.str s)) }
    | _ => pure key
  let field ← fieldName? key
  let t ← match t.place, field with
    | .upvalue _, none => toAnyReg t
    | _, _ => pure t
  match t.place, field with
  | .upvalue u, some k => return { t with place := .indexUp u k }
  | p, field =>
    let r := match p with
      | .local r _ => r
      | .reg r => r
      | _ => 0
    match field with
    | some k => return { t with place := .indexField r k }
    | none =>
      let small? : Option Nat := if key.hasJumps then none else match key.place with
        | .int n => if 0 ≤ n && n ≤ 255 then some n.toInt.toNat else none
        | _ => none
      match small? with
      | some n => return { t with place := .indexInt r n }
      | none =>
        let key ← toAnyReg key
        return { t with place := .index r (regOf key) }

/-- The value of an operation on two numerals, where the compiler may compute it: nothing that fails,
and no zero or no-number result for floats, whose text form could hide a sign. -/
def folded (op : ArithOp) (a b : Exp) : Option Place :=
  match a.numeral?, b.numeral? with
  | some x, some y =>
    let zeroDivisor := match op with
      | .div | .idiv | .mod => y.toFloat? == some 0.0
      | _ => Bool.false
    if zeroDivisor then none
    else match arith op x y with
      | some (.ok (.int n)) => some (.int n)
      | some (.ok (.float z)) => if z.isNaN || z == 0.0 then none else some (.float z)
      | _ => none
  | _, _ => none

/-- A small number that an instruction can hold, and whether it was written as a float. -/
def smallNumber? (e : Exp) : Option (Int × Bool) :=
  if e.hasJumps then none
  else match e.place with
    | .int n => if isSmall n.toInt then some (n.toInt, Bool.false) else none
    | .float x => match Value.floatToInt? x with
      | some n => if isSmall n.toInt then some (n.toInt, Bool.true) else none
      | none => none
    | _ => none

/-- A small number written as an integer. -/
def smallInt? (e : Exp) : Option Int :=
  match e.place with
  | .int n => if !e.hasJumps && isSmall n.toInt then some n.toInt else none
  | _ => none

/-- The binary operators. -/
inductive BinOp where
  | arith (op : ArithOp)
  | concat
  | eq (positive : Bool)
  | order (op : OrderOp) (swapped : Bool)
  | and
  | or
  deriving Inhabited

/-- Emit the arithmetic instruction itself, its first operand put into a register. -/
def finishArith (op event : ArithOp) (a b : Exp) (arg shown : ArithArg) (flip : Bool) (line : Nat) :
    Compile Exp := do
  let a ← toAnyReg a
  let pc ← emit (.arith op 0 (regOf a) arg event shown flip)
  freeExps a b
  fixLine line
  return { place := .pending pc, onTrue := a.onTrue, onFalse := a.onFalse }

/-- Arithmetic on two registers. -/
def arithRegs (op : ArithOp) (a b : Exp) (flip : Bool) (line : Nat) : Compile Exp := do
  let b ← toAnyReg b
  finishArith op op a b (.reg (regOf b)) (.reg (regOf b)) flip line

/-- Arithmetic with a small number in the instruction. -/
def arithSmall (op event : ArithOp) (a b : Exp) (n shown : Int) (flip : Bool) (line : Nat) : Compile Exp :=
  finishArith op event a b (.small n) (.small shown) flip line

/-- Arithmetic with a constant if the second operand is a numeral that fits, else on registers. -/
def arithConst (op : ArithOp) (a b : Exp) (flip : Bool) (line : Nat) : Compile Exp := do
  let k? ← if b.numeral?.isSome then toConst? b else pure none
  match k? with
  | some k => finishArith op op a { b with place := .konst k } (.const k) (.const k) flip line
  | none => if flip then arithRegs op b a Bool.false line else arithRegs op a b Bool.false line

/-- Subtraction or a shift of a small integer, coded as the opposite operation. -/
def arithNegated (op event : ArithOp) (a b : Exp) (line : Nat) : Compile (Option Exp) := do
  match b.place with
  | .int n =>
    if !b.hasJumps && isSmall n.toInt && isSmall (-n.toInt) then
      some <$> arithSmall op event a b (-n.toInt) n.toInt Bool.false line
    else return none
  | _ => return none

/-- An arithmetic operator on two expressions. -/
def emitArith (op : ArithOp) (a b : Exp) (line : Nat) : Compile Exp := do
  match op with
  | .add | .mul =>
    let (a, b, flip) := if a.numeral?.isSome then (b, a, Bool.true) else (a, b, Bool.false)
    match op, smallInt? b with
    | .add, some n => arithSmall .add .add a b n n flip line
    | _, _ => arithConst op a b flip line
  | .sub =>
    match ← arithNegated .add .sub a b line with
    | some e => return e
    | none => arithConst op a b Bool.false line
  | .band | .bor | .bxor =>
    let isInt (e : Exp) : Bool := match e.place with
      | .int _ => Bool.true
      | _ => Bool.false
    let (a, b, flip) := if isInt a then (b, a, Bool.true) else (a, b, Bool.false)
    let k? ← if isInt b then toConst? b else pure none
    match k? with
    | some k => finishArith op op a { b with place := .konst k } (.const k) (.const k) flip line
    | none => if flip then arithRegs op b a Bool.false line else arithRegs op a b Bool.false line
  | .shl =>
    match smallInt? a with
    | some n => arithSmall .shl .shl b a n n Bool.true line
    | none =>
      match ← arithNegated .shr .shl a b line with
      | some e => return e
      | none => arithRegs op a b Bool.false line
  | .shr =>
    match smallInt? b with
    | some n => arithSmall .shr .shr a b n n Bool.false line
    | none => arithRegs op a b Bool.false line
  | _ => arithConst op a b Bool.false line

/-- An order comparison. -/
def emitOrder (op : OrderOp) (a b : Exp) : Compile Exp := do
  let (i, a, b) ←
    match smallNumber? b with
    | some (n, float) => do
      let a ← toAnyReg a
      pure (Instr.orderSmall op Bool.false (regOf a) n float Bool.true, a, b)
    | none =>
      match smallNumber? a with
      | some (n, float) => do
        let b ← toAnyReg b
        pure (Instr.orderSmall op Bool.true (regOf b) n float Bool.true, a, b)
      | none => do
        let a ← toAnyReg a
        let b ← toAnyReg b
        pure (Instr.order op (regOf a) (regOf b) Bool.true, a, b)
  freeExps a b
  return { a with place := .jump (← emitTest i) }

/-- An equality comparison, or its opposite. -/
def emitEq (positive : Bool) (a b : Exp) : Compile Exp := do
  let (a, b) := match a.place with
    | .reg _ => (a, b)
    | _ => (b, a)
  let a ← toAnyReg a
  let (i, b) ←
    match smallNumber? b with
    | some (n, _) => pure (Instr.eqSmall (regOf a) n positive, b)
    | none => do
      match ← toOperand b with
      | (.const k, b) => pure (Instr.eqConst (regOf a) k positive, b)
      | (.reg r, b) => pure (Instr.eq (regOf a) r positive, b)
  freeExps a b
  return { a with place := .jump (← emitTest i) }

/-- What has to be done with the first operand before the second is read. -/
def beforeSecond (op : BinOp) (e : Exp) : Compile Exp := do
  let e ← discharge e
  match op with
  | .and => goIfTrue e
  | .or => goIfFalse e
  | .concat => toNextReg e
  | .arith _ => if e.numeral?.isSome then return e else toAnyReg e
  | .eq _ =>
    if e.numeral?.isSome then return e
    else return (← toOperand e).2
  | .order .. => if (smallNumber? e).isSome then return e else toAnyReg e

/-- A binary operator after both operands are read. -/
def emitBinary (op : BinOp) (a b : Exp) (line : Nat) : Compile Exp := do
  let b ← discharge b
  match op with
  | .and => return { b with onFalse := b.onFalse ++ a.onFalse }
  | .or => return { b with onTrue := b.onTrue ++ a.onTrue }
  | .concat =>
    let b ← toNextReg b
    match ← previous? with
    | some (.concat r n) =>
      if r = regOf b then
        freeExp b
        onDraft fun d => { d with code := put d.code (d.code.size - 1) (.concat (regOf a) (n + 1)) }
        return a
      else
        discard <| emit (.concat (regOf a) 2)
        freeExp b
        fixLine line
        return a
    | _ =>
      discard <| emit (.concat (regOf a) 2)
      freeExp b
      fixLine line
      return a
  | .arith o =>
    match folded o a b with
    | some p => return { a with place := p }
    | none => emitArith o a b line
  | .eq positive => emitEq positive a b
  | .order o swapped => if swapped then emitOrder o b a else emitOrder o a b

/-- The unary operators. -/
inductive UnOp where
  | neg
  | bnot
  | not
  | len

/-- A unary operator. -/
def emitUnary (op : UnOp) (e : Exp) (line : Nat) : Compile Exp := do
  let e ← discharge e
  let onReg (i : Nat → Instr) : Compile Exp := do
    let e ← toAnyReg e
    freeExp e
    let pc ← emit (i (regOf e))
    fixLine line
    return { e with place := .pending pc }
  let zero : Exp := { place := .int 0 }
  match op with
  | .neg => match folded .unm e zero with
    | some p => return { e with place := p }
    | none => onReg (.unm 0)
  | .bnot => match folded .bnot e zero with
    | some p => return { e with place := p }
    | none => onReg (.bnot 0)
  | .not => emitNot e
  | .len => onReg (.len 0)

/-- The goal of a jump after all jumps that it leads to. -/
def finalGoal (code : Array Instr) : Nat → Nat → Nat
  | 0, pc => pc
  | fuel + 1, pc =>
    match code.getD pc default with
    | .jump off => finalGoal code fuel ((pc : Int) + 1 + off).toNat
    | _ => pc

/-- The last pass over a function: returns learn whether they close variables, and jumps to jumps are
led to their final goal. -/
def finished (d : Draft) : Array Instr :=
  (Array.range d.code.size).map fun pc =>
    match d.code.getD pc default with
    | .ret a b _ => .ret a b d.needClose
    | .tailCall a b _ => .tailCall a b d.needClose
    | .jump _ => .jump ((finalGoal d.code 100 pc : Int) - (pc + 1))
    | i => i

end Compile

end ScriptHost.Script

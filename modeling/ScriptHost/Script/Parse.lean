import ScriptHost.Script.Scope

/-!
# Reading a script

The grammar of the language, read by recursive descent; code is written on the way. All functions
take fuel: it is larger than any nesting that the depth limit and the source's length allow.

* `compile`: the code of a whole chunk, or the message that says why it is none.
-/

namespace ScriptHost.Script.Compile

/-- How strongly a binary operator binds to its left and to its right. -/
def priority : BinOp → Nat × Nat
  | .arith .add | .arith .sub => (10, 10)
  | .arith .pow => (14, 13)
  | .arith .mul | .arith .mod | .arith .div | .arith .idiv => (11, 11)
  | .arith .band => (6, 6)
  | .arith .bor => (4, 4)
  | .arith .bxor => (5, 5)
  | .arith .shl | .arith .shr => (7, 7)
  | .arith _ => (0, 0)
  | .concat => (9, 8)
  | .eq _ | .order .. => (3, 3)
  | .and => (2, 2)
  | .or => (1, 1)

/-- How strongly a unary operator binds. -/
def unaryPriority : Nat := 12

/-- The binary operator that a token writes. -/
def binaryOp? : Token → Option BinOp
  | .word "and" => some .and
  | .word "or" => some .or
  | .mark s => match s with
    | "+" => some (.arith .add)
    | "-" => some (.arith .sub)
    | "*" => some (.arith .mul)
    | "%" => some (.arith .mod)
    | "^" => some (.arith .pow)
    | "/" => some (.arith .div)
    | "//" => some (.arith .idiv)
    | "&" => some (.arith .band)
    | "|" => some (.arith .bor)
    | "~" => some (.arith .bxor)
    | "<<" => some (.arith .shl)
    | ">>" => some (.arith .shr)
    | ".." => some .concat
    | "==" => some (.eq Bool.true)
    | "~=" => some (.eq Bool.false)
    | "<" => some (.order .lt Bool.false)
    | "<=" => some (.order .le Bool.false)
    | ">" => some (.order .lt Bool.true)
    | ">=" => some (.order .le Bool.true)
    | _ => none
  | _ => none

/-- The unary operator that a token writes. -/
def unaryOp? : Token → Option UnOp
  | .word "not" => some .not
  | .mark "-" => some .neg
  | .mark "~" => some .bnot
  | .mark "#" => some .len
  | _ => none

/-- The current token ends a block; `until` does only if asked for. -/
def blockEnds (withUntil : Bool) : Compile Bool := do
  match ← token with
  | .word "else" | .word "elseif" | .word "end" | .eof => return Bool.true
  | .word "until" => return withUntil
  | _ => return Bool.false

/-- A constant string as an expression. -/
def strExp (s : Bytes) : Exp := { place := .str s }

/-- Make `nexps` expressions, the last of which is `e`, fill `nvars` places. -/
def adjust (nvars nexps : Nat) (e : Exp) : Compile Unit := do
  if e.isMulti then
    setResults e (some (nvars + 1 - nexps))
  else
    match e.place with
    | .void => pure ()
    | _ => discard <| toNextReg e
    if nexps < nvars then emitNil (← draft).freeReg (nvars - nexps)
  if nexps < nvars then reserve (nvars - nexps)
  else onDraft fun d => { d with freeReg := d.freeReg + nvars - nexps }

/-- A read-only variable, by name. -/
def readOnlyName? (e : Exp) : Compile (Option Bytes) := do
  match e.place with
  | .known i => return some ((← get).vars.getD i default).name
  | .local _ i =>
    let v ← varAt i
    return if v.kind = .regular then none else some v.name
  | .upvalue u =>
    let d ← draft
    return if d.upvalueKinds.getD u .regular = .regular then none
      else some (d.upvalues.getD u default).name
  | _ => return none

/-- Refuse an assignment to a read-only variable. -/
def refuseReadOnly (e : Exp) : Compile Unit := do
  match ← readOnlyName? e with
  | some n => failHere (((Bytes.ofString "attempt to assign to const variable '").append n).push 39)
  | none => pure ()

/-- Earlier targets of an assignment that read the local or upvalue which a later target sets: they are
changed to read a copy made before. -/
def copyConflicts (targets : List Exp) (v : Exp) : Compile (List Exp) := do
  let extra := (← draft).freeReg
  let change (t : Exp) : Exp × Bool :=
    match t.place, v.place with
    | .indexUp u k, .upvalue u' => if u = u' then ({ t with place := .indexField extra k }, Bool.true) else (t, Bool.false)
    | .indexField r k, .local r' _ => if r = r' then ({ t with place := .indexField extra k }, Bool.true) else (t, Bool.false)
    | .indexInt r n, .local r' _ => if r = r' then ({ t with place := .indexInt extra n }, Bool.true) else (t, Bool.false)
    | .index r i, .local r' _ =>
      if r = r' || i = r' then
        ({ t with place := .index (if r = r' then extra else r) (if i = r' then extra else i) }, Bool.true)
      else (t, Bool.false)
    | _, _ => (t, Bool.false)
  let changed := targets.map change
  if changed.any Prod.snd then
    match v.place with
    | .local r _ => discard <| emit (.move extra r)
    | .upvalue u => discard <| emit (.getUpvalue extra u)
    | _ => pure ()
    reserve 1
  return changed.map Prod.fst

/-- A table under construction: the last item that is not stored yet and how many of each kind. -/
structure Items where
  last : Exp := { place := .void }
  pairs : Nat := 0
  stored : Nat := 0
  waiting : Nat := 0

/-- How many items are stored at a time. -/
def flushCount : Nat := 50

/-- Put the last item into a register, and store all waiting ones if there are enough. -/
def closeItem (table : Nat) (c : Items) : Compile Items := do
  match c.last.place with
  | .void => return c
  | _ =>
    discard <| toNextReg c.last
    let c := { c with last := { place := .void } }
    if c.waiting = flushCount then
      discard <| emit (.setList table c.waiting c.stored)
      onDraft fun d => { d with freeReg := table + 1 }
      return { c with stored := c.stored + c.waiting, waiting := 0 }
    else return c

/-- Store the items left at the end. -/
def lastItems (table : Nat) (c : Items) : Compile Items := do
  if c.waiting = 0 then return c
  if c.last.isMulti then
    setResults c.last none
    discard <| emit (.setList table 0 c.stored)
    onDraft fun d => { d with freeReg := table + 1 }
    return { c with stored := c.stored + c.waiting - 1 }
  else
    match c.last.place with
    | .void => pure ()
    | _ => discard <| toNextReg c.last
    discard <| emit (.setList table c.waiting c.stored)
    onDraft fun d => { d with freeReg := table + 1 }
    return { c with stored := c.stored + c.waiting }

/-- An attribute of a local variable. -/
def localAttribute : Compile VarKind := do
  if ← accept (.mark "<") then
    let name ← requireName
    require (.mark ">")
    if name == Bytes.ofString "const" then return .constant
    else if name == Bytes.ofString "close" then return .toClose
    else failHere (((Bytes.ofString "unknown attribute '").append name).push 39)
  else return .regular

/-- The value of an expression that the compiler knows. -/
def knownValue? (e : Exp) : Compile (Option Value) := do
  if e.hasJumps then return none
  match e.place with
  | .false => return some (.bool Bool.false)
  | .true => return some (.bool Bool.true)
  | .nil => return some .nil
  | .str s => return some (.str s)
  | .int n => return some (.int n)
  | .float x => return some (.float x)
  | .known i => return some ((← get).vars.getD i default).value
  | _ => return none

/-- The parser ran out of fuel, which no source can make it. -/
def exhausted {α : Type} : Compile α := failPlain (Bytes.ofString "chunk has too many syntax levels")

/-- The parameters of a function up to the closing parenthesis: how many, and whether more may come. -/
def parameters : Nat → Nat → Compile (Nat × Bool)
  | 0, n => return (n, Bool.false)
  | fuel + 1, n => do
    match ← token with
    | .name s =>
      advance
      discard <| declare s
      if ← accept (.mark ",") then parameters fuel (n + 1) else return (n + 1, Bool.false)
    | .mark "..." =>
      advance
      return (n, Bool.true)
    | _ => failNear (Bytes.ofString "<name> or '...' expected")

/-- Names of a `for` loop after the first. -/
def moreNames : Nat → Nat → Compile Nat
  | 0, n => return n
  | fuel + 1, n => do
    if ← accept (.mark ",") then
      discard <| declare (← requireName)
      moreNames fuel (n + 1)
    else return n

/-- The names of a local declaration: how many, and which of them is to be closed. -/
def localNames : Nat → Nat → Option Nat → Compile (Nat × Option Nat)
  | 0, n, c => return (n, c)
  | fuel + 1, n, toClose => do
    let i ← declare (← requireName)
    let kind ← localAttribute
    onVar i fun v => { v with kind }
    let level := (← draft).level + n
    let toClose ← if kind = .toClose then
        if toClose.isSome then failHere (Bytes.ofString "multiple to-be-closed variables in local list")
        else pure (some level)
      else pure toClose
    if ← accept (.mark ",") then localNames fuel (n + 1) toClose else return (n + 1, toClose)

/-- Semicolons. -/
def skipSemicolons : Nat → Compile Unit
  | 0 => return ()
  | fuel + 1 => do if ← accept (.mark ";") then skipSemicolons fuel

/-- Set the goal of a loop's jump. -/
def aimLoop (pc distance : Nat) : Compile Unit :=
  onInstr pc fun i => match i with
    | .forPrep a _ => .forPrep a distance
    | .forInPrep a _ => .forInPrep a distance
    | .forLoop a _ => .forLoop a distance
    | .forInLoop a _ => .forInLoop a distance
    | i => i

/-- A field selected by a name. -/
def field (e : Exp) : Compile Exp := do
  let e ← toAnyRegOrUpvalue e
  advance
  let key ← requireName
  indexed e (strExp key)

/-- A jump to a label. -/
def gotoStatement : Compile Unit := do
  let l ← line
  let name ← requireName
  match ← findLabel? name with
  | none => awaitLabel name l [← emitJump]
  | some label =>
    let level ← registerLevel label.level
    if level < (← variableRegs) then discard <| emit (.close level)
    patch [← emitJump] (label.pcs.headD 0)

mutual

/-- An expression whose operators bind more strongly than `limit`; the operator after it is returned. -/
def subExp : Nat → Nat → Compile (Exp × Option BinOp)
  | 0, _ => exhausted
  | fuel + 1, limit => do
    enterLevel
    let e ← match unaryOp? (← token) with
      | some op => do
        let l ← line
        advance
        let (e, _) ← subExp fuel unaryPriority
        emitUnary op e l
      | none => simpleExp fuel
    let r ← operators fuel limit e
    leaveLevel
    return r

/-- The operators after an expression, as far as they bind more strongly than `limit`. -/
def operators : Nat → Nat → Exp → Compile (Exp × Option BinOp)
  | 0, _, _ => exhausted
  | fuel + 1, limit, e => do
    match binaryOp? (← token) with
    | none => return (e, none)
    | some op =>
      if (priority op).1 ≤ limit then return (e, some op)
      let l ← line
      advance
      let e ← beforeSecond op e
      let (e2, _) ← subExp fuel (priority op).2
      let e ← emitBinary op e e2 l
      operators fuel limit e

/-- An expression. -/
def expr : Nat → Compile Exp
  | 0 => exhausted
  | fuel + 1 => do return (← subExp fuel 0).1

/-- A constant, a table, a function or a suffixed expression. -/
def simpleExp : Nat → Compile Exp
  | 0 => exhausted
  | fuel + 1 => do
    match ← token with
    | .float x => advance; return { place := .float x }
    | .int n => advance; return { place := .int n }
    | .str s => advance; return strExp s
    | .word "nil" => advance; return { place := .nil }
    | .word "true" => advance; return { place := .true }
    | .word "false" => advance; return { place := .false }
    | .mark "..." =>
      unless (← draft).isVararg do
        failNear (Bytes.ofString "cannot use '...' outside a vararg function")
      let pc ← emit (.vararg 0 2)
      advance
      return { place := .vararg pc }
    | .mark "\x7b" => constructor fuel
    | .word "function" =>
      advance
      body fuel Bool.false (← line)
    | _ => suffixedExp fuel

/-- A name or an expression in parentheses. -/
def primaryExp : Nat → Compile Exp
  | 0 => exhausted
  | fuel + 1 => do
    match ← token with
    | .name s =>
      advance
      variableExp s
    | .mark "(" =>
      let l ← line
      advance
      let e ← expr fuel
      requireMatch (.mark ")") (.mark "(") l
      discharge e
    | _ => failNear (Bytes.ofString "unexpected symbol")

/-- A primary expression with its fields, elements and calls. -/
def suffixedExp : Nat → Compile Exp
  | 0 => exhausted
  | fuel + 1 => do suffixes fuel (← primaryExp fuel)

/-- The fields, elements and calls after an expression. -/
def suffixes : Nat → Exp → Compile Exp
  | 0, _ => exhausted
  | fuel + 1, e => do
    match ← token with
    | .mark "." => suffixes fuel (← field e)
    | .mark "[" =>
      let e ← toAnyRegOrUpvalue e
      let key ← bracketed fuel
      suffixes fuel (← indexed e key)
    | .mark ":" =>
      advance
      let key ← requireName
      let e ← emitSelf e (strExp key)
      suffixes fuel (← arguments fuel e)
    | .mark "(" | .mark "\x7b" | .str _ =>
      let e ← toNextReg e
      suffixes fuel (← arguments fuel e)
    | _ => return e

/-- An expression in brackets. -/
def bracketed : Nat → Compile Exp
  | 0 => exhausted
  | fuel + 1 => do
    advance
    let e ← expr fuel
    let e ← toValue e
    require (.mark "]")
    return e

/-- Expressions with commas between them; all but the last are put into registers. -/
def expList : Nat → Compile (Nat × Exp)
  | 0 => exhausted
  | fuel + 1 => do
    let e ← expr fuel
    expListRest fuel 1 e

/-- The rest of an expression list. -/
def expListRest : Nat → Nat → Exp → Compile (Nat × Exp)
  | 0, _, _ => exhausted
  | fuel + 1, n, e => do
    if ← accept (.mark ",") then
      discard <| toNextReg e
      let e ← expr fuel
      expListRest fuel (n + 1) e
    else return (n, e)

/-- The arguments of a call, and the call. -/
def arguments : Nat → Exp → Compile Exp
  | 0, _ => exhausted
  | fuel + 1, f => do
    let l ← line
    let args ← match ← token with
      | .mark "(" => do
        advance
        if ← atMark ")" then
          advance
          pure { place := .void }
        else
          let (_, e) ← expList fuel
          if e.isMulti then setResults e none
          requireMatch (.mark ")") (.mark "(") l
          pure e
      | .mark "\x7b" => constructor fuel
      | .str s => do
        advance
        pure (strExp s)
      | _ => failNear (Bytes.ofString "function arguments expected")
    let base := regOf f
    let count ←
      if args.isMulti then pure 0
      else do
        match args.place with
        | .void => pure ()
        | _ => discard <| toNextReg args
        pure ((← draft).freeReg - base)
    let pc ← emit (.call base count 2)
    fixLine l
    onDraft fun d => { d with freeReg := base + 1 }
    return { place := .call pc }

/-- A table constructor. -/
def constructor : Nat → Compile Exp
  | 0 => exhausted
  | fuel + 1 => do
    let l ← line
    let pc ← emit (.newTable 0 0 0)
    let table := (← draft).freeReg
    onInstr pc (Instr.withTarget table)
    reserve 1
    require (.mark "\x7b")
    let c ← items fuel table {}
    requireMatch (.mark "\x7d") (.mark "\x7b") l
    let c ← lastItems table c
    onInstr pc fun _ => .newTable table c.pairs c.stored
    return { place := .reg table }

/-- The items of a table constructor. -/
def items : Nat → Nat → Items → Compile Items
  | 0, _, _ => exhausted
  | fuel + 1, table, c => do
    if ← atMark "\x7d" then return c
    let c ← closeItem table c
    let c ← item fuel table c
    if (← accept (.mark ",")) || (← accept (.mark ";")) then items fuel table c else return c

/-- One item of a table constructor. -/
def item : Nat → Nat → Items → Compile Items
  | 0, _, _ => exhausted
  | fuel + 1, table, c => do
    let listed : Compile Items := do
      let e ← expr fuel
      return { c with last := e, waiting := c.waiting + 1 }
    let paired (key : Compile Exp) : Compile Items := do
      let reg := (← draft).freeReg
      let key ← key
      require (.mark "=")
      let target ← indexed { place := .reg table } key
      let e ← expr fuel
      store target e
      onDraft fun d => { d with freeReg := reg }
      return { c with pairs := c.pairs + 1 }
    match ← token with
    | .name s =>
      if (← peek).isMark "=" then paired (do advance; return strExp s) else listed
    | .mark "[" => paired (bracketed fuel)
    | _ => listed

/-- Parameters and statements of a function. -/
def body : Nat → Bool → Nat → Compile Exp
  | 0, _, _ => exhausted
  | fuel + 1, isMethod, l => do
    openFunction l
    require (.mark "(")
    if isMethod then
      discard <| declare (Bytes.ofString "self")
      activate 1
    let (n, extra) ← if ← atMark ")" then pure (0, Bool.false) else parameters fuel 0
    activate n
    onDraft fun d => { d with paramCount := d.level }
    if extra then
      onDraft fun d => { d with isVararg := Bool.true }
      discard <| emit (.varargPrep (← draft).paramCount)
    reserve (← draft).level
    require (.mark ")")
    statements fuel
    requireMatch (.word "end") (.word "function") l
    let p ← closeFunction
    let d ← draft
    onDraft fun d => { d with inner := d.inner.push p }
    let pc ← emit (.closure 0 d.inner.size)
    toNextReg { place := .pending pc }

/-- Statements up to the end of the block. -/
def statements : Nat → Compile Unit
  | 0 => exhausted
  | fuel + 1 => do
    if ← blockEnds Bool.true then return
    if ← atWord "return" then statement fuel
    else
      statement fuel
      statements fuel

/-- A block of its own. -/
def block : Nat → Compile Unit
  | 0 => exhausted
  | fuel + 1 => do
    enterBlock Bool.false
    statements fuel
    leaveBlock

/-- One statement. -/
def statement : Nat → Compile Unit
  | 0 => exhausted
  | fuel + 1 => do
    let l ← line
    enterLevel
    match ← token with
    | .mark ";" => advance
    | .word "if" => ifStatement fuel l
    | .word "while" => whileStatement fuel l
    | .word "do" =>
      advance
      block fuel
      requireMatch (.word "end") (.word "do") l
    | .word "for" => forStatement fuel l
    | .word "repeat" => repeatStatement fuel l
    | .word "function" => functionStatement fuel l
    | .word "local" =>
      advance
      if ← accept (.word "function") then localFunction fuel else localStatement fuel
    | .mark "::" =>
      advance
      let name ← requireName
      labelStatement fuel name l
    | .word "return" =>
      advance
      returnStatement fuel
    | .word "break" =>
      advance
      awaitLabel breakName l [← emitJump]
    | .word "goto" =>
      advance
      gotoStatement
    | _ => expressionStatement fuel
    let regs ← variableRegs
    onDraft fun d => { d with freeReg := regs }
    leaveLevel

/-- A label, its name already read. -/
def labelStatement : Nat → Bytes → Nat → Compile Unit
  | 0, _, _ => exhausted
  | fuel + 1, name, l => do
    require (.mark "::")
    emptyStatements fuel
    match ← findLabel? name with
    | some other =>
      failHere (((Bytes.ofString "label '").append name).append
        (Bytes.ofString ("' already defined on line " ++ toString other.line)))
    | none => pure ()
    discard <| createLabel name l (← blockEnds Bool.false)

/-- Statements after a label that do nothing. -/
def emptyStatements : Nat → Compile Unit
  | 0 => exhausted
  | fuel + 1 => do
    if (← atMark ";") || (← atMark "::") then
      statement fuel
      emptyStatements fuel

/-- A loop with its test first. -/
def whileStatement : Nat → Nat → Compile Unit
  | 0, _ => exhausted
  | fuel + 1, l => do
    advance
    let start ← here
    let exits ← condition fuel
    enterBlock Bool.true
    require (.word "do")
    block fuel
    patch [← emitJump] start
    requireMatch (.word "end") (.word "while") l
    leaveBlock
    patchHere exits

/-- A loop with its test last. -/
def repeatStatement : Nat → Nat → Compile Unit
  | 0, _ => exhausted
  | fuel + 1, l => do
    let start ← here
    enterBlock Bool.true
    enterBlock Bool.false
    advance
    statements fuel
    requireMatch (.word "until") (.word "repeat") l
    let exits ← condition fuel
    let scope ← block?
    leaveBlock
    let exits ← match scope with
      | some b =>
        if b.captured then do
          let exit ← emitJump
          patchHere exits
          discard <| emit (.close (← registerLevel b.level))
          let again ← emitJump
          patchHere [exit]
          pure [again]
        else pure exits
      | none => pure exits
    patch exits start
    leaveBlock

/-- A condition; the jumps taken when it is false. -/
def condition : Nat → Compile (List Nat)
  | 0 => exhausted
  | fuel + 1 => do
    let e ← expr fuel
    let e := match e.place with
      | .nil => { e with place := .false }
      | _ => e
    return (← goIfTrue e).onFalse

/-- An expression put into the next register. -/
def expReg : Nat → Compile Unit
  | 0 => exhausted
  | fuel + 1 => do discard <| toNextReg (← expr fuel)

/-- The body of a `for` loop. -/
def forBody : Nat → Nat → Nat → Nat → Bool → Compile Unit
  | 0, _, _, _, _ => exhausted
  | fuel + 1, base, l, nvars, generic => do
    require (.word "do")
    let prep ← if generic then emit (.forInPrep base 0) else emit (.forPrep base 0)
    enterBlock Bool.false
    activate nvars
    reserve nvars
    block fuel
    leaveBlock
    let bodyEnd ← here
    aimLoop prep (bodyEnd - (prep + 1))
    if generic then
      discard <| emit (.forInCall base nvars)
      fixLine l
    let loop ← if generic then emit (.forInLoop base 0) else emit (.forLoop base 0)
    aimLoop loop (loop + 1 - (prep + 1))
    fixLine l

/-- A loop over numbers. -/
def forNumber : Nat → Bytes → Nat → Compile Unit
  | 0, _, _ => exhausted
  | fuel + 1, name, l => do
    let base := (← draft).freeReg
    let hidden := Bytes.ofString "(for state)"
    discard <| declare hidden
    discard <| declare hidden
    discard <| declare hidden
    discard <| declare name
    require (.mark "=")
    expReg fuel
    require (.mark ",")
    expReg fuel
    if ← accept (.mark ",") then expReg fuel
    else
      emitInt (← draft).freeReg 1
      reserve 1
    activate 3
    forBody fuel base l 1 Bool.false

/-- A loop over what an iterator gives. -/
def forList : Nat → Bytes → Compile Unit
  | 0, _ => exhausted
  | fuel + 1, name => do
    let base := (← draft).freeReg
    let hidden := Bytes.ofString "(for state)"
    discard <| declare hidden
    discard <| declare hidden
    discard <| declare hidden
    discard <| declare hidden
    discard <| declare name
    let nvars ← moreNames fuel 1
    require (.word "in")
    let l ← line
    let (n, e) ← expList fuel
    adjust 4 n e
    activate 4
    markToClose
    checkStack 3
    forBody fuel base l nvars Bool.true

/-- A `for` loop. -/
def forStatement : Nat → Nat → Compile Unit
  | 0, _ => exhausted
  | fuel + 1, l => do
    enterBlock Bool.true
    advance
    let name ← requireName
    match ← token with
    | .mark "=" => forNumber fuel name l
    | .mark "," | .word "in" => forList fuel name
    | _ => failNear (Bytes.ofString "'=' or 'in' expected")
    requireMatch (.word "end") (.word "for") l
    leaveBlock

/-- A condition and its block; `escapes` are the jumps to the end of the whole statement. -/
def thenBlock : Nat → List Nat → Compile (List Nat)
  | 0, _ => exhausted
  | fuel + 1, escapes => do
    advance
    let e ← expr fuel
    require (.word "then")
    let skips? ←
      if ← atWord "break" then do
        let l ← line
        let e ← goIfFalse e
        advance
        enterBlock Bool.false
        awaitLabel breakName l e.onTrue
        skipSemicolons fuel
        if ← blockEnds Bool.false then
          leaveBlock
          pure none
        else do pure (some [← emitJump])
      else do
        let e ← goIfTrue e
        enterBlock Bool.false
        pure (some e.onFalse)
    match skips? with
    | none => return escapes
    | some skips =>
      statements fuel
      leaveBlock
      let escapes ←
        if (← atWord "else") || (← atWord "elseif") then do pure (escapes ++ [← emitJump])
        else pure escapes
      patchHere skips
      return escapes

/-- The further branches of an `if`. -/
def elseIfs : Nat → List Nat → Compile (List Nat)
  | 0, _ => exhausted
  | fuel + 1, escapes => do
    if ← atWord "elseif" then
      let escapes ← thenBlock fuel escapes
      elseIfs fuel escapes
    else return escapes

/-- An `if` statement. -/
def ifStatement : Nat → Nat → Compile Unit
  | 0, _ => exhausted
  | fuel + 1, l => do
    let escapes ← thenBlock fuel []
    let escapes ← elseIfs fuel escapes
    if ← accept (.word "else") then block fuel
    requireMatch (.word "end") (.word "if") l
    patchHere escapes

/-- A local function. -/
def localFunction : Nat → Compile Unit
  | 0 => exhausted
  | fuel + 1 => do
    let level := (← draft).level
    discard <| declare (← requireName)
    activate 1
    discard <| body fuel Bool.false (← line)
    let v ← varAt level
    onDraft fun d =>
      { d with locals := changeAt d.locals v.slot fun x => { x with startPc := d.code.size } }

/-- A declaration of local variables. -/
def localStatement : Nat → Compile Unit
  | 0 => exhausted
  | fuel + 1 => do
    let (nvars, toClose) ← localNames fuel 0 none
    let (nexps, e) ← if ← accept (.mark "=") then expList fuel else pure (0, { place := .void })
    let last := (← draft).level + nvars - 1
    let kind := (← varAt last).kind
    let known? ← if nvars = nexps && kind = .constant then knownValue? e else pure none
    match known? with
    | some v =>
      onVar last fun d => { d with kind := .known, value := v }
      activate (nvars - 1)
      onDraft fun d => { d with level := d.level + 1 }
    | none =>
      adjust nvars nexps e
      activate nvars
    match toClose with
    | some level =>
      markToClose
      discard <| emit (.toBeClosed (← registerLevel level))
    | none => pure ()

/-- The fields between a function's first name and its parameters. -/
def functionFields : Nat → Exp → Compile Exp
  | 0, _ => exhausted
  | fuel + 1, e => do if ← atMark "." then functionFields fuel (← field e) else return e

/-- A function stored under a name. -/
def functionStatement : Nat → Nat → Compile Unit
  | 0, _ => exhausted
  | fuel + 1, l => do
    advance
    let v ← variableExp (← requireName)
    let v ← functionFields fuel v
    let isMethod ← atMark ":"
    let v ← if isMethod then field v else pure v
    let b ← body fuel isMethod l
    refuseReadOnly v
    store v b
    fixLine l

/-- A call or an assignment. -/
def expressionStatement : Nat → Compile Unit
  | 0 => exhausted
  | fuel + 1 => do
    let e ← suffixedExp fuel
    if (← atMark "=") || (← atMark ",") then discard <| assignment fuel [e]
    else
      match e.place with
      | .call pc => onInstr pc fun i => match i with
        | .call a b _ => .call a b 1
        | i => i
      | _ => failNear (Bytes.ofString "syntax error")

/-- The rest of an assignment after its first targets, the last of which comes first in the list. The
targets after the values are stored: they may have been changed to read copies. -/
def assignment : Nat → List Exp → Compile (List Exp)
  | 0, _ => exhausted
  | fuel + 1, targets => do
    let target := targets.headD { place := .void }
    unless target.isVariable do failNear (Bytes.ofString "syntax error")
    refuseReadOnly target
    if ← accept (.mark ",") then
      let next ← suffixedExp fuel
      let targets ← if next.isIndexed then pure targets else copyConflicts targets next
      enterLevel
      let after ← assignment fuel (next :: targets)
      leaveLevel
      let targets := after.drop 1
      store (targets.headD target) { place := .reg ((← draft).freeReg - 1) }
      return targets
    else
      require (.mark "=")
      let (n, e) ← expList fuel
      if n = targets.length then
        let e ← setOneResult e
        store target e
      else
        adjust targets.length n e
        store target { place := .reg ((← draft).freeReg - 1) }
      return targets

/-- What a function returns. -/
def returnStatement : Nat → Compile Unit
  | 0 => exhausted
  | fuel + 1 => do
    let first ← variableRegs
    if (← blockEnds Bool.true) || (← atMark ";") then
      discard <| emit (.ret first 1 Bool.false)
    else
      let (n, e) ← expList fuel
      if e.isMulti then
        setResults e none
        let inside := ((← block?).map Block.insideClose).getD Bool.false
        match e.place with
        | .call pc =>
          if n = 1 && !inside then
            onInstr pc fun i => match i with
              | .call a b _ => .tailCall a b Bool.false
              | i => i
        | _ => pure ()
        discard <| emit (.ret first 0 Bool.false)
      else if n = 1 then
        let e ← toAnyReg e
        discard <| emit (.ret (regOf e) 2 Bool.false)
      else
        discard <| toNextReg e
        discard <| emit (.ret first (n + 1) Bool.false)
    discard <| accept (.mark ";")

end

/-- A whole chunk: a function with extra arguments, whose one upvalue is the environment. -/
def chunk (fuel : Nat) : Compile Proto := do
  modify fun s =>
    { s with draft :=
      { isVararg := Bool.true
        upvalues := #[⟨envName, Bool.true, 0⟩]
        upvalueKinds := #[.regular] } }
  enterBlock Bool.false
  discard <| emit (.varargPrep 0)
  advance
  statements fuel
  match ← token with
  | .eof => pure ()
  | _ => expected .eof
  closeFunction

end Compile

/-- The longest chunk name that messages show. -/
def maxChunkName : Nat := 59

/-- The code of a chunk with the given name and source, or the message that says why there is none. -/
def compileFrom (name : Bytes) (source : List UInt8) : Except Bytes Proto :=
  if source.headD 0 == 27 then
    .error (Bytes.ofString "attempt to load a binary chunk (mode is 't')")
  else
    let chunk := name.extract 0 maxChunkName
    let start : CompileState := { chunk, cursor := { rest := source } }
    match (Compile.chunk (20 * source.length + 2000)).run start with
    | .ok (p, _) => .ok p
    | .error e => .error e

/-- The code of a chunk with the given name, or the message that says why there is none. -/
def compile (name source : Bytes) : Except Bytes Proto := compileFrom name source.data.toList

end ScriptHost.Script

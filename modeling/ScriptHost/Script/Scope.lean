import ScriptHost.Script.Emit

/-!
# Names and blocks

Reading tokens, declaring and finding variables, entering and leaving blocks, labels and jumps to
them.
-/

namespace ScriptHost.Script.Compile

/-- How deep the parser may be nested. -/
def maxDepth : Nat := 200

/-- The greatest number of local variables of a function. -/
def maxLocals : Nat := 200

/-- The greatest number of upvalues of a function. -/
def maxUpvalues : Nat := 255

/-- The name of the variable that holds the environment. -/
def envName : Bytes := Bytes.ofString "_ENV"

/-- The name under which jumps out of a loop are filed. -/
def breakName : Bytes := Bytes.ofString "break"

/-- The next lexeme of the source from a place on. -/
def scanFrom (c : Cursor) : Compile (Lexeme × Cursor) := do
  let s ← get
  match scan c with
  | .ok r => return r
  | .error e =>
    throw (((located s e.line (Bytes.ofString e.message)).append (Bytes.ofString " near ")).append e.near)

/-- Go to the next token. -/
def advance : Compile Unit := do
  let s ← get
  match s.ahead with
  | some (l, c) => set { s with current := l, cursor := c, ahead := none, lastLine := s.cursor.line }
  | none =>
    let (l, c) ← scanFrom s.cursor
    modify fun s => { s with current := l, lastLine := s.cursor.line, cursor := c }

/-- The token after the current one. -/
def peek : Compile Token := do
  let s ← get
  match s.ahead with
  | some (l, _) => return l.token
  | none =>
    let (l, c) ← scanFrom s.cursor
    modify fun s => { s with ahead := some (l, c) }
    return l.token

/-- The current token. -/
@[inline] def token : Compile Token := return (← get).current.token

/-- The line being read. -/
@[inline] def line : Compile Nat := return (← get).cursor.line

/-- The current token is the given mark. -/
def atMark (s : String) : Compile Bool := return (← token).isMark s

/-- The current token is the given word. -/
def atWord (s : String) : Compile Bool := return (← token).isWord s

/-- A token was expected that is not there. -/
def expected {α : Type} (t : Token) : Compile α :=
  failNear (t.describe.append (Bytes.ofString " expected"))

/-- Go past a token if it is there. -/
def accept (t : Token) : Compile Bool := do
  let here_ ← token
  let same := match t with
    | .word w => here_.isWord w
    | .mark m => here_.isMark m
    | _ => Bool.false
  if same then advance
  return same

/-- Go past a token that has to be there. -/
def require (t : Token) : Compile Unit := do
  unless ← accept t do expected t

/-- Go past a token that closes what `opener` opened on a line. -/
def requireMatch (closer opener : Token) (opened : Nat) : Compile Unit := do
  unless ← accept closer do
    if opened == (← line) then expected closer
    else
      failNear (((closer.describe.append (Bytes.ofString " expected (to close ")).append opener.describe).append
        (Bytes.ofString (" at line " ++ toString opened ++ ")")))

/-- Go past a name. -/
def requireName : Compile Bytes := do
  match ← token with
  | .name s =>
    advance
    return s
  | _ => expected (.name ByteArray.empty)

/-- Nest one level deeper. -/
def enterLevel : Compile Unit := do
  modify fun s => { s with depth := s.depth + 1 }
  if maxDepth ≤ (← get).depth then failPlain (Bytes.ofString "C stack overflow")

/-- Come back from a level. -/
def leaveLevel : Compile Unit := modify fun s => { s with depth := s.depth - 1 }

/-- Declare a local variable that is not in scope yet. Its number within the function is returned. -/
def declare (name : Bytes) : Compile Nat := do
  let s ← get
  if maxLocals < s.vars.size + 1 - s.draft.firstVar then limitError maxLocals "local variables"
  modify fun s => { s with vars := s.vars.push { name } }
  return s.vars.size - s.draft.firstVar

/-- Bring the next `n` declared variables into scope. -/
def activate (n : Nat) : Compile Unit := do
  let first ← variableRegs
  n.forM fun i _ => do
    let d ← draft
    let slot := d.locals.size
    let v ← varAt d.level
    onVar d.level fun v => { v with reg := first + i, slot }
    onDraft fun d =>
      { d with level := d.level + 1, locals := d.locals.push ⟨v.name, d.code.size, 0⟩ }

/-- End the scope of all variables above a level. -/
def deactivate (level : Nat) : Compile Unit := do
  let count := (← draft).level - level
  count.forM fun _ _ => do
    let d ← draft
    let v ← varAt (d.level - 1)
    onDraft fun d =>
      { d with
        level := d.level - 1
        locals := if v.kind = .known then d.locals
          else changeAt d.locals v.slot fun l => { l with endPc := d.code.size } }
  modify fun s => { s with vars := s.vars.take (s.vars.size - count) }

/-- The variables of a draft are searched from the innermost out. -/
def findLocal (vars : Array VarDesc) (firstVar : Nat) (name : Bytes) : Nat → Option Nat
  | 0 => none
  | n + 1 =>
    if (vars.getD (firstVar + n) default).name == name then some n
    else findLocal vars firstVar name n

/-- A draft some of whose block variables is used by an inner function. -/
def markCaptured (d : Draft) (var : Nat) : Draft :=
  let rec mark : List Block → List Block
    | [] => []
    | b :: bs => if var < b.level then b :: mark bs else { b with captured := true } :: bs
  { d with blocks := mark d.blocks, needClose := true }

/-- A name seen from a function: what it is there, and the drafts with any new upvalues. The innermost
function comes first. -/
def resolve (vars : Array VarDesc) (name : Bytes) (innermost : Bool) :
    Draft → List Draft → Except Unit (Place × Draft × List Draft)
  | d, outer =>
    match findLocal vars d.firstVar name d.level with
    | some i =>
      let v := vars.getD (d.firstVar + i) default
      if v.kind = .known then .ok (.known (d.firstVar + i), d, outer)
      else .ok (.local v.reg i, if innermost then d else markCaptured d i, outer)
    | none =>
      match d.upvalues.findIdx? (fun u => u.name == name) with
      | some u => .ok (.upvalue u, d, outer)
      | none =>
        match outer with
        | [] => .ok (.void, d, outer)
        | o :: rest =>
          match resolve vars name false o rest with
          | .error e => .error e
          | .ok (p, o, rest) =>
            let added (desc : UpvalueDesc) (kind : VarKind) :
                Except Unit (Place × Draft × List Draft) :=
              if maxUpvalues ≤ d.upvalues.size then .error ()
              else
                .ok (.upvalue d.upvalues.size,
                  { d with upvalues := d.upvalues.push desc, upvalueKinds := d.upvalueKinds.push kind },
                  o :: rest)
            match p with
            | .local r i => added ⟨name, true, r⟩ (vars.getD (o.firstVar + i) default).kind
            | .upvalue u => added ⟨name, false, u⟩ (o.upvalueKinds.getD u .regular)
            | p => .ok (p, d, o :: rest)
termination_by structural _ outer => outer

/-- What a name is, as a variable of this function or of one around it. -/
def lookup (name : Bytes) : Compile Place := do
  let s ← get
  match resolve s.vars name true s.draft s.outer with
  | .ok (p, d, outer) =>
    set { s with draft := d, outer }
    return p
  | .error _ => limitError maxUpvalues "upvalues"

/-- A name as an expression: a variable, or a field of the environment. -/
def variableExp (name : Bytes) : Compile Exp := do
  match ← lookup name with
  | .void =>
    let env ← toAnyRegOrUpvalue { place := ← lookup envName }
    indexed env { place := .str name }
  | p => return { place := p }

/-- The block at hand. -/
def block? : Compile (Option Block) := return (← draft).blocks.head?

/-- Enter a block. -/
def enterBlock (isLoop : Bool) : Compile Unit := do
  let s ← get
  let inside := (s.draft.blocks.head?.map Block.insideClose).getD false
  onDraft fun d => { d with blocks :=
    { isLoop, level := d.level, firstLabel := s.labels.size, firstGoto := s.gotos.size, insideClose := inside }
      :: d.blocks }

/-- The block at hand holds a variable to be closed. -/
def markToClose : Compile Unit :=
  onDraft fun d =>
    { d with
      needClose := true
      blocks := match d.blocks with
        | b :: bs => { b with captured := true, insideClose := true } :: bs
        | [] => [] }

/-- Lead a jump that waited for a label to it. -/
def settle (g label : LabelDesc) : Compile Unit := do
  if g.level < label.level then
    let v ← varAt g.level
    failHere (((((Bytes.ofString "<goto ").append g.name).append
      (Bytes.ofString ("> at line " ++ toString g.line ++ " jumps into the scope of local '"))).append v.name).push 39)
  g.pcs.forM fun pc => patch [pc] (label.pcs.headD 0)

/-- Lead all waiting jumps of the block to a label; says whether one has to close variables. -/
def settleAll (label : LabelDesc) : Compile Bool := do
  let first := ((← block?).map Block.firstGoto).getD 0
  let s ← get
  let mine := s.gotos.toList.drop first
  let (hit, rest) := mine.partition (fun g => g.name == label.name)
  set { s with gotos := s.gotos.take first ++ rest.toArray }
  hit.forM fun g => settle g label
  return hit.any LabelDesc.close

/-- Create a label at the current position. A label that ends its block is outside the scope of the
block's variables. Says whether variables had to be closed here. -/
def createLabel (name : Bytes) (atLine : Nat) (last : Bool) : Compile Bool := do
  let pc ← here
  let d ← draft
  let level := if last then (d.blocks.head?.map Block.level).getD 0 else d.level
  let label : LabelDesc := { name, pcs := [pc], line := atLine, level }
  modify fun s => { s with labels := s.labels.push label }
  if ← settleAll label then
    discard <| emit (.close (← variableRegs))
    return true
  return false

/-- File jumps that wait for a label. -/
def awaitLabel (name : Bytes) (atLine : Nat) (pcs : List Nat) : Compile Unit :=
  modify fun s =>
    { s with gotos := s.gotos.push { name, pcs, line := atLine, level := s.draft.level } }

/-- A label of the function that is visible here. -/
def findLabel? (name : Bytes) : Compile (Option LabelDesc) := do
  let s ← get
  return (s.labels.toList.drop s.draft.firstLabel).find? fun l => l.name == name

/-- A jump whose label never came. -/
def unresolved {α : Type} (g : LabelDesc) : Compile α :=
  if g.name == breakName then
    failHere (Bytes.ofString ("break outside loop at line " ++ toString g.line))
  else
    failHere (((Bytes.ofString "no visible label '").append g.name).append
      (Bytes.ofString ("' for <goto> at line " ++ toString g.line)))

/-- Leave the block at hand: its variables end, its jumps that still wait move out. -/
def leaveBlock : Compile Unit := do
  match ← block? with
  | none => pure ()
  | some b =>
    let level ← registerLevel b.level
    let vars := (← get).vars
    deactivate b.level
    let closed ← if b.isLoop then createLabel breakName 0 false else pure false
    let d ← draft
    let nested := 2 ≤ d.blocks.length
    if !closed && nested && b.captured then discard <| emit (.close level)
    onDraft fun d => { d with freeReg := level, blocks := d.blocks.drop 1 }
    modify fun s => { s with labels := s.labels.take b.firstLabel }
    let s ← get
    if nested then
      let moved := s.gotos.mapIdx fun i g =>
        if b.firstGoto ≤ i then
          let higher := decide (level < registersOf vars s.draft.firstVar g.level)
          { g with close := g.close || (higher && b.captured), level := b.level }
        else g
      set { s with gotos := moved }
    else
      match s.gotos[b.firstGoto]? with
      | some g => unresolved g
      | none => pure ()

/-- Start the code of a function. -/
def openFunction (lineDefined : Nat) : Compile Unit := do
  modify fun s =>
    { s with
      outer := s.draft :: s.outer
      draft := { lineDefined, firstVar := s.vars.size, firstLabel := s.labels.size } }
  enterBlock false

/-- End the code of a function and go back to the one around it. -/
def closeFunction : Compile Proto := do
  discard <| emit (.ret (← variableRegs) 1 false)
  leaveBlock
  let s ← get
  let d := s.draft
  let p : Proto :=
    { source := s.chunk, lineDefined := d.lineDefined, paramCount := d.paramCount
      isVararg := d.isVararg, maxStack := d.maxStack, code := finished d, lines := d.lines
      consts := d.consts, inner := d.inner, upvalues := d.upvalues, locals := d.locals }
  match s.outer with
  | o :: rest => set { s with draft := o, outer := rest }
  | [] => pure ()
  return p

end ScriptHost.Script.Compile

import ScriptHost.Script.Code

/-!
# Names for what a message is about

A value has no name, but the code that brought it to its register often tells one. These functions look
through the code of a function for it.

* `Proto.register?`: the name of what is in a register, with the kind of that name.
* `Proto.callee?`: the name of the function that an instruction calls.
* `Proto.variableText`: the remark on a value's origin that ends a message.
-/

namespace ScriptHost.Script

/-- A name and what kind of name it is. -/
structure Naming where
  kind : String
  name : Bytes

namespace Proto

/-- The local variable in a register at an instruction: the `n`-th one in scope, counted from zero. -/
def localIn (pc : Nat) : List LocalDesc → Nat → Option Bytes
  | [], _ => none
  | d :: rest, n =>
    if pc < d.startPc then none
    else if pc < d.endPc then (if n = 0 then some d.name else localIn pc rest (n - 1))
    else localIn pc rest n

/-- The name of the local variable in a register at an instruction. -/
def localName? (p : Proto) (r pc : Nat) : Option Bytes := localIn pc p.locals.toList r

/-- The name of an upvalue. -/
def upvalueName (p : Proto) (u : Nat) : Bytes :=
  match p.upvalues[u]? with
  | some d => d.name
  | none => Bytes.ofString "?"

/-- The instruction changes the register. -/
def changes (i : Instr) (r : Nat) : Bool :=
  match i with
  | .loadNil a n => a ≤ r && r ≤ a + n
  | .forInCall a _ => a + 2 ≤ r
  | .call a _ _ | .tailCall a _ _ => a ≤ r
  | i => i.target? == some r

/-- Search for the last instruction before `last` that changes a register, if it is executed for
certain: code that a jump can leave out is not. -/
def setterLoop (code : Array Instr) (r last : Nat) : Nat → Nat → Nat → Option Nat → Option Nat
  | 0, _, _, found => found
  | fuel + 1, pc, target, found =>
    if last ≤ pc then found
    else
      match code.getD pc default with
      | .jump offset =>
        let goal := (((pc : Int) + 1 + offset)).toNat
        setterLoop code r last fuel (pc + 1) (if goal ≤ last && target < goal then goal else target) found
      | i =>
        setterLoop code r last fuel (pc + 1) target
          (if changes i r then (if pc < target then none else some pc) else found)

/-- The instruction that last changed a register before another instruction. -/
def setter? (p : Proto) (r last : Nat) : Option Nat := setterLoop p.code r last last 0 0 none

/-- The text of a constant that is a string. -/
def constantText? (p : Proto) (k : Nat) : Option Bytes :=
  match p.consts.getD k .nil with
  | .str s => some s
  | _ => none

/-- The name of a variable or constant in a register, or else the instruction that set it. -/
def variableAt? (p : Proto) : Nat → Nat → Nat → Naming ⊕ Option Nat
  | 0, _, _ => .inr none
  | fuel + 1, pc, r =>
    match p.localName? r pc with
    | some name => .inl ⟨"local", name⟩
    | none =>
      match p.setter? r pc with
      | none => .inr none
      | some at' =>
        match p.code.getD at' default with
        | .move a b => if b < a then variableAt? p fuel at' b else .inr (some at')
        | .getUpvalue _ u => .inl ⟨"upvalue", p.upvalueName u⟩
        | .loadConst _ k =>
          match p.constantText? k with
          | some s => .inl ⟨"constant", s⟩
          | none => .inr (some at')
        | _ => .inr (some at')

/-- How many copies between registers are followed. -/
def maxCopies : Nat := 256

/-- A key in a register, if it is a constant. -/
def keyName (p : Proto) (pc r : Nat) : Bytes :=
  match p.variableAt? maxCopies pc r with
  | .inl ⟨"constant", s⟩ => s
  | _ => Bytes.ofString "?"

/-- Fields of the table of globals are globals. -/
def fieldKind (table : Bytes) : String :=
  if table == Bytes.ofString "_ENV" then "global" else "field"

/-- The kind of a field of the table in a register. -/
def fieldKindOf (p : Proto) (pc t : Nat) : String :=
  match p.variableAt? maxCopies pc t with
  | .inl ⟨"local", name⟩ | .inl ⟨"upvalue", name⟩ => fieldKind name
  | _ => "field"

/-- The name of what is in a register at an instruction. -/
def register? (p : Proto) (pc r : Nat) : Option Naming :=
  match p.variableAt? maxCopies pc r with
  | .inl n => some n
  | .inr none => none
  | .inr (some at') =>
    let constant (k : Nat) : Bytes := (p.constantText? k).getD (Bytes.ofString "?")
    match p.code.getD at' default with
    | .getTabUp _ u k => some ⟨fieldKind (p.upvalueName u), constant k⟩
    | .getTable _ t i => some ⟨p.fieldKindOf at' t, p.keyName at' i⟩
    | .getInt .. => some ⟨"field", Bytes.ofString "integer index"⟩
    | .getField _ t k => some ⟨p.fieldKindOf at' t, constant k⟩
    | .self _ _ (.const k) => some ⟨"method", constant k⟩
    | .self _ _ (.reg r) => some ⟨"method", p.keyName at' r⟩
    | _ => none

/-- The metamethod that an instruction can call. -/
def metamethodOf : Instr → Option String
  | .self .. | .getTabUp .. | .getTable .. | .getInt .. | .getField .. => some "index"
  | .setTabUp .. | .setTable .. | .setInt .. | .setField .. => some "newindex"
  | .arith _ _ _ _ event _ _ => some event.event
  | .unm .. => some "unm"
  | .bnot .. => some "bnot"
  | .len .. => some "len"
  | .concat .. => some "concat"
  | .eq .. => some "eq"
  | .order .lt .. | .orderSmall .lt .. => some "lt"
  | .order .le .. | .orderSmall .le .. => some "le"
  | .close .. | .ret .. => some "close"
  | _ => none

/-- The name of the function that an instruction calls. -/
def callee? (p : Proto) (pc : Nat) : Option Naming :=
  match p.code.getD pc default with
  | .call a _ _ | .tailCall a _ _ => p.register? pc a
  | .forInCall .. => some ⟨"for iterator", Bytes.ofString "for iterator"⟩
  | i => (metamethodOf i).map fun e => ⟨"metamethod", Bytes.ofString e⟩

/-- The line of an instruction. -/
def lineAt (p : Proto) (pc : Nat) : Nat := p.lines.getD pc 0

/-- The function is a whole chunk. -/
def isChunk (p : Proto) : Bool := p.lineDefined == 0

end Proto

/-- A remark on a value's origin, for the end of a message. -/
def Naming.remark : Option Naming → Bytes
  | some n => Bytes.concat [Bytes.ofString (" (" ++ n.kind ++ " '"), n.name, Bytes.ofString "')"]
  | none => ByteArray.empty

end ScriptHost.Script

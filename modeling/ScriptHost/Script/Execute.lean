import ScriptHost.Script.Step

/-!
# Instructions

What each instruction of a script function does. The usual cases are done at once; what needs a metamethod
is a native computation on behalf of the instruction.

* `Machine.execute`: one instruction.
* `Machine.step`: one step of a machine, with the hook that looks for an interrupt before an instruction.
-/

namespace ScriptHost.Script

namespace Machine

variable {σ : Type} [Inhabited σ]

/-! ### Operands -/

/-- A constant of the running function. -/
@[inline] def const (m : Machine σ) (k : Nat) : Value := m.frame.proto.consts.getD k .nil

/-- The value of an operand. -/
@[inline] def operand (m : Machine σ) : Operand → Value
  | .reg r => m.reg r
  | .const k => m.const k

/-- The value of the second operand of an arithmetic instruction. -/
@[inline] def argument (m : Machine σ) : ArithArg → Value
  | .reg r => m.reg r
  | .const k => m.const k
  | .small n => .int (Int64.ofInt n)

/-- Where the second operand of an arithmetic instruction came from. -/
def argumentSource : ArithArg → Source
  | .reg r => .register r
  | _ => .other

/-- An upvalue of the running function. -/
@[inline] def upvalue (m : Machine σ) (u : Nat) : Value := m.cell (m.frame.upvalues.getD u 0)

/-- A computation on behalf of the running instruction. -/
def assist (m : Machine σ) (finish : Finish) (act : Act σ (Array Value)) : Machine σ :=
  m.perform
    { self := none, top := m.frame.base + m.frame.proto.maxStack, finish, depth := m.frame.depth
      yieldable := m.frame.yieldable }
    act

/-- The first result of a computation goes to a register. -/
@[inline] def assistReg (m : Machine σ) (r : Nat) (act : Act σ Value) : Machine σ :=
  m.assist (.store (m.frame.base + r)) do return #[← act]

/-- The instruction after a test, which a jump follows, is left out unless the test's truth is `k`. -/
@[inline] def branch (m : Machine σ) (cond k : Bool) : Machine σ :=
  if cond == k then
    match m.frame.proto.code.getD m.frame.pc default with
    | .jump offset => { m with frame := { m.frame with pc := ((m.frame.pc : Int) + 1 + offset).toNat } }
    | _ => m
  else m.skip 1

/-- A test by a computation. -/
def assistTest (m : Machine σ) (k : Bool) (act : Act σ Bool) : Machine σ :=
  m.assist (.test k) do return #[.bool (← act)]

/-! ### Tables -/

/-- Read a field into a register. -/
@[inline] def readField (m : Machine σ) (a : Nat) (t k : Value) (source : Source) : Machine σ :=
  match t with
  | .table id =>
    let tab := m.heap.table id
    match tab.get k with
    | .nil =>
      match tab.metatable with
      | none => m.setReg a .nil
      | some _ => m.assistReg a (Act.index t k source true)
    | v => m.setReg a v
  | _ => m.assistReg a (Act.index t k source true)

/-- A key that a table takes. -/
@[inline] def isKey : Value → Bool
  | .nil => false
  | .float x => !x.isNaN
  | .nan => false
  | _ => true

/-- File a value in a table that has no say in it. -/
@[inline] def fileDirect (m : Machine σ) (id : Nat) (k v : Value) : Machine σ :=
  { m with heap := { m.heap with tables := Heap.fileIn m.heap.tables id k v } }

/-- Write a field. -/
@[inline] def writeField (m : Machine σ) (t k v : Value) (source : Source) : Machine σ :=
  let slow (_ : Unit) : Machine σ :=
    m.assist .nothing do
      Act.setIndex t k v source true
      return #[]
  match t with
  | .table id =>
    let tab := m.heap.table id
    if !isKey k then slow ()
    else
      match tab.metatable with
      | none => m.fileDirect id k v
      | some _ => if (tab.get k).isNil then slow () else m.fileDirect id k v
  | _ => slow ()

/-- Store consecutive slots in a table under consecutive positions. -/
def storeList (stack : Array Value) (slot position : Nat) (t : Table) : Nat → Table
  | 0 => t
  | n + 1 =>
    storeList stack (slot + 1) (position + 1) (t.set (.ofNat position) (stack.getD slot .nil)) n

/-! ### Operators -/

/-- An arithmetic instruction. -/
@[inline] def arithmetic (m : Machine σ) (op : ArithOp) (a b : Nat) (c : ArithArg) (event : ArithOp)
    (shown : ArithArg) (flip : Bool) : Machine σ :=
  let x := m.reg b
  let y := m.argument c
  let result := if flip then arith op y x else arith op x y
  match result with
  | some (.ok v) => m.setReg a v
  | some (.error .divideByZero) => m.raiseUnnamed "attempt to perform 'n//0'"
  | some (.error .moduloByZero) => m.raiseUnnamed "attempt to perform 'n%0'"
  | _ =>
    let y := m.argument shown
    let sb := argumentSource shown
    if flip then m.assistReg a (Act.arithSlow event event y x sb (.register b) true)
    else m.assistReg a (Act.arithSlow event event x y (.register b) sb true)

/-- The text of a value that concatenation takes as it is. -/
@[inline] def pieceText? : Value → Option Bytes
  | .str s => some s
  | .int n => some (Bytes.ofString (Numeral.showInt n))
  | .float x => some (Bytes.ofString (Numeral.showFloat x))
  | .nan => some (Bytes.ofString "nan")
  | _ => none

/-- The pieces at the front of a reversed list that need no metamethod, joined. -/
def joinPieces : List Value → Bytes → Bytes × List Value
  | [], acc => (acc, [])
  | v :: rest, acc =>
    match pieceText? v with
    | some s => joinPieces rest (s.append acc)
    | none => (acc, v :: rest)

/-- Concatenate values, the last one first in the list; the last one lies in register `r`. -/
def concatAct (r : Nat) : Nat → List Value → Act σ Value
  | 0, _ => return .nil
  | _, [] => return .nil
  | _, [v] => return v
  | fuel + 1, y :: x :: rest =>
    match pieceText? x, pieceText? y with
    | some a, some b =>
      let (joined, left) := joinPieces rest (a.append b)
      concatAct (r - (rest.length + 1 - left.length)) fuel (.str joined :: left)
    | _, _ => do
      match ← Act.binaryMethod x y "__concat" with
      | .nil =>
        match pieceText? x with
        | some _ => Act.raise (.operand y "concatenate" (.register r))
        | none => Act.raise (.operand x "concatenate" (.register (r - 1)))
      | f => concatAct (r - 1) fuel ((← Act.call1 f #[x, y] true) :: rest)

/-- Consecutive registers, the last one first. -/
def lastFirst (m : Machine σ) (a : Nat) : Nat → List Value → List Value
  | 0, acc => acc
  | n + 1, acc => lastFirst m (a + 1) n (m.reg a :: acc)

/-- The pieces of a concatenation and their total, if all need no metamethod. -/
def allPieces : List Value → List Bytes → Option (List Bytes)
  | [], acc => some acc
  | v :: rest, acc =>
    match pieceText? v with
    | some s => allPieces rest (s :: acc)
    | none => none

/-- A concatenation of registers. -/
def concatenate (m : Machine σ) (a n : Nat) : Machine σ :=
  let values := lastFirst m a n []
  match allPieces values [] with
  | some pieces => m.setReg a (.str (Bytes.concat pieces))
  | none => m.assistReg a (concatAct (a + n - 1) n values)

/-! ### Calls -/

/-- A slice of the stack. -/
@[inline] def slots (m : Machine σ) (start count : Nat) : Array Value :=
  m.stack.extract start (start + count)

/-- Put a metamethod before a value that is called, moving the value and its arguments up. -/
def shiftArguments (stack : Array Value) (func count : Nat) (f : Value) : Array Value :=
  writeAll stack func (#[f] ++ stack.extract func (func + 1 + count))

/-- Resolve what is called in the stack itself: a function in the slot and the number of arguments. -/
def resolve (m : Machine σ) (func : Nat) : Nat → Nat → Except (Machine σ) (Value × Nat × Machine σ)
  | 0, _ => .error m.overflow
  | fuel + 1, count =>
    let f := m.stack.getD func .nil
    match f with
    | .closure _ | .native _ => .ok (f, count, m)
    | _ =>
      match m.heap.metamethod f (Bytes.ofString "__call") with
      | .nil => .error (m.raiseIn (.notCallable f (.register (func - m.frame.base))))
      | g => resolve { m with stack := shiftArguments m.stack func count g } func fuel (count + 1)

/-- Call the value in a slot with the arguments after it. -/
def callSlot (m : Machine σ) (func count : Nat) (wanted : Option Nat) : Machine σ :=
  match m.resolve func maxCallChain count with
  | .error m => m
  | .ok (.closure id, count, m) =>
    if m.exceeds (func + 1 + count + m.needed id) then m.overflow
    else
      let f := m.frame
      { m with callers := .script f :: m.callers }.enterScript id func count (.results func wanted) f.depth
        f.yieldable false
  | .ok (.native r, count, m) =>
    if m.exceeds (func + 1 + count + nativeSlots) then m.overflow
    else
      m.perform
        { self := some (.native r), top := func + 1 + count, finish := .results func wanted
          depth := m.frame.depth, yieldable := m.frame.yieldable }
        (m.nativeAct r (m.slots (func + 1) count))
  | .ok (_, _, m) => m

/-- Call the value in a slot in place of the running function. -/
def tailCallSlot (m : Machine σ) (func count : Nat) : Machine σ :=
  match m.resolve func maxCallChain count with
  | .error m => m
  | .ok (.closure id, count, m) =>
    if m.exceeds (func + 1 + count + m.needed id) then m.overflow
    else
      let f := m.frame
      let target := if f.proto.isVararg then f.func - (f.argCount + 1) else f.func
      let stack := writeAll m.stack target (m.slots func (count + 1))
      { m with stack }.enterScript id target count f.finish f.depth f.yieldable true
  | .ok (.native r, count, m) =>
    if m.exceeds (func + 1 + count + nativeSlots) then m.overflow
    else
      m.perform
        { self := some (.native r), top := func + 1 + count, finish := .ret
          depth := m.frame.depth, yieldable := m.frame.yieldable }
        (m.nativeAct r (m.slots (func + 1) count))
  | .ok (_, _, m) => m

/-- Set the extra arguments of a function aside: the function and its parameters move above them. -/
def setAside (m : Machine σ) : Machine σ :=
  let f := m.frame
  let p := f.proto
  if m.exceeds (f.base + f.argCount + p.maxStack + 1) then m.overflow
  else
    let func := f.func + f.argCount + 1
    let moved := m.slots f.func (p.paramCount + 1)
    let stack := writeAll (grown m.stack (func + 1 + p.maxStack)) func moved
    { m with stack, frame := { f with func, base := func + 1, extra := f.argCount - p.paramCount } }

/-- Share what an inner function takes from around it. -/
def capture (m : Machine σ) (outer : Array Nat) : List UpvalueDesc → Array Nat → Array Nat × Machine σ
  | [], acc => (acc, m)
  | d :: rest, acc =>
    if d.inRegister then
      let (c, m) := m.share (m.frame.base + d.index)
      capture m outer rest (acc.push c)
    else capture m outer rest (acc.push (outer.getD d.index 0))

/-- Make an inner function. -/
def makeClosure (m : Machine σ) (a p : Nat) : Machine σ :=
  let proto := m.frame.proto.inner.getD p default
  let (upvalues, m) := m.capture m.frame.upvalues proto.upvalues.toList (Array.emptyWithCapacity 4)
  let id := m.heap.closures.size
  { m with heap := { m.heap with closures := m.heap.closures.push { proto, upvalues } } }.setReg a (.closure id)

/-! ### Loops -/

/-- The limit of a loop over integers as an integer, cut to 64 bits; `none` inside if the loop does not
run, outside if the limit is no number. -/
def loopLimit (start step : Int64) (limit : Value) : Option (Option Int64) :=
  let reaches (n : Int64) : Option Int64 :=
    if (if 0 < step then n < start else start < n) then none else some n
  match limit.toNumber? with
  | some (.int n) => some (reaches n)
  | some (.float x) =>
    match Value.floatToInt? (if step < 0 then x.ceil else x.floor) with
    | some n => some (reaches n)
    | none =>
      if 0 < x then some (if step < 0 then none else reaches (Int64.ofInt Value.maxInt))
      else some (if 0 < step then none else reaches (Int64.ofInt Value.minInt))
  | _ => none

/-- A value in the head of a loop as a float. -/
def loopNumber? (v : Value) : Option Float := v.toNumber?.bind Value.toFloat?

/-- Begin a loop over numbers, or leave it out. -/
def forPrepare (m : Machine σ) (a ahead : Nat) : Machine σ :=
  let init := m.reg a
  let limit := m.reg (a + 1)
  let step := m.reg (a + 2)
  let wrong (v : Value) (what : String) : Machine σ :=
    m.raiseIn (.here (Bytes.concat
      [Bytes.ofString ("bad 'for' " ++ what ++ " (number expected, got "), m.heap.typeNameOf v,
        Bytes.ofString ")"]))
  match init, step with
  | .int i, .int s =>
    if s == 0 then m.raiseIn (.here (Bytes.ofString "'for' step is zero"))
    else
      match loopLimit i s limit with
      | none => wrong limit "limit"
      | some none => m.skip (ahead + 1)
      | some (some n) =>
        let count : UInt64 :=
          if 0 < s then (n.toUInt64 - i.toUInt64) / s.toUInt64
          else (i.toUInt64 - n.toUInt64) / ((0 - (s + 1)).toUInt64 + 1)
        (m.setReg (a + 1) (.int count.toInt64)).setReg (a + 3) init
  | _, _ =>
    match loopNumber? limit with
    | none => wrong limit "limit"
    | some l =>
      match loopNumber? step with
      | none => wrong step "step"
      | some s =>
        match loopNumber? init with
        | none => wrong init "initial value"
        | some i =>
          if s == 0 then m.raiseIn (.here (Bytes.ofString "'for' step is zero"))
          else if (if 0 < s then l < i else i < l) then m.skip (ahead + 1)
          else
            let m := ((m.setReg a (.float i)).setReg (a + 1) (.float l)).setReg (a + 2) (.float s)
            m.setReg (a + 3) (.float i)

/-- The next round of a loop over numbers. -/
@[inline] def forNext (m : Machine σ) (a back : Nat) : Machine σ :=
  let goBack (m : Machine σ) : Machine σ := { m with frame := { m.frame with pc := m.frame.pc - back } }
  match m.reg (a + 2), m.reg a, m.reg (a + 1) with
  | .int s, .int i, .int n =>
    if n == 0 then m
    else
      let i := Value.int (i + s)
      goBack (((m.setReg (a + 1) (.int (n - 1))).setReg a i).setReg (a + 3) i)
  | .float s, .float i, .float l =>
    let i := i + s
    if (if 0 < s then i ≤ l else l ≤ i) then goBack ((m.setReg a (.float i)).setReg (a + 3) (.float i))
    else m
  | _, _, _ => m

/-- A variable will be closed when its block is left. -/
def markToClose (m : Machine σ) (a : Nat) : Machine σ :=
  let v := m.reg a
  if !v.truthy then m
  else
    match m.heap.metamethod v (Bytes.ofString "__close") with
    | .nil =>
      let name := (m.frame.proto.localName? a (Level.instruction m.frame)).getD (Bytes.ofString "?")
      m.raiseIn (.here (Bytes.concat
        [Bytes.ofString "variable '", name, Bytes.ofString "' got a non-closable value"]))
    | _ => { m with toClose := (m.frame.base + a) :: m.toClose }

/-! ### Instructions -/

/-- Some variables from a slot up are still to be closed. -/
@[inline] def mustClose (m : Machine σ) (level : Nat) : Bool :=
  match m.toClose with
  | s :: _ => level ≤ s
  | [] => false

/-- Return the values in consecutive slots. -/
@[inline] def returnSlots (m : Machine σ) (slot count : Nat) (closes : Bool) : Machine σ :=
  if closes then
    let vs := m.slots slot count
    if m.mustClose m.frame.base then m.closing m.frame.base .nil false true (.ret vs)
    else (m.detach m.frame.base).leave vs
  else
    match count with
    | 0 => m.leave #[]
    | 1 => m.leave #[m.stack.getD slot .nil]
    | n => m.leave (m.slots slot n)

/-- Execute an instruction; the next one is already the one to go on with. -/
def dispatch (m : Machine σ) (i : Instr) : Machine σ :=
  match i with
  | .move a b => m.setReg a (m.reg b)
  | .loadInt a n => m.setReg a (.int (Int64.ofInt n))
  | .loadFloat a n => m.setReg a (.float (Float.ofInt n))
  | .loadConst a k => m.setReg a (m.const k)
  | .loadFalse a => m.setReg a (.bool false)
  | .loadFalseSkip a => (m.setReg a (.bool false)).skip 1
  | .loadTrue a => m.setReg a (.bool true)
  | .loadNil a n => { m with stack := clear m.stack (m.frame.base + a) (n + 1) }
  | .getUpvalue a u => m.setReg a (m.upvalue u)
  | .setUpvalue a u => m.setCell (m.frame.upvalues.getD u 0) (m.reg a)
  | .getTabUp a u k => m.readField a (m.upvalue u) (m.const k) (.upvalue u)
  | .getTable a t i => m.readField a (m.reg t) (m.reg i) (.register t)
  | .getInt a t i => m.readField a (m.reg t) (.ofNat i) (.register t)
  | .getField a t k => m.readField a (m.reg t) (m.const k) (.register t)
  | .setTabUp u k v => m.writeField (m.upvalue u) (m.const k) (m.operand v) (.upvalue u)
  | .setTable t i v => m.writeField (m.reg t) (m.reg i) (m.operand v) (.register t)
  | .setInt t i v => m.writeField (m.reg t) (.ofNat i) (m.operand v) (.register t)
  | .setField t k v => m.writeField (m.reg t) (m.const k) (m.operand v) (.register t)
  | .newTable a entries array =>
    let id := m.heap.tables.size
    { m with heap := { m.heap with tables := m.heap.tables.push (Table.empty array entries) } }.setReg a
      (.table id)
  | .self a t k =>
    let v := m.reg t
    (m.setReg (a + 1) v).readField a v (m.operand k) (.register t)
  | .arith op a b c event shown flip => m.arithmetic op a b c event shown flip
  | .unm a b =>
    let v := m.reg b
    match v with
    | .int n => m.setReg a (.int (0 - n))
    | .float x => if x.isNaN then m.setReg a .nan else m.setReg a (.float (-x))
    | _ => m.assistReg a (Act.arithSlow .unm .unm v v (.register b) (.register b) true)
  | .bnot a b =>
    let v := m.reg b
    m.assistReg a (Act.arithSlow .bnot .bnot v v (.register b) (.register b) true)
  | .not a b => m.setReg a (.bool !(m.reg b).truthy)
  | .len a b =>
    let v := m.reg b
    match v with
    | .str s => m.setReg a (.ofNat s.size)
    | _ => m.assistReg a (Act.length v (.register b) true)
  | .concat a n => m.concatenate a n
  | .close a =>
    if m.mustClose (m.frame.base + a) then m.closing (m.frame.base + a) .nil false true .resume
    else m.detach (m.frame.base + a)
  | .toBeClosed a => m.markToClose a
  | .jump offset => { m with frame := { m.frame with pc := ((m.frame.pc : Int) + offset).toNat } }
  | .eq a b k =>
    let x := m.reg a
    let y := m.reg b
    match x, y with
    | .table i, .table j => if i == j then m.branch true k else m.assistTest k (Act.equals x y true)
    | _, _ => m.branch (Value.rawEq x y) k
  | .order op a b k =>
    let x := m.reg a
    let y := m.reg b
    match (match op with
      | .lt => lessThan x y
      | .le => lessEqual x y) with
    | some r => m.branch r k
    | none => m.assistTest k (Act.compare op x y true)
  | .eqConst a c k => m.branch (Value.rawEq (m.reg a) (m.const c)) k
  | .eqSmall a n k => m.branch (Value.rawEq (m.reg a) (.int (Int64.ofInt n))) k
  | .orderSmall op swapped a n float k =>
    let x := m.reg a
    let y : Value := if float then .float (Float.ofInt n) else .int (Int64.ofInt n)
    let (x, y) := if swapped then (y, x) else (x, y)
    match (match op with
      | .lt => lessThan x y
      | .le => lessEqual x y) with
    | some r => m.branch r k
    | none => m.assistTest k (Act.compare op x y true)
  | .test a k => m.branch (m.reg a).truthy k
  | .testSet a b k =>
    let v := m.reg b
    if v.truthy == k then (m.setReg a v).branch true true else m.skip 1
  | .call a b c =>
    let func := m.frame.base + a
    m.callSlot func (if b = 0 then m.top - func - 1 else b - 1) (if c = 0 then none else some (c - 1))
  | .tailCall a b closes =>
    let func := m.frame.base + a
    let m := if closes then m.detach m.frame.base else m
    m.tailCallSlot func (if b = 0 then m.top - func - 1 else b - 1)
  | .ret a b closes =>
    let slot := m.frame.base + a
    m.returnSlots slot (if b = 0 then m.top - slot else b - 1) closes
  | .forPrep a ahead => m.forPrepare a ahead
  | .forLoop a back => m.forNext a back
  | .forInPrep a ahead =>
    let m := m.markToClose (a + 3)
    match m.control with
    | .execute => m.skip ahead
    | _ => m
  | .forInCall a n =>
    let slot := m.frame.base + a
    let stack := writeAll m.stack (slot + 4) (m.slots slot 3)
    { m with stack }.callSlot (slot + 4) 2 (some n)
  | .forInLoop a back =>
    let v := m.reg (a + 4)
    if v.isNil then m
    else { m.setReg (a + 2) v with frame := { m.frame with pc := m.frame.pc - back } }
  | .setList a n start =>
    let slot := m.frame.base + a
    let count := if n = 0 then m.top - slot - 1 else n
    match m.stack.getD slot .nil with
    | .table id =>
      let stack := m.stack
      { m with heap := m.heap.onTable id fun t =>
        storeList stack (slot + 1) (start + 1) (t.growArray (start + count)) count }
    | _ => m
  | .closure a p => m.makeClosure a p
  | .vararg a n =>
    let f := m.frame
    let vs := m.slots (f.func - f.extra) f.extra
    if n = 0 then
      if m.exceeds (f.base + f.proto.maxStack + f.extra) then m.overflow else m.place (f.base + a) none vs
    else m.place (f.base + a) (some (n - 1)) vs
  | .varargPrep _ => m.setAside

/-- Execute the next instruction. -/
@[inline] def execute (m : Machine σ) : Machine σ :=
  let i := m.frame.proto.code.getD m.frame.pc default
  (m.skip 1).dispatch i

/-- The running function is interrupted before its next instruction: its variables are closed, then the
termination signal is raised. The hook stays off until the innermost guard. -/
def interrupt (m : Machine σ) : Machine σ :=
  let m := { m with frame := { m.frame with calls := .hook, pc := m.frame.pc + 1 }, hookOn := false }
  m.closing m.frame.base .nil false false .interrupt

/-- Execute the next instruction, unless the hook finds that termination was requested. -/
@[inline] def executeHooked (m : Machine σ) : Machine σ :=
  if m.interval == 0 || m.thread != 0 || !m.hookOn then m.execute
  else if m.countdown ≤ 1 then
    let m := { m with countdown := m.interval }
    if m.interrupted m.host then m.interrupt else m.execute
  else { m with countdown := m.countdown - 1 }.execute

/-- Let a machine run for at most `fuel` steps; without an answer it has not stopped. -/
def run : Nat → Machine σ → Option Stop × Machine σ
  | 0, m => (none, m)
  | fuel + 1, m =>
    match m.control with
    | .execute => run fuel m.executeHooked
    | .stopped s => (some s, m)
    | _ => run fuel m.advance

/-- A machine without objects. -/
def create (host : σ) (hosts : Array (Array Value → Act σ (Array Value))) (interrupted : σ → Bool) :
    Machine σ :=
  { heap := { threads := #[.running] }, host, hosts, interrupted }

/-- Begin a call from the host. -/
def start (m : Machine σ) (f : Value) (args : Array Value) : Machine σ :=
  let base : Native σ :=
    { self := none, top := 1, finish := .stop, depth := 0, yieldable := false, guard := some ⟨.trace, true⟩ }
  { m with
    callers := [.native base], toClose := [], opened := [], thread := 0, resumers := [], hookOn := true
    control := .enter f args .reply }

/-- Make a function of a compiled chunk whose globals are the fields of a table. -/
def load (m : Machine σ) (p : Proto) (globals : Value) : Value × Machine σ :=
  let heap := m.heap
  let m := { m with heap := default }
  let (c, heap) := heap.newCell (.closed globals)
  let (id, heap) := heap.newClosure { proto := p, upvalues := #[c] }
  (.closure id, { m with heap })

end Machine

end ScriptHost.Script

import ScriptHost.Script.Arith

/-!
# Code of a script

A function of a script is compiled to instructions over the registers of its activation.

* `Instr`: one instruction. Registers, constants, upvalues and inner functions go by number.
* `Proto`: a compiled function with what messages need: the line of each instruction, the names of
  locals and upvalues and where each local is in scope.
-/

namespace ScriptHost.Script

/-- A register or a constant. -/
inductive Operand where
  | reg (r : Nat)
  | const (k : Nat)
  deriving DecidableEq, Inhabited, Repr

/-- The second operand of an arithmetic instruction. -/
inductive ArithArg where
  | reg (r : Nat)
  | const (k : Nat)
  /-- A small integer in the instruction itself. -/
  | small (n : Int)
  deriving DecidableEq, Inhabited, Repr

/-- The order comparisons. -/
inductive OrderOp where
  | lt | le
  deriving DecidableEq, Inhabited, Repr

/-- One instruction. A destination comes first. -/
inductive Instr where
  | move (a b : Nat)
  | loadInt (a : Nat) (n : Int)
  | loadFloat (a : Nat) (n : Int)
  | loadConst (a k : Nat)
  | loadFalse (a : Nat)
  /-- Load `false` and leave out the next instruction. -/
  | loadFalseSkip (a : Nat)
  | loadTrue (a : Nat)
  /-- Load `nil` into `a` and the `n` registers after it. -/
  | loadNil (a n : Nat)
  | getUpvalue (a u : Nat)
  | setUpvalue (a u : Nat)
  | getTabUp (a u k : Nat)
  | getTable (a t i : Nat)
  | getInt (a t : Nat) (i : Nat)
  | getField (a t k : Nat)
  | setTabUp (u k : Nat) (v : Operand)
  | setTable (t i : Nat) (v : Operand)
  | setInt (t : Nat) (i : Nat) (v : Operand)
  | setField (t k : Nat) (v : Operand)
  /-- A new table with room for the given numbers of entries and array positions. -/
  | newTable (a hashSize arraySize : Nat)
  /-- Fetch a method: the function to `a`, its receiver to `a + 1`. -/
  | self (a t : Nat) (k : Operand)
  /-- An operation on register `b` and an argument; `event` is what its metamethod is called, which can
  differ from `op` (a subtraction of a small number is coded as an addition), as can the argument
  `shown` to the metamethod; `flip` says that the operands stood the other way round. -/
  | arith (op : ArithOp) (a b : Nat) (c : ArithArg) (event : ArithOp) (shown : ArithArg) (flip : Bool)
  | unm (a b : Nat)
  | bnot (a b : Nat)
  | not (a b : Nat)
  | len (a b : Nat)
  /-- Concatenate `n` registers from `a` on. -/
  | concat (a n : Nat)
  /-- Close all variables from register `a` up. -/
  | close (a : Nat)
  | toBeClosed (a : Nat)
  | jump (offset : Int)
  /-- If the comparison of two registers differs from `k`, leave out the next instruction. -/
  | eq (a b : Nat) (k : Bool)
  | order (op : OrderOp) (a b : Nat) (k : Bool)
  | eqConst (a c : Nat) (k : Bool)
  | eqSmall (a : Nat) (n : Int) (k : Bool)
  /-- Compare a register with a small number, which stands on the left if `swapped`; `float` says
  that it was written as a float. -/
  | orderSmall (op : OrderOp) (swapped : Bool) (a : Nat) (n : Int) (float : Bool) (k : Bool)
  | test (a : Nat) (k : Bool)
  | testSet (a b : Nat) (k : Bool)
  /-- Call `a` with `b - 1` arguments, or all up to the top if `b = 0`, for `c - 1` results, or all if
  `c = 0`. -/
  | call (a b c : Nat)
  | tailCall (a b : Nat) (closes : Bool)
  | ret (a b : Nat) (closes : Bool)
  | forLoop (a : Nat) (back : Nat)
  | forPrep (a : Nat) (ahead : Nat)
  | forInPrep (a : Nat) (ahead : Nat)
  | forInCall (a n : Nat)
  | forInLoop (a : Nat) (back : Nat)
  /-- Store `n` registers (all up to the top if `n = 0`) after `a` in its table, after position
  `start`. -/
  | setList (a n start : Nat)
  | closure (a p : Nat)
  /-- Copy `n - 1` extra arguments, or all if `n = 0`. -/
  | vararg (a n : Nat)
  | varargPrep (n : Nat)
  deriving DecidableEq, Inhabited, Repr

namespace Instr

/-- The instruction tests something and is followed by a jump. -/
def isTest : Instr → Bool
  | .eq .. | .order .. | .eqConst .. | .eqSmall .. | .orderSmall .. | .test .. | .testSet .. => true
  | _ => false

/-- The register that an instruction sets, if it sets just one. -/
def target? : Instr → Option Nat
  | .move a _ | .loadInt a _ | .loadFloat a _ | .loadConst a _ | .loadFalse a | .loadFalseSkip a
  | .loadTrue a | .getUpvalue a _ | .getTabUp a _ _ | .getTable a _ _ | .getInt a _ _
  | .getField a _ _ | .newTable a _ _ | .self a _ _ | .arith _ a _ _ _ _ _ | .unm a _ | .bnot a _
  | .not a _ | .len a _ | .concat a _ | .testSet a _ _ | .forLoop a _ | .forPrep a _ | .forInLoop a _
  | .closure a _ | .vararg a _ | .varargPrep a => some a
  | _ => none

/-- The same instruction with another destination. -/
def withTarget (a : Nat) : Instr → Instr
  | .move _ b => .move a b
  | .loadInt _ n => .loadInt a n
  | .loadFloat _ n => .loadFloat a n
  | .loadConst _ k => .loadConst a k
  | .loadFalse _ => .loadFalse a
  | .loadFalseSkip _ => .loadFalseSkip a
  | .loadTrue _ => .loadTrue a
  | .loadNil _ n => .loadNil a n
  | .getUpvalue _ u => .getUpvalue a u
  | .getTabUp _ u k => .getTabUp a u k
  | .getTable _ t i => .getTable a t i
  | .getInt _ t i => .getInt a t i
  | .getField _ t k => .getField a t k
  | .newTable _ h n => .newTable a h n
  | .self _ t k => .self a t k
  | .arith op _ b c e s f => .arith op a b c e s f
  | .unm _ b => .unm a b
  | .bnot _ b => .bnot a b
  | .not _ b => .not a b
  | .len _ b => .len a b
  | .testSet _ b k => .testSet a b k
  | .closure _ p => .closure a p
  | .vararg _ n => .vararg a n
  | i => i

/-- The same test with the opposite condition. -/
def negated : Instr → Instr
  | .eq a b k => .eq a b !k
  | .order op a b k => .order op a b !k
  | .eqConst a c k => .eqConst a c !k
  | .eqSmall a n k => .eqSmall a n !k
  | .orderSmall op s a n f k => .orderSmall op s a n f !k
  | .test a k => .test a !k
  | .testSet a b k => .testSet a b !k
  | i => i

end Instr

/-- How an inner function finds a variable of the function around it. -/
structure UpvalueDesc where
  name : Bytes
  /-- In a register of the function around it, or among that function's own upvalues. -/
  inRegister : Bool
  index : Nat
  deriving DecidableEq, Inhabited

/-- The name of a local variable and the instructions over which it is in scope. -/
structure LocalDesc where
  name : Bytes
  startPc : Nat
  endPc : Nat
  deriving Inhabited

/-- A compiled function. -/
structure Proto where
  /-- The name of the chunk as messages show it. -/
  source : Bytes
  /-- The line of the word `function`, and zero for a whole chunk. -/
  lineDefined : Nat := 0
  paramCount : Nat := 0
  isVararg : Bool := false
  /-- How many registers an activation has. -/
  maxStack : Nat := 2
  code : Array Instr := #[]
  lines : Array Nat := #[]
  consts : Array Value := #[]
  inner : Array Proto := #[]
  upvalues : Array UpvalueDesc := #[]
  locals : Array LocalDesc := #[]
  deriving Inhabited

end ScriptHost.Script

import ScriptHost.Script.Numeral

/-!
# Arithmetic of the script language

Integers wrap at 64 bits; floats are doubles. An operation on numbers gives a value or fails for a
reason of its own; an operation on anything else is left to the operands' metamethods.

* `ArithOp`: the operators, with the name of the metamethod of each.
* `arith`: an operation on two numbers.
* `lessThan`, `lessEqual`: the order of numbers, exact between integers and floats.
-/

namespace ScriptHost.Script

/-- The arithmetic and bitwise operators. -/
inductive ArithOp where
  | add | sub | mul | mod | pow | div | idiv | band | bor | bxor | shl | shr | unm | bnot
  deriving DecidableEq, Repr, Inhabited

namespace ArithOp

/-- The metamethod of an operator, without the two leading underscores. -/
def event : ArithOp → String
  | .add => "add" | .sub => "sub" | .mul => "mul" | .mod => "mod" | .pow => "pow" | .div => "div"
  | .idiv => "idiv" | .band => "band" | .bor => "bor" | .bxor => "bxor" | .shl => "shl"
  | .shr => "shr" | .unm => "unm" | .bnot => "bnot"

/-- The operators that work on integers only. -/
def isBitwise : ArithOp → Bool
  | .band | .bor | .bxor | .shl | .shr | .bnot => true
  | _ => false

end ArithOp

/-- Shift left by `n` places, or right when `n` is negative; bits that leave are lost. -/
def shiftLeft (x n : Int64) : Int64 :=
  let k := n.toInt
  if 64 ≤ k || k ≤ -64 then 0
  else if 0 ≤ k then (x.toUInt64 <<< k.toNat.toUInt64).toInt64
  else (x.toUInt64 >>> (-k).toNat.toUInt64).toInt64

/-- Integer quotient rounded toward minus infinity; the divisor is not zero. -/
def floorDiv (a b : Int64) : Int64 := Int64.ofInt (Int.fdiv a.toInt b.toInt)

/-- Remainder with the sign of the divisor; the divisor is not zero. -/
def floorMod (a b : Int64) : Int64 := Int64.ofInt (Int.fmod a.toInt b.toInt)

/-- Float remainder with the sign of the divisor. -/
def floatMod (a b : Float) : Float :=
  let m := Binary.remainder a b
  if (0 < m && b < 0) || (m < 0 && 0 < b) then m + b else m

/-- Float power; squares are exact products. -/
def floatPow (a b : Float) : Float := if b == 2.0 then a * a else a.pow b

/-- Why an operation on two numbers has no value. -/
inductive ArithError where
  | divideByZero
  | moduloByZero
  /-- An operand of a bitwise operation is a float that equals no 64-bit integer. -/
  | noInteger
  deriving DecidableEq

/-- The operation on two integers. -/
def arithInt (op : ArithOp) (a b : Int64) : Except ArithError Value :=
  match op with
  | .add => .ok (.int (a + b))
  | .sub => .ok (.int (a - b))
  | .mul => .ok (.int (a * b))
  | .mod => if b == 0 then .error .moduloByZero else .ok (.int (floorMod a b))
  | .idiv => if b == 0 then .error .divideByZero else .ok (.int (floorDiv a b))
  | .pow => .ok (.float (floatPow a.toFloat b.toFloat))
  | .div => .ok (.float (a.toFloat / b.toFloat))
  | .band => .ok (.int (a &&& b))
  | .bor => .ok (.int (a ||| b))
  | .bxor => .ok (.int (a ^^^ b))
  | .shl => .ok (.int (shiftLeft a b))
  | .shr => .ok (.int (shiftLeft a (0 - b)))
  | .unm => .ok (.int (0 - a))
  | .bnot => .ok (.int (a ^^^ (-1)))

/-- The operation on two floats; bitwise ones are not floats' business. -/
def arithFloat (op : ArithOp) (a b : Float) : Value :=
  match op with
  | .add => .float (a + b)
  | .sub => .float (a - b)
  | .mul => .float (a * b)
  | .mod => .float (floatMod a b)
  | .idiv => .float (a / b).floor
  | .pow => .float (floatPow a b)
  | .div => .float (a / b)
  | .unm => if a.isNaN then .nan else .float (-a)
  | _ => .nil

/-- The operation on two numbers of which one is `nan`. What is not a number goes on to the result, the first
one if both are; but a power to zero, or of one, is one. -/
def arithNan (op : ArithOp) (a b : Value) : Value :=
  if op == .unm then .float (0.0 / 0.0)
  else if op == .pow && (b.rawEq (.int 0) || a.rawEq (.int 1)) then .float 1
  else
    match a with
    | .float x => if x.isNaN then .float x else .nan
    | _ => .nan

/-- The operation on two values if both are numbers; `none` if one is not. -/
def arith (op : ArithOp) (a b : Value) : Option (Except ArithError Value) :=
  if op.isBitwise then
    match a, b with
    | .int x, .int y => some (arithInt op x y)
    | a, b =>
      if a.isNumber && b.isNumber then
        match a.toInt?, b.toInt? with
        | some x, some y => some (arithInt op x y)
        | _, _ => some (.error .noInteger)
      else none
  else
    match a, b with
    | .int x, .int y => some (arithInt op x y)
    | .int x, .float y => some (.ok (arithFloat op x.toFloat y))
    | .float x, .int y => some (.ok (arithFloat op x y.toFloat))
    | .float x, .float y => some (.ok (arithFloat op x y))
    | a, b => if a.isNumber && b.isNumber then some (.ok (arithNan op a b)) else none

/-- An integer below a float. -/
def intLtFloat (n : Int64) (x : Float) : Bool :=
  match Binary.ofFloat x with
  | .nan => false
  | .infinite neg => !neg
  | .finite b =>
    let m : Int := b.num
    decide (n.toInt * b.den < (if b.neg then -m else m))

/-- An integer not above a float. -/
def intLeFloat (n : Int64) (x : Float) : Bool :=
  match Binary.ofFloat x with
  | .nan => false
  | .infinite neg => !neg
  | .finite b =>
    let m : Int := b.num
    decide (n.toInt * b.den ≤ (if b.neg then -m else m))

/-- A float below an integer. -/
def floatLtInt (x : Float) (n : Int64) : Bool := !x.isNaN && !intLeFloat n x

/-- A float not above an integer. -/
def floatLeInt (x : Float) (n : Int64) : Bool := !x.isNaN && !intLtFloat n x

/-- The order of two numbers or two strings; `none` for anything else. -/
def lessThan : Value → Value → Option Bool
  | .int a, .int b => some (decide (a < b))
  | .int a, .float b => some (intLtFloat a b)
  | .float a, .int b => some (floatLtInt a b)
  | .float a, .float b => some (decide (a < b))
  | .str a, .str b => some (Bytes.lexLt a b)
  | a, b => if a.isNumber && b.isNumber then some false else none

/-- The order, equality included, of two numbers or two strings; `none` for anything else. -/
def lessEqual : Value → Value → Option Bool
  | .int a, .int b => some (decide (a ≤ b))
  | .int a, .float b => some (intLeFloat a b)
  | .float a, .int b => some (floatLeInt a b)
  | .float a, .float b => some (decide (a ≤ b))
  | .str a, .str b => some (!Bytes.lexLt b a)
  | a, b => if a.isNumber && b.isNumber then some false else none

end ScriptHost.Script

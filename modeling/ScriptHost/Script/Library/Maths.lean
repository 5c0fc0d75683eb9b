import ScriptHost.Script.Library.Arguments

/-!
# The mathematics library

Integers stay integers where the result is one; everything else is a float.
-/

namespace ScriptHost.Script.Library

variable {σ : Type}

/-- A float as an integer if it fits 64 bits. -/
def integral (x : Float) : Value :=
  match Value.floatToInt? x with
  | some n => .int n
  | none => .float x

/-- A function of one float. -/
def onFloat (f : Float → Float) (args : Args) : Act σ (Array Value) := do
  match args.at' 1 with
  | .nan => return #[.nan]
  | _ => return #[.float (f (← args.number 1))]

def mathAbs (args : Args) : Act σ (Array Value) := do
  match args.at' 1 with
  | .int n => return #[.int (if n < 0 then 0 - n else n)]
  | _ =>
    let x ← args.number 1
    return #[if x.isNaN then .nan else .float x.abs]

def mathFloor (args : Args) : Act σ (Array Value) := do
  match args.at' 1 with
  | .int n => return #[.int n]
  | .nan => return #[.nan]
  | _ => return #[integral (← args.number 1).floor]

def mathCeil (args : Args) : Act σ (Array Value) := do
  match args.at' 1 with
  | .int n => return #[.int n]
  | .nan => return #[.nan]
  | _ => return #[integral (← args.number 1).ceil]

def mathFmod (args : Args) : Act σ (Array Value) := do
  match args.at' 1, args.at' 2 with
  | .int a, .int b =>
    if b == 0 then Act.badArgument 2 "zero"
    else return #[.int (Int64.ofInt (Int.tmod a.toInt b.toInt))]
  | _, _ =>
    let a ← args.number 1
    let b ← args.number 2
    return #[.float (Binary.remainder a b)]

def mathModf (args : Args) : Act σ (Array Value) := do
  match args.at' 1 with
  | .int n => return #[.int n, .float 0]
  | .nan => return #[.nan, .nan]
  | _ =>
    let x ← args.number 1
    let whole := if x < 0 then x.ceil else x.floor
    return #[integral whole, .float (if x == whole then 0 else x - whole)]

def mathSqrt (args : Args) : Act σ (Array Value) := onFloat Float.sqrt args

def mathUlt (args : Args) : Act σ (Array Value) := do
  let a ← args.integer 1
  let b ← args.integer 2
  return #[.bool (decide (a.toUInt64 < b.toUInt64))]

def mathLog (args : Args) : Act σ (Array Value) := do
  let x ← args.number 1
  if args.absent 2 then return #[.float x.log]
  let base ← args.number 2
  return #[.float (if base == 2.0 then x.log2 else if base == 10.0 then x.log10 else x.log / base.log)]

def mathAtan (args : Args) : Act σ (Array Value) := do
  let y ← args.number 1
  let x ← if args.absent 2 then pure 1.0 else args.number 2
  return #[.float (Float.atan2 y x)]

def mathPow (args : Args) : Act σ (Array Value) := do
  let a ← args.number 1
  let b ← args.number 2
  return #[.float (a.pow b)]

/-- The half circle. -/
def pi : Float := 3.141592653589793

/-- A float as a fraction between a half and one, and a power of two. -/
def mathFrexp (args : Args) : Act σ (Array Value) := do
  let x ← args.number 1
  match Binary.ofFloat x with
  | .finite b =>
    if b.mant = 0 then return #[.float x, .int 0]
    else
      let bits := Nat.log2 b.mant + 1
      return #[.float (Binary.toFloat ⟨b.neg, b.mant, -(bits : Int)⟩), .int (Int64.ofInt (b.exp + bits))]
  | _ => return #[.float x, .int 0]

def mathLdexp (args : Args) : Act σ (Array Value) := do
  let x ← args.number 1
  let e := (← args.integer 2).toInt
  match Binary.ofFloat x with
  | .finite b => return #[.float (Binary.toFloat ⟨b.neg, b.mant, b.exp + max (-5000) (min 5000 e)⟩)]
  | _ => return #[.float x]

/-- The greatest of some values, in the order that the script has for them. -/
def greatest : List Value → Value → Act σ Value
  | [], best => return best
  | v :: rest, best => do greatest rest (if ← Act.compare .lt best v then v else best)

/-- The least of some values, in the order that the script has for them. -/
def least : List Value → Value → Act σ Value
  | [], best => return best
  | v :: rest, best => do least rest (if ← Act.compare .lt v best then v else best)

def mathMax (args : Args) : Act σ (Array Value) := do
  Args.check (args.size ≠ 0) 1 "value expected"
  return #[← greatest (args.from' 2).toList (args.at' 1)]

def mathMin (args : Args) : Act σ (Array Value) := do
  Args.check (args.size ≠ 0) 1 "value expected"
  return #[← least (args.from' 2).toList (args.at' 1)]

def mathToInteger (args : Args) : Act σ (Array Value) := do
  match (args.at' 1).coerceInt? with
  | some n => return #[.int n]
  | none =>
    discard <| args.any 1
    return #[.nil]

def mathType (args : Args) : Act σ (Array Value) := do
  match args.at' 1 with
  | .int _ => return #[.ofString "integer"]
  | .float _ | .nan => return #[.ofString "float"]
  | _ =>
    discard <| args.any 1
    return #[.nil]

/-- The next pseudo-random number. -/
def randomStep (seed : UInt64) : UInt64 × UInt64 :=
  let s := seed + 0x9E3779B97F4A7C15
  let z := (s ^^^ (s >>> 30)) * 0xBF58476D1CE4E5B9
  let z := (z ^^^ (z >>> 27)) * 0x94D049BB133111EB
  (z ^^^ (z >>> 31), s)

def mathRandom (args : Args) : Act σ (Array Value) := do
  let r ← Act.withHeap fun h =>
    let (r, seed) := randomStep h.seed
    (r, { h with seed })
  let between (low up : Int64) : Act σ (Array Value) := do
    let span := up.toUInt64 - low.toUInt64
    return #[.int (low + (if span + 1 == 0 then r else r % (span + 1)).toInt64)]
  match args.size with
  | 0 => return #[.float ((r >>> 11).toFloat * (0.5 / (2.0 ^ 52.0)))]
  | 1 =>
    let up ← args.integer 1
    if up == 0 then return #[.int r.toInt64]
    Args.check (decide (1 ≤ up)) 1 "interval is empty"
    between 1 up
  | 2 =>
    let low ← args.integer 1
    let up ← args.integer 2
    Args.check (decide (low ≤ up)) 1 "interval is empty"
    between low up
  | _ => Act.fail "wrong number of arguments"

def mathRandomSeed (args : Args) : Act σ (Array Value) := do
  let n ← if args.size == 0 then pure 0 else
    match args.at' 1 with
    | .float x => pure ((Value.floatToInt? x).getD x.toBits.toInt64)
    | _ => args.integer 1
  let second ← args.integerOr 2 0
  Act.onHeap fun h => { h with seed := n.toUInt64 ^^^ (second.toUInt64 <<< 32) }
  return #[.int n, .int second]

end ScriptHost.Script.Library

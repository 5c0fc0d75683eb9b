import ScriptHost.Script.Library.Arguments

/-!
# The base library

Kinds, metatables, raw access, traversal, conversion and protected calls.
-/

namespace ScriptHost.Script.Library

variable {σ : Type}

/-- An object with its metatable's own field, `nil` if there is none. -/
@[inline] def metafield (v : Value) (name : String) : Act σ Value := Act.metamethod v name

/-- Raise a value; a text gets the place of the level asked for in front. -/
def raiseValue (v : Value) (level : Int64) : Act σ (Array Value) :=
  match v with
  | .str s =>
    if 0 < level then Act.raise (.level level.toUInt64.toNat s) else Act.raise (.value v)
  | _ => Act.raise (.value v)

def baseAssert (args : Args) : Act σ (Array Value) := do
  if (args.at' 1).truthy then return args
  discard <| args.any 1
  raiseValue (if args.size < 2 then .ofString "assertion failed!" else args.at' 2) 1

def baseError (args : Args) : Act σ (Array Value) := do
  raiseValue (args.at' 1) (← args.integerOr 2 1)

def baseGetMetatable (args : Args) : Act σ (Array Value) := do
  let v ← args.any 1
  match v with
  | .failure _ => return #[.bool false]
  | _ =>
    match ← Act.readHeap fun h => h.metatable? v with
    | none => return #[.nil]
    | some m =>
      match ← metafield v "__metatable" with
      | .nil => return #[.table m]
      | shown => return #[shown]

def baseSetMetatable (args : Args) : Act σ (Array Value) := do
  let id ← args.table 1
  let m? ← match args.at' 2 with
    | .table m => pure (some m)
    | .nil => if args.size < 2 then args.wrongKind 2 "nil or table" else pure none
    | _ => args.wrongKind 2 "nil or table"
  match ← metafield (.table id) "__metatable" with
  | .nil =>
    Act.onHeap fun h => h.onTable id fun t => { t with metatable := m? }
    return #[.table id]
  | _ => Act.fail "cannot change a protected metatable"

def baseRawGet (args : Args) : Act σ (Array Value) := do
  let id ← args.table 1
  let k ← args.any 2
  return #[← Act.readHeap fun h => (h.table id).get k]

def baseRawSet (args : Args) : Act σ (Array Value) := do
  let id ← args.table 1
  let k ← args.any 2
  let v ← args.any 3
  Act.rawSet id k v
  return #[.table id]

def baseRawLen (args : Args) : Act σ (Array Value) := do
  match args.at' 1 with
  | .table id => return #[← Act.withHeap fun h =>
      let (n, t) := (h.table id).border
      (.ofNat n, h.onTable id fun _ => t)]
  | .str s => return #[.ofNat s.size]
  | _ => args.wrongKind 1 "table or string"

def baseRawEqual (args : Args) : Act σ (Array Value) := do
  let a ← args.any 1
  let b ← args.any 2
  return #[.bool (Value.rawEq a b)]

def baseNext (args : Args) : Act σ (Array Value) := do
  let id ← args.table 1
  match ← Act.readHeap fun h => (h.table id).next (args.at' 2) with
  | none => Act.raise (.here (Bytes.ofString "invalid key to 'next'"))
  | some none => return #[.nil]
  | some (some (k, v)) => return #[k, v]

def basePairs (args : Args) : Act σ (Array Value) := do
  let v ← args.any 1
  match ← metafield v "__pairs" with
  | .nil => return #[.native (.builtin .next), v, .nil]
  | f =>
    let r ← Act.call f #[v] true
    return #[r.getD 0 .nil, r.getD 1 .nil, r.getD 2 .nil]

def baseIpairs (args : Args) : Act σ (Array Value) := do
  let v ← args.any 1
  return #[.native (.builtin .ipairsStep), v, .int 0]

def ipairsNext (args : Args) : Act σ (Array Value) := do
  let i := (← args.integer 2) + 1
  match ← Act.index (args.at' 1) (.int i) with
  | .nil => return #[.nil]
  | v => return #[.int i, v]

def baseSelect (args : Args) : Act σ (Array Value) := do
  let n := args.size
  match args.at' 1 with
  | .str s => if s.byteAt 0 == 35 then return #[.ofNat (n - 1)]
  | _ => pure ()
  let i := (← args.integer 1).toInt
  let i := if i < 0 then (n : Int) + i else min i n
  Args.check (decide (1 ≤ i)) 1 "index out of range"
  return args.extract i.toNat n

/-- The value of a digit or letter as a digit, if it is one. -/
def digitValue? (b : UInt8) : Option Nat :=
  if 48 ≤ b && b ≤ 57 then some (b.toNat - 48)
  else if 65 ≤ b && b ≤ 90 then some (b.toNat - 55)
  else if 97 ≤ b && b ≤ 122 then some (b.toNat - 87)
  else none

/-- The integer that a text writes in a base; it wraps around. -/
def parseInBase (s : Bytes) (base : Nat) : Option Int64 :=
  let (neg, r) := Numeral.takeSign (s.toList.dropWhile Numeral.isSpace)
  let ds := r.takeWhile fun b => (digitValue? b).isSome
  if ds.isEmpty || !Numeral.blank (r.drop ds.length) then none
  else
    let values := ds.filterMap digitValue?
    if values.all (· < base) then
      let n := Int64.ofNat (values.foldl (fun n d => n * base + d) 0)
      some (if neg then 0 - n else n)
    else none

def baseToNumber (args : Args) : Act σ (Array Value) := do
  if args.absent 2 then
    match (args.at' 1).toNumber? with
    | some v => return #[v]
    | none =>
      discard <| args.any 1
      return #[.nil]
  else
    let base ← args.integer 2
    match args.at' 1 with
    | .str s =>
      Args.check (decide (2 ≤ base) && decide (base ≤ 36)) 2 "base out of range"
      return #[match parseInBase s base.toUInt64.toNat with
        | some n => .int n
        | none => .nil]
    | _ => args.wrongKind 1 "string"

def baseToString (args : Args) : Act σ (Array Value) := do
  return #[.str (← Act.text (← args.any 1))]

def baseType (args : Args) : Act σ (Array Value) := do
  return #[.ofString (← args.any 1).typeName]

/-- The answer to a protected call as results. -/
def protectedResults : Reply → Array Value
  | .values vs => #[.bool true] ++ vs
  | .failed v => #[.bool false, v]

def basePcall (args : Args) : Act σ (Array Value) := do
  let f ← args.any 1
  return protectedResults (← Act.guarded f (args.from' 2) .none true)

def baseXpcall (args : Args) : Act σ (Array Value) := do
  let handler ← args.function 2
  return protectedResults (← Act.guarded (args.at' 1) (args.from' 3) (.script handler) true)

end ScriptHost.Script.Library

import ScriptHost.Script.Library.Arguments

/-!
# The table library

Lists in tables: insertion and removal, moving, joining, packing and sorting. All go through metamethods
where the table has any.
-/

namespace ScriptHost.Script.Library

variable {σ α : Type}

/-- What a function does with a table: it reads, writes or takes its length. -/
structure Uses where
  read : Bool := false
  write : Bool := false
  length : Bool := false

/-- An argument that must be a table, or have the metamethods for what is done with it. -/
def tableLike (args : Args) (n : Nat) (uses : Uses) : Act σ Value := do
  let v := args.at' n
  match v with
  | .table _ => return v
  | _ =>
    let has (used : Bool) (event : String) : Act σ Bool := do
      if used then return !(← Act.metamethod v event).isNil else return true
    let knows ← Act.readHeap fun h => (h.metatable? v).isSome
    if knows && (← has uses.read "__index") && (← has uses.write "__newindex")
        && (← has uses.length "__len") then return v
    else args.wrongKind n "table"

/-- The length of a value as an integer. -/
def lengthOf (v : Value) : Act σ Int64 := do
  match (← Act.length v).coerceInt? with
  | some n => return n
  | none => Act.fail "object length is not an integer"

/-- The element at a position. -/
@[inline] def element (t : Value) (i : Int64) : Act σ Value := Act.index t (.int i)

/-- Set the element at a position. -/
@[inline] def setElement (t : Value) (i : Int64) (v : Value) : Act σ Unit := Act.setIndex t (.int i) v

/-- Move elements up by one place, from `i` down to `stop` excluded. -/
def shiftUp (t : Value) (stop : Int64) : Nat → Int64 → Act σ Unit
  | 0, _ => return ()
  | fuel + 1, i => do
    if i ≤ stop then return ()
    setElement t i (← element t (i - 1))
    shiftUp t stop fuel (i - 1)

def tabInsert (args : Args) : Act σ (Array Value) := do
  let t ← tableLike args 1 ⟨true, true, true⟩
  let e := (← lengthOf t) + 1
  match args.size with
  | 2 =>
    setElement t e (args.at' 2)
    return #[]
  | 3 =>
    let pos ← args.integer 2
    Args.check (decide ((pos.toUInt64 - 1) < e.toUInt64)) 2 "position out of bounds"
    shiftUp t pos (e - pos).toUInt64.toNat e
    setElement t pos (args.at' 3)
    return #[]
  | _ => Act.fail "wrong number of arguments to 'insert'"

/-- Move elements down by one place, from `i` up to `stop` excluded. -/
def shiftDown (t : Value) (stop : Int64) : Nat → Int64 → Act σ Unit
  | 0, _ => return ()
  | fuel + 1, i => do
    if stop ≤ i then return ()
    setElement t i (← element t (i + 1))
    shiftDown t stop fuel (i + 1)

def tabRemove (args : Args) : Act σ (Array Value) := do
  let t ← tableLike args 1 ⟨true, true, true⟩
  let size ← lengthOf t
  let pos ← args.integerOr 2 size
  if pos != size then
    Args.check (decide (pos.toUInt64 - 1 ≤ size.toUInt64)) 2 "position out of bounds"
  let v ← element t pos
  if pos < size then
    shiftDown t size (size - pos).toUInt64.toNat pos
    setElement t size .nil
  else setElement t pos .nil
  return #[v]

/-- Copy `n` elements upwards in order. -/
def copyUp (from' dest : Value) (f t : Int64) : Nat → Int64 → Act σ Unit
  | 0, _ => return ()
  | n + 1, i => do
    setElement dest (t + i) (← element from' (f + i))
    copyUp from' dest f t n (i + 1)

/-- Copy `n` elements downwards in order. -/
def copyDown (from' dest : Value) (f t : Int64) : Nat → Act σ Unit
  | 0 => return ()
  | n + 1 => do
    let i := Int64.ofNat n
    setElement dest (t + i) (← element from' (f + i))
    copyDown from' dest f t n

def tabMove (args : Args) : Act σ (Array Value) := do
  let f ← args.integer 2
  let e ← args.integer 3
  let t ← args.integer 4
  let target := if args.absent 5 then 1 else 5
  let source ← tableLike args 1 ⟨true, false, false⟩
  let dest ← tableLike args target ⟨false, true, false⟩
  if f ≤ e then
    Args.check (decide (0 < f) || decide (e < Int64.ofInt Value.maxInt + f)) 3 "too many elements to move"
    let n := e - f + 1
    Args.check (decide (t ≤ Int64.ofInt Value.maxInt - n + 1)) 4 "destination wrap around"
    if e < t || t ≤ f || (target == 5 && !(← Act.equals source dest)) then copyUp source dest f t n.toUInt64.toNat 0
    else copyDown source dest f t n.toUInt64.toNat
  return #[dest]

/-- An element that can be joined. -/
def joinable (t : Value) (i : Int64) : Act σ Bytes := do
  let v ← element t i
  match v.toText? with
  | some s => return s
  | none =>
    Act.fail ("invalid value (" ++ v.typeName ++ ") at index " ++ toString i.toInt ++ " in table for 'concat'")

/-- Join the elements from `i` to `last`. -/
def joinFrom (t : Value) (separator : Bytes) (last : Int64) : Nat → Int64 → Bytes → Act σ Bytes
  | 0, _, acc => return acc
  | fuel + 1, i, acc => do
    let acc := acc.append (← joinable t i)
    if i == last then return acc
    else joinFrom t separator last fuel (i + 1) (acc.append separator)

def tabConcat (args : Args) : Act σ (Array Value) := do
  let t ← tableLike args 1 ⟨true, false, true⟩
  let size ← lengthOf t
  let separator ← args.textOr 2 ByteArray.empty
  let i ← args.integerOr 3 1
  let last ← args.integerOr 4 size
  if last < i then return #[.str ByteArray.empty]
  return #[.str (← joinFrom t separator last ((last - i).toUInt64.toNat + 1) i ByteArray.empty)]

def tabPack (args : Args) : Act σ (Array Value) := do
  let n := args.size
  let t : Table := { Table.empty n 1 with array := args }
  return #[← Act.newTable (t.setStr "n" (.ofNat n))]

/-- How many values a call may have. -/
def maxResults : Nat := 999980

/-- The elements from `i` to `last`. -/
def elements (t : Value) (last : Int64) : Nat → Int64 → Array Value → Act σ (Array Value)
  | 0, _, acc => return acc
  | fuel + 1, i, acc => do
    let acc := acc.push (← element t i)
    if i == last then return acc else elements t last fuel (i + 1) acc

def tabUnpack (args : Args) : Act σ (Array Value) := do
  let t := args.at' 1
  let i ← args.integerOr 2 1
  let last ← if args.absent 3 then lengthOf t else args.integer 3
  if last < i then return #[]
  let n := (last - i).toUInt64.toNat
  if maxResults ≤ n then Act.fail "too many results to unpack"
  else elements t last (n + 1) i #[]

/-! ### Sorting -/

/-- One element comes before another, by a function or by the order of values. -/
def comesBefore (order : Option Value) (a b : Value) : Act σ Bool := do
  match order with
  | none => Act.compare .lt a b
  | some f => return (← Act.call1 f #[a, b]).truthy

/-- The first place above `i` whose element does not come before the pivot. -/
def scanUp (t : Value) (order : Option Value) (pivot : Value) (last : Int64) :
    Nat → Int64 → Act σ (Int64 × Value)
  | 0, _ => Act.fail "invalid order function for sorting"
  | fuel + 1, i => do
    let i := i + 1
    let v ← element t i
    if ← comesBefore order v pivot then
      if i == last then Act.fail "invalid order function for sorting"
      else scanUp t order pivot last fuel i
    else return (i, v)

/-- The first place below `j` whose element the pivot does not come before. -/
def scanDown (t : Value) (order : Option Value) (pivot : Value) (first : Int64) :
    Nat → Int64 → Act σ (Int64 × Value)
  | 0, _ => Act.fail "invalid order function for sorting"
  | fuel + 1, j => do
    let j := j - 1
    let v ← element t j
    if ← comesBefore order pivot v then
      if j < first then Act.fail "invalid order function for sorting"
      else scanDown t order pivot first fuel j
    else return (j, v)

/-- Put the elements that come before the pivot, which lies at `up - 1`, before those that it comes before;
gives the pivot's place. -/
def partition (t : Value) (order : Option Value) (pivot : Value) (lo up : Int64) :
    Nat → Int64 → Int64 → Act σ Int64
  | 0, _, _ => Act.fail "invalid order function for sorting"
  | fuel + 1, i, j => do
    let count := (up - lo).toUInt64.toNat + 4
    let (i, vi) ← scanUp t order pivot (up - 1) count i
    let (j, vj) ← scanDown t order pivot i count j
    if j < i then
      setElement t (up - 1) vi
      setElement t i pivot
      return i
    else
      setElement t i vj
      setElement t j vi
      partition t order pivot lo up fuel i j

/-- Sort three elements: the first, the last and the one between. -/
def exchange (t : Value) (order : Option Value) (i j : Int64) : Act σ Unit := do
  let a ← element t i
  let b ← element t j
  if ← comesBefore order b a then
    setElement t i b
    setElement t j a

/-- Sort the elements from `lo` to `up`. -/
def sortRange (t : Value) (order : Option Value) : Nat → Int64 → Int64 → Act σ Unit
  | 0, _, _ => return ()
  | fuel + 1, lo, up => do
    if up ≤ lo then return ()
    exchange t order lo up
    if up - lo == 1 then return ()
    let p := (lo + up) / 2
    let a ← element t p
    let b ← element t lo
    if ← comesBefore order a b then
      setElement t p b
      setElement t lo a
    else
      let c ← element t up
      if ← comesBefore order c a then
        setElement t p c
        setElement t up a
    if up - lo == 2 then return ()
    let pivot ← element t p
    let other ← element t (up - 1)
    setElement t p other
    setElement t (up - 1) pivot
    let p ← partition t order pivot lo up ((up - lo).toUInt64.toNat + 2) lo (up - 1)
    if p - lo < up - p then
      sortRange t order fuel lo (p - 1)
      sortRange t order fuel (p + 1) up
    else
      sortRange t order fuel (p + 1) up
      sortRange t order fuel lo (p - 1)

def tabSort (args : Args) : Act σ (Array Value) := do
  let t ← tableLike args 1 ⟨true, true, true⟩
  let n ← lengthOf t
  if 1 < n then
    Args.check (decide (n < 2147483647)) 1 "array too big"
    let order ← if args.absent 2 then pure none else some <$> args.function 2
    sortRange t order n.toUInt64.toNat 1 n
  return #[]

end ScriptHost.Script.Library

import ScriptHost.Script.Library.Strings

/-!
# Values as binary data

A layout lists how values follow each other in a byte string: integers and floats of given sizes, texts with
a length before or a zero byte after them, and padding.

* `Layout.Item`: one item of a layout, read by `Layout.next`.
* `Layout.packInt`, `Layout.unpackInt`: integers of any size up to sixteen bytes.
-/

namespace ScriptHost.Script.Layout

/-- What an item of a layout stands for. -/
inductive Kind where
  | signed | unsigned | single | double | fixedText | countedText | zeroText | padding | alignment | nothing
  deriving DecidableEq, Inhabited

/-- How a layout is read: the order of bytes and the greatest alignment. -/
structure Mode where
  little : Bool := true
  maxAlign : Nat := 1

/-- An item: its kind, its size and the padding before it. -/
structure Item where
  kind : Kind
  size : Nat
  before : Nat

/-- The largest size of an integer. -/
def maxIntSize : Nat := 16

/-- A number at `i`, or else the given one. -/
def number (f : Bytes) (i : Nat) (default : Option Nat) : Option Nat × Nat :=
  let ds := ((f.extract i f.size).toList.takeWhile Numeral.isDigit).take 18
  if ds.isEmpty then (default, i) else (some (Numeral.decimalValue ds), i + ds.length)

/-- A number at `i` that is the size of an integer. -/
def intSize (f : Bytes) (i default : Nat) : Except String (Nat × Nat) :=
  match number f i (some default) with
  | (some n, j) =>
    if n = 0 || maxIntSize < n then
      .error ("integral size (" ++ toString n ++ ") out of limits [1," ++ toString maxIntSize ++ "]")
    else .ok (n, j)
  | (none, j) => .ok (default, j)

/-- The option at `i`: its kind and size, how the layout is read from there on, and what follows. -/
def option (m : Mode) (f : Bytes) (i : Nat) : Except String (Kind × Nat × Mode × Nat) :=
  let c := f.byteAt i
  let j := i + 1
  let plain (k : Kind) (n : Nat) : Except String (Kind × Nat × Mode × Nat) := .ok (k, n, m, j)
  let sized (k : Kind) (default : Nat) : Except String (Kind × Nat × Mode × Nat) := do
    let (n, j) ← intSize f j default
    return (k, n, m, j)
  match Char.ofNat c.toNat with
  | 'b' => plain .signed 1
  | 'B' => plain .unsigned 1
  | 'h' => plain .signed 2
  | 'H' => plain .unsigned 2
  | 'l' | 'j' => plain .signed 8
  | 'L' | 'J' | 'T' => plain .unsigned 8
  | 'f' => plain .single 4
  | 'n' | 'd' => plain .double 8
  | 'i' => sized .signed 4
  | 'I' => sized .unsigned 4
  | 's' => sized .countedText 8
  | 'c' =>
    match number f j none with
    | (some n, j) => .ok (.fixedText, n, m, j)
    | (none, _) => .error "missing size for format option 'c'"
  | 'z' => plain .zeroText 0
  | 'x' => plain .padding 1
  | 'X' => plain .alignment 0
  | ' ' => plain .nothing 0
  | '<' | '=' => .ok (.nothing, 0, { m with little := true }, j)
  | '>' => .ok (.nothing, 0, { m with little := false }, j)
  | '!' => do
    let (n, j) ← intSize f j 8
    return (.nothing, 0, { m with maxAlign := n }, j)
  | _ => .error ("invalid format option '" ++ String.ofList [Char.ofNat c.toNat] ++ "'")

/-- Why a layout is refused: a message of its own, or one about the argument that holds it. -/
inductive Refusal where
  | plain (message : String)
  | argument (message : String)

/-- An option, whose failure is a message of its own. -/
def optionAt (m : Mode) (f : Bytes) (i : Nat) : Except Refusal (Kind × Nat × Mode × Nat) :=
  match option m f i with
  | .ok r => .ok r
  | .error e => .error (.plain e)

/-- The size to align to: an item's own, or for an alignment that of the option after it. -/
def alignSize (m : Mode) (f : Bytes) (kind : Kind) (size j : Nat) : Except Refusal (Nat × Mode × Nat) :=
  if kind == .alignment then
    if f.size ≤ j then .error (.argument "invalid next option for option 'X'")
    else
      match optionAt m f j with
      | .error e => .error e
      | .ok (k, n, m, j) =>
        if k == .fixedText || n = 0 then .error (.argument "invalid next option for option 'X'")
        else .ok (n, m, j)
  else .ok (size, m, j)

/-- The next item of a layout when `total` bytes came before it, and what follows. -/
def next (m : Mode) (f : Bytes) (i total : Nat) : Except Refusal (Item × Mode × Nat) := do
  let (kind, size, m, j) ← optionAt m f i
  let (align, m, j) ← alignSize m f kind size j
  if align ≤ 1 || kind == .fixedText then return (⟨kind, size, 0⟩, m, j)
  else
    let align := min align m.maxAlign
    if align &&& (align - 1) ≠ 0 then .error (.argument "format asks for alignment not power of 2")
    else return (⟨kind, size, (align - total % align) % align⟩, m, j)

/-- The lowest `size` bytes of a number, in the order asked for. -/
def packInt (little : Bool) (size : Nat) (n : Int) : Bytes :=
  let value := (n % (Nat.pow 256 size : Nat)).toNat
  let bytes := (List.range size).map fun i => (value / Nat.pow 256 i % 256).toUInt8
  (if little then bytes else bytes.reverse).toByteArray

/-- The number that bytes write, without a sign. -/
def natOf (little : Bool) (b : Bytes) : Nat :=
  (if little then b.toList.reverse else b.toList).foldl (fun n x => n * 256 + x.toNat) 0

/-- The integer that bytes write, or nothing if it does not fit. -/
def unpackInt (little signed : Bool) (b : Bytes) : Option Int64 :=
  let n := natOf little b
  let size := b.size
  if size ≤ 8 then
    let n : Int := n
    let n := if signed && Nat.pow 2 (8 * size - 1) ≤ n then n - Nat.pow 2 (8 * size) else n
    some (Int64.ofInt n)
  else
    let high := n / 0x10000000000000000
    let low := Int64.ofNat n
    if high = 0 && (!signed || 0 ≤ low) then some low
    else if signed && low < 0 && high = Nat.pow 256 (size - 8) - 1 then some low
    else none

end Layout

namespace Library

variable {σ α : Type}

/-- The next item of the layout in the first argument. -/
def nextItem (m : Layout.Mode) (f : Bytes) (i total : Nat) : Act σ (Layout.Item × Layout.Mode × Nat) :=
  match Layout.next m f i total with
  | .ok r => return r
  | .error (.plain e) => Act.fail e
  | .error (.argument e) => Act.badArgument 1 e

/-- Pack the arguments from number `n` on after `acc`. -/
def packFrom (args : Args) (f : Bytes) : Nat → Layout.Mode → Nat → Nat → Bytes → Act σ Bytes
  | 0, _, _, _, acc => return acc
  | fuel + 1, m, i, n, acc => do
    if f.size ≤ i then return acc
    let (item, m, i) ← nextItem m f i acc.size
    let acc := acc.append (Bytes.fill item.before 0)
    let size := item.size
    match item.kind with
    | .signed =>
      let v := (← args.integer n).toInt
      let limit : Int := Nat.pow 2 (8 * size - 1)
      Args.check (8 ≤ size || (decide (-limit ≤ v) && decide (v < limit))) n "integer overflow"
      packFrom args f fuel m i (n + 1) (acc.append (Layout.packInt m.little size v))
    | .unsigned =>
      let v := (← args.integer n).toUInt64.toNat
      Args.check (8 ≤ size || v < Nat.pow 2 (8 * size)) n "unsigned overflow"
      packFrom args f fuel m i (n + 1) (acc.append (Layout.packInt m.little size v))
    | .single =>
      let x ← args.number n
      packFrom args f fuel m i (n + 1)
        (acc.append (Layout.packInt m.little 4 x.toFloat32.toBits.toNat))
    | .double =>
      let x ← args.number n
      packFrom args f fuel m i (n + 1) (acc.append (Layout.packInt m.little 8 x.toBits.toNat))
    | .fixedText =>
      let s ← args.text n
      Args.check (s.size ≤ size) n "string longer than given size"
      packFrom args f fuel m i (n + 1) ((acc.append s).append (Bytes.fill (size - s.size) 0))
    | .countedText =>
      let s ← args.text n
      Args.check (8 ≤ size || s.size < Nat.pow 2 (8 * size)) n "string length does not fit in given size"
      packFrom args f fuel m i (n + 1) ((acc.append (Layout.packInt m.little size s.size)).append s)
    | .zeroText =>
      let s ← args.text n
      Args.check (!s.toList.contains 0) n "string contains zeros"
      packFrom args f fuel m i (n + 1) ((acc.append s).push 0)
    | .padding => packFrom args f fuel m i n (acc.push 0)
    | .alignment | .nothing => packFrom args f fuel m i n acc

def strPack (args : Args) : Act σ (Array Value) := do
  let f ← args.text 1
  return #[.str (← packFrom args f f.size {} 0 2 ByteArray.empty)]

/-- The size of a layout's data from place `i` on. -/
def packSizeFrom (f : Bytes) : Nat → Layout.Mode → Nat → Nat → Act σ Nat
  | 0, _, _, total => return total
  | fuel + 1, m, i, total => do
    if f.size ≤ i then return total
    let (item, m, i) ← nextItem m f i total
    Args.check (item.kind != .countedText && item.kind != .zeroText) 1 "variable-length format"
    let size := item.size + item.before
    Args.check (decide (total + size ≤ 0x7FFFFFFF)) 1 "format result too large"
    packSizeFrom f fuel m i (total + size)

def strPackSize (args : Args) : Act σ (Array Value) := do
  let f ← args.text 1
  return #[.ofNat (← packSizeFrom f f.size {} 0 0)]

/-- Unpack data from place `pos` on: the values and where they end. -/
def unpackFrom (f data : Bytes) : Nat → Layout.Mode → Nat → Nat → Array Value → Act σ (Array Value × Nat)
  | 0, _, _, pos, acc => return (acc, pos)
  | fuel + 1, m, i, pos, acc => do
    if f.size ≤ i then return (acc, pos)
    let (item, m, i) ← nextItem m f i pos
    let size := item.size
    Args.check (decide (item.before + size ≤ data.size - pos)) 2 "data string too short"
    let pos := pos + item.before
    let piece := data.extract pos (pos + size)
    let go (v : Value) (pos : Nat) : Act σ (Array Value × Nat) := unpackFrom f data fuel m i pos (acc.push v)
    match item.kind with
    | .signed | .unsigned =>
      match Layout.unpackInt m.little (item.kind == .signed) piece with
      | some n => go (.int n) (pos + size)
      | none => Act.fail (toString size ++ "-byte integer does not fit into Lua Integer")
    | .single => go (.ofSingleBits (Layout.natOf m.little piece).toUInt32) (pos + size)
    | .double => go (.ofBits (Layout.natOf m.little piece).toUInt64) (pos + size)
    | .fixedText => go (.str piece) (pos + size)
    | .countedText =>
      let count := match Layout.unpackInt m.little false piece with
        | some n => n.toUInt64.toNat
        | none => 0x10000000000000000
      Args.check (decide (count ≤ data.size - pos - size)) 2 "data string too short"
      go (.str (data.extract (pos + size) (pos + size + count))) (pos + size + count)
    | .zeroText =>
      let s := ((data.extract pos data.size).toList.takeWhile (· ≠ 0)).toByteArray
      Args.check (decide (pos + s.size < data.size)) 2 "unfinished string for format 'z'"
      go (.str s) (pos + s.size + 1)
    | .padding => unpackFrom f data fuel m i (pos + size) acc
    | .alignment | .nothing => unpackFrom f data fuel m i pos acc

def strUnpack (args : Args) : Act σ (Array Value) := do
  let f ← args.text 1
  let data ← args.text 2
  let pos := startPosition (← args.integerOr 3 1) data.size - 1
  Args.check (decide (pos ≤ data.size)) 3 "initial position out of string"
  let (vs, stop) ← unpackFrom f data f.size {} 0 pos #[]
  return vs.push (.ofNat (stop + 1))

end Library

end ScriptHost.Script

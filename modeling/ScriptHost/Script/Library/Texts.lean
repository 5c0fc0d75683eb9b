import ScriptHost.Script.Library.Arguments

/-!
# The text library

Characters in byte strings, coded with one to six bytes each. The strict functions refuse codes beyond the
last character and those set aside for pairs.
-/

namespace ScriptHost.Script.Library

variable {σ : Type}

/-- A byte that goes on with a character. -/
def isTail (b : UInt8) : Bool := 0x80 ≤ b && b ≤ 0xBF

/-- The greatest code. -/
def maxCode : Nat := 0x7FFFFFFF

/-- The bytes of a character's code. -/
def encode (n : Nat) : Bytes :=
  if n < 0x80 then (ByteArray.empty).push n.toUInt8
  else
    let tail (k : Nat) : List UInt8 :=
      ((List.range k).reverse.map fun i => (0x80 + n / Nat.pow 64 i % 64).toUInt8)
    let whole (k : Nat) (mark : Nat) : Bytes := ((mark + n / Nat.pow 64 k).toUInt8 :: tail k).toByteArray
    if n < 0x800 then whole 1 0xC0
    else if n < 0x10000 then whole 2 0xE0
    else if n < 0x200000 then whole 3 0xF0
    else if n < 0x4000000 then whole 4 0xF8
    else whole 5 0xFC

/-- How many bytes follow a first byte. -/
def tailCount (b : UInt8) : Option Nat :=
  if b < 0x80 then some 0
  else if b < 0xC0 then none
  else if b < 0xE0 then some 1
  else if b < 0xF0 then some 2
  else if b < 0xF8 then some 3
  else if b < 0xFC then some 4
  else if b < 0xFE then some 5
  else none

/-- The least code that needs so many following bytes. -/
def leastCode (k : Nat) : Nat := #[0, 0x80, 0x800, 0x10000, 0x200000, 0x4000000].getD k 0

/-- The character at a place: its code and its width. -/
def decodeAt (s : Bytes) (i : Nat) (strict : Bool) : Option (Nat × Nat) :=
  let b := s.byteAt i
  match tailCount b with
  | none => none
  | some k =>
    let tail := (List.range k).map fun j => s.byteAt (i + 1 + j)
    if tail.all isTail then
      let head := if k = 0 then b.toNat else b.toNat % Nat.pow 2 (6 - k)
      let code := tail.foldl (fun n x => n * 64 + x.toNat % 64) head
      if code < leastCode k || maxCode < code then none
      else if strict && (0x10FFFF < code || (0xD800 ≤ code && code ≤ 0xDFFF)) then none
      else some (code, k + 1)
    else none

/-- A place, counted from one, or from the end if negative. -/
def relativePlace (pos : Int64) (size : Nat) : Int :=
  let p := pos.toInt
  if 0 ≤ p then p else if (size : Int) < -p then 0 else size + p + 1

/-- Count characters from `i` to `last`; fails with the place of one that is ill formed. -/
def countChars (s : Bytes) (last : Int) (strict : Bool) : Nat → Nat → Nat → Nat ⊕ Nat
  | 0, _, n => .inl n
  | fuel + 1, i, n =>
    if (i : Int) ≤ last then
      match decodeAt s i strict with
      | none => .inr (i + 1)
      | some (_, w) => countChars s last strict fuel (i + w) (n + 1)
    else .inl n

def utfLen (args : Args) : Act σ (Array Value) := do
  let s ← args.text 1
  let i := relativePlace (← args.integerOr 2 1) s.size
  let j := relativePlace (← args.integerOr 3 (-1)) s.size
  let strict := !(args.at' 4).truthy
  Args.check (decide (1 ≤ i) && decide (i - 1 ≤ s.size)) 2 "initial position out of bounds"
  Args.check (decide (j - 1 < s.size)) 3 "final position out of bounds"
  match countChars s (j - 1) strict (s.size + 1) (i - 1).toNat 0 with
  | .inl n => return #[.ofNat n]
  | .inr place => return #[.nil, .ofNat place]

/-- The codes of the characters from `i` to before `stop`. -/
def codesFrom (s : Bytes) (stop : Int) (strict : Bool) : Nat → Nat → Array Value → Act σ (Array Value)
  | 0, _, acc => return acc
  | fuel + 1, i, acc =>
    if (i : Int) < stop then
      match decodeAt s i strict with
      | none => Act.fail "invalid UTF-8 code"
      | some (code, w) => codesFrom s stop strict fuel (i + w) (acc.push (.ofNat code))
    else return acc

def utfCodepoint (args : Args) : Act σ (Array Value) := do
  let s ← args.text 1
  let i := relativePlace (← args.integerOr 2 1) s.size
  let j := relativePlace (← args.integerOr 3 (Int64.ofInt i)) s.size
  let strict := !(args.at' 4).truthy
  Args.check (decide (1 ≤ i)) 2 "out of bounds"
  Args.check (decide (j ≤ s.size)) 3 "out of bounds"
  if j < i then return #[]
  codesFrom s j strict (s.size + 1) (i - 1).toNat #[]

/-- The bytes of the characters with the given codes, from argument `n` on. -/
def encodeArguments (args : Args) : Nat → Nat → Bytes → Act σ Bytes
  | 0, _, acc => return acc
  | fuel + 1, n, acc => do
    let code := (← args.integer n).toUInt64.toNat
    Args.check (decide (code ≤ maxCode)) n "value out of range"
    encodeArguments args fuel (n + 1) (acc.append (encode code))

def utfChar (args : Args) : Act σ (Array Value) := do
  return #[.str (← encodeArguments args args.size 1 ByteArray.empty)]

/-- The nearest place at or before `i` where a character starts. -/
def backToStart (s : Bytes) : Nat → Nat
  | 0 => 0
  | i + 1 => if isTail (s.byteAt (i + 1)) then backToStart s i else i + 1

/-- The nearest place at or after `i` where a character starts. -/
def onToStart (s : Bytes) : Nat → Nat → Nat
  | 0, i => i
  | fuel + 1, i => if isTail (s.byteAt i) then onToStart s fuel (i + 1) else i

/-- Go back over `n` characters from the start of one. -/
def goBack (s : Bytes) : Nat → Nat → Nat × Nat
  | 0, i => (0, i)
  | n + 1, i => if i = 0 then (n + 1, i) else goBack s n (backToStart s (i - 1))

/-- Go on over `n` characters from the start of one. -/
def goOn (s : Bytes) : Nat → Nat → Nat × Nat
  | 0, i => (0, i)
  | n + 1, i => if s.size ≤ i then (n + 1, i) else goOn s n (onToStart s s.size (i + 1))

def utfOffset (args : Args) : Act σ (Array Value) := do
  let s ← args.text 1
  let n := (← args.integer 2).toInt
  let start : Int64 := if 0 < n then 1 else Int64.ofNat (s.size + 1)
  let i := relativePlace (← args.integerOr 3 start) s.size - 1
  Args.check (decide (0 ≤ i) && decide (i ≤ s.size)) 3 "position out of bounds"
  let i := i.toNat
  if n = 0 then return #[.ofNat (backToStart s i + 1)]
  if isTail (s.byteAt i) then Act.fail "initial position is a continuation byte"
  let (left, i) := if n < 0 then goBack s (min n.natAbs (s.size + 1)) i
    else goOn s (min (n.natAbs - 1) (s.size + 1)) i
  return #[if left = 0 then .ofNat (i + 1) else .nil]

/-- The step of an iteration over characters: the place of the next one and its code. -/
def codesNext (strict : Bool) (args : Args) : Act σ (Array Value) := do
  let s ← args.text 1
  let n := (← args.integer 2).toUInt64.toNat
  let n := if n < s.size then onToStart s s.size n else n
  if s.size ≤ n then return #[]
  match decodeAt s n strict with
  | some (code, w) =>
    if isTail (s.byteAt (n + w)) then Act.fail "invalid UTF-8 code"
    else return #[.ofNat (n + 1), .ofNat code]
  | none => Act.fail "invalid UTF-8 code"

def utfCodes (args : Args) : Act σ (Array Value) := do
  let strict := !(args.at' 2).truthy
  let s ← args.text 1
  Args.check (!isTail (s.byteAt 0)) 1 "invalid UTF-8 code"
  return #[.native (.builtin (.codesStep strict)), .str s, .int 0]

/-- The pattern that matches one character. -/
def charPattern : Bytes :=
  ([91, 0, 45, 0x7F, 0xC2, 45, 0xFD, 93, 91, 0x80, 45, 0xBF, 93, 42] : List UInt8).toByteArray

end ScriptHost.Script.Library

import ScriptHost.Script.Library.Arguments
import ScriptHost.Script.Library.Format

/-!
# The string library

Byte strings: parts, cases, search, replacement, formatting, and the arithmetic of texts that write
numbers.
-/

namespace ScriptHost.Script.Library

variable {σ α : Type}

def strLen (args : Args) : Act σ (Array Value) := do
  return #[.ofNat (← args.text 1).size]

def strSub (args : Args) : Act σ (Array Value) := do
  let s ← args.text 1
  let i := startPosition (← args.integer 2) s.size
  let j := endPosition (← args.integerOr 3 (-1)) s.size
  return #[.str (if i ≤ j then s.extract (i - 1) j else ByteArray.empty)]

def strUpper (args : Args) : Act σ (Array Value) := do
  return #[.str (Bytes.map Pattern.toUpper (← args.text 1))]

def strLower (args : Args) : Act σ (Array Value) := do
  return #[.str (Bytes.map Pattern.toLower (← args.text 1))]

def strReverse (args : Args) : Act σ (Array Value) := do
  return #[.str (Bytes.reverse (← args.text 1))]

/-- Copies of a text with a separator between them. -/
def repeated (s separator : Bytes) : Nat → Bytes → Bytes
  | 0, acc => acc
  | 1, acc => acc.append s
  | n + 2, acc => repeated s separator (n + 1) ((acc.append s).append separator)

/-- How long a repeated text may be. -/
def maxRepeated : Nat := 0x7FFFFFFF

def strRep (args : Args) : Act σ (Array Value) := do
  let s ← args.text 1
  let n ← args.integer 2
  let separator ← args.textOr 3 ByteArray.empty
  if n ≤ 0 then return #[.str ByteArray.empty]
  let each := s.size + separator.size
  let n := n.toUInt64.toNat
  if maxRepeated / n < each then Act.fail "resulting string too large"
  else if each = 0 then return #[.str ByteArray.empty]
  else return #[.str (repeated s separator n (ByteArray.emptyWithCapacity (each * n)))]

def strByte (args : Args) : Act σ (Array Value) := do
  let s ← args.text 1
  let first ← args.integerOr 2 1
  let i := startPosition first s.size
  let j := endPosition (← args.integerOr 3 first) s.size
  if j < i then return #[]
  return (s.extract (i - 1) j).toList.toArray.map fun b => .ofNat b.toNat

/-- The bytes with the given numbers, from argument `n` on. -/
def charBytes (args : Args) : Nat → Nat → Bytes → Act σ Bytes
  | 0, _, acc => return acc
  | fuel + 1, n, acc => do
    let c := (← args.integer n).toInt
    Args.check (decide (0 ≤ c) && decide (c ≤ 255)) n "value out of range"
    charBytes args fuel (n + 1) (acc.push c.toNat.toUInt8)

def strChar (args : Args) : Act σ (Array Value) := do
  return #[.str (← charBytes args args.size 1 ByteArray.empty)]

/-! ### Search and replacement -/

/-- A result of matching, whose failure is a message. -/
def matched (r : Except String α) : Act σ α :=
  match r with
  | .ok a => return a
  | .error e => Act.fail e

/-- Search for a pattern: the range and captures of the first match, or only its captures. -/
def searchPattern (args : Args) (find : Bool) : Act σ (Array Value) := do
  let s ← args.text 1
  let p ← args.text 2
  let init := startPosition (← args.integerOr 3 1) s.size - 1
  if s.size < init then return #[.nil]
  if find && ((args.at' 4).truthy || Pattern.isPlain p) then
    match s.findFrom p init with
    | some i => return #[.ofNat (i + 1), .ofNat (i + p.size)]
    | none => return #[.nil]
  else
    let anchored := p.size ≠ 0 && p.byteAt 0 == 94
    let tries := if anchored then 1 else s.size - init + 1
    match ← matched (Pattern.search ⟨s, p⟩ (if anchored then 1 else 0) (fun _ => true) tries init) with
    | none => return #[.nil]
    | some f =>
      if find then
        return #[.ofNat (f.start + 1), .ofNat f.stop] ++ (← matched (f.captureValues s false))
      else matched (f.captureValues s true)

def strGmatch (args : Args) : Act σ (Array Value) := do
  let s ← args.text 1
  let p ← args.text 2
  let init := min (startPosition (← args.integerOr 3 1) s.size - 1) (s.size + 1)
  return #[← Act.withHeap fun h => h.newBound ⟨.matches, #[.str s, .str p, .ofNat init, .int (-1)]⟩]

/-- The next match of an iteration over all matches. -/
def nextMatch (i : Nat) (kept : Array Value) : Act σ (Array Value) := do
  match kept.toList with
  | [.str s, .str p, .int start, .int last] =>
    let start := start.toUInt64.toNat
    let found ← matched
      (Pattern.search ⟨s, p⟩ 0 (fun e => Int64.ofNat e != last) (s.size + 1 - start) start)
    match found with
    | none => return #[]
    | some f =>
      Act.onHeap fun h =>
        { h with bounds := put h.bounds i
                  ⟨.matches, #[.str s, .str p, .ofNat f.stop, .ofNat f.stop]⟩ }
      matched (f.captureValues s true)
  | _ => return #[]

/-- What replaces matches. -/
inductive Replacement where
  | text (s : Bytes)
  | table (v : Value)
  | function (f : Value)

/-- The replacement for a match; `none` keeps it. -/
def replace (s : Bytes) (r : Replacement) (f : Pattern.Found) : Act σ (Option Bytes) := do
  let value ← match r with
    | .text repl => do
      return some (← matched (Pattern.fillReferences s repl f repl.size 0 ByteArray.empty))
    | .table t => do Act.index t (← matched (f.capture s 0))
    | .function g => do Act.call1 g (← matched (f.captureValues s true))
  match value with
  | .nil | .bool false => return none
  | v =>
    match v.toText? with
    | some t => return some t
    | none => Act.fail ("invalid replacement value (a " ++ v.typeName ++ ")")

/-- Replace matches from `i` on, at most `left` of them: the result so far, what is left of the text and
the number of matches. -/
def replaceLoop (u : Pattern.Subject) (p : Nat) (anchored : Bool) (r : Replacement) :
    Nat → Nat → Nat → Option Nat → Bytes → Nat → Act σ (Bytes × Nat × Nat)
  | 0, i, _, _, acc, n => return (acc, i, n)
  | fuel + 1, i, left, last, acc, n => do
    if left = 0 then return (acc, i, n)
    match ← matched (Pattern.matchAt u i p) with
    | some (e, cs) =>
      if last == some e then
        if i < u.text.size then
          if anchored then return (acc.push (u.text.byteAt i), i + 1, n)
          else replaceLoop u p anchored r fuel (i + 1) left last (acc.push (u.text.byteAt i)) n
        else return (acc, i, n)
      else
        let piece := (← replace u.text r ⟨i, e, cs⟩).getD (u.text.extract i e)
        if anchored then return (acc.append piece, e, n + 1)
        else replaceLoop u p anchored r fuel e (left - 1) (some e) (acc.append piece) (n + 1)
    | none =>
      if i < u.text.size then
        if anchored then return (acc.push (u.text.byteAt i), i + 1, n)
        else replaceLoop u p anchored r fuel (i + 1) left last (acc.push (u.text.byteAt i)) n
      else return (acc, i, n)

def strGsub (args : Args) : Act σ (Array Value) := do
  let s ← args.text 1
  let p ← args.text 2
  let r ← match args.at' 3 with
    | .table id => pure (Replacement.table (.table id))
    | .closure i => pure (.function (.closure i))
    | .native f => pure (.function (.native f))
    | v =>
      match v.toText? with
      | some t => pure (.text t)
      | none => args.wrongKind 3 "string/function/table"
  let limit := (← args.integerOr 4 (Int64.ofNat (s.size + 1))).toInt.toNat
  let anchored := p.size ≠ 0 && p.byteAt 0 == 94
  let (acc, i, n) ← replaceLoop ⟨s, p⟩ (if anchored then 1 else 0) anchored r
    (2 * s.size + 2) 0 (min limit (s.size + 1)) none ByteArray.empty 0
  return #[.str (acc.append (s.extract i s.size)), .ofNat n]

/-! ### Formatting -/

/-- The flags of the conversions. -/
def floatFlags : List UInt8 := [45, 43, 32, 35, 48]
def basedFlags : List UInt8 := [45, 35, 48]
def signedFlags : List UInt8 := [45, 43, 32, 48]
def unsignedFlags : List UInt8 := [45, 48]
def textFlags : List UInt8 := [45]

/-- A specification that must be well formed. -/
def specification (written : Bytes) (flags : List UInt8) (precise : Bool) : Act σ Format.Spec :=
  match Format.Spec.parse written flags precise with
  | some s => return s
  | none => Act.raise (.level 1 (Bytes.concat
      [Bytes.ofString "invalid conversion specification: '", written, Bytes.ofString "'"]))

/-- The text that a specification makes of an argument. -/
def formatArgument (args : Args) (n : Nat) (written : Bytes) : Act σ Bytes := do
  let c := written.byteAt (written.size - 1)
  let integer (flags : List UInt8) : Act σ Bytes := do
    let v ← args.integer n
    return Bytes.ofString (Format.integer (← specification written flags true) v)
  let floating (s : Format.Spec) : Act σ Bytes := do
    let v ← args.numberValue n
    let negative := match v with
      | .nan => false
      | _ => true
    return Bytes.ofString (Format.floating s (v.toFloat?.getD 0) negative)
  if written.size < 2 then
    Act.raise (.level 1 (Bytes.concat
      [Bytes.ofString "invalid conversion '", written, Bytes.ofString "' to 'format'"]))
  else if c == 99 then
    let s ← specification written textFlags false
    let v ← args.integer n
    return Format.padded s ((ByteArray.empty).push v.toUInt64.toUInt8)
  else if c == 100 || c == 105 then integer signedFlags
  else if c == 117 then integer unsignedFlags
  else if c == 111 || c == 120 || c == 88 then integer basedFlags
  else if c == 97 || c == 65 then
    let s ← specification written floatFlags true
    floating s
  else if c == 102 || c == 101 || c == 69 || c == 103 || c == 71 then
    discard <| args.number n
    floating (← specification written floatFlags true)
  else if c == 112 then
    let s ← specification written textFlags false
    let shown ← match args.at' n with
      | .nil | .bool _ | .int _ | .float _ | .nan => pure (Bytes.ofString "(null)")
      | .str t => pure (Act.objectText (Bytes.ofString "") (16 * t.size + 7) |>.extract 2 64)
      | v => do pure ((← Act.text v).toList.reverse.takeWhile (· != 32)).reverse.toByteArray
    return Format.padded s shown
  else if c == 113 then
    if written.size ≠ 2 then Act.fail "specifier '%q' cannot have modifiers"
    else
      match Format.quoted (args.at' n) with
      | some t => return t
      | none => Act.badArgument n "value has no literal form"
  else if c == 115 then
    let t ← Act.text (args.at' n)
    if written.size == 2 then return t
    Args.check (!t.toList.contains 0) n "string contains zeros"
    let s ← specification written textFlags true
    if s.precision.isNone && 100 ≤ t.size then return t
    else return Format.padded s t
  else
    Act.raise (.level 1 (Bytes.concat
      [Bytes.ofString "invalid conversion '", written, Bytes.ofString "' to 'format'"]))

/-- Format from place `i` on; `n` is the last argument used. -/
def formatFrom (args : Args) (f : Bytes) : Nat → Nat → Nat → Bytes → Act σ Bytes
  | 0, _, _, acc => return acc
  | fuel + 1, i, n, acc => do
    if f.size ≤ i then return acc
    let c := f.byteAt i
    if c != 37 then formatFrom args f fuel (i + 1) n (acc.push c)
    else if f.byteAt (i + 1) == 37 then formatFrom args f fuel (i + 2) n (acc.push 37)
    else
      let n := n + 1
      if args.size < n then Act.badArgument n "no value"
      else
        let (written, next) ← matched (Format.Spec.written? f i)
        formatFrom args f fuel next n (acc.append (← formatArgument args n written))

def strFormat (args : Args) : Act σ (Array Value) := do
  let f ← args.text 1
  return #[.str (← formatFrom args f f.size 0 1 ByteArray.empty)]

/-! ### Arithmetic of texts -/

/-- The operators, by the number that the text metamethods carry. -/
def textOperators : Array ArithOp := #[.add, .sub, .mul, .mod, .pow, .div, .idiv, .unm]

/-- An arithmetic operator on texts that write numbers; otherwise the second operand's metamethod. -/
def textArith (i : Nat) (args : Args) : Act σ (Array Value) := do
  let op := textOperators.getD i .add
  match (args.at' 1).toNumber?, (args.at' 2).toNumber? with
  | some a, some b =>
    match arith op a b with
    | some (.ok v) => return #[v]
    | some (.error .divideByZero) => Act.raise (.here (Bytes.ofString "attempt to perform 'n//0'"))
    | _ => Act.raise (.here (Bytes.ofString "attempt to perform 'n%0'"))
  | _, _ =>
    let second := args.at' 2
    let method ← match second with
      | .str _ => pure .nil
      | v => Act.metamethod v ("__" ++ op.event)
    match method with
    | .nil =>
      Act.fail ("attempt to " ++ op.event ++ " a '" ++ (args.at' 1).typeName ++ "' with a '"
        ++ second.typeName ++ "'")
    | f => return #[← Act.call1 f #[args.at' 1, second]]

end ScriptHost.Script.Library

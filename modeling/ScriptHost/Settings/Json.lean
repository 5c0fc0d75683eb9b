import ScriptHost.Number.Decimal
import ScriptHost.Text.Bytes
import ScriptHost.Text.Utf8

/-!
# Reading and writing JSON

A reader takes its value from the start of what is left of a text, or tells the problem and where it is.

* `Reads`: a reader.
* `Problem.display`: a problem with its line and column.
* `Json.number`, `Json.text`, `Json.skipValue`: readers of numbers, of texts, and of a value that nobody
  asks for.
* `Json.quoted`: a text as JSON writes it.
-/

namespace ScriptHost

/-- A problem of a reader. -/
structure Problem where
  message : String
  /-- How many bytes of the text lie behind the place of the problem. -/
  left : Nat
  deriving Repr

/-- The line and the column of a problem: the number of line feeds before it, and of the bytes since the last
one. -/
def Problem.place (p : Problem) (whole : List UInt8) : Nat × Nat :=
  (whole.take (whole.length - p.left)).foldl
    (fun place b => if b = 10 then (place.1 + 1, 0) else (place.1, place.2 + 1)) (1, 0)

/-- The text of a problem. -/
def Problem.display (p : Problem) (whole : List UInt8) : String :=
  let (line, column) := p.place whole
  p.message ++ " at line " ++ toString line ++ " column " ++ toString column

/-- A reader of the start of a text. -/
abbrev Reads (α : Type) : Type := StateT (List UInt8) (Except Problem) α

namespace Json

variable {α : Type}

/-- A problem with what has just been read. -/
def failHere (message : String) : Reads α := fun r => .error ⟨message, r.length⟩

/-- A problem with the next byte. -/
def failNext (message : String) : Reads α := fun r => .error ⟨message, r.length - 1⟩

/-- Space between the parts of a text. -/
def isSpace (b : UInt8) : Bool := b = 32 || b = 10 || b = 9 || b = 13

/-- The next byte; it stays. -/
def peek : Reads (Option UInt8) := fun r => .ok (r.head?, r)

/-- The next byte. -/
def next : Reads (Option UInt8) := fun r => .ok (r.head?, r.tail)

/-- Pass the next byte. -/
def pass : Reads Unit := fun r => .ok ((), r.tail)

/-- The next byte that is no space; it stays. -/
def peekToken : Reads (Option UInt8) := fun r =>
  let r := r.dropWhile isSpace
  .ok (r.head?, r)

/-- The number of a byte's character. -/
def code (c : Char) : UInt8 := UInt8.ofNat c.toNat

/-- The byte is the given character. -/
def isByte (b : Option UInt8) (c : Char) : Bool := b == some (code c)

def eofValue : String := "EOF while parsing a value"
def eofText : String := "EOF while parsing a string"
def eofList : String := "EOF while parsing a list"
def eofObject : String := "EOF while parsing an object"
def invalidNumber : String := "invalid number"
def outOfRange : String := "number out of range"
def expectedValue : String := "expected value"
def keyNoText : String := "key must be a string"
def trailingComma : String := "trailing comma"
def trailing : String := "trailing characters"
def listGoesOn : String := "expected \x60,\x60 or \x60]\x60"
def objectGoesOn : String := "expected \x60,\x60 or \x60\x7d\x60"
def controlByte : String := "control character (\\u0000-\\u001F) found while parsing a string"

/-- The rest of a word. -/
def word : List Char → Reads Unit
  | [] => return ()
  | c :: rest => do
    match ← next with
    | none => failHere eofValue
    | some b => if b = code c then word rest else failHere "expected ident"

/-! ### Numbers -/

/-- A number as it is written: with a fraction or an exponent it is a float. -/
inductive Numeral where
  | integer (n : Int)
  | float (x : Float)

/-- A byte is a decimal digit. -/
def isDigit (b : UInt8) : Bool := 48 ≤ b && b ≤ 57

/-- The digits at the start of what is left. -/
def digits : Reads (List UInt8) := fun r => .ok (r.takeWhile isDigit, r.dropWhile isDigit)

/-- The greatest number of 64 bits. -/
def maxWord : Nat := 0xFFFFFFFFFFFFFFFF

/-- Add digits to a number as long as it has 64 bits; the digits that do not fit are left. -/
def addDigits (n : Nat) : List UInt8 → Nat × List UInt8
  | [] => (n, [])
  | d :: rest =>
    let m := n * 10 + (d.toNat - 48)
    if maxWord < m then (n, d :: rest) else addDigits m rest

/-- The greatest power of ten that is a float. -/
def maxPower : Nat := 308

/-- A number times a power of ten as a float, with as many steps as the exponent needs. -/
def scaled : Nat → Float → Int → Option Float
  | 0, x, _ => some x
  | fuel + 1, x, e =>
    if e.natAbs ≤ maxPower then
      let power := Float.ofScientific 1 false e.natAbs
      if 0 ≤ e then
        let y := x * power
        if y.isInf then none else some y
      else some (x / power)
    else if x == 0 then some x
    else if 0 ≤ e then none
    else scaled fuel (x / Float.ofScientific 1 false maxPower) (e + maxPower)

/-- The float of a number and a power of ten. -/
def float (negative : Bool) (n : Nat) (e : Int) : Reads Numeral :=
  match scaled 8 (Float.ofNat n) e with
  | some x => return .float (if negative then -x else x)
  | none => failHere outOfRange

/-- The greatest exponent that is looked at. -/
def maxExponent : Nat := 0x7FFFFFFF

/-- Read an exponent from its letter on. -/
def exponent (negative : Bool) (n : Nat) (before : Int) : Reads Numeral := do
  pass
  let down ← match ← peek with
    | some 43 => pass; pure false
    | some 45 => pass; pure true
    | _ => pure false
  match ← next with
  | none => failHere eofValue
  | some d =>
    if isDigit d then addExponent down (d.toNat - 48) (← get)
    else failHere invalidNumber
where
  /-- The rest of the digits of an exponent. -/
  addExponent (down : Bool) (e : Nat) : List UInt8 → Reads Numeral
    | d :: rest =>
      if isDigit d then do
        pass
        let e' := e * 10 + (d.toNat - 48)
        if maxExponent < e' then
          if n ≠ 0 && !down then failHere outOfRange
          else
            discard digits
            return .float (if negative then -0.0 else 0.0)
        else addExponent down e' rest
      else float negative n (if down then before - e else before + e)
    | [] => float negative n (if down then before - e else before + e)

/-- Read an exponent, if there is one. -/
def maybeExponent (negative : Bool) (n : Nat) (e : Int) : Reads Numeral := do
  let b ← peek
  if isByte b 'e' || isByte b 'E' then exponent negative n e else float negative n e

/-- Read a fraction from its point on. Digits that do not fit into 64 bits do not count. -/
def fraction (negative : Bool) (n : Nat) (before : Int) : Reads Numeral := do
  pass
  let ds ← digits
  if ds.isEmpty then
    if (← peek).isSome then failNext invalidNumber else failNext eofValue
  let (m, rest) := addDigits n ds
  let e := before - (ds.length - rest.length : Nat)
  maybeExponent negative m e

/-- Read what follows the digits of an integer. -/
def afterInteger (negative : Bool) (n : Nat) : Reads Numeral := do
  let b ← peek
  if isByte b '.' then fraction negative n 0
  else if isByte b 'e' || isByte b 'E' then exponent negative n 0
  else if negative then
    if 0x8000000000000000 < n || n = 0 then return .float (-(Float.ofNat n)) else return .integer (-n)
  else return .integer n

/-- Read a number from its first digit on. -/
def number (negative : Bool) : Reads Numeral := do
  match ← next with
  | none => failHere eofValue
  | some d =>
    if d = 48 then
      match ← peek with
      | some b => if isDigit b then failNext invalidNumber else afterInteger negative 0
      | none => afterInteger negative 0
    else if isDigit d then
      let ds ← digits
      match addDigits (d.toNat - 48) ds with
      | (n, []) => afterInteger negative n
      | (n, rest) =>
        let b ← peek
        if isByte b '.' then fraction negative n rest.length else maybeExponent negative n rest.length
    else failHere invalidNumber

/-- Pass a number from its first digit on. -/
def skipNumber : Reads Unit := do
  match ← next with
  | none => failHere invalidNumber
  | some d =>
    if d = 48 then
      if let some b ← peek then if isDigit b then failNext invalidNumber
    else if isDigit d then discard digits
    else failHere invalidNumber
  let b ← peek
  if isByte b '.' then
    pass
    if (← digits).isEmpty then failNext (if (← peek).isSome then invalidNumber else eofValue)
    let b ← peek
    if isByte b 'e' || isByte b 'E' then skipExponent
  else if isByte b 'e' || isByte b 'E' then skipExponent
where
  /-- Pass an exponent from its letter on. -/
  skipExponent : Reads Unit := do
    pass
    let b ← peek
    if isByte b '+' || isByte b '-' then pass
    match ← next with
    | some d => if isDigit d then discard digits else failHere invalidNumber
    | none => failHere invalidNumber

/-- The text of a float in a message: never without a point or an exponent. -/
def showFloat (x : Float) : String :=
  match Binary.ofFloat x with
  | .nan => "NaN"
  | .infinite neg => if neg then "-inf" else "inf"
  | .finite b =>
    let d := Decimal.shortest b
    let sign := if b.neg then "-" else ""
    let text := Nat.repr d.digits
    let e : Int := d.exp + (text.length : Int) - 1
    if d.digits = 0 then sign ++ "0.0"
    else if -5 ≤ e && e < 16 then
      sign ++ d.positional ++ (if 0 ≤ d.exp then ".0" else "")
    else
      let tail := String.ofList (text.toList.drop 1)
      sign ++ String.ofList (text.toList.take 1) ++ (if tail = "" then "" else "." ++ tail) ++
        "e" ++ (if 0 ≤ e then "+" else "-") ++ toString e.natAbs

/-! ### Texts -/

/-- The value of a hexadecimal digit. -/
def hexDigit? (b : UInt8) : Option Nat :=
  if isDigit b then some (b.toNat - 48)
  else if 97 ≤ b && b ≤ 102 then some (b.toNat - 87)
  else if 65 ≤ b && b ≤ 70 then some (b.toNat - 55)
  else none

/-- The four digits of an escape. -/
def hexEscape : Reads Nat := fun r =>
  match r with
  | a :: b :: c :: d :: rest =>
    match hexDigit? a, hexDigit? b, hexDigit? c, hexDigit? d with
    | some a, some b, some c, some d => .ok (((a * 16 + b) * 16 + c) * 16 + d, rest)
    | _, _, _, _ => .error ⟨"invalid escape", rest.length⟩
  | _ => .error ⟨eofText, 0⟩

/-- The bytes of a character by its number. -/
def charBytes (n : Nat) : List UInt8 := (Bytes.ofString (String.singleton (Char.ofNat n))).toList

/-- Pass the given byte, which must come next in an escape. -/
def escapeGoesOn (c : Char) : Reads Unit := do
  match ← peek with
  | none => failHere eofText
  | some b =>
    pass
    if b ≠ code c then failHere "unexpected end of hex escape"

/-- A character by its number; two escapes can make one character. -/
def unicodeEscape : Reads (List UInt8) := do
  let n ← hexEscape
  if 0xDC00 ≤ n && n ≤ 0xDFFF then failHere "lone leading surrogate in hex escape"
  else if n < 0xD800 || 0xDBFF < n then return charBytes n
  else
    escapeGoesOn '\\'
    escapeGoesOn 'u'
    let m ← hexEscape
    if m < 0xDC00 || 0xDFFF < m then failHere "lone leading surrogate in hex escape"
    else return charBytes ((n - 0xD800) * 1024 + (m - 0xDC00) + 0x10000)

/-- The characters that have an escape of one letter, with the letters. -/
def shortEscapes : List (UInt8 × UInt8) :=
  [(34, 34), (92, 92), (47, 47), (98, 8), (102, 12), (110, 10), (114, 13), (116, 9)]

/-- The bytes that an escape stands for, from the letter on. -/
def escape : Reads (List UInt8) := do
  match ← next with
  | none => failHere eofText
  | some b =>
    match shortEscapes.lookup b with
    | some x => return [x]
    | none => if b = code 'u' then unicodeEscape else failHere "invalid escape"

/-- The bytes that need no escape at the start of what is left. -/
def plain : Reads (List UInt8) := fun r =>
  let isPlain (b : UInt8) : Bool := 32 ≤ b && b ≠ 34 && b ≠ 92
  .ok (r.takeWhile isPlain, r.dropWhile isPlain)

/-- Read a text to its closing quote. -/
def textFrom : Nat → List UInt8 → Reads String
  | 0, _ => failHere eofText
  | fuel + 1, read => do
    let read := read ++ (← plain)
    match ← next with
    | none => failHere eofText
    | some 34 => return Utf8.decodeLossy read.toByteArray
    | some 92 => textFrom fuel (read ++ (← escape))
    | some _ => failHere controlByte

/-- Read a text from behind its opening quote. -/
def text : Reads String := do textFrom ((← get).length + 1) []

/-- Pass a text to its closing quote. -/
def skipTextFrom : Nat → Reads Unit
  | 0 => failHere eofText
  | fuel + 1 => do
    discard plain
    match ← peek with
    | none => failHere eofText
    | some 34 => pass
    | some 92 =>
      pass
      match ← next with
      | none => failHere eofText
      | some b =>
        if (shortEscapes.lookup b).isSome then skipTextFrom fuel
        else if b = code 'u' then
          discard hexEscape
          skipTextFrom fuel
        else failHere "invalid escape"
    | some _ => failHere controlByte

/-- Pass a text from behind its opening quote. -/
def skipText : Reads Unit := do skipTextFrom ((← get).length + 1)

/-! ### Values that nobody asks for -/

/-- A list or an object that is being passed. -/
inductive Bracket where
  | list
  | object
  deriving DecidableEq

/-- Pass a value that is no list and no object; the answer tells whether one of these begins instead. -/
def skipStart : Reads (Option Bracket) := do
  match ← peekToken with
  | none => failNext eofValue
  | some b =>
    if b = code 'n' then pass; word ['u', 'l', 'l']; return none
    else if b = code 't' then pass; word ['r', 'u', 'e']; return none
    else if b = code 'f' then pass; word ['a', 'l', 's', 'e']; return none
    else if b = code '-' then pass; skipNumber; return none
    else if isDigit b then skipNumber; return none
    else if b = 34 then pass; skipText; return none
    else if b = code '[' then pass; return some .list
    else if b = 123 then pass; return some .object
    else failNext expectedValue

/-- Pass the key of an object's member and the colon. -/
def skipKey : Reads Unit := do
  match ← peekToken with
  | none => failNext eofObject
  | some b => if b = 34 then pass else failNext keyNoText
  skipText
  match ← peekToken with
  | none => failNext eofObject
  | some b => if b = code ':' then pass else failNext "expected \x60:\x60"

/-- Pass the ends of the open brackets, the innermost first, up to where another value begins; `afterValue`
says whether a comma must come before it. -/
def skipEnds : List Bracket → Bool → Reads (List Bracket)
  | [], _ => return []
  | frame :: outer, afterValue => do
    match ← peekToken, frame with
    | none, .list => failNext eofList
    | none, .object => failNext eofObject
    | some b, _ =>
      if (b = code ']' && frame = .list) || (b = 125 && frame = .object) then
        pass
        skipEnds outer true
      else if afterValue then
        if b = code ',' then
          pass
          return frame :: outer
        else failNext (if frame = .list then listGoesOn else objectGoesOn)
      else return frame :: outer

/-- Pass values until all open brackets are closed. -/
def skipFrom : Nat → List Bracket → Reads Unit
  | 0, _ => failNext eofValue
  | fuel + 1, frames => do
    let frames ← match ← skipStart with
      | some frame => skipEnds (frame :: frames) false
      | none => skipEnds frames true
    match frames with
    | [] => return ()
    | .list :: _ => skipFrom fuel frames
    | .object :: _ =>
      skipKey
      skipFrom fuel frames

/-- Pass a value. -/
def skipValue : Reads Unit := do skipFrom ((← get).length + 1) []

/-! ### Writing -/

/-- A digit of a hexadecimal number. -/
def hexChar (n : Nat) : Char := Nat.digitChar n

/-- A character as JSON writes it in a text. -/
def quotedChar (c : Char) : List Char :=
  if c = '"' then ['\\', '"']
  else if c = '\\' then ['\\', '\\']
  else if c = '\x08' then ['\\', 'b']
  else if c = '\x0c' then ['\\', 'f']
  else if c = '\n' then ['\\', 'n']
  else if c = '\r' then ['\\', 'r']
  else if c = '\t' then ['\\', 't']
  else if c.toNat < 32 then ['\\', 'u', '0', '0', hexChar (c.toNat / 16), hexChar (c.toNat % 16)]
  else [c]

/-- A text as JSON writes it. -/
def quoted (s : String) : String := "\"" ++ String.ofList (s.toList.flatMap quotedChar) ++ "\""

end Json

end ScriptHost

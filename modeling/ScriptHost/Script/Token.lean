import ScriptHost.Script.Numeral

/-!
# Tokens

The words of a script, and how messages quote them.

* `Token`: what the parser reads.
* `Lexeme`: a token with the text that messages show for it.
* `scan`: the next lexeme of a source, with the place and line after it.
-/

namespace ScriptHost.Script

/-- A token. -/
inductive Token where
  /-- A reserved word. -/
  | word (w : String)
  /-- An operator or a punctuation mark, or any byte that starts nothing else. -/
  | mark (s : String)
  | byte (b : UInt8)
  | name (s : Bytes)
  | str (s : Bytes)
  | int (n : Int64)
  | float (x : Float)
  | eof
  deriving Inhabited

namespace Token

/-- The reserved words. -/
def reserved : List String :=
  ["and", "break", "do", "else", "elseif", "end", "false", "for", "function", "goto", "if", "in",
   "local", "nil", "not", "or", "repeat", "return", "then", "true", "until", "while"]

/-- This token is the given reserved word. -/
def isWord (t : Token) (w : String) : Bool := match t with
  | .word v => v == w
  | _ => false

/-- This token is the given mark. -/
def isMark (t : Token) (s : String) : Bool := match t with
  | .mark v => v == s
  | _ => false

/-- How a message names the token it wanted. -/
def describe : Token → Bytes
  | .word w | .mark w => Bytes.ofString ("'" ++ w ++ "'")
  | .byte b =>
    if 32 ≤ b && b < 127 then (Bytes.ofString "'").push b |>.push 39
    else Bytes.ofString ("'<\\" ++ toString b.toNat ++ ">'")
  | .name _ => Bytes.ofString "<name>"
  | .str _ => Bytes.ofString "<string>"
  | .int _ => Bytes.ofString "<integer>"
  | .float _ => Bytes.ofString "<number>"
  | .eof => Bytes.ofString "<eof>"

end Token

/-- A token and its text in the source, with escapes of a string already replaced. -/
structure Lexeme where
  token : Token
  text : Bytes := ByteArray.empty
  deriving Inhabited

/-- How a message quotes what was found: by its text if the text varies, else by the token's name. -/
def Lexeme.quoted (l : Lexeme) : Bytes :=
  match l.token with
  | .name _ | .str _ | .int _ | .float _ =>
    ((Bytes.ofString "'").append l.text.untilZero).push 39
  | t => t.describe

/-- Why a source has no next token. -/
structure LexError where
  message : String
  /-- What the message says it was near to. -/
  near : Bytes
  line : Nat

/-- A reader's place in a source: the bytes that are still to be read, and their line. -/
structure Cursor where
  rest : List UInt8 := []
  line : Nat := 1
  deriving Inhabited

namespace Lex

/-- A letter or an underscore. -/
@[inline] def isNameStart (b : UInt8) : Bool := (97 ≤ b && b ≤ 122) || (65 ≤ b && b ≤ 90) || b == 95

/-- A letter, a digit or an underscore. -/
@[inline] def isNamePart (b : UInt8) : Bool := isNameStart b || Numeral.isDigit b

/-- A line feed or a carriage return. -/
@[inline] def isNewline (b : UInt8) : Bool := b == 10 || b == 13

/-- The place after a line break, which may be a pair of different break bytes. -/
def skipNewline (c : Cursor) : Cursor :=
  match c.rest with
  | b :: d :: r => ⟨if isNewline d && d != b then r else d :: r, c.line + 1⟩
  | r => ⟨r.drop 1, c.line + 1⟩

/-- The number of equal signs at the front. -/
def countEquals (r : List UInt8) : Nat := (r.takeWhile (· == 61)).length

/-- After an opening bracket: the level of a long bracket that opens there. -/
def longLevel? (r : List UInt8) : Option Nat :=
  let n := countEquals r
  if r.getD n 0 == 91 then some n else none

/-- The body of a long bracket up to its end. Line breaks are read as single line feeds. The first argument is
at least as long as what is left. -/
def longBody (level : Nat) : List UInt8 → Cursor → Bytes → Option (Bytes × Cursor) × Nat
  | [], c, _ => (none, c.line)
  | _ :: fuel, c, acc =>
    match c.rest with
    | [] => (none, c.line)
    | b :: r =>
      if b == 93 && countEquals r == level && r.getD level 0 == 93 then
        (some (acc, ⟨r.drop (level + 1), c.line⟩), c.line)
      else if isNewline b then longBody level fuel (skipNewline c) (acc.push 10)
      else longBody level fuel { c with rest := r } (acc.push b)

/-- A long bracket whose opening stands at the cursor: its contents and the place after it. A line break
right after the opening is dropped. -/
def longBracket (c : Cursor) (level : Nat) (what : String) : Except LexError (Bytes × Cursor) :=
  let c1 : Cursor := { c with rest := c.rest.drop (level + 2) }
  let c1 := if isNewline (c1.rest.headD 0) then skipNewline c1 else c1
  match longBody level c1.rest c1 ByteArray.empty with
  | (some r, _) => .ok r
  | (none, line) =>
    .error ⟨"unfinished long " ++ what ++ " (starting at line " ++ toString c.line ++ ")",
      Bytes.ofString "<eof>", line⟩

/-- The place after blanks and comments. The first argument is at least as long as what is left. -/
def skipBlanks : List UInt8 → Cursor → Except LexError Cursor
  | [], c => .ok c
  | _ :: fuel, c =>
    match c.rest with
    | [] => .ok c
    | b :: r =>
      if isNewline b then skipBlanks fuel (skipNewline c)
      else if Numeral.isSpace b then skipBlanks fuel { c with rest := r }
      else if b == 45 && r.headD 0 == 45 then
        let r := r.drop 1
        let long := if r.headD 0 == 91 then longLevel? (r.drop 1) else none
        match long with
        | some level =>
          match longBracket { c with rest := r } level "comment" with
          | .ok (_, c') => skipBlanks fuel c'
          | .error e => .error e
        | none => skipBlanks fuel { c with rest := r.dropWhile (!isNewline ·) }
      else .ok c

/-- The bytes of a code point, in the extended form that goes up to 31 bits. -/
def utf8Bytes (n : Nat) : List UInt8 :=
  let tail (k : Nat) : UInt8 := (128 + n / Nat.pow 64 k % 64).toUInt8
  if n < 0x80 then [n.toUInt8]
  else if n < 0x800 then [(0xC0 + n / 64).toUInt8, tail 0]
  else if n < 0x10000 then [(0xE0 + n / Nat.pow 64 2).toUInt8, tail 1, tail 0]
  else if n < 0x200000 then [(0xF0 + n / Nat.pow 64 3).toUInt8, tail 2, tail 1, tail 0]
  else if n < 0x4000000 then [(0xF8 + n / Nat.pow 64 4).toUInt8, tail 3, tail 2, tail 1, tail 0]
  else [(0xFC + n / Nat.pow 64 5).toUInt8, tail 4, tail 3, tail 2, tail 1, tail 0]

/-- The error of a bad escape: it shows the string so far and the escape, which begins with the backslash at the
front of `rest`, up to the byte at index `bad`, which is wrong. -/
def escapeError (message : String) (text : Bytes) (rest : List UInt8) (bad line : Nat) : LexError :=
  let shown := text.append (rest.take (bad + 1)).toByteArray
  ⟨message, ((Bytes.ofString "'").append shown.untilZero).push 39, line⟩

/-- Hexadecimal digits of a code point escape: how many there are, the value and what comes after them; the
error is how many there are before the one that makes the value too great. -/
def codePointDigits : List UInt8 → Nat → Nat → Except Nat (Nat × Nat × List UInt8)
  | [], count, n => .ok (count, n, [])
  | b :: r, count, n =>
    match Numeral.hexValue? b with
    | some d => if 0x7FFFFFFF / 16 < n then .error count else codePointDigits r (count + 1) (n * 16 + d)
    | none => .ok (count, n, b :: r)

/-- Blanks after a `z` escape. The first argument is at least as long as what is left. -/
def skipSpaces : List UInt8 → Cursor → Cursor
  | [], c => c
  | _ :: fuel, c =>
    match c.rest with
    | [] => c
    | b :: r =>
      if isNewline b then skipSpaces fuel (skipNewline c)
      else if Numeral.isSpace b then skipSpaces fuel { c with rest := r }
      else c

/-- The byte that a one-letter escape stands for. -/
def simpleEscape? : UInt8 → Option UInt8
  | 97 => some 7
  | 98 => some 8
  | 102 => some 12
  | 110 => some 10
  | 114 => some 13
  | 116 => some 9
  | 118 => some 11
  | 92 => some 92
  | 34 => some 34
  | 39 => some 39
  | _ => none

/-- An escape whose backslash stands at the cursor: the bytes it stands for and the place after it.
`text` is the string so far, with its opening quote. -/
def escape (c : Cursor) (text : Bytes) : Except LexError (List UInt8 × Cursor) :=
  let fail (message : String) (bad : Nat) : Except LexError (List UInt8 × Cursor) :=
    .error (escapeError message text c.rest bad c.line)
  match c.rest.drop 1 with
  | [] => .ok ([], { c with rest := [] })
  | b :: r =>
    match simpleEscape? b with
    | some x => .ok ([x], { c with rest := r })
    | none =>
      if isNewline b then .ok ([10], skipNewline { c with rest := b :: r })
      else if b == 120 then
        match r[0]?.bind Numeral.hexValue?, r[1]?.bind Numeral.hexValue? with
        | some h, some l => .ok ([(h * 16 + l).toUInt8], { c with rest := r.drop 2 })
        | some _, none => fail "hexadecimal digit expected" 3
        | none, _ => fail "hexadecimal digit expected" 2
      else if b == 117 then
        if r.headD 0 != 123 then fail "missing '\x7b'" 2
        else if !Numeral.isHexDigit (r.getD 1 0) then fail "hexadecimal digit expected" 3
        else
          match codePointDigits (r.drop 1) 0 0 with
          | .error count => fail "UTF-8 value too large" (3 + count)
          | .ok (count, n, r) =>
            if r.headD 0 == 125 then .ok (utf8Bytes n, { c with rest := r.drop 1 })
            else fail "missing '\x7d'" (3 + count)
      else if b == 122 then .ok ([], skipSpaces r { c with rest := r })
      else if Numeral.isDigit b then
        let ds := ((b :: r).take 3).takeWhile Numeral.isDigit
        let n := Numeral.decimalValue ds
        if n < 256 then .ok ([n.toUInt8], { c with rest := (b :: r).drop ds.length })
        else fail "decimal escape too large" (1 + ds.length)
      else fail "invalid escape sequence" 1

/-- The rest of a quoted string; `text` is the string so far with its opening quote. The first list is at least
as long as what is left. -/
def quotedBody (quote : UInt8) : List UInt8 → Cursor → Bytes → Except LexError (Lexeme × Cursor)
  | [], c, _ => .error ⟨"unfinished string", Bytes.ofString "<eof>", c.line⟩
  | _ :: fuel, c, text =>
    match c.rest with
    | [] => .error ⟨"unfinished string", Bytes.ofString "<eof>", c.line⟩
    | b :: r =>
      if b == quote then .ok (⟨.str (text.extract 1 text.size), text.push b⟩, { c with rest := r })
      else if isNewline b then
        .error ⟨"unfinished string", ((Bytes.ofString "'").append text.untilZero).push 39, c.line⟩
      else if b == 92 then
        match escape c text with
        | .ok (bs, c') => quotedBody quote fuel c' (bs.foldl ByteArray.push text)
        | .error e => .error e
      else quotedBody quote fuel { c with rest := r } (text.push b)

/-- A run of digits, points and signed exponents, and what comes after it. -/
def numberSpan (lower upper : UInt8) : List UInt8 → List UInt8 × List UInt8
  | [] => ([], [])
  | b :: r =>
    if b == lower || b == upper then
      match r with
      | [] => ([b], [])
      | d :: r' =>
        if d == 43 || d == 45 then
          let (digits, after) := numberSpan lower upper r'
          (b :: d :: digits, after)
        else
          let (digits, after) := numberSpan lower upper (d :: r')
          (b :: digits, after)
    else if Numeral.isHexDigit b || b == 46 then
      let (digits, after) := numberSpan lower upper r
      (b :: digits, after)
    else ([], b :: r)

/-- A numeral that starts at the cursor. -/
def number (c : Cursor) : Except LexError (Lexeme × Cursor) :=
  let mark := c.rest.getD 1 0
  let hex := c.rest.headD 0 == 48 && (mark == 120 || mark == 88)
  let start := if hex then 2 else 1
  let (digits, after) :=
    if hex then numberSpan 112 80 (c.rest.drop start) else numberSpan 101 69 (c.rest.drop start)
  -- A letter right after the digits belongs to the numeral, which it spoils.
  let letter := (after.take 1).takeWhile isNameStart
  let text := (c.rest.take start ++ digits ++ letter).toByteArray
  let c' : Cursor := { c with rest := after.drop letter.length }
  match Numeral.parse text with
  | some (.int n) => .ok (⟨.int n, text⟩, c')
  | some (.float x) => .ok (⟨.float x, text⟩, c')
  | _ => .error ⟨"malformed number", ((Bytes.ofString "'").append text).push 39, c.line⟩

/-- The marks of more than one byte, longer ones first. -/
def longMarks : List String := ["...", "..", "==", "<=", ">=", "~=", "<<", ">>", "//", "::"]

/-- The bytes that are marks of their own. -/
def shortMarks : List Char :=
  ['+', '-', '*', '/', '%', '^', '#', '&', '~', '|', '<', '>', '=', '(', ')', '\x7b', '\x7d', '[', ']',
   ';', ':', ',', '.']

end Lex

open ScriptHost.Script.Lex in
/-- The next lexeme of a source and the place after it. -/
def scan (start : Cursor) : Except LexError (Lexeme × Cursor) :=
  match skipBlanks start.rest start with
  | .error e => .error e
  | .ok c =>
    match c.rest with
    | [] => .ok (⟨.eof, ByteArray.empty⟩, c)
    | b :: r =>
      if isNameStart b then
        let text := (c.rest.takeWhile isNamePart).toByteArray
        let c' : Cursor := { c with rest := c.rest.dropWhile isNamePart }
        match Token.reserved.find? (fun w => Bytes.ofString w == text) with
        | some w => .ok (⟨.word w, text⟩, c')
        | none => .ok (⟨.name text, text⟩, c')
      else if Numeral.isDigit b || (b == 46 && Numeral.isDigit (r.headD 0)) then number c
      else if b == 34 || b == 39 then quotedBody b (b :: r) { c with rest := r } (ByteArray.empty.push b)
      else
        let long := if b == 91 then longLevel? r else none
        match long with
        | some level =>
          match longBracket c level "string" with
          | .ok (body, c') => .ok (⟨.str body, (c.rest.take (c.rest.length - c'.rest.length)).toByteArray⟩, c')
          | .error e => .error e
        | none =>
          let equals := countEquals r
          if b == 91 && 0 < equals then
            .error ⟨"invalid long string delimiter",
              ((Bytes.ofString "'").append (c.rest.take (1 + equals)).toByteArray).push 39, c.line⟩
          else
            match longMarks.find? (fun m => (Bytes.ofString m).data.toList.isPrefixOf c.rest) with
            | some m => .ok (⟨.mark m, ByteArray.empty⟩, { c with rest := c.rest.drop m.length })
            | none =>
              match shortMarks.find? (fun m => m.toNat == b.toNat) with
              | some m => .ok (⟨.mark m.toString, ByteArray.empty⟩, { c with rest := r })
              | none => .ok (⟨.byte b, ByteArray.empty⟩, { c with rest := r })

end ScriptHost.Script

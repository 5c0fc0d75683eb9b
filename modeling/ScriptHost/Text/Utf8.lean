import ScriptHost.Text.Bytes

/-!
# Reading bytes as UTF-8

Text that reaches the host is decoded from bytes. A well-formed sequence gives one character; a
maximal ill-formed part gives one replacement character, or an error that says where it is.

* `Utf8.next`: what stands at an index, a character or an ill-formed part, with its width.
* `Utf8.decodeLossy`: every ill-formed part becomes U+FFFD.
* `Utf8.decode`: the text, or the place and kind of the first ill-formed part.
-/

namespace ScriptHost.Utf8

/-- What stands at one place of a byte string. -/
inductive Piece where
  /-- A well-formed character. -/
  | char (c : Char) (width : Nat)
  /-- An ill-formed part; `cut` says that the bytes ended where more were wanted. -/
  | bad (width : Nat) (cut : Bool)

/-- The width of a piece, never zero for pieces found by `next`. -/
def Piece.width : Piece → Nat
  | .char _ w => w
  | .bad w _ => w

/-- How many bytes a sequence with this first byte has; `0` if no sequence starts so. -/
def sequenceWidth (b : UInt8) : Nat :=
  if b < 0x80 then 1
  else if b < 0xC2 then 0
  else if b < 0xE0 then 2
  else if b < 0xF0 then 3
  else if b < 0xF5 then 4
  else 0

/-- The second byte may follow this first byte: no overlong form, surrogate or too large value. -/
def secondOk (first second : UInt8) : Bool :=
  if first == 0xE0 then 0xA0 ≤ second && second ≤ 0xBF
  else if first == 0xED then 0x80 ≤ second && second ≤ 0x9F
  else if first == 0xF0 then 0x90 ≤ second && second ≤ 0xBF
  else if first == 0xF4 then 0x80 ≤ second && second ≤ 0x8F
  else 0x80 ≤ second && second ≤ 0xBF

/-- A byte that continues a sequence. -/
def isContinuation (b : UInt8) : Bool := 0x80 ≤ b && b ≤ 0xBF

/-- The low bits that a continuation byte adds. -/
def tailBits (b : UInt8) : Nat := b.toNat % 64

/-- The piece that starts at index `i`. -/
def next (s : Bytes) (i : Nat) : Piece :=
  let b0 := s.byteAt i
  let b1 := s.byteAt (i + 1)
  let b2 := s.byteAt (i + 2)
  let b3 := s.byteAt (i + 3)
  match sequenceWidth b0 with
  | 1 => .char (Char.ofNat b0.toNat) 1
  | 2 =>
    if s.size ≤ i + 1 then .bad 1 true
    else if isContinuation b1 then
      .char (Char.ofNat (b0.toNat % 32 * 64 + tailBits b1)) 2
    else .bad 1 false
  | 3 =>
    if s.size ≤ i + 1 then .bad 1 true
    else if !secondOk b0 b1 then .bad 1 false
    else if s.size ≤ i + 2 then .bad 2 true
    else if isContinuation b2 then
      .char (Char.ofNat ((b0.toNat % 16 * 64 + tailBits b1) * 64 + tailBits b2)) 3
    else .bad 2 false
  | 4 =>
    if s.size ≤ i + 1 then .bad 1 true
    else if !secondOk b0 b1 then .bad 1 false
    else if s.size ≤ i + 2 then .bad 2 true
    else if !isContinuation b2 then .bad 2 false
    else if s.size ≤ i + 3 then .bad 3 true
    else if isContinuation b3 then
      .char (Char.ofNat
        (((b0.toNat % 8 * 64 + tailBits b1) * 64 + tailBits b2) * 64 + tailBits b3)) 4
    else .bad 3 false
  | _ => .bad 1 false

/-- Decode from index `i` on, with at most `fuel` pieces left. -/
def decodeLossyFrom (s : Bytes) : Nat → Nat → String → String
  | 0, _, acc => acc
  | fuel + 1, i, acc =>
    if i < s.size then
      match next s i with
      | .char c w => decodeLossyFrom s fuel (i + w) (acc.push c)
      | .bad w _ => decodeLossyFrom s fuel (i + w) (acc.push '\uFFFD')
    else acc

/-- The text of a byte string, each ill-formed part replaced by U+FFFD. -/
def decodeLossy (s : Bytes) : String := decodeLossyFrom s s.size 0 ""

/-- The first ill-formed part of a byte string: where it starts, and its width unless cut short. -/
structure Fault where
  index : Nat
  width : Option Nat

/-- How an ill-formed part is described. -/
def Fault.message (f : Fault) : String :=
  match f.width with
  | some w => s!"invalid utf-8 sequence of {w} bytes from index {f.index}"
  | none => s!"incomplete utf-8 byte sequence from index {f.index}"

/-- Decode from index `i` on, stopping at the first ill-formed part. -/
def decodeFrom (s : Bytes) : Nat → Nat → String → Except Fault String
  | 0, _, acc => .ok acc
  | fuel + 1, i, acc =>
    if i < s.size then
      match next s i with
      | .char c w => decodeFrom s fuel (i + w) (acc.push c)
      | .bad w cut => .error ⟨i, if cut then none else some w⟩
    else .ok acc

/-- The text of a well-formed byte string. -/
def decode (s : Bytes) : Except Fault String := decodeFrom s s.size 0 ""

/-- A well-formed byte string. -/
def isValid (s : Bytes) : Bool := (decode s).isOk

end ScriptHost.Utf8

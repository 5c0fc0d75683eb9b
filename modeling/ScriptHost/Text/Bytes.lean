/-!
# Byte strings

Scripts and streams hold bytes, not characters: a byte string may be no valid text at all. This
module names the type and the few operations every other module needs.

* `Bytes.byteAt`: the byte at an index, `0` past the end.
* `Bytes.lexLt`: the order of byte strings, shorter prefixes first.
* `Bytes.findFrom`: the first place a byte string occurs.
-/

namespace ScriptHost

/-- A string of arbitrary bytes. -/
abbrev Bytes := ByteArray

instance : DecidableEq Bytes := ByteArray.instDecidableEq

namespace Bytes

/-- The bytes of a text. -/
@[inline] def ofString (s : String) : Bytes := s.toUTF8

/-- The byte at an index, and `0` past the end. -/
@[inline] def byteAt (b : Bytes) (i : Nat) : UInt8 :=
  if h : i < b.size then b[i] else 0

/-- Both byte strings, one after the other. -/
@[inline] def append (a b : Bytes) : Bytes := ByteArray.append a b

/-- `n` copies of one byte. -/
def fill (n : Nat) (x : UInt8) : Bytes :=
  n.fold (fun _ _ acc => acc.push x) (ByteArray.emptyWithCapacity n)

/-- The concatenation of a list of byte strings. -/
def concat (parts : List Bytes) : Bytes :=
  parts.foldl append ByteArray.empty

/-- Order of two byte strings from index `i` on, with at most `fuel` bytes left to look at. -/
def lexLtFrom (a b : Bytes) : Nat → Nat → Bool
  | 0, i => decide (i < b.size) && decide (a.size ≤ i)
  | fuel + 1, i =>
    if i < a.size then
      if i < b.size then
        if a.byteAt i == b.byteAt i then lexLtFrom a b fuel (i + 1)
        else decide (a.byteAt i < b.byteAt i)
      else false
    else decide (i < b.size)

/-- Byte strings are ordered by their first different byte; a proper beginning comes first. -/
def lexLt (a b : Bytes) : Bool := lexLtFrom a b (min a.size b.size) 0

/-- `needle` stands in `hay` at index `i`, compared from offset `j` on. -/
def occursFrom (hay needle : Bytes) (i : Nat) : Nat → Nat → Bool
  | 0, _ => true
  | fuel + 1, j =>
    if j < needle.size then
      hay.byteAt (i + j) == needle.byteAt j && occursFrom hay needle i fuel (j + 1)
    else true

/-- `needle` stands in `hay` at index `i`. -/
def occursAt (hay needle : Bytes) (i : Nat) : Bool :=
  decide (i + needle.size ≤ hay.size) && occursFrom hay needle i needle.size 0

/-- Search for `needle` at `i`, `i + 1`, … with at most `fuel` places left to try. -/
def findLoop (hay needle : Bytes) : Nat → Nat → Option Nat
  | 0, i => if hay.occursAt needle i then some i else none
  | fuel + 1, i => if hay.occursAt needle i then some i else findLoop hay needle fuel (i + 1)

/-- The first index, not below `start`, where `needle` stands. -/
def findFrom (hay needle : Bytes) (start : Nat) : Option Nat :=
  if hay.size < start + needle.size then none
  else findLoop hay needle (hay.size - needle.size - start) start

/-- The bytes as a list of numbers. -/
def toNats (b : Bytes) : List Nat := b.toList.map UInt8.toNat

/-- The byte string with the given values, each taken modulo 256. -/
def ofNats (ns : List Nat) : Bytes := (ns.map Nat.toUInt8).toByteArray

/-- Every byte passed through `f`. -/
def map (f : UInt8 → UInt8) (b : Bytes) : Bytes :=
  b.foldl (fun acc x => acc.push (f x)) (ByteArray.emptyWithCapacity b.size)

/-- The bytes in the opposite order. -/
def reverse (b : Bytes) : Bytes := b.toList.reverse.toByteArray

/-- The part of a byte string before its first zero byte. -/
def untilZero (b : Bytes) : Bytes := (b.toList.takeWhile (· ≠ 0)).toByteArray

end Bytes

end ScriptHost

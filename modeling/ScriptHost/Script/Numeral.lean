import ScriptHost.Number.Decimal
import ScriptHost.Script.Value

/-!
# Numerals of the script language

How numbers are read from text and written as text.

* `Numeral.parse`: an integer numeral gives an integer (hexadecimal ones wrap around, decimal ones that
  do not fit become floats); anything else that is a numeral gives a float.
* `Numeral.showFloat`: fourteen significant digits, and `.0` after what would look like an integer.
-/

namespace ScriptHost.Script

namespace Numeral

/-- Space, tab, newline, vertical tab, form feed and carriage return. -/
@[inline] def isSpace (b : UInt8) : Bool := b == 32 || (9 ≤ b && b ≤ 13)

/-- An ASCII decimal digit. -/
@[inline] def isDigit (b : UInt8) : Bool := 48 ≤ b && b ≤ 57

/-- The value of a hexadecimal digit. -/
def hexValue? (b : UInt8) : Option Nat :=
  if isDigit b then some (b.toNat - 48)
  else if 97 ≤ b && b ≤ 102 then some (b.toNat - 87)
  else if 65 ≤ b && b ≤ 70 then some (b.toNat - 55)
  else none

/-- An ASCII hexadecimal digit. -/
@[inline] def isHexDigit (b : UInt8) : Bool := (hexValue? b).isSome

/-- The number that decimal digits write. -/
def decimalValue (ds : List UInt8) : Nat := ds.foldl (fun n d => n * 10 + (d.toNat - 48)) 0

/-- The number that hexadecimal digits write. -/
def hexDigitsValue (ds : List UInt8) : Nat := ds.foldl (fun n d => n * 16 + (hexValue? d).getD 0) 0

/-- Split off a sign. -/
def takeSign : List UInt8 → Bool × List UInt8
  | 45 :: r => (true, r)
  | 43 :: r => (false, r)
  | r => (false, r)

/-- Only blanks are left. -/
def blank (r : List UInt8) : Bool := r.all isSpace

/-- Split off a hexadecimal mark. -/
def takeHexMark : List UInt8 → Option (List UInt8)
  | 48 :: 120 :: r => some r
  | 48 :: 88 :: r => some r
  | _ => none

/-- A text that is a whole integer numeral, with blanks around it. -/
def parseInt (s : List UInt8) : Option Int64 :=
  let (neg, r) := takeSign (s.dropWhile isSpace)
  match takeHexMark r with
  | some h =>
    let ds := h.takeWhile isHexDigit
    if ds.isEmpty || !blank (h.dropWhile isHexDigit) then none
    else
      let n := Int64.ofNat (hexDigitsValue ds)
      some (if neg then 0 - n else n)
  | none =>
    let ds := r.takeWhile isDigit
    if ds.isEmpty || !blank (r.dropWhile isDigit) then none
    else
      let n : Int := decimalValue ds
      let n := if neg then -n else n
      if Value.fits n then some (Int64.ofInt n) else none

/-- An exponent after the given letter: its value and what follows. Without digits nothing is taken. -/
def takeExponent (lower upper : UInt8) : List UInt8 → Int × List UInt8
  | c :: r =>
    if c == lower || c == upper then
      let (neg, r') := takeSign r
      let ds := r'.takeWhile isDigit
      if ds.isEmpty then (0, c :: r)
      else
        let n : Int := decimalValue ds
        (if neg then -n else n, r'.dropWhile isDigit)
    else (0, c :: r)
  | [] => (0, [])

/-- Digits, a point and digits: both runs, and what follows. -/
def takeFraction (digit : UInt8 → Bool) (s : List UInt8) : List UInt8 × List UInt8 × List UInt8 :=
  let whole := s.takeWhile digit
  match s.dropWhile digit with
  | 46 :: r => (whole, r.takeWhile digit, r.dropWhile digit)
  | r => (whole, [], r)

/-- The float `n · base ^ e`, with exponents far out of range cut short. -/
def scaled (neg : Bool) (n base : Nat) (e : Int) (digits : Nat) : Float :=
  if n = 0 then Binary.nearest neg 0 1
  else if 5000 < e then Binary.nearest neg (Nat.pow 2 2000) 1
  else if e < -5000 - 4 * (digits : Int) then Binary.nearest neg 0 1
  else if 0 ≤ e then Binary.nearest neg (n * Nat.pow base e.toNat) 1
  else Binary.nearest neg n (Nat.pow base (-e).toNat)

/-- A text that is a whole float numeral, with blanks around it. -/
def parseFloat (s : List UInt8) : Option Float :=
  let (neg, r) := takeSign (s.dropWhile isSpace)
  match takeHexMark r with
  | some h =>
    let (whole, frac, rest) := takeFraction isHexDigit h
    let (e, rest) := takeExponent 112 80 rest
    if (whole.isEmpty && frac.isEmpty) || !blank rest then none
    else some (scaled neg (hexDigitsValue (whole ++ frac)) 2 (e - 4 * frac.length) (whole.length + frac.length))
  | none =>
    let (whole, frac, rest) := takeFraction isDigit r
    let (e, rest) := takeExponent 101 69 rest
    if (whole.isEmpty && frac.isEmpty) || !blank rest then none
    else some (scaled neg (decimalValue (whole ++ frac)) 10 (e - frac.length) (whole.length + frac.length))

/-- The number that a text writes, if it is a numeral. -/
def parse (s : Bytes) : Option Value :=
  let cs := s.toList
  match parseInt cs with
  | some n => some (.int n)
  | none => (parseFloat cs).map .float

/-- Digits without the zeros at their end. -/
def dropTrailingZeros (ds : List Char) : List Char :=
  (ds.reverse.dropWhile (· == '0')).reverse

/-- A decimal exponent: a sign and at least two digits. -/
def showExponent (k : Int) : String :=
  let n := Nat.repr k.natAbs
  (if k < 0 then "-" else "+") ++ (if n.length < 2 then "0" ++ n else n)

/-- The positive quotient `n / d` in the shorter of positional and exponent form, with `count`
significant digits and, unless `keep`, no zeros at the end of its fraction. -/
def general (n d count : Nat) (keep : Bool) (mark : String) : String :=
  let (q, k) := if n = 0 then (0, 0) else Decimal.rounded n d count
  let digits :=
    let ds := (Nat.repr q).toList
    List.replicate (count - ds.length) '0' ++ ds
  let trim (ds : List Char) : List Char := if keep then ds else dropTrailingZeros ds
  let join (whole frac : List Char) : String :=
    let frac := trim frac
    if frac.isEmpty && !keep then String.ofList whole
    else String.ofList whole ++ "." ++ String.ofList frac
  if k < -4 || (count : Int) ≤ k then
    join (digits.take 1) (digits.drop 1) ++ mark ++ showExponent k
  else if 0 ≤ k then join (digits.take (k.toNat + 1)) (digits.drop (k.toNat + 1))
  else join ['0'] (List.replicate ((-k).toNat - 1) '0' ++ digits)

/-- A float with fourteen significant digits, and `.0` if it would look like an integer. What is not a number
has its sign bit set here. -/
def showFloat (x : Float) : String :=
  match Binary.ofFloat x with
  | .nan => "-nan"
  | .infinite neg => if neg then "-inf" else "inf"
  | .finite b =>
    let s := general b.num b.den 14 false "e"
    let s := if s.all (fun c => c.isDigit) then s ++ ".0" else s
    if b.neg then "-" ++ s else s

/-- An integer in decimal. -/
@[inline] def showInt (n : Int64) : String := toString n.toInt

end Numeral

namespace Value

/-- The number a value is or, for a string, writes. -/
def toNumber? : Value → Option Value
  | .int n => some (.int n)
  | .float x => some (.float x)
  | .nan => some .nan
  | .str s => Numeral.parse s
  | _ => none

/-- The float a number equals or is nearest to. -/
@[inline] def toFloat? : Value → Option Float
  | .float x => some x
  | .int n => some n.toFloat
  | .nan => some (0.0 / 0.0)
  | _ => none

/-- The integer a number equals; strings are no numbers here. -/
@[inline] def toInt? : Value → Option Int64
  | .int n => some n
  | .float x => floatToInt? x
  | _ => none

/-- The integer a number or numeral string equals. -/
def coerceInt? (v : Value) : Option Int64 := v.toNumber?.bind toInt?

/-- The text of a number or a string. -/
def toText? : Value → Option Bytes
  | .str s => some s
  | .int n => some (Bytes.ofString (Numeral.showInt n))
  | .float x => some (Bytes.ofString (Numeral.showFloat x))
  | .nan => some (Bytes.ofString "nan")
  | _ => none

end Value

end ScriptHost.Script

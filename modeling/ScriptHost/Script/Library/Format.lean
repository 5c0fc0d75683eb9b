import ScriptHost.Script.Numeral
import ScriptHost.Script.Library.Pattern

/-!
# Format specifications

A specification says how a value is written: flags, a least width, a precision and a conversion.

* `Format.Spec`: a specification, read by `Format.Spec.parse`.
* `Format.integer`, `Format.floating`, `Format.padded`: the texts of values.
* `Format.quoted`: the text of a value as a literal.
-/

namespace ScriptHost.Script.Format

/-- A format specification. -/
structure Spec where
  left : Bool := false
  plus : Bool := false
  blank : Bool := false
  alternate : Bool := false
  zero : Bool := false
  width : Nat := 0
  precision : Option Nat := none
  conversion : UInt8 := 0
  /-- The specification as it was written, from its percent sign on. -/
  written : Bytes := ByteArray.empty
  deriving Inhabited

/-- The conversion stands alone. -/
def Spec.bare (s : Spec) : Bool := s.written.size == 2

/-- The bytes that may stand between a percent sign and its conversion. -/
def isModifier (b : UInt8) : Bool :=
  Numeral.isDigit b || b == 45 || b == 43 || b == 32 || b == 35 || b == 46

/-- How many modifiers a specification may have at most. -/
def maxModifiers : Nat := 20

/-- The specification after a percent sign at `i`, as it is written, and where it ends. -/
def Spec.written? (f : Bytes) (i : Nat) : Except String (Bytes × Nat) :=
  let rest := (f.extract (i + 1) f.size).toList
  let n := (rest.takeWhile isModifier).length
  if maxModifiers < n then .error "invalid format string to 'format'"
  else .ok (f.extract i (i + n + 2), i + n + 2)

/-- At most two digits. -/
def twoDigits (r : List UInt8) : List UInt8 × List UInt8 :=
  let ds := (r.takeWhile Numeral.isDigit).take 2
  (ds, r.drop ds.length)

/-- Read a specification that may have the given flags, and a precision or not. -/
def Spec.parse (written : Bytes) (flags : List UInt8) (precise : Bool) : Option Spec :=
  let body := written.toList.drop 1
  let given := body.takeWhile flags.contains
  let r := body.drop given.length
  let (width, precision, r) : List UInt8 × Option (List UInt8) × List UInt8 :=
    match r with
    | 48 :: _ => ([], none, r)
    | _ =>
      let (w, r) := twoDigits r
      match r with
      | 46 :: r' =>
        if precise then
          let (p, r'') := twoDigits r'
          (w, some p, r'')
        else (w, none, r)
      | _ => (w, none, r)
  match r with
  | [c] =>
    if Pattern.isAlpha c then
      some {
        left := given.contains 45, plus := given.contains 43, blank := given.contains 32
        alternate := given.contains 35, zero := given.contains 48
        width := Numeral.decimalValue width, precision := precision.map Numeral.decimalValue
        conversion := c, written }
    else none
  | _ => none

/-- Fill a text up to the width: blanks on the right or left, or zeros after its sign and mark. -/
def fillUp (s : Spec) (zeros : Bool) (mark body : String) : String :=
  let missing := s.width - (mark.length + body.length)
  if s.left then mark ++ body ++ "".pushn ' ' missing
  else if zeros then mark ++ "".pushn '0' missing ++ body
  else "".pushn ' ' missing ++ mark ++ body

/-- The sign to write. -/
def signText (s : Spec) (neg : Bool) : String :=
  if neg then "-" else if s.plus then "+" else if s.blank then " " else ""

/-- Digits of a number in a base, in lower case. -/
def digits (base n : Nat) : String := String.ofList (Nat.toDigits base n)

/-- A text in upper case. -/
def upper (s : String) : String := s.map Char.toUpper

/-- An integer in decimal, octal or hexadecimal. The last two show it as a number without a sign. -/
def integer (s : Spec) (n : Int64) : String :=
  let atLeast (ds : String) : String :=
    match s.precision with
    | some 0 => if ds == "0" then "" else ds
    | some p => "".pushn '0' (p - ds.length) ++ ds
    | none => ds
  let zeros := s.zero && s.precision.isNone
  let unsigned := n.toUInt64.toNat
  if s.conversion == 100 || s.conversion == 105 then
    fillUp s zeros (signText s (decide (n < 0))) (atLeast (toString n.toInt.natAbs))
  else if s.conversion == 117 then fillUp s zeros "" (atLeast (toString unsigned))
  else if s.conversion == 111 then
    let ds := atLeast (digits 8 unsigned)
    fillUp s zeros "" (if s.alternate && !ds.startsWith "0" then "0" ++ ds else ds)
  else
    let ds := atLeast (digits 16 unsigned)
    let mark := if s.alternate && unsigned ≠ 0 then "0x" else ""
    if s.conversion == 88 then fillUp s zeros (upper mark) (upper ds) else fillUp s zeros mark ds

/-- Digits with a point before the last `places` ones. -/
def withPoint (ds : String) (places : Nat) (point : Bool) : String :=
  let ds := "".pushn '0' (places + 1 - ds.length) ++ ds
  let cs := ds.toList
  let whole := String.ofList (cs.take (cs.length - places))
  if places = 0 then (if point then whole ++ "." else whole)
  else whole ++ "." ++ String.ofList (cs.drop (cs.length - places))

/-- A quotient with an exponent, `places` digits after the point. -/
def scientific (n d places : Nat) (point : Bool) : String :=
  let (q, k) := if n = 0 then (0, 0) else Decimal.rounded n d (places + 1)
  let ds := "".pushn '0' (places + 1 - (toString q).length) ++ toString q
  withPoint ds places point ++ "e" ++ Numeral.showExponent k

/-- The hexadecimal form of a finite float, without its sign and mark. -/
def hexadecimal (b : Binary) (precision : Option Nat) (point : Bool) : String :=
  let normal := decide (Nat.pow 2 52 ≤ b.mant)
  let e : Int := if b.mant = 0 then 0 else b.exp + 52
  let lead := if normal then 1 else 0
  let frac := b.mant % Nat.pow 2 52
  let (lead, fracDigits) :=
    match precision with
    | none =>
      let ds := digits 16 frac
      let ds := "".pushn '0' (13 - ds.length) ++ ds
      (lead, String.ofList (Numeral.dropTrailingZeros ds.toList))
    | some p =>
      if 13 ≤ p then
        let ds := digits 16 frac
        (lead, "".pushn '0' (13 - ds.length) ++ ds ++ "".pushn '0' (p - 13))
      else
        let q := Binary.roundDiv b.mant (Nat.pow 16 (13 - p))
        let ds := digits 16 (q % Nat.pow 16 p)
        (q / Nat.pow 16 p, if p = 0 then "" else "".pushn '0' (p - ds.length) ++ ds)
  let body := toString lead ++ (if fracDigits.isEmpty && !point then "" else "." ++ fracDigits)
  body ++ "p" ++ (if e < 0 then "-" else "+") ++ toString e.natAbs

/-- A float in the form its conversion asks for; `negative` is the sign of what is not a number. -/
def floating (s : Spec) (x : Float) (negative : Bool) : String :=
  let c := Pattern.toLower s.conversion
  let cased (t : String) : String := if Pattern.isUpper s.conversion then upper t else t
  match Binary.ofFloat x with
  | .nan => fillUp s false (signText s negative) (cased "nan")
  | .infinite neg => fillUp s false (signText s neg) (cased "inf")
  | .finite b =>
    let sign := signText s b.neg
    let n := b.num
    let d := b.den
    if c == 97 then
      fillUp s s.zero (sign ++ cased "0x") (cased (hexadecimal b s.precision s.alternate))
    else
      let p := s.precision.getD 6
      let body :=
        if c == 102 then withPoint (toString (Decimal.fixed n d p)) p s.alternate
        else if c == 101 then scientific n d p s.alternate
        else Numeral.general n d (max p 1) s.alternate "e"
      fillUp s s.zero sign (cased body)

/-- A text cut to the precision and filled up to the width. -/
def padded (s : Spec) (t : Bytes) : Bytes :=
  let t := match s.precision with
    | some p => t.extract 0 p
    | none => t
  let blanks := Bytes.fill (s.width - t.size) 32
  if s.left then t.append blanks else blanks.append t

/-- A byte string as a literal, from `i` on. -/
def quotedFrom (t : Bytes) : Nat → Nat → Bytes → Bytes
  | 0, _, acc => acc
  | fuel + 1, i, acc =>
    if t.size ≤ i then acc
    else
      let c := t.byteAt i
      let acc :=
        if c == 34 || c == 92 || c == 10 then (acc.push 92).push c
        else if Pattern.isControl c then
          let ds := toString c.toNat
          let ds := if Numeral.isDigit (t.byteAt (i + 1)) then "".pushn '0' (3 - ds.length) ++ ds else ds
          (acc.push 92).append (Bytes.ofString ds)
        else acc.push c
      quotedFrom t fuel (i + 1) acc

/-- A value as a literal that reads back as the same value; `none` if there is no such literal. -/
def quoted (v : Value) : Option Bytes :=
  match v with
  | .str t => some ((quotedFrom t t.size 0 ((ByteArray.empty).push 34)).push 34)
  | .int n =>
    some (Bytes.ofString (if n.toInt = Value.minInt then "0x8000000000000000" else Numeral.showInt n))
  | .float x =>
    some (Bytes.ofString (match Binary.ofFloat x with
      | .nan => "(0/0)"
      | .infinite neg => if neg then "-1e9999" else "1e9999"
      | .finite b => (if b.neg then "-0x" else "0x") ++ hexadecimal b none false))
  | .nan => some (Bytes.ofString "(0/0)")
  | .nil => some (Bytes.ofString "nil")
  | .bool b => some (Bytes.ofString (if b then "true" else "false"))
  | _ => none

end ScriptHost.Script.Format

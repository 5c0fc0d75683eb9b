import ScriptHost.Number.Binary

/-!
# Decimal digits of exact values

* `Decimal.shortest`: the fewest digits that read back as the same double, nearest of those.
* `Decimal.rounded`: a given number of significant digits.
* `Decimal.fixed`: a given number of places after the point.

All work in exact natural arithmetic; a half goes to the even neighbour.
-/

namespace ScriptHost

/-- The value `digits · 10 ^ exp`. -/
structure Decimal where
  digits : Nat
  exp : Int

namespace Decimal

/-- Fix an estimate `k` of a quotient's decimal magnitude, so that `10 ^ k ≤ n / d < 10 ^ (k + 1)`. -/
def settleMagnitude (n d : Nat) : Nat → Int → Int
  | 0, k => k
  | fuel + 1, k =>
    let atLeast (j : Int) : Bool :=
      if 0 ≤ j then decide (d * Nat.pow 10 j.toNat ≤ n) else decide (d ≤ n * Nat.pow 10 (-j).toNat)
    if !atLeast k then settleMagnitude n d fuel (k - 1)
    else if atLeast (k + 1) then settleMagnitude n d fuel (k + 1)
    else k

/-- The exponent of the leading decimal digit of the positive quotient `n / d`. -/
def magnitude (n d : Nat) : Int :=
  let bits : Int := (Nat.log2 n : Int) - (Nat.log2 d : Int)
  settleMagnitude n d 8 (bits * 30103 / 100000)

/-- The quotient `n / d` divided by `10 ^ g`, as a fraction. -/
def onGrid (n d : Nat) (g : Int) : Nat × Nat :=
  if 0 ≤ g then (n, d * Nat.pow 10 g.toNat) else (n * Nat.pow 10 (-g).toNat, d)

/-- The positive quotient `n / d` rounded to `count` significant digits; the leading digit's exponent
comes with it. -/
def rounded (n d count : Nat) : Nat × Int :=
  let k := magnitude n d
  let (a, b) := onGrid n d (k - count + 1)
  let q := Binary.roundDiv a b
  if q = Nat.pow 10 count then (q / 10, k + 1) else (q, k)

/-- The quotient `n / d` in units of `10 ^ (-places)`, rounded. -/
def fixed (n d places : Nat) : Nat := Binary.roundDiv (n * Nat.pow 10 places) d

/-- A decimal with `count` digits that lies between the ends of the interval, if there is one; of two,
the one nearer to the value. Value and ends are given over one denominator. -/
def candidate (value low high d : Nat) (closed : Bool) (k : Int) (count : Nat) : Option Decimal :=
  let g := k - count + 1
  let (v, b) := onGrid value d g
  let (lo, _) := onGrid low d g
  let (hi, _) := onGrid high d g
  let f := v / b
  let inside (c : Nat) : Bool :=
    if closed then decide (lo ≤ c * b) && decide (c * b ≤ hi)
    else decide (lo < c * b) && decide (c * b < hi)
  let below := inside f && f ≠ 0
  let above := inside (f + 1)
  if below && above then
    let down := v - f * b
    let up := (f + 1) * b - v
    some ⟨if up < down || (up = down && f % 2 = 1) then f + 1 else f, g⟩
  else if below then some ⟨f, g⟩
  else if above then some ⟨f + 1, g⟩
  else none

/-- Try one digit more each time, up to the seventeen that always suffice. -/
def shortestFrom (value low high d : Nat) (closed : Bool) (k : Int) : Nat → Nat → Decimal
  | 0, count => (candidate value low high d closed k count).getD ⟨value / d, 0⟩
  | fuel + 1, count =>
    match candidate value low high d closed k count with
    | some c => c
    | none => shortestFrom value low high d closed k fuel (count + 1)

/-- A decimal without zeros at the end of its digits. -/
def trimmed : Nat → Decimal → Decimal
  | 0, x => x
  | fuel + 1, x =>
    if x.digits ≠ 0 ∧ x.digits % 10 = 0 then trimmed fuel ⟨x.digits / 10, x.exp + 1⟩ else x

/-- The fewest decimal digits that no other double is nearer to. -/
def shortest (b : Binary) : Decimal :=
  if b.mant = 0 then ⟨0, 0⟩
  else
    let narrow := b.mant = Nat.pow 2 52 && decide (-1074 < b.exp)
    let quarter : Binary := ⟨false, 1, b.exp - 2⟩
    let unit := quarter.num
    let d := quarter.den
    let value := 4 * b.mant * unit
    let low := (4 * b.mant - if narrow then 1 else 2) * unit
    let high := (4 * b.mant + 2) * unit
    trimmed 17 (shortestFrom value low high d (b.mant % 2 == 0) (magnitude value d) 17 1)

/-- A decimal written without an exponent: the digits, with as many zeros as the place needs. -/
def positional (x : Decimal) : String :=
  let s := Nat.repr x.digits
  if 0 ≤ x.exp then (if x.digits = 0 then s else s ++ "".pushn '0' x.exp.toNat)
  else
    let places := (-x.exp).toNat
    let s := if s.length ≤ places then "".pushn '0' (places + 1 - s.length) ++ s else s
    let cs := s.toList
    String.ofList (cs.take (cs.length - places)) ++ "." ++ String.ofList (cs.drop (cs.length - places))

end Decimal

end ScriptHost

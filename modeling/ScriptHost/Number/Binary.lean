/-!
# Floating-point numbers as exact values

A finite double is a sign and a natural number times a power of two. Everything that prints or reads
a double works on that exact value.

* `Binary.ofFloat`: the exact value of a double, or which special value it is.
* `Binary.nearest`: the double nearest to a quotient of natural numbers, ties to the even neighbour.
* `Binary.remainder`: the remainder of a truncating division, exact for all finite operands.
-/

namespace ScriptHost

/-- The value `± mant · 2 ^ exp`. -/
structure Binary where
  neg : Bool
  mant : Nat
  exp : Int

/-- A double is a finite value, an infinity or no number. -/
inductive Binary.Kind where
  | finite (b : Binary)
  | infinite (neg : Bool)
  | nan

namespace Binary

/-- The exact value of a double. -/
def ofFloat (x : Float) : Kind :=
  let bits := x.toBits.toNat
  let neg := decide (0x8000000000000000 ≤ bits)
  let field : Nat := bits / Nat.pow 2 52 % Nat.pow 2 11
  let frac : Nat := bits % Nat.pow 2 52
  if field = 2047 then (if frac = 0 then .infinite neg else .nan)
  else if field = 0 then .finite ⟨neg, frac, -1074⟩
  else .finite ⟨neg, Nat.pow 2 52 + frac, (field : Int) - 1075⟩

/-- The numerator of `mant · 2 ^ exp` written over `2 ^ (-exp)`. -/
def num (b : Binary) : Nat := if 0 ≤ b.exp then b.mant * Nat.pow 2 b.exp.toNat else b.mant

/-- The denominator of `mant · 2 ^ exp`. -/
def den (b : Binary) : Nat := if 0 ≤ b.exp then 1 else Nat.pow 2 (-b.exp).toNat

/-- A quotient rounded to the nearest natural number, a half to the even neighbour. -/
def roundDiv (n d : Nat) : Nat :=
  let q := n / d
  let r := n % d
  if d < 2 * r then q + 1
  else if 2 * r = d then (if q % 2 = 0 then q else q + 1)
  else q

/-- The double with sign `neg` and magnitude `q · 2 ^ p`, for `q ≤ 2 ^ 53` and `-1074 ≤ p`, where
`q < 2 ^ 52` only if `p = -1074`. -/
def assemble (neg : Bool) (q : Nat) (p : Int) : Float :=
  let (q, p) := if q = Nat.pow 2 53 then (Nat.pow 2 52, p + 1) else (q, p)
  let body :=
    if 971 < p then 2047 * Nat.pow 2 52
    else if q < Nat.pow 2 52 then q
    else (p + 1075).toNat * Nat.pow 2 52 + (q - Nat.pow 2 52)
  Float.ofBits ((if neg then 0x8000000000000000 + body else body).toUInt64)

/-- The double nearest to `n / d` with the given sign; ties go to the even neighbour. -/
def nearest (neg : Bool) (n d : Nat) : Float :=
  if n = 0 || d = 0 then assemble neg 0 (-1074)
  else
    let scaled (p : Int) : Nat × Nat :=
      if 0 ≤ p then (n, d * Nat.pow 2 p.toNat) else (n * Nat.pow 2 (-p).toNat, d)
    let p0 : Int := (Nat.log2 n : Int) - (Nat.log2 d : Int) - 53
    let (a0, b0) := scaled p0
    let p1 := if Nat.pow 2 53 ≤ a0 / b0 then p0 + 1 else p0
    let p := max p1 (-1074)
    let (a, b) := scaled p
    assemble neg (roundDiv a b) p

/-- The double `± mant · 2 ^ exp`, rounded if it has too many digits. -/
def toFloat (b : Binary) : Float := nearest b.neg b.num b.den

/-- The remainder of `x` by `y` whose quotient is cut toward zero; it has the sign of `x`. -/
def remainder (x y : Float) : Float :=
  match ofFloat x, ofFloat y with
  | .finite a, .finite b =>
    if b.mant = 0 then 0.0 / 0.0
    else
      let e := min a.exp b.exp
      let am := a.mant * Nat.pow 2 (a.exp - e).toNat
      let bm := b.mant * Nat.pow 2 (b.exp - e).toNat
      toFloat ⟨a.neg, am % bm, e⟩
  | .finite _, .infinite _ => x
  | _, _ => 0.0 / 0.0

/-- The integer part of a finite double, cut toward zero; `none` for the special values. -/
def truncate? (x : Float) : Option Int :=
  match ofFloat x with
  | .finite b =>
    let n : Int := (b.num / b.den : Nat)
    some (if b.neg then -n else n)
  | _ => none

/-- The largest integer not above a finite double. -/
def floor? (x : Float) : Option Int :=
  match ofFloat x with
  | .finite b =>
    let n : Int := b.num
    some (Int.fdiv (if b.neg then -n else n) b.den)
  | _ => none

/-- The value of a finite double if it is an integer. -/
def integer? (x : Float) : Option Int :=
  match ofFloat x with
  | .finite b => if b.num % b.den = 0 then truncate? x else none
  | _ => none

end Binary

end ScriptHost

import ScriptHost.Script.Act
import ScriptHost.Script.Numeral
import ScriptHost.Text.Utf8

/-!
# Arguments of host functions

A host function takes its arguments as values of certain kinds. An argument of another kind is converted, if it
can be.

* `Way`: who converts the arguments, on which depends how a failure is told.
* `Kind`: a kind of argument, with the conversion to it.
* `Arguments.take`: an argument of a kind, or the failure to convert it.
-/

namespace ScriptHost.Binding

open ScriptHost.Script

/-- Who converts the arguments of a function. -/
inductive Way where
  /-- They are converted before the function begins. -/
  | before
  /-- The function gets them as they are and converts them itself. -/
  | inside
  deriving DecidableEq, Inhabited

/-- The word for a value in a failed conversion. -/
def valueWord : Value → String
  | .nil => "nil"
  | .bool _ => "boolean"
  | .int _ => "integer"
  | .float _ | .nan => "number"
  | .str _ => "string"
  | .table _ => "table"
  | .closure _ | .native _ => "function"
  | .thread _ => "thread"
  | .failure _ => "error"

/-- The word for a number in a failed conversion. A float that equals an integer is one before the function
begins. -/
def numberWord (way : Way) (v : Value) : String :=
  match way, v with
  | .before, .float x => if (Value.floatToInt? x).isSome then "integer" else "number"
  | _, v => valueWord v

/-- Not a number. -/
def noNumber : String := "expected number or string coercible to number"

/-- A kind of argument. -/
structure Kind (α : Type) where
  /-- How a value is converted. -/
  convert : Way → Value → Except Fault α

namespace Kind

/-- Integers in a range; the fraction of a float is cut off. -/
def integer (target : String) (least greatest : Int) : Kind Int where
  convert way v :=
    let outside (word : String) : Except Fault Int := .error (.conversion word target (some "out of range"))
    let inRange (word : String) (n : Int) : Except Fault Int :=
      if least ≤ n ∧ n ≤ greatest then .ok n else outside word
    let number (word : String) : Value → Except Fault Int
      | .int n => inRange word n.toInt
      | .float x => match Binary.truncate? x with
        | some n => inRange word n
        | none => outside word
      | .nan => outside word
      | _ => .error (.conversion word target (some noNumber))
    match v with
    | .int _ | .float _ | .nan => number (numberWord way v) v
    | .str _ => match v.toNumber? with
      | some n => number "string" n
      | none => .error (.conversion "string" target (some noNumber))
    | v => .error (.conversion (valueWord v) target (some noNumber))

/-- Integers of 8 bits without sign. -/
def u8 : Kind Int := integer "u8" 0 0xFF

/-- Integers of 32 bits without sign. -/
def u32 : Kind Int := integer "u32" 0 0xFFFFFFFF

/-- Integers of 64 bits without sign. -/
def u64 : Kind Int := integer "u64" 0 0xFFFFFFFFFFFFFFFF

/-- Sizes and indices. -/
def usize : Kind Int := integer "usize" 0 0xFFFFFFFFFFFFFFFF

/-- Integers of 64 bits. -/
def i64 : Kind Int := integer "i64" Value.minInt Value.maxInt

/-- Numbers, integers as the nearest float. -/
def float : Kind Value where
  convert _ v :=
    match v.toNumber? with
    | some .nan => .ok .nan
    | some n => .ok (.float (n.toFloat?.getD 0))
    | none => .error (.conversion (valueWord v) "f64" (some noNumber))

/-- Truth values: only `nil` and `false` are false. -/
def bool : Kind Bool where
  convert _ v := .ok v.truthy

/-- Texts, which must be UTF-8. -/
def text : Kind String where
  convert way v :=
    match v.toText? with
    | none => .error (.conversion (valueWord v) "String" (some "expected string or number"))
    | some b =>
      match Utf8.decode b with
      | .ok s => .ok s
      | .error e =>
        .error (.conversion (valueWord v) (match way with
          | .before => "String"
          | .inside => "&str") (some e.message))

/-- Functions. -/
def function : Kind Value where
  convert _ v :=
    match v with
    | .closure _ | .native _ => .ok v
    | v => .error (.conversion (valueWord v) "function" none)

/-- Any value. -/
def value : Kind Value where
  convert _ v := .ok v

/-- An argument that may be missing or `nil`. -/
def optional {α : Type} (k : Kind α) : Kind (Option α) where
  convert way v := if v.isNil then .ok none else (k.convert way v).map some

end Kind

/-- A failed argument as it is told: with its number, if it fails before the function begins. -/
def argumentFault (way : Way) (position : Nat) (f : Fault) : Fault :=
  match way with
  | .before => .badArgument none position none f
  | .inside => f

variable {σ α : Type}

/-- A failure that only the host may end goes on when a host function meets it; after that it is spent. -/
def checkSpent (v : Value) : Act σ Unit := fun h s =>
  match v with
  | .failure id =>
    match h.failures[id]? with
    | some (.panic message) =>
      let spent := HostFailure.fault (.chain "previously resumed panic returned again" [])
      .raised (.panic message) { h with failures := put h.failures id spent } s
    | _ => .done () h s
  | _ => .done () h s

/-- The arguments of a host function. -/
structure Arguments where
  way : Way
  values : Array Value

namespace Arguments

/-- An argument of a kind, or the failure to convert it. Arguments are numbered from one. -/
def take (args : Arguments) (position : Nat) (k : Kind α) : Act σ α := do
  let v := args.values.getD (position - 1) .nil
  checkSpent v
  match k.convert args.way v with
  | .ok a => return a
  | .error f => Act.raise (.host (argumentFault args.way position f))

/-- All arguments. -/
def all (args : Arguments) : Act σ (Array Value) := do
  for v in args.values do checkSpent v
  return args.values

end Arguments

/-- An unsigned number of 64 bits as a value: one that is too great for an integer is a float. -/
def ofUnsigned (n : Nat) : Value :=
  if n < 0x8000000000000000 then .int (Int64.ofNat n) else .float (Float.ofNat n)

end ScriptHost.Binding

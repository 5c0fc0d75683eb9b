import ScriptHost.Number.Decimal
import ScriptHost.Script.Act
import ScriptHost.Text.Utf8

/-!
# The text of a value

Host functions write a value without asking its metatable. A float that equals an integer and is not too great
has one decimal; all others have the digits that tell them apart, and never an exponent.
-/

namespace ScriptHost.Script

/-- From here on a float that equals an integer has no decimal. -/
def wholeLimit : Float := 1e15

/-- The text of a float. -/
def showFloatPlain (x : Float) : String :=
  match Binary.ofFloat x with
  | .nan => "NaN"
  | .infinite neg => if neg then "-inf" else "inf"
  | .finite b =>
    let digits := (Decimal.shortest b).positional
    let whole := (Binary.integer? x).isSome && x.abs < wholeLimit
    (if b.neg then "-" else "") ++ digits ++ (if whole then ".0" else "")

/-- The text of a value. -/
def showPlain (h : Heap) : Value → String
  | .nil => "nil"
  | .bool b => if b then "true" else "false"
  | .int n => toString n.toInt
  | .float x => showFloatPlain x
  | .nan => "NaN"
  | .str s => Utf8.decodeLossy s
  | .table id => object "table" (16 * id)
  | .closure id => object "function" (16 * id + 1)
  | .native (.host i) => object "function" (16 * i + 2)
  | .native (.bound i) => object "function" (16 * i + 3)
  | .native (.builtin b) => object "function" (16 * b.ctorIdx + 4)
  | .thread id => object "thread" (16 * id + 5)
  | .failure id =>
    match h.failures.getD id default with
    | .fault f => f.display
    | .panic m => m
where
  /-- The text of an object: its kind and its number. -/
  object (kind : String) (number : Nat) : String :=
    Utf8.decodeLossy (Act.objectText (Bytes.ofString kind) number)

/-- The texts of some values, each after the first one with a tab before it. -/
def showAll (h : Heap) (vs : Array Value) : String := Text.join "\t" (vs.toList.map (showPlain h))

end ScriptHost.Script

import ScriptHost.Script.Library.Base
import ScriptHost.Script.Library.Clock
import ScriptHost.Script.Library.Coroutine
import ScriptHost.Script.Library.Maths
import ScriptHost.Script.Library.Pack
import ScriptHost.Script.Library.Strings
import ScriptHost.Script.Library.Tables
import ScriptHost.Script.Library.Texts

/-!
# The built-in functions

* `Library.call`: what each built-in function does.
* `Library.callBound`: what the functions made while running do.
* `Library.install`: the objects that the libraries begin with.
-/

namespace ScriptHost.Script.Library

variable {σ : Type}

/-- What a built-in function does. -/
def call (b : Builtin) : Args → Act σ (Array Value) :=
  match b with
  | .assert => baseAssert
  | .error => baseError
  | .getmetatable => baseGetMetatable
  | .ipairs => baseIpairs
  | .next => baseNext
  | .pairs => basePairs
  | .pcall => basePcall
  | .rawequal => baseRawEqual
  | .rawget => baseRawGet
  | .rawlen => baseRawLen
  | .rawset => baseRawSet
  | .select => baseSelect
  | .setmetatable => baseSetMetatable
  | .tonumber => baseToNumber
  | .tostring => baseToString
  | .type => baseType
  | .xpcall => baseXpcall
  | .ipairsStep => ipairsNext
  | .codesStep strict => codesNext strict
  | .strByte => strByte
  | .strChar => strChar
  | .strFind => fun args => searchPattern args true
  | .strFormat => strFormat
  | .strGmatch => strGmatch
  | .strGsub => strGsub
  | .strLen => strLen
  | .strLower => strLower
  | .strMatch => fun args => searchPattern args false
  | .strPack => strPack
  | .strPackSize => strPackSize
  | .strRep => strRep
  | .strReverse => strReverse
  | .strSub => strSub
  | .strUnpack => strUnpack
  | .strUpper => strUpper
  | .strArith op => textArith op
  | .tabConcat => tabConcat
  | .tabInsert => tabInsert
  | .tabMove => tabMove
  | .tabPack => tabPack
  | .tabRemove => tabRemove
  | .tabSort => tabSort
  | .tabUnpack => tabUnpack
  | .mathAbs => mathAbs
  | .mathAcos => onFloat Float.acos
  | .mathAsin => onFloat Float.asin
  | .mathAtan => mathAtan
  | .mathAtan2 => mathAtan
  | .mathCeil => mathCeil
  | .mathCos => onFloat Float.cos
  | .mathCosh => onFloat Float.cosh
  | .mathDeg => onFloat (· * (180.0 / pi))
  | .mathExp => onFloat Float.exp
  | .mathFloor => mathFloor
  | .mathFmod => mathFmod
  | .mathFrexp => mathFrexp
  | .mathLdexp => mathLdexp
  | .mathLog => mathLog
  | .mathLog10 => onFloat Float.log10
  | .mathMax => mathMax
  | .mathMin => mathMin
  | .mathModf => mathModf
  | .mathPow => mathPow
  | .mathRad => onFloat (· * (pi / 180.0))
  | .mathRandom => mathRandom
  | .mathRandomSeed => mathRandomSeed
  | .mathSin => onFloat Float.sin
  | .mathSinh => onFloat Float.sinh
  | .mathSqrt => mathSqrt
  | .mathTan => onFloat Float.tan
  | .mathTanh => onFloat Float.tanh
  | .mathToInteger => mathToInteger
  | .mathType => mathType
  | .mathUlt => mathUlt
  | .utfChar => utfChar
  | .utfCodepoint => utfCodepoint
  | .utfCodes => utfCodes
  | .utfLen => utfLen
  | .utfOffset => utfOffset
  | .coClose => coClose
  | .coCreate => coCreate
  | .coIsYieldable => coIsYieldable
  | .coResume => coResume
  | .coRunning => coRunning
  | .coStatus => coStatus
  | .coWrap => coWrap
  | .coYield => Act.yield
  | .osClock => osClock
  | .osDate => osDate
  | .osDifftime => osDifftime
  | .osTime => osTime
  | .withheld _ => fun _ => return #[]

/-- What a function made while running does. -/
def callBound (i : Nat) (args : Args) : Act σ (Array Value) := do
  let b ← Act.readHeap fun h => h.bounds.getD i ⟨.matches, #[]⟩
  match b.kind, b.kept.toList with
  | .matches, _ => nextMatch i b.kept
  | .wrapped, [.thread t] => callWrapped t args
  | _, _ => return #[]

/-- The members of a library that are no functions. -/
def constants : String → List (String × Value)
  | "math" =>
    [("pi", .float pi), ("huge", .float (1.0 / 0.0)), ("maxinteger", .int (Int64.ofInt Value.maxInt)),
     ("mininteger", .int (Int64.ofInt Value.minInt))]
  | "utf8" => [("charpattern", .str charPattern)]
  | _ => []

/-- All members of a library. -/
def members (library : String) : List (String × Value) :=
  let functions := match library with
    | "string" => Builtin.strings
    | "table" => Builtin.tables
    | "math" => Builtin.maths
    | "utf8" => Builtin.texts
    | "coroutine" => Builtin.coroutines
    | "os" => Builtin.systems
    | _ => []
  functions.map (fun (n, b) => (n, .native (.builtin b))) ++ constants library

/-- A table with the given fields. -/
def tableOf (fields : List (String × Value)) : Table :=
  fields.foldl (fun t (k, v) => t.setStr k v) (Table.empty 0 fields.length)

/-- The events of the arithmetic on texts, in the order of their operators. -/
def textEvents : List String := ["__add", "__sub", "__mul", "__mod", "__pow", "__div", "__idiv", "__unm"]

/-- Give all strings a metatable whose index is the given table. -/
def installTexts (h : Heap) (index : Value) : Heap :=
  let fields := textEvents.zipIdx.map fun (e, i) => (e, Value.native (.builtin (.strArith i)))
  let (id, h) := h.newTable (tableOf (("__index", index) :: fields))
  { h with stringMeta := some id }

end ScriptHost.Script.Library

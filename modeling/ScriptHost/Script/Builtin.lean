/-!
# The functions the script language comes with

One constructor for every built-in function, with the name under which a stack trace shows it.
-/

namespace ScriptHost.Script

/-- The built-in functions. -/
inductive Builtin where
  -- base
  | assert | error | getmetatable | ipairs | next | pairs | pcall | rawequal | rawget | rawlen
  | rawset | select | setmetatable | tonumber | tostring | type | xpcall
  -- step functions of iterators
  | ipairsStep | codesStep (strict : Bool)
  -- strings
  | strByte | strChar | strFind | strFormat | strGmatch | strGsub | strLen | strLower | strMatch
  | strPack | strPackSize | strRep | strReverse | strSub | strUnpack | strUpper
  | strArith (op : Nat)
  -- tables
  | tabConcat | tabInsert | tabMove | tabPack | tabRemove | tabSort | tabUnpack
  -- mathematics
  | mathAbs | mathAcos | mathAsin | mathAtan | mathAtan2 | mathCeil | mathCos | mathCosh | mathDeg
  | mathExp | mathFloor | mathFmod | mathFrexp | mathLdexp | mathLog | mathLog10 | mathMax | mathMin
  | mathModf | mathPow | mathRad | mathRandom | mathRandomSeed | mathSin | mathSinh | mathSqrt
  | mathTan | mathTanh | mathToInteger | mathType | mathUlt
  -- text
  | utfChar | utfCodepoint | utfCodes | utfLen | utfOffset
  -- coroutines
  | coClose | coCreate | coIsYieldable | coResume | coRunning | coStatus | coWrap | coYield
  -- clock and calendar
  | osClock | osDate | osDifftime | osTime
  -- what no script is offered; what these functions do is left out
  | withheld (name : String)
  deriving DecidableEq, Repr, Inhabited

namespace Builtin

/-- The members of the base library. -/
def base : List (String × Builtin) :=
  [("assert", assert), ("error", error), ("getmetatable", getmetatable), ("ipairs", ipairs),
   ("next", next), ("pairs", pairs), ("pcall", pcall), ("rawequal", rawequal), ("rawget", rawget),
   ("rawlen", rawlen), ("rawset", rawset), ("select", select), ("setmetatable", setmetatable),
   ("tonumber", tonumber), ("tostring", tostring), ("type", type), ("xpcall", xpcall)]
    ++ ["collectgarbage", "dofile", "load", "loadfile", "print", "warn"].map fun name => (name, withheld name)

/-- The functions of the string library. -/
def strings : List (String × Builtin) :=
  [("byte", strByte), ("char", strChar), ("find", strFind), ("format", strFormat),
   ("gmatch", strGmatch), ("gsub", strGsub), ("len", strLen), ("lower", strLower),
   ("match", strMatch), ("pack", strPack), ("packsize", strPackSize), ("rep", strRep),
   ("reverse", strReverse), ("sub", strSub), ("unpack", strUnpack), ("upper", strUpper),
   ("dump", withheld "dump")]

/-- The functions of the table library. -/
def tables : List (String × Builtin) :=
  [("concat", tabConcat), ("insert", tabInsert), ("move", tabMove), ("pack", tabPack),
   ("remove", tabRemove), ("sort", tabSort), ("unpack", tabUnpack)]

/-- The functions of the mathematics library. -/
def maths : List (String × Builtin) :=
  [("abs", mathAbs), ("acos", mathAcos), ("asin", mathAsin), ("atan", mathAtan),
   ("atan2", mathAtan2), ("ceil", mathCeil), ("cos", mathCos), ("cosh", mathCosh),
   ("deg", mathDeg), ("exp", mathExp), ("floor", mathFloor), ("fmod", mathFmod),
   ("frexp", mathFrexp), ("ldexp", mathLdexp), ("log", mathLog), ("log10", mathLog10),
   ("max", mathMax), ("min", mathMin), ("modf", mathModf), ("pow", mathPow), ("rad", mathRad),
   ("random", mathRandom), ("randomseed", mathRandomSeed), ("sin", mathSin), ("sinh", mathSinh),
   ("sqrt", mathSqrt), ("tan", mathTan), ("tanh", mathTanh), ("tointeger", mathToInteger),
   ("type", mathType), ("ult", mathUlt)]

/-- The functions of the text library. -/
def texts : List (String × Builtin) :=
  [("char", utfChar), ("codepoint", utfCodepoint), ("codes", utfCodes), ("len", utfLen),
   ("offset", utfOffset)]

/-- The functions of the coroutine library. -/
def coroutines : List (String × Builtin) :=
  [("close", coClose), ("create", coCreate), ("isyieldable", coIsYieldable), ("resume", coResume),
   ("running", coRunning), ("status", coStatus), ("wrap", coWrap), ("yield", coYield)]

/-- The functions of the library of the operating system. -/
def systems : List (String × Builtin) :=
  [("clock", osClock), ("date", osDate), ("difftime", osDifftime), ("time", osTime)]
    ++ ["execute", "exit", "getenv", "remove", "rename", "setlocale", "tmpname"].map fun name => (name, withheld name)

/-- The libraries, each with the qualifier that traces put before its members. -/
def qualified : List (String × List (String × Builtin)) :=
  [("", base), ("string.", strings), ("table.", tables), ("math.", maths), ("utf8.", texts),
   ("coroutine.", coroutines), ("os.", systems)]

/-- The name a trace gives to a built-in function, if it is a member of a library. -/
def qualifiedName? (b : Builtin) : Option String :=
  qualified.findSome? fun (q, members) =>
    (members.find? fun (_, f) => f == b).map fun (name, _) => q ++ name

end Builtin

end ScriptHost.Script

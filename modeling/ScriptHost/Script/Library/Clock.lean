import ScriptHost.Calendar
import ScriptHost.Script.Library.Arguments

/-!
# Clock and calendar

The functions that tell the time, as a number of seconds or as a table with the fields of a date.
-/

namespace ScriptHost.Script.Library


variable {σ : Type}

def osClock (_ : Args) : Act σ (Array Value) := do
  return #[.float (← Act.readHeap fun h => Float.ofNat (h.clock - h.started) / 1000)]

def osDifftime (args : Args) : Act σ (Array Value) := do
  let a ← args.integer 1
  let b ← args.integer 2
  return #[.float (Float.ofInt (a.toInt - b.toInt))]

/-- The fields of a date in a table. -/
def dateFields (d : Date) : List (String × Value) :=
  let n (i : Int) : Value := .int (Int64.ofInt i)
  [("year", n d.year), ("month", n (d.month + 1)), ("day", n d.day), ("hour", n d.hour),
   ("min", n d.minute), ("sec", n d.second), ("yday", n (d.yearDay + 1)), ("wday", n (d.weekday + 1)),
   ("isdst", .bool false)]

def osDate (args : Args) : Act σ (Array Value) := do
  let format ← args.textOr 1 (Bytes.ofString "%c")
  let t ← if args.absent 2 then
      Act.readHeap fun h => (h.clock / 1000 : Int)
    else do pure (← args.integer 2).toInt
  let universal := format.byteAt 0 == 33
  let format := if universal then format.extract 1 format.size else format
  let date := Date.ofTime t
  if !date.representable then
    Act.fail "date result cannot be represented in this installation"
  else if format == Bytes.ofString "*t" then
    return #[← Act.newTable ((dateFields date).foldl (fun t (k, v) => t.setStr k v) (Table.empty 0 9))]
  else
    match date.format (if universal then "GMT" else "UTC") (format.size + 1) format.toList ByteArray.empty with
    | .ok s => return #[.str s]
    | .error rest =>
      Act.raise (.argument 1 (Bytes.concat
        [Bytes.ofString "invalid conversion specifier '%", rest.toByteArray, Bytes.ofString "'"]))

/-- A field of a date's table, less an offset; one without a default must be there. -/
def dateField (t : Value) (key : String) (default : Option Int) (offset : Int) : Act σ Int := do
  let v ← Act.index t (.ofString key)
  match v.coerceInt? with
  | some n =>
    let n := n.toInt
    let fits := if 0 ≤ n then decide (n - offset ≤ 0x7FFFFFFF) else decide (-0x80000000 + offset ≤ n)
    if fits then return n - offset else Act.fail ("field '" ++ key ++ "' is out-of-bound")
  | none =>
    match v, default with
    | .nil, some d => return d
    | .nil, none => Act.fail ("field '" ++ key ++ "' missing in date table")
    | _, _ => Act.fail ("field '" ++ key ++ "' is not an integer")

/-- Set the fields of a date's table. -/
def setDateFields (t : Value) : List (String × Value) → Act σ Unit
  | [] => return ()
  | (k, v) :: rest => do
    Act.setIndex t (.ofString k) v
    setDateFields t rest

def osTime (args : Args) : Act σ (Array Value) := do
  if args.absent 1 then
    return #[.int (← Act.readHeap fun h => Int64.ofNat (h.clock / 1000))]
  else
    let t := Value.table (← args.table 1)
    let year ← dateField t "year" none 1900
    let month ← dateField t "month" none 1
    let day ← dateField t "day" none 0
    let hour ← dateField t "hour" (some 12) 0
    let minute ← dateField t "min" (some 0) 0
    let second ← dateField t "sec" (some 0) 0
    let time := Date.toTime { year := year + 1900, month, day, hour, minute, second }
    let date := Date.ofTime time
    setDateFields t (dateFields date)
    if time = -1 || !date.representable then
      Act.fail "time result cannot be represented in this installation"
    else return #[.int (Int64.ofInt time)]

end ScriptHost.Script.Library

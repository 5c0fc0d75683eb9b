import ScriptHost.Text.Bytes
import ScriptHost.Number.Binary
import ScriptHost.Script.Builtin

/-!
# Values of the script language

* `Value`: what a variable holds. Tables, closures, threads and host failures are references into
  the heap; equality of references is equality of objects.
* `Value.rawEq`: equality without metamethods, where an integer equals a float of the same value.
* `Value.typeName`: the word messages use for a value's kind.
-/

namespace ScriptHost.Script

/-- Set an element of an array, if it is there. It is kept apart from its callers so that an array held by a
structure is changed in place. -/
@[noinline] def put {α : Type} (a : Array α) (i : Nat) (x : α) : Array α := a.setIfInBounds i x

/-- Change an element of an array, if it is there. -/
@[noinline] def changeAt {α : Type} (a : Array α) (i : Nat) (f : α → α) : Array α := a.modify i f

/-- A function that is no script code: built in, given by the host, or made while running with
values of its own. -/
inductive NativeRef where
  | builtin (b : Builtin)
  | host (i : Nat)
  | bound (i : Nat)
  deriving DecidableEq, Inhabited

/-- A value of the script language. -/
inductive Value where
  | nil
  | bool (b : Bool)
  | int (n : Int64)
  | float (x : Float)
  /-- Not a number, with a clear sign bit. What arithmetic makes when a result does not exist has the bit set,
  and is a float. -/
  | nan
  | str (s : Bytes)
  | table (id : Nat)
  | closure (id : Nat)
  | native (f : NativeRef)
  | thread (id : Nat)
  /-- A failure that the host raised, carried through the script as an object. -/
  | failure (id : Nat)
  deriving DecidableEq, Inhabited

namespace Value

/-- A string value from a text. -/
@[inline] def ofString (s : String) : Value := .str (Bytes.ofString s)

/-- An integer value from a natural number, taken modulo `2 ^ 64`. -/
@[inline] def ofNat (n : Nat) : Value := .int (Int64.ofNat n)

/-- The float with the given bits. -/
def ofBits (bits : UInt64) : Value :=
  let x := Float.ofBits bits
  if x.isNaN && bits < 0x8000000000000000 then .nan else .float x

/-- The float that the bits of a number of half the size give. -/
def ofSingleBits (bits : UInt32) : Value :=
  let x := (Float32.ofBits bits).toFloat
  if x.isNaN && bits < 0x80000000 then .nan else .float x

/-- Everything but `nil` and `false` counts as true. -/
@[inline] def truthy : Value → Bool
  | .nil => false
  | .bool b => b
  | _ => true

@[inline] def isNil : Value → Bool
  | .nil => true
  | _ => false

/-- Integers and floats. -/
@[inline] def isNumber : Value → Bool
  | .int _ | .float _ | .nan => true
  | _ => false

/-- The word for a value's kind. -/
def typeName : Value → String
  | .nil => "nil"
  | .bool _ => "boolean"
  | .int _ | .float _ | .nan => "number"
  | .str _ => "string"
  | .table _ => "table"
  | .closure _ | .native _ => "function"
  | .thread _ => "thread"
  | .failure _ => "userdata"

/-- Equality of values of the same kind: an integer never equals a float here. -/
def same : Value → Value → Bool
  | .nil, .nil => true
  | .bool a, .bool b => a == b
  | .int a, .int b => a == b
  | .float a, .float b => a == b
  | .str a, .str b => a == b
  | .table a, .table b => a == b
  | .closure a, .closure b => a == b
  | .native a, .native b => a == b
  | .thread a, .thread b => a == b
  | .failure a, .failure b => a == b
  | _, _ => false

/-- A number for hashing: equal values of one kind have equal numbers. -/
def hashCode : Value → UInt64
  | .nil => 1
  | .bool b => if b then 3 else 5
  | .int n => hash n.toUInt64
  | .float x => hash x.toBits
  | .nan => 7
  | .str s => hash s
  | .table i => mixHash 11 (hash i)
  | .closure i => mixHash 13 (hash i)
  | .native (.builtin b) => mixHash 17 (hash b.ctorIdx)
  | .native (.host i) => mixHash 19 (hash i)
  | .native (.bound i) => mixHash 23 (hash i)
  | .thread i => mixHash 29 (hash i)
  | .failure i => mixHash 31 (hash i)

instance : Hashable Value := ⟨hashCode⟩

/-- The least 64-bit integer. -/
def minInt : Int := -0x8000000000000000

/-- The greatest 64-bit integer. -/
def maxInt : Int := 0x7FFFFFFFFFFFFFFF

/-- An integer that fits 64 bits. -/
def fits (n : Int) : Bool := decide (minInt ≤ n) && decide (n ≤ maxInt)

/-- The integer that a float equals, if it fits 64 bits. -/
def floatToInt? (x : Float) : Option Int64 :=
  match Binary.integer? x with
  | some n => if fits n then some (Int64.ofInt n) else none
  | none => none

/-- Equality without metamethods; an integer equals a float of the same value. -/
def rawEq : Value → Value → Bool
  | .int a, .float b => floatToInt? b == some a
  | .float a, .int b => floatToInt? a == some b
  | a, b => same a b

/-- The form under which a table files a key: a float that is an integer files as that integer. -/
@[inline] def asKey : Value → Value
  | .float x => match floatToInt? x with
    | some n => .int n
    | none => .float x
  | v => v

end Value

end ScriptHost.Script

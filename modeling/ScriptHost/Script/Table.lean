import Std.Data.HashMap
import ScriptHost.Script.Value

/-!
# Tables

A table files values under keys. Positive integer keys that lie dense enough are kept in an array,
all others in a list of entries in the order of their insertion, found through an index. How dense is
dense enough decides what the length of a table with gaps is, so the two parts follow one rule: when a
new key finds the entries full, both parts are sized anew, the array to the largest power of two more
than half of whose positions are in use.

* `Table.get`, `Table.set`: reading and writing one key.
* `Table.border`: the length.
* `Table.next`: the traversal order, the array first.
-/

namespace ScriptHost.Script

/-- A table: its array part, its entries with their index, and its metatable. -/
structure Table where
  array : Array Value := #[]
  /-- Where the search for the length starts; never beyond the array's end. -/
  hint : Nat := 0
  entries : Array (Value × Value) := #[]
  index : Std.HashMap Value Nat := {}
  /-- How many entries fit before both parts are sized anew. -/
  capacity : Nat := 0
  metatable : Option Nat := none
  deriving Inhabited

namespace Table

/-- The least power of two not below `n`. -/
def powerAbove (n : Nat) : Nat := if n ≤ 1 then 1 else Nat.pow 2 (Nat.log2 (n - 1) + 1)

/-- An empty table with room for the given numbers of array positions and entries. -/
def empty (arraySize entryCount : Nat) : Table :=
  { array := Array.replicate arraySize .nil
    hint := arraySize
    capacity := if entryCount = 0 then 0 else powerAbove entryCount }

/-- The position in the array of a key that belongs there. -/
@[inline] def arraySlot? (size : Nat) (n : Int64) : Option Nat :=
  if 0 < n then
    let i := n.toUInt64.toNat
    if i ≤ size then some (i - 1) else none
  else none

/-- The entry under a key, `nil` if there is none. -/
@[inline] def lookup (t : Table) (k : Value) : Value :=
  match t.index[k]? with
  | some i => (t.entries.getD i (.nil, .nil)).2
  | none => .nil

/-- The value under an integer key. -/
@[inline] def getInt (t : Table) (n : Int64) : Value :=
  match arraySlot? t.array.size n with
  | some i => t.array.getD i .nil
  | none => t.lookup (.int n)

/-- The value under a string key. -/
@[inline] def getStr (t : Table) (s : Bytes) : Value := t.lookup (.str s)

/-- The value under a key. -/
def get (t : Table) (k : Value) : Value :=
  match k.asKey with
  | .int n => t.getInt n
  | .nil => .nil
  | k => t.lookup k

/-- Which power of two a positive position belongs to: the least `i` with `n ≤ 2 ^ i`. -/
def slice (n : Nat) : Nat := if n ≤ 1 then 0 else Nat.log2 (n - 1) + 1

/-- Count a position in its slice. -/
def countPosition (counts : Array Nat) (n : Nat) : Array Nat := counts.modify (slice n) (· + 1)

/-- A positive integer key, as a position. -/
def position? : Value → Option Nat
  | .int n => if 0 < n then some n.toUInt64.toNat else none
  | _ => none

/-- Choose the array's size from the number of used positions per slice: try ever larger powers of two
while `total` could still fill more than half, keep the last that is filled more than half. Gives the
size and how many positions it takes in. -/
def arraySizeLoop (counts : Array Nat) (total : Nat) : Nat → Nat → Nat → Nat × Nat → Nat × Nat
  | 0, _, _, best => best
  | fuel + 1, i, seen, best =>
    if total ≤ Nat.pow 2 i / 2 then best
    else
      let seen := seen + counts.getD i 0
      arraySizeLoop counts total fuel (i + 1) seen
        (if Nat.pow 2 i / 2 < seen then (Nat.pow 2 i, seen) else best)

/-- Note the place of a key's entry. -/
@[noinline] def noteEntry (index : Std.HashMap Value Nat) (k : Value) (place : Nat) :
    Std.HashMap Value Nat :=
  index.insert k place

/-- File a pair as a new entry, or in the array when it belongs there. -/
def place (t : Table) (k v : Value) : Table :=
  let asEntry (t : Table) : Table :=
    { t with index := noteEntry t.index k t.entries.size, entries := t.entries.push (k, v) }
  match k with
  | .int n =>
    match arraySlot? t.array.size n with
    | some i => { t with array := put t.array i v }
    | none => asEntry t
  | _ => asEntry t

/-- The same pairs in an array of the given size and room for the given number of entries. -/
def resize (t : Table) (arraySize entryCount : Nat) : Table :=
  let kept := t.array.extract 0 arraySize
  let fresh : Table :=
    { empty arraySize entryCount with
      array := kept ++ Array.replicate (arraySize - kept.size) .nil
      metatable := t.metatable }
  let spilled := (List.range (t.array.size - kept.size)).foldl (fun acc i =>
    match t.array.getD (kept.size + i) .nil with
    | .nil => acc
    | v => place acc (.ofNat (kept.size + i + 1)) v) fresh
  t.entries.foldl (fun acc (k, v) => if v.isNil then acc else place acc k v) spilled

/-- Size both parts anew so that one more pair with the key `k` fits. -/
def rehash (t : Table) (k : Value) : Table :=
  let counts : Array Nat := Array.replicate 65 0
  let (counts, inArray, _) := t.array.foldl (fun (counts, n, pos) v =>
    if v.isNil then (counts, n, pos + 1) else (countPosition counts pos, n + 1, pos + 1)) (counts, 0, 1)
  let (counts, keys, total) := t.entries.foldl (fun (counts, keys, total) (k, v) =>
    if v.isNil then (counts, keys, total)
    else match position? k with
      | some p => (countPosition counts p, keys + 1, total + 1)
      | none => (counts, keys, total + 1)) (counts, inArray, inArray)
  let (counts, keys) := match position? k with
    | some p => (countPosition counts p, keys + 1)
    | none => (counts, keys)
  let (size, taken) := arraySizeLoop counts keys 64 0 0 (0, 0)
  t.resize size (total + 1 - taken)

/-- File a value under a key that has no place yet. -/
def insertNew (t : Table) (k v : Value) : Table :=
  if v.isNil then t
  else if t.entries.size < t.capacity then place t k v
  else place (rehash t k) k v

/-- File a value under a key, which is neither `nil` nor no number. -/
def set (t : Table) (key v : Value) : Table :=
  let k := key.asKey
  let filed (t : Table) : Table :=
    match t.index[k]? with
    | some i => { t with entries := put t.entries i (k, v) }
    | none => insertNew t k v
  match k with
  | .int n =>
    match arraySlot? t.array.size n with
    | some i => { t with array := put t.array i v }
    | none => filed t
  | _ => filed t

/-- File a value under a text. -/
@[inline] def setStr (t : Table) (s : String) (v : Value) : Table := t.set (.ofString s) v

/-- Between a used position `i` (or zero) and an unused one `j`, a used position whose successor is
unused. -/
def borderBetween (used : Nat → Bool) : Nat → Nat → Nat → Nat
  | 0, i, _ => i
  | fuel + 1, i, j =>
    if j - i ≤ 1 then i
    else
      let m := (i + j) / 2
      if used m then borderBetween used fuel m j else borderBetween used fuel i m

/-- Double a used position until an unused one is met, then search between the two. -/
def borderBeyond (used : Nat → Bool) : Nat → Nat → Nat
  | 0, i => i
  | fuel + 1, i =>
    if i ≤ 0x3FFFFFFFFFFFFFFF then
      if used (2 * i) then borderBeyond used fuel (2 * i) else borderBetween used 64 i (2 * i)
    else if used 0x7FFFFFFFFFFFFFFF then 0x7FFFFFFFFFFFFFFF
    else borderBetween used 64 i 0x7FFFFFFFFFFFFFFF

/-- A position whose value is not `nil`, counted from one. -/
def used (t : Table) (i : Nat) : Bool := !(t.getInt (Int64.ofNat i)).isNil

/-- The length of a table: a used position (or zero) whose successor is unused. The table comes back
with its search hint moved. -/
def border (t : Table) : Nat × Table :=
  let size := t.array.size
  let inUse (i : Nat) : Bool := !(t.array.getD (i - 1) .nil).isNil
  let limit := t.hint
  let beyond : Nat :=
    if t.entries.isEmpty || !t.used (size + 1) then size
    else borderBeyond t.used 64 (size + 1 - (if size = 0 then 0 else 1))
  let moved (n : Nat) : Nat × Table :=
    if powerAbove size = size && size / 2 < n then (n, { t with hint := n }) else (n, t)
  if 0 < limit && !inUse limit then
    if 2 ≤ limit && inUse (limit - 1) then moved (limit - 1)
    else moved (borderBetween inUse 64 0 limit)
  else if limit < size then
    if !inUse (limit + 1) then (limit, t)
    else if !inUse size then
      let n := borderBetween inUse 64 limit size
      (n, { t with hint := n })
    else (beyond, t)
  else (beyond, t)

/-- The first pair at or after a place of the traversal. -/
def pairFrom (t : Table) : Nat → Nat → Option (Value × Value)
  | 0, _ => none
  | fuel + 1, i =>
    if i < t.array.size then
      match t.array.getD i .nil with
      | .nil => pairFrom t fuel (i + 1)
      | v => some (.ofNat (i + 1), v)
    else if i < t.array.size + t.entries.size then
      match t.entries.getD (i - t.array.size) (.nil, .nil) with
      | (_, .nil) => pairFrom t fuel (i + 1)
      | p => some p
    else none

/-- The place after a key in the traversal; `none` if the key is not in the table. -/
def placeAfter (t : Table) (k : Value) : Option Nat :=
  match k.asKey with
  | .nil => some 0
  | .int n =>
    match arraySlot? t.array.size n with
    | some i => some (i + 1)
    | none => t.index[Value.int n]?.map fun i => t.array.size + i + 1
  | k => t.index[k]?.map fun i => t.array.size + i + 1

/-- The pair after a key, `none` inside at the end; the outer `none` if the key is not in the table. -/
def next (t : Table) (k : Value) : Option (Option (Value × Value)) :=
  (t.placeAfter k).map fun i => t.pairFrom (t.array.size + t.entries.size + 1) i

/-- Make room for at least so many array positions. -/
def growArray (t : Table) (n : Nat) : Table :=
  if t.array.size < n then t.resize n t.capacity else t

end Table

end ScriptHost.Script

import ScriptHost.Script.Numeral

/-!
# Patterns

A pattern is a byte string whose items match one byte each or a run of them, with captures, balanced pairs
and borders. Matching backtracks; a single item takes as much as it can unless it says otherwise.

* `Pattern.matchAt`: match a pattern at one place of a text.
* `Pattern.Found`: a match with its captures.
-/

namespace ScriptHost.Script.Pattern

/-- What a capture has taken so far. -/
inductive Extent where
  /-- Not closed yet. -/
  | unfinished
  /-- Only the place counts. -/
  | position
  | length (n : Nat)
  deriving DecidableEq, Inhabited

/-- A capture: where it begins and what it has taken. -/
structure Capture where
  start : Nat
  extent : Extent
  deriving Inhabited

/-- The captures of a match, the first one first. -/
abbrev Captures := Array Capture

/-- A text and the pattern it is matched with. -/
structure Subject where
  text : Bytes
  pattern : Bytes

/-- The byte that makes the next one special. -/
def escape : UInt8 := 37

def isAlpha (b : UInt8) : Bool := (65 ≤ b && b ≤ 90) || (97 ≤ b && b ≤ 122)

def isUpper (b : UInt8) : Bool := 65 ≤ b && b ≤ 90

def isLower (b : UInt8) : Bool := 97 ≤ b && b ≤ 122

def isControl (b : UInt8) : Bool := b < 32 || b == 127

def isGraphic (b : UInt8) : Bool := 32 < b && b < 127

def isAlnum (b : UInt8) : Bool := isAlpha b || Numeral.isDigit b

def isPunct (b : UInt8) : Bool := isGraphic b && !isAlnum b

/-- A letter in lower case. -/
def toLower (b : UInt8) : UInt8 := if isUpper b then b + 32 else b

/-- A letter in upper case. -/
def toUpper (b : UInt8) : UInt8 := if isLower b then b - 32 else b

/-- A byte belongs to the class named by a letter; the letter in upper case names the complement, and any
other byte only itself. -/
def inClass (c cl : UInt8) : Bool :=
  let member : Option Bool := match toLower cl with
    | 97 => some (isAlpha c)
    | 99 => some (isControl c)
    | 100 => some (Numeral.isDigit c)
    | 103 => some (isGraphic c)
    | 108 => some (isLower c)
    | 112 => some (isPunct c)
    | 115 => some (Numeral.isSpace c)
    | 117 => some (isUpper c)
    | 119 => some (isAlnum c)
    | 120 => some (Numeral.isHexDigit c)
    | 122 => some (c == 0)
    | _ => none
  match member with
  | some b => if isUpper cl then !b else b
  | none => cl == c

/-- The end of a set, searched for from `i` on; at least one item comes before it. -/
def setEnd (p : Bytes) : Nat → Nat → Except String Nat
  | 0, _ => .error "malformed pattern (missing ']')"
  | fuel + 1, i =>
    if p.size ≤ i then .error "malformed pattern (missing ']')"
    else
      let next := if p.byteAt i == escape && i + 1 < p.size then i + 2 else i + 1
      if p.byteAt next == 93 && next < p.size then .ok (next + 1) else setEnd p fuel next

/-- The end of the item that begins at `i`. -/
def itemEnd (p : Bytes) (i : Nat) : Except String Nat :=
  let c := p.byteAt i
  if c == escape then
    if p.size ≤ i + 1 then .error "malformed pattern (ends with '%')" else .ok (i + 2)
  else if c == 91 then setEnd p p.size (if p.byteAt (i + 1) == 94 then i + 2 else i + 1)
  else .ok (i + 1)

/-- A byte belongs to one of the members of a set that lie from `i` on and before its end. -/
def inMembers (p : Bytes) (c : UInt8) (last : Nat) : Nat → Nat → Bool
  | 0, _ => false
  | fuel + 1, i =>
    if last ≤ i then false
    else if p.byteAt i == escape then inClass c (p.byteAt (i + 1)) || inMembers p c last fuel (i + 2)
    else if p.byteAt (i + 1) == 45 && i + 2 < last then
      (p.byteAt i ≤ c && c ≤ p.byteAt (i + 2)) || inMembers p c last fuel (i + 3)
    else p.byteAt i == c || inMembers p c last fuel (i + 1)

/-- A byte belongs to the set between `i` and its closing bracket at `last`. -/
def inSet (p : Bytes) (c : UInt8) (i last : Nat) : Bool :=
  if p.byteAt (i + 1) == 94 then !inMembers p c last p.size (i + 2)
  else inMembers p c last p.size (i + 1)

/-- The byte at `s` matches the single item from `i` to `e`. -/
def matchesItem (u : Subject) (s i e : Nat) : Bool :=
  if u.text.size ≤ s then false
  else
    let c := u.text.byteAt s
    let x := u.pattern.byteAt i
    if x == 46 then true
    else if x == escape then inClass c (u.pattern.byteAt (i + 1))
    else if x == 91 then inSet u.pattern c i (e - 1)
    else x == c

/-- The end of a balanced run that began before `s`, with `depth` pairs open. -/
def balancedEnd (text : Bytes) (opening closing : UInt8) : Nat → Nat → Nat → Option Nat
  | 0, _, _ => none
  | fuel + 1, s, depth =>
    if text.size ≤ s then none
    else
      let c := text.byteAt s
      if c == closing then
        if depth == 1 then some (s + 1) else balancedEnd text opening closing fuel (s + 1) (depth - 1)
      else balancedEnd text opening closing fuel (s + 1) (if c == opening then depth + 1 else depth)

/-- How many places from `s` on match a single item in a row. -/
def runLength (u : Subject) (i e : Nat) : Nat → Nat → Nat
  | 0, _ => 0
  | fuel + 1, s => if matchesItem u s i e then runLength u i e fuel (s + 1) + 1 else 0

/-- The last capture that is not closed, counted down from `n`. -/
def openCapture (cs : Captures) : Nat → Option Nat
  | 0 => none
  | n + 1 => if (cs.getD n default).extent == .unfinished then some n else openCapture cs n

/-- How many captures a pattern may have. -/
def maxCaptures : Nat := 32

/-- How deep matching may nest. -/
def maxNesting : Nat := 200

/-- A match: where it ends, and its captures. -/
abbrev Result := Except String (Option (Nat × Captures))

mutual

/-- Match the pattern from `p` on with the text from `s` on. -/
def matchFrom (u : Subject) : Nat → Nat → Nat → Nat → Captures → Result
  | 0, _, _, _, _ => .error "pattern too complex"
  | _ + 1, 0, _, _, _ => .error "pattern too complex"
  | fuel + 1, depth + 1, s, p, cs =>
    if u.pattern.size ≤ p then .ok (some (s, cs))
    else
      let c := u.pattern.byteAt p
      let c1 := u.pattern.byteAt (p + 1)
      if c == 40 then
        if maxCaptures ≤ cs.size then .error "too many captures"
        else if c1 == 41 then matchFrom u fuel depth s (p + 2) (cs.push ⟨s, .position⟩)
        else matchFrom u fuel depth s (p + 1) (cs.push ⟨s, .unfinished⟩)
      else if c == 41 then
        match openCapture cs cs.size with
        | none => .error "invalid pattern capture"
        | some l =>
          matchFrom u fuel depth s (p + 1) (cs.modify l fun x => { x with extent := .length (s - x.start) })
      else if c == 36 && p + 1 == u.pattern.size then
        .ok (if s == u.text.size then some (s, cs) else none)
      else if c == escape && c1 == 98 then
        if u.pattern.size ≤ p + 3 then .error "malformed pattern (missing arguments to '%b')"
        else if u.text.size ≤ s || u.text.byteAt s != u.pattern.byteAt (p + 2) then .ok none
        else
          match balancedEnd u.text (u.pattern.byteAt (p + 2)) (u.pattern.byteAt (p + 3)) u.text.size (s + 1) 1 with
          | none => .ok none
          | some e => matchFrom u fuel (depth + 1) e (p + 4) cs
      else if c == escape && c1 == 102 then
        if u.pattern.byteAt (p + 2) != 91 || u.pattern.size ≤ p + 2 then
          .error "missing '[' after '%f' in pattern"
        else
          match itemEnd u.pattern (p + 2) with
          | .error e => .error e
          | .ok e =>
            let before := if s = 0 then 0 else u.text.byteAt (s - 1)
            if !inSet u.pattern before (p + 2) (e - 1) && inSet u.pattern (u.text.byteAt s) (p + 2) (e - 1) then
              matchFrom u fuel (depth + 1) s e cs
            else .ok none
      else if c == escape && Numeral.isDigit c1 then
        let l := c1.toNat - 48
        let capture := if l = 0 then none else cs[l - 1]?
        match capture with
        | some ⟨start, .length n⟩ =>
          if s + n ≤ u.text.size && u.text.occursAt (u.text.extract start (start + n)) s then
            matchFrom u fuel (depth + 1) (s + n) (p + 2) cs
          else .ok none
        | some ⟨_, .position⟩ => .ok none
        | _ => .error ("invalid capture index %" ++ toString l)
      else
        match itemEnd u.pattern p with
        | .error e => .error e
        | .ok e =>
          let suffix := if e < u.pattern.size then u.pattern.byteAt e else 0
          if !matchesItem u s p e then
            if suffix == 42 || suffix == 63 || suffix == 45 then
              matchFrom u fuel (depth + 1) s (e + 1) cs
            else .ok none
          else if suffix == 63 then
            match matchFrom u fuel depth (s + 1) (e + 1) cs with
            | .ok none => matchFrom u fuel (depth + 1) s (e + 1) cs
            | r => r
          else if suffix == 43 then
            longest u fuel depth (s + 1) (e + 1) (runLength u p e u.text.size (s + 1)) cs
          else if suffix == 42 then
            longest u fuel depth s (e + 1) (runLength u p e u.text.size s) cs
          else if suffix == 45 then shortest u fuel depth s p e cs
          else matchFrom u fuel (depth + 1) (s + 1) e cs
termination_by structural fuel => fuel

/-- Match the rest of the pattern after as many of `count` bytes as possible. -/
def longest (u : Subject) : Nat → Nat → Nat → Nat → Nat → Captures → Result
  | 0, _, _, _, _, _ => .error "pattern too complex"
  | fuel + 1, depth, s, p, count, cs =>
    match matchFrom u fuel depth (s + count) p cs with
    | .ok none => if count = 0 then .ok none else longest u fuel depth s p (count - 1) cs
    | r => r
termination_by structural fuel => fuel

/-- Match the rest of the pattern after as few bytes as possible. -/
def shortest (u : Subject) : Nat → Nat → Nat → Nat → Nat → Captures → Result
  | 0, _, _, _, _, _ => .error "pattern too complex"
  | fuel + 1, depth, s, p, e, cs =>
    match matchFrom u fuel depth s (e + 1) cs with
    | .ok none => if matchesItem u s p e then shortest u fuel depth (s + 1) p e cs else .ok none
    | r => r
termination_by structural fuel => fuel

end

/-- Match a pattern from its place `p` on at one place of a text. -/
def matchAt (u : Subject) (s p : Nat) : Result :=
  matchFrom u ((u.pattern.size + 1) * (u.text.size + 4) + 16) maxNesting s p #[]

/-- A match: its range and its captures. -/
structure Found where
  start : Nat
  stop : Nat
  captures : Captures

/-- The first match at or after `s`; the search goes no further than `fuel` places. -/
def search (u : Subject) (p : Nat) (accept : Nat → Bool) : Nat → Nat → Except String (Option Found)
  | 0, _ => .ok none
  | fuel + 1, s =>
    if u.text.size < s then .ok none
    else
      match matchAt u s p with
      | .error e => .error e
      | .ok (some (e, cs)) => if accept e then .ok (some ⟨s, e, cs⟩) else search u p accept fuel (s + 1)
      | .ok none => search u p accept fuel (s + 1)

/-- The value of a capture; the first one of a match without any is the whole match. -/
def Found.capture (text : Bytes) (f : Found) (l : Nat) : Except String Value :=
  match f.captures[l]? with
  | none =>
    if l = 0 then .ok (.str (text.extract f.start f.stop))
    else .error ("invalid capture index %" ++ toString (l + 1))
  | some ⟨_, .unfinished⟩ => .error "unfinished capture"
  | some ⟨start, .position⟩ => .ok (.ofNat (start + 1))
  | some ⟨start, .length n⟩ => .ok (.str (text.extract start (start + n)))

/-- The values of all captures; a match without any gives the whole match if `whole`. -/
def Found.captureValues (text : Bytes) (f : Found) (whole : Bool) : Except String (Array Value) :=
  let count := if f.captures.isEmpty && whole then 1 else f.captures.size
  (List.range count).foldlM (fun acc l => (f.capture text l).map acc.push) #[]

/-- The pattern has no special bytes. -/
def isPlain (p : Bytes) : Bool :=
  p.toList.all fun b => !(#[94, 36, 42, 43, 63, 46, 40, 91, 37, 45] : Array UInt8).contains b

/-- A replacement text with its references filled in, from `i` on. -/
def fillReferences (text repl : Bytes) (f : Found) : Nat → Nat → Bytes → Except String Bytes
  | 0, _, acc => .ok acc
  | fuel + 1, i, acc =>
    if repl.size ≤ i then .ok acc
    else
      let c := repl.byteAt i
      if c != escape then fillReferences text repl f fuel (i + 1) (acc.push c)
      else
        let d := repl.byteAt (i + 1)
        if d == escape && i + 1 < repl.size then fillReferences text repl f fuel (i + 2) (acc.push d)
        else if d == 48 then
          fillReferences text repl f fuel (i + 2) (acc.append (text.extract f.start f.stop))
        else if Numeral.isDigit d then
          match f.capture text (d.toNat - 49) with
          | .error e => .error e
          | .ok v => fillReferences text repl f fuel (i + 2) (acc.append (v.toText?.getD ByteArray.empty))
        else .error "invalid use of '%' in replacement string"

end ScriptHost.Script.Pattern

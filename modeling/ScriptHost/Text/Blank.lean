/-!
# Trimming and searching texts

* `Text.isBlank`: the characters that count as white space.
* `Text.lines`: a text cut at its line ends.
* `Text.splitAt?`: a text cut before the first place where another occurs.
-/

namespace ScriptHost.Text

/-- White space, as the standard for characters lists it. -/
def isBlank (c : Char) : Bool :=
  let n := c.toNat
  (9 ≤ n && n ≤ 13) || n == 32 || n == 0x85 || n == 0xA0 || n == 0x1680 || (0x2000 ≤ n && n ≤ 0x200A)
    || n == 0x2028 || n == 0x2029 || n == 0x202F || n == 0x205F || n == 0x3000

/-- A text without white space at its start. -/
def trimStart (s : String) : String := String.ofList (s.toList.dropWhile isBlank)

/-- A text without white space at its end. -/
def trimEnd (s : String) : String := String.ofList (s.toList.reverse.dropWhile isBlank).reverse

/-- A text without white space at either end. -/
def trim (s : String) : String := trimEnd (trimStart s)

/-- The lines of a list of characters; `line` holds the current one in reverse. A line ends at a line
feed, which may have a carriage return before it; nothing follows the last line feed. -/
def linesOf : List Char → List Char → List String
  | [], [] => []
  | [], line => [String.ofList line.reverse]
  | '\n' :: rest, '\r' :: line => String.ofList line.reverse :: linesOf rest []
  | '\n' :: rest, line => String.ofList line.reverse :: linesOf rest []
  | c :: rest, line => linesOf rest (c :: line)

/-- The lines of a text. -/
def lines (s : String) : List String := linesOf s.toList []

/-- Cut before the first place where `needle` starts; `before` holds what was passed, in reverse. -/
def splitAtFrom (needle : List Char) : List Char → List Char → Option (List Char × List Char)
  | [], before => if needle.isEmpty then some (before.reverse, []) else none
  | c :: rest, before =>
    if needle.isPrefixOf (c :: rest) then some (before.reverse, c :: rest)
    else splitAtFrom needle rest (c :: before)

/-- A text cut before the first place where `needle` occurs. -/
def splitAt? (s needle : String) : Option (String × String) :=
  (splitAtFrom needle.toList s.toList []).map fun (a, b) => (String.ofList a, String.ofList b)

/-- One text occurs in another. -/
def contains (s needle : String) : Bool := (splitAt? s needle).isSome

/-- Remove a text from the start as often as it stands there. -/
def dropRepeated (start : List Char) : Nat → List Char → List Char
  | 0, s => s
  | fuel + 1, s =>
    if !start.isEmpty && start.isPrefixOf s then dropRepeated start fuel (s.drop start.length) else s

/-- A text without any number of copies of `start` at its start. -/
def trimStartMatches (s start : String) : String :=
  String.ofList (dropRepeated start.toList s.length s.toList)

/-- A text without any number of the given character at its start. -/
def trimStartChar (s : String) (c : Char) : String := String.ofList (s.toList.dropWhile (· == c))

/-- A text without any number of the given character at its end. -/
def trimEndChar (s : String) (c : Char) : String :=
  String.ofList (s.toList.reverse.dropWhile (· == c)).reverse

/-- Texts with another between them. -/
def join (separator : String) : List String → String
  | [] => ""
  | [s] => s
  | s :: rest => s ++ separator ++ join separator rest

end ScriptHost.Text

import ScriptHost.Proofs.Text.Lines
import ScriptHost.Proofs.Text.Utf8
import ScriptHost.Settings.Basic

/-!
# The texts of JSON

Every way in which JSON can write a value, apart from how it is read:

* `Glyph`, `spelled`, `characters?` — a text as it is written, with or without escapes, and the characters it stands for;
* `Number` — a number as it is written;
* `Value`, `Value.tokens` — a value, and the tokens it is made of, from the first to the last;
* `Spaced` — characters that are some tokens with white space before, between and behind them;
* **`Spaced.split`**, `Spaced.append` — such characters can be cut at every line feed;
* **`Spaced.lines`**, **`Spaced.not_isComment`** — the lines of such a text are no comments, and joined again they
  are a text of the same tokens.
-/

namespace ScriptHost.Json

/-! ### Texts as they are written -/

/-- A hexadecimal digit, in capitals or not. -/
structure HexDigit where
  value : Fin 16
  capital : Bool := false
  deriving DecidableEq

/-- A digit as it is written. -/
def HexDigit.char (h : HexDigit) : Char := if h.capital then (Nat.digitChar h.value).toUpper else Nat.digitChar h.value

/-- A unit of UTF-16 in four digits. -/
structure Unit16 where
  a : HexDigit
  b : HexDigit
  c : HexDigit
  d : HexDigit
  deriving DecidableEq

namespace Unit16

/-- The unit of a number in small letters. -/
def ofNat (n : Nat) : Unit16 :=
  ⟨⟨⟨n / 4096 % 16, Nat.mod_lt _ (by decide)⟩, false⟩, ⟨⟨n / 256 % 16, Nat.mod_lt _ (by decide)⟩, false⟩,
    ⟨⟨n / 16 % 16, Nat.mod_lt _ (by decide)⟩, false⟩, ⟨⟨n % 16, Nat.mod_lt _ (by decide)⟩, false⟩⟩

variable (u : Unit16)

def value : Nat := ((u.a.value.val * 16 + u.b.value) * 16 + u.c.value) * 16 + u.d.value

/-- The first unit of two that make a character together. -/
def isHigh : Bool := 0xD800 ≤ u.value && u.value ≤ 0xDBFF

/-- The second unit of two. -/
def isLow : Bool := 0xDC00 ≤ u.value && u.value ≤ 0xDFFF

/-- The character that two units make together. -/
def pair (low : Unit16) : Char := Char.ofNat ((u.value - 0xD800) * 1024 + (low.value - 0xDC00) + 0x10000)

end Unit16

/-- The characters that have an escape of one letter. -/
inductive Escape where
  | quote
  | backslash
  | slash
  | backspace
  | formFeed
  | lineFeed
  | carriageReturn
  | tab
  deriving DecidableEq

namespace Escape

/-- The letter behind the backslash. -/
def letter : Escape → Char
  | .quote => '"'
  | .backslash => '\\'
  | .slash => '/'
  | .backspace => 'b'
  | .formFeed => 'f'
  | .lineFeed => 'n'
  | .carriageReturn => 'r'
  | .tab => 't'

/-- What it stands for. -/
def char : Escape → Char
  | .quote => '"'
  | .backslash => '\\'
  | .slash => '/'
  | .backspace => '\x08'
  | .formFeed => '\x0c'
  | .lineFeed => '\n'
  | .carriageReturn => '\r'
  | .tab => '\t'

end Escape

/-- A character that need not be escaped. -/
def isUnescaped (c : Char) : Bool := 32 ≤ c.toNat && c ≠ '"' && c ≠ '\\'

/-- A part of a text as it is written. -/
inductive Glyph where
  | plain (c : Char) (hc : isUnescaped c = true)
  | escape (e : Escape)
  | unit (u : Unit16)

/-- A part as it is written. -/
def Glyph.chars : Glyph → List Char
  | .plain c _ => [c]
  | .escape e => ['\\', e.letter]
  | .unit u => ['\\', 'u', u.a.char, u.b.char, u.c.char, u.d.char]

/-- A text as it is written, without its quotes. -/
def spelled (gs : List Glyph) : List Char := gs.flatMap Glyph.chars

/-- The characters that a text stands for; there are none if a unit that needs another one stands alone. -/
def characters? : List Glyph → Option (List Char)
  | [] => some []
  | .plain c _ :: rest => (characters? rest).map (c :: ·)
  | .escape e :: rest => (characters? rest).map (e.char :: ·)
  | .unit u :: rest =>
    if u.isLow then none
    else if u.isHigh then
      match rest with
      | .unit v :: rest => if v.isLow then (characters? rest).map (u.pair v :: ·) else none
      | _ => none
    else (characters? rest).map (Char.ofNat u.value :: ·)

/-! ### Numbers as they are written -/

/-- An exponent: its letter, its sign, if there is one, and its digits. -/
structure Exponent where
  capital : Bool
  isNegative : Option Bool
  first : Fin 10
  rest : List (Fin 10)

/-- A number: its sign, a natural number without needless zeros, a fraction, and an exponent. -/
structure Number where
  isNegative : Bool := false
  whole : Nat
  /-- The digits behind the point; without any there is no point. -/
  fraction : List (Fin 10) := []
  exponent : Option Exponent := none

/-- Digits as they are written. -/
def digitChars (ds : List (Fin 10)) : List Char := ds.map fun d : Fin 10 => Nat.digitChar d.val

/-- An exponent as it is written. -/
def Exponent.chars (e : Exponent) : List Char :=
  (if e.capital then 'E' else 'e') ::
    ((match e.isNegative with | none => [] | some true => ['-'] | some false => ['+']) ++ digitChars (e.first :: e.rest))

namespace Number

/-- A fraction as it is written. -/
def fractionChars (n : Number) : List Char := if n.fraction = [] then [] else '.' :: digitChars n.fraction

/-- An exponent as it is written, if there is one. -/
def exponentChars (n : Number) : List Char := n.exponent.elim [] Exponent.chars

/-- A number as it is written. -/
def chars (n : Number) : List Char :=
  (if n.isNegative then ['-'] else []) ++ ((toString n.whole).toList ++ (n.fractionChars ++ n.exponentChars))

end Number

/-! ### Values -/

/-- A value. -/
inductive Value where
  | null
  | truth (b : Bool)
  | number (n : Number)
  | text (gs : List Glyph)
  | list (vs : List Value)
  | object (ms : List (List Glyph × Value))

/-- A member of an object: its key and its value. -/
abbrev Member := List Glyph × Value

/-- What a text of JSON is made of, apart from white space. -/
inductive Token where
  | openBrace
  | closeBrace
  | openBracket
  | closeBracket
  | comma
  | colon
  | null
  | truth (b : Bool)
  | number (n : Number)
  | text (gs : List Glyph)

/-- A token as it is written. -/
def Token.chars : Token → List Char
  | .openBrace => ['\x7b']
  | .closeBrace => ['\x7d']
  | .openBracket => ['[']
  | .closeBracket => [']']
  | .comma => [',']
  | .colon => [':']
  | .null => ['n', 'u', 'l', 'l']
  | .truth b => if b then ['t', 'r', 'u', 'e'] else ['f', 'a', 'l', 's', 'e']
  | .number n => n.chars
  | .text gs => '"' :: (spelled gs ++ ['"'])

/-- The comma before an element or a member that is not the first. -/
def separator (first : Bool) : List Token := if first then [] else [.comma]

mutual
/-- The tokens of a value. -/
def Value.tokens : Value → List Token
  | .null => [.null]
  | .truth b => [.truth b]
  | .number n => [.number n]
  | .text gs => [.text gs]
  | .list vs => .openBracket :: (elementTokens true vs ++ [.closeBracket])
  | .object ms => .openBrace :: (memberTokens true ms ++ [.closeBrace])

/-- The tokens of the elements of a list that are left. -/
def elementTokens (first : Bool) : List Value → List Token
  | [] => []
  | v :: vs => separator first ++ (v.tokens ++ elementTokens false vs)

/-- The tokens of the members of an object that are left. -/
def memberTokens (first : Bool) : List (List Glyph × Value) → List Token
  | [] => []
  | (key, v) :: ms => separator first ++ (.text key :: .colon :: (v.tokens ++ memberTokens false ms))
end

/-! ### White space -/

/-- White space between tokens. -/
def isSpaceChar (c : Char) : Bool := c = ' ' || c = '\n' || c = '\t' || c = '\r'

/-- Characters that are some tokens with white space before, between and behind them. -/
inductive Spaced : List Token → List Char → Prop
  | nothing : Spaced [] []
  | space {ts : List Token} {cs : List Char} (c : Char) (hc : isSpaceChar c = true) (h : Spaced ts cs) : Spaced ts (c :: cs)
  | token {ts : List Token} {cs : List Char} (t : Token) (h : Spaced ts cs) : Spaced (t :: ts) (t.chars ++ cs)

/-! ### What tokens begin with -/

/-- The characters that a token can begin with. -/
def beginnings : List Char :=
  ['\x7b', '\x7d', '[', ']', ',', ':', 'n', 't', 'f', '"', '-', '0', '1', '2', '3', '4', '5', '6', '7', '8', '9']

theorem digitChar_mem_beginnings : ∀ k, k < 10 → Nat.digitChar k ∈ beginnings := by decide

/-- The first digit of a number as it is written. -/
theorem exists_toDigits (n : Nat) : ∃ k cs, k < 10 ∧ (toString n).toList = Nat.digitChar k :: cs := by
  have hwritten : (toString n).toList = Nat.toDigits 10 n := Nat.toList_repr
  rw [hwritten]
  induction n using Nat.strongRecOn with
  | _ n ih =>
    by_cases hn : n < 10
    · exact ⟨n, [], hn, Nat.toDigits_of_lt_base hn⟩
    · obtain ⟨k, cs, hk, hdigits⟩ := ih (n / 10) (by omega) Nat.toList_repr
      refine ⟨k, cs ++ [(n % 10).digitChar], hk, ?_⟩
      rw [Nat.toDigits_of_base_le (by decide) (by omega), hdigits]
      rfl

/-- **A token begins** with one of these characters. -/
theorem Token.exists_beginning (t : Token) : ∃ c cs, t.chars = c :: cs ∧ c ∈ beginnings := by
  cases t with
  | openBrace | closeBrace | openBracket | closeBracket | comma | colon | null => exact ⟨_, _, rfl, by decide⟩
  | truth b => cases b <;> exact ⟨_, _, rfl, by decide⟩
  | text gs => exact ⟨_, _, rfl, by decide⟩
  | number n =>
    obtain ⟨k, cs, hk, hdigits⟩ := exists_toDigits n.whole
    cases hneg : n.isNegative with
    | true =>
      refine ⟨'-', (toString n.whole).toList ++ (n.fractionChars ++ n.exponentChars), ?_, by decide⟩
      rw [Token.chars, Number.chars, hneg]
      rfl
    | false =>
      refine ⟨Nat.digitChar k, cs ++ (n.fractionChars ++ n.exponentChars), ?_, digitChar_mem_beginnings k hk⟩
      rw [Token.chars, Number.chars, hneg, hdigits]
      rfl

theorem not_isBlank_of_mem {c : Char} (h : c ∈ beginnings) : Text.isBlank c = false := by
  have hall : (beginnings.all fun c => !Text.isBlank c) = true := by decide
  have hc := List.all_eq_true.mp hall c h
  rwa [Bool.not_eq_true'] at hc

/-! ### Control characters -/

theorem HexDigit.le_toNat_char (h : HexDigit) : 32 ≤ h.char.toNat := by
  obtain ⟨v, capital⟩ := h
  revert v capital
  decide

theorem Glyph.le_toNat {g : Glyph} {c : Char} (hc : c ∈ g.chars) : 32 ≤ c.toNat := by
  cases g with
  | plain d hd =>
    rw [List.mem_singleton.mp hc]
    rw [isUnescaped, Bool.and_eq_true, Bool.and_eq_true, decide_eq_true_eq] at hd
    exact hd.1.1
  | escape e =>
    rcases List.mem_cons.mp hc with rfl | hc
    · decide
    · rw [List.mem_singleton.mp hc]
      cases e <;> decide
  | unit u =>
    simp only [Glyph.chars, List.mem_cons, List.not_mem_nil, or_false] at hc
    rcases hc with rfl | rfl | rfl | rfl | rfl | rfl
    · decide
    · decide
    all_goals exact HexDigit.le_toNat_char _

theorem le_toNat_digitChars {ds : List (Fin 10)} {c : Char} (hc : c ∈ digitChars ds) : 32 ≤ c.toNat := by
  obtain ⟨d, -, rfl⟩ := List.mem_map.mp hc
  exact (by decide : ∀ d : Fin 10, 32 ≤ (Nat.digitChar d.val).toNat) d

theorem Exponent.le_toNat {e : Exponent} {c : Char} (hc : c ∈ e.chars) : 32 ≤ c.toNat := by
  rw [Exponent.chars, List.mem_cons, List.mem_append] at hc
  rcases hc with rfl | hc | hc
  · split <;> decide
  · split at hc
    · cases hc
    all_goals
      rw [List.mem_singleton.mp hc]
      decide
  · exact le_toNat_digitChars hc

theorem Number.le_toNat {n : Number} {c : Char} (hc : c ∈ n.chars) : 32 ≤ c.toNat := by
  rw [Number.chars, List.mem_append, List.mem_append, List.mem_append] at hc
  rcases hc with hc | hc | hc | hc
  · split at hc
    · rw [List.mem_singleton.mp hc]
      decide
    · cases hc
  · have hwritten : (toString n.whole).toList = Nat.toDigits 10 n.whole := Nat.toList_repr
    rw [hwritten] at hc
    have hdigit := Char.isDigit_iff_toNat.mp (Nat.isDigit_of_mem_toDigits (by decide) (by decide) hc)
    exact Nat.le_trans (by decide) hdigit.1
  · rw [fractionChars] at hc
    split at hc
    · cases hc
    · rcases List.mem_cons.mp hc with rfl | hc
      · decide
      · exact le_toNat_digitChars hc
  · rw [exponentChars] at hc
    cases he : n.exponent with
    | none =>
      rw [he] at hc
      cases hc
    | some e =>
      rw [he] at hc
      exact Exponent.le_toNat hc

/-- A word looked through for control characters. -/
theorem le_toNat_of_all {cs : List Char} (hall : (cs.all fun c => decide (32 ≤ c.toNat)) = true)
    {c : Char} (hc : c ∈ cs) : 32 ≤ c.toNat :=
  of_decide_eq_true (List.all_eq_true.mp hall c hc)

/-- **No token holds a control character**, so none holds the end of a line. -/
theorem Token.le_toNat {t : Token} {c : Char} (hc : c ∈ t.chars) : 32 ≤ c.toNat := by
  cases t with
  | number n => exact Number.le_toNat hc
  | text gs =>
    rcases List.mem_cons.mp hc with rfl | hc
    · decide
    · rcases List.mem_append.mp hc with hc | hc
      · obtain ⟨g, -, hg⟩ := List.mem_flatMap.mp hc
        exact Glyph.le_toNat hg
      · rw [List.mem_singleton.mp hc]
        decide
  | truth b =>
    cases b
    all_goals exact le_toNat_of_all (by decide) hc
  | openBrace | closeBrace | openBracket | closeBracket | comma | colon | null =>
    exact le_toNat_of_all (by decide) hc

/-! ### Cutting at line ends -/

namespace Spaced

theorem append {ts us : List Token} {cs ds : List Char} (h : Spaced ts cs) (hd : Spaced us ds) :
    Spaced (ts ++ us) (cs ++ ds) := by
  induction h with
  | nothing => exact hd
  | space c hc _ ih => exact .space c hc ih
  | token t _ ih =>
    rw [List.cons_append, List.append_assoc]
    exact .token t ih

/-- Without characters there are no tokens. -/
theorem eq_nil {ts : List Token} (h : Spaced ts []) : ts = [] := by
  generalize hcs : [] = cs at h
  cases h with
  | nothing => rfl
  | space => cases hcs
  | token t =>
    obtain ⟨c, rest, hchars, -⟩ := t.exists_beginning
    rw [hchars] at hcs
    cases hcs

/-- **Where a control character stands**, no token is cut. -/
theorem split {ts : List Token} {l rest : List Char} {c : Char} (hc : c.toNat < 32) (h : Spaced ts (l ++ c :: rest)) :
    ∃ us vs, ts = us ++ vs ∧ Spaced us l ∧ Spaced vs rest := by
  generalize hcs : l ++ c :: rest = cs at h
  induction h generalizing l with
  | nothing =>
    cases l <;> cases hcs
  | @space ts cs d hd h ih =>
    cases l with
    | nil =>
      cases hcs
      exact ⟨[], ts, rfl, .nothing, h⟩
    | cons e l =>
      cases hcs
      obtain ⟨us, vs, hts, hus, hvs⟩ := ih rfl
      exact ⟨us, vs, hts, .space d hd hus, hvs⟩
  | @token ts cs t h ih =>
    rcases List.append_eq_append_iff.mp hcs with ⟨between, ht, hrest⟩ | ⟨between, rfl, hrest⟩
    · cases between with
      | nil =>
        rw [List.append_nil] at ht
        obtain ⟨us, vs, rfl, hus, hvs⟩ := ih (l := []) hrest
        exact ⟨t :: us, vs, rfl, by rw [← ht, ← List.append_nil t.chars]; exact .token t hus, hvs⟩
      | cons d between =>
        -- the control character would stand in the token
        cases hrest
        have hle := Token.le_toNat (t := t) (c := c) (by rw [ht]; exact List.mem_append_right _ List.mem_cons_self)
        omega
    · obtain ⟨us, vs, rfl, hus, hvs⟩ := ih hrest.symm
      exact ⟨t :: us, vs, rfl, .token t hus, hvs⟩

/-- A carriage return at the end is white space. -/
theorem bare {ts : List Token} {l : List Char} (h : Spaced ts (l ++ ['\r'])) : Spaced ts l := by
  obtain ⟨us, vs, rfl, hus, hvs⟩ := h.split (by decide)
  rwa [hvs.eq_nil, List.append_nil]

/-- A line and the lines behind it, joined again. -/
theorem join_cons {us vs : List Token} {line : String} {ls : List String} (hus : Spaced us line.toList)
    (hvs : Spaced vs (Text.join "\n" ls).toList) : Spaced (us ++ vs) (Text.join "\n" (line :: ls)).toList := by
  cases ls with
  | nil =>
    have hnil : vs = [] := hvs.eq_nil
    rw [hnil, List.append_nil]
    exact hus
  | cons m ls =>
    rw [Text.join_cons_cons, String.append_assoc, String.toList_append, String.toList_append]
    exact hus.append (.space '\n' rfl hvs)

/-- **The lines of a text of JSON**, joined again, are a text of the same tokens, and each line is a text of some. -/
theorem lines {s : String} {ls : List String} (hcut : Text.Cut s ls) : ∀ {ts : List Token}, Spaced ts s.toList →
    Spaced ts (Text.join "\n" ls).toList ∧ ∀ l, l ∈ ls → ∃ us, Spaced us l.toList := by
  induction hcut with
  | nothing => exact fun h => ⟨h, fun l hl => (by cases hl)⟩
  | last =>
    intro ts h
    refine ⟨h, fun l hl => ⟨ts, ?_⟩⟩
    rw [List.mem_singleton.mp hl]
    exact h
  | @feed line rest ls _ _ _ ih =>
    intro ts h
    rw [String.toList_append, String.toList_append, List.append_assoc] at h
    obtain ⟨us, vs, rfl, hus, hvs⟩ := h.split (c := '\n') (by decide)
    obtain ⟨hjoin, hall⟩ := ih hvs
    exact ⟨hus.join_cons hjoin, List.forall_mem_cons.mpr ⟨⟨us, hus⟩, hall⟩⟩
  | @returnFeed line rest ls _ _ ih =>
    intro ts h
    have hchars : (line ++ "\r\n" ++ rest).toList = (line.toList ++ ['\r']) ++ '\n' :: rest.toList := by
      rw [String.toList_append, String.toList_append, List.append_assoc, List.append_assoc]
      rfl
    rw [hchars] at h
    obtain ⟨us, vs, rfl, hus, hvs⟩ := h.split (c := '\n') (by decide)
    obtain ⟨hjoin, hall⟩ := ih hvs
    exact ⟨hus.bare.join_cons hjoin, List.forall_mem_cons.mpr ⟨⟨us, hus.bare⟩, hall⟩⟩

/-- Behind white space stands nothing, or the beginning of a token. -/
theorem dropWhile_isBlank {ts : List Token} {cs : List Char} (h : Spaced ts cs) :
    cs.dropWhile Text.isBlank = [] ∨ ∃ c rest, cs.dropWhile Text.isBlank = c :: rest ∧ c ∈ beginnings := by
  induction h with
  | nothing => exact .inl rfl
  | space c hc _ ih =>
    have hblank : Text.isBlank c = true := by
      simp only [isSpaceChar, Bool.or_eq_true, decide_eq_true_eq] at hc
      rcases hc with ((rfl | rfl) | rfl) | rfl <;> decide
    rwa [List.dropWhile_cons_of_pos hblank]
  | @token ts cs t _ _ =>
    obtain ⟨c, rest, hchars, hc⟩ := t.exists_beginning
    refine .inr ⟨c, rest ++ cs, ?_, hc⟩
    rw [hchars, List.cons_append, List.dropWhile_cons_of_neg]
    rw [not_isBlank_of_mem hc]
    exact Bool.false_ne_true

/-- **No line of a text of JSON** is a comment. -/
theorem not_isComment {ts : List Token} {l : String} (h : Spaced ts l.toList) : Settings.isComment l = false := by
  rw [Settings.isComment, String.startsWith_string_eq_false_iff, Text.toList_trim]
  intro hcomment
  obtain ⟨tail, htail⟩ := hcomment.trans (Text.trimmed_isBeginning l.toList)
  rcases h.dropWhile_isBlank with hnil | ⟨c, rest, hdrop, hc⟩
  · rw [hnil] at htail
    cases htail
  · rw [hdrop] at htail
    have hslash : '/' = c := (List.cons.inj htail).1
    rw [← hslash] at hc
    exact absurd hc (by decide)

end Spaced

end ScriptHost.Json

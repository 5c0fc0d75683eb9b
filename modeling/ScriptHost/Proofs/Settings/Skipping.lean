import ScriptHost.Proofs.Settings.Values

/-!
# Passing a value that nobody asks for

A value is passed by a loop over what begins next, with a stack of the brackets that are open. The induction here is over the
value; it shows that the loop comes from before the value to behind it with the same stack.

* `takes_skipNumber`, `takes_skipText` — numbers and texts;
* `Value.starts` — how often the loop is passed for a value;
* `closing` — what the loop does behind a value;
* **`skipFrom_value`** — from before a value the loop comes to behind it;
* **`exists_skipValue`** — any value is passed, up to what stands behind it.
-/

namespace ScriptHost.Json

open Utf8 Settings

variable {α β : Type} {r r' : List UInt8} {cs cs' : List Char} {ts us : List Token}

/-! ### Numbers -/

theorem isDigit_of_mem_digitChars {ds : List (Fin 10)} : ∀ d, d ∈ encoded (digitChars ds) → isDigit d = true := by
  intro d hd
  obtain ⟨c, hc, hd⟩ := List.mem_flatMap.mp hd
  obtain ⟨k, -, rfl⟩ := List.mem_map.mp hc
  have hdigit : ∀ k : Fin 10, (String.utf8EncodeChar (Nat.digitChar k.val)).all isDigit = true := by decide
  exact List.all_eq_true.mp (hdigit k) d hd

theorem takes_discard {p : Reads α} {a : α} (h : Takes p r a r') : Takes (discard p) r () r' := by
  show (p r >>= fun x => Except.ok ((), x.2)) = _
  rw [h]
  rfl

/-- Digits at the end of a number. -/
theorem takes_discard_digits {ds : List UInt8} (hds : ∀ d, d ∈ ds → isDigit d = true) {b : UInt8} (hb : EndsNumber b)
    (r : List UInt8) : Takes (discard digits) (ds ++ b :: r) () (b :: r) := takes_discard (takes_digits hds hb.1 r)

theorem encoded_digitChars_cons (d : Fin 10) (ds : List (Fin 10)) :
    ∃ b, encoded (digitChars (d :: ds)) = b :: encoded (digitChars ds) ∧ isDigit b = true := by
  have hone : ∀ d : Fin 10, String.utf8EncodeChar (Nat.digitChar d.val) = [UInt8.ofNat (48 + d.val)] ∧
    isDigit (UInt8.ofNat (48 + d.val)) = true := by decide
  refine ⟨_, ?_, (hone d).2⟩
  rw [digitChars, List.map_cons, encoded_cons, (hone d).1]
  rfl

/-- The digits of an exponent, behind its letter and its sign. -/
theorem takes_exponentDigits (d : Fin 10) (ds : List (Fin 10)) {b : UInt8} (hb : EndsNumber b) (r : List UInt8)
    {f : Option UInt8 → Reads Unit} (hf : ∀ b, isDigit b = true → f (some b) = discard digits) :
    Takes (next >>= f) (encoded (digitChars (d :: ds)) ++ b :: r) () (b :: r) := by
  obtain ⟨c, hbytes, hc⟩ := encoded_digitChars_cons d ds
  rw [hbytes]
  refine .bind (takes_next c _) ?_
  rw [hf c hc]
  exact takes_discard_digits isDigit_of_mem_digitChars hb r

/-- **An exponent** is passed. -/
theorem takes_skipExponent (e : Exponent) {b : UInt8} (hb : EndsNumber b) (r : List UInt8) :
    Takes skipNumber.skipExponent (encoded e.chars ++ b :: r) () (b :: r) := by
  have hletter : ∃ c, ∀ s : List Char, encoded ((if e.capital then 'E' else 'e') :: s) = c :: encoded s := by
    cases e.capital with
    | true => exact ⟨69, fun s => rfl⟩
    | false => exact ⟨101, fun s => rfl⟩
  obtain ⟨c, hc⟩ := hletter
  have hdigits {f : Option UInt8 → Reads Unit} (hf : ∀ b, isDigit b = true → f (some b) = discard digits) :=
    takes_exponentDigits e.first e.rest hb r hf
  have hlast : ∀ b, isDigit b = true → (if isDigit b = true then discard digits else failHere invalidNumber) = discard digits :=
    fun b hb => if_pos hb
  rw [Exponent.chars, hc, skipNumber.skipExponent]
  refine .bind (takes_pass c _) ?_
  dsimp only
  cases e.isNegative with
  | none =>
    obtain ⟨d, hbytes, hd⟩ := encoded_digitChars_cons e.first e.rest
    have hsign : ¬ (isByte (some d) '+' || isByte (some d) '-') = true := by
      rw [Bool.or_eq_true, isByte_some_iff, isByte_some_iff]
      rintro (rfl | rfl)
      · exact absurd hd (by decide)
      · exact absurd hd (by decide)
    dsimp only
    rw [List.nil_append]
    refine .bind (takes_peek_head _) ?_
    rw [if_neg (by rw [hbytes]; exact hsign)]
    exact hdigits hlast
  | some negative =>
    cases negative with
    | true =>
      refine .bind (takes_peek 45 _) ?_
      rw [if_pos (by decide)]
      exact .bind (takes_pass 45 _) (hdigits hlast)
    | false =>
      refine .bind (takes_peek 43 _) ?_
      rw [if_pos (by decide)]
      exact .bind (takes_pass 43 _) (hdigits hlast)

/-- Pass an exponent, if there is one. -/
def skipMaybeExponent : Reads Unit := do
  let b ← peek
  if isByte b 'e' || isByte b 'E' then skipNumber.skipExponent

/-- Pass what may follow the digits of a number. -/
def skipTail : Reads Unit := do
  let b ← peek
  if isByte b '.' then
    pass
    if (← digits).isEmpty then failNext (if (← peek).isSome then invalidNumber else eofValue)
    let b ← peek
    if isByte b 'e' || isByte b 'E' then skipNumber.skipExponent
  else if isByte b 'e' || isByte b 'E' then skipNumber.skipExponent

theorem takes_skipMaybeExponent (n : Number) {b : UInt8} (hb : EndsNumber b) (r : List UInt8) :
    Takes skipMaybeExponent (encoded n.exponentChars ++ b :: r) () (b :: r) := by
  rw [skipMaybeExponent]
  refine .bind (takes_peek_head _) ?_
  cases hexponent : n.exponent with
  | none =>
    have hnone : encoded n.exponentChars = [] := by
      rw [Number.exponentChars, hexponent]
      rfl
    rw [hnone, List.nil_append, List.head?_cons, if_neg]
    · exact takes_pure () _
    · rw [Bool.or_eq_true, isByte_some_iff, isByte_some_iff]
      exact not_or.mpr hb.2.2
  | some e =>
    have hchars : n.exponentChars = e.chars := by
      rw [Number.exponentChars, hexponent]
      rfl
    rw [head?_exponentChars hexponent, if_pos (by cases e.capital <;> decide), hchars]
    exact takes_skipExponent e hb r

/-- What stands behind the point of a fraction. -/
theorem takes_fractionDigits (n : Number) {b : UInt8} (hb : EndsNumber b) (r : List UInt8) :
    Takes digits (encoded (digitChars n.fraction) ++ (encoded n.exponentChars ++ b :: r))
      (encoded (digitChars n.fraction)) (encoded n.exponentChars ++ b :: r) := by
  refine takes_digits_append isDigit_of_mem_digitChars fun c hc => ?_
  cases hexponent : n.exponent with
  | none =>
    rw [Number.exponentChars, hexponent] at hc
    cases hc
    exact hb.1
  | some e =>
    rw [head?_exponentChars hexponent] at hc
    cases hc
    cases e.capital <;> decide

theorem takes_skipTail (n : Number) {b : UInt8} (hb : EndsNumber b) (r : List UInt8) :
    Takes skipTail (encoded n.fractionChars ++ (encoded n.exponentChars ++ b :: r)) () (b :: r) := by
  have hexponent := takes_skipMaybeExponent n hb r
  rw [skipTail]
  cases hfraction : n.fraction with
  | nil =>
    have hnone : encoded n.fractionChars = [] := by
      rw [Number.fractionChars, if_pos hfraction]
      rfl
    have hpoint : ¬ isByte (encoded n.exponentChars ++ b :: r).head? '.' = true := by
      cases he : n.exponent with
      | none =>
        rw [Number.exponentChars, he]
        show ¬ isByte (some b) '.' = true
        rw [isByte_some_iff]
        exact hb.2.1
      | some e =>
        rw [head?_exponentChars he]
        cases e.capital <;> decide
    rw [hnone, List.nil_append]
    refine .bind (takes_peek_head _) ?_
    rw [if_neg hpoint]
    exact hexponent.of_bind (takes_peek_head _)
  | cons d ds =>
    obtain ⟨c, hbytes, -⟩ := encoded_digitChars_cons d ds
    have hchars : encoded n.fractionChars = 46 :: encoded (digitChars n.fraction) := by
      rw [Number.fractionChars, if_neg (by rw [hfraction]; exact List.cons_ne_nil d ds), encoded_cons]
      rfl
    have hsome : ¬ (encoded (digitChars n.fraction)).isEmpty = true := by
      rw [hfraction, hbytes]
      exact Bool.false_ne_true
    rw [hchars, List.cons_append]
    refine .bind (takes_peek 46 _) ?_
    rw [if_pos (by decide)]
    refine .bind (takes_pass 46 _) (.bind (takes_fractionDigits n hb r) ?_)
    dsimp only
    rw [if_neg hsome]
    exact hexponent

/-- **A number** is passed, from its first digit on. -/
theorem takes_skipNumber (n : Number) {b : UInt8} (hb : EndsNumber b) (r : List UInt8) :
    Takes skipNumber (encoded n.unsigned ++ b :: r) () (b :: r) := by
  obtain ⟨d, hhead, hdigit, -⟩ := n.head?_rest hb r
  have htail := takes_skipTail n hb r
  rw [n.encoded_unsigned]
  generalize encoded n.fractionChars ++ (encoded n.exponentChars ++ b :: r) = rest at hhead htail
  obtain ⟨c, cs, h⟩ := exists_digits n.whole
  have hr : ∀ e, rest.head? = some e → isDigit e = false := by
    intro e he
    rw [hhead] at he
    cases he
    exact hdigit
  rw [h.encoded_eq, List.cons_append, skipNumber]
  refine .bind (takes_next _ _) ?_
  dsimp only
  by_cases hc : c = '0'
  · rw [h.zero hc, if_pos (by rw [hc]; rfl)]
    refine .bind (takes_peek_head _) ?_
    rw [List.map_nil, List.nil_append, hhead]
    dsimp only
    rw [if_neg (by rw [hdigit]; exact Bool.false_ne_true)]
    exact htail
  · rw [if_neg (h.byte_ne hc), if_pos (isDigit_digitByte h.first)]
    exact .bind (takes_discard (takes_digits_append h.isDigit_of_mem hr)) htail

/-! ### Texts -/

/-- Bytes that need no escape are passed. -/
theorem skipTextFrom_plain {ds : List UInt8} (hds : ∀ d, d ∈ ds → isPlain d = true) (fuel : Nat) (r : List UInt8) :
    skipTextFrom (fuel + 1) (ds ++ r) = skipTextFrom (fuel + 1) r := by
  rw [skipTextFrom, (takes_discard (takes_plain_append hds r)).bind_eq, (takes_discard (takes_plain r)).bind_eq]

/-- **The parts of a text** are passed up to the closing quote, also if they stand for no characters. -/
theorem takes_skipTextFrom (r : List UInt8) (gs : List Glyph) : ∀ {fuel : Nat}, gs.length ≤ fuel →
    Takes (skipTextFrom (fuel + 1)) (encoded (spelled gs) ++ 34 :: r) () r := by
  induction gs with
  | nil =>
    intro fuel _
    rw [skipTextFrom]
    exact .bind (takes_discard (takes_plain_nothing (by decide) r)) (.bind (takes_peek 34 r) (takes_pass 34 r))
  | cons g gs ih =>
    intro fuel hfuel
    rw [encoded_spelled_cons]
    cases g with
    | plain c hc =>
      rw [Glyph.chars, encoded_singleton]
      exact (skipTextFrom_plain (isPlain_of_isUnescaped hc) fuel _).trans (ih (Nat.le_of_succ_le hfuel))
    | escape e =>
      obtain ⟨fuel, rfl⟩ := Nat.exists_eq_add_one.mpr (Nat.zero_lt_of_lt hfuel)
      obtain ⟨b, x, hletter, -, -, hlookup⟩ := e.lookup_letter
      rw [Glyph.chars, encoded_cons, encoded_singleton, hletter, skipTextFrom]
      refine .bind (takes_discard (takes_plain_nothing (by decide) _)) (.bind (takes_peek 92 _) ?_)
      refine .bind (takes_pass 92 _) (.bind (takes_next b _) ?_)
      dsimp only
      rw [if_pos (by rw [hlookup]; rfl)]
      exact ih (Nat.le_of_succ_le_succ hfuel)
    | unit u =>
      obtain ⟨fuel, rfl⟩ := Nat.exists_eq_add_one.mpr (Nat.zero_lt_of_lt hfuel)
      rw [encoded_chars_unit, skipTextFrom]
      refine .bind (takes_discard (takes_plain_nothing (by decide) _)) (.bind (takes_peek 92 _) ?_)
      refine .bind (takes_pass 92 _) (.bind (takes_next 117 _) ?_)
      dsimp only
      rw [if_neg (by decide), if_pos (by decide)]
      exact .bind (takes_discard (takes_hexEscape u _)) (ih (Nat.le_of_succ_le_succ hfuel))

/-- **A text** is passed from behind its opening quote. -/
theorem takes_skipText (gs : List Glyph) (r : List UInt8) : Takes skipText (encoded (spelled gs) ++ 34 :: r) () r := by
  rw [skipText]
  exact .bind (takes_get _) (takes_skipTextFrom r gs (length_le_encoded_spelled gs _))

/-! ### What the loop meets -/

/-- **The key of a member** and its colon are passed. -/
theorem exists_skipKey {key : List Glyph} (h : Spaced (.text key :: .colon :: ts) cs) :
    ∃ cs', Spaced ts cs' ∧ Takes skipKey (encoded cs) () (encoded cs') := by
  obtain ⟨cs', hs, hpeek⟩ := h.exists_peekToken_text
  obtain ⟨cs'', hs', hcolon⟩ := hs.exists_peekToken_single (b := 58) rfl
  refine ⟨cs'', hs', ?_⟩
  rw [skipKey]
  refine .bind hpeek ?_
  dsimp only
  rw [if_pos rfl]
  refine .bind (takes_pass 34 _) (.bind (takes_skipText key _) (.bind hcolon ?_))
  dsimp only
  rw [if_pos (by decide)]
  exact takes_pass 58 _

/-- The byte that closes a bracket. -/
def Bracket.closer : Bracket → Token
  | .list => .closeBracket
  | .object => .closeBrace

/-- **A bracket that is closed** is taken from the stack. -/
theorem exists_skipEnds_close (frame : Bracket) (h : Spaced (frame.closer :: ts) cs) : ∃ cs', Spaced ts cs' ∧
    ∀ outer afterValue, skipEnds (frame :: outer) afterValue (encoded cs) = skipEnds outer true (encoded cs') := by
  cases frame with
  | list =>
    obtain ⟨cs', hs, hpeek⟩ := h.exists_peekToken_single (b := 93) rfl
    refine ⟨cs', hs, fun outer afterValue => ?_⟩
    rw [skipEnds, hpeek.bind_eq]
    dsimp only
    rw [if_pos (by decide), (takes_pass 93 _).bind_eq]
  | object =>
    obtain ⟨cs', hs, hpeek⟩ := h.exists_peekToken_single (b := 125) rfl
    refine ⟨cs', hs, fun outer afterValue => ?_⟩
    rw [skipEnds, hpeek.bind_eq]
    dsimp only
    rw [if_pos (by decide), (takes_pass 125 _).bind_eq]

/-- Behind a comma the next value begins. -/
theorem exists_skipEnds_comma (frame : Bracket) (outer : List Bracket) (h : Spaced (.comma :: ts) cs) :
    ∃ cs', Spaced ts cs' ∧ Takes (skipEnds (frame :: outer) true) (encoded cs) (frame :: outer) (encoded cs') := by
  obtain ⟨cs', hs, hpeek⟩ := h.exists_peekToken_single (b := 44) rfl
  refine ⟨cs', hs, ?_⟩
  rw [skipEnds]
  refine .bind hpeek ?_
  dsimp only
  rw [if_neg (by cases frame <;> decide), if_pos rfl, if_pos (by decide)]
  exact .bind (takes_pass 44 _) (takes_pure _ _)

/-- The first value or key behind an opening bracket. -/
theorem takes_skipEnds_first (frame : Bracket) (outer : List Bracket) {b : UInt8} {r : List UInt8}
    (hpeek : Takes peekToken (encoded cs) (some b) r) (hlist : b ≠ 93) (hobject : b ≠ 125) :
    Takes (skipEnds (frame :: outer) false) (encoded cs) (frame :: outer) r := by
  have hopen : ¬ (decide (b = code ']') && decide (frame = .list) || decide (b = 125) && decide (frame = .object)) = true := by
    rw [Bool.or_eq_true, Bool.and_eq_true, Bool.and_eq_true, decide_eq_true_eq, decide_eq_true_eq, decide_eq_true_eq]
    rintro (h | h)
    · exact hlist h.1
    · exact hobject h.1
  rw [skipEnds]
  refine .bind hpeek ?_
  dsimp only
  rw [if_neg hopen, if_neg Bool.false_ne_true]
  exact takes_pure _ _

/-- Tokens of which the first closes no bracket. -/
def Opens (us : List Token) : Prop := ∀ cs, Spaced us cs →
  ∃ b cs', Takes peekToken (encoded cs) (some b) (encoded cs') ∧ Spaced us cs' ∧ b ≠ 93 ∧ b ≠ 125

theorem opens_value (v : Value) (ts : List Token) : Opens (v.tokens ++ ts) := by
  intro cs h
  obtain ⟨b, cs', hpeek, hs, hb⟩ := Value.exists_peekToken h
  have hclosers : v.begins 93 = false ∧ v.begins 125 = false := by
    cases v <;> exact ⟨rfl, rfl⟩
  exact ⟨b, cs', hpeek, hs, Value.ne_of_begins hb hclosers.1, Value.ne_of_begins hb hclosers.2⟩

theorem opens_text (gs : List Glyph) (ts : List Token) : Opens (.text gs :: ts) := opens_value (.text gs) ts

/-- **Up to the next value or key**, behind a comma if it is not the first, the open brackets stay. -/
theorem exists_skipEnds_separator (frame : Bracket) (outer : List Bracket) (first : Bool) (hus : Opens us)
    (h : Spaced (separator first ++ us) cs) :
    ∃ cs', Spaced us cs' ∧ Takes (skipEnds (frame :: outer) (!first)) (encoded cs) (frame :: outer) (encoded cs') := by
  cases first with
  | true =>
    obtain ⟨b, cs', hpeek, hs, hlist, hobject⟩ := hus cs h
    exact ⟨cs', hs, takes_skipEnds_first frame outer hpeek hlist hobject⟩
  | false => exact exists_skipEnds_comma frame outer h

/-- The bracket that a value opens. -/
def Value.opens? : Value → Option Bracket
  | .list _ => some .list
  | .object _ => some .object
  | _ => none

/-- The tokens of a value behind its opening bracket. -/
def Value.inside : Value → List Token
  | .list vs => elementTokens true vs ++ [.closeBracket]
  | .object ms => memberTokens true ms ++ [.closeBrace]
  | _ => []

/-- **What begins a value** is passed: its opening bracket, or the whole of it. -/
theorem exists_skipStart {v : Value} (hends : Ends ts) (h : Spaced (v.tokens ++ ts) cs) :
    ∃ cs', Spaced (v.inside ++ ts) cs' ∧ Takes skipStart (encoded cs) v.opens? (encoded cs') := by
  cases v with
  | null =>
    obtain ⟨cs', hs, hpeek⟩ := Spaced.exists_peekToken (t := .null) h
    refine ⟨cs', hs, ?_⟩
    rw [skipStart]
    refine .bind hpeek ?_
    exact .bind (takes_pass _ _) (.bind (takes_word ['u', 'l', 'l'] (by decide) _) (takes_pure none _))
  | truth b =>
    obtain ⟨cs', hs, hpeek⟩ := Spaced.exists_peekToken (t := .truth b) h
    refine ⟨cs', hs, ?_⟩
    rw [skipStart]
    refine .bind hpeek ?_
    cases b with
    | true => exact .bind (takes_pass _ _) (.bind (takes_word ['r', 'u', 'e'] (by decide) _) (takes_pure none _))
    | false => exact .bind (takes_pass _ _) (.bind (takes_word ['a', 'l', 's', 'e'] (by decide) _) (takes_pure none _))
  | number n =>
    obtain ⟨cs', hs, hpeek⟩ := Spaced.exists_peekToken (t := .number n) h
    obtain ⟨b, r, hbytes, hb⟩ := hends.exists_byte hs
    obtain ⟨d, ds, hunsigned, hd⟩ := n.exists_unsigned (b :: r)
    have hnumber := takes_skipNumber n hb r
    have hne {c : UInt8} (hc : isDigit c = false) : ¬ d = c := by
      rintro rfl
      rw [hd] at hc
      cases hc
    rw [Token.chars, hbytes, n.encoded_chars] at hpeek
    rw [eq_head?_of_takes_peekToken hpeek, hunsigned] at hpeek
    refine ⟨cs', hs, ?_⟩
    rw [hbytes, skipStart]
    rw [hunsigned] at hnumber
    refine .bind hpeek ?_
    cases n.isNegative with
    | true => exact .bind (takes_pass 45 _) (.bind hnumber (takes_pure none _))
    | false =>
      rw [if_neg Bool.false_ne_true, List.head?_cons]
      dsimp only
      rw [if_neg (hne rfl), if_neg (hne rfl), if_neg (hne rfl), if_neg (hne rfl), if_pos hd]
      exact .bind hnumber (takes_pure none _)
  | text gs =>
    obtain ⟨cs', hs, hpeek⟩ := Spaced.exists_peekToken_text h
    refine ⟨cs', hs, ?_⟩
    rw [skipStart]
    refine .bind hpeek ?_
    exact .bind (takes_pass 34 _) (.bind (takes_skipText gs _) (takes_pure none _))
  | list vs =>
    obtain ⟨cs', hs, hpeek⟩ := Spaced.exists_peekToken_single (t := .openBracket) (b := 91) rfl h
    refine ⟨cs', hs, ?_⟩
    rw [skipStart]
    refine .bind hpeek ?_
    exact .bind (takes_pass 91 _) (takes_pure _ _)
  | object ms =>
    obtain ⟨cs', hs, hpeek⟩ := Spaced.exists_peekToken_single (t := .openBrace) (b := 123) rfl h
    refine ⟨cs', hs, ?_⟩
    rw [skipStart]
    refine .bind hpeek ?_
    exact .bind (takes_pass 123 _) (takes_pure _ _)

/-! ### The loop -/

mutual
/-- How often the loop is passed for a value. -/
def Value.starts : Value → Nat
  | .list vs => elementStarts vs + 1
  | .object ms => memberStarts ms + 1
  | _ => 1

/-- How often it is passed for the elements of a list. -/
def elementStarts : List Value → Nat
  | [] => 0
  | v :: vs => elementStarts vs + v.starts

/-- How often it is passed for the members of an object. -/
def memberStarts : List (List Glyph × Value) → Nat
  | [] => 0
  | (_, v) :: ms => memberStarts ms + v.starts
end

/-- Pass what is left of the brackets that are open. -/
def goOn (fuel : Nat) : List Bracket → Reads Unit
  | [] => return ()
  | .list :: outer => skipFrom fuel (.list :: outer)
  | .object :: outer => do
    skipKey
    skipFrom fuel (.object :: outer)

/-- What the loop does behind a value. -/
def closing (fuel : Nat) (frames : List Bracket) : Reads Unit := skipEnds frames true >>= goOn fuel

theorem skipFrom_eq_closing {fuel : Nat} {frames : List Bracket} (h : Takes skipStart r none r') :
    skipFrom (fuel + 1) frames r = closing fuel frames r' := by
  rw [skipFrom, h.bind_eq, closing]
  refine congrArg (fun f => (skipEnds frames true >>= f) r') (funext fun frames => ?_)
  cases frames with
  | nil => rfl
  | cons frame outer => cases frame <;> rfl

theorem skipFrom_eq_goOn {fuel : Nat} {frames : List Bracket} {frame : Bracket} (h : Takes skipStart r (some frame) r') :
    skipFrom (fuel + 1) frames r = (skipEnds (frame :: frames) false >>= goOn fuel) r' := by
  rw [skipFrom, h.bind_eq]
  refine congrArg (fun f => (skipEnds (frame :: frames) false >>= f) r') (funext fun frames => ?_)
  cases frames with
  | nil => rfl
  | cons frame outer => cases frame <;> rfl

/-- What stands behind an element of a list. -/
theorem ends_elements (vs : List Value) (ts : List Token) : Ends (elementTokens false vs ++ (.closeBracket :: ts)) := by
  cases vs with
  | nil => exact .closeBracket ts
  | cons v vs => exact .comma _

theorem ends_members (ms : List Member) (ts : List Token) : Ends (memberTokens false ms ++ (.closeBrace :: ts)) := by
  cases ms with
  | nil => exact .closeBrace ts
  | cons m ms => exact .comma _

/-- Readers that do the same, and then what follows. -/
theorem bind_congr_eq {p q : Reads α} {s : List UInt8} (h : p r = q s) (f : α → Reads β) : (p >>= f) r = (q >>= f) s := by
  show (p r >>= fun x => f x.1 x.2) = (q s >>= fun x => f x.1 x.2)
  rw [h]

theorem skipFrom_scalar (fuel : Nat) (frames : List Bracket) {v : Value} (hopens : v.opens? = none) (hinside : v.inside = [])
    (hstarts : v.starts = 1) (hends : Ends ts) (h : Spaced (v.tokens ++ ts) cs) :
    ∃ cs', Spaced ts cs' ∧ skipFrom (fuel + v.starts) frames (encoded cs) = closing fuel frames (encoded cs') := by
  obtain ⟨cs', hs, hstart⟩ := exists_skipStart hends h
  rw [hinside] at hs
  rw [hopens] at hstart
  rw [hstarts]
  exact ⟨cs', hs, skipFrom_eq_closing hstart⟩

mutual
/-- **From before a value** the loop comes to behind it, with the same brackets open. -/
theorem skipFrom_value (fuel : Nat) (frames : List Bracket) : (v : Value) → {ts : List Token} → {cs : List Char} → Ends ts →
    Spaced (v.tokens ++ ts) cs →
    ∃ cs', Spaced ts cs' ∧ skipFrom (fuel + v.starts) frames (encoded cs) = closing fuel frames (encoded cs')
  | .null, _, _, hends, h => skipFrom_scalar fuel frames rfl rfl rfl hends h
  | .truth _, _, _, hends, h => skipFrom_scalar fuel frames rfl rfl rfl hends h
  | .number _, _, _, hends, h => skipFrom_scalar fuel frames rfl rfl rfl hends h
  | .text _, _, _, hends, h => skipFrom_scalar fuel frames rfl rfl rfl hends h
  | .list vs, ts, cs, hends, h => by
    obtain ⟨cs', hs, hstart⟩ := exists_skipStart hends h
    rw [Value.inside, List.append_assoc] at hs
    obtain ⟨cs'', hs', hrest⟩ := goOn_elements fuel frames true vs hs
    exact ⟨cs'', hs', (skipFrom_eq_goOn hstart).trans hrest⟩
  | .object ms, ts, cs, hends, h => by
    obtain ⟨cs', hs, hstart⟩ := exists_skipStart hends h
    rw [Value.inside, List.append_assoc] at hs
    obtain ⟨cs'', hs', hrest⟩ := goOn_members fuel frames true ms hs
    exact ⟨cs'', hs', (skipFrom_eq_goOn hstart).trans hrest⟩

/-- From before the elements that are left of a list it comes to behind the list. -/
theorem goOn_elements (fuel : Nat) (frames : List Bracket) (first : Bool) : (vs : List Value) → {ts : List Token} →
    {cs : List Char} → Spaced (elementTokens first vs ++ (.closeBracket :: ts)) cs →
    ∃ cs', Spaced ts cs' ∧
      (skipEnds (.list :: frames) (!first) >>= goOn (fuel + elementStarts vs)) (encoded cs) = closing fuel frames (encoded cs')
  | [], ts, cs, h => by
    obtain ⟨cs', hs, hclose⟩ := exists_skipEnds_close .list h
    exact ⟨cs', hs, bind_congr_eq (hclose frames (!first)) (goOn fuel)⟩
  | v :: vs, ts, cs, h => by
    rw [elementTokens, List.append_assoc, List.append_assoc] at h
    obtain ⟨cs₁, hs₁, hbefore⟩ := exists_skipEnds_separator .list frames first (opens_value v _) h
    obtain ⟨cs₂, hs₂, hvalue⟩ := skipFrom_value (fuel + elementStarts vs) (.list :: frames) v (ends_elements vs ts) hs₁
    obtain ⟨cs₃, hs₃, hrest⟩ := goOn_elements fuel frames false vs hs₂
    refine ⟨cs₃, hs₃, (hbefore.bind_eq _).trans ?_⟩
    rw [elementStarts, ← Nat.add_assoc]
    exact hvalue.trans hrest

/-- From before the members that are left of an object it comes to behind the object. -/
theorem goOn_members (fuel : Nat) (frames : List Bracket) (first : Bool) : (ms : List (List Glyph × Value)) → {ts : List Token} →
    {cs : List Char} → Spaced (memberTokens first ms ++ (.closeBrace :: ts)) cs →
    ∃ cs', Spaced ts cs' ∧
      (skipEnds (.object :: frames) (!first) >>= goOn (fuel + memberStarts ms)) (encoded cs) = closing fuel frames (encoded cs')
  | [], ts, cs, h => by
    obtain ⟨cs', hs, hclose⟩ := exists_skipEnds_close .object h
    exact ⟨cs', hs, bind_congr_eq (hclose frames (!first)) (goOn fuel)⟩
  | (key, v) :: ms, ts, cs, h => by
    rw [memberTokens, List.append_assoc, List.cons_append, List.cons_append, List.append_assoc] at h
    obtain ⟨cs₁, hs₁, hbefore⟩ := exists_skipEnds_separator .object frames first (opens_text key _) h
    obtain ⟨cs₂, hs₂, hkey⟩ := exists_skipKey hs₁
    obtain ⟨cs₃, hs₃, hvalue⟩ := skipFrom_value (fuel + memberStarts ms) (.object :: frames) v (ends_members ms ts) hs₂
    obtain ⟨cs₄, hs₄, hrest⟩ := goOn_members fuel frames false ms hs₃
    refine ⟨cs₄, hs₄, (hbefore.bind_eq _).trans ?_⟩
    rw [memberStarts, ← Nat.add_assoc]
    exact (hkey.bind_eq _).trans (hvalue.trans hrest)
end

/-! ### The whole value -/

mutual
theorem Value.starts_le : (v : Value) → v.starts ≤ v.tokens.length
  | .null => Nat.le_refl 1
  | .truth _ => Nat.le_refl 1
  | .number _ => Nat.le_refl 1
  | .text _ => Nat.le_refl 1
  | .list vs => by
    have hvs := elementStarts_le true vs
    rw [Value.starts, Value.tokens, List.length_cons, List.length_append]
    omega
  | .object ms => by
    have hms := memberStarts_le true ms
    rw [Value.starts, Value.tokens, List.length_cons, List.length_append]
    omega

theorem elementStarts_le (first : Bool) : (vs : List Value) → elementStarts vs ≤ (elementTokens first vs).length
  | [] => Nat.le_refl 0
  | v :: vs => by
    have hv := v.starts_le
    have hvs := elementStarts_le false vs
    rw [elementStarts, elementTokens, List.length_append, List.length_append]
    omega

theorem memberStarts_le (first : Bool) : (ms : List (List Glyph × Value)) → memberStarts ms ≤ (memberTokens first ms).length
  | [] => Nat.le_refl 0
  | (key, v) :: ms => by
    have hv := v.starts_le
    have hms := memberStarts_le false ms
    rw [memberStarts, memberTokens, List.length_append, List.length_cons, List.length_cons, List.length_append]
    omega
end

/-- A text has at least as many characters as tokens. -/
theorem Spaced.length_le (h : Spaced ts cs) : ts.length ≤ cs.length := by
  induction h with
  | nothing => exact Nat.le_refl 0
  | space c hc _ ih => exact Nat.le_succ_of_le ih
  | token t _ ih =>
    obtain ⟨c, rest, hchars, -⟩ := t.exists_beginning
    rw [hchars, List.length_cons, List.length_append, List.length_cons]
    omega

/-- **Any value** is passed, up to what stands behind it. -/
theorem exists_skipValue (v : Value) (hends : Ends ts) (h : Spaced (v.tokens ++ ts) cs) :
    ∃ cs', Spaced ts cs' ∧ Takes skipValue (encoded cs) () (encoded cs') := by
  have hlength : v.starts ≤ (encoded cs).length + 1 := by
    have hstarts := v.starts_le
    have hspaced := h.length_le
    have hencoded := length_le_encoded cs
    rw [List.length_append] at hspaced
    omega
  obtain ⟨fuel, hfuel⟩ := Nat.exists_eq_add_of_le' hlength
  obtain ⟨cs', hs, hskip⟩ := skipFrom_value fuel [] v hends h
  refine ⟨cs', hs, ?_⟩
  rw [skipValue]
  refine .bind (takes_get _) ?_
  rw [hfuel]
  exact hskip

end ScriptHost.Json

import ScriptHost.Proofs.Settings.Grammar
import ScriptHost.Proofs.Settings.Members

/-!
# Reading texts, however they are written

* `Fails`, `Settles` — a reader fails; a reader takes the value that there is, or fails if there is none;
* `Spaced.exists_peekToken` — white space is passed up to the next token;
* `settles_secondUnit` — two units of UTF-16 are one character if they belong together;
* **`settles_text`** — a text is read as the characters it stands for, and refused if it stands for none.
-/

namespace ScriptHost.Json

open Utf8

variable {α β : Type} {r r' r'' : List UInt8}

/-! ### Failing -/

/-- A reader fails at the start of a text. -/
def Fails (p : Reads α) (r : List UInt8) : Prop := ∃ e, p r = .error e

/-- A reader takes the value that there is and leaves the rest, or fails if there is none. -/
def Settles (p : Reads α) (r : List UInt8) (a? : Option α) (r' : List UInt8) : Prop :=
  a?.elim (Fails p r) fun a => Takes p r a r'

/-- What is taken first, and then what follows, whatever comes of it. -/
theorem Takes.bind_eq {p : Reads α} {a : α} (h : Takes p r a r') (f : α → Reads β) : (p >>= f) r = f a r' := by
  show (p r >>= fun x => f x.1 x.2) = _
  rw [h]
  rfl

theorem Fails.bind {p : Reads α} (h : Fails p r) (f : α → Reads β) : Fails (p >>= f) r := by
  obtain ⟨e, he⟩ := h
  refine ⟨e, ?_⟩
  show (p r >>= fun x => f x.1 x.2) = _
  rw [he]
  rfl

theorem Fails.of_eq {p q : Reads α} {s : List UInt8} (hq : Fails q s) (h : p r = q s) : Fails p r := by
  obtain ⟨e, he⟩ := hq
  exact ⟨e, h.trans he⟩

theorem Takes.bind_fails {p : Reads α} {f : α → Reads β} {a : α} (h : Takes p r a r') (hf : Fails (f a) r') :
    Fails (p >>= f) r := hf.of_eq (h.bind_eq f)

theorem takes_peek_head (r : List UInt8) : Takes peek r r.head? r := rfl

theorem fails_failHere (message : String) (r : List UInt8) : Fails (failHere message : Reads α) r := ⟨_, rfl⟩

theorem fails_failNext (message : String) (r : List UInt8) : Fails (failNext message : Reads α) r := ⟨_, rfl⟩

/-- Readers that do the same come to the same. -/
theorem Settles.of_eq {p q : Reads α} {s : List UInt8} {a? : Option α} (h : p r = q s) (hq : Settles q s a? r') :
    Settles p r a? r' := by
  cases a? with
  | none => exact Fails.of_eq hq h
  | some a => exact h.trans hq

theorem Takes.bind_settles {p : Reads α} {f : α → Reads β} {a : α} {b? : Option β} (h : Takes p r a r')
    (hf : Settles (f a) r' b? r'') : Settles (p >>= f) r b? r'' := hf.of_eq (h.bind_eq f)

/-! ### White space -/

/-- The characters up to a token are white space. -/
theorem Spaced.exists_token {t : Token} {ts : List Token} {cs : List Char} (h : Spaced (t :: ts) cs) :
    ∃ w cs', cs = w ++ (t.chars ++ cs') ∧ (∀ c, c ∈ w → isSpaceChar c = true) ∧ Spaced ts cs' := by
  generalize hts : t :: ts = us at h
  induction h with
  | nothing => cases hts
  | space c hc _ ih =>
    obtain ⟨w, cs', rfl, hw, hrest⟩ := ih hts
    exact ⟨c :: w, cs', rfl, List.forall_mem_cons.mpr ⟨hc, hw⟩, hrest⟩
  | @token _ cs _ h =>
    cases hts
    exact ⟨[], cs, rfl, nofun, h⟩

theorem Spaced.isSpaceChar_of_mem {cs : List Char} (h : Spaced [] cs) : ∀ c, c ∈ cs → isSpaceChar c = true := by
  generalize hts : [] = us at h
  induction h with
  | nothing => nofun
  | space c hc _ ih => exact List.forall_mem_cons.mpr ⟨hc, ih hts⟩
  | token => cases hts

theorem isSpace_of_mem_encoded {w : List Char} (hw : ∀ c, c ∈ w → isSpaceChar c = true) :
    ∀ b, b ∈ encoded w → isSpace b = true := by
  intro b hb
  obtain ⟨c, hc, hb⟩ := List.mem_flatMap.mp hb
  have hspace := hw c hc
  simp only [isSpaceChar, Bool.or_eq_true, decide_eq_true_eq] at hspace
  rcases hspace with ((rfl | rfl) | rfl) | rfl
  all_goals exact List.all_eq_true.mp (by decide) b hb

/-- No token begins with white space. -/
theorem Token.exists_byte (t : Token) : ∃ b bs, encoded t.chars = b :: bs ∧ isSpace b = false := by
  obtain ⟨c, cs, hchars, hc⟩ := t.exists_beginning
  have hall : (beginnings.all fun c =>
    decide (String.utf8EncodeChar c = [UInt8.ofNat c.toNat]) && !isSpace (UInt8.ofNat c.toNat)) = true := by decide
  have hbyte := List.all_eq_true.mp hall c hc
  rw [Bool.and_eq_true, decide_eq_true_eq, Bool.not_eq_true'] at hbyte
  refine ⟨UInt8.ofNat c.toNat, encoded cs, ?_, hbyte.2⟩
  rw [hchars, encoded_cons, hbyte.1]
  rfl

/-- **White space** is passed up to the next token, of which the first byte is seen. -/
theorem Spaced.exists_peekToken {t : Token} {ts : List Token} {cs : List Char} (h : Spaced (t :: ts) cs) :
    ∃ cs', Spaced ts cs' ∧
      Takes peekToken (encoded cs) (encoded t.chars).head? (encoded t.chars ++ encoded cs') := by
  obtain ⟨w, cs', rfl, hw, hrest⟩ := h.exists_token
  obtain ⟨b, bs, hbytes, hb⟩ := t.exists_byte
  refine ⟨cs', hrest, ?_⟩
  rw [encoded_append, encoded_append, hbytes]
  exact takes_peekToken (isSpace_of_mem_encoded hw) hb _

theorem takes_peekToken_byte {b : UInt8} (hb : isSpace b = false) (r : List UInt8) :
    Takes peekToken (b :: r) (some b) (b :: r) := takes_peekToken (w := []) nofun hb r

theorem eq_head?_of_takes_peekToken {b? : Option UInt8} (h : Takes peekToken r b? r') : b? = r'.head? := by
  cases h
  rfl

/-- White space is passed up to the end. -/
theorem Spaced.takes_peekToken_nil {cs : List Char} (h : Spaced [] cs) : Takes peekToken (encoded cs) none [] := by
  have hspace := isSpace_of_mem_encoded h.isSpaceChar_of_mem
  have hdrop : (encoded cs).dropWhile isSpace = [] := by
    have happend : (encoded cs ++ []).dropWhile isSpace = [].dropWhile isSpace := List.dropWhile_append_of_pos hspace
    rwa [List.append_nil] at happend
  show Except.ok (((encoded cs).dropWhile isSpace).head?, (encoded cs).dropWhile isSpace) = _
  rw [hdrop]
  rfl

/-! ### Texts -/

namespace HexDigit

theorem encoded_char (h : HexDigit) : String.utf8EncodeChar h.char = [UInt8.ofNat h.char.toNat] := by
  obtain ⟨v, capital⟩ := h
  revert v capital
  decide

theorem hexDigit?_char (h : HexDigit) : hexDigit? (UInt8.ofNat h.char.toNat) = some h.value.val := by
  obtain ⟨v, capital⟩ := h
  revert v capital
  decide

end HexDigit

/-- The four digits of a unit. -/
def Unit16.digits (u : Unit16) : List Char := [u.a.char, u.b.char, u.c.char, u.d.char]

/-- **Four digits** are read as their unit. -/
theorem takes_hexEscape (u : Unit16) (r : List UInt8) : Takes hexEscape (encoded u.digits ++ r) u.value r := by
  have hbytes : encoded u.digits ++ r = UInt8.ofNat u.a.char.toNat :: UInt8.ofNat u.b.char.toNat ::
      UInt8.ofNat u.c.char.toNat :: UInt8.ofNat u.d.char.toNat :: r := by
    simp only [Unit16.digits, encoded_cons, HexDigit.encoded_char]
    rfl
  rw [hbytes]
  show hexEscape _ = _
  simp only [hexEscape, HexDigit.hexDigit?_char]
  rfl

theorem charBytes_eq (n : Nat) : charBytes n = String.utf8EncodeChar (Char.ofNat n) := by
  rw [charBytes, toList_ofString, String.toList_singleton, encoded_cons]
  exact List.append_nil _

/-- What is read of a unit, once its four digits are there. -/
theorem takes_unicodeEscape {u : Unit16} (hlow : u.isLow = false) (hhigh : u.isHigh = false) (r : List UInt8) :
    Takes unicodeEscape (encoded u.digits ++ r) (String.utf8EncodeChar (Char.ofNat u.value)) r := by
  simp only [Unit16.isLow, Unit16.isHigh, Bool.and_eq_false_iff, decide_eq_false_iff_not] at hlow hhigh
  rw [unicodeEscape]
  refine .bind (takes_hexEscape u r) ?_
  rw [if_neg (by simp only [Bool.and_eq_true, decide_eq_true_eq]; omega), if_pos (by simp; omega), ← charBytes_eq]
  exact takes_pure _ r

/-- A second unit does not come first. -/
theorem fails_unicodeEscape_low {u : Unit16} (hlow : u.isLow = true) (r : List UInt8) :
    Fails unicodeEscape (encoded u.digits ++ r) := by
  rw [Unit16.isLow] at hlow
  rw [unicodeEscape]
  refine (takes_hexEscape u r).bind_fails ?_
  rw [if_pos hlow]
  exact fails_failHere _ r

theorem takes_escapeGoesOn (c : Char) (r : List UInt8) : Takes (escapeGoesOn c) (code c :: r) () r := by
  rw [escapeGoesOn]
  refine .bind (takes_peek _ r) (.bind (takes_pass _ r) ?_)
  rw [if_neg (fun h => h rfl)]
  exact takes_pure () r

theorem fails_escapeGoesOn {c : Char} {b : UInt8} (hb : b ≠ code c) (r : List UInt8) : Fails (escapeGoesOn c) (b :: r) := by
  rw [escapeGoesOn]
  refine (takes_peek _ r).bind_fails ((takes_pass _ r).bind_fails ?_)
  rw [if_pos hb]
  exact fails_failHere _ r

/-- What follows the first unit of two. -/
def secondUnit (n : Nat) : Reads (List UInt8) := do
  escapeGoesOn '\\'
  escapeGoesOn 'u'
  let m ← hexEscape
  if m < 0xDC00 || 0xDFFF < m then failHere "lone leading surrogate in hex escape"
  else return charBytes ((n - 0xD800) * 1024 + (m - 0xDC00) + 0x10000)

theorem unicodeEscape_high {u : Unit16} (hhigh : u.isHigh = true) (r : List UInt8) :
    unicodeEscape (encoded u.digits ++ r) = secondUnit u.value r := by
  simp only [Unit16.isHigh, Bool.and_eq_true, decide_eq_true_eq] at hhigh
  rw [unicodeEscape, (takes_hexEscape u r).bind_eq, if_neg (by simp only [Bool.and_eq_true, decide_eq_true_eq]; omega),
    if_neg (by simp only [Bool.or_eq_true, decide_eq_true_eq]; omega)]
  rfl

/-- Two units that belong together are read as their character, and others are refused. -/
theorem settles_secondUnit (u v : Unit16) (r : List UInt8) : Settles (secondUnit u.value) (92 :: 117 :: (encoded v.digits ++ r))
    (if v.isLow then some (String.utf8EncodeChar (u.pair v)) else none) r := by
  cases hlow : v.isLow with
  | true =>
    simp only [Unit16.isLow, Bool.and_eq_true, decide_eq_true_eq] at hlow
    refine .bind (takes_escapeGoesOn '\\' _) (.bind (takes_escapeGoesOn 'u' _) (.bind (takes_hexEscape v r) ?_))
    rw [if_neg (by simp only [Bool.or_eq_true, decide_eq_true_eq]; omega), charBytes_eq]
    exact takes_pure _ r
  | false =>
    simp only [Unit16.isLow, Bool.and_eq_false_iff, decide_eq_false_iff_not] at hlow
    refine (takes_escapeGoesOn '\\' _).bind_fails ((takes_escapeGoesOn 'u' _).bind_fails ((takes_hexEscape v r).bind_fails ?_))
    rw [if_pos (by simp only [Bool.or_eq_true, decide_eq_true_eq]; omega)]
    exact fails_failHere _ r

/-- A first unit that stands alone is refused. -/
theorem fails_secondUnit {b : UInt8} (n : Nat) (hb : b ≠ 92) (r : List UInt8) : Fails (secondUnit n) (b :: r) :=
  (fails_escapeGoesOn hb r).bind _

theorem fails_secondUnit_escape {b : UInt8} (n : Nat) (hb : b ≠ 117) (r : List UInt8) : Fails (secondUnit n) (92 :: b :: r) :=
  (takes_escapeGoesOn '\\' (b :: r)).bind_fails ((fails_escapeGoesOn hb r).bind _)

/-- The letter behind the backslash, and what it stands for. -/
theorem Escape.lookup_letter (e : Escape) : ∃ b x, String.utf8EncodeChar e.letter = [b] ∧ b ≠ 117 ∧
    String.utf8EncodeChar e.char = [x] ∧ shortEscapes.lookup b = some x := by
  cases e
  all_goals exact ⟨_, _, rfl, by decide, rfl, by decide⟩

/-- An escape of a unit is read from behind its letter. -/
theorem escape_unit (r : List UInt8) : escape (117 :: r) = unicodeEscape r := by
  have hletter : shortEscapes.lookup 117 = none := by decide
  rw [escape, (takes_next 117 r).bind_eq]
  simp only [hletter]
  rw [if_pos (by decide)]

/-! ### Whole texts -/

theorem encoded_singleton (c : Char) : encoded [c] = String.utf8EncodeChar c := by
  rw [encoded_cons]
  exact List.append_nil _

/-- A character that needs no escape has no byte that needs one. -/
theorem isPlain_of_isUnescaped {c : Char} (hc : isUnescaped c = true) : ∀ b, b ∈ String.utf8EncodeChar c → isPlain b = true := by
  rw [isUnescaped, Bool.and_eq_true, Bool.and_eq_true, decide_eq_true_eq, decide_eq_true_eq, decide_eq_true_eq] at hc
  exact fun b => isPlain_of_mem hc.1.1 hc.1.2 hc.2

/-- Bytes that need no escape are read as they are, whatever follows. -/
theorem textFrom_plain {ds : List UInt8} (hds : ∀ d, d ∈ ds → isPlain d = true) (fuel : Nat) (read r : List UInt8) :
    textFrom (fuel + 1) read (ds ++ r) = textFrom (fuel + 1) (read ++ ds) r := by
  rw [textFrom, textFrom, (takes_plain_append hds r).bind_eq, (takes_plain r).bind_eq, List.append_assoc]

/-- At an escape, what it stands for is read. -/
theorem textFrom_escape (fuel : Nat) (read r : List UInt8) :
    textFrom (fuel + 1) read (92 :: r) = (do textFrom fuel (read ++ (← escape))) r := by
  rw [textFrom, (takes_plain_nothing (by decide) _).bind_eq, List.append_nil, (takes_next 92 r).bind_eq]
  rfl

/-- Behind a first unit that stands alone no escape of a second one begins. -/
theorem fails_secondUnit_of_spelled {gs : List Glyph} (r : List UInt8) (hunit : ∀ v rest, gs ≠ .unit v :: rest) (n : Nat) :
    Fails (secondUnit n) (encoded (spelled gs) ++ 34 :: r) := by
  cases gs with
  | nil => exact fails_secondUnit n (by decide) r
  | cons g gs =>
    rw [spelled, List.flatMap_cons, encoded_append, List.append_assoc]
    cases g with
    | plain c hc =>
      rw [Glyph.chars, encoded_singleton]
      cases hbytes : String.utf8EncodeChar c with
      | nil => exact absurd hbytes String.utf8EncodeChar_ne_nil
      | cons b bs =>
        have hplain := (isPlain_iff b).mp (isPlain_of_isUnescaped hc b (by rw [hbytes]; exact List.mem_cons_self))
        refine fails_secondUnit n ?_ _
        rintro rfl
        exact hplain.2.2 rfl
    | escape e =>
      obtain ⟨b, -, hb, hne, -, -⟩ := e.lookup_letter
      rw [Glyph.chars, encoded_cons, encoded_cons, hb]
      exact fails_secondUnit_escape n hne _
    | unit v => exact absurd rfl (hunit v gs)

/-- What is read of a text whose first characters have been read. -/
def readOn (read : List UInt8) (cs? : Option (List Char)) : Option String :=
  cs?.map fun cs => decodeLossy (read ++ encoded cs).toByteArray

theorem readOn_map_cons (read : List UInt8) (c : Char) (cs? : Option (List Char)) :
    readOn read (cs?.map (c :: ·)) = readOn (read ++ String.utf8EncodeChar c) cs? := by
  cases cs? with
  | none => rfl
  | some cs => exact congrArg (fun bs => some (decodeLossy bs.toByteArray)) (List.append_assoc _ _ _).symm

theorem encoded_spelled_cons (g : Glyph) (gs : List Glyph) (r : List UInt8) :
    encoded (spelled (g :: gs)) ++ r = encoded g.chars ++ (encoded (spelled gs) ++ r) := by
  rw [spelled, List.flatMap_cons, encoded_append, List.append_assoc, spelled]

theorem encoded_chars_unit (u : Unit16) : encoded (Glyph.unit u).chars = 92 :: 117 :: encoded u.digits := by
  rw [Glyph.chars, encoded_cons, encoded_cons]
  rfl

/-- An escape that is read as a character adds it to what has been read. -/
theorem settles_textFrom_escape {fuel : Nat} {read r₁ r₂ r : List UInt8} {c : Char} {cs? : Option (List Char)}
    (hescape : Takes escape r₁ (String.utf8EncodeChar c) r₂)
    (h : Settles (textFrom fuel (read ++ String.utf8EncodeChar c)) r₂ (readOn (read ++ String.utf8EncodeChar c) cs?) r) :
    Settles (textFrom (fuel + 1) read) (92 :: r₁) (readOn read (cs?.map (c :: ·))) r := by
  rw [readOn_map_cons]
  have hboth : Settles (do textFrom fuel (read ++ (← escape))) r₁ _ r := hescape.bind_settles h
  exact hboth.of_eq (textFrom_escape fuel read r₁)

/-- An escape of a unit that stands for no character spoils the text. -/
theorem settles_textFrom_none (fuel : Nat) (read : List UInt8) {r₁ : List UInt8} (h : Fails unicodeEscape r₁) (r : List UInt8) :
    Settles (textFrom (fuel + 1) read) (92 :: 117 :: r₁) none r := by
  have hescape : Fails escape (117 :: r₁) := h.of_eq (escape_unit r₁)
  have hboth : Fails (do textFrom fuel (read ++ (← escape))) (117 :: r₁) := hescape.bind _
  exact hboth.of_eq (textFrom_escape fuel read (117 :: r₁))

/-- **The parts of a text** are read up to the closing quote. -/
theorem settles_textFrom (r : List UInt8) (gs : List Glyph) : ∀ {fuel : Nat} (read : List UInt8), gs.length ≤ fuel →
    Settles (textFrom (fuel + 1) read) (encoded (spelled gs) ++ 34 :: r) (readOn read (characters? gs)) r := by
  fun_induction characters? gs with
  | case1 =>
    intro fuel read _
    show Takes _ (34 :: r) (decodeLossy (read ++ []).toByteArray) r
    rw [List.append_nil]
    exact takes_textFrom_quote fuel read r
  | case2 c hc rest ih =>
    intro fuel read hfuel
    rw [encoded_spelled_cons, Glyph.chars, encoded_singleton, readOn_map_cons]
    exact (ih _ (Nat.le_of_succ_le hfuel)).of_eq (textFrom_plain (isPlain_of_isUnescaped hc) fuel read _)
  | case3 e rest ih =>
    intro fuel read hfuel
    obtain ⟨fuel, rfl⟩ := Nat.exists_eq_add_one.mpr (Nat.zero_lt_of_lt hfuel)
    obtain ⟨b, x, hletter, -, hchar, hlookup⟩ := e.lookup_letter
    rw [encoded_spelled_cons, Glyph.chars, encoded_cons, encoded_singleton, hletter]
    refine settles_textFrom_escape ?_ (ih _ (Nat.le_of_succ_le_succ hfuel))
    rw [hchar]
    exact takes_escape_short hlookup _
  | case4 u rest hlow =>
    intro fuel read _
    rw [encoded_spelled_cons, encoded_chars_unit]
    exact settles_textFrom_none fuel read (fails_unicodeEscape_low hlow _) r
  | case5 u hlow hhigh v rest hlow' ih =>
    intro fuel read hfuel
    obtain ⟨fuel, rfl⟩ := Nat.exists_eq_add_one.mpr (Nat.zero_lt_of_lt hfuel)
    rw [encoded_spelled_cons, encoded_spelled_cons, encoded_chars_unit, encoded_chars_unit]
    refine settles_textFrom_escape ?_ (ih _ (Nat.le_of_succ_le (Nat.le_of_succ_le_succ hfuel)))
    have hsecond := settles_secondUnit u v (encoded (spelled rest) ++ 34 :: r)
    rw [if_pos hlow'] at hsecond
    exact (escape_unit _).trans ((unicodeEscape_high hhigh _).trans hsecond)
  | case6 u hlow hhigh v rest hlow' =>
    intro fuel read _
    rw [encoded_spelled_cons, encoded_spelled_cons, encoded_chars_unit, encoded_chars_unit]
    have hsecond := settles_secondUnit u v (encoded (spelled rest) ++ 34 :: r)
    rw [if_neg hlow'] at hsecond
    exact settles_textFrom_none fuel read (Fails.of_eq hsecond (unicodeEscape_high hhigh _)) r
  | case7 u rest hlow hhigh hunit =>
    intro fuel read _
    rw [encoded_spelled_cons, encoded_chars_unit]
    have hsecond := fails_secondUnit_of_spelled r hunit u.value
    exact settles_textFrom_none fuel read (Fails.of_eq hsecond (unicodeEscape_high hhigh _)) r
  | case8 u rest hlow hhigh ih =>
    intro fuel read hfuel
    obtain ⟨fuel, rfl⟩ := Nat.exists_eq_add_one.mpr (Nat.zero_lt_of_lt hfuel)
    rw [encoded_spelled_cons, encoded_chars_unit]
    refine settles_textFrom_escape ?_ (ih _ (Nat.le_of_succ_le_succ hfuel))
    exact (escape_unit _).trans
      (takes_unicodeEscape (Bool.eq_false_iff.mpr hlow) (Bool.eq_false_iff.mpr hhigh) _)

theorem length_le_spelled (gs : List Glyph) : gs.length ≤ (spelled gs).length := by
  induction gs with
  | nil => exact Nat.le_refl 0
  | cons g gs ih =>
    have hpos : 0 < g.chars.length := by
      cases g <;> exact Nat.succ_pos _
    rw [spelled, List.flatMap_cons, List.length_append, List.length_cons]
    rw [spelled] at ih
    omega

theorem length_le_encoded_spelled (gs : List Glyph) (r : List UInt8) : gs.length ≤ (encoded (spelled gs) ++ r).length := by
  have hspelled := length_le_spelled gs
  have hencoded := length_le_encoded (spelled gs)
  rw [List.length_append]
  omega

/-- The text that a text as it is written stands for. -/
def text? (gs : List Glyph) : Option String := (characters? gs).map String.ofList

/-- **A text** is read as the characters it stands for, and refused if it stands for none. -/
theorem settles_text (gs : List Glyph) (r : List UInt8) : Settles text (encoded (spelled gs) ++ 34 :: r) (text? gs) r := by
  have hread : readOn [] (characters? gs) = text? gs := by
    rw [readOn, text?]
    congr
    funext cs
    exact decodeLossy_encoded cs
  rw [text, ← hread]
  exact (takes_get _).bind_settles (settles_textFrom r gs [] (length_le_encoded_spelled gs _))

end ScriptHost.Json

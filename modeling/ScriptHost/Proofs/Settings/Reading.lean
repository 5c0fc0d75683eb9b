import ScriptHost.Proofs.Text.Utf8
import ScriptHost.Settings.Json

/-!
# Reading what was written

What is read of a number or a text that was written is that number or text, and what follows is left.

* `Takes` — a reader takes a value from the start of a text;
* **`takes_number`**, **`takes_text`** — numbers and texts as they are written.
-/

namespace ScriptHost.Json

open Utf8

variable {α β : Type} {r r' r'' : List UInt8}

/-- A reader takes a value from the start of a text, and leaves the rest. -/
def Takes (p : Reads α) (r : List UInt8) (a : α) (r' : List UInt8) : Prop := p r = .ok (a, r')

theorem Takes.bind {p : Reads α} {f : α → Reads β} {a : α} {b : β} (hp : Takes p r a r') (hf : Takes (f a) r' b r'') :
    Takes (p >>= f) r b r'' := by
  show (p r >>= fun x => f x.1 x.2) = _
  rw [hp]
  exact hf

/-- What is taken first, and then what follows. -/
theorem Takes.of_bind {p : Reads α} {f : α → Reads β} {a : α} {b : β} (h : Takes (p >>= f) r b r'')
    (hp : Takes p r a r') : Takes (f a) r' b r'' := by
  have hboth : (p r >>= fun x => f x.1 x.2) = .ok (b, r'') := h
  rw [hp] at hboth
  exact hboth

theorem takes_pure (a : α) (r : List UInt8) : Takes (pure a) r a r := rfl

theorem takes_get (r : List UInt8) : Takes (get : Reads (List UInt8)) r r r := rfl

theorem takes_peek (b : UInt8) (r : List UInt8) : Takes peek (b :: r) (some b) (b :: r) := rfl

theorem takes_next (b : UInt8) (r : List UInt8) : Takes next (b :: r) (some b) r := rfl

theorem takes_pass (b : UInt8) (r : List UInt8) : Takes pass (b :: r) () r := rfl

/-- Space is passed up to the next byte that is none. -/
theorem takes_peekToken {w : List UInt8} (hw : ∀ b, b ∈ w → isSpace b = true) {b : UInt8} (hb : isSpace b = false)
    (r : List UInt8) : Takes peekToken (w ++ b :: r) (some b) (b :: r) := by
  have hdrop : (w ++ b :: r).dropWhile isSpace = b :: r := by
    rw [List.dropWhile_append_of_pos hw, List.dropWhile_cons_of_neg (by rw [hb]; nofun)]
  show Except.ok (((w ++ b :: r).dropWhile isSpace).head?, _) = _
  rw [hdrop]
  rfl

/-! ### Numbers -/

/-- What stands behind a number: neither more digits nor a fraction nor an exponent. -/
def EndsNumber (b : UInt8) : Prop := isDigit b = false ∧ b ≠ code '.' ∧ b ≠ code 'e' ∧ b ≠ code 'E'

theorem toNat_digit {c : Char} (h : c.isDigit = true) : 48 ≤ c.toNat ∧ c.toNat ≤ 57 := Char.isDigit_iff_toNat.mp h

/-- The byte of a digit. -/
theorem toNat_digitByte {c : Char} (h : c.isDigit = true) : (UInt8.ofNat c.toNat).toNat = c.toNat :=
  toNat_ofNat (by have := toNat_digit h; omega)

theorem isDigit_digitByte {c : Char} (h : c.isDigit = true) : isDigit (UInt8.ofNat c.toNat) = true := by
  have hbounds := toNat_digit h
  simp only [isDigit, Bool.and_eq_true, decide_eq_true_eq, UInt8.le_iff_toNat_le, toNat_digitByte h]
  exact hbounds

/-- Digits as bytes. -/
theorem encoded_digits {cs : List Char} (h : ∀ c, c ∈ cs → c.isDigit = true) :
    encoded cs = cs.map fun c => UInt8.ofNat c.toNat := by
  induction cs with
  | nil => rfl
  | cons c cs ih =>
    have hc := toNat_digit (h c List.mem_cons_self)
    have hone : String.utf8EncodeChar c = [UInt8.ofNat c.toNat] := by
      have hval : c.val.toNat = c.toNat := rfl
      rw [String.utf8EncodeChar, hval]
      exact if_pos (by omega)
    rw [encoded_cons, hone, ih fun d hd => h d (List.mem_cons_of_mem c hd)]
    rfl

/-- More digits make no smaller number. -/
theorem le_ofDigitChars (cs : List Char) (n : Nat) : n ≤ Nat.ofDigitChars 10 cs n := by
  have hpos : 0 < 10 ^ cs.length := Nat.pow_pos (by decide)
  have hmul : n ≤ 10 ^ cs.length * n := Nat.le_mul_of_pos_left n hpos
  rw [Nat.ofDigitChars_eq_ofDigitChars_zero]
  omega

/-- **Digits that make a number of 64 bits** are all added. -/
theorem addDigits_map {cs : List Char} : ∀ {n : Nat}, (∀ c, c ∈ cs → c.isDigit = true) →
    Nat.ofDigitChars 10 cs n ≤ maxWord →
    addDigits n (cs.map fun c => UInt8.ofNat c.toNat) = (Nat.ofDigitChars 10 cs n, []) := by
  induction cs with
  | nil =>
    intro n _ _
    rfl
  | cons c cs ih =>
    intro n hdigits hle
    have hc := hdigits c List.mem_cons_self
    have hnext : n * 10 + ((UInt8.ofNat c.toNat).toNat - 48) = 10 * n + (c.toNat - '0'.toNat) := by
      rw [toNat_digitByte hc, Nat.mul_comm]
      rfl
    rw [Nat.ofDigitChars_cons] at hle ⊢
    have hsmall := Nat.le_trans (le_ofDigitChars cs _) hle
    rw [List.map_cons, addDigits, hnext, if_neg (Nat.not_lt.mpr hsmall)]
    exact ih (fun d hd => hdigits d (List.mem_cons_of_mem c hd)) hle

theorem takes_digits {ds : List UInt8} (hds : ∀ d, d ∈ ds → isDigit d = true) {b : UInt8} (hb : isDigit b = false)
    (r : List UInt8) : Takes digits (ds ++ b :: r) ds (b :: r) := by
  have hneg : ¬ isDigit b = true := by
    rw [hb]
    nofun
  show Except.ok (_, _) = _
  rw [List.takeWhile_append_of_pos hds, List.dropWhile_append_of_pos hds, List.takeWhile_cons_of_neg hneg,
    List.dropWhile_cons_of_neg hneg, List.append_nil]

theorem isByte_some_iff (b : UInt8) (c : Char) : isByte (some b) c = true ↔ b = code c := by
  rw [isByte, beq_iff_eq, Option.some.injEq]

/-- A number that ends where its digits end is an integer. -/
theorem takes_afterInteger (n : Nat) {b : UInt8} (hb : EndsNumber b) (r : List UInt8) :
    Takes (afterInteger false n) (b :: r) (.integer n) (b :: r) := by
  obtain ⟨-, hpoint, he, hE⟩ := hb
  have hpoint' : ¬ isByte (some b) '.' = true := by rwa [isByte_some_iff]
  have he' : ¬ (isByte (some b) 'e' || isByte (some b) 'E') = true := by
    rw [Bool.or_eq_true, isByte_some_iff, isByte_some_iff]
    exact not_or.mpr ⟨he, hE⟩
  rw [afterInteger]
  refine .bind (takes_peek b r) ?_
  rw [if_neg hpoint', if_neg he', if_neg Bool.false_ne_true]
  exact takes_pure _ _

/-- **A number** that is written without needless zeros is read as what its digits make. -/
theorem takes_number {c : Char} {cs : List Char} (hc : c.isDigit = true) (hcs : ∀ d, d ∈ cs → d.isDigit = true)
    (hzero : c = '0' → cs = []) (hle : Nat.ofDigitChars 10 (c :: cs) 0 ≤ maxWord) {b : UInt8} (hb : EndsNumber b)
    (r : List UInt8) :
    Takes (number false) (encoded (c :: cs) ++ b :: r) (.integer (Nat.ofDigitChars 10 (c :: cs) 0 : Nat)) (b :: r) := by
  have hall : ∀ d, d ∈ c :: cs → d.isDigit = true := by
    intro d hd
    rcases List.mem_cons.mp hd with rfl | hd
    · exact hc
    · exact hcs d hd
  rw [encoded_digits hall, List.map_cons, List.cons_append, number]
  refine .bind (takes_next _ _) ?_
  simp only
  by_cases h0 : c = '0'
  · rw [hzero h0, h0]
    have hneg : ¬ isDigit b = true := by
      rw [hb.1]
      nofun
    rw [if_pos (by decide)]
    refine .bind (takes_peek b r) ?_
    simp only
    rw [if_neg hneg]
    exact takes_afterInteger 0 hb r
  · have hne : ¬ UInt8.ofNat c.toNat = 48 := by
      intro heq
      have hnat := congrArg UInt8.toNat heq
      rw [toNat_digitByte hc] at hnat
      exact h0 (Char.toNat_inj.mp hnat)
    have hbytes : ∀ d, d ∈ cs.map (fun c => UInt8.ofNat c.toNat) → isDigit d = true := by
      intro d hd
      obtain ⟨e, he, rfl⟩ := List.mem_map.mp hd
      exact isDigit_digitByte (hcs e he)
    rw [if_neg hne, if_pos (isDigit_digitByte hc)]
    refine .bind (takes_digits hbytes hb.1 r) ?_
    have hfirst : (UInt8.ofNat c.toNat).toNat - 48 = 10 * 0 + (c.toNat - '0'.toNat) := by
      rw [toNat_digitByte hc, Nat.mul_zero, Nat.zero_add]
      rfl
    rw [Nat.ofDigitChars_cons] at hle ⊢
    rw [hfirst, addDigits_map hcs hle]
    exact takes_afterInteger _ hb r

/-- The digits of a number begin with a zero only if there is no other. -/
theorem toDigits_cons (n : Nat) : ∃ c cs, Nat.toDigits 10 n = c :: cs ∧ (c = '0' → cs = []) ∧ (0 < n → c ≠ '0') := by
  induction n using Nat.strongRecOn with
  | _ n ih =>
    by_cases hn : n < 10
    · have hfirst : ∀ k, k < 10 → 0 < k → k.digitChar ≠ '0' := by decide
      exact ⟨n.digitChar, [], Nat.toDigits_of_lt_base hn, fun _ => rfl, hfirst n hn⟩
    · obtain ⟨c, cs, hdigits, -, hne⟩ := ih (n / 10) (by omega)
      have hc := hne (by omega)
      refine ⟨c, cs ++ [(n % 10).digitChar], ?_, fun h => absurd h hc, fun _ => hc⟩
      rw [Nat.toDigits_of_base_le (by decide) (by omega), hdigits]
      rfl

/-- **A number as it is written** is read as that number. -/
theorem takes_written {n : Nat} (hn : n ≤ maxWord) {b : UInt8} (hb : EndsNumber b) (r : List UInt8) :
    Takes (number false) (encoded (toString n).toList ++ b :: r) (.integer n) (b :: r) := by
  have hwritten : (toString n).toList = Nat.toDigits 10 n := Nat.toList_repr
  have hvalue : Nat.ofDigitChars 10 (Nat.toDigits 10 n) 0 = n := Nat.ofDigitChars_ten_toDigits
  have hdigit : ∀ d, d ∈ Nat.toDigits 10 n → d.isDigit = true :=
    fun d => Nat.isDigit_of_mem_toDigits (by decide) (by decide)
  obtain ⟨c, cs, hdigits, hzero, -⟩ := toDigits_cons n
  rw [hdigits] at hvalue hdigit
  rw [hwritten, hdigits]
  have htakes := takes_number (hdigit c List.mem_cons_self) (fun d hd => hdigit d (List.mem_cons_of_mem c hd)) hzero
    (by rw [hvalue]; exact hn) hb r
  rwa [hvalue] at htakes

/-! ### Texts -/

/-- A byte that needs no escape. -/
def isPlain (b : UInt8) : Bool := 32 ≤ b && b ≠ 34 && b ≠ 92

theorem takes_plain (r : List UInt8) : Takes plain r (r.takeWhile isPlain) (r.dropWhile isPlain) := rfl

/-- Bytes that need no escape are taken with those that follow. -/
theorem takes_plain_append {ds : List UInt8} (hds : ∀ d, d ∈ ds → isPlain d = true) (r : List UInt8) :
    Takes plain (ds ++ r) (ds ++ r.takeWhile isPlain) (r.dropWhile isPlain) := by
  have htakes := takes_plain (ds ++ r)
  rwa [List.takeWhile_append_of_pos hds, List.dropWhile_append_of_pos hds] at htakes

theorem takes_plain_nothing {b : UInt8} (hb : isPlain b = false) (r : List UInt8) : Takes plain (b :: r) [] (b :: r) := by
  have hneg : ¬ isPlain b = true := by
    rw [hb]
    nofun
  have htakes := takes_plain (b :: r)
  rwa [List.takeWhile_cons_of_neg hneg, List.dropWhile_cons_of_neg hneg] at htakes

/-- The closing quote ends a text. -/
theorem takes_textFrom_quote (fuel : Nat) (read r : List UInt8) :
    Takes (textFrom (fuel + 1) read) (34 :: r) (decodeLossy read.toByteArray) r := by
  rw [textFrom]
  refine .bind (takes_plain_nothing (by decide) r) ?_
  rw [List.append_nil]
  exact .bind (takes_next 34 r) (takes_pure _ r)

/-- Bytes that need no escape are read as they are. -/
theorem takes_textFrom_plain {fuel : Nat} {ds read r r' : List UInt8} {t : String} (hds : ∀ d, d ∈ ds → isPlain d = true)
    (h : Takes (textFrom (fuel + 1) (read ++ ds)) r t r') : Takes (textFrom (fuel + 1) read) (ds ++ r) t r' := by
  rw [textFrom] at h ⊢
  have hrest := h.of_bind (takes_plain r)
  refine .bind (takes_plain_append hds r) ?_
  rw [← List.append_assoc]
  exact hrest

/-- An escape is read as what it stands for. -/
theorem takes_textFrom_escape {fuel : Nat} {e bytes read r r' : List UInt8} {t : String}
    (hescape : Takes escape (e ++ r) bytes r) (h : Takes (textFrom fuel (read ++ bytes)) r t r') :
    Takes (textFrom (fuel + 1) read) (92 :: (e ++ r)) t r' := by
  rw [textFrom]
  refine .bind (takes_plain_nothing (by decide) _) ?_
  rw [List.append_nil]
  exact .bind (takes_next 92 _) (.bind hescape h)

theorem hexDigit?_hexChar : ∀ k, k < 16 → hexDigit? (UInt8.ofNat (hexChar k).toNat) = some k := by decide

theorem encoded_hexChar : ∀ k, k < 16 → String.utf8EncodeChar (hexChar k) = [UInt8.ofNat (hexChar k).toNat] := by decide

/-- A letter after the backslash is read as its character. -/
theorem takes_escape_short {b x : UInt8} (hb : shortEscapes.lookup b = some x) (r : List UInt8) :
    Takes escape (b :: r) [x] r := by
  rw [escape]
  refine .bind (takes_next b r) ?_
  simp only [hb]
  exact takes_pure _ r

/-- The number of a control character is read as that character. -/
theorem takes_escape_hex {n : Nat} (hn : n < 32) (r : List UInt8) :
    Takes escape (117 :: 48 :: 48 :: UInt8.ofNat (hexChar (n / 16)).toNat :: UInt8.ofNat (hexChar (n % 16)).toNat :: r)
      (charBytes n) r := by
  have hhigh := hexDigit?_hexChar (n / 16) (by omega)
  have hlow := hexDigit?_hexChar (n % 16) (by omega)
  have hzero : hexDigit? 48 = some 0 := by decide
  have hsum : ((0 * 16 + 0) * 16 + n / 16) * 16 + n % 16 = n := by omega
  have hhex : Takes hexEscape
      (48 :: 48 :: UInt8.ofNat (hexChar (n / 16)).toNat :: UInt8.ofNat (hexChar (n % 16)).toNat :: r) n r := by
    show hexEscape _ = _
    simp only [hexEscape, hzero, hhigh, hlow, hsum]
  have hletter : shortEscapes.lookup 117 = none := by decide
  rw [escape]
  refine .bind (takes_next 117 _) ?_
  simp only [hletter]
  rw [if_pos (by decide), unicodeEscape]
  refine .bind hhex ?_
  rw [if_neg (by simp only [Bool.and_eq_true, decide_eq_true_eq]; omega), if_pos (by simp; omega)]
  exact takes_pure _ r

theorem charBytes_toNat (c : Char) : charBytes c.toNat = String.utf8EncodeChar c := by
  rw [charBytes, Char.ofNat_toNat, toList_ofString, String.toList_singleton, encoded_cons]
  exact List.append_nil _

/-- **A character that has an escape** is read from it. -/
theorem takes_escape {c : Char} {e : List Char} (hc : quotedChar c = '\\' :: e) (r : List UInt8) :
    Takes escape (encoded e ++ r) (String.utf8EncodeChar c) r := by
  rw [quotedChar] at hc
  iterate 7
    split at hc
    case isTrue h =>
      cases hc
      rw [h]
      exact takes_escape_short (by decide) r
  split at hc
  case isTrue h =>
    cases hc
    have hhigh := encoded_hexChar (c.toNat / 16) (by omega)
    have hlow := encoded_hexChar (c.toNat % 16) (by omega)
    have hbytes : encoded ['u', '0', '0', hexChar (c.toNat / 16), hexChar (c.toNat % 16)]
        = [117, 48, 48, UInt8.ofNat (hexChar (c.toNat / 16)).toNat, UInt8.ofNat (hexChar (c.toNat % 16)).toNat] := by
      simp only [encoded_cons, hhigh, hlow]
      rfl
    rw [hbytes, ← charBytes_toNat]
    exact takes_escape_hex h r
  case isFalse hquote hbackslash _ _ _ _ _ _ => exact absurd (List.cons.inj hc).1 hbackslash

theorem isPlain_iff (b : UInt8) : isPlain b = true ↔ 32 ≤ b.toNat ∧ b.toNat ≠ 34 ∧ b.toNat ≠ 92 := by
  simp only [isPlain, Bool.and_eq_true, decide_eq_true_eq, UInt8.le_iff_toNat_le, ne_eq, ← UInt8.toNat_inj,
    UInt8.reduceToNat, and_assoc]

/-- A character that is neither a control character nor a quote or backslash has plain bytes only. -/
theorem isPlain_of_mem {c : Char} (hcontrol : 32 ≤ c.toNat) (hquote : c ≠ '"') (hbackslash : c ≠ '\\') {b : UInt8}
    (hb : b ∈ String.utf8EncodeChar c) : isPlain b = true := by
  have hquote' : c.toNat ≠ 34 := fun h => hquote (Char.toNat_inj.mp h)
  have hbackslash' : c.toNat ≠ 92 := fun h => hbackslash (Char.toNat_inj.mp h)
  rw [isPlain_iff]
  by_cases hascii : b.toNat < 128
  · rw [← toNat_of_mem hb hascii]
    exact ⟨hcontrol, hquote', hbackslash'⟩
  · omega

/-- A character stands for itself, or has an escape. -/
theorem quotedChar_cases (c : Char) :
    (∃ e, quotedChar c = '\\' :: e) ∨ quotedChar c = [c] ∧ ∀ b, b ∈ String.utf8EncodeChar c → isPlain b = true := by
  rw [quotedChar]
  split
  case isTrue => exact .inl ⟨_, rfl⟩
  case isFalse hquote =>
    split
    case isTrue => exact .inl ⟨_, rfl⟩
    case isFalse hbackslash =>
      iterate 6
        split
        case isTrue => exact .inl ⟨_, rfl⟩
      case isFalse hcontrol => exact .inr ⟨rfl, fun b => isPlain_of_mem (Nat.not_lt.mp hcontrol) hquote hbackslash⟩

/-- **The characters of a text** are read up to the closing quote. -/
theorem takes_textFrom (r : List UInt8) (cs : List Char) : ∀ {fuel : Nat} {read : List UInt8}, cs.length < fuel →
    Takes (textFrom fuel read) (encoded (cs.flatMap quotedChar) ++ 34 :: r)
      (decodeLossy (read ++ encoded cs).toByteArray) r := by
  induction cs with
  | nil =>
    intro fuel read hfuel
    obtain ⟨fuel, rfl⟩ := Nat.exists_eq_add_one.mpr hfuel
    have htakes := takes_textFrom_quote fuel read r
    show Takes _ _ (decodeLossy (read ++ []).toByteArray) r
    rwa [List.append_nil]
  | cons c cs ih =>
    intro fuel read hfuel
    obtain ⟨fuel, rfl⟩ := Nat.exists_eq_add_one.mpr (Nat.zero_lt_of_lt hfuel)
    have hless : cs.length < fuel := Nat.lt_of_succ_lt_succ hfuel
    have hread : read ++ encoded (c :: cs) = read ++ String.utf8EncodeChar c ++ encoded cs := by
      rw [encoded_cons, List.append_assoc]
    rw [List.flatMap_cons, encoded_append, List.append_assoc, hread]
    rcases quotedChar_cases c with ⟨e, he⟩ | ⟨hself, hplain⟩
    · rw [he, encoded_cons]
      exact takes_textFrom_escape (takes_escape he _) (ih hless)
    · have hone : encoded [c] = String.utf8EncodeChar c := by
        rw [encoded_cons]
        exact List.append_nil _
      rw [hself, hone]
      exact takes_textFrom_plain hplain (ih (Nat.lt_succ_of_lt hless))

theorem length_le_flatMap_quotedChar (cs : List Char) : cs.length ≤ (cs.flatMap quotedChar).length := by
  induction cs with
  | nil => exact Nat.le_refl 0
  | cons c cs ih =>
    have hpos : 0 < (quotedChar c).length := by
      rcases quotedChar_cases c with ⟨e, he⟩ | ⟨hself, -⟩
      · rw [he]
        exact Nat.succ_pos _
      · rw [hself]
        exact Nat.succ_pos _
    rw [List.flatMap_cons, List.length_append, List.length_cons]
    omega

/-- **A text as it is written** is read as that text. -/
theorem takes_text (s : String) (r : List UInt8) :
    Takes text (encoded (s.toList.flatMap quotedChar) ++ 34 :: r) s r := by
  have hless : s.toList.length < (encoded (s.toList.flatMap quotedChar) ++ 34 :: r).length + 1 := by
    have hquoted := length_le_flatMap_quotedChar s.toList
    have hencoded := length_le_encoded (s.toList.flatMap quotedChar)
    rw [List.length_append]
    omega
  have htakes : Takes (textFrom _ []) _ _ r := takes_textFrom r s.toList hless
  rw [List.nil_append, decodeLossy_encoded, String.ofList_toList] at htakes
  rw [text]
  exact .bind (takes_get _) htakes

end ScriptHost.Json

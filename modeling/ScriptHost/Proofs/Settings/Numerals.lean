import ScriptHost.Proofs.Settings.Spelled

/-!
# Reading numbers, however they are written

* `NeverInteger` — with a fraction or an exponent no integer is read;
* `number_written`, `not_takes_number` — digits are read as their number if it has 64 bits, and else as no integer;
* **`Number.natural?`**, **`settles_natural`** — natural numbers up to a limit are the numbers without sign, fraction and
  exponent up to it; all others are refused.
-/

namespace ScriptHost.Json

open Utf8 Settings

variable {α β : Type} {r r' r'' : List UInt8}

/-! ### Fractions and exponents -/

/-- A reader that takes no integer from any text. -/
def NeverInteger (p : Reads Numeral) : Prop := ∀ r n r', ¬ Takes p r (.integer n) r'

namespace NeverInteger

theorem bind {p : Reads α} {f : α → Reads Numeral} (hf : ∀ a, NeverInteger (f a)) : NeverInteger (p >>= f) := by
  intro r n r' h
  have hboth : (p r >>= fun x => f x.1 x.2) = .ok (.integer n, r') := h
  cases hp : p r with
  | error e =>
    rw [hp] at hboth
    cases hboth
  | ok x =>
    rw [hp] at hboth
    exact hf x.1 x.2 n r' hboth

theorem pure_float (x : Float) : NeverInteger (pure (.float x)) := by
  intro r n r' h
  cases h

theorem failHere (message : String) : NeverInteger (failHere message) := by
  intro r n r' h
  cases h

theorem float (negative : Bool) (n : Nat) (e : Int) : NeverInteger (float negative n e) := by
  rw [Json.float]
  split
  · exact pure_float _
  · exact failHere _

theorem addExponent (negative : Bool) (n : Nat) (before : Int) (down : Bool) (ds : List UInt8) : ∀ e,
    NeverInteger (exponent.addExponent negative n before down e ds) := by
  induction ds with
  | nil => exact fun e => float _ _ _
  | cons d ds ih =>
    intro e
    rw [exponent.addExponent]
    split
    · refine bind fun _ => ?_
      simp only
      split
      · split
        · exact failHere _
        · exact bind fun _ => pure_float _
      · exact ih _
    · exact float _ _ _

theorem exponent (negative : Bool) (n : Nat) (before : Int) : NeverInteger (exponent negative n before) := by
  rw [Json.exponent]
  refine bind fun _ => bind fun b => ?_
  dsimp only
  split
  case' h_1 => refine bind fun _ => ?_
  case' h_2 => refine bind fun _ => ?_
  all_goals
    refine bind fun down => bind fun d => ?_
    split
    · exact failHere _
    · split
      · exact bind fun ds => addExponent negative n before down ds _
      · exact failHere _

theorem maybeExponent (negative : Bool) (n : Nat) (e : Int) : NeverInteger (maybeExponent negative n e) := by
  rw [Json.maybeExponent]
  refine bind fun b => ?_
  split
  · exact exponent _ _ _
  · exact float _ _ _

theorem fraction (negative : Bool) (n : Nat) (before : Int) : NeverInteger (fraction negative n before) := by
  rw [Json.fraction]
  refine bind fun _ => bind fun ds => ?_
  dsimp only
  split
  · refine bind fun b => ?_
    split
    all_goals exact bind fun _ => maybeExponent _ _ _
  · exact maybeExponent _ _ _

end NeverInteger

/-! ### Digits -/

/-- Where an integer is read, neither a fraction nor an exponent follows, and it is not a zero with a sign. -/
theorem integer_of_takes_afterInteger (negative : Bool) (n : Nat) (m : Int) : Takes (afterInteger negative n) r (.integer m) r' →
    isByte r.head? '.' = false ∧ isByte r.head? 'e' = false ∧ isByte r.head? 'E' = false ∧ (negative = true → m < 0) := by
  intro h
  rw [afterInteger] at h
  have hrest := h.of_bind (takes_peek_head r)
  split at hrest
  · exact absurd hrest (NeverInteger.fraction _ _ _ _ _ _)
  · rename_i hpoint
    split at hrest
    · exact absurd hrest (NeverInteger.exponent _ _ _ _ _ _)
    · rename_i hexp
      rw [Bool.or_eq_true, not_or] at hexp
      refine ⟨Bool.eq_false_iff.mpr hpoint, Bool.eq_false_iff.mpr hexp.1, Bool.eq_false_iff.mpr hexp.2, ?_⟩
      intro hneg
      rw [if_pos hneg] at hrest
      split at hrest
      · cases hrest
      · rename_i hzero
        rw [Bool.or_eq_true, decide_eq_true_eq, decide_eq_true_eq] at hzero
        cases hrest
        omega

theorem takes_digits_append {ds : List UInt8} (hds : ∀ d, d ∈ ds → isDigit d = true)
    (hr : ∀ b, r.head? = some b → isDigit b = false) : Takes digits (ds ++ r) ds r := by
  cases r with
  | nil =>
    show Except.ok (_, _) = _
    rw [List.takeWhile_append_of_pos hds, List.dropWhile_append_of_pos hds, List.takeWhile_nil, List.dropWhile_nil,
      List.append_nil]
  | cons b r => exact takes_digits hds (hr b rfl) r

/-- Digits that make a number of more than 64 bits are not all added. -/
theorem exists_addDigits {cs : List Char} : ∀ {n : Nat}, (∀ c, c ∈ cs → c.isDigit = true) → n ≤ maxWord →
    maxWord < Nat.ofDigitChars 10 cs n →
    ∃ m d rest, addDigits n (cs.map fun c => UInt8.ofNat c.toNat) = (m, d :: rest) := by
  induction cs with
  | nil =>
    intro n _ hn hless
    exact absurd hn (Nat.not_le.mpr hless)
  | cons c cs ih =>
    intro n hdigits _ hless
    have hc := hdigits c List.mem_cons_self
    have hnext : n * 10 + ((UInt8.ofNat c.toNat).toNat - 48) = 10 * n + (c.toNat - '0'.toNat) := by
      rw [toNat_digitByte hc, Nat.mul_comm]
      rfl
    rw [Nat.ofDigitChars_cons] at hless
    rw [List.map_cons, addDigits, hnext]
    by_cases hmore : maxWord < 10 * n + (c.toNat - '0'.toNat)
    · exact ⟨n, _, _, if_pos hmore⟩
    · rw [if_neg hmore]
      exact ih (fun d hd => hdigits d (List.mem_cons_of_mem c hd)) (Nat.not_lt.mp hmore) hless

/-- The digits of a number as it is written: the first of several is no zero. -/
structure Digits (n : Nat) (c : Char) (cs : List Char) : Prop where
  written : (toString n).toList = c :: cs
  first : c.isDigit = true
  rest : ∀ d, d ∈ cs → d.isDigit = true
  zero : c = '0' → cs = []
  value : Nat.ofDigitChars 10 cs (c.toNat - '0'.toNat) = n

theorem exists_digits (n : Nat) : ∃ c cs, Digits n c cs := by
  obtain ⟨c, cs, hdigits, hzero, -⟩ := toDigits_cons n
  have hvalue : Nat.ofDigitChars 10 (Nat.toDigits 10 n) 0 = n := Nat.ofDigitChars_ten_toDigits
  have hdigit : ∀ d, d ∈ Nat.toDigits 10 n → d.isDigit = true :=
    fun d => Nat.isDigit_of_mem_toDigits (by decide) (by decide)
  rw [hdigits] at hvalue hdigit
  rw [Nat.ofDigitChars_cons, Nat.mul_zero, Nat.zero_add] at hvalue
  exact ⟨c, cs, Nat.toList_repr.trans hdigits, hdigit c List.mem_cons_self,
    fun d hd => hdigit d (List.mem_cons_of_mem c hd), hzero, hvalue⟩

theorem Digits.zero_eq {n : Nat} {c : Char} {cs : List Char} (h : Digits n c cs) (hc : c = '0') : n = 0 := by
  have hvalue := h.value
  rw [h.zero hc, hc] at hvalue
  exact hvalue.symm

theorem Digits.encoded_eq {n : Nat} {c : Char} {cs : List Char} (h : Digits n c cs) :
    encoded (toString n).toList = UInt8.ofNat c.toNat :: cs.map fun c => UInt8.ofNat c.toNat := by
  rw [h.written, encoded_digits (List.forall_mem_cons.mpr ⟨h.first, h.rest⟩), List.map_cons]

theorem Digits.isDigit_of_mem {n : Nat} {c : Char} {cs : List Char} (h : Digits n c cs) :
    ∀ d, d ∈ cs.map (fun c => UInt8.ofNat c.toNat) → isDigit d = true := by
  intro d hd
  obtain ⟨e, he, rfl⟩ := List.mem_map.mp hd
  exact isDigit_digitByte (h.rest e he)

theorem Digits.byte_ne {n : Nat} {c : Char} {cs : List Char} (h : Digits n c cs) (hc : c ≠ '0') :
    ¬ UInt8.ofNat c.toNat = 48 := by
  intro heq
  have hnat := congrArg UInt8.toNat heq
  rw [toNat_digitByte h.first] at hnat
  exact hc (Char.toNat_inj.mp hnat)

/-- Read what follows the digits of a number, when some have been added and some are left. -/
def afterDigits (negative : Bool) (n : Nat) (left : List UInt8) : Reads Numeral :=
  if left.isEmpty then afterInteger negative n
  else do
    let b ← peek
    if isByte b '.' then fraction negative n left.length else maybeExponent negative n left.length

/-- A number whose first digit is no zero: its digits are added as long as they fit. -/
theorem Digits.number_eq {n : Nat} {c : Char} {cs : List Char} (h : Digits n c cs) (hc : c ≠ '0') (negative : Bool)
    (hr : ∀ b, r.head? = some b → isDigit b = false) {m : Nat} {left : List UInt8}
    (hadd : addDigits (c.toNat - '0'.toNat) (cs.map fun c => UInt8.ofNat c.toNat) = (m, left)) :
    number negative (encoded (toString n).toList ++ r) = afterDigits negative m left r := by
  have hfirst : (UInt8.ofNat c.toNat).toNat - 48 = c.toNat - '0'.toNat := by
    rw [toNat_digitByte h.first]
    rfl
  rw [h.encoded_eq, List.cons_append, number, (takes_next _ _).bind_eq]
  dsimp only
  rw [if_neg (h.byte_ne hc), if_pos (isDigit_digitByte h.first), (takes_digits_append h.isDigit_of_mem hr).bind_eq, hfirst, hadd]
  cases left <;> rfl

/-- **Digits** that make a number of 64 bits are read as that number. -/
theorem number_written {n : Nat} (hn : n ≤ maxWord) (negative : Bool) (hr : ∀ b, r.head? = some b → isDigit b = false) :
    number negative (encoded (toString n).toList ++ r) = afterInteger negative n r := by
  obtain ⟨c, cs, h⟩ := exists_digits n
  by_cases hc : c = '0'
  · have hzero := h.zero_eq hc
    have hbytes : encoded (toString n).toList ++ r = 48 :: r := by
      rw [h.written, h.zero hc, hc]
      rfl
    rw [hbytes, hzero, number, (takes_next 48 r).bind_eq]
    dsimp only
    rw [if_pos rfl, (takes_peek_head r).bind_eq]
    cases hhead : r.head? with
    | none => rfl
    | some b =>
      dsimp only
      rw [if_neg]
      rw [hr b hhead]
      exact Bool.false_ne_true
  · rw [h.number_eq hc negative hr (addDigits_map h.rest (by rw [h.value]; exact hn)), h.value]
    rfl

/-- **Digits** that make a greater number are read as no integer. -/
theorem not_takes_number {n : Nat} (hn : maxWord < n) (negative : Bool) (hr : ∀ b, r.head? = some b → isDigit b = false)
    (m : Int) : ¬ Takes (number negative) (encoded (toString n).toList ++ r) (.integer m) r' := by
  obtain ⟨c, cs, h⟩ := exists_digits n
  have hfirst := toNat_digit h.first
  have hc : c ≠ '0' := by
    intro hc
    rw [h.zero_eq hc] at hn
    exact absurd hn (by decide)
  have hsmall : c.toNat - '0'.toNat ≤ maxWord := Nat.le_trans (Nat.sub_le_sub_right hfirst.2 _) (by decide)
  obtain ⟨k, d, rest, hadd⟩ := exists_addDigits h.rest hsmall (by rw [h.value]; exact hn)
  have hnever : NeverInteger (afterDigits negative k (d :: rest)) := by
    refine .bind fun b => ?_
    split
    · exact .fraction _ _ _
    · exact .maybeExponent _ _ _
  intro htakes
  exact hnever r m r' ((h.number_eq hc negative hr hadd).symm.trans htakes)

/-! ### Natural numbers -/

theorem head?_fractionChars {n : Number} (h : n.fraction ≠ []) (r : List UInt8) :
    (encoded n.fractionChars ++ r).head? = some 46 := by
  rw [Number.fractionChars, if_neg h, encoded_cons]
  rfl

theorem head?_exponentChars {n : Number} {e : Exponent} (h : n.exponent = some e) (r : List UInt8) :
    (encoded n.exponentChars ++ r).head? = some (if e.capital then 69 else 101) := by
  rw [Number.exponentChars, h, Option.elim_some, Exponent.chars, encoded_cons]
  cases e.capital <;> rfl

/-- What stands behind the digits of a number, up to the byte behind the number. -/
theorem Number.head?_rest (n : Number) {b : UInt8} (hb : EndsNumber b) (r : List UInt8) :
    ∃ c, (encoded n.fractionChars ++ (encoded n.exponentChars ++ b :: r)).head? = some c ∧ isDigit c = false ∧
      (n.fraction ≠ [] → c = 46) ∧
      (n.fraction = [] → n.exponent.isSome = true → c = 69 ∨ c = 101) ∧
      (n.fraction = [] → n.exponent = none → c = b) := by
  by_cases hfraction : n.fraction = []
  · have hnone : encoded n.fractionChars = [] := by
      rw [Number.fractionChars, if_pos hfraction]
      rfl
    rw [hnone, List.nil_append]
    cases hexponent : n.exponent with
    | none =>
      have hnone' : encoded n.exponentChars = [] := by
        rw [Number.exponentChars, hexponent]
        rfl
      rw [hnone']
      exact ⟨b, rfl, hb.1, fun h => absurd hfraction h, fun _ h => (by cases h), fun _ _ => rfl⟩
    | some e =>
      rw [head?_exponentChars hexponent]
      cases e.capital with
      | true => exact ⟨69, rfl, by decide, fun h => absurd hfraction h, fun _ _ => .inl rfl, fun _ h => (by cases h)⟩
      | false => exact ⟨101, rfl, by decide, fun h => absurd hfraction h, fun _ _ => .inr rfl, fun _ h => (by cases h)⟩
  · rw [head?_fractionChars hfraction]
    exact ⟨46, rfl, by decide, fun _ => rfl, fun h => absurd h hfraction, fun h => absurd h hfraction⟩

/-- A number from its first digit on. -/
def Number.unsigned (n : Number) : List Char := (toString n.whole).toList ++ (n.fractionChars ++ n.exponentChars)

theorem Number.encoded_unsigned (n : Number) (r : List UInt8) : encoded n.unsigned ++ r =
    encoded (toString n.whole).toList ++ (encoded n.fractionChars ++ (encoded n.exponentChars ++ r)) := by
  rw [Number.unsigned, encoded_append, encoded_append, List.append_assoc, List.append_assoc]

/-- A number begins with its sign or its first digit. -/
theorem Number.encoded_chars (n : Number) (r : List UInt8) : encoded n.chars ++ r =
    if n.isNegative then 45 :: (encoded n.unsigned ++ r) else encoded n.unsigned ++ r := by
  rw [Number.chars, Number.unsigned]
  cases n.isNegative <;> rfl

/-- The first digit of a number. -/
theorem Number.exists_unsigned (n : Number) (r : List UInt8) :
    ∃ d ds, encoded n.unsigned ++ r = d :: ds ∧ isDigit d = true := by
  obtain ⟨d, ds, hdigits, hd⟩ := exists_digit n.whole
  rw [n.encoded_unsigned, hdigits]
  exact ⟨d, _, rfl, hd⟩

/-- **Where an integer is read of a number**, the number has neither a fraction nor an exponent and is no greater than 64
bits, and with a sign the integer is negative. -/
theorem Number.of_takes {n : Number} {b : UInt8} (hb : EndsNumber b) {m : Int}
    (h : Takes (number n.isNegative) (encoded n.unsigned ++ b :: r) (.integer m) r') :
    n.fraction = [] ∧ n.exponent = none ∧ n.whole ≤ maxWord ∧ (n.isNegative = true → m < 0) := by
  obtain ⟨c, hhead, hdigit, hpoint, hletter, -⟩ := n.head?_rest hb r
  have hr : ∀ d, (encoded n.fractionChars ++ (encoded n.exponentChars ++ b :: r)).head? = some d → isDigit d = false := by
    intro d hd
    rw [hhead] at hd
    cases hd
    exact hdigit
  rw [n.encoded_unsigned] at h
  by_cases hword : n.whole ≤ maxWord
  · have hafter := (number_written hword n.isNegative hr).symm.trans h
    obtain ⟨hnopoint, hnoe, hnoE, hneg⟩ := integer_of_takes_afterInteger _ _ _ hafter
    rw [hhead] at hnopoint hnoe hnoE
    have hfraction : n.fraction = [] := by
      refine Classical.byContradiction fun hne => ?_
      rw [hpoint hne] at hnopoint
      exact absurd hnopoint (by decide)
    refine ⟨hfraction, ?_, hword, hneg⟩
    cases hexponent : n.exponent with
    | none => rfl
    | some e =>
      rcases hletter hfraction (by rw [hexponent]; rfl) with rfl | rfl
      · exact absurd hnoE (by decide)
      · exact absurd hnoe (by decide)
  · exact absurd h (not_takes_number (Nat.not_le.mp hword) _ hr m)

/-- A natural number up to a limit, if the number is one: without a sign, a fraction and an exponent. -/
def Number.natural? (greatest : Nat) (n : Number) : Option Nat :=
  if !n.isNegative && n.fraction.isEmpty && n.exponent.isNone && n.whole ≤ greatest then some n.whole else none

theorem Number.natural?_eq_some {greatest : Nat} {n : Number} {k : Nat} (h : n.natural? greatest = some k) :
    n.isNegative = false ∧ n.fraction = [] ∧ n.exponent = none ∧ n.whole ≤ greatest ∧ k = n.whole := by
  rw [Number.natural?] at h
  split at h
  · rename_i hall
    simp only [Bool.and_eq_true, Bool.not_eq_true', List.isEmpty_iff, Option.isNone_iff_eq_none, decide_eq_true_eq] at hall
    cases h
    exact ⟨hall.1.1.1, hall.1.1.2, hall.1.2, hall.2, rfl⟩
  · cases h

theorem Number.natural?_eq_none {greatest : Nat} {n : Number} (h : n.natural? greatest = none) (hneg : n.isNegative = false)
    (hfraction : n.fraction = []) (hexponent : n.exponent = none) : greatest < n.whole := by
  refine Nat.not_le.mp fun hle => ?_
  have hall : n.natural? greatest = some n.whole := by
    rw [Number.natural?, if_pos]
    simp only [hneg, hfraction, hexponent, Bool.not_false, List.isEmpty_nil, Option.isNone_none, Bool.and_self, Bool.true_and,
      decide_eq_true_eq]
    exact hle
  rw [hall] at h
  cases h

/-- What is done with a number where a natural one is expected. -/
def naturalOf (expected : String) (greatest : Nat) : Numeral → Reads Nat
  | .float x => wrongType (numeralWords (.float x)) expected
  | .integer n =>
    if 0 ≤ n && n ≤ greatest then return n.toNat
    else failHere ("invalid value: " ++ numeralWords (.integer n) ++ ", expected " ++ expected)

/-- A number with or without a sign is looked at from behind the sign. -/
theorem natural_eq (expected : String) (greatest : Nat) (negative : Bool) {d : UInt8} (hd : isDigit d = true) (r : List UInt8) :
    natural expected greatest (if negative then 45 :: d :: r else d :: r)
      = (number negative >>= naturalOf expected greatest) (d :: r) := by
  cases negative with
  | true =>
    rw [if_pos rfl, natural, (takes_peekToken_byte (by decide) _).bind_eq]
    dsimp only
    rw [if_pos (by rfl), if_pos (by rfl), (takes_pass 45 _).bind_eq]
    rfl
  | false =>
    have hminus := not_minus_of_isDigit hd
    rw [if_neg Bool.false_ne_true, natural, (takes_peekToken_byte (isSpace_of_isDigit hd) _).bind_eq]
    dsimp only
    rw [hminus, if_pos (by rw [Option.map_some, Option.getD_some, hd]; rfl), if_neg Bool.false_ne_true]
    rfl

/-- A number of which no integer in the range is read is refused. -/
theorem fails_naturalOf (expected : String) {greatest : Nat} {negative : Bool}
    (h : ∀ m r', Takes (number negative) r (.integer m) r' → m < 0 ∨ (greatest : Int) < m) :
    Fails (number negative >>= naturalOf expected greatest) r := by
  cases hread : number negative r with
  | error e => exact Fails.bind ⟨e, hread⟩ _
  | ok x =>
    obtain ⟨numeral, r'⟩ := x
    have htakes : Takes (number negative) r numeral r' := hread
    refine htakes.bind_fails ?_
    cases numeral with
    | float x => exact fails_failHere _ r'
    | integer m =>
      have hrange := h m r' htakes
      rw [naturalOf, if_neg]
      · exact fails_failHere _ r'
      · rw [Bool.and_eq_true, decide_eq_true_eq, decide_eq_true_eq]
        omega

/-- **A number** is read where a natural one up to a limit is expected, if it is one, and refused if it is not. -/
theorem settles_natural (expected : String) {greatest : Nat} (hgreatest : greatest ≤ maxWord) (n : Number) {b : UInt8}
    (hb : EndsNumber b) (r : List UInt8) :
    Settles (natural expected greatest) (encoded n.chars ++ b :: r) (n.natural? greatest) (b :: r) := by
  obtain ⟨d, ds, hunsigned, hd⟩ := n.exists_unsigned (b :: r)
  have hplain (hfraction : n.fraction = []) (hexponent : n.exponent = none) :
      encoded n.unsigned ++ b :: r = encoded (toString n.whole).toList ++ b :: r := by
    rw [n.encoded_unsigned, Number.fractionChars, if_pos hfraction, Number.exponentChars, hexponent]
    rfl
  rw [n.encoded_chars, hunsigned]
  refine Settles.of_eq (natural_eq expected greatest n.isNegative hd _) ?_
  rw [← hunsigned]
  cases hnatural : n.natural? greatest with
  | some k =>
    obtain ⟨hneg, hfraction, hexponent, hle, rfl⟩ := Number.natural?_eq_some hnatural
    rw [hneg, hplain hfraction hexponent]
    refine Takes.bind (takes_written (Nat.le_trans hle hgreatest) hb r) ?_
    rw [naturalOf, if_pos]
    · exact takes_pure _ _
    · rw [Bool.and_eq_true, decide_eq_true_eq, decide_eq_true_eq]
      omega
  | none =>
    refine fails_naturalOf expected fun m r' htakes => ?_
    obtain ⟨hfraction, hexponent, hword, hsign⟩ := Number.of_takes hb htakes
    cases hneg : n.isNegative with
    | true => exact .inl (hsign hneg)
    | false =>
      have hless := Number.natural?_eq_none hnatural hneg hfraction hexponent
      rw [hneg, hplain hfraction hexponent] at htakes
      cases htakes.symm.trans (takes_written hword hb r)
      exact .inr (Int.ofNat_lt.mpr hless)

end ScriptHost.Json

import ScriptHost.Proofs.Settings.Numerals

/-!
# Reading the value of a key, whatever stands there

* `Answers` — a reader takes the value that there is and leaves the tokens behind it, or fails if there is none;
* `Value.begins`, `Value.exists_peekToken` — the byte by which a value is told from others;
* `fails_wrongValue` — where a value of another kind was expected nothing is read;
* `Value.natural?`, `Value.truth?`, `Value.text?`, `Value.path?` — what a value is, for those who expect a number, a truth
  value, a text or a path;
* **`answers_natural`**, **`answers_truth`**, **`answers_textValue`**, **`answers_pathOrNone`** — they read just that.
-/

namespace ScriptHost.Json

open Utf8 Settings

variable {α β : Type} {r r' : List UInt8} {cs cs' : List Char} {ts us : List Token}

/-! ### Tokens one after the other -/

/-- A reader takes the value that there is and leaves a text of the tokens behind it, or fails if there is none. -/
def Answers (p : Reads α) (r : List UInt8) (a? : Option α) (ts : List Token) : Prop :=
  a?.elim (Fails p r) fun a => ∃ cs', Spaced ts cs' ∧ Takes p r a (encoded cs')

theorem Settles.answers {p : Reads α} {a? : Option α} (h : Settles p r a? (encoded cs')) (hs : Spaced ts cs') :
    Answers p r a? ts := by
  cases a? with
  | none => exact h
  | some a => exact ⟨cs', hs, h⟩

theorem Answers.of_eq {p q : Reads α} {a? : Option α} (h : p r = q r') (hq : Answers q r' a? ts) : Answers p r a? ts := by
  cases a? with
  | none => exact Fails.of_eq hq h
  | some a =>
    obtain ⟨cs', hs, htakes⟩ := hq
    exact ⟨cs', hs, h.trans htakes⟩

theorem Takes.bind_answers {p : Reads α} {f : α → Reads β} {a : α} {b? : Option β} (h : Takes p r a r')
    (hf : Answers (f a) r' b? ts) : Answers (p >>= f) r b? ts := hf.of_eq (h.bind_eq f)

/-- What is answered first, and what is answered behind it. -/
theorem Answers.bind {p : Reads α} {f : α → Reads β} {a? : Option α} {g : α → Option β} (h : Answers p r a? ts)
    (hf : ∀ a cs', Spaced ts cs' → Answers (f a) (encoded cs') (g a) us) : Answers (p >>= f) r (a?.bind g) us := by
  cases a? with
  | none => exact Fails.bind h f
  | some a =>
    obtain ⟨cs', hs, htakes⟩ := h
    exact htakes.bind_answers (hf a cs' hs)

theorem Answers.map {p : Reads α} {a? : Option α} (h : Answers p r a? ts) (f : α → β) :
    Answers (p >>= fun a => pure (f a)) r (a?.map f) ts := by
  rw [Option.map_eq_bind]
  exact h.bind fun a cs' hs => ⟨cs', hs, takes_pure (f a) _⟩

/-! ### Single tokens -/

theorem encoded_token_text (gs : List Glyph) (r : List UInt8) :
    encoded (Token.text gs).chars ++ r = 34 :: (encoded (spelled gs) ++ 34 :: r) := by
  rw [Token.chars, encoded_cons, encoded_append, List.append_assoc, List.append_assoc]
  rfl

/-- A token of one character, behind white space. -/
theorem Spaced.exists_peekToken_single {t : Token} {b : UInt8} (ht : encoded t.chars = [b]) (h : Spaced (t :: ts) cs) :
    ∃ cs', Spaced ts cs' ∧ Takes peekToken (encoded cs) (some b) (b :: encoded cs') := by
  obtain ⟨cs', hs, hpeek⟩ := h.exists_peekToken
  rw [ht] at hpeek
  exact ⟨cs', hs, hpeek⟩

/-- A text, behind white space. -/
theorem Spaced.exists_peekToken_text {gs : List Glyph} (h : Spaced (.text gs :: ts) cs) : ∃ cs', Spaced ts cs' ∧
    Takes peekToken (encoded cs) (some 34) (34 :: (encoded (spelled gs) ++ 34 :: encoded cs')) := by
  obtain ⟨cs', hs, hpeek⟩ := h.exists_peekToken
  rw [encoded_token_text] at hpeek
  exact ⟨cs', hs, hpeek⟩

/-! ### What comes behind a value -/

/-- Tokens that begin with one that may stand behind a value in a list or an object. -/
inductive Ends : List Token → Prop
  | comma (ts : List Token) : Ends (.comma :: ts)
  | closeBrace (ts : List Token) : Ends (.closeBrace :: ts)
  | closeBracket (ts : List Token) : Ends (.closeBracket :: ts)

theorem endsNumber_of_isSpaceChar {c : Char} (hc : isSpaceChar c = true) : ∃ b, String.utf8EncodeChar c = [b] ∧ EndsNumber b := by
  simp only [isSpaceChar, Bool.or_eq_true, decide_eq_true_eq] at hc
  rcases hc with ((rfl | rfl) | rfl) | rfl
  all_goals exact ⟨_, rfl, by decide, by decide, by decide, by decide⟩

/-- Behind a value a number would end. -/
theorem Ends.exists_byte (h : Ends ts) (hs : Spaced ts cs) : ∃ b r, encoded cs = b :: r ∧ EndsNumber b := by
  have hfirst {t : Token} {us : List Token} (hs : Spaced (t :: us) cs)
      (ht : ∃ b, encoded t.chars = [b] ∧ EndsNumber b) : ∃ b r, encoded cs = b :: r ∧ EndsNumber b := by
    obtain ⟨w, cs', rfl, hw, -⟩ := hs.exists_token
    cases w with
    | nil =>
      obtain ⟨b, hb, hends⟩ := ht
      refine ⟨b, encoded cs', ?_, hends⟩
      rw [List.nil_append, encoded_append, hb]
      rfl
    | cons c w =>
      obtain ⟨b, hb, hends⟩ := endsNumber_of_isSpaceChar (hw c List.mem_cons_self)
      refine ⟨b, encoded (w ++ (t.chars ++ cs')), ?_, hends⟩
      rw [List.cons_append, encoded_cons, hb]
      rfl
  cases h with
  | comma | closeBrace | closeBracket => exact hfirst hs ⟨_, rfl, by decide, by decide, by decide, by decide⟩

/-! ### The kinds of values -/

/-- The bytes by which a value is told from those of another kind. -/
def Value.begins : Value → UInt8 → Bool
  | .null, b => b = 110
  | .truth _, b => b = 116 || b = 102
  | .number _, b => b = 45 || isDigit b
  | .text _, b => b = 34
  | .list _, b => b = 91
  | .object _, b => b = 123

theorem Value.ne_of_begins {v : Value} {b c : UInt8} (hb : v.begins b = true) (hc : v.begins c = false) : b ≠ c := by
  rintro rfl
  rw [hb] at hc
  cases hc

theorem Value.not_isByte {v : Value} {b : UInt8} (hb : v.begins b = true) {c : Char} (hc : v.begins (code c) = false) :
    ¬ isByte (some b) c = true := by
  rw [isByte_some_iff]
  exact ne_of_begins hb hc

/-- A number begins with its sign or its first digit. -/
theorem Number.exists_byte (n : Number) : ∃ b bs, encoded n.chars = b :: bs ∧ (Value.number n).begins b = true := by
  obtain ⟨d, ds, hdigits, hd⟩ := exists_digit n.whole
  rw [Number.chars]
  cases n.isNegative with
  | true => exact ⟨45, _, rfl, rfl⟩
  | false =>
    refine ⟨d, ds ++ encoded (n.fractionChars ++ n.exponentChars), ?_, ?_⟩
    · rw [if_neg Bool.false_ne_true, List.nil_append, encoded_append, hdigits]
      rfl
    · rw [Value.begins, hd, Bool.or_true]

/-- The first token of a value, and those behind it. -/
theorem Value.exists_tokens (v : Value) : ∃ t rest b bs, v.tokens = t :: rest ∧ encoded t.chars = b :: bs ∧ v.begins b = true := by
  cases v with
  | null | text | list | object => exact ⟨_, _, _, _, Value.tokens.eq_def _, rfl, rfl⟩
  | truth v => cases v <;> exact ⟨_, _, _, _, Value.tokens.eq_def _, rfl, rfl⟩
  | number n =>
    obtain ⟨b, bs, hbytes, hb⟩ := n.exists_byte
    exact ⟨.number n, [], b, bs, rfl, hbytes, hb⟩

/-- **The first byte of a value**, behind white space. -/
theorem Value.exists_peekToken {v : Value} (h : Spaced (v.tokens ++ ts) cs) :
    ∃ b cs', Takes peekToken (encoded cs) (some b) (encoded cs') ∧ Spaced (v.tokens ++ ts) cs' ∧ v.begins b = true := by
  obtain ⟨t, rest, b, bs, htokens, hbytes, hb⟩ := v.exists_tokens
  rw [htokens] at h ⊢
  obtain ⟨cs', hs, hpeek⟩ := Spaced.exists_peekToken h
  rw [← encoded_append, hbytes] at hpeek
  exact ⟨b, t.chars ++ cs', hpeek, .token t hs, hb⟩

/-! ### Values of another kind -/

theorem fails_bind {p : Reads α} {f : α → Reads β} (hf : ∀ a r, Fails (f a) r) (r : List UInt8) : Fails (p >>= f) r := by
  cases hp : p r with
  | error e => exact Fails.bind ⟨e, hp⟩ f
  | ok x => exact Takes.bind_fails (show Takes p r x.1 x.2 from hp) (hf x.1 x.2)

theorem fails_wrongType (found expected : String) (r : List UInt8) : Fails (wrongType found expected : Reads α) r :=
  fails_failHere _ r

/-- **Where a value of another kind was expected**, nothing is read. -/
theorem fails_wrongValue (expected : String) (r : List UInt8) : Fails (wrongValue expected : Reads α) r := by
  rw [wrongValue]
  refine fails_bind (fun b r => ?_) r
  cases b with
  | none => exact fails_failNext _ r
  | some b =>
    dsimp only
    iterate 4
      split
      · exact fails_bind (fun _ => fails_bind fun _ => fails_wrongType _ _) r
    split
    · exact fails_bind (fun _ => fails_wrongType _ _) r
    split
    · exact fails_bind (fun _ => fails_bind fun _ => fails_wrongType _ _) r
    iterate 2
      split
      · exact fails_wrongType _ _ r
    exact fails_failNext _ r

/-! ### What a value is for those who expect its kind -/

namespace Value

/-- A natural number up to a limit. -/
def natural? (greatest : Nat) : Value → Option Nat
  | .number n => n.natural? greatest
  | _ => none

/-- A truth value. -/
def truth? : Value → Option Bool
  | .truth b => some b
  | _ => none

/-- A text that stands for characters. -/
def text? : Value → Option String
  | .text gs => Json.text? gs
  | _ => none

/-- A path, or none where it says so. -/
def path? : Value → Option (Option String)
  | .null => some none
  | v => v.text?.map some

end Value

/-- A value that is no number does not begin with a digit. -/
theorem Value.not_isDigit {v : Value} (hv : v.begins 45 = false) {b : UInt8} (hb : v.begins b = true) : ¬ isDigit b = true := by
  cases v with
  | number n => cases hv
  | truth v =>
    rw [begins, Bool.or_eq_true, decide_eq_true_eq, decide_eq_true_eq] at hb
    rcases hb with rfl | rfl <;> decide
  | null | text | list | object =>
    rw [of_decide_eq_true hb]
    decide

/-- A value that is no number is no natural one. -/
theorem fails_natural {v : Value} (hv : v.begins 45 = false) (expected : String) (greatest : Nat)
    (h : Spaced (v.tokens ++ ts) cs) : Fails (natural expected greatest) (encoded cs) := by
  obtain ⟨b, cs', hpeek, -, hb⟩ := Value.exists_peekToken h
  rw [natural]
  refine hpeek.bind_fails ?_
  dsimp only
  rw [if_neg]
  · exact fails_wrongValue expected _
  · rw [Bool.or_eq_true, not_or]
    exact ⟨Value.not_isByte (c := '-') hb hv, Value.not_isDigit hv hb⟩

/-- **A natural number up to a limit** is read of a value that is one. -/
theorem answers_natural (expected : String) {greatest : Nat} (hgreatest : greatest ≤ maxWord) {v : Value} (hends : Ends ts)
    (h : Spaced (v.tokens ++ ts) cs) : Answers (natural expected greatest) (encoded cs) (v.natural? greatest) ts := by
  cases v with
  | number n =>
    obtain ⟨cs', hs, hpeek⟩ := Spaced.exists_peekToken (t := .number n) h
    obtain ⟨b, r, hbytes, hb⟩ := hends.exists_byte hs
    have hnumber := settles_natural expected hgreatest n hb r
    rw [← hbytes] at hnumber
    obtain ⟨d, ds, hchars, hd⟩ := (Token.number n).exists_byte
    rw [hchars] at hpeek
    refine Settles.answers (Settles.of_eq ?_ hnumber) hs
    show natural _ _ (encoded cs) = natural _ _ (encoded (Token.number n).chars ++ encoded cs')
    rw [hchars, natural, hpeek.bind_eq, List.cons_append, (takes_peekToken_byte hd _).bind_eq]
    rfl
  | null | truth | text | list | object => exact fails_natural rfl expected greatest h

/-- A word from behind its first letter. -/
theorem takes_word (w : List Char) (hw : (w.all fun c => String.utf8EncodeChar c = [code c]) = true) (r : List UInt8) :
    Takes (word w) (encoded w ++ r) () r := by
  induction w with
  | nil => exact takes_pure () r
  | cons c w ih =>
    rw [List.all_cons, Bool.and_eq_true, decide_eq_true_eq] at hw
    rw [encoded_cons, hw.1, word]
    refine .bind (takes_next _ _) ?_
    dsimp only
    rw [if_pos rfl]
    exact ih hw.2

theorem fails_truth {v : Value} (ht : v.begins 116 = false) (hf : v.begins 102 = false) (h : Spaced (v.tokens ++ ts) cs) :
    Fails truth (encoded cs) := by
  obtain ⟨b, cs', hpeek, -, hb⟩ := Value.exists_peekToken h
  rw [truth]
  refine hpeek.bind_fails ?_
  rw [if_neg (Value.not_isByte (c := 't') hb ht), if_neg (Value.not_isByte (c := 'f') hb hf)]
  exact fails_wrongValue _ _

/-- **A truth value** is read of a value that is one. -/
theorem answers_truth {v : Value} (h : Spaced (v.tokens ++ ts) cs) : Answers truth (encoded cs) v.truth? ts := by
  cases v with
  | truth b =>
    obtain ⟨cs', hs, hpeek⟩ := Spaced.exists_peekToken (t := .truth b) h
    refine ⟨cs', hs, ?_⟩
    rw [truth]
    refine .bind hpeek ?_
    cases b with
    | true =>
      rw [if_pos (by decide)]
      exact .bind (takes_pass _ _) (.bind (takes_word ['r', 'u', 'e'] (by decide) _) (takes_pure true _))
    | false =>
      rw [if_neg (by decide), if_pos (by decide)]
      exact .bind (takes_pass _ _) (.bind (takes_word ['a', 'l', 's', 'e'] (by decide) _) (takes_pure false _))
  | null | number | text | list | object => exact fails_truth rfl rfl h

theorem fails_textValue {v : Value} (hv : v.begins 34 = false) (expected : String) (h : Spaced (v.tokens ++ ts) cs) :
    Fails (textValue expected) (encoded cs) := by
  obtain ⟨b, cs', hpeek, -, hb⟩ := Value.exists_peekToken h
  rw [textValue]
  refine hpeek.bind_fails ?_
  rw [if_neg]
  · exact fails_wrongValue expected _
  · exact fun hquote => Value.ne_of_begins hb hv (Option.some.inj hquote)

/-- **A text** is read of a value that is one. -/
theorem answers_textValue (expected : String) {v : Value} (h : Spaced (v.tokens ++ ts) cs) :
    Answers (textValue expected) (encoded cs) v.text? ts := by
  cases v with
  | text gs =>
    obtain ⟨cs', hs, hpeek⟩ := Spaced.exists_peekToken_text h
    refine Settles.answers ?_ hs
    rw [textValue]
    refine hpeek.bind_settles ?_
    rw [if_pos rfl]
    exact (takes_pass _ _).bind_settles (settles_text gs _)
  | null | truth | number | list | object => exact fails_textValue rfl expected h

theorem answers_path {v : Value} (hv : v.begins 110 = false) (h : Spaced (v.tokens ++ ts) cs) :
    Answers pathOrNone (encoded cs) (v.text?.map some) ts := by
  obtain ⟨b, cs', hpeek, hs, hb⟩ := Value.exists_peekToken h
  rw [pathOrNone]
  refine hpeek.bind_answers ?_
  rw [if_neg (Value.not_isByte (c := 'n') hb hv)]
  exact (answers_textValue "path string" hs).map some

/-- **A path, or none**, is read of a value that is a text or nothing. -/
theorem answers_pathOrNone {v : Value} (h : Spaced (v.tokens ++ ts) cs) : Answers pathOrNone (encoded cs) v.path? ts := by
  cases v with
  | null =>
    obtain ⟨cs', hs, hpeek⟩ := Spaced.exists_peekToken (t := .null) h
    refine ⟨cs', hs, ?_⟩
    rw [pathOrNone]
    refine .bind hpeek ?_
    rw [if_pos (by decide)]
    exact .bind (takes_pass _ _) (.bind (takes_word ['u', 'l', 'l'] (by decide) _) (takes_pure none _))
  | text | truth | number | list | object => exact answers_path rfl h

end ScriptHost.Json

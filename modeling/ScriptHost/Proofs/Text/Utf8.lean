import ScriptHost.Text.Utf8

/-!
# Texts as bytes

A text that is encoded and decoded again is the same text.

* `Bytes.toList_eq`, `Bytes.byteAt_eq` — bytes as a list;
* `Utf8.encoded` — the bytes of some characters;
* **`next_encoded`** — where the bytes of a character begin, that character stands;
* **`decodeLossy_encoded`**, **`decode_ofString`** — what is encoded is decoded to what it was.
-/

namespace ScriptHost

namespace Bytes

theorem toList_loop_eq (b : Bytes) (i : Nat) (read : List UInt8) :
    ByteArray.toList.loop b i read = read.reverse ++ b.data.toList.drop i := by
  induction i, read using ByteArray.toList.loop.induct b with
  | case1 i read hlt ih =>
    have hi : i < b.data.toList.length := by
      rw [Array.length_toList]
      exact hlt
    have hget : b.get! i = b.data.toList[i] := by
      rw [Array.getElem_toList]
      exact getElem!_pos b.data i hlt
    rw [ByteArray.toList.loop, if_pos hlt, ih, hget, List.reverse_cons, List.append_assoc, List.singleton_append,
      List.getElem_cons_drop]
  | case2 i read hge =>
    have hi : b.data.toList.length ≤ i := by
      rw [Array.length_toList]
      exact Nat.le_of_not_lt hge
    rw [ByteArray.toList.loop, if_neg hge, List.drop_eq_nil_of_le hi, List.append_nil]

theorem toList_eq (b : Bytes) : b.toList = b.data.toList := b.toList_loop_eq 0 []

theorem byteAt_eq (b : Bytes) (i : Nat) : b.byteAt i = b.data.toList[i]?.getD 0 := by
  rw [byteAt]
  split
  case isTrue h =>
    have hlt : i < b.data.size := h
    rw [Array.getElem?_toList, Array.getElem?_eq_getElem hlt]
    rfl
  case isFalse h =>
    have hle : ¬ i < b.data.size := h
    rw [Array.getElem?_toList, Array.getElem?_eq_none (by omega)]
    rfl

end Bytes

namespace Utf8

/-- The bytes of some characters. -/
def encoded (cs : List Char) : List UInt8 := cs.flatMap String.utf8EncodeChar

theorem encoded_cons (c : Char) (cs : List Char) : encoded (c :: cs) = String.utf8EncodeChar c ++ encoded cs :=
  List.flatMap_cons

theorem encoded_append (cs ds : List Char) : encoded (cs ++ ds) = encoded cs ++ encoded ds := List.flatMap_append

theorem data_toUTF8 (s : String) : (Bytes.ofString s).data.toList = encoded s.toList := by
  have hencode : s.toUTF8 = s.toList.utf8Encode := by
    conv => lhs; rw [← String.ofList_toList (s := s)]
    rw [String.toUTF8_eq_toByteArray, String.toByteArray_ofList]
  rw [Bytes.ofString, hencode, List.utf8Encode, encoded, List.toList_data_toByteArray]

theorem toList_ofString (s : String) : (Bytes.ofString s).toList = encoded s.toList := by
  rw [Bytes.toList_eq, data_toUTF8]

theorem length_utf8EncodeChar_pos (c : Char) : 0 < (String.utf8EncodeChar c).length :=
  List.length_pos_iff.mpr String.utf8EncodeChar_ne_nil

theorem length_le_encoded (cs : List Char) : cs.length ≤ (encoded cs).length := by
  induction cs with
  | nil => exact Nat.le_refl _
  | cons c cs ih =>
    have hpos := length_utf8EncodeChar_pos c
    rw [encoded_cons, List.length_append, List.length_cons]
    omega

/-! ### One character -/

/-- The bytes from an index on. -/
theorem byteAt_append {s : Bytes} {before rest : List UInt8} (h : s.data.toList = before ++ rest) (j : Nat) :
    s.byteAt (before.length + j) = rest[j]?.getD 0 := by
  rw [Bytes.byteAt_eq, h, List.getElem?_append_right (Nat.le_add_right _ _), Nat.add_sub_cancel_left]

theorem size_append {s : Bytes} {before rest : List UInt8} (h : s.data.toList = before ++ rest) :
    s.size = before.length + rest.length := by
  have hlength := congrArg List.length h
  rwa [Array.length_toList, List.length_append] at hlength

theorem sequenceWidth_eq (b : UInt8) :
    sequenceWidth b
      = if b.toNat < 0x80 then 1 else if b.toNat < 0xC2 then 0 else if b.toNat < 0xE0 then 2 else if b.toNat < 0xF0 then 3
        else if b.toNat < 0xF5 then 4 else 0 := by
  simp only [sequenceWidth, UInt8.lt_iff_toNat_lt]
  rfl

theorem isContinuation_iff (b : UInt8) : isContinuation b = true ↔ 0x80 ≤ b.toNat ∧ b.toNat ≤ 0xBF := by
  simp [isContinuation, UInt8.le_iff_toNat_le]

theorem secondOk_iff (a b : UInt8) : secondOk a b = true ↔
    (0x80 ≤ b.toNat ∧ b.toNat ≤ 0xBF) ∧ (a.toNat = 0xE0 → 0xA0 ≤ b.toNat) ∧ (a.toNat = 0xED → b.toNat ≤ 0x9F) ∧
      (a.toNat = 0xF0 → 0x90 ≤ b.toNat) ∧ (a.toNat = 0xF4 → b.toNat ≤ 0x8F) := by
  have heq (n : UInt8) : (a == n) = true ↔ a.toNat = n.toNat := by rw [beq_iff_eq, UInt8.toNat_inj]
  simp only [secondOk, heq, UInt8.reduceToNat]
  repeat' split
  all_goals
    simp only [Bool.and_eq_true, decide_eq_true_eq, UInt8.le_iff_toNat_le, UInt8.reduceToNat]
    omega

section Sequences

variable {s : Bytes} {a b c d : UInt8} {before after : List UInt8}

theorem next_one (h : s.data.toList = before ++ a :: after) (ha : a.toNat < 0x80) :
    next s before.length = .char (Char.ofNat a.toNat) 1 := by
  have h0 : s.byteAt before.length = a := byteAt_append h 0
  have hwidth : sequenceWidth a = 1 := by rw [sequenceWidth_eq, if_pos ha]
  simp only [next, h0, hwidth]

theorem next_two (h : s.data.toList = before ++ a :: b :: after) (ha : 0xC2 ≤ a.toNat ∧ a.toNat < 0xE0)
    (hb : isContinuation b = true) :
    next s before.length = .char (Char.ofNat (a.toNat % 32 * 64 + tailBits b)) 2 := by
  have h0 : s.byteAt before.length = a := byteAt_append h 0
  have h1 : s.byteAt (before.length + 1) = b := byteAt_append h 1
  have hsize : ¬ s.size ≤ before.length + 1 := by
    rw [size_append h, List.length_cons, List.length_cons]
    omega
  have hwidth : sequenceWidth a = 2 := by
    rw [sequenceWidth_eq, if_neg (by omega), if_neg (by omega), if_pos (by omega)]
  simp only [next, h0, h1, hwidth, if_neg hsize, if_pos hb]

theorem next_three (h : s.data.toList = before ++ a :: b :: c :: after) (ha : 0xE0 ≤ a.toNat ∧ a.toNat < 0xF0)
    (hb : secondOk a b = true) (hc : isContinuation c = true) :
    next s before.length = .char (Char.ofNat ((a.toNat % 16 * 64 + tailBits b) * 64 + tailBits c)) 3 := by
  have h0 : s.byteAt before.length = a := byteAt_append h 0
  have h1 : s.byteAt (before.length + 1) = b := byteAt_append h 1
  have h2 : s.byteAt (before.length + 2) = c := byteAt_append h 2
  have hlength : s.size = before.length + (after.length + 1 + 1 + 1) := size_append h
  have hwidth : sequenceWidth a = 3 := by
    rw [sequenceWidth_eq, if_neg (by omega), if_neg (by omega), if_neg (by omega), if_pos (by omega)]
  have hone : ¬ s.size ≤ before.length + 1 := by omega
  have htwo : ¬ s.size ≤ before.length + 2 := by omega
  simp only [next, h0, h1, h2, hwidth, if_neg hone, if_neg htwo, if_pos hc, hb, Bool.not_true, Bool.false_eq_true,
    if_false]

theorem next_four (h : s.data.toList = before ++ a :: b :: c :: d :: after) (ha : 0xF0 ≤ a.toNat ∧ a.toNat < 0xF5)
    (hb : secondOk a b = true) (hc : isContinuation c = true) (hd : isContinuation d = true) :
    next s before.length
      = .char (Char.ofNat (((a.toNat % 8 * 64 + tailBits b) * 64 + tailBits c) * 64 + tailBits d)) 4 := by
  have h0 : s.byteAt before.length = a := byteAt_append h 0
  have h1 : s.byteAt (before.length + 1) = b := byteAt_append h 1
  have h2 : s.byteAt (before.length + 2) = c := byteAt_append h 2
  have h3 : s.byteAt (before.length + 3) = d := byteAt_append h 3
  have hlength : s.size = before.length + (after.length + 1 + 1 + 1 + 1) := size_append h
  have hwidth : sequenceWidth a = 4 := by
    rw [sequenceWidth_eq, if_neg (by omega), if_neg (by omega), if_neg (by omega), if_neg (by omega),
      if_pos (by omega)]
  have hone : ¬ s.size ≤ before.length + 1 := by omega
  have htwo : ¬ s.size ≤ before.length + 2 := by omega
  have hthree : ¬ s.size ≤ before.length + 3 := by omega
  simp only [next, h0, h1, h2, h3, hwidth, if_neg hone, if_neg htwo, if_neg hthree, hb, hc, if_pos hd, Bool.not_true,
    Bool.false_eq_true, if_false]

end Sequences

/-- A character's number is none of those that are left out. -/
theorem toNat_valid (c : Char) : c.toNat < 0xD800 ∨ 0xDFFF < c.toNat ∧ c.toNat < 0x110000 := c.valid

theorem toNat_ofNat {n : Nat} (hn : n < 256) : (UInt8.ofNat n).toNat = n := by
  rw [UInt8.toNat_ofNat', Nat.mod_eq_of_lt hn]

theorem isContinuation_ofNat (n : Nat) : isContinuation (UInt8.ofNat (n % 64 + 128)) = true := by
  rw [isContinuation_iff, toNat_ofNat (by omega)]
  omega

theorem tailBits_ofNat (n : Nat) : tailBits (UInt8.ofNat (n % 64 + 128)) = n % 64 := by
  rw [tailBits, toNat_ofNat (by omega)]
  omega

/-- **Where the bytes of a character begin**, that character stands. -/
theorem next_encoded {s : Bytes} {c : Char} {before after : List UInt8}
    (h : s.data.toList = before ++ (String.utf8EncodeChar c ++ after)) :
    next s before.length = .char c (String.utf8EncodeChar c).length := by
  have hvalid := toNat_valid c
  have hval : c.val.toNat = c.toNat := rfl
  have hchar {v : Nat} (hv : v = c.toNat) : Char.ofNat v = c := by rw [hv, Char.ofNat_toNat]
  rw [String.utf8EncodeChar, hval] at h ⊢
  generalize c.toNat = v at h hvalid hchar ⊢
  by_cases hone : v ≤ 0x7f
  · simp only [if_pos hone] at h ⊢
    have ha : (UInt8.ofNat v).toNat = v := toNat_ofNat (by omega)
    rw [next_one h (by omega), hchar ha]
    rfl
  by_cases htwo : v ≤ 0x7ff
  · simp only [if_neg hone, if_pos htwo] at h ⊢
    have ha : (UInt8.ofNat (v / 64 % 32 + 192)).toNat = v / 64 % 32 + 192 := toNat_ofNat (by omega)
    rw [next_two h (by omega) (isContinuation_ofNat v), tailBits_ofNat, ha, hchar (by omega)]
    rfl
  by_cases hthree : v ≤ 0xffff
  · simp only [if_neg hone, if_neg htwo, if_pos hthree] at h ⊢
    have ha : (UInt8.ofNat (v / 4096 % 16 + 224)).toNat = v / 4096 % 16 + 224 := toNat_ofNat (by omega)
    have hb : (UInt8.ofNat (v / 64 % 64 + 128)).toNat = v / 64 % 64 + 128 := toNat_ofNat (by omega)
    have hsecond : secondOk (UInt8.ofNat (v / 4096 % 16 + 224)) (UInt8.ofNat (v / 64 % 64 + 128)) = true := by
      rw [secondOk_iff, ha, hb]
      omega
    rw [next_three h (by omega) hsecond (isContinuation_ofNat v), tailBits_ofNat, tailBits_ofNat, ha,
      hchar (by omega)]
    rfl
  · simp only [if_neg hone, if_neg htwo, if_neg hthree] at h ⊢
    have ha : (UInt8.ofNat (v / 262144 % 8 + 240)).toNat = v / 262144 % 8 + 240 := toNat_ofNat (by omega)
    have hb : (UInt8.ofNat (v / 4096 % 64 + 128)).toNat = v / 4096 % 64 + 128 := toNat_ofNat (by omega)
    have hsecond : secondOk (UInt8.ofNat (v / 262144 % 8 + 240)) (UInt8.ofNat (v / 4096 % 64 + 128)) = true := by
      rw [secondOk_iff, ha, hb]
      omega
    rw [next_four h (by omega) hsecond (isContinuation_ofNat _) (isContinuation_ofNat v), tailBits_ofNat, tailBits_ofNat,
      tailBits_ofNat, ha, hchar (by omega)]
    rfl

/-- A byte of a character that is a character by itself is that character. -/
theorem toNat_of_mem {c : Char} {b : UInt8} (hb : b ∈ String.utf8EncodeChar c) (hascii : b.toNat < 128) :
    c.toNat = b.toNat := by
  have hval : c.val.toNat = c.toNat := rfl
  have hhigh {n k : Nat} (hk : 128 ≤ k) (hn : n + k < 256) : 128 ≤ (UInt8.ofNat (n + k)).toNat := by
    rw [toNat_ofNat hn]
    omega
  rw [String.utf8EncodeChar, hval] at hb
  split at hb
  · rw [List.mem_singleton.mp hb, toNat_ofNat (by omega)]
  · refine absurd hascii (Nat.not_lt.mpr ?_)
    repeat' split at hb
    all_goals
      simp only [List.mem_cons, List.not_mem_nil, or_false] at hb
      rcases hb with rfl | rfl | rfl | rfl <;> exact hhigh (by omega) (by omega)

/-! ### Whole texts -/

/-- A byte of a text that is a character by itself comes from that character. -/
theorem char_of_mem {l : String} {c : Char} {b : UInt8} (hb : b ∈ (Bytes.ofString l).data.toList) (hc : c.toNat = b.toNat)
    (hascii : b.toNat < 128) : c ∈ l.toList := by
  rw [data_toUTF8, encoded, List.mem_flatMap] at hb
  obtain ⟨d, hd, hbyte⟩ := hb
  have hcd : c = d := Char.toNat_inj.mp (hc.trans (toNat_of_mem hbyte hascii).symm)
  rw [hcd]
  exact hd

/-- **What is encoded** is decoded to the characters it was. -/
theorem decodeFrom_encoded {s : Bytes} (cs : List Char) : ∀ {fuel : Nat} {before : List UInt8} {read : String},
    s.data.toList = before ++ encoded cs → cs.length ≤ fuel →
    decodeFrom s fuel before.length read = .ok (read ++ String.ofList cs) := by
  induction cs with
  | nil =>
    intro fuel before read h _
    have hsize : s.size = before.length := by rw [size_append h]; rfl
    rw [String.ofList_nil, String.append_empty]
    cases fuel with
    | zero => rfl
    | succ fuel => rw [decodeFrom, if_neg (by omega)]
  | cons c cs ih =>
    intro fuel before read h hfuel
    rw [encoded_cons] at h
    have hpos := length_utf8EncodeChar_pos c
    have hsize := size_append h
    rw [List.length_append] at hsize
    cases fuel with
    | zero => cases hfuel
    | succ fuel =>
      have hrest : s.data.toList = (before ++ String.utf8EncodeChar c) ++ encoded cs := by rw [h, List.append_assoc]
      have hread : decodeFrom s fuel _ (read.push c) = _ := ih hrest (Nat.le_of_succ_le_succ hfuel)
      rw [List.length_append] at hread
      have hpush : read.push c ++ String.ofList cs = read ++ String.ofList (c :: cs) := by
        rw [← String.toList_inj]
        simp
      rw [decodeFrom, if_pos (by omega), next_encoded h, ← hpush]
      exact hread

/-- Where all is well-formed, nothing is replaced. -/
theorem decodeLossyFrom_of_decodeFrom {s : Bytes} {t : String} : ∀ {fuel i : Nat} {read : String},
    decodeFrom s fuel i read = .ok t → decodeLossyFrom s fuel i read = t := by
  intro fuel
  induction fuel with
  | zero =>
    intro i read h
    cases h
    rfl
  | succ fuel ih =>
    intro i read h
    rw [decodeFrom] at h
    rw [decodeLossyFrom]
    split at h
    · rename_i hlt
      rw [if_pos hlt]
      split at h
      · exact ih h
      · cases h
    · rename_i hge
      rw [if_neg hge]
      cases h
      rfl

theorem decode_encoded {s : Bytes} {cs : List Char} (h : s.data.toList = encoded cs) :
    decode s = .ok (String.ofList cs) := by
  have hsize : s.size = (encoded cs).length := by
    rw [← h, Array.length_toList]
    rfl
  have hread : decodeFrom s s.size ([] : List UInt8).length "" = _ :=
    decodeFrom_encoded cs h (hsize ▸ length_le_encoded cs)
  rwa [String.empty_append] at hread

theorem decodeLossy_encoded (cs : List Char) : decodeLossy (encoded cs).toByteArray = String.ofList cs :=
  decodeLossyFrom_of_decodeFrom (decode_encoded List.toList_data_toByteArray)

/-- **The bytes of a text** are decoded to that text. -/
theorem decode_ofString (s : String) : decode (Bytes.ofString s) = .ok s := by
  rw [decode_encoded (data_toUTF8 s), String.ofList_toList]

end Utf8

end ScriptHost

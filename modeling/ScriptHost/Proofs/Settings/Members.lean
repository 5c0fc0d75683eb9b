import ScriptHost.Proofs.Settings.Reading
import ScriptHost.Settings.Basic

/-!
# Reading settings that were written

* `Settings.InRange` — the numbers are ones that the file can hold;
* `Settings.adopt` — settings that take over the value of a key;
* **`takes_readValue`** — the value of a key is read as it was written;
* `Settings.written`, **`takes_read`** — so are all members of the object, and then the whole.
-/

namespace ScriptHost.Settings

open Json Utf8

/-- The numbers are ones that the file can hold. -/
structure InRange (s : Settings) : Prop where
  pollInterval : s.pollInterval ≤ 0xFFFFFFFFFFFFFFFF
  hookInterval : s.hookInterval ≤ 0xFFFFFFFF
  lineLimit : s.lineLimit ≤ 0xFFFFFFFFFFFFFFFF

/-- Settings that take over the value of a key from others. -/
def adopt (s t : Settings) : Key → Settings
  | .pollInterval => { t with pollInterval := s.pollInterval }
  | .hookInterval => { t with hookInterval := s.hookInterval }
  | .lineLimit => { t with lineLimit := s.lineLimit }
  | .dumpName => { t with dumpName := s.dumpName }
  | .color => { t with color := s.color }
  | .debug => { t with debug := s.debug }
  | .dataDir => { t with dataDir := s.dataDir }

/-! ### Values -/

/-- Before a value stands one space. -/
theorem takes_peekToken_space {b : UInt8} (hb : isSpace b = false) (r : List UInt8) :
    Takes peekToken (32 :: b :: r) (some b) (b :: r) :=
  takes_peekToken (w := [32]) (List.all_eq_true.mp rfl) hb r

/-- The first digit of a number. -/
theorem exists_digit (n : Nat) : ∃ d ds, encoded (toString n).toList = d :: ds ∧ isDigit d = true := by
  obtain ⟨c, cs, hdigits, -⟩ := toDigits_cons n
  have hwritten : (toString n).toList = c :: cs := Nat.toList_repr.trans hdigits
  have hdigit : ∀ d, d ∈ c :: cs → d.isDigit = true := by
    rw [← hdigits]
    exact fun d => Nat.isDigit_of_mem_toDigits (by decide) (by decide)
  rw [hwritten, encoded_digits hdigit]
  exact ⟨_, _, rfl, isDigit_digitByte (hdigit c List.mem_cons_self)⟩

theorem isDigit_iff (b : UInt8) : isDigit b = true ↔ 48 ≤ b.toNat ∧ b.toNat ≤ 57 := by
  simp only [isDigit, Bool.and_eq_true, decide_eq_true_eq, UInt8.le_iff_toNat_le, UInt8.reduceToNat]

theorem isSpace_of_isDigit {b : UInt8} (h : isDigit b = true) : isSpace b = false := by
  rw [isDigit_iff] at h
  have hne (n : UInt8) (hn : n.toNat < 48) : b ≠ n := by
    intro hb
    rw [hb] at h
    omega
  simp only [isSpace, decide_eq_false (hne 32 (by decide)), decide_eq_false (hne 10 (by decide)),
    decide_eq_false (hne 9 (by decide)), decide_eq_false (hne 13 (by decide)), Bool.or_self]

theorem not_minus_of_isDigit {b : UInt8} (h : isDigit b = true) : isByte (some b) '-' = false := by
  rw [isDigit_iff] at h
  rw [Bool.eq_false_iff, ne_eq, isByte_some_iff]
  intro heq
  rw [heq] at h
  exact absurd h.1 (by decide)

/-- **A number** is read as it was written. -/
theorem takes_natural {n greatest : Nat} (expected : String) (hn : n ≤ greatest) (hword : n ≤ maxWord) {b : UInt8}
    (hb : EndsNumber b) (r : List UInt8) :
    Takes (natural expected greatest) (32 :: (encoded (toString n).toList ++ b :: r)) n (b :: r) := by
  have hnumber := takes_written hword hb r
  obtain ⟨d, ds, hdigits, hd⟩ := exists_digit n
  rw [hdigits] at hnumber ⊢
  have hminus := not_minus_of_isDigit hd
  rw [natural]
  refine .bind (takes_peekToken_space (isSpace_of_isDigit hd) _) ?_
  simp only [hminus, Option.map_some, Option.getD_some, hd, Bool.or_true, if_true, Bool.false_eq_true, if_false]
  refine .bind hnumber ?_
  have hbounds : (decide ((0 : Int) ≤ n) && decide ((n : Int) ≤ greatest)) = true := by
    simp only [Bool.and_eq_true, decide_eq_true_eq]
    omega
  simp only [hbounds, if_true]
  exact takes_pure n _

/-- **A truth value** is read as it was written. -/
theorem takes_truth (v : Bool) (r : List UInt8) : Takes truth (32 :: (encoded (printTruth v).toList ++ r)) v r := by
  cases v with
  | true =>
    rw [truth]
    refine .bind (takes_peekToken_space (b := 116) (by decide) _) ?_
    rw [if_pos (by decide)]
    rfl
  | false =>
    rw [truth]
    refine .bind (takes_peekToken_space (b := 102) (by decide) _) ?_
    rw [if_neg (by decide), if_pos (by decide)]
    rfl

theorem toList_quoted (v : String) : (quoted v).toList = '"' :: (v.toList.flatMap quotedChar ++ ['"']) := by
  simp only [quoted, String.toList_append, String.toList_ofList]
  rfl

/-- The bytes of a text as it is written. -/
theorem encoded_quoted (v : String) : encoded (quoted v).toList = 34 :: (encoded (v.toList.flatMap quotedChar) ++ [34]) := by
  rw [toList_quoted, encoded_cons, encoded_append]
  rfl

/-- **A text** is read as it was written. -/
theorem takes_textValue {w : List UInt8} (hw : ∀ b, b ∈ w → isSpace b = true) (expected v : String) (r : List UInt8) :
    Takes (textValue expected) (w ++ (encoded (quoted v).toList ++ r)) v r := by
  rw [encoded_quoted, textValue, List.cons_append, List.append_assoc]
  refine .bind (takes_peekToken hw (by decide) _) ?_
  rw [if_pos rfl]
  exact .bind (takes_pass 34 _) (takes_text v r)

/-- **A path** is read as it was written. -/
theorem takes_pathOrNone (v : String) (r : List UInt8) :
    Takes pathOrNone (32 :: (encoded (quoted v).toList ++ r)) (some v) r := by
  have hvalue := takes_textValue (w := []) nofun "path string" v r
  rw [List.nil_append, encoded_quoted, List.cons_append] at hvalue
  rw [pathOrNone, encoded_quoted, List.cons_append]
  refine .bind (takes_peekToken_space (by decide) _) ?_
  rw [if_neg (by decide)]
  exact .bind hvalue (takes_pure _ _)

/-- **The value of a key** is read as it was written. -/
theorem takes_readValue {s : Settings} (hs : s.InRange) (t : Settings) {k : Key} {v : String}
    (hv : s.printValue k = some v) {b : UInt8} (hb : EndsNumber b) (r : List UInt8) :
    Takes (t.readValue k) (32 :: (encoded v.toList ++ b :: r)) (s.adopt t k) (b :: r) := by
  cases k with
  | pollInterval =>
    cases hv
    have hword : s.pollInterval ≤ maxWord := hs.pollInterval
    exact .bind (takes_natural "u64" hs.pollInterval hword hb r) (takes_pure _ _)
  | hookInterval =>
    cases hv
    have hword : s.hookInterval ≤ maxWord := Nat.le_trans hs.hookInterval (by decide)
    exact .bind (takes_natural "u32" hs.hookInterval hword hb r) (takes_pure _ _)
  | lineLimit =>
    cases hv
    have hword : s.lineLimit ≤ maxWord := hs.lineLimit
    exact .bind (takes_natural "usize" hs.lineLimit hword hb r) (takes_pure _ _)
  | dumpName =>
    cases hv
    have htext := takes_textValue (w := [32]) (List.all_eq_true.mp rfl) "a string" s.dumpName (b :: r)
    rw [List.singleton_append] at htext
    exact .bind htext (takes_pure _ _)
  | color =>
    cases hv
    exact .bind (takes_truth s.color (b :: r)) (takes_pure _ _)
  | debug =>
    cases hv
    exact .bind (takes_truth s.debug (b :: r)) (takes_pure _ _)
  | dataDir =>
    obtain ⟨dir, hdir, rfl⟩ := Option.map_eq_some_iff.mp hv
    have hadopt : s.adopt t .dataDir = { t with dataDir := some dir } := by rw [adopt, hdir]
    rw [hadopt]
    exact .bind (takes_pathOrNone _ _) (takes_pure _ _)

/-! ### Members -/

/-- The keys of settings that have a value, with their values as they are written. -/
def written (s : Settings) : List (Key × String) := Key.all.filterMap fun k => (s.printValue k).map fun v => (k, v)

/-- A member of the object as it is written. -/
def member (m : Key × String) : String := "  " ++ quoted m.1.name ++ ": " ++ m.2

/-- What is written behind a member, of which some others follow. -/
def afterMember : List (Key × String) → String
  | [] => "\n\x7d"
  | m :: rest => ",\n" ++ member m ++ afterMember rest

theorem join_members (m : Key × String) (rest : List (Key × String)) :
    Text.join ",\n" ((m :: rest).map member) ++ "\n\x7d" = member m ++ afterMember rest := by
  induction rest generalizing m with
  | nil => rfl
  | cons n rest ih =>
    have hjoin : Text.join ",\n" ((m :: n :: rest).map member)
        = member m ++ ",\n" ++ Text.join ",\n" ((n :: rest).map member) := rfl
    rw [hjoin, String.append_assoc, ih, afterMember]
    simp only [String.append_assoc]

/-- Behind a member a number would end. -/
theorem exists_afterMember (ms : List (Key × String)) :
    ∃ b r, encoded (afterMember ms).toList = b :: r ∧ EndsNumber b := by
  cases ms with
  | nil =>
    have hend : encoded (afterMember []).toList = [10, 125] := by decide
    exact ⟨10, [125], hend, by decide, by decide, by decide, by decide⟩
  | cons m rest =>
    refine ⟨44, encoded ("\n" ++ member m ++ afterMember rest).toList, ?_, by decide, by decide, by decide, by decide⟩
    rw [afterMember]
    simp only [String.toList_append, encoded_append, List.append_assoc]
    rfl

theorem ofName?_name (k : Key) : Key.ofName? k.name = some k := by
  cases k <;> decide

theorem takes_colon (r : List UInt8) : Takes colon (58 :: r) () r := by
  rw [colon]
  refine .bind (takes_peekToken (w := []) nofun (by decide) r) ?_
  simp only
  rw [if_pos (by decide)]
  exact takes_pass 58 r

/-- **A member** that was not there before is read, and then those that follow. -/
theorem takes_member {s t u : Settings} (hs : s.InRange) {k : Key} {v : String} (hv : s.printValue k = some v)
    {fuel : Nat} {first : Bool} {seen : List Key} (hk : k ∉ seen) {rest : List (Key × String)} {r r' : List UInt8}
    (hmore : Takes (moreMembers first) r true
      (encoded (quoted k.name).toList ++ 58 :: 32 :: (encoded v.toList ++ encoded (afterMember rest).toList)))
    (hrest : Takes (members fuel false (k :: seen) (s.adopt t k)) (encoded (afterMember rest).toList) u r') :
    Takes (members (fuel + 1) first seen t) r u r' := by
  obtain ⟨b, tail, hafter, hb⟩ := exists_afterMember rest
  rw [hafter] at hmore hrest
  rw [encoded_quoted, List.cons_append, List.append_assoc] at hmore
  have hseen : ¬ seen.contains k = true := by
    rw [List.contains_iff_mem]
    exact hk
  rw [members]
  refine .bind hmore ?_
  rw [if_pos rfl]
  refine .bind (takes_pass 34 _) (.bind (takes_text k.name _) ?_)
  rw [ofName?_name]
  simp only
  rw [if_neg hseen]
  exact .bind (takes_colon _) (.bind (takes_readValue hs t hv hb tail) hrest)

/-- A member as bytes. -/
theorem encoded_member (k : Key) (v : String) (r : List UInt8) :
    encoded (member (k, v)).toList ++ r
      = 32 :: 32 :: (encoded (quoted k.name).toList ++ 58 :: 32 :: (encoded v.toList ++ r)) := by
  have hindent : encoded "  ".toList = [32, 32] := by decide
  have hcolon : encoded ": ".toList = [58, 32] := by decide
  simp only [member, String.toList_append, encoded_append, List.append_assoc, hindent, hcolon, List.cons_append,
    List.nil_append]

/-- **The members that follow** are read up to the end of the object. -/
theorem takes_members {s : Settings} (hs : s.InRange) (ms : List (Key × String)) :
    ∀ {fuel : Nat} {seen : List Key} {t : Settings}, ms.length < fuel → (∀ m, m ∈ ms → s.printValue m.1 = some m.2) →
      (ms.map Prod.fst).Nodup → (∀ k, k ∈ ms.map Prod.fst → k ∉ seen) →
      Takes (members fuel false seen t) (encoded (afterMember ms).toList) (ms.foldl (fun t m => s.adopt t m.1) t) [] := by
  induction ms with
  | nil =>
    intro fuel seen t hfuel _ _ _
    obtain ⟨fuel, rfl⟩ := Nat.exists_eq_add_one.mpr hfuel
    have hmore : Takes (moreMembers false) (encoded (afterMember []).toList) false [125] := by
      rw [moreMembers]
      refine .bind (takes_peekToken (w := [10]) (List.all_eq_true.mp rfl) (by decide) []) ?_
      rfl
    rw [members]
    refine .bind hmore ?_
    rw [if_neg Bool.false_ne_true]
    exact .bind (takes_pass 125 []) (takes_pure t [])
  | cons m rest ih =>
    intro fuel seen t hfuel hvalues hnodup hseen
    obtain ⟨k, v⟩ := m
    obtain ⟨fuel, rfl⟩ := Nat.exists_eq_add_one.mpr (Nat.zero_lt_of_lt hfuel)
    rw [List.map_cons, List.nodup_cons] at hnodup
    obtain ⟨hfirst, hrest⟩ := hnodup
    have hmore : Takes (moreMembers false) (encoded (afterMember ((k, v) :: rest)).toList) true
        (encoded (quoted k.name).toList ++ 58 :: 32 :: (encoded v.toList ++ encoded (afterMember rest).toList)) := by
      have hcomma : encoded ",\n".toList = [44, 10] := by decide
      rw [afterMember, String.append_assoc]
      simp only [String.toList_append, encoded_append, hcomma, encoded_member, List.cons_append, List.nil_append]
      rw [encoded_quoted, moreMembers]
      refine .bind (takes_peekToken (w := []) nofun (by decide) _) ?_
      refine .bind (takes_pass 44 _) (.bind (takes_peekToken (w := [10, 32, 32]) (List.all_eq_true.mp rfl) (by decide) _) ?_)
      exact takes_pure true _
    refine takes_member hs (hvalues (k, v) List.mem_cons_self) (hseen k List.mem_cons_self) hmore ?_
    refine ih (Nat.lt_of_succ_lt_succ hfuel) (fun m hm => hvalues m (List.mem_cons_of_mem _ hm)) hrest ?_
    intro j hj hseen'
    rcases List.mem_cons.mp hseen' with rfl | hold
    · exact hfirst hj
    · exact hseen j (List.mem_cons_of_mem _ hj) hold

/-! ### The whole -/

theorem written_eq (s : Settings) : s.written
    = (.pollInterval, toString s.pollInterval) :: (.hookInterval, toString s.hookInterval)
      :: (.lineLimit, toString s.lineLimit) :: (.dumpName, quoted s.dumpName) :: (.color, printTruth s.color)
      :: (.debug, printTruth s.debug) :: (s.dataDir.map fun dir => (Key.dataDir, quoted dir)).toList := by
  obtain ⟨pollInterval, hookInterval, lineLimit, dumpName, color, debug, dataDir⟩ := s
  cases dataDir <;> rfl

theorem printValue_of_mem_written {s : Settings} {m : Key × String} (h : m ∈ s.written) : s.printValue m.1 = some m.2 := by
  obtain ⟨k, -, hk⟩ := List.mem_filterMap.mp h
  obtain ⟨v, hv, rfl⟩ := Option.map_eq_some_iff.mp hk
  exact hv

theorem nodup_written (s : Settings) : (s.written.map Prod.fst).Nodup := by
  rw [written_eq]
  cases s.dataDir with
  | none => exact (by decide : [Key.pollInterval, .hookInterval, .lineLimit, .dumpName, .color, .debug].Nodup)
  | some dir =>
    exact (by decide : [Key.pollInterval, .hookInterval, .lineLimit, .dumpName, .color, .debug, .dataDir].Nodup)

/-- Settings that take over all values that are written are the same. -/
theorem adopt_written (s : Settings) : s.written.foldl (fun t m => s.adopt t m.1) {} = s := by
  rw [written_eq]
  obtain ⟨pollInterval, hookInterval, lineLimit, dumpName, color, debug, dataDir⟩ := s
  cases dataDir <;> rfl

theorem print_eq (s : Settings) : s.print = "\x7b\n" ++ Text.join ",\n" (s.written.map member) ++ "\n\x7d" := by
  have hlines : (Key.all.filterMap fun k => (s.printValue k).map fun v => "  " ++ quoted k.name ++ ": " ++ v)
      = s.written.map member := by
    rw [written, List.map_filterMap]
    simp only [Option.map_map]
    rfl
  rw [print, hlines]

theorem length_le_afterMember (ms : List (Key × String)) : ms.length ≤ (encoded (afterMember ms).toList).length := by
  induction ms with
  | nil => exact Nat.zero_le _
  | cons m rest ih =>
    have hcomma : encoded ",\n".toList = [44, 10] := by decide
    rw [afterMember]
    simp only [String.toList_append, encoded_append, hcomma, List.length_append, List.length_cons, List.length_nil]
    omega

theorem takes_peekToken_end : Takes peekToken [] none [] := rfl

/-- **The settings** are read as they were written. -/
theorem takes_read {s : Settings} (hs : s.InRange) : Takes Settings.read (encoded s.print.toList) s [] := by
  have hadopt := adopt_written s
  have hvalues : ∀ m, m ∈ s.written → s.printValue m.1 = some m.2 := fun m => printValue_of_mem_written
  have hnodup := nodup_written s
  have hprint := print_eq s
  obtain ⟨v, rest, hwritten⟩ : ∃ v rest, s.written = (.pollInterval, v) :: rest := ⟨_, _, written_eq s⟩
  rw [hwritten] at hadopt hvalues hnodup hprint
  have hopen : encoded "\x7b\n".toList = [123, 10] := by decide
  have hbytes : encoded s.print.toList = 123 :: 10 :: (encoded (member (.pollInterval, v)).toList
      ++ encoded (afterMember rest).toList) := by
    rw [hprint, String.append_assoc, join_members]
    simp only [String.toList_append, encoded_append, hopen, List.cons_append, List.nil_append]
  rw [hbytes, encoded_member]
  have hmore : Takes (moreMembers true)
      (10 :: 32 :: 32 :: (encoded (quoted Key.pollInterval.name).toList
        ++ 58 :: 32 :: (encoded v.toList ++ encoded (afterMember rest).toList))) true
      (encoded (quoted Key.pollInterval.name).toList
        ++ 58 :: 32 :: (encoded v.toList ++ encoded (afterMember rest).toList)) := by
    rw [encoded_quoted, moreMembers]
    refine .bind (takes_peekToken (w := [10, 32, 32]) (List.all_eq_true.mp rfl) (by decide) _) ?_
    exact takes_pure true _
  rw [List.map_cons, List.nodup_cons] at hnodup
  obtain ⟨hfirst, hrest⟩ := hnodup
  rw [List.foldl_cons] at hadopt
  have hmembers {fuel : Nat} (hfuel : rest.length < fuel) :
      Takes (members (fuel + 1) true [] {}) (10 :: 32 :: 32 :: (encoded (quoted Key.pollInterval.name).toList
        ++ 58 :: 32 :: (encoded v.toList ++ encoded (afterMember rest).toList))) s [] := by
    refine takes_member hs (hvalues (.pollInterval, v) List.mem_cons_self) List.not_mem_nil hmore ?_
    have hothers : ∀ m, m ∈ rest → s.printValue m.1 = some m.2 := fun m hm => hvalues m (List.mem_cons_of_mem _ hm)
    have hnew : ∀ k, k ∈ rest.map Prod.fst → k ∉ [Key.pollInterval] := by
      intro k hk hseen
      rw [List.mem_singleton.mp hseen] at hk
      exact hfirst hk
    have hall : Takes (members fuel false [Key.pollInterval] (s.adopt {} .pollInterval)) _ _ [] :=
      takes_members hs rest hfuel hothers hrest hnew
    rwa [hadopt] at hall
  rw [Settings.read]
  refine .bind (takes_peekToken (w := []) nofun (by decide) _) ?_
  simp only
  rw [if_pos trivial]
  refine .bind (takes_pass 123 _) (.bind (takes_get _) (.bind (hmembers ?_) ?_))
  · have hlength := length_le_afterMember rest
    simp only [List.length_cons, List.length_append]
    omega
  · refine .bind takes_peekToken_end ?_
    exact takes_pure s []

end ScriptHost.Settings

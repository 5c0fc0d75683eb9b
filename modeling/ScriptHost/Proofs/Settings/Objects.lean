import ScriptHost.Proofs.Settings.Skipping
import ScriptHost.Proofs.Settings.Survival

/-!
# Settings are read key by key

An object is read member by member: the value of a known key is taken over, other members are passed, and the first member
that does not fit spoils the whole.

* `Key.Carrier`, `Settings.get`, `Settings.put` — what a key holds;
* `Key.meaning?` — what a value is as the value of a key;
* `adopts`, **`answers_members`** — what members come to, and that this is what is read of them;
* `Proper`, `given?` — members that fit, and what they give for a key;
* **`adopts_isSome_iff`**, **`get_of_adopts`** — members come to settings just if they fit, and then to what they give;
* **`read_key_by_key`** — so it is for the text of any object, with any comments between its lines.
-/

namespace ScriptHost.Settings

open Json Utf8

variable {cs cs' : List Char} {ts : List Token}

/-! ### What keys hold -/

namespace Key

/-- What the value of a key is. -/
def Carrier : Key → Type
  | .pollInterval | .hookInterval | .lineLimit => Nat
  | .dumpName => String
  | .color | .debug => Bool
  | .dataDir => Option String

/-- What a value is as the value of a key, if it is of its type and in its range. -/
def meaning? : (k : Key) → Value → Option k.Carrier
  | .pollInterval, v => v.natural? 0xFFFFFFFFFFFFFFFF
  | .hookInterval, v => v.natural? 0xFFFFFFFF
  | .lineLimit, v => v.natural? 0xFFFFFFFFFFFFFFFF
  | .dumpName, v => v.text?
  | .color, v => v.truth?
  | .debug, v => v.truth?
  | .dataDir, v => v.path?

end Key

/-- The value of a key. -/
def get (s : Settings) : (k : Key) → k.Carrier
  | .pollInterval => s.pollInterval
  | .hookInterval => s.hookInterval
  | .lineLimit => s.lineLimit
  | .dumpName => s.dumpName
  | .color => s.color
  | .debug => s.debug
  | .dataDir => s.dataDir

/-- Settings with another value of a key. -/
def put (s : Settings) : (k : Key) → k.Carrier → Settings
  | .pollInterval, n => { s with pollInterval := n }
  | .hookInterval, n => { s with hookInterval := n }
  | .lineLimit, n => { s with lineLimit := n }
  | .dumpName, name => { s with dumpName := name }
  | .color, b => { s with color := b }
  | .debug, b => { s with debug := b }
  | .dataDir, dir => { s with dataDir := dir }

/-- Settings by what they hold for each key. -/
def ofKeys (f : (k : Key) → k.Carrier) : Settings where
  pollInterval := f .pollInterval
  hookInterval := f .hookInterval
  lineLimit := f .lineLimit
  dumpName := f .dumpName
  color := f .color
  debug := f .debug
  dataDir := f .dataDir

theorem ofKeys_get (s : Settings) : ofKeys s.get = s := rfl

theorem get_put_self (s : Settings) (k : Key) (x : k.Carrier) : (s.put k x).get k = x := by
  cases k <;> rfl

theorem get_put_of_ne {j k : Key} (h : j ≠ k) (s : Settings) (x : k.Carrier) : (s.put k x).get j = s.get j := by
  cases k <;> cases j <;> first | rfl | exact absurd rfl h

/-- **The value of a key** is read of a value that is one. -/
theorem answers_readValue (s : Settings) (k : Key) {v : Value} (hends : Ends ts) (h : Spaced (v.tokens ++ ts) cs) :
    Answers (s.readValue k) (encoded cs) ((k.meaning? v).map (s.put k)) ts := by
  cases k with
  | pollInterval => exact (answers_natural "u64" (by decide) hends h).map _
  | hookInterval => exact (answers_natural "u32" (by decide) hends h).map _
  | lineLimit => exact (answers_natural "usize" (by decide) hends h).map _
  | dumpName => exact (answers_textValue "a string" h).map _
  | color => exact (answers_truth h).map _
  | debug => exact (answers_truth h).map _
  | dataDir => exact (answers_pathOrNone h).map _

/-! ### Members -/

/-- The known key of a member. -/
def keyOf? (m : Member) : Option Key := (text? m.1).bind Key.ofName?

/-- What settings come to by the members of an object, when some keys have occurred before. -/
def adopts (seen : List Key) (s : Settings) : List Member → Option Settings
  | [] => some s
  | m :: ms =>
    (text? m.1).bind fun name =>
      match Key.ofName? name with
      | none => adopts seen s ms
      | some k => if seen.contains k then none else (k.meaning? m.2).bind fun x => adopts (k :: seen) (s.put k x) ms

/-- Behind the last member the object ends. -/
theorem exists_moreMembers_end (first : Bool) (h : Spaced (.closeBrace :: ts) cs) :
    ∃ cs', Spaced ts cs' ∧ Takes (moreMembers first) (encoded cs) false (125 :: encoded cs') := by
  obtain ⟨cs', hs, hpeek⟩ := h.exists_peekToken_single (b := 125) rfl
  exact ⟨cs', hs, hpeek.bind (takes_pure false _)⟩

/-- **The key of the next member** comes next, behind a comma if the member is not the first. -/
theorem exists_moreMembers (first : Bool) {key : List Glyph} (h : Spaced (separator first ++ (.text key :: ts)) cs) :
    ∃ cs', Spaced ts cs' ∧
      Takes (moreMembers first) (encoded cs) true (34 :: (encoded (spelled key) ++ 34 :: encoded cs')) := by
  cases first with
  | true =>
    obtain ⟨cs', hs, hpeek⟩ := Spaced.exists_peekToken_text h
    exact ⟨cs', hs, hpeek.bind (takes_pure true _)⟩
  | false =>
    obtain ⟨cs', hs, hcomma⟩ := Spaced.exists_peekToken_single (t := .comma) (b := 44) rfl h
    obtain ⟨cs'', hs', hpeek⟩ := hs.exists_peekToken_text
    exact ⟨cs'', hs', hcomma.bind ((takes_pass 44 _).bind (hpeek.bind (takes_pure true _)))⟩

theorem exists_colon (h : Spaced (.colon :: ts) cs) : ∃ cs', Spaced ts cs' ∧ Takes colon (encoded cs) () (encoded cs') := by
  obtain ⟨cs', hs, hpeek⟩ := h.exists_peekToken_single (b := 58) rfl
  exact ⟨cs', hs, hpeek.bind (takes_pass 58 _)⟩

theorem fails_duplicate {α : Type} (k : Key) (r : List UInt8) : Fails (duplicate k : Reads α) r := by
  rw [duplicate]
  refine fails_bind (fun b r => ?_) r
  split
  · exact fails_bind (fun _ => fails_failHere _) r
  · exact fails_failHere _ r

/-- **The members of an object** are read as what they come to. -/
theorem answers_members (ms : List Member) : ∀ {fuel : Nat} (first : Bool) (seen : List Key) (s : Settings) {cs : List Char},
    ms.length < fuel → Spaced (memberTokens first ms ++ (.closeBrace :: ts)) cs →
    Answers (members fuel first seen s) (encoded cs) (adopts seen s ms) ts := by
  induction ms with
  | nil =>
    intro fuel first seen s cs hfuel h
    obtain ⟨fuel, rfl⟩ := Nat.exists_eq_add_one.mpr hfuel
    obtain ⟨cs', hs, hmore⟩ := exists_moreMembers_end first h
    exact ⟨cs', hs, hmore.bind ((takes_pass 125 _).bind (takes_pure s _))⟩
  | cons m ms ih =>
    intro fuel first seen s cs hfuel h
    obtain ⟨fuel, rfl⟩ := Nat.exists_eq_add_one.mpr (Nat.zero_lt_of_lt hfuel)
    have hless := Nat.lt_of_succ_lt_succ hfuel
    obtain ⟨key, v⟩ := m
    rw [memberTokens, List.append_assoc, List.cons_append, List.cons_append, List.append_assoc] at h
    obtain ⟨cs₁, hs₁, hmore⟩ := exists_moreMembers first h
    rw [members, adopts]
    refine hmore.bind_answers ?_
    rw [if_pos rfl]
    refine (takes_pass 34 _).bind_answers (((settles_text key _).answers hs₁).bind fun name cs₂ hs₂ => ?_)
    obtain ⟨cs₃, hs₃, hcolon⟩ := exists_colon hs₂
    cases Key.ofName? name with
    | none =>
      obtain ⟨cs₄, hs₄, hskip⟩ := exists_skipValue v (ends_members ms ts) hs₃
      exact hcolon.bind_answers (hskip.bind_answers (ih false seen s hless hs₄))
    | some k =>
      dsimp only
      by_cases hseen : seen.contains k = true
      · rw [if_pos hseen, if_pos hseen]
        exact fails_duplicate k _
      · rw [if_neg hseen, if_neg hseen]
        have hrest := (answers_readValue s k (ends_members ms ts) hs₃).bind
          (f := fun t => members fuel false (k :: seen) t) (g := fun t => adopts (k :: seen) t ms)
          fun t _ hs => ih false (k :: seen) t hless hs
        rw [Option.bind_map] at hrest
        exact hcolon.bind_answers hrest

/-! ### Members that fit -/

/-- Members that fit: each key stands for characters, no known key occurs twice, and each known key has a value of its type
and in its range. -/
structure Proper (ms : List Member) : Prop where
  spelled : ∀ m, m ∈ ms → (text? m.1).isSome = true
  once : (ms.filterMap keyOf?).Nodup
  valued : ∀ m, m ∈ ms → ∀ k, keyOf? m = some k → (k.meaning? m.2).isSome = true

/-- What members give for a key. -/
def given? (ms : List Member) (k : Key) : Option k.Carrier :=
  (ms.find? fun m => keyOf? m = some k).bind fun m => k.meaning? m.2

/-- The settings that members give: for each key what they give for it, or else its default. -/
def given (ms : List Member) : Settings := ofKeys fun k => (given? ms k).getD (({} : Settings).get k)

theorem proper_nil : Proper [] := ⟨nofun, List.nodup_nil, nofun⟩

/-- The first of some members that fit, and the others. -/
theorem proper_cons_iff {m : Member} {ms : List Member} : Proper (m :: ms) ↔
    (text? m.1).isSome = true ∧ (∀ k, keyOf? m = some k → k ∉ ms.filterMap keyOf? ∧ (k.meaning? m.2).isSome = true) ∧
      Proper ms := by
  constructor
  · intro h
    have honce := h.once
    refine ⟨h.spelled m List.mem_cons_self, fun k hk => ⟨?_, h.valued m List.mem_cons_self k hk⟩,
      fun n hn => h.spelled n (List.mem_cons_of_mem m hn), ?_, fun n hn => h.valued n (List.mem_cons_of_mem m hn)⟩
    · rw [List.filterMap_cons_some hk] at honce
      exact (List.nodup_cons.mp honce).1
    · cases hk : keyOf? m with
      | none => rwa [List.filterMap_cons_none hk] at honce
      | some k =>
        rw [List.filterMap_cons_some hk] at honce
        exact (List.nodup_cons.mp honce).2
  · rintro ⟨hspelled, hknown, hrest⟩
    refine ⟨List.forall_mem_cons.mpr ⟨hspelled, hrest.spelled⟩, ?_,
      List.forall_mem_cons.mpr ⟨fun k hk => (hknown k hk).2, hrest.valued⟩⟩
    cases hk : keyOf? m with
    | none =>
      rw [List.filterMap_cons_none hk]
      exact hrest.once
    | some k =>
      rw [List.filterMap_cons_some hk]
      exact List.nodup_cons.mpr ⟨(hknown k hk).1, hrest.once⟩

section Cons

variable (seen : List Key) (s : Settings) (ms : List Member) {m : Member}

/-- A key that stands for no characters spoils the members. -/
theorem adopts_of_unspelled (h : text? m.1 = none) : adopts seen s (m :: ms) = none := by
  rw [adopts, h, Option.bind_none]

/-- An unknown key changes nothing. -/
theorem adopts_of_unknown (h : (text? m.1).isSome = true) (hk : keyOf? m = none) : adopts seen s (m :: ms) = adopts seen s ms := by
  obtain ⟨name, hname⟩ := Option.isSome_iff_exists.mp h
  rw [keyOf?, hname, Option.bind_some] at hk
  rw [adopts, hname, Option.bind_some, hk]

/-- The value of a known key is taken over, if the key is new and the value is one. -/
theorem adopts_of_known {k : Key} (hk : keyOf? m = some k) : adopts seen s (m :: ms)
    = if k ∈ seen then none else (k.meaning? m.2).bind fun x => adopts (k :: seen) (s.put k x) ms := by
  obtain ⟨name, hname, hof⟩ := Option.bind_eq_some_iff.mp hk
  rw [adopts, hname, Option.bind_some, hof]
  dsimp only
  simp only [List.contains_iff_mem]

end Cons

theorem isSome_of_keyOf? {m : Member} {k : Key} (hk : keyOf? m = some k) : (text? m.1).isSome = true := by
  obtain ⟨name, hname, -⟩ := Option.bind_eq_some_iff.mp hk
  rw [hname]
  rfl

/-- **Members come to settings** just if they fit, and no known key among them has occurred before. -/
theorem adopts_isSome_iff (ms : List Member) : ∀ (seen : List Key) (s : Settings),
    (adopts seen s ms).isSome = true ↔ Proper ms ∧ ∀ k, k ∈ ms.filterMap keyOf? → k ∉ seen := by
  induction ms with
  | nil => exact fun seen s => ⟨fun _ => ⟨proper_nil, nofun⟩, fun _ => rfl⟩
  | cons m ms ih =>
    intro seen s
    rw [proper_cons_iff]
    cases hk : keyOf? m with
    | none =>
      rw [List.filterMap_cons_none hk]
      by_cases hspelled : (text? m.1).isSome = true
      · rw [adopts_of_unknown seen s ms hspelled hk, ih seen s]
        exact ⟨fun h => ⟨⟨hspelled, fun k hk => (by cases hk), h.1⟩, h.2⟩, fun h => ⟨h.1.2.2, h.2⟩⟩
      · rw [adopts_of_unspelled seen s ms (Option.not_isSome_iff_eq_none.mp hspelled)]
        exact ⟨fun h => (by cases h), fun h => absurd h.1.1 hspelled⟩
    | some k =>
      rw [List.filterMap_cons_some hk, adopts_of_known seen s ms hk]
      by_cases hseen : k ∈ seen
      · rw [if_pos hseen]
        exact ⟨fun h => (by cases h), fun h => absurd hseen (h.2 k List.mem_cons_self)⟩
      · rw [if_neg hseen]
        cases hx : k.meaning? m.2 with
        | none =>
          refine ⟨fun h => (by cases h), fun h => ?_⟩
          have hvalue := (h.1.2.1 k rfl).2
          rw [hx] at hvalue
          cases hvalue
        | some x =>
          rw [Option.bind_some, ih (k :: seen)]
          constructor
          · rintro ⟨hproper, hnew⟩
            refine ⟨⟨isSome_of_keyOf? hk, fun j hj => ?_, hproper⟩,
              List.forall_mem_cons.mpr ⟨hseen, fun j hj hold => hnew j hj (List.mem_cons_of_mem k hold)⟩⟩
            cases hj
            exact ⟨fun hlater => hnew k hlater List.mem_cons_self, by rw [hx]; rfl⟩
          · rintro ⟨⟨-, hknown, hproper⟩, hnew⟩
            refine ⟨hproper, fun j hj hold => ?_⟩
            rcases List.mem_cons.mp hold with rfl | hold
            · exact (hknown j rfl).1 hj
            · exact hnew j (List.mem_cons_of_mem k hj) hold

theorem given?_cons_of_ne {m : Member} {j : Key} (h : keyOf? m ≠ some j) (ms : List Member) :
    given? (m :: ms) j = given? ms j := by
  rw [given?, List.find?_cons_of_neg (by rwa [decide_eq_true_eq]), given?]

theorem given?_cons_self {m : Member} {j : Key} (h : keyOf? m = some j) (ms : List Member) :
    given? (m :: ms) j = j.meaning? m.2 := by
  rw [given?, List.find?_cons_of_pos (by rwa [decide_eq_true_eq])]
  rfl

theorem given?_eq_none {ms : List Member} {j : Key} (h : j ∉ ms.filterMap keyOf?) : given? ms j = none := by
  have hnone : ms.find? (fun m => keyOf? m = some j) = none := by
    rw [List.find?_eq_none]
    intro m hm hj
    exact h (List.mem_filterMap.mpr ⟨m, hm, of_decide_eq_true hj⟩)
  rw [given?, hnone]
  rfl

/-- **What members come to** is what they give for each key, and otherwise what was there. -/
theorem get_of_adopts (ms : List Member) (j : Key) : ∀ {seen : List Key} {s t : Settings}, adopts seen s ms = some t →
    t.get j = (given? ms j).getD (s.get j) := by
  induction ms with
  | nil =>
    intro seen s t h
    cases h
    rfl
  | cons m ms ih =>
    intro seen s t h
    cases hk : keyOf? m with
    | none =>
      have hspelled : (text? m.1).isSome = true := by
        have hproper := ((adopts_isSome_iff (m :: ms) seen s).mp (by rw [h]; rfl)).1
        exact (proper_cons_iff.mp hproper).1
      rw [adopts_of_unknown seen s ms hspelled hk] at h
      rw [given?_cons_of_ne (by rw [hk]; nofun), ih h]
    | some k =>
      rw [adopts_of_known seen s ms hk] at h
      split at h
      · cases h
      · obtain ⟨x, hx, hrest⟩ := Option.bind_eq_some_iff.mp h
        by_cases hj : j = k
        · subst hj
          -- the key has occurred, so it does not occur again
          have hnew := ((adopts_isSome_iff ms (j :: seen) (s.put j x)).mp (by rw [hrest]; rfl)).2
          have hnone := given?_eq_none fun hlater => hnew j hlater List.mem_cons_self
          rw [given?_cons_self hk, hx, ih hrest, hnone, Option.getD_none, Option.getD_some, get_put_self]
        · rw [given?_cons_of_ne (by rw [hk]; exact fun h => hj (Option.some.inj h).symm), ih hrest, get_put_of_ne hj]

theorem eq_given {ms : List Member} {s : Settings} (h : adopts [] {} ms = some s) : s = given ms := by
  rw [← ofKeys_get s]
  exact congrArg ofKeys (funext fun k => get_of_adopts ms k h)

/-! ### The whole -/

theorem length_le_memberTokens (first : Bool) (ms : List Member) : ms.length ≤ (memberTokens first ms).length := by
  induction ms generalizing first with
  | nil => exact Nat.le_refl 0
  | cons m ms ih =>
    have hms := ih false
    rw [memberTokens, List.length_append, List.length_cons, List.length_cons, List.length_cons, List.length_append]
    omega

/-- **An object** is read as what its members come to. -/
theorem answers_read {ms : List Member} (h : Spaced (Value.object ms).tokens cs) :
    Answers Settings.read (encoded cs) (adopts [] {} ms) [] := by
  obtain ⟨cs', hs, hpeek⟩ := Spaced.exists_peekToken_single (t := .openBrace) (b := 123) rfl h
  have hlength : ms.length < (encoded cs').length + 1 := by
    have hmembers := length_le_memberTokens true ms
    have hspaced := hs.length_le
    have hencoded := length_le_encoded cs'
    rw [List.length_append] at hspaced
    omega
  rw [Settings.read]
  refine hpeek.bind_answers ((takes_pass 123 _).bind_answers ((takes_get _).bind_answers ?_))
  rw [← Option.bind_fun_some (adopts [] {} ms)]
  refine (answers_members ms true [] {} hlength hs).bind fun s cs'' hrest => ?_
  exact ⟨[], .nothing, hrest.takes_peekToken_nil.bind (takes_pure s [])⟩

/-- What is read of a text without its comments is what the text is parsed to. -/
theorem parse_of_answers {text : String} {s? : Option Settings}
    (h : Answers Settings.read (encoded (withoutComments text).toList) s? []) :
    s?.elim (∃ e, parse text = .error e) fun s => parse text = .ok s := by
  have hbytes : (Bytes.ofString (withoutComments text)).toList = encoded (withoutComments text).toList := toList_ofString _
  cases s? with
  | none =>
    obtain ⟨p, hp⟩ := h
    refine ⟨p.display (encoded (withoutComments text).toList), ?_⟩
    rw [parse, hbytes, hp]
  | some s =>
    obtain ⟨cs, -, htakes⟩ := h
    have hread : Settings.read (encoded (withoutComments text).toList) = .ok (s, encoded cs) := htakes
    show parse text = .ok s
    rw [parse, hbytes, hread]

/-- Without the comments the lines are left, if none of them is one. -/
theorem Commented.filter_eq {ls ls' : List String} (h : Commented ls ls') (hls : ∀ l, l ∈ ls → isComment l = false) :
    (ls'.filter fun l => !isComment l) = ls := by
  induction h with
  | nil => rfl
  | keep l _ ih =>
    have hl := hls l List.mem_cons_self
    rw [List.filter_cons_of_pos (by rw [hl]; rfl), ih fun k hk => hls k (List.mem_cons_of_mem l hk)]
  | comment hl _ _ ih => rw [List.filter_cons_of_neg (by rw [hl]; exact Bool.false_ne_true), ih hls]

/-- **The comments between its lines** are no part of a text of JSON. -/
theorem spaced_withoutComments {json text : String} (hjson : Spaced ts json.toList)
    (htext : Commented (Text.lines json) (Text.lines text)) : Spaced ts (withoutComments text).toList := by
  obtain ⟨hjoin, hall⟩ := Spaced.lines (Text.cut_lines json) hjson
  have hfilter := htext.filter_eq fun l hl => (hall l hl).elim fun us hus => hus.not_isComment
  rw [withoutComments, hfilter]
  exact hjoin

/-- A file that is not parsed counts as the defaults, and one that is parsed as what it is parsed to. -/
theorem load_of_readText {t : Tree} {path text : String} (hhas : t.has path = true) (hread : t.readText path = .ok text) :
    (∀ s, parse text = .ok s → load t path = (s, [])) ∧ (∀ e, parse text = .error e → (load t path).1 = {}) := by
  rw [load, if_pos hhas, hread]
  dsimp only
  constructor
  · intro s hs
    rw [hs]
  · intro e he
    rw [he]

/-! ### Texts that are laid out -/

/-- Tokens as they are written, each behind some white space. -/
def laid (ps : List (List Char × Token)) : List Char := ps.flatMap fun p => p.1 ++ p.2.chars

theorem spaced_laid (ps : List (List Char × Token)) (hps : (ps.all fun p => p.1.all isSpaceChar) = true) :
    Spaced (ps.map Prod.snd) (laid ps) := by
  induction ps with
  | nil => exact .nothing
  | cons p ps ih =>
    rw [List.all_cons, Bool.and_eq_true] at hps
    have hw := List.all_eq_true.mp hps.1
    rw [laid, List.flatMap_cons, List.append_assoc]
    generalize p.1 = w at hw
    induction w with
    | nil => exact .token p.2 (ih hps.2)
    | cons c w ihw => exact .space c (hw c List.mem_cons_self) (ihw fun d hd => hw d (List.mem_cons_of_mem c hd))

/-- A text without escapes. -/
def plainly (s : String) : List Glyph :=
  s.toList.filterMap fun c => if hc : isUnescaped c = true then some (.plain c hc) else none

/-! ### Key by key -/

/-- **Settings are read key by key.** For the text of any object, with any comments between its lines: if the members fit,
the text is parsed to the settings that hold for each key what they give for it, or else its default; and if they do not,
the text is not parsed at all. A file with the text is loaded as just these settings, and as the defaults if the members do
not fit. -/
theorem read_key_by_key {json text : String} {ms : List Member} (hjson : Spaced (Value.object ms).tokens json.toList)
    (htext : Commented (Text.lines json) (Text.lines text)) :
    (Proper ms → parse text = .ok (given ms) ∧
      ∀ (t : Tree) path, t.has path = true → t.readText path = .ok text → load t path = (given ms, [])) ∧
    (¬ Proper ms → (∃ e, parse text = .error e) ∧
      ∀ (t : Tree) path, t.has path = true → t.readText path = .ok text → (load t path).1 = {}) := by
  have hparse := parse_of_answers (answers_read (spaced_withoutComments hjson htext))
  have hiff := adopts_isSome_iff ms [] {}
  cases hadopts : adopts [] {} ms with
  | none =>
    rw [hadopts] at hparse hiff
    obtain ⟨e, he⟩ := hparse
    refine ⟨fun hproper => ?_, fun _ => ⟨⟨e, he⟩, fun t path hhas hread => (load_of_readText hhas hread).2 e he⟩⟩
    exact absurd (hiff.mpr ⟨hproper, fun k _ => List.not_mem_nil⟩) Bool.false_ne_true
  | some s =>
    rw [hadopts] at hparse hiff
    rw [eq_given hadopts] at hparse
    refine ⟨fun _ => ⟨hparse, fun t path hhas hread => (load_of_readText hhas hread).1 _ hparse⟩, fun hnot => ?_⟩
    exact absurd (hiff.mp rfl).1 hnot

/-- Members in some order: an unknown one with a known key inside, a key with an escape, nothing for a path, and the greatest
limit. -/
def scattered : List Member :=
  [(plainly "x", .list [.null, .object [(plainly "debug", .number { whole := 1 })]]),
    (.unit (.ofNat 0x64) :: plainly "ebug", .truth true),
    (plainly "dataDir", .null),
    (plainly "report.lineLimit", .number { whole := 18446744073709551615 })]

/-- The members as they are written, in three lines. -/
def scatteredText : String :=
  "\x7b \"x\": [null, \x7b\"debug\": 1\x7d],\n\"\\u0064ebug\": true, \"dataDir\":null\n,\"report.lineLimit\": 18446744073709551615\x7d"

/-- The same with comments before, between and behind the lines. -/
def commentedText : String :=
  "// first\n\x7b \"x\": [null, \x7b\"debug\": 1\x7d],\n  // \"debug\": false\n\"\\u0064ebug\": true, \"dataDir\":null\n//\n,\"report.lineLimit\": 18446744073709551615\x7d\n// last"

/-- The tokens of the members, each with the white space before it. -/
def scatteredPieces : List (List Char × Token) :=
  [([], .openBrace), ([' '], .text (plainly "x")), ([], .colon), ([' '], .openBracket), ([], .null), ([], .comma),
    ([' '], .openBrace), ([], .text (plainly "debug")), ([], .colon), ([' '], .number { whole := 1 }), ([], .closeBrace),
    ([], .closeBracket), ([], .comma),
    (['\n'], .text (.unit (.ofNat 0x64) :: plainly "ebug")), ([], .colon),
    ([' '], .truth true), ([], .comma), ([' '], .text (plainly "dataDir")), ([], .colon), ([], .null),
    (['\n'], .comma), ([], .text (plainly "report.lineLimit")), ([], .colon),
    ([' '], .number { whole := 18446744073709551615 }), ([], .closeBrace)]

theorem spaced_scattered : Spaced (Value.object scattered).tokens scatteredText.toList := by
  have hlaid : scatteredText.toList = laid scatteredPieces := by decide +kernel
  rw [hlaid]
  exact spaced_laid scatteredPieces (by decide +kernel)

theorem commented_scattered : Commented (Text.lines scatteredText) (Text.lines commentedText) := by
  have hjson : Text.lines scatteredText = ["\x7b \"x\": [null, \x7b\"debug\": 1\x7d],",
      "\"\\u0064ebug\": true, \"dataDir\":null", ",\"report.lineLimit\": 18446744073709551615\x7d"] := by
    decide +kernel
  have htext : Text.lines commentedText = ["// first", "\x7b \"x\": [null, \x7b\"debug\": 1\x7d],",
      "  // \"debug\": false", "\"\\u0064ebug\": true, \"dataDir\":null", "//",
      ",\"report.lineLimit\": 18446744073709551615\x7d", "// last"] := by
    decide +kernel
  rw [hjson, htext]
  refine .comment (by decide +kernel) (by decide +kernel) (.keep _ (.comment (by decide +kernel) (by decide +kernel) (.keep _ ?_)))
  exact .comment (by decide +kernel) (by decide +kernel)
    (.keep _ (.comment (by decide +kernel) (by decide +kernel) .nil))

theorem proper_scattered : Proper scattered :=
  ((adopts_isSome_iff scattered [] {}).mp (by decide +kernel)).1

/-- Members of which the last has a number that is out of range by one. -/
def spoiled : List Member :=
  [(plainly "debug", .truth true), (plainly "sandbox.hookInterval", .number { whole := 4294967296 })]

def spoiledText : String := "\x7b\"debug\":true,\"sandbox.hookInterval\":4294967296\x7d"

theorem spaced_spoiled : Spaced (Value.object spoiled).tokens spoiledText.toList := by
  have hlaid : spoiledText.toList = laid ((Value.object spoiled).tokens.map fun t => ([], t)) := by decide +kernel
  rw [hlaid]
  exact spaced_laid ((Value.object spoiled).tokens.map fun t => ([], t)) (by decide +kernel)

theorem read_scattered : Spaced (Value.object scattered).tokens scatteredText.toList ∧
    Commented (Text.lines scatteredText) (Text.lines commentedText) ∧
    parse commentedText = .ok { lineLimit := 18446744073709551615, debug := true } ∧ ∃ e, parse spoiledText = .error e := by
  have hgiven : given scattered = { lineLimit := 18446744073709551615, debug := true } := by decide +kernel
  have hparse := ((read_key_by_key spaced_scattered commented_scattered).1 proper_scattered).1
  have hspoiled : ¬ Proper spoiled := fun h =>
    absurd ((adopts_isSome_iff spoiled [] {}).mpr ⟨h, fun _ _ => List.not_mem_nil⟩) (by decide +kernel)
  rw [hgiven] at hparse
  exact ⟨spaced_scattered, commented_scattered, hparse, ((read_key_by_key spaced_spoiled (.refl _)).2 hspoiled).1⟩

/-- A member whose key is the second half of a character. -/
def halved : List Member := [([.unit (.ofNat 0xDC00)], .number { whole := 1 })]

def halvedText : String := "\x7b\"\\udc00\":1\x7d"

/-- An unknown key that stands for no characters is refused, although no known key occurs. -/
theorem half_character_refused : Spaced (Value.object halved).tokens halvedText.toList ∧ halved.filterMap keyOf? = [] ∧
    ∃ e, parse halvedText = .error e := by
  have hlaid : halvedText.toList = laid ((Value.object halved).tokens.map fun t => ([], t)) := by decide +kernel
  have hspaced : Spaced (Value.object halved).tokens halvedText.toList := by
    rw [hlaid]
    exact spaced_laid ((Value.object halved).tokens.map fun t => ([], t)) (by decide +kernel)
  refine ⟨hspaced, rfl, ?_⟩
  exact parse_of_answers (answers_read (spaced_withoutComments hspaced (.refl _)))

end ScriptHost.Settings

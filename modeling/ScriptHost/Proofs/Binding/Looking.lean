import ScriptHost.Binding.Core
import ScriptHost.Proofs.Text.Utf8

/-!
# How a line is read

Reading a line is looking at the input again and again: each look takes a line that is there, or reads more bytes, or
finds that nothing has come yet.

* `lineEnd?_eq_none`, **`lineEnd?_eq_some`** — where the first line ends;
* `takeLine_eq`, `chomp`, `toList_withoutReturn` — the first line, and what is left out of it;
* `Access.look` — one look;
* **`readLine_succ`** — reading a line is a look, and then what it calls for.
-/

namespace ScriptHost

open Script

namespace Bytes

theorem toList_extract (b : Bytes) (i j : Nat) :
    (b.extract i j).data.toList = (b.data.toList.drop i).take (j - i) := by
  rw [ByteArray.data_extract, Array.toList_extract, List.extract_eq_take_drop]

theorem toList_append (b c : Bytes) : (b.append c).data.toList = b.data.toList ++ c.data.toList :=
  ByteArray.toList_data_append'

theorem size_eq (b : Bytes) : b.size = b.data.toList.length := Array.length_toList.symm

/-- Both parts of a byte string. -/
theorem toList_split (b : Bytes) (n : Nat) :
    (b.extract 0 n).data.toList ++ (b.extract n b.size).data.toList = b.data.toList := by
  have hall : (b.data.toList.drop n).length ≤ b.data.toList.length - n := Nat.le_of_eq List.length_drop
  rw [toList_extract, toList_extract, List.drop_zero, Nat.sub_zero, size_eq, List.take_of_length_le hall,
    List.take_append_drop]

theorem eq_of_toList {b c : Bytes} (h : b.data.toList = c.data.toList) : b = c :=
  ByteArray.ext (Array.toList_inj.mp h)

theorem eq_toByteArray {b : Bytes} {bs : List UInt8} (h : b.data.toList = bs) : b = bs.toByteArray :=
  eq_of_toList (h.trans List.toList_data_toByteArray.symm)

theorem toList_eq_nil {b : Bytes} (h : b.size = 0) : b.data.toList = [] := List.eq_nil_of_length_eq_zero (b.size_eq ▸ h)

end Bytes

/-! ### The end of the first line -/

theorem occursAt_newline (b : Bytes) (i : Nat) :
    b.occursAt (Bytes.ofString "\n") i = true ↔ b.data.toList[i]? = some 10 := by
  have hoccurs : b.occursAt (Bytes.ofString "\n") i = (decide (i + 1 ≤ b.size) && b.byteAt i == 10) := by
    rw [← Bool.and_true (b.byteAt i == 10)]
    rfl
  rw [hoccurs, Bytes.byteAt_eq, b.size_eq, Bool.and_eq_true, decide_eq_true_eq, beq_iff_eq]
  constructor
  · rintro ⟨hlt, hbyte⟩
    rw [List.getElem?_eq_getElem hlt] at hbyte ⊢
    exact congrArg some hbyte
  · intro hbyte
    obtain ⟨hlt, -⟩ := List.getElem?_eq_some_iff.mp hbyte
    rw [hbyte]
    exact ⟨hlt, rfl⟩

/-- What the search for a line feed finds. -/
theorem findLoop_newline (b : Bytes) : ∀ fuel i : Nat,
    match Bytes.findLoop b (Bytes.ofString "\n") fuel i with
    | none => ∀ j, i ≤ j → j ≤ i + fuel → b.data.toList[j]? ≠ some 10
    | some n => b.data.toList[n]? = some 10 ∧ ∀ j, i ≤ j → j < n → b.data.toList[j]? ≠ some 10 := by
  intro fuel
  induction fuel with
  | zero =>
    intro i
    rw [Bytes.findLoop]
    by_cases hoccurs : b.occursAt (Bytes.ofString "\n") i = true
    · rw [if_pos hoccurs]
      exact ⟨(occursAt_newline b i).mp hoccurs, fun j hle hlt => absurd hle (by omega)⟩
    · rw [if_neg hoccurs]
      intro j hle hge
      have hj : j = i := by omega
      rw [hj]
      exact fun hbyte => hoccurs ((occursAt_newline b i).mpr hbyte)
  | succ fuel ih =>
    intro i
    rw [Bytes.findLoop]
    by_cases hoccurs : b.occursAt (Bytes.ofString "\n") i = true
    · rw [if_pos hoccurs]
      exact ⟨(occursAt_newline b i).mp hoccurs, fun j hle hlt => absurd hle (by omega)⟩
    · rw [if_neg hoccurs]
      have hhere : b.data.toList[i]? ≠ some 10 := fun hbyte => hoccurs ((occursAt_newline b i).mpr hbyte)
      have hnext := ih (i + 1)
      generalize Bytes.findLoop b (Bytes.ofString "\n") fuel (i + 1) = found at hnext
      cases found with
      | none =>
        intro j hle hge
        rcases Nat.eq_or_lt_of_le hle with rfl | hlt
        · exact hhere
        · exact hnext j hlt (by omega)
      | some n =>
        refine ⟨hnext.1, ?_⟩
        intro j hle hlt
        rcases Nat.eq_or_lt_of_le hle with rfl | hless
        · exact hhere
        · exact hnext.2 j hless hlt

theorem lineEnd?_eq (b : Bytes) : Core.lineEnd? b
    = if b.size < 1 then none else Bytes.findLoop b (Bytes.ofString "\n") (b.size - 1) 0 := rfl

theorem lineEnd?_eq_none {b : Bytes} (h : Core.lineEnd? b = none) : 10 ∉ b.data.toList := by
  intro hmem
  obtain ⟨j, hj⟩ := List.mem_iff_getElem?.mp hmem
  obtain ⟨hlt, -⟩ := List.getElem?_eq_some_iff.mp hj
  rw [← b.size_eq] at hlt
  have hspec := findLoop_newline b (b.size - 1) 0
  rw [lineEnd?_eq, if_neg (by omega)] at h
  rw [h] at hspec
  exact hspec j (Nat.zero_le j) (by omega) hj

/-- **Where the first line ends.** -/
theorem lineEnd?_eq_some {b : Bytes} {n : Nat} (h : Core.lineEnd? b = some n) :
    ∃ x y, b.data.toList = x ++ 10 :: y ∧ x.length = n ∧ 10 ∉ x := by
  have hspec := findLoop_newline b (b.size - 1) 0
  rw [lineEnd?_eq] at h
  split at h
  · cases h
  · rw [h] at hspec
    obtain ⟨hbyte, hbefore⟩ := hspec
    obtain ⟨hlt, hget⟩ := List.getElem?_eq_some_iff.mp hbyte
    refine ⟨b.data.toList.take n, b.data.toList.drop (n + 1), ?_, List.length_take_of_le (Nat.le_of_lt hlt), ?_⟩
    · rw [← hget, List.getElem_cons_drop, List.take_append_drop]
    · intro hmem
      obtain ⟨j, hj⟩ := List.mem_iff_getElem?.mp hmem
      rw [List.getElem?_take] at hj
      split at hj
      · rename_i hless
        exact hbefore j (Nat.zero_le j) hless hj
      · cases hj

/-- The first line, and what comes after it. -/
theorem takeLine_eq {b : Bytes} {n : Nat} (h : Core.lineEnd? b = some n) :
    ∃ x y, b.data.toList = x ++ 10 :: y ∧ 10 ∉ x ∧ ((b.extract 0 (n + 1)).extract 0 n).data.toList = x ∧
      (b.extract (n + 1) b.size).data.toList = y := by
  obtain ⟨x, y, hxy, hlength, hx⟩ := lineEnd?_eq_some h
  refine ⟨x, y, hxy, hx, ?_, ?_⟩
  · rw [Bytes.toList_extract, Bytes.toList_extract, hxy, ← hlength]
    simp [List.take_take]
  · rw [Bytes.toList_extract, Bytes.size_eq, hxy, ← hlength, List.append_cons, List.drop_left' (by simp)]
    exact List.take_of_length_le (by simp; omega)

/-- A line without one carriage return at its end. -/
def chomp (line : List UInt8) : List UInt8 := if line.getLast? = some 13 then line.dropLast else line

theorem toList_withoutReturn (b : Bytes) : (Core.withoutReturn b).data.toList = chomp b.data.toList := by
  have hlast : (decide (b.size ≠ 0) && b.get! (b.size - 1) == 13) = true ↔ b.data.toList.getLast? = some 13 := by
    rw [List.getLast?_eq_getElem?, ← b.size_eq, Bool.and_eq_true, decide_eq_true_eq, beq_iff_eq]
    by_cases hsize : b.size = 0
    · rw [List.getElem?_eq_none (by rw [← b.size_eq]; omega)]
      exact ⟨fun h => absurd hsize h.1, nofun⟩
    · have hlt : b.size - 1 < b.data.size := Nat.sub_lt (Nat.pos_of_ne_zero hsize) Nat.one_pos
      rw [Array.getElem?_toList, Array.getElem?_eq_getElem hlt, Option.some_inj]
      exact ⟨fun h => (getElem!_pos b.data _ hlt).symm.trans h.2, fun h => ⟨hsize, (getElem!_pos b.data _ hlt).trans h⟩⟩
  rw [Core.withoutReturn, chomp]
  by_cases hreturn : b.data.toList.getLast? = some 13
  · rw [if_pos (hlast.mpr hreturn), if_pos hreturn, Bytes.toList_extract, List.drop_zero, Nat.sub_zero, b.size_eq,
      List.dropLast_eq_take]
  · rw [if_neg fun h => hreturn (hlast.mp h), if_neg hreturn]

/-! ### One look -/

/-- What one look at the input finds. -/
inductive Look where
  /-- A line, or nothing at the end. -/
  | found (v : Value)
  /-- More bytes. -/
  | again
  /-- Nothing yet. -/
  | later
  | failed (f : Fault)

namespace Access

/-- Take the first bytes of what was read. -/
def takeFirst (a : Access) (n : Nat) : Access :=
  { a with own := { a.own with pending := a.own.pending.extract n a.own.pending.size } }

/-- Add bytes to what was read. -/
def keep (a : Access) (b : Bytes) : Access := { a with own := { a.own with pending := a.own.pending.append b } }

/-- A session with a terminal takes what is in the input of that. -/
theorem read_terminal {a : Access} {t : Nat} (hinput : a.own.input = .terminal) (hterminal : a.own.resources.terminal = some t)
    (n : Nat) : a.read n = (((a.host.terminal t).input.read n).1,
      { a with host := a.host.onTerminal t fun x => { x with input := ((a.host.terminal t).input.read n).2 } }) := by
  rw [read, hinput, hterminal]
  rfl

/-- One look. -/
def look (a : Access) : Look × Access :=
  if a.isTerminated then (.failed .signal, a)
  else
    match Core.lineEnd? a.own.pending with
    | some n => (.found (.str (Core.withoutReturn ((a.own.pending.extract 0 (n + 1)).extract 0 n))), a.takeFirst (n + 1))
    | none =>
      if Core.maxLine ≤ a.own.pending.size then
        (.found (.str (a.own.pending.extract 0 a.own.pending.size)), a.takeFirst a.own.pending.size)
      else
        match a.read Core.fillSize with
        | (.ok b, a') =>
          if b.size = 0 then
            if a.own.pending.size = 0 then (.found .nil, a')
            else (.found (.str (a'.own.pending.extract 0 a.own.pending.size)), a'.takeFirst a.own.pending.size)
          else (.again, a'.keep b)
        | (.error e, a') =>
          if e.kind = .wouldBlock ∨ e.kind = .interrupted then (.later, a') else (.failed (.io e), a')

end Access

section Steps

variable {σ α β : Type} {x : Act σ α} {f : α → Act σ β} {h h' : Heap} {s s' : σ}

theorem Act.bind_of_done {v : α} (hx : x h s = .done v h' s') : (x >>= f) h s = f v h' s' := by
  show (x h s).andThen f = _
  rw [hx]
  rfl

theorem Act.bind_of_raised {r : Raise} (hx : x h s = .raised r h' s') : (x >>= f) h s = .raised r h' s' := by
  show (x h s).andThen f = _
  rw [hx]
  rfl

end Steps

/-- What reading more comes to. -/
theorem fill_eq (h : Heap) (a : Access) :
    Core.fill h a = match a.read Core.fillSize with
      | (.ok b, a) => if b.size = 0 then .done .ended h a else .done .data h (a.keep b)
      | (.error e, a) =>
        if e.kind = .wouldBlock ∨ e.kind = .interrupted then .done .nothingYet h a else .raised (.host (.io e)) h a := by
  rw [Core.fill]
  rcases hread : a.read Core.fillSize with ⟨e | b, a'⟩
  · have hfirst : Act.withHost (·.read Core.fillSize) h a = .done (.error e) h a' := by rw [Act.withHost, hread]
    rw [Act.bind_of_done hfirst]
    obtain ⟨kind, message⟩ := e
    cases kind <;> rfl
  · have hfirst : Act.withHost (·.read Core.fillSize) h a = .done (.ok b) h a' := by rw [Act.withHost, hread]
    rw [Act.bind_of_done hfirst]
    simp only
    by_cases hempty : b.size = 0
    · rw [if_pos hempty, if_pos hempty]
      rfl
    · rw [if_neg hempty, if_neg hempty]
      rfl

/-- What follows when more is read. -/
theorem bind_fill (f : Core.Filled → Core.Doing Value) (h : Heap) (a : Access) :
    (Core.fill >>= f) h a = match a.read Core.fillSize with
      | (.ok b, a) => if b.size = 0 then f .ended h a else f .data h (a.keep b)
      | (.error e, a) =>
        if e.kind = .wouldBlock ∨ e.kind = .interrupted then f .nothingYet h a else .raised (.host (.io e)) h a := by
  have hfill := fill_eq h a
  generalize a.read Core.fillSize = answer at hfill ⊢
  rcases answer with ⟨e | b, a'⟩
  · simp only at hfill ⊢
    split at hfill
    · rw [if_pos ‹_›, Act.bind_of_done hfill]
    · rw [if_neg ‹_›, Act.bind_of_raised hfill]
  · simp only at hfill ⊢
    split at hfill
    · rw [if_pos ‹_›, Act.bind_of_done hfill]
    · rw [if_neg ‹_›, Act.bind_of_done hfill]

/-- **Reading a line** is a look, and then what it calls for. -/
theorem readLine_succ (fuel : Nat) (h : Heap) (a : Access) :
    Core.readLine (fuel + 1) h a = match a.look with
      | (.found v, a) => .done v h a
      | (.again, a) => Core.readLine fuel h a
      | (.later, a) => .wait a.own.poll (fun _ h a => Core.readLine fuel h a) h a
      | (.failed f, a) => .raised (.host f) h a := by
  rw [Core.readLine, Access.look]
  by_cases hterm : a.isTerminated = true
  · have hsignal : Core.checkSignal h a = .raised (.host .signal) h a := if_pos hterm
    rw [if_pos hterm, Act.bind_of_raised hsignal]
  have hsignal : Core.checkSignal h a = .done () h a := if_neg hterm
  have hpending : Act.readHost (fun a : Access => a.own.pending) h a = .done a.own.pending h a := rfl
  rw [if_neg hterm, Act.bind_of_done hsignal, Act.bind_of_done hpending]
  cases hline : Core.lineEnd? a.own.pending with
  | some n => rfl
  | none =>
    simp only
    by_cases hlong : Core.maxLine ≤ a.own.pending.size
    · rw [if_pos hlong, if_pos hlong]
      rfl
    rw [if_neg hlong, if_neg hlong, bind_fill]
    rcases a.read Core.fillSize with ⟨e | b, a'⟩
    · simp only
      split <;> rfl
    · simp only
      by_cases hempty : b.size = 0
      · rw [if_pos hempty, if_pos hempty]
        split <;> rfl
      · rw [if_neg hempty, if_neg hempty]

end ScriptHost

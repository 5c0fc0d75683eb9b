import ScriptHost.Proofs.Binding.Conserving

/-!
# The source of a program

The source of a program comes in pieces: bytes that are cut anywhere, times in which nothing comes, and failures; and the
end may be requested at any time.  What the source is depends on all its bytes together and not on how they come.

* `Continues`, `bytesOf`, `arrived` — the results with which reading goes on, and the bytes that results give;
* **`collect_more`**, `collect_ended`, `collect_failed` — what one attempt adds to what was read;
* `Reader.attempts_cons`, **`Reader.attempts_read_lt`** — as many attempts as are allowed are enough;
* `Reader.failure?`, `Reader.read_passes` — the first failure that is not passed over, and what one attempt makes of it;
* `Arrives`, `Arrives.quiet` — attempts that were made one after the other, and what they leave if the end is not requested;
* **`Arrives.readSourceFrom_eq`** — reading a source is these attempts, and then the rest;
* **`Reader.readsIn`** — what reading a source comes to.
-/

namespace ScriptHost

/-! ### One attempt -/

/-- Reading goes on after an attempt with this result: there were bytes, or nothing has come yet. -/
def Continues : Except IoError Bytes → Prop
  | .ok b => b.size ≠ 0
  | .error e => e.kind = .wouldBlock ∨ e.kind = .interrupted

/-- The bytes that an attempt gave. -/
def bytesOf : Except IoError Bytes → List UInt8
  | .ok b => b.data.toList
  | .error _ => []

/-- The bytes that attempts gave, one after the other. -/
def arrived (got : List (Except IoError Bytes)) : List UInt8 := got.flatMap bytesOf

theorem arrived_concat (got : List (Except IoError Bytes)) (result : Except IoError Bytes) :
    arrived (got ++ [result]) = arrived got ++ bytesOf result := by
  rw [arrived, List.flatMap_append, List.flatMap_singleton]
  rfl

theorem Yields.bytesOf_append {n : Nat} {before after : List UInt8} {result : Except IoError Bytes}
    (h : Yields n before after result) : bytesOf result ++ after = before := by
  cases result with
  | ok b => exact h.2.1
  | error e => exact h

/-- What an attempt may come to: reading goes on, it has come to its end, or it has failed. -/
theorem continues_or (result : Except IoError Bytes) :
    Continues result ∨ result = .ok ByteArray.empty ∨ ∃ e, result = .error e ∧ ¬ Continues (.error e) := by
  by_cases hmore : Continues result
  · exact .inl hmore
  cases result with
  | ok b =>
    have hempty : b.size = 0 := Decidable.not_not.mp hmore
    exact .inr (.inl (congrArg _ (ByteArray.size_eq_zero_iff.mp hempty)))
  | error e => exact .inr (.inr ⟨e, rfl, hmore⟩)

/-- **An attempt after which reading goes on** adds its bytes to what was read. -/
theorem collect_more {result : Except IoError Bytes} (h : Continues result) (read : Bytes) : ∃ (read' : Bytes) (wait : Bool),
    collect read result = .more read' wait ∧ read'.data.toList = read.data.toList ++ bytesOf result := by
  cases result with
  | ok b => exact ⟨read.append b, false, if_neg h, Bytes.toList_append read b⟩
  | error e =>
    have hsame : read.data.toList = read.data.toList ++ bytesOf (.error e) := (List.append_nil _).symm
    rw [collect]
    rcases h with hkind | hkind
    · exact ⟨read, true, by simp only [hkind], hsame⟩
    · exact ⟨read, false, by simp only [hkind], hsame⟩

theorem collect_ended (read : Bytes) : collect read (.ok ByteArray.empty) = .finished (Utf8.decodeLossy read) := rfl

theorem collect_failed {e : IoError} (h : ¬ Continues (.error e)) (read : Bytes) :
    collect read (.error e) = .failed (.io e) := by
  rw [collect]
  split
  · exact absurd (Or.inl ‹_›) h
  · exact absurd (Or.inr ‹_›) h
  · rfl

namespace Reader

/-! ### How many attempts it takes -/

/-- How many attempts a piece may take. -/
def cost : Piece → Nat
  | .data b => b.size / sourceChunk + 1
  | _ => 1

theorem attempts_eq (r : Reader) : attempts r = r.foldl (fun n p => n + cost p) 1 := by
  refine congrArg (fun f => r.foldl f 1) ?_
  funext n p
  cases p <;> rfl

theorem attempts_cons (p : Piece) (r : Reader) : attempts (p :: r) = attempts r + cost p := by
  -- the sum starts from one, so it is generalised over where it starts
  have hfold : ∀ (r : Reader) (n k : Nat),
      r.foldl (fun n p => n + cost p) (n + k) = r.foldl (fun n p => n + cost p) n + k := by
    intro r
    induction r with
    | nil => exact fun _ _ => rfl
    | cons p r ih =>
      intro n k
      rw [List.foldl_cons, List.foldl_cons, Nat.add_right_comm, ih]
  rw [attempts_eq, attempts_eq, List.foldl_cons, hfold]

theorem attempts_pos (r : Reader) : 0 < r.attempts := by
  induction r with
  | nil => exact Nat.one_pos
  | cons p r ih =>
    rw [attempts_cons]
    exact Nat.lt_of_lt_of_le ih (Nat.le_add_right _ _)

/-- **An attempt after which reading goes on** leaves less to be attempted. -/
theorem attempts_read_lt {r : Reader} (h : Continues (r.read sourceChunk).result) :
    (r.read sourceChunk).rest.attempts < r.attempts := by
  induction r with
  | nil => exact absurd rfl h
  | cons p rest ih =>
    cases p with
    | failure e =>
      rw [attempts_cons]
      exact Nat.lt_succ_self _
    | request =>
      rw [attempts_cons]
      exact Nat.lt_succ_of_lt (ih h)
    | data b =>
      rw [read] at h ⊢
      by_cases hempty : b.size = 0
      · rw [if_pos hempty] at h ⊢
        rw [attempts_cons]
        exact Nat.lt_of_lt_of_le (ih h) (Nat.le_add_right _ _)
      · rw [if_neg hempty]
        by_cases hfits : b.size ≤ sourceChunk
        · rw [if_pos hfits, attempts_cons]
          exact Nat.lt_add_of_pos_right (Nat.succ_pos _)
        · have hchunk : sourceChunk = 4096 := rfl
          rw [if_neg hfits, attempts_cons, attempts_cons]
          simp only [cost, ByteArray.size_extract, hchunk] at hfits ⊢
          omega

/-! ### Failures -/

/-- The first failure with which reading does not go on. -/
def failure? : Reader → Option IoError
  | [] => none
  | .failure e :: rest => if e.kind = .wouldBlock ∨ e.kind = .interrupted then failure? rest else some e
  | .data _ :: rest => failure? rest
  | .request :: rest => failure? rest

/-- What an attempt makes of the first failure with which reading does not go on: it leaves it, comes to the end because
there is none and nothing is left, or meets it. -/
theorem read_passes (r : Reader) (n : Nat) :
    (Continues (r.read n).result → (r.read n).rest.failure? = r.failure?) ∧
      (∀ e, (r.read n).result = .error e → ¬ Continues (r.read n).result → r.failure? = some e) ∧
      ((r.read n).result = .ok ByteArray.empty → 0 < n → r.failure? = none ∧ (r.read n).rest = []) := by
  induction r with
  | nil => exact ⟨fun h => absurd rfl h, fun e h => (by cases h), fun _ _ => ⟨rfl, rfl⟩⟩
  | cons p rest ih =>
    cases p with
    | request => exact ih
    | failure e =>
      refine ⟨fun h => ?_, fun e' he hhard => ?_, fun h => by cases h⟩
      · exact (if_pos h).symm
      · cases he
        exact if_neg hhard
    | data b =>
      rw [read, failure?]
      by_cases hempty : b.size = 0
      · rw [if_pos hempty]
        exact ih
      rw [if_neg hempty]
      by_cases hfits : b.size ≤ n
      · rw [if_pos hfits]
        refine ⟨fun _ => rfl, fun e h => (by cases h), fun h _ => ?_⟩
        rw [Except.ok.inj h] at hempty
        exact absurd rfl hempty
      · rw [if_neg hfits]
        refine ⟨fun _ => rfl, fun e h => (by cases h), fun h hn => ?_⟩
        have hsize := congrArg ByteArray.size (Except.ok.inj h)
        have hnone : ByteArray.empty.size = 0 := rfl
        rw [ByteArray.size_extract] at hsize
        omega

/-- An attempt comes to the end only where no bytes are to come. -/
theorem bytes_eq_nil {r : Reader} {n : Nat} (hn : 0 < n) (h : (r.read n).result = .ok ByteArray.empty) : r.bytes = [] := by
  have hyields := r.read_yields hn
  rw [h] at hyields
  exact hyields.2.2 rfl

/-- Where the end is not requested, no attempt finds that it was. -/
theorem read_quiet {r : Reader} (h : Piece.request ∉ r) (n : Nat) :
    (r.read n).requested = false ∧ Piece.request ∉ (r.read n).rest := by
  induction r with
  | nil => exact ⟨rfl, h⟩
  | cons p rest ih =>
    have hrest : Piece.request ∉ rest := fun hmem => h (List.mem_cons_of_mem p hmem)
    cases p with
    | request => exact absurd List.mem_cons_self h
    | failure e => exact ⟨rfl, hrest⟩
    | data b =>
      rw [read]
      by_cases hempty : b.size = 0
      · rw [if_pos hempty]
        exact ih hrest
      rw [if_neg hempty]
      by_cases hfits : b.size ≤ n
      · rw [if_pos hfits]
        exact ⟨rfl, hrest⟩
      · rw [if_neg hfits]
        exact ⟨rfl, fun hmem => (List.mem_cons.mp hmem).elim (fun h => by cases h) hrest⟩

end Reader

/-! ### All attempts -/

/-- Attempts that were made one after the other, with their results: what is left of the reader then, and whether the end
was requested.  No attempt is made after it was, or after a result with which reading does not go on. -/
inductive Arrives (r : Reader) (requested : Bool) : List (Except IoError Bytes) → Reader → Bool → Prop
  | start : Arrives r requested [] r requested
  | attempt {got : List (Except IoError Bytes)} {rest : Reader} (h : Arrives r requested got rest false)
      (hmore : Continues (rest.read sourceChunk).result) :
      Arrives r requested (got ++ [(rest.read sourceChunk).result]) (rest.read sourceChunk).rest
        (rest.read sourceChunk).requested

namespace Arrives

variable {r rest : Reader} {requested flag : Bool} {got : List (Except IoError Bytes)}

/-- Attempts go on until the end is requested or reading does not go on. -/
theorem exists_last (h : Arrives r requested got rest flag) : ∃ got rest flag,
    Arrives r requested got rest flag ∧ (flag = true ∨ flag = false ∧ ¬ Continues (rest.read sourceChunk).result) := by
  generalize hsize : rest.attempts = size
  induction size using Nat.strongRecOn generalizing got rest flag with
  | ind size ih =>
    cases flag with
    | true => exact ⟨got, rest, true, h, .inl rfl⟩
    | false =>
      by_cases hmore : Continues (rest.read sourceChunk).result
      · exact ih _ (hsize ▸ Reader.attempts_read_lt hmore) (h.attempt hmore) rfl
      · exact ⟨got, rest, false, h, .inr ⟨rfl, hmore⟩⟩

/-- Where the end is not requested, nothing of the bytes is lost and no failure with which reading does not go on. -/
theorem quiet (h : Arrives r false got rest flag) (hr : Piece.request ∉ r) :
    flag = false ∧ Piece.request ∉ rest ∧ arrived got ++ rest.bytes = r.bytes ∧ rest.failure? = r.failure? := by
  induction h with
  | start => exact ⟨rfl, hr, rfl, rfl⟩
  | @attempt got rest _ hmore ih =>
    obtain ⟨-, hrest, hbytes, hfailure⟩ := ih
    obtain ⟨hflag, hquiet⟩ := Reader.read_quiet hrest sourceChunk
    refine ⟨hflag, hquiet, ?_, ((rest.read_passes sourceChunk).1 hmore).trans hfailure⟩
    have hyields := rest.read_yields (show 0 < sourceChunk by decide)
    rw [arrived_concat, List.append_assoc, hyields.bytesOf_append, hbytes]

/-- Reading a source is the attempts that were made, and then the rest. -/
theorem readSourceFrom_eq (h : Arrives r requested got rest flag) {fuel : Nat} (hfuel : r.attempts ≤ fuel) (read : Bytes) :
    ∃ (fuel' : Nat) (read' : Bytes), rest.attempts ≤ fuel' + 1 ∧ read'.data.toList = read.data.toList ++ arrived got ∧
      readSourceFrom fuel r requested read = readSourceFrom (fuel' + 1) rest flag read' := by
  induction h with
  | start =>
    obtain ⟨fuel, rfl⟩ := Nat.exists_eq_succ_of_ne_zero (Nat.ne_of_gt (Nat.lt_of_lt_of_le r.attempts_pos hfuel))
    exact ⟨fuel, read, hfuel, (List.append_nil _).symm, rfl⟩
  | @attempt got rest _ hmore ih =>
    obtain ⟨fuel, read', hfuel, hread, heq⟩ := ih
    have hless := Reader.attempts_read_lt hmore
    have hpos := (rest.read sourceChunk).rest.attempts_pos
    obtain ⟨read'', wait, hcollect, hread'⟩ := collect_more hmore read'
    -- the attempt that was made left at least one more to be made, so the fuel is not at its end
    obtain ⟨fuel, rfl⟩ := Nat.exists_eq_succ_of_ne_zero (show fuel ≠ 0 by omega)
    refine ⟨fuel, read'', by omega, by rw [hread', hread, List.append_assoc, arrived_concat], ?_⟩
    rw [heq, readSourceFrom, if_neg (by decide)]
    simp only [hcollect]

end Arrives

/-! ### The whole source -/

namespace Reader

/-- What the source is if the end is not requested: all the bytes as a text, or the first failure with which reading does
not go on. -/
def source (r : Reader) : Except SourceError String :=
  match r.failure? with
  | some e => .error (.io e)
  | none => .ok (Utf8.decodeLossy r.bytes.toByteArray)

theorem source_eq_error {r : Reader} {e : IoError} (h : r.failure? = some e) : r.source = .error (.io e) := by
  rw [source, h]

theorem source_eq_ok {r : Reader} (h : r.failure? = none) : r.source = .ok (Utf8.decodeLossy r.bytes.toByteArray) := by
  rw [source, h]

/-- What reading a source comes to. -/
structure ReadsIn (r : Reader) (requested : Bool) : Prop where
  /-- If the end is requested before an attempt, neither this nor any other is made. -/
  interrupted : ∀ got rest, Arrives r requested got rest true → readSource r requested = (.error .interrupted, rest)
  /-- At the end of the stream the source is all the bytes that have arrived, as a text. -/
  ended : ∀ got rest, Arrives r requested got rest false → (rest.read sourceChunk).result = .ok ByteArray.empty →
    readSource r requested = (.ok (Utf8.decodeLossy (arrived got).toByteArray), (rest.read sourceChunk).rest)
  /-- A failure other than that nothing has come yet ends the reading. -/
  failed : ∀ got rest e, Arrives r requested got rest false → (rest.read sourceChunk).result = .error e →
    ¬ Continues (.error e) → readSource r requested = (.error (.io e), (rest.read sourceChunk).rest)
  /-- One of these it comes to. -/
  decided : ∃ got rest flag,
    Arrives r requested got rest flag ∧ (flag = true ∨ flag = false ∧ ¬ Continues (rest.read sourceChunk).result)
  /-- If the end is not requested, it does not matter how the bytes come. -/
  quiet : requested = false → Piece.request ∉ r → (readSource r requested).1 = r.source
  text : ∀ t : String, r.failure? = none → r.bytes = Utf8.encoded t.toList → r.source = .ok t

variable {r rest : Reader} {requested flag : Bool} {got : List (Except IoError Bytes)}

/-- After some attempts, what was read is what has arrived. -/
theorem readSource_eq (h : Arrives r requested got rest flag) :
    ∃ fuel, readSource r requested = readSourceFrom (fuel + 1) rest flag (arrived got).toByteArray := by
  obtain ⟨fuel, read, -, hread, heq⟩ := h.readSourceFrom_eq (Nat.le_refl _) ByteArray.empty
  have hbytes : read = (arrived got).toByteArray := Bytes.eq_toByteArray hread
  exact ⟨fuel, by rw [readSource, heq, hbytes]⟩

theorem readSource_of_requested (h : Arrives r requested got rest true) :
    readSource r requested = (.error .interrupted, rest) := by
  obtain ⟨fuel, heq⟩ := readSource_eq h
  rw [heq, readSourceFrom, if_pos rfl]

theorem readSource_of_ended (h : Arrives r requested got rest false)
    (hended : (rest.read sourceChunk).result = .ok ByteArray.empty) :
    readSource r requested = (.ok (Utf8.decodeLossy (arrived got).toByteArray), (rest.read sourceChunk).rest) := by
  obtain ⟨fuel, heq⟩ := readSource_eq h
  simp only [heq, readSourceFrom, Bool.false_eq_true, if_false, hended, collect_ended]

theorem readSource_of_failed {e : IoError} (h : Arrives r requested got rest false)
    (hfailed : (rest.read sourceChunk).result = .error e) (hhard : ¬ Continues (.error e)) :
    readSource r requested = (.error (.io e), (rest.read sourceChunk).rest) := by
  obtain ⟨fuel, heq⟩ := readSource_eq h
  simp only [heq, readSourceFrom, Bool.false_eq_true, if_false, hfailed, collect_failed hhard]

/-- A source that is not requested to end is read to its end. -/
theorem readSource_quiet (hr : Piece.request ∉ r) : (readSource r false).1 = r.source := by
  obtain ⟨got, rest, flag, harrives, hlast⟩ := (Arrives.start : Arrives r false [] r false).exists_last
  obtain ⟨hflag, -, hbytes, hfailure⟩ := harrives.quiet hr
  obtain ⟨-, hmeets, hends⟩ := rest.read_passes sourceChunk
  subst hflag
  have hstops : ¬ Continues (rest.read sourceChunk).result := (hlast.resolve_left nofun).2
  rcases (continues_or (rest.read sourceChunk).result).resolve_left hstops with hresult | ⟨e, hresult, hhard⟩
  · have hnone : rest.bytes = [] := bytes_eq_nil (by decide) hresult
    rw [readSource_of_ended harrives hresult, source_eq_ok (hfailure ▸ (hends hresult (by decide)).1), ← hbytes, hnone,
      List.append_nil]
  · rw [readSource_of_failed harrives hresult hhard, source_eq_error (hfailure ▸ hmeets e hresult hstops)]

/-- **Reading a source.**  However its bytes are cut and wherever nothing comes for a while, the source is what all the bytes
are together, up to the end of the stream, or the first failure; and no attempt is made once the end is requested. -/
theorem readsIn (r : Reader) (requested : Bool) : r.ReadsIn requested where
  interrupted _ _ := readSource_of_requested
  ended _ _ := readSource_of_ended
  failed _ _ _ := readSource_of_failed
  decided := Arrives.start.exists_last
  quiet hrequested hr := by
    subst hrequested
    exact readSource_quiet hr
  text t hfailure hbytes := by
    rw [source_eq_ok hfailure, hbytes, Utf8.decodeLossy_encoded, String.ofList_toList]

end Reader

end ScriptHost

import ScriptHost.Proofs.Binding.Looking

/-!
# The lines of a stream

A script reads its input line by line while the bytes come in pieces of any size, with pauses anywhere.  Its reads give the
lines of all the bytes together, wherever these were cut.

* `linesOf` — the lines of some bytes, and **`linesOf_line`**, how they follow from the first line feed;
* `Reader.bytes`, `Reader.read_patient` — what is still to come from a stream, and what one attempt gets of it;
* `Access.Streams`, **`Access.Streams.look`** — what one look at a stream finds;
* `Ends`, `MayEnd` — a computation that waits comes to something, whatever happens meanwhile to others;
* `ReadsLines` — lines are read one after the other;
* **`lines_of_reads`** — the reads give the lines, and then nothing for ever.
-/

namespace ScriptHost

open Script

/-! ### The lines of some bytes -/

/-- The lines of some bytes: what stands before each line feed, without one carriage return at its end, and then what comes
after the last line feed, as it is, if there is anything. -/
def linesOf (bs : List UInt8) : List (List UInt8) :=
  (bs.splitOn 10).dropLast.map chomp ++ ((bs.splitOn 10).getLast?.filter fun rest => !rest.isEmpty).toList

theorem splitOn_rest {bs : List UInt8} (h : 10 ∉ bs) : bs.splitOn 10 = [bs] := by
  rw [List.splitOn]
  exact List.splitOnP_eq_singleton fun b hb => beq_eq_false_iff_ne.mpr fun heq => h (heq ▸ hb)

theorem splitOn_line {x : List UInt8} (h : 10 ∉ x) (y : List UInt8) : (x ++ 10 :: y).splitOn 10 = x :: y.splitOn 10 := by
  have hnone : ∀ b ∈ x, (b == 10) = false := fun b hb => beq_eq_false_iff_ne.mpr fun heq => h (heq ▸ hb)
  rw [List.splitOn]
  exact List.splitOnP_append_cons_of_forall_mem hnone 10 (beq_self_eq_true _) y

theorem linesOf_rest {bs : List UInt8} (h : 10 ∉ bs) : linesOf bs = if bs = [] then [] else [bs] := by
  rw [linesOf, splitOn_rest h]
  cases bs <;> rfl

/-- **The lines of some bytes** are the first one and those of the bytes after it. -/
theorem linesOf_line {x : List UInt8} (h : 10 ∉ x) (y : List UInt8) : linesOf (x ++ 10 :: y) = chomp x :: linesOf y := by
  have hne : y.splitOn 10 ≠ [] := List.splitOnP_ne_nil _ y
  rw [linesOf, splitOn_line h, List.dropLast_cons_of_ne_nil hne, List.getLast?_cons_of_ne_nil hne]
  rfl

/-- What a read has to give: the line with its number, or nothing after the last. -/
def lineAnswer (bs : List UInt8) (n : Nat) : Value := ((linesOf bs)[n]?).elim .nil fun l => .str ⟨l.toArray⟩

theorem lineAnswer_rest {bs : List UInt8} (h : 10 ∉ bs) (hne : bs ≠ []) : lineAnswer bs 0 = .str ⟨bs.toArray⟩ := by
  rw [lineAnswer, linesOf_rest h, if_neg hne]
  rfl

theorem lineAnswer_line {x : List UInt8} (h : 10 ∉ x) (y : List UInt8) :
    lineAnswer (x ++ 10 :: y) 0 = .str ⟨(chomp x).toArray⟩ := by
  rw [lineAnswer, linesOf_line h]
  rfl

/-- A beginning without a line feed is no longer than the first line. -/
theorem length_beginning {x y : List UInt8} (hx : 10 ∉ x) {k : Nat} (h : ∀ line ∈ (x ++ y).splitOn 10, line.length < k) :
    x.length < k := by
  obtain ⟨z, hz⟩ : ∃ z, x ++ z ∈ (x ++ y).splitOn 10 := by
    by_cases hy : 10 ∈ y
    · obtain ⟨z, rest, rfl, hz⟩ := List.eq_append_cons_of_mem hy
      have hnone : 10 ∉ x ++ z := fun hmem => (List.mem_append.mp hmem).elim hx hz
      refine ⟨z, ?_⟩
      rw [← List.append_assoc, splitOn_line hnone]
      exact List.mem_cons_self
    · have hnone : 10 ∉ x ++ y := fun hmem => (List.mem_append.mp hmem).elim hx hy
      refine ⟨y, ?_⟩
      rw [splitOn_rest hnone]
      exact List.mem_cons_self
  have hlength := h _ hz
  rw [List.length_append] at hlength
  omega

/-! ### What is still to come from a stream -/

namespace Reader

/-- The bytes that are still to come. -/
def bytes : Reader → List UInt8
  | [] => []
  | .data b :: rest => b.data.toList ++ bytes rest
  | .failure _ :: rest => bytes rest
  | .request :: rest => bytes rest

/-- Attempts to read may find that nothing has come yet or that they were interrupted, and do not fail otherwise. -/
def Patient (r : Reader) : Prop :=
  ∀ p ∈ r, (∃ b, p = .data b) ∨ ∃ e, p = .failure e ∧ (e.kind = .wouldBlock ∨ e.kind = .interrupted)

/-- How many attempts to read it may take until there is nothing more to come. -/
def weight : Reader → Nat
  | [] => 0
  | .data b :: rest => b.size + 1 + weight rest
  | .failure _ :: rest => 1 + weight rest
  | .request :: rest => 1 + weight rest

/-- What an attempt to read gets of a stream. -/
inductive Gets (r : Reader) : Attempt → Prop
  | ended (hbytes : r.bytes = []) : Gets r ⟨.ok ByteArray.empty, [], false⟩
  | some {b : Bytes} {rest : Reader} (hsome : 0 < b.size) (hbytes : b.data.toList ++ rest.bytes = r.bytes)
      (hpatient : rest.Patient) (hless : rest.weight < r.weight) : Gets r ⟨.ok b, rest, false⟩
  | nothing {e : IoError} {rest : Reader} (hkind : e.kind = .wouldBlock ∨ e.kind = .interrupted) (hbytes : rest.bytes = r.bytes)
      (hpatient : rest.Patient) (hless : rest.weight < r.weight) : Gets r ⟨.error e, rest, false⟩

/-- **One attempt** gets bytes of a patient stream, or none if nothing more is to come or nothing has come yet. -/
theorem read_patient {r : Reader} (h : r.Patient) {n : Nat} (hn : 0 < n) : Gets r (r.read n) := by
  induction r with
  | nil => exact .ended rfl
  | cons p rest ih =>
    obtain ⟨hfirst, hrest⟩ := List.forall_mem_cons.mp h
    rcases hfirst with ⟨b, rfl⟩ | ⟨e, rfl, hkind⟩
    · rw [read]
      by_cases hempty : b.size = 0
      · have hnone : b.data.toList = [] := Bytes.toList_eq_nil hempty
        have hbytes : bytes (.data b :: rest) = bytes rest := by rw [bytes, hnone, List.nil_append]
        have hless : weight rest < weight (.data b :: rest) := by rw [weight]; omega
        have hgets := ih hrest
        rw [if_pos hempty]
        generalize read rest n = attempt at hgets ⊢
        cases hgets with
        | ended h => exact .ended (hbytes.trans h)
        | some hsome h hpatient hless' => exact .some hsome (h.trans hbytes.symm) hpatient (Nat.lt_trans hless' hless)
        | nothing hkind h hpatient hless' => exact .nothing hkind (h.trans hbytes.symm) hpatient (Nat.lt_trans hless' hless)
      · rw [if_neg hempty]
        by_cases hfits : b.size ≤ n
        · rw [if_pos hfits]
          exact .some (Nat.pos_of_ne_zero hempty) rfl hrest (by rw [weight]; omega)
        · rw [if_neg hfits]
          refine .some ?_ ?_ ?_ ?_
          · rw [ByteArray.size_extract]
            omega
          · rw [bytes, bytes, ← List.append_assoc, Bytes.toList_split]
          · exact List.forall_mem_cons.mpr ⟨.inl ⟨_, rfl⟩, hrest⟩
          · rw [weight, weight, ByteArray.size_extract]
            omega
    · rw [read]
      exact .nothing hkind rfl hrest (by rw [weight]; omega)

end Reader

/-! ### One look at a stream -/

namespace Access

/-- A session reads a stream, of which some bytes are still to be read as lines, none of them too long; it will be asked so
often at most. -/
structure Streams (bs : List UInt8) (w : Nat) (a : Access) : Prop where
  notTerminated : a.isTerminated = false
  stream : ∃ r, a.own.input = .pieces r ∧ Reader.Patient r ∧ a.own.pending.data.toList ++ Reader.bytes r = bs ∧
    Reader.weight r ≤ w
  short : ∀ line ∈ bs.splitOn 10, line.length < Core.maxLine

/-- The session reads nothing meanwhile, and its termination is not requested. -/
structure Apart (a a' : Access) : Prop where
  input : a'.own.input = a.own.input
  pending : a'.own.pending = a.own.pending
  notTerminated : a'.isTerminated = false

theorem Apart.streams {a a' : Access} (h : a.Apart a') {bs : List UInt8} {w : Nat} (hstreams : a.Streams bs w) :
    a'.Streams bs w where
  notTerminated := h.notTerminated
  stream := by
    rw [h.input, h.pending]
    exact hstreams.stream
  short := hstreams.short

namespace Streams

variable {bs : List UInt8} {w : Nat} {a : Access}

theorem mono (h : a.Streams bs w) {w' : Nat} (hle : w ≤ w') : a.Streams bs w' := by
  obtain ⟨r, hinput, hpatient, hbytes, hweight⟩ := h.stream
  exact ⟨h.notTerminated, ⟨r, hinput, hpatient, hbytes, Nat.le_trans hweight hle⟩, h.short⟩

/-- What an attempt to read gets of a stream, as the session has it. -/
theorem read_pieces {r : Reader} (hinput : a.own.input = .pieces r) {attempt : Attempt} (hread : r.read Core.fillSize = attempt)
    (hquiet : attempt.requested = false) :
    a.read Core.fillSize = (attempt.result, { a with own := { a.own with input := .pieces attempt.rest } }) := by
  simp only [Access.read, hinput, hread, hquiet, Bool.false_eq_true, if_false]

/-- A stream that has ended, and of which everything was taken. -/
theorem ended (hnotTerminated : a.isTerminated = false) (hinput : a.own.input = .pieces [])
    (hpending : a.own.pending.data.toList = []) : a.Streams [] w where
  notTerminated := hnotTerminated
  stream := ⟨[], hinput, fun _ hp => absurd hp List.not_mem_nil, by rw [hpending]; rfl, Nat.zero_le w⟩
  short := by
    rw [splitOn_rest List.not_mem_nil]
    intro line hmem
    rw [List.mem_singleton.mp hmem]
    decide

/-- What was read and has no line feed in it leaves room for more. -/
theorem pending_lt (h : a.Streams bs w) (hline : Core.lineEnd? a.own.pending = none) : a.own.pending.size < Core.maxLine := by
  obtain ⟨r, -, -, hbytes, -⟩ := h.stream
  rw [Bytes.size_eq]
  exact length_beginning (lineEnd?_eq_none hline) (hbytes.symm ▸ h.short)

/-- A look takes the first line when all of it was read. -/
theorem look_line (h : a.Streams bs w) {n : Nat} (hline : Core.lineEnd? a.own.pending = some n) :
    ∃ v a', a.look = (.found v, a') ∧ v = lineAnswer bs 0 ∧ ∃ bs', linesOf bs' = (linesOf bs).tail ∧ a'.Streams bs' w := by
  obtain ⟨r, hinput, hpatient, hbytes, hweight⟩ := h.stream
  obtain ⟨x, y, hxy, hx, hfirst, hafter⟩ := takeLine_eq hline
  have hbs : bs = x ++ 10 :: (y ++ Reader.bytes r) := by
    rw [← hbytes, hxy, List.append_assoc, List.cons_append]
  rw [Access.look, if_neg (by rw [h.notTerminated]; decide), hline]
  refine ⟨_, _, rfl, ?_, y ++ Reader.bytes r, by rw [hbs, linesOf_line hx]; rfl, ?_⟩
  · rw [hbs, lineAnswer_line hx]
    refine congrArg Value.str (Bytes.eq_of_toList ?_)
    rw [toList_withoutReturn, hfirst]
  · exact
      { notTerminated := h.notTerminated
        stream := ⟨r, hinput, hpatient, congrArg (· ++ Reader.bytes r) hafter, hweight⟩
        short := fun line hmem => h.short line (by rw [hbs, splitOn_line hx]; exact List.mem_cons_of_mem x hmem) }

/-- At the end of a stream a look takes what there is without a line feed, or finds nothing. -/
theorem look_ended (h : a.Streams bs w) {r : Reader} (hinput : a.own.input = .pieces r)
    (hread : r.read Core.fillSize = ⟨.ok ByteArray.empty, [], false⟩) (hline : Core.lineEnd? a.own.pending = none)
    (hbs : bs = a.own.pending.data.toList) :
    ∃ v a', a.look = (.found v, a') ∧ v = lineAnswer bs 0 ∧ ∃ bs', linesOf bs' = (linesOf bs).tail ∧ a'.Streams bs' w := by
  have hnone := lineEnd?_eq_none hline
  have hlast : linesOf [] = (linesOf bs).tail := by
    rw [hbs, linesOf_rest hnone]
    split <;> rfl
  rw [Access.look, if_neg (by rw [h.notTerminated]; decide), hline]
  simp only
  rw [if_neg (Nat.not_le.mpr (h.pending_lt hline)), read_pieces hinput hread rfl]
  simp only
  rw [if_pos (show ByteArray.empty.size = 0 from rfl)]
  by_cases hsize : a.own.pending.size = 0
  · have hnil : a.own.pending.data.toList = [] := Bytes.toList_eq_nil hsize
    rw [if_pos hsize]
    refine ⟨_, _, rfl, ?_, [], hlast, ended h.notTerminated rfl hnil⟩
    rw [hbs, hnil]
    rfl
  · have hne : a.own.pending.data.toList ≠ [] := by
      intro hnil
      apply hsize
      rw [Bytes.size_eq, hnil]
      rfl
    rw [if_neg hsize]
    refine ⟨_, _, rfl, ?_, [], hlast, ended h.notTerminated rfl ?_⟩
    · rw [hbs, lineAnswer_rest hnone hne]
      refine congrArg Value.str (Bytes.eq_of_toList ?_)
      rw [Bytes.toList_extract, List.drop_zero, Nat.sub_zero, Bytes.size_eq, List.take_length]
    · show (a.own.pending.extract a.own.pending.size a.own.pending.size).data.toList = []
      rw [Bytes.toList_extract, Nat.sub_self, List.take_zero]

/-- **One look at a stream** gives the first of its lines, or nothing at the end, or it comes nearer to that. -/
theorem look (h : a.Streams bs w) :
    (∃ v a', a.look = (.found v, a') ∧ v = lineAnswer bs 0 ∧ ∃ bs', linesOf bs' = (linesOf bs).tail ∧ a'.Streams bs' w) ∨
      ∃ found a', a.look = (found, a') ∧ (found = .again ∨ found = .later) ∧ ∃ w' < w, a'.Streams bs w' := by
  obtain ⟨r, hinput, hpatient, hbytes, hweight⟩ := h.stream
  cases hline : Core.lineEnd? a.own.pending with
  | some n => exact .inl (h.look_line hline)
  | none =>
    have hgets := Reader.read_patient hpatient (show 0 < Core.fillSize by decide)
    generalize hattempt : Reader.read r Core.fillSize = attempt at hgets
    cases hgets with
    | ended hend => exact .inl (h.look_ended hinput hattempt hline (by rw [← hbytes, hend, List.append_nil]))
    | @some b rest hsome hrest hpatient' hless =>
      rw [Access.look, if_neg (by rw [h.notTerminated]; decide), hline]
      simp only
      rw [if_neg (Nat.not_le.mpr (h.pending_lt hline)), read_pieces hinput hattempt rfl]
      simp only
      rw [if_neg (Nat.ne_of_gt hsome)]
      refine .inr ⟨_, _, rfl, .inl rfl, Reader.weight rest, by omega, ?_⟩
      exact
        { notTerminated := h.notTerminated
          stream := by
            refine ⟨rest, rfl, hpatient', ?_, Nat.le_refl _⟩
            show (a.own.pending.append b).data.toList ++ _ = _
            rw [Bytes.toList_append, List.append_assoc, hrest, hbytes]
          short := h.short }
    | @nothing e rest hkind hrest hpatient' hless =>
      rw [Access.look, if_neg (by rw [h.notTerminated]; decide), hline]
      simp only
      rw [if_neg (Nat.not_le.mpr (h.pending_lt hline)), read_pieces hinput hattempt rfl]
      simp only
      rw [if_pos hkind]
      refine .inr ⟨_, _, rfl, .inr rfl, Reader.weight rest, by omega, ?_⟩
      exact
        { notTerminated := h.notTerminated
          stream := ⟨rest, rfl, hpatient', by rw [← hbytes, ← hrest], Nat.le_refl _⟩
          short := h.short }

end Streams

end Access

/-! ### Computations that wait -/

/-- A computation of a session's functions comes to something, however often it waits and whatever happens meanwhile apart
from the session's input. -/
inductive Ends {α : Type} (Q : α → Access → Prop) : Script.Outcome Access α → Prop
  | done {v : α} {h : Heap} {a : Access} (hv : Q v a) : Ends Q (.done v h a)
  | wait {ms : Nat} {k : Unit → Heap → Access → Script.Outcome Access α} {h : Heap} {a : Access}
      (hk : ∀ h' a', a.Apart a' → Ends Q (k () h' a')) : Ends Q (.wait ms k h a)

/-- What a computation may come to. -/
inductive MayEnd {α : Type} (v : α) (a' : Access) : Script.Outcome Access α → Prop
  | done (h : Heap) : MayEnd v a' (.done v h a')
  | wait {ms : Nat} {k : Unit → Heap → Access → Script.Outcome Access α} {h h' : Heap} {a a'' : Access} (hapart : a.Apart a'')
      (hk : MayEnd v a' (k () h' a'')) : MayEnd v a' (.wait ms k h a)

theorem Ends.of_mayEnd {α : Type} {Q : α → Access → Prop} {o : Script.Outcome Access α} (h : Ends Q o) {v : α} {a : Access}
    (hmay : MayEnd v a o) : Q v a := by
  induction hmay with
  | done =>
    cases h with
    | done hv => exact hv
  | wait hapart _ ih =>
    cases h with
    | wait hk => exact ih (hk _ _ hapart)

theorem Ends.imp {α : Type} {Q R : α → Access → Prop} {o : Script.Outcome Access α} (h : Ends Q o)
    (himp : ∀ v a, Q v a → R v a) : Ends R o := by
  induction h with
  | done hv => exact .done (himp _ _ hv)
  | wait _ ih => exact .wait ih

/-- What a computation comes to is what it may come to. -/
theorem Ends.mayEnd {α : Type} {Q : α → Access → Prop} {o : Script.Outcome Access α} (h : Ends Q o) :
    Ends (fun v a => Q v a ∧ MayEnd v a o) o := by
  induction h with
  | done hv => exact .done ⟨hv, .done _⟩
  | wait _ ih => exact .wait fun h' a' hapart => (ih h' a' hapart).imp fun _ _ ⟨hv, hmay⟩ => ⟨hv, .wait hapart hmay⟩

/-! ### Reading line by line -/

variable {bs : List UInt8} {w : Nat}

/-- **A read** gives the first of the lines that are still to come, or nothing at the end. -/
theorem readLine_ends {a : Access} (h : a.Streams bs w) {fuel : Nat} (hfuel : w < fuel) (heap : Heap) :
    Ends (fun v a' => v = lineAnswer bs 0 ∧ ∃ bs', linesOf bs' = (linesOf bs).tail ∧ a'.Streams bs' w)
      (Core.readLine fuel heap a) := by
  induction fuel generalizing a w heap with
  | zero => omega
  | succ fuel ih =>
    rw [readLine_succ]
    rcases h.look with ⟨v, a', hlook, hv, bs', hrest, hstreams⟩ | ⟨found, a', hlook, hmore, w', hless, hstreams⟩
    · rw [hlook]
      exact .done ⟨hv, bs', hrest, hstreams⟩
    · have hnext {a'' : Access} (hstreams : a''.Streams bs w') (heap : Heap) :
          Ends (fun v a' => v = lineAnswer bs 0 ∧ ∃ bs', linesOf bs' = (linesOf bs).tail ∧ a'.Streams bs' w)
            (Core.readLine fuel heap a'') :=
        (ih hstreams (Nat.lt_of_lt_of_le hless (Nat.le_of_lt_succ hfuel)) heap).imp fun _ _ ⟨hv, bs', hrest, hstreams⟩ =>
          ⟨hv, bs', hrest, hstreams.mono (Nat.le_of_lt hless)⟩
      rw [hlook]
      rcases hmore with rfl | rfl
      · exact hnext hstreams heap
      · exact .wait fun h' a'' hapart => hnext (hapart.streams hstreams) h'

/-- A script reads lines, one after the other: what it reads them from, and what the reads gave so far.  Other things happen
in between. -/
inductive ReadsLines (fuel : Nat) (start : Access) : Access → List Value → Prop
  | start : ReadsLines fuel start start []
  | read {a a' : Access} {vs : List Value} (h : ReadsLines fuel start a vs) (heap : Heap) {v : Value}
      (hread : MayEnd v a' (Core.readLine fuel heap a)) : ReadsLines fuel start a' (vs ++ [v])
  | elsewhere {a a' : Access} {vs : List Value} (h : ReadsLines fuel start a vs) (hapart : a.Apart a') :
      ReadsLines fuel start a' vs

/-- What is true all the time: the reads gave the first lines, and the others are still to come. -/
theorem standing_of_reads {fuel : Nat} {start a : Access} {vs : List Value} (hstart : start.Streams bs w) (hfuel : w < fuel)
    (h : ReadsLines fuel start a vs) : vs = (List.range vs.length).map (lineAnswer bs) ∧
      ∃ bs', linesOf bs' = (linesOf bs).drop vs.length ∧ a.Streams bs' w := by
  induction h with
  | start => exact ⟨rfl, bs, rfl, hstart⟩
  | @read a a' vs _ heap v hread ih =>
    obtain ⟨hvs, bs', hrest, hstreams⟩ := ih
    obtain ⟨hv, bs'', hrest', hstreams'⟩ := (readLine_ends hstreams hfuel heap).of_mayEnd hread
    have hnext : v = lineAnswer bs vs.length := by
      rw [hv, lineAnswer, hrest, List.getElem?_drop, Nat.add_zero, lineAnswer]
    refine ⟨?_, bs'', ?_, hstreams'⟩
    · rw [List.length_append, List.length_singleton, List.range_succ, List.map_append, ← hvs, hnext]
      rfl
    · rw [hrest', hrest, List.tail_drop, List.length_append, List.length_singleton]
  | elsewhere _ hapart ih =>
    obtain ⟨hvs, bs', hrest, hstreams⟩ := ih
    exact ⟨hvs, bs', hrest, hapart.streams hstreams⟩

/-- **The reads give the lines** of all the bytes together, in order, and then nothing for ever, however the
bytes are cut and wherever nothing comes for a while; and each read comes to its end. -/
theorem lines_of_reads {fuel : Nat} {start a : Access} {vs : List Value} (hstart : start.Streams bs w) (hfuel : w < fuel)
    (h : ReadsLines fuel start a vs) :
    vs = (List.range vs.length).map (lineAnswer bs) ∧ ∀ heap,
      Ends (fun v a' => v = lineAnswer bs vs.length ∧ ReadsLines fuel start a' (vs ++ [v])) (Core.readLine fuel heap a) := by
  obtain ⟨hvs, bs', hrest, hstreams⟩ := standing_of_reads hstart hfuel h
  refine ⟨hvs, fun heap =>
    (readLine_ends hstreams hfuel heap).mayEnd.imp fun v a' ⟨⟨hv, _⟩, hmay⟩ => ⟨?_, h.read heap hmay⟩⟩
  rw [hv, lineAnswer, hrest, List.getElem?_drop, Nat.add_zero, lineAnswer]

/-- A session whose input comes in pieces that are cut anywhere. -/
def piecemeal : Access where
  host := { terminals := #[{}] }
  own := {
    resources := { id := 0 }, output := .nowhere
    input := .pieces [.data ⟨#[97, 13]⟩, .failure ⟨.wouldBlock, ""⟩, .data ⟨#[10, 98, 13, 13, 10]⟩,
      .failure ⟨.interrupted, ""⟩, .data ⟨#[99, 13]⟩] }

theorem lines_of_reads_piecemeal :
    let bs : List UInt8 := [97, 13, 10, 98, 13, 13, 10, 99, 13]
    piecemeal.Streams bs 15 ∧ linesOf bs = [[97], [98, 13], [99, 13]] ∧ ∀ heap,
      Ends (fun v a => v = .str ⟨#[97]⟩ ∧ ReadsLines Core.maxPolls piecemeal a [v]) (Core.readLine Core.maxPolls heap piecemeal) := by
  intro bs
  have hpiecemeal : piecemeal.Streams bs 15 :=
    { notTerminated := rfl
      stream := by
        refine ⟨_, rfl, ?_, rfl, by decide⟩
        simp [Reader.Patient]
      short := by decide +kernel }
  exact ⟨hpiecemeal, by decide +kernel, fun heap => (lines_of_reads hpiecemeal (by decide) .start).2 heap⟩

end ScriptHost

import ScriptHost.Proofs.Binding.Splitting
import ScriptHost.Proofs.Host.Tables

/-!
# Where the bytes of the input go

A script reads its input in pieces and by lines, in any order, and both take from what the session has read and not
handed out.  No byte is lost, repeated or moved on the way, whatever the input does and whenever termination is requested.

* `Access.upcoming`, `Access.AtEnd` — the bytes that are still to come, and the end of the input;
* `Yields`, **`read_yields`** — what one attempt to read takes;
* `Access.peek`, `readSome_succ` — one look of a script that reads in pieces;
* `ReadCall`, `Access.lookFor`, **`ReadCall.run_succ`** — a call of either kind, as looks;
* `HandsOut` — what a look hands out, with the end of the line that it has removed;
* `Access.Turns`, **`lookFor_turns`** — one look, byte by byte;
* `ReadsInput` — looks of any calls, and anything else between them;
* **`conserves_of_reads`** — what was taken is what was handed out and what is pending, at every moment.

The invariant is one equation between bytes, `taken = handed out ++ pending`, and a look keeps it because of the equation
`pending ++ taken = handed out ++ pending` for that look alone.  The bound on what is pending comes from the look, too: it
reads more only where less than a longest line is pending.
-/

namespace ScriptHost

open Script

/-! ### One attempt to read -/

/-- An attempt to read at most so many bytes: what is to come before and after it, by its result.  It takes no bytes only
at the end, and none if it fails. -/
def Yields (n : Nat) (before after : List UInt8) : Except IoError Bytes → Prop
  | .ok b => b.size ≤ n ∧ b.data.toList ++ after = before ∧ (b.size = 0 → before = [])
  | .error _ => after = before

/-- An attempt takes the first bytes of a stream, however it goes on and fails. -/
theorem Reader.read_yields (r : Reader) {n : Nat} (hn : 0 < n) :
    Yields n r.bytes (r.read n).rest.bytes (r.read n).result := by
  induction r with
  | nil => exact ⟨Nat.zero_le n, rfl, fun _ => rfl⟩
  | cons p rest ih =>
    cases p with
    | failure e => rfl
    | request => exact ih
    | data b =>
      rw [read]
      by_cases hempty : b.size = 0
      · have hnone : b.data.toList = [] := Bytes.toList_eq_nil hempty
        rw [if_pos hempty, bytes, hnone, List.nil_append]
        exact ih
      rw [if_neg hempty]
      by_cases hfits : b.size ≤ n
      · rw [if_pos hfits]
        exact ⟨hfits, rfl, fun h => absurd h hempty⟩
      · have hsize : (b.extract 0 n).size = n := by
          rw [ByteArray.size_extract]
          omega
        rw [if_neg hfits]
        refine ⟨Nat.le_of_eq hsize, ?_, fun h => absurd (hsize.symm.trans h) (Nat.ne_of_gt hn)⟩
        rw [bytes, bytes, ← List.append_assoc, Bytes.toList_split]

/-- An attempt takes the first bytes of a pipe. -/
theorem Pipe.read_yields (p : Pipe) {n : Nat} (hn : 0 < n) :
    Yields n p.buffer.data.toList (p.read n).2.buffer.data.toList (p.read n).1 := by
  rw [read]
  by_cases hempty : p.buffer.size = 0
  · rw [if_pos hempty]
    split
    · exact ⟨Nat.zero_le n, rfl, fun _ => Bytes.toList_eq_nil hempty⟩
    · rfl
  · rw [if_neg hempty]
    refine ⟨?_, Bytes.toList_split _ _, fun h => ?_⟩
    · rw [ByteArray.size_extract]
      omega
    · rw [ByteArray.size_extract] at h
      omega

namespace Access

/-- The bytes that are still to come from the input of a session, as far as they are there. -/
def upcoming (a : Access) : List UInt8 :=
  match a.own.input with
  | .pieces r => r.bytes
  | .terminal => a.own.resources.terminal.elim [] fun t => (a.host.terminal t).input.buffer.data.toList

/-- The input has ended: an attempt to read more gives nothing, and nothing is there. -/
structure AtEnd (a : Access) : Prop where
  attempt : (a.read Core.fillSize).1 = .ok ByteArray.empty
  upcoming : a.upcoming = []

/-- **An attempt** takes the first of the bytes that are to come, or fails and takes none. -/
theorem read_yields (a : Access) {n : Nat} (hn : 0 < n) :
    Yields n a.upcoming (a.read n).2.upcoming (a.read n).1 ∧ (a.read n).2.own.pending = a.own.pending := by
  cases hinput : a.own.input with
  | pieces r =>
    rw [upcoming, read, hinput]
    exact ⟨r.read_yields hn, rfl⟩
  | terminal =>
    cases hterminal : a.own.resources.terminal with
    | none =>
      simp only [upcoming, read, hinput, hterminal]
      exact ⟨⟨Nat.zero_le n, rfl, fun _ => rfl⟩, trivial⟩
    | some t =>
      have hpipe := (a.host.terminal t).input.read_yields hn
      rw [read_terminal hinput hterminal]
      simp only [upcoming, hinput, hterminal, Option.elim_some, Host.terminal_onTerminal]
      refine ⟨?_, trivial⟩
      by_cases ht : t < a.host.terminals.size
      · rw [if_pos ⟨trivial, ht⟩]
        exact hpipe
      · -- there is no such terminal, so what is read is an empty pipe
        have hnone : a.host.terminal t = {} := by
          rw [Host.terminal, Array.getD_eq_getD_getElem?, Array.getElem?_eq_none (Nat.le_of_not_lt ht)]
          rfl
        have hsame : ((a.host.terminal t).input.read n).2.buffer = (a.host.terminal t).input.buffer := by
          rw [hnone, Pipe.read, if_pos (show ByteArray.empty.size = 0 from rfl)]
          split <;> rfl
        rw [hsame] at hpipe
        rw [if_neg fun h => ht h.2]
        exact hpipe

/-- What an attempt to read more comes to: the end, some bytes, or a failure. -/
inductive Attempted (a : Access) : Except IoError Bytes × Access → Prop
  | ended {a' : Access} (hend : a.AtEnd) (hupcoming : a'.upcoming = a.upcoming) (hpending : a'.own.pending = a.own.pending) :
      Attempted a (.ok ByteArray.empty, a')
  | bytes {b : Bytes} {a' : Access} (hsome : b.size ≠ 0) (hsize : b.size ≤ Core.fillSize)
      (hupcoming : b.data.toList ++ a'.upcoming = a.upcoming) (hpending : a'.own.pending = a.own.pending) :
      Attempted a (.ok b, a')
  | failed {e : IoError} {a' : Access} (hupcoming : a'.upcoming = a.upcoming) (hpending : a'.own.pending = a.own.pending) :
      Attempted a (.error e, a')

theorem read_attempted (a : Access) : Attempted a (a.read Core.fillSize) := by
  have ⟨hyields, hpending⟩ := a.read_yields (show 0 < Core.fillSize by decide)
  rcases hread : a.read Core.fillSize with ⟨e | b, a'⟩
  · rw [hread] at hyields hpending
    exact .failed hyields hpending
  · rw [hread] at hyields hpending
    obtain ⟨hsize, hupcoming, hend⟩ := hyields
    by_cases hempty : b.size = 0
    · have hb : b = ByteArray.empty := ByteArray.size_eq_zero_iff.mp hempty
      subst hb
      exact .ended ⟨by rw [hread], hend rfl⟩ hupcoming hpending
    · exact .bytes hempty hsize hupcoming hpending

/-! ### One look -/

/-- One look for some bytes, at most so many. -/
def peek (a : Access) (limit : Nat) : Look × Access :=
  if a.isTerminated then (.failed .signal, a)
  else if a.own.pending.size ≠ 0 then (.found (.str (a.own.pending.extract 0 limit)), a.takeFirst limit)
  else
    match a.read Core.fillSize with
    | (.ok b, a') => if b.size = 0 then (.found .nil, a') else (.again, a'.keep b)
    | (.error e, a') => if e.kind = .wouldBlock ∨ e.kind = .interrupted then (.later, a') else (.failed (.io e), a')

end Access

/-- **Reading some bytes** is a look, and then what it calls for. -/
theorem readSome_succ (limit fuel : Nat) (h : Heap) (a : Access) :
    Core.readSome limit (fuel + 1) h a = match a.peek limit with
      | (.found v, a) => .done v h a
      | (.again, a) => Core.readSome limit fuel h a
      | (.later, a) => .wait a.own.poll (fun _ h a => Core.readSome limit fuel h a) h a
      | (.failed f, a) => .raised (.host f) h a := by
  rw [Core.readSome, Access.peek]
  by_cases hterm : a.isTerminated = true
  · have hsignal : Core.checkSignal h a = .raised (.host .signal) h a := if_pos hterm
    rw [if_pos hterm, Act.bind_of_raised hsignal]
  have hsignal : Core.checkSignal h a = .done () h a := if_neg hterm
  have hsize : Act.readHost (fun a : Access => a.own.pending.size) h a = .done a.own.pending.size h a := rfl
  rw [if_neg hterm, Act.bind_of_done hsignal, Act.bind_of_done hsize]
  by_cases hsome : a.own.pending.size ≠ 0
  · rw [if_pos hsome, if_pos hsome]
    rfl
  rw [if_neg hsome, if_neg hsome, bind_fill]
  rcases a.read Core.fillSize with ⟨e | b, a'⟩
  all_goals
    simp only
    split <;> rfl

/-- A call by which a script reads its input. -/
inductive ReadCall where
  /-- Some bytes; the number is how many at most. -/
  | some (n : Option Int)
  | line

namespace ReadCall

/-- How many bytes a call may give that asks for so many. -/
def limit (n : Option Int) : Nat := max 1 (min (n.getD Core.maxRead).toNat Core.maxRead)

/-- What the host functions do for a call. -/
def run : ReadCall → Nat → Core.Doing Value
  | some n => Core.readSome (limit n)
  | line => Core.readLine

end ReadCall

/-- One look of a call. -/
def Access.lookFor (a : Access) : ReadCall → Look × Access
  | .some n => a.peek (ReadCall.limit n)
  | .line => a.look

/-- **A call is a look**, and then what that calls for. -/
theorem ReadCall.run_succ (c : ReadCall) (fuel : Nat) (h : Heap) (a : Access) :
    c.run (fuel + 1) h a = match a.lookFor c with
      | (.found v, a) => .done v h a
      | (.again, a) => c.run fuel h a
      | (.later, a) => .wait a.own.poll (fun _ h a => c.run fuel h a) h a
      | (.failed f, a) => .raised (.host f) h a := by
  cases c with
  | some n => exact readSome_succ (limit n) fuel h a
  | line => exact readLine_succ fuel h a

/-! ### What a look hands out -/

/-- The bytes that a look hands out: those of its answer, and after a line the end that was removed from it.  Nothing at
all is given only at the end of the input and when nothing is pending; a line has no end only if it is too long or the
last. -/
inductive HandsOut (a : Access) : ReadCall → Look → List UInt8 → Prop
  | again {c : ReadCall} : HandsOut a c .again []
  | later {c : ReadCall} : HandsOut a c .later []
  | failed {c : ReadCall} {f : Fault} : HandsOut a c (.failed f) []
  | nothing {c : ReadCall} (hempty : a.own.pending.size = 0) (hend : a.AtEnd) : HandsOut a c (.found .nil) []
  | some {n : Option Int} {b : Bytes} (hsome : 1 ≤ b.size)
      (hlimit : b.size ≤ min (max (n.getD Core.maxRead).toNat 1) Core.maxRead) :
      HandsOut a (.some n) (.found (.str b)) b.data.toList
  | line {b : Bytes} (hline : 10 ∉ b.data.toList) (hreturn : b.data.toList.getLast? ≠ some 13) :
      HandsOut a .line (.found (.str b)) (b.data.toList ++ [10])
  | returned {b : Bytes} (hline : 10 ∉ b.data.toList) : HandsOut a .line (.found (.str b)) (b.data.toList ++ [13, 10])
  | rest {b : Bytes} (hline : 10 ∉ b.data.toList) (hsome : 1 ≤ b.size) (hwhy : Core.maxLine ≤ b.size ∨ a.AtEnd) :
      HandsOut a .line (.found (.str b)) b.data.toList

namespace Access

/-- One look, byte by byte: what it takes from the input and what it hands out.  What was pending and what it takes are what
it hands out and what is pending then. -/
structure Turns (a : Access) (c : ReadCall) (found : Look) (a' : Access) (took given : List UInt8) : Prop where
  input : took ++ a'.upcoming = a.upcoming
  few : took.length ≤ Core.fillSize
  handsOut : HandsOut a c found given
  kept : a.own.pending.data.toList ++ took = given ++ a'.own.pending.data.toList
  bound : a'.own.pending.size ≤ max a.own.pending.size (Core.maxLine - 1 + Core.fillSize)

variable {a a' : Access} {c : ReadCall}

/-- A look that only tells something. -/
theorem Turns.tells {found : Look} (hupcoming : a'.upcoming = a.upcoming) (hpending : a'.own.pending = a.own.pending)
    (hgives : HandsOut a c found []) : a.Turns c found a' [] [] where
  input := hupcoming
  few := Nat.zero_le _
  handsOut := hgives
  kept := by rw [hpending, List.append_nil, List.nil_append]
  bound := by rw [hpending]; exact Nat.le_max_left _ _

/-- A look that takes more bytes where less than a longest line is pending. -/
theorem Turns.takes {b : Bytes} (hupcoming : b.data.toList ++ a'.upcoming = a.upcoming)
    (hpending : a'.own.pending = a.own.pending) (hsize : b.size ≤ Core.fillSize) (hshort : a.own.pending.size < Core.maxLine) :
    a.Turns c .again (a'.keep b) b.data.toList [] where
  input := hupcoming
  few := b.size_eq ▸ hsize
  handsOut := .again
  kept := by
    show _ = (a'.own.pending.append b).data.toList
    rw [Bytes.toList_append, hpending]
  bound := by
    show (a'.own.pending.append b).size ≤ _
    rw [Bytes.size_eq, Bytes.toList_append, List.length_append, ← Bytes.size_eq, ← Bytes.size_eq, hpending]
    omega

/-- A look that hands out the first bytes of what is pending. -/
theorem Turns.gives {v : Value} {given : List UInt8} {n : Nat} (hupcoming : a'.upcoming = a.upcoming)
    (hpending : a'.own.pending = a.own.pending) (hgiven : (a.own.pending.extract 0 n).data.toList = given)
    (hgives : HandsOut a c (.found v) given) : a.Turns c (.found v) (a'.takeFirst n) [] given where
  input := hupcoming
  few := Nat.zero_le _
  handsOut := hgives
  kept := by
    show _ = _ ++ (a'.own.pending.extract n a'.own.pending.size).data.toList
    rw [hpending, ← hgiven, Bytes.toList_split, List.append_nil]
  bound := by
    show (a'.own.pending.extract n a'.own.pending.size).size ≤ _
    rw [hpending, ByteArray.size_extract]
    omega

theorem peek_turns (a : Access) (n : Option Int) : ∃ took given,
    a.Turns (.some n) (a.peek (ReadCall.limit n)).1 (a.peek (ReadCall.limit n)).2 took given := by
  rw [peek]
  by_cases hterm : a.isTerminated = true
  · rw [if_pos hterm]
    exact ⟨_, _, .tells rfl rfl .failed⟩
  rw [if_neg hterm]
  by_cases hsome : a.own.pending.size ≠ 0
  · have hmost : Core.maxRead = 65536 := rfl
    rw [if_pos hsome]
    refine ⟨_, _, .gives rfl rfl rfl (.some ?_ ?_)⟩
    all_goals
      rw [ByteArray.size_extract, ReadCall.limit]
      omega
  rw [if_neg hsome]
  have hempty : a.own.pending.size = 0 := Decidable.not_not.mp hsome
  have hattempted := a.read_attempted
  generalize a.read Core.fillSize = answer at hattempted ⊢
  cases hattempted with
  | ended hend hupcoming hpending =>
    simp only
    rw [if_pos (show ByteArray.empty.size = 0 from rfl)]
    exact ⟨_, _, .tells hupcoming hpending (.nothing hempty hend)⟩
  | bytes hsome hsize hupcoming hpending =>
    simp only
    rw [if_neg hsome]
    exact ⟨_, _, .takes hupcoming hpending hsize (by rw [hempty]; decide)⟩
  | failed hupcoming hpending =>
    simp only
    split
    · exact ⟨_, _, .tells hupcoming hpending .later⟩
    · exact ⟨_, _, .tells hupcoming hpending .failed⟩

/-- What is handed out of a line that has an end. -/
theorem handsOut_line {b : Bytes} {x : List UInt8} (hx : 10 ∉ x) (hb : b.data.toList = x) :
    HandsOut a .line (.found (.str (Core.withoutReturn b))) (x ++ [10]) := by
  have hwithout := toList_withoutReturn b
  rw [hb, chomp] at hwithout
  by_cases hreturn : x.getLast? = some 13
  · rw [if_pos hreturn] at hwithout
    obtain ⟨front, rfl⟩ := List.getLast?_eq_some_iff.mp hreturn
    rw [List.dropLast_concat] at hwithout
    have hsplit : front ++ [13] ++ [10] = (Core.withoutReturn b).data.toList ++ [13, 10] := by
      rw [hwithout, List.append_assoc]
      rfl
    rw [hsplit]
    exact .returned (by rw [hwithout]; exact fun hmem => hx (List.mem_append_left _ hmem))
  · rw [if_neg hreturn] at hwithout
    conv => rhs; rw [← hwithout]
    exact .line (by rw [hwithout]; exact hx) (by rw [hwithout]; exact hreturn)

theorem look_turns (a : Access) : ∃ took given, a.Turns .line a.look.1 a.look.2 took given := by
  rw [look]
  by_cases hterm : a.isTerminated = true
  · rw [if_pos hterm]
    exact ⟨_, _, .tells rfl rfl .failed⟩
  rw [if_neg hterm]
  cases hline : Core.lineEnd? a.own.pending with
  | some n =>
    obtain ⟨x, y, hxy, hx, hfirst, hafter⟩ := takeLine_eq hline
    have hgiven : (a.own.pending.extract 0 (n + 1)).data.toList = x ++ [10] := by
      have hboth := a.own.pending.toList_split (n + 1)
      rw [hafter, hxy, List.append_cons] at hboth
      exact List.append_cancel_right hboth
    exact ⟨_, _, .gives rfl rfl hgiven (handsOut_line hx hfirst)⟩
  | none =>
    have hnone := lineEnd?_eq_none hline
    have hwhole : a.own.pending.extract 0 a.own.pending.size = a.own.pending := ByteArray.extract_zero_size
    simp only
    by_cases hlong : Core.maxLine ≤ a.own.pending.size
    · rw [if_pos hlong, hwhole]
      refine ⟨_, _, .gives rfl rfl (congrArg (·.data.toList) hwhole) (.rest hnone ?_ (.inl hlong))⟩
      exact Nat.le_trans (by decide) hlong
    rw [if_neg hlong]
    have hattempted := a.read_attempted
    generalize a.read Core.fillSize = answer at hattempted ⊢
    cases hattempted with
    | ended hend hupcoming hpending =>
      simp only
      rw [if_pos (show ByteArray.empty.size = 0 from rfl)]
      by_cases hempty : a.own.pending.size = 0
      · rw [if_pos hempty]
        exact ⟨_, _, .tells hupcoming hpending (.nothing hempty hend)⟩
      · rw [if_neg hempty, hpending, hwhole]
        exact ⟨_, _, .gives hupcoming hpending (congrArg (·.data.toList) hwhole)
          (.rest hnone (Nat.pos_of_ne_zero hempty) (.inr hend))⟩
    | bytes hsome hsize hupcoming hpending =>
      simp only
      rw [if_neg hsome]
      exact ⟨_, _, .takes hupcoming hpending hsize (Nat.lt_of_not_le hlong)⟩
    | failed hupcoming hpending =>
      simp only
      split
      · exact ⟨_, _, .tells hupcoming hpending .later⟩
      · exact ⟨_, _, .tells hupcoming hpending .failed⟩

/-- **One look of any call**, byte by byte. -/
theorem lookFor_turns (a : Access) : ∀ c : ReadCall, ∃ took given, a.Turns c (a.lookFor c).1 (a.lookFor c).2 took given
  | .some n => a.peek_turns n
  | .line => a.look_turns

/-- The bytes that are no longer to come. -/
def taken (a a' : Access) : List UInt8 := a.upcoming.take (a.upcoming.length - a'.upcoming.length)

theorem Turns.taken_eq {found : Look} {took given : List UInt8} (h : a.Turns c found a' took given) : a.taken a' = took := by
  rw [taken, ← h.input, List.length_append, Nat.add_sub_cancel, List.take_left]

end Access

/-! ### All looks -/

/-- A look that was made: what the session reached then, the call, and what was found. -/
structure Looked where
  before : Access
  asked : ReadCall
  found : Look

/-- The bytes that looks have handed out, one after the other. -/
inductive HandedOut : List Looked → List UInt8 → Prop
  | none : HandedOut [] []
  | look {looks : List Looked} {bs given : List UInt8} (h : HandedOut looks bs) {x : Looked}
      (hgives : HandsOut x.before x.asked x.found given) : HandedOut (looks ++ [x]) (bs ++ given)

/-- A script that reads its input. -/
structure Reading where
  access : Access
  /-- The bytes that were taken from the input so far. -/
  taken : List UInt8 := []
  /-- The looks that were made so far. -/
  looks : List Looked := []

/-- A script reads its input.  A call is some looks, of which the last one finds something or fails; between two looks of
whatever calls anything may happen, to the input and to all others: bytes arrive, attempts to read begin to fail or the
input ends, and termination is requested.  Only what is pending is the session's own. -/
inductive ReadsInput (start : Access) : Reading → Prop
  | start : ReadsInput start { access := start }
  | look {s : Reading} (h : ReadsInput start s) (c : ReadCall) {found : Look} {a : Access} (hlook : s.access.lookFor c = (found, a)) :
      ReadsInput start { access := a, taken := s.taken ++ s.access.taken a, looks := s.looks ++ [⟨s.access, c, found⟩] }
  | elsewhere {s : Reading} (h : ReadsInput start s) {a : Access} (hpending : a.own.pending = s.access.own.pending) :
      ReadsInput start { s with access := a }

/-- What is true of a script that reads its input. -/
structure Reading.Conserves (s : Reading) : Prop where
  /-- The bytes that were taken are those that were handed out and those that are pending. -/
  bytes : ∃ given, HandedOut s.looks given ∧ s.taken = given ++ s.access.own.pending.data.toList
  bound : s.access.own.pending.size ≤ 65535 + 1024
  /-- The next look, of any call, takes the first bytes that are to come, and hands out the first of those that are pending
  and these. -/
  next : ∀ (c : ReadCall) (found : Look) (a : Access), s.access.lookFor c = (found, a) →
    ∃ given, s.access.Turns c found a (s.access.taken a) given
  /-- A call is looks until one finds something or fails. -/
  calls : ∀ (c : ReadCall) (fuel : Nat) (heap : Heap), c.run (fuel + 1) heap s.access = match s.access.lookFor c with
    | (.found v, a) => .done v heap a
    | (.again, a) => c.run fuel heap a
    | (.later, a) => .wait a.own.poll (fun _ h a => c.run fuel h a) heap a
    | (.failed f, a) => .raised (.host f) heap a
  /-- The calls are those of a script's functions, which look as often as their fuel says. -/
  functions :
    .unary "read" (.optional .usize) (fun n => return #[← (ReadCall.some n).run Core.maxPolls]) ∈ Core.functions ∧
    .nullary "read_line" (return #[← ReadCall.line.run Core.maxPolls]) ∈ Core.functions

theorem next_of_turns {a a' : Access} {c : ReadCall} {found : Look} (hlook : a.lookFor c = (found, a')) :
    ∃ given, a.Turns c found a' (a.taken a') given := by
  obtain ⟨took, given, hturns⟩ := a.lookFor_turns c
  rw [hlook] at hturns
  rw [hturns.taken_eq]
  exact ⟨given, hturns⟩

variable {start : Access} {s : Reading}

/-- The bytes that are pending, by induction on the looks and what happens between them. -/
theorem standing_of_reads_bytes (hstart : start.own.pending.size = 0) (h : ReadsInput start s) :
    (∃ given, HandedOut s.looks given ∧ s.taken = given ++ s.access.own.pending.data.toList) ∧
      s.access.own.pending.size ≤ 65535 + 1024 := by
  induction h with
  | start =>
    have hnone : start.own.pending.data.toList = [] := Bytes.toList_eq_nil hstart
    exact ⟨⟨[], .none, hnone.symm⟩, by rw [hstart]; decide⟩
  | @look s _ c found a hlook ih =>
    obtain ⟨⟨given, hhanded, hbytes⟩, hbound⟩ := ih
    obtain ⟨more, hturns⟩ := next_of_turns hlook
    refine ⟨⟨given ++ more, .look hhanded hturns.handsOut, ?_⟩, Nat.le_trans hturns.bound (Nat.max_le.mpr ⟨hbound, by decide⟩)⟩
    rw [hbytes, List.append_assoc, hturns.kept, List.append_assoc]
  | elsewhere _ hpending ih =>
    rw [← hpending] at ih
    exact ih

/-- **No byte is lost, repeated or moved.**  Whatever the input does and whenever termination is requested, the bytes taken
from it are those handed out, in order, and those pending, and of these there are never more than a longest line and what
one attempt adds. -/
theorem conserves_of_reads (hstart : start.own.pending.size = 0) (h : ReadsInput start s) : s.Conserves :=
  have ⟨hbytes, hbound⟩ := standing_of_reads_bytes hstart h
  { bytes := hbytes
    bound := hbound
    next := fun _ _ _ hlook => next_of_turns hlook
    calls := fun c fuel heap => c.run_succ fuel heap s.access
    functions := ⟨.tail _ (.tail _ (.head _)), .tail _ (.tail _ (.tail _ (.head _)))⟩ }

/-- The next look of a call. -/
def Reading.look (s : Reading) (c : ReadCall) : Reading where
  access := (s.access.lookFor c).2
  taken := s.taken ++ s.access.taken (s.access.lookFor c).2
  looks := s.looks ++ [⟨s.access, c, (s.access.lookFor c).1⟩]

theorem ReadsInput.next (h : ReadsInput start s) (c : ReadCall) : ReadsInput start (s.look c) := h.look c rfl

/-- Termination of the session is requested meanwhile. -/
def Reading.request (s : Reading) : Reading :=
  { s with access := { s.access with host := { s.access.host with requested := #[true] } } }

theorem ReadsInput.requested (h : ReadsInput start s) : ReadsInput start s.request := h.elsewhere rfl

/-- Two looks for a line, one for a byte, and two more for the line, of which the second finds the rest of it; then
termination, and a look that fails. -/
def mixedLooks : Reading :=
  let halfway := ((Reading.mk piecemeal [] []).look .line).look .line
  let line := ((halfway.look (.some (some 1))).look .line).look .line
  line.request.look (.some none)

theorem conserves_of_reads_mixed :
    piecemeal.own.pending.size = 0 ∧ ReadsInput piecemeal mixedLooks ∧
      mixedLooks.taken = [97, 13, 10, 98, 13, 13, 10] ∧ mixedLooks.access.own.pending.data.toList = [98, 13, 13, 10] ∧
      mixedLooks.Conserves :=
  have hreads : ReadsInput piecemeal mixedLooks :=
    (ReadsInput.start.next .line |>.next .line |>.next (.some (some 1)) |>.next .line |>.next .line).requested.next
      (.some none)
  ⟨rfl, hreads, by decide +kernel, by decide +kernel, conserves_of_reads rfl hreads⟩

end ScriptHost

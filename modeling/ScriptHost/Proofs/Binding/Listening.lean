import ScriptHost.Proofs.Binding.Looking
import ScriptHost.Proofs.Host.Tables

/-!
# What a script hears from its terminal

Lines are delivered to a terminal while a script reads them one by one.  The bytes of a line go through the pipe of the
terminal and through what the session has read, so a look may find a part of a line or several lines at once.

* `PlainLine`, `lineBytes` — a line that is delivered as it is, and its bytes;
* `Access.Listens` — the lines that are on their way, and where their bytes are;
* `Access.Sees`, **`sees_look`** — what one look finds;
* `Hears` — lines are delivered, the input is closed, and the script looks, in any order;
* **`heard_of_hears`** — the script hears the lines, in order and each once, and after the last of them nothing.
-/

namespace ScriptHost

open Script Utf8

/-! ### Lines and their bytes -/

/-- A line that is delivered as text and that a script can read as it is. -/
structure PlainLine (l : String) : Prop where
  noFeed : '\n' ∉ l.toList
  noControl : ∀ code rest, l.toList ≠ '^' :: code :: rest
  noReturn : l.toList.getLast? ≠ some '\r'
  short : (Bytes.ofString l).size < Core.maxLine

/-- The bytes that a line is sent as: its own, and a line feed. -/
def lineBytes (l : String) : List UInt8 := (Bytes.ofString l).data.toList ++ [10]

/-- A line as a script has it. -/
def lineValue (l : String) : Value := .str (Bytes.ofString l)

theorem toList_line (l : String) : (Bytes.ofString (l ++ "\n")).data.toList = lineBytes l := by
  rw [lineBytes, data_toUTF8, data_toUTF8, String.toList_append, encoded_append]
  rfl

/-- A beginning without an element ends before the first one. -/
theorem exists_beginning {x y z w : List UInt8} {b : UInt8} (hx : b ∉ x) (h : x ++ y = z ++ b :: w) :
    ∃ c, z = x ++ c ∧ y = c ++ b :: w := by
  rcases List.append_eq_append_iff.mp h with hlonger | ⟨c, hc, hrest⟩
  · exact hlonger
  · rcases List.cons_eq_append_iff.mp hrest with ⟨hnil, heq⟩ | ⟨d, hd, -⟩
    · exact ⟨[], by rw [hc, hnil, List.append_nil, List.append_nil], heq⟩
    · rw [hc, hd] at hx
      exact absurd (List.mem_append_right z List.mem_cons_self) hx

/-- A list has one beginning that ends before the first such element. -/
theorem beginning_eq {x y z w : List UInt8} {b : UInt8} (hx : b ∉ x) (hz : b ∉ z) (h : x ++ b :: y = z ++ b :: w) :
    x = z ∧ y = w := by
  obtain ⟨c, hc, hrest⟩ := exists_beginning hx h
  rcases List.cons_eq_append_iff.mp hrest with ⟨hnil, heq⟩ | ⟨d, hd, -⟩
  · rw [hnil, List.append_nil] at hc
    exact ⟨hc.symm, (List.cons.inj heq).2.symm⟩
  · rw [hc, hd] at hz
    exact absurd (List.mem_append_right x List.mem_cons_self) hz

namespace PlainLine

variable {l : String}

/-- A line is delivered as text. -/
theorem ofLine_eq (hl : PlainLine l) : Delivery.ofLine l = .text l := by
  rw [Delivery.ofLine]
  split
  · exact absurd ‹_› (hl.noControl _ _)
  · rfl

/-- The bytes of a line hold no line feed. -/
theorem not_mem (hl : PlainLine l) : 10 ∉ (Bytes.ofString l).data.toList := by
  intro hmem
  exact hl.noFeed (char_of_mem hmem rfl (by decide))

/-- The last byte of a line is no carriage return. -/
theorem getLast_ne (hl : PlainLine l) : (Bytes.ofString l).data.toList.getLast? ≠ some 13 := by
  intro hlast
  rcases List.eq_nil_or_concat l.toList with hnil | ⟨cs, c, hcs⟩
  · rw [data_toUTF8, hnil] at hlast
    cases hlast
  · have hbytes : (Bytes.ofString l).data.toList = encoded cs ++ String.utf8EncodeChar c := by
      rw [data_toUTF8, hcs, List.concat_eq_append, encoded_append, encoded_cons]
      exact congrArg (encoded cs ++ ·) (List.append_nil _)
    have hne : (String.utf8EncodeChar c).getLast? ≠ none :=
      mt List.getLast?_eq_none_iff.mp (List.ne_nil_of_length_pos (length_utf8EncodeChar_pos c))
    rw [hbytes, List.getLast?_append, Option.or_of_isSome (Option.isSome_iff_ne_none.mpr hne)] at hlast
    have hc : '\r'.toNat = c.toNat := (toNat_of_mem (List.mem_of_getLast? hlast) (by decide)).symm
    apply hl.noReturn
    rw [hcs, List.concat_eq_append, List.getLast?_concat, Char.toNat_inj.mp hc]

/-- Nothing is taken from the end of a line. -/
theorem withoutReturn_eq (hl : PlainLine l) : Core.withoutReturn (Bytes.ofString l) = Bytes.ofString l := by
  apply Bytes.eq_of_toList
  rw [toList_withoutReturn, chomp, if_neg hl.getLast_ne]

end PlainLine

/-! ### What a look finds -/

namespace Access

/-- A session reads from a terminal, and some lines are on their way to it: the bytes it has read but not asked for and
those in the terminal's input are the bytes of these lines. -/
structure Listens (t : Nat) (a : Access) (rest : List String) : Prop where
  input : a.own.input = .terminal
  terminal : a.own.resources.terminal = some t
  bound : t < a.host.terminals.size
  notTerminated : a.isTerminated = false
  plain : ∀ l ∈ rest, PlainLine l
  bytes : a.own.pending.data.toList ++ (a.host.terminal t).input.buffer.data.toList = rest.flatMap lineBytes

/-- No more lines will be delivered. -/
def Closed (t : Nat) (a : Access) : Prop := (a.host.terminal t).input.closed = true

/-- What a look finds, by the lines that are on their way. -/
inductive Sees (t : Nat) (a : Access) : List String → Look × Access → Prop
  /-- The first line. -/
  | line {l : String} {rest : List String} {a' : Access} (hlistens : a'.Listens t rest)
      (hclosed : a'.Closed t ↔ a.Closed t) : Sees t a (l :: rest) (.found (lineValue l), a')
  /-- A part of the first line, or its end, which the next look takes. -/
  | more {rest : List String} {a' : Access} (hlistens : a'.Listens t rest) (hclosed : a'.Closed t ↔ a.Closed t)
      (hsome : rest ≠ []) (hshort : a.own.pending.size < Core.maxLine)
      (hlonger : a.own.pending.size < a'.own.pending.size) : Sees t a rest (.again, a')
  /-- The end. -/
  | ended {a' : Access} (hlistens : a'.Listens t []) (hclosed : a'.Closed t) (hbefore : a.Closed t) :
      Sees t a [] (.found .nil, a')
  /-- Nothing yet. -/
  | nothing {a' : Access} (hlistens : a'.Listens t []) (hclosed : ¬ a'.Closed t) (hbefore : ¬ a.Closed t) :
      Sees t a [] (.later, a')

namespace Listens

variable {t : Nat} {a : Access} {rest : List String}

/-- Reading takes what is in the input of the terminal. -/
theorem read_eq (h : a.Listens t rest) (n : Nat) :
    a.read n = (((a.host.terminal t).input.read n).1,
      { a with host := a.host.onTerminal t fun x => { x with input := ((a.host.terminal t).input.read n).2 } }) :=
  Access.read_terminal h.input h.terminal n

/-- A session goes on listening when what it has read and what is in the input of the terminal change. -/
theorem change (h : a.Listens t rest) {left : List String} {pending : Bytes} {input : Pipe}
    (hleft : ∀ l ∈ left, PlainLine l)
    (hbytes : pending.data.toList ++ input.buffer.data.toList = left.flatMap lineBytes) :
    Listens t { a with host := a.host.onTerminal t fun x => { x with input }, own := { a.own with pending } } left := by
  have hsize : (a.host.onTerminal t fun x => { x with input }).terminals.size = a.host.terminals.size :=
    Array.size_modify
  exact
    { input := h.input
      terminal := h.terminal
      bound := hsize ▸ h.bound
      notTerminated := h.notTerminated
      plain := hleft
      bytes := by rw [Host.terminal_onTerminal, if_pos ⟨rfl, h.bound⟩, hbytes] }

theorem closed_change (h : a.Listens t rest) {pending : Bytes} {input : Pipe} :
    Closed t { a with host := a.host.onTerminal t fun x => { x with input }, own := { a.own with pending } }
      ↔ input.closed = true := by
  rw [Closed, Host.terminal_onTerminal, if_pos ⟨rfl, h.bound⟩]

/-- When no line is on its way, a look finds the end, or nothing yet. -/
theorem sees_nil (h : a.Listens t []) : Sees t a [] a.look := by
  have hnil := List.append_eq_nil_iff.mp h.bytes
  have hpending : a.own.pending.size = 0 := by rw [Bytes.size_eq, hnil.1]; rfl
  have hbuffer : (a.host.terminal t).input.buffer.size = 0 := by rw [Bytes.size_eq, hnil.2]; rfl
  have hend : Core.lineEnd? a.own.pending = none := by rw [lineEnd?_eq, if_pos (by omega)]
  have hlisten : Listens t { a with host := a.host.onTerminal t fun x => { x with input := (a.host.terminal t).input } } [] :=
    h.change h.plain h.bytes
  rw [Access.look, if_neg (by rw [h.notTerminated]; decide), hend, if_neg (by rw [hpending]; decide), h.read_eq,
    Pipe.read, if_pos hbuffer]
  by_cases hclosed : (a.host.terminal t).input.closed = true
  · have hread : ((a.host.terminal t).input.closed || Core.fillSize = 0) = true := by rw [hclosed]; rfl
    simp only [hread, if_true]
    rw [if_pos (show ByteArray.empty.size = 0 from rfl), if_pos hpending]
    exact .ended hlisten (h.closed_change.mpr hclosed) hclosed
  · have hread : ((a.host.terminal t).input.closed || Core.fillSize = 0) = false := by
      rw [Bool.eq_false_iff.mpr hclosed]; rfl
    simp only [hread]
    exact .nothing hlisten (fun h' => hclosed (h.closed_change.mp h')) hclosed

/-- When a line is on its way, a look finds it or more of it. -/
theorem sees_cons {l : String} (h : a.Listens t (l :: rest)) : Sees t a (l :: rest) a.look := by
  have hl : PlainLine l := h.plain l List.mem_cons_self
  have hrest : ∀ m ∈ rest, PlainLine m := fun m hm => h.plain m (List.mem_cons_of_mem l hm)
  have hbytes : a.own.pending.data.toList ++ (a.host.terminal t).input.buffer.data.toList
      = (Bytes.ofString l).data.toList ++ 10 :: rest.flatMap lineBytes := by
    rw [h.bytes, List.flatMap_cons, lineBytes, List.append_assoc]
    rfl
  rw [Access.look, if_neg (by rw [h.notTerminated]; decide)]
  cases hline : Core.lineEnd? a.own.pending with
  | some n =>
    obtain ⟨x, y, hxy, hx, hfirst, hdrop⟩ := takeLine_eq hline
    rw [hxy, List.append_assoc, List.cons_append] at hbytes
    obtain ⟨hsame, hafter⟩ := beginning_eq hx hl.not_mem hbytes
    have htake : (a.own.pending.extract 0 (n + 1)).extract 0 n = Bytes.ofString l := Bytes.eq_of_toList (hfirst.trans hsame)
    simp only
    rw [htake, hl.withoutReturn_eq]
    refine .line ?_ Iff.rfl
    exact
      { input := h.input
        terminal := h.terminal
        bound := h.bound
        notTerminated := h.notTerminated
        plain := hrest
        bytes := (congrArg (· ++ _) hdrop).trans hafter }
  | none =>
    obtain ⟨c, hc, hbuffer⟩ := exists_beginning (lineEnd?_eq_none hline) hbytes
    have hshort : a.own.pending.size < Core.maxLine := by
      have hsize := congrArg List.length hc
      rw [List.length_append, ← Bytes.size_eq, ← Bytes.size_eq] at hsize
      have hless := hl.short
      omega
    have hsome : (a.host.terminal t).input.buffer.size ≠ 0 := by
      rw [Bytes.size_eq, hbuffer, List.length_append]
      exact Nat.succ_ne_zero _
    have htaken : 0 < ((a.host.terminal t).input.buffer.extract 0 Core.fillSize).size := by
      rw [ByteArray.size_extract]
      exact Nat.sub_pos_of_lt (Nat.lt_min.mpr ⟨by decide, Nat.pos_of_ne_zero hsome⟩)
    simp only
    rw [if_neg (Nat.not_le.mpr hshort), h.read_eq, Pipe.read, if_neg hsome]
    simp only
    rw [if_neg (Nat.ne_of_gt htaken)]
    refine .more (h.change h.plain ?_) h.closed_change (List.cons_ne_nil _ _) hshort ?_
    · rw [Bytes.toList_append, List.append_assoc, Bytes.toList_split]
      exact h.bytes
    · show a.own.pending.size < (a.own.pending.append _).size
      rw [Bytes.size_eq (Bytes.append _ _), Bytes.toList_append, List.length_append, ← Bytes.size_eq, ← Bytes.size_eq]
      exact Nat.lt_add_of_pos_right htaken

/-- **One look** finds the first of the lines that are on their way, or more of it; the end if there are none; or nothing
yet. -/
theorem sees_look (h : a.Listens t rest) : Sees t a rest a.look := by
  cases rest with
  | nil => exact h.sees_nil
  | cons l rest => exact h.sees_cons

/-- A line is delivered. -/
theorem deliver (h : a.Listens t rest) {l : String} (hl : PlainLine l) (source : String) :
    Listens t { a with host := a.host.deliver t l source } (rest ++ [l]) := by
  have hdeliver : a.host.deliver t l source = a.host.onTerminal t fun x => x.pushLine l := by
    rw [Host.deliver, hl.ofLine_eq]
  have hsize : (a.host.onTerminal t fun x => x.pushLine l).terminals.size = a.host.terminals.size := Array.size_modify
  have hinput : ((a.host.onTerminal t fun x => x.pushLine l).terminal t).input.buffer
      = (a.host.terminal t).input.buffer.append (Bytes.ofString (l ++ "\n")) := by
    rw [Host.terminal_onTerminal, if_pos ⟨rfl, h.bound⟩]
    rfl
  rw [hdeliver]
  exact
    { input := h.input
      terminal := h.terminal
      bound := hsize ▸ h.bound
      notTerminated := h.notTerminated
      plain := by
        intro m hm
        rcases List.mem_append.mp hm with hm | hm
        · exact h.plain m hm
        · exact List.mem_singleton.mp hm ▸ hl
      bytes := by
        rw [hinput, Bytes.toList_append, toList_line, ← List.append_assoc, h.bytes, List.flatMap_append,
          List.flatMap_singleton] }

/-- The input of the terminal is closed. -/
theorem close (h : a.Listens t rest) :
    Listens t { a with host := a.host.onTerminal t fun x => { x with input := x.input.close } } rest := by
  have hsize : (a.host.onTerminal t fun x => { x with input := x.input.close }).terminals.size = a.host.terminals.size :=
    Array.size_modify
  have hinput : ((a.host.onTerminal t fun x => { x with input := x.input.close }).terminal t).input.buffer
      = (a.host.terminal t).input.buffer := by
    rw [Host.terminal_onTerminal, if_pos ⟨rfl, h.bound⟩]
    rfl
  exact
    { input := h.input
      terminal := h.terminal
      bound := hsize ▸ h.bound
      notTerminated := h.notTerminated
      plain := h.plain
      bytes := by rw [hinput, h.bytes] }

theorem closed_close (h : a.Listens t rest) :
    Closed t { a with host := a.host.onTerminal t fun x => { x with input := x.input.close } } := by
  rw [Closed, Host.terminal_onTerminal, if_pos ⟨rfl, h.bound⟩]
  rfl

end Listens

/-- Something else happens: what the session reads is left as it was, and its termination is not requested. -/
structure Aside (t : Nat) (a a' : Access) : Prop where
  input : a'.own.input = a.own.input
  terminal : a'.own.resources.terminal = a.own.resources.terminal
  pending : a'.own.pending = a.own.pending
  pipe : (a'.host.terminal t).input = (a.host.terminal t).input
  bound : a.host.terminals.size ≤ a'.host.terminals.size
  notTerminated : a'.isTerminated = false

theorem Aside.listens {t : Nat} {a a' : Access} {rest : List String} (h : Aside t a a') (hlistens : a.Listens t rest) :
    a'.Listens t rest where
  input := h.input.trans hlistens.input
  terminal := h.terminal.trans hlistens.terminal
  bound := Nat.lt_of_lt_of_le hlistens.bound h.bound
  notTerminated := h.notTerminated
  plain := hlistens.plain
  bytes := by rw [h.pending, h.pipe, hlistens.bytes]

theorem Aside.closed {t : Nat} {a a' : Access} (h : Aside t a a') : a'.Closed t ↔ a.Closed t := by
  rw [Closed, Closed, h.pipe]

end Access

/-! ### What the script hears -/

/-- A script that reads from its terminal. -/
structure Hearing where
  access : Access
  /-- The lines that were delivered so far. -/
  told : List String := []
  /-- What the reads gave so far. -/
  heard : List Value := []

/-- What comes about when lines are delivered, the input is closed, the script looks, and other things happen, in any
order.  A read is some looks: there may be deliveries between them. -/
inductive Hears (t : Nat) (start : Access) : Hearing → Prop
  | start : Hears t start { access := start }
  | told {s : Hearing} (h : Hears t start s) (hopen : ¬ s.access.Closed t) {l : String} (hl : PlainLine l)
      (source : String) : Hears t start
        { s with access := { s.access with host := s.access.host.deliver t l source }, told := s.told ++ [l] }
  | closed {s : Hearing} (h : Hears t start s) : Hears t start
      { s with access := { s.access with
          host := s.access.host.onTerminal t fun x => { x with input := x.input.close } } }
  /-- A look is the last of a read. -/
  | found {s : Hearing} (h : Hears t start s) {v : Value} {a : Access} (hlook : s.access.look = (.found v, a)) :
      Hears t start { s with access := a, heard := s.heard ++ [v] }
  /-- The read goes on after a look. -/
  | looked {s : Hearing} (h : Hears t start s) {found : Look} {a : Access} (hlook : s.access.look = (found, a))
      (hmore : found = .again ∨ found = .later) : Hears t start { s with access := a }
  | elsewhere {s : Hearing} (h : Hears t start s) {a : Access} (haside : s.access.Aside t a) :
      Hears t start { s with access := a }

/-- What a read has to give: the line with its number, or nothing after the last. -/
def answer (told : List String) (n : Nat) : Value := (told[n]?).elim .nil lineValue

theorem answer_append {told : List String} {n : Nat} (h : n < told.length) (l : String) :
    answer (told ++ [l]) n = answer told n := by
  rw [answer, answer, List.getElem?_append_left h]

/-- There is an answer for the next read: a line that was not read, or the end. -/
def Hearing.Ready (t : Nat) (s : Hearing) : Prop := s.heard.length < s.told.length ∨ s.access.Closed t

/-- What is true all the time. -/
structure Hearing.Standing (t : Nat) (s : Hearing) : Prop where
  listens : s.access.Listens t (s.told.drop s.heard.length)
  heard : s.heard = (List.range s.heard.length).map (answer s.told)
  past : s.told.length < s.heard.length → s.access.Closed t

namespace Hearing.Standing

variable {t : Nat} {s : Hearing}

/-- While the input is open, no more was read than delivered. -/
theorem le_of_open (h : s.Standing t) (hopen : ¬ s.access.Closed t) : s.heard.length ≤ s.told.length :=
  Nat.le_of_not_lt fun hlt => hopen (h.past hlt)

theorem tell (h : s.Standing t) (hopen : ¬ s.access.Closed t) {l : String} (hl : PlainLine l) (source : String) :
    Standing t
      { s with access := { s.access with host := s.access.host.deliver t l source }, told := s.told ++ [l] } where
  listens := by
    have hle := h.le_of_open hopen
    simp only [List.drop_append_of_le_length hle]
    exact h.listens.deliver hl source
  heard := by
    have hle := h.le_of_open hopen
    refine h.heard.trans (List.map_congr_left ?_)
    intro n hn
    exact (answer_append (Nat.lt_of_lt_of_le (List.mem_range.mp hn) hle) l).symm
  past := by
    intro hlt
    have hlength : (s.told ++ [l]).length = s.told.length + 1 := List.length_append
    have hle := h.le_of_open hopen
    have hlt' : (s.told ++ [l]).length < s.heard.length := hlt
    omega

theorem close (h : s.Standing t) : Standing t { s with access := { s.access with
    host := s.access.host.onTerminal t fun x => { x with input := x.input.close } } } where
  listens := h.listens.close
  heard := h.heard
  past := fun _ => h.listens.closed_close

/-- The next of the answers was given. -/
theorem heard_append (h : s.Standing t) {v : Value} (hv : v = answer s.told s.heard.length) :
    s.heard ++ [v] = (List.range (s.heard ++ [v]).length).map (answer s.told) := by
  rw [List.length_append, List.length_singleton, List.range_succ, List.map_append, ← h.heard, hv]
  rfl

/-- What a read gives is the answer that it has to give. -/
theorem found (h : s.Standing t) {v : Value} {a : Access} (hlook : s.access.look = (.found v, a)) :
    v = answer s.told s.heard.length ∧ Standing t { s with access := a, heard := s.heard ++ [v] } := by
  have hsees := h.listens.sees_look
  have hlength : (s.heard ++ [v]).length = s.heard.length + 1 := List.length_append
  rw [hlook] at hsees
  generalize hrest : s.told.drop s.heard.length = rest at hsees
  cases hsees with
  | @line l rest _ hlistens _ =>
    have hget : s.told[s.heard.length]? = some l := by
      rw [← List.head?_drop, hrest]
      rfl
    have hdrop : s.told.drop (s.heard.length + 1) = rest := by
      rw [← List.tail_drop, hrest]
      rfl
    have hv : lineValue l = answer s.told s.heard.length := by
      rw [answer, hget]
      rfl
    obtain ⟨hless, -⟩ := List.getElem?_eq_some_iff.mp hget
    have hpast : ¬ s.told.length < (s.heard ++ [lineValue l]).length := by
      rw [hlength]
      omega
    exact ⟨hv, { listens := by rw [hlength, hdrop]; exact hlistens
                 heard := h.heard_append hv
                 past := fun hlt => absurd hlt hpast }⟩
  | ended hlistens hclosed _ =>
    have hle : s.told.length ≤ s.heard.length := List.drop_eq_nil_iff.mp hrest
    have hv : Value.nil = answer s.told s.heard.length := by
      rw [answer, List.getElem?_eq_none hle]
      rfl
    have hdrop : s.told.drop (s.heard.length + 1) = [] := List.drop_eq_nil_iff.mpr (Nat.le_succ_of_le hle)
    exact ⟨hv, { listens := by rw [hlength, hdrop]; exact hlistens
                 heard := h.heard_append hv
                 past := fun _ => hclosed }⟩

/-- A look that does not end a read changes nothing of this. -/
theorem looked (h : s.Standing t) {found : Look} {a : Access} (hlook : s.access.look = (found, a))
    (hmore : found = .again ∨ found = .later) : Standing t { s with access := a } := by
  have hsees := h.listens.sees_look
  have hkeep {rest : List String} (hrest : s.told.drop s.heard.length = rest) (hlistens : a.Listens t rest)
      (hclosed : s.access.Closed t → a.Closed t) : Standing t { s with access := a } :=
    { listens := hrest ▸ hlistens
      heard := h.heard
      past := fun hlt => hclosed (h.past hlt) }
  rw [hlook] at hsees
  generalize hrest : s.told.drop s.heard.length = rest at hsees
  cases hsees with
  | line hlistens hclosed => rcases hmore with hmore | hmore <;> cases hmore
  | more hlistens hclosed _ _ _ => exact hkeep hrest hlistens hclosed.mpr
  | ended hlistens hclosed _ => rcases hmore with hmore | hmore <;> cases hmore
  | nothing hlistens _ hbefore => exact hkeep hrest hlistens fun hclosed => absurd hclosed hbefore

theorem aside (h : s.Standing t) {a : Access} (haside : s.access.Aside t a) : Standing t { s with access := a } where
  listens := haside.listens h.listens
  heard := h.heard
  past := fun hlt => haside.closed.mpr (h.past hlt)

/-- When there is an answer, a look ends the read, or it finds more of the line. -/
theorem look_of_ready (h : s.Standing t) (hready : Ready t s) :
    (∃ v a, s.access.look = (.found v, a)) ∨
      ∃ a, s.access.look = (.again, a) ∧ Ready t { s with access := a } ∧ s.access.own.pending.size < Core.maxLine ∧
        s.access.own.pending.size < a.own.pending.size := by
  have hsees := h.listens.sees_look
  generalize s.access.look = seen at hsees ⊢
  generalize hrest : s.told.drop s.heard.length = rest at hsees
  cases hsees with
  | line => exact .inl ⟨_, _, rfl⟩
  | ended => exact .inl ⟨_, _, rfl⟩
  | more _ hclosed _ hshort hlonger => exact .inr ⟨_, rfl, hready.imp_right hclosed.mpr, hshort, hlonger⟩
  | nothing _ _ hbefore =>
    have hle : s.told.length ≤ s.heard.length := List.drop_eq_nil_iff.mp hrest
    exact absurd hready (not_or.mpr ⟨Nat.not_lt.mpr hle, hbefore⟩)

/-- When there is none, a look finds nothing yet. -/
theorem look_of_not_ready (h : s.Standing t) (hready : ¬ Ready t s) : ∃ a, s.access.look = (.later, a) := by
  obtain ⟨hle, hopen⟩ := not_or.mp hready
  have hsees := h.listens.sees_look
  rw [List.drop_eq_nil_iff.mpr (Nat.le_of_not_lt hle)] at hsees
  generalize s.access.look = seen at hsees ⊢
  cases hsees with
  | more _ _ hsome => exact absurd rfl hsome
  | ended _ _ hbefore => exact absurd hbefore hopen
  | nothing => exact ⟨_, rfl⟩

end Hearing.Standing

variable {t : Nat} {start : Access} {s : Hearing}

/-- What is true all the time, by induction on what came about. -/
theorem standing_of_hears (hstart : start.Listens t []) (h : Hears t start s) : s.Standing t := by
  induction h with
  | start =>
    exact
      { listens := hstart
        heard := rfl
        past := fun hlt => absurd hlt (Nat.lt_irrefl 0) }
  | told _ hopen hl source ih => exact ih.tell hopen hl source
  | closed _ ih => exact ih.close
  | found _ hlook ih => exact (ih.found hlook).2
  | looked _ hlook hmore ih => exact ih.looked hlook hmore
  | elsewhere _ haside ih => exact ih.aside haside

/-- A read gives its answer as soon as there is one: the bytes of the line come by and by. -/
theorem readLine_done (hstart : start.Listens t []) (heap : Heap) : ∀ (fuel : Nat) (s : Hearing), Hears t start s →
    s.Ready t → Core.maxLine ≤ fuel + s.access.own.pending.size →
    ∃ a, Core.readLine (fuel + 1) heap s.access = .done (answer s.told s.heard.length) heap a ∧
      Hears t start { s with access := a, heard := s.heard ++ [answer s.told s.heard.length] } := by
  intro fuel
  induction fuel with
  | zero =>
    intro s hs hready hlong
    have hstanding := standing_of_hears hstart hs
    rcases hstanding.look_of_ready hready with ⟨v, a, hlook⟩ | ⟨a, -, -, hshort, -⟩
    · obtain ⟨hv, -⟩ := hstanding.found hlook
      refine ⟨a, ?_, hv ▸ .found hs hlook⟩
      rw [readLine_succ, hlook, hv]
    · omega
  | succ fuel ih =>
    intro s hs hready hlong
    have hstanding := standing_of_hears hstart hs
    rcases hstanding.look_of_ready hready with ⟨v, a, hlook⟩ | ⟨a, hlook, hready', -, hlonger⟩
    · obtain ⟨hv, -⟩ := hstanding.found hlook
      refine ⟨a, ?_, hv ▸ .found hs hlook⟩
      rw [readLine_succ, hlook, hv]
    · obtain ⟨a', hdone, hhears⟩ := ih _ (.looked hs hlook (.inl rfl)) hready' (by show _ ≤ fuel + a.own.pending.size; omega)
      refine ⟨a', ?_, hhears⟩
      rw [readLine_succ, hlook]
      exact hdone

/-- What is true of a script that reads from its terminal. -/
structure Hearing.Faithful (t : Nat) (start : Access) (s : Hearing) : Prop where
  /-- The reads gave the lines in their order, each once, and then nothing. -/
  heard : s.heard = (List.range s.heard.length).map (answer s.told)
  /-- Nothing was given only after the input was closed. -/
  past : s.told.length < s.heard.length → s.access.Closed t
  /-- A read gives what it has to give, if there is a line that was not read or the input is closed. -/
  answers : s.Ready t → ∀ (heap : Heap) (fuel : Nat), Core.maxLine < fuel →
    ∃ a, Core.readLine fuel heap s.access = .done (answer s.told s.heard.length) heap a ∧
      Hears t start { s with access := a, heard := s.heard ++ [answer s.told s.heard.length] }
  /-- Else it waits, and looks again. -/
  waits : ¬ s.Ready t → ∀ (heap : Heap) (fuel : Nat),
    ∃ a, Core.readLine (fuel + 1) heap s.access
        = .wait a.own.poll (fun _ heap a => Core.readLine fuel heap a) heap a ∧
      Hears t start { s with access := a }

/-- **The script hears the lines** that were delivered to its terminal, in their order and each once, and nothing after
the last of them: wherever the deliveries fall between its looks, and whatever else happens. -/
theorem heard_of_hears (hstart : start.Listens t []) (h : Hears t start s) : s.Faithful t start := by
  have hstanding := standing_of_hears hstart h
  refine
    { heard := hstanding.heard
      past := hstanding.past
      answers := ?_
      waits := ?_ }
  · intro hready heap fuel hfuel
    cases fuel with
    | zero => cases hfuel
    | succ fuel => exact readLine_done hstart heap fuel s h hready (by omega)
  · intro hready heap fuel
    obtain ⟨a, hlook⟩ := hstanding.look_of_not_ready hready
    refine ⟨a, ?_, .looked h hlook (.inr rfl)⟩
    rw [readLine_succ, hlook]

/-- A session that reads from the only terminal there is. -/
def greeted : Access where
  host := { terminals := #[{}] }
  own := { resources := { id := 0, terminal := some 0 }, input := .terminal, output := .nowhere }

/-- A line is delivered and read, and then the input is closed and the script reads on. -/
theorem heard_of_hears_greeting : greeted.Listens 0 [] ∧ ∃ s, Hears 0 greeted s ∧ s.told = ["hello"] ∧
    s.heard = [lineValue "hello", .nil] ∧ s.Faithful 0 greeted := by
  have hgreeted : greeted.Listens 0 [] :=
    { input := rfl
      terminal := rfl
      bound := Nat.zero_lt_one
      notTerminated := rfl
      plain := fun l hl => absurd hl List.not_mem_nil
      bytes := rfl }
  have hopen : ¬ greeted.Closed 0 := Bool.false_ne_true
  have hello : PlainLine "hello" :=
    { noFeed := by decide
      noControl := by
        intro code rest heq
        have hfirst : some 'h' = some '^' := congrArg List.head? heq
        exact absurd hfirst (by decide)
      noReturn := by decide
      short := by decide }
  obtain ⟨s, hs, htold, hheard⟩ : ∃ s, Hears 0 greeted s ∧ s.told = ["hello"] ∧ s.heard = [] :=
    ⟨_, .told (s := { access := greeted }) .start hopen hello "guest", rfl, rfl⟩
  have hready : s.Ready 0 := .inl (by rw [htold, hheard]; decide)
  obtain ⟨a, -, hfirst⟩ := readLine_done hgreeted {} Core.maxLine s hs hready (Nat.le_add_right _ _)
  have hclosed := (standing_of_hears hgreeted hfirst).listens.closed_close
  obtain ⟨b, -, hsecond⟩ :=
    readLine_done hgreeted {} Core.maxLine _ hfirst.closed (.inr hclosed) (Nat.le_add_right _ _)
  refine ⟨hgreeted, _, hsecond, htold, ?_, heard_of_hears hgreeted hsecond⟩
  simp only [htold, hheard]
  rfl

end ScriptHost

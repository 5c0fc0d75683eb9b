import ScriptHost.Proofs.Script.Objects
import ScriptHost.Script.Execute

/-!
# What an activation sees

While a script function runs and calls nothing that runs a script, of the whole machine only the instruction, the
registers, the objects and the shared slots change.  `View` is this part; the rest of the machine is the one at the
function's beginning.

* `Machine.after` — a machine some steps later;
* `Machine.Reaches`, `Machine.Runs` — a machine comes to one with a property in at most so many steps, or to a certain one;
* `Machine.Exec` — from wherever an activation has a view, it comes to a machine with a property;
* **`Machine.Reaches.enter`**, **`Machine.Reaches.enterVararg`** — the view with which a function begins;
* `Machine.Reaches.stopped` — a call from the host stops with the answer.
-/

namespace ScriptHost.Script

namespace Machine

variable {σ : Type}

/-! ### Steps -/

section
variable [Inhabited σ]

/-- The next step of a machine; one that has stopped stays as it is. -/
def next (m : Machine σ) : Machine σ :=
  match m.control with
  | .execute => m.executeHooked
  | _ => m.advance

/-- A machine some steps later. -/
def after (m : Machine σ) : Nat → Machine σ
  | 0 => m
  | n + 1 => m.next.after n

/-- In at most `n` steps a machine comes to one with a property. -/
def Reaches (n : Nat) (m : Machine σ) (Q : Machine σ → Prop) : Prop := ∃ j, j ≤ n ∧ Q (m.after j)

/-- In `n` steps a machine comes to another one. -/
def Runs (n : Nat) (m m' : Machine σ) : Prop := m.after n = m'

variable {n : Nat} {m : Machine σ} {Q : Machine σ → Prop}

theorem after_add (i j : Nat) : m.after (i + j) = (m.after i).after j := by
  induction i generalizing m with
  | zero => rw [Nat.zero_add, after]
  | succ i ih =>
    rw [Nat.succ_add]
    exact ih

theorem Reaches.here (h : Q m) : Reaches n m Q := ⟨0, Nat.zero_le n, h⟩

theorem Reaches.trans {k : Nat} {R : Machine σ → Prop} (h : Reaches n m Q) (next : ∀ m', Q m' → Reaches k m' R) :
    Reaches (n + k) m R := by
  obtain ⟨i, hi, hQ⟩ := h
  obtain ⟨j, hj, hR⟩ := next _ hQ
  refine ⟨i + j, by omega, ?_⟩
  rw [after_add]
  exact hR

theorem Reaches.mono {k : Nat} (h : Reaches n m Q) (hle : n ≤ k) : Reaches k m Q := by
  obtain ⟨j, hj, hQ⟩ := h
  exact ⟨j, by omega, hQ⟩

theorem Reaches.imp {R : Machine σ → Prop} (h : Reaches n m Q) (himp : ∀ m', Q m' → R m') : Reaches n m R := by
  obtain ⟨j, hj, hQ⟩ := h
  exact ⟨j, hj, himp _ hQ⟩

theorem Reaches.step (h : Reaches n m.next Q) : Reaches (n + 1) m Q := by
  obtain ⟨j, hj, hQ⟩ := h
  exact ⟨j + 1, by omega, hQ⟩

theorem Reaches.executeHooked (hcontrol : m.control = .execute) (h : Reaches n m.executeHooked Q) :
    Reaches (n + 1) m Q := by
  refine Reaches.step ?_
  rwa [next, hcontrol]

/-- What happens between instructions. -/
def IsBetween : Control → Prop
  | .execute | .stopped _ => False
  | _ => True

theorem next_advance (hcontrol : IsBetween m.control) : m.next = m.advance := by
  rw [next]
  cases hc : m.control with
  | execute => exact (hc ▸ hcontrol).elim
  | _ => rfl

theorem Reaches.advance (hcontrol : IsBetween m.control) (h : Reaches n m.advance Q) : Reaches (n + 1) m Q := by
  refine Reaches.step ?_
  rwa [next_advance hcontrol]

theorem Runs.reaches {k : Nat} {m' : Machine σ} (h : Runs k m m') (next : Reaches n m' Q) : Reaches (k + n) m Q := by
  have hthere : Reaches k m fun m'' => m'' = m' := ⟨k, Nat.le_refl k, h⟩
  exact hthere.trans fun m'' heq => heq ▸ next

theorem Runs.advance (hcontrol : IsBetween m.control) : Runs 1 m m.advance := next_advance hcontrol

/-- A machine that has come to a stop runs to it. -/
theorem run_of_stopped {s : Stop} {fuel : Nat} (h : (m.after n).control = .stopped s) (hfuel : n < fuel) :
    m.run fuel = (some s, m.after n) := by
  obtain ⟨k, rfl⟩ : ∃ k, fuel = k + 1 := ⟨fuel - 1, by omega⟩
  induction n generalizing m k with
  | zero =>
    rw [after] at h ⊢
    rw [Machine.run, h]
  | succ n ih =>
    obtain ⟨k, rfl⟩ : ∃ k', k = k' + 1 := ⟨k - 1, by omega⟩
    have hnext := ih h k (by omega)
    rw [Machine.run]
    cases hcontrol : m.control with
    | stopped s' =>
      have hstays : m.next = m := by
        rw [next, hcontrol]
        show m.advance = m
        rw [Machine.advance, hcontrol]
      rw [hstays, Machine.run, hcontrol] at hnext
      rw [after, hstays]
      exact hnext
    | _ =>
      rw [next, hcontrol] at hnext
      rw [after, next, hcontrol]
      exact hnext

theorem Reaches.run {s : Stop} {fuel : Nat} (h : Reaches n m fun m' => m'.control = .stopped s ∧ Q m')
    (hfuel : n < fuel) : ∃ m', Q m' ∧ m.run fuel = (some s, m') := by
  obtain ⟨j, hj, hcontrol, hQ⟩ := h
  exact ⟨m.after j, hQ, run_of_stopped hcontrol (by omega)⟩

end

/-! ### Views -/

/-- What an activation sees and changes: the instruction to execute next, its registers, the extra arguments below
them, the end of the last results, the objects, and the slots that it shares with inner functions. -/
structure View where
  pc : Nat
  regs : List Value
  heap : Heap
  extras : List Value := []
  top : Nat := 0
  opened : List (Nat × Nat) := []

/-- The machine of an activation that has come to a view. -/
def seen (m : Machine σ) (v : View) (stack : Array Value) : Machine σ :=
  { m with
    stack, top := v.top, heap := v.heap, opened := v.opened, frame := { m.frame with pc := v.pc }, control := .execute }

/-- The registers and the extra arguments lie on the stack. -/
structure Holds (f : Frame) (v : View) (stack : Array Value) : Prop where
  room : f.base + v.regs.length ≤ stack.size
  fits : f.base + v.regs.length + nativeSlots + 1 ≤ maxSlots
  low : v.extras.length ≤ f.func ∧ f.func < f.base
  reg : ∀ i x, v.regs[i]? = some x → stack.getD (f.base + i) .nil = x
  extra : ∀ i x, v.extras[i]? = some x → stack.getD (f.func - v.extras.length + i) .nil = x

/-- The same machine with another count until the hook looks for an interrupt. -/
def counting (m : Machine σ) (k : Nat) : Machine σ := { m with countdown := k }

/-- The hook is there and finds that termination was requested. -/
structure HookFinds (m : Machine σ) : Prop where
  interval : m.interval ≠ 0
  thread : m.thread = 0
  hookOn : m.hookOn = true
  interrupted : m.interrupted m.host = true

/-- The hook has found that termination was requested and has interrupted the activation. -/
def Interrupted (m m' : Machine σ) : Prop :=
  HookFinds m ∧ ∃ k v stack, m' = ((m.counting k).seen v stack).interrupt

/-- The activation has nothing to close. -/
def Calm (m : Machine σ) : Prop := m.mustClose m.frame.base = false

/-- From wherever an activation has a view, it comes to a machine with a property, unless the hook interrupts it. -/
def Exec [Inhabited σ] (m : Machine σ) (n : Nat) (v : View) (Q : Machine σ → Prop) : Prop :=
  Calm m → ∀ k stack, Holds m.frame v stack → Reaches n ((m.counting k).seen v stack) fun m' => Q m' ∨ Interrupted m m'

section
variable {m : Machine σ} {v : View} {stack : Array Value}

theorem lt_length_of_getElem? {α : Type} {l : List α} {i : Nat} {x : α} (h : l[i]? = some x) : i < l.length :=
  (List.getElem?_eq_some_iff.mp h).1

theorem reg_seen (h : Holds m.frame v stack) {v' : View} {r : Nat} {x : Value} (hr : v.regs[r]? = some x) :
    (m.seen v' stack).reg r = x :=
  h.reg r x hr

theorem cell_closed {c : Nat} {x : Value} (h : m.heap.cells[c]? = some (.closed x)) : m.cell c = x := by
  rw [cell, h]

/-- Only the registers and the extra arguments count. -/
theorem Holds.with (h : Holds m.frame v stack) (pc : Nat) (heap : Heap) (top : Nat) (opened : List (Nat × Nat)) :
    Holds m.frame { v with pc, heap, top, opened } stack :=
  ⟨h.room, h.fits, h.low, h.reg, h.extra⟩

/-- Writing a register. -/
theorem Holds.setReg (h : Holds m.frame v stack) {r : Nat} (hr : r < v.regs.length) (x : Value) :
    Holds m.frame { v with regs := v.regs.set r x } (put stack (m.frame.base + r) x) where
  room := by
    rw [List.length_set, size_put]
    exact h.room
  fits := by
    rw [List.length_set]
    exact h.fits
  low := h.low
  reg i y hi := by
    have hroom := h.room
    rw [getD_put]
    by_cases hir : r = i
    · subst hir
      rw [if_pos ⟨rfl, by omega⟩]
      rw [List.getElem?_set_self hr] at hi
      exact Option.some.inj hi
    · rw [if_neg (by omega)]
      rw [List.getElem?_set_ne hir] at hi
      exact h.reg i y hi
  extra i y hi := by
    have hlt := lt_length_of_getElem? hi
    have hlow := h.low
    rw [getD_put, if_neg (by dsimp only at hlt ⊢; omega)]
    exact h.extra i y hi

/-- Consecutive registers hold these values. -/
def Slice (regs : List Value) (a : Nat) (xs : List Value) : Prop := (regs.drop a).take xs.length = xs

theorem Slice.le {regs : List Value} {a : Nat} {xs : List Value} (h : Slice regs a xs) :
    xs.length = 0 ∨ a + xs.length ≤ regs.length := by
  have hlength := congrArg List.length h
  rw [List.length_take, List.length_drop] at hlength
  omega

theorem Slice.getElem? {regs : List Value} {a i : Nat} {xs : List Value} (h : Slice regs a xs) (hi : i < xs.length) :
    regs[a + i]? = some xs[i] := by
  have hget : ((regs.drop a).take xs.length)[i]? = xs[i]? := congrArg (fun l : List Value => l[i]?) h
  rw [List.getElem?_take, if_pos hi, List.getElem?_drop, List.getElem?_eq_getElem hi] at hget
  exact hget

theorem slots_seen (h : Holds m.frame v stack) (v' : View) {a : Nat} {xs : List Value} (hxs : Slice v.regs a xs) :
    (m.seen v' stack).slots (m.frame.base + a) xs.length = xs.toArray := by
  have hroom := h.room
  have hle := hxs.le
  refine Array.ext ?_ fun i hi hi' => ?_
  · simp only [slots, seen, Array.size_extract, List.size_toArray]
    omega
  · rw [List.size_toArray] at hi'
    have hreg := h.reg (a + i) _ (hxs.getElem? hi')
    rw [Array.getD_eq_getD_getElem?, Array.getElem?_eq_getElem (by omega), Option.getD_some] at hreg
    simp only [slots, seen, Array.getElem_extract, List.getElem_toArray]
    rw [← hreg]
    simp only [Nat.add_assoc]

theorem lastFirst_seen (h : Holds m.frame v stack) {v' : View} (acc xs : List Value) (a : Nat) (hxs : Slice v.regs a xs) :
    lastFirst (m.seen v' stack) a xs.length acc = xs.reverse ++ acc := by
  induction xs generalizing a acc with
  | nil => rfl
  | cons x xs ih =>
    have hx : v.regs[a]? = some x := hxs.getElem? (i := 0) (Nat.succ_pos _)
    have hrest : Slice v.regs (a + 1) xs := by
      obtain ⟨hlt, hget⟩ := List.getElem?_eq_some_iff.mp hx
      rw [Slice, List.drop_eq_getElem_cons hlt, hget, List.length_cons, List.take_succ_cons] at hxs
      exact (List.cons.inj hxs).2
    rw [List.length_cons, lastFirst, ih _ _ hrest, reg_seen h hx, List.reverse_cons, List.append_assoc]
    rfl

/-- The value of an operand. -/
def operand? (f : Frame) (regs : List Value) : Operand → Option Value
  | .reg r => regs[r]?
  | .const k => some (f.proto.consts.getD k .nil)

theorem operand_seen {m : Machine σ} {stack : Array Value} (h : Holds m.frame v stack) {v' : View} {o : Operand}
    {x : Value} (ho : operand? m.frame v.regs o = some x) : (m.seen v' stack).operand o = x := by
  cases o with
  | reg r => exact reg_seen h ho
  | const k => exact Option.some.inj ho

/-- Where a test goes on: at the target of the jump that follows, or after it. -/
def target (f : Frame) (pc : Nat) (b k : Bool) : Nat :=
  if b == k then
    match f.proto.code.getD (pc + 1) default with
    | .jump offset => (((pc + 1 : Nat) : Int) + 1 + offset).toNat
    | _ => pc + 1
  else pc + 2

theorem branch_seen {m : Machine σ} (v : View) (stack : Array Value) (b k : Bool) :
    (m.seen { v with pc := v.pc + 1 } stack).branch b k = m.seen { v with pc := target m.frame v.pc b k } stack := by
  rw [Machine.branch, target]
  by_cases hb : (b == k) = true
  · rw [if_pos hb, if_pos hb]
    dsimp only [seen]
    cases m.frame.proto.code.getD (v.pc + 1) default <;> rfl
  · rw [if_neg hb, if_neg hb]
    rfl

end

section
variable [Inhabited σ] {m : Machine σ} {n : Nat} {v : View} {Q : Machine σ → Prop}

theorem Exec.mono {k : Nat} (h : Exec m n v Q) (hle : n ≤ k) : Exec m k v Q :=
  fun hcalm k stack hstack => (h hcalm k stack hstack).mono hle

theorem Exec.imp {R : Machine σ → Prop} (h : Exec m n v Q) (himp : ∀ m', Q m' → R m') : Exec m n v R :=
  fun hcalm k stack hstack => (h hcalm k stack hstack).imp fun m' => Or.imp_left (himp m')

/-- The hook counts on and lets the next instruction be executed, or it interrupts the activation. -/
theorem executeHooked_seen (m : Machine σ) (k : Nat) (v : View) (stack : Array Value) :
    ∃ k', ((m.counting k).seen v stack).executeHooked = ((m.counting k').seen v stack).execute ∨
      HookFinds m ∧ ((m.counting k).seen v stack).executeHooked = ((m.counting k').seen v stack).interrupt := by
  rw [Machine.executeHooked]
  split
  · exact ⟨k, .inl rfl⟩
  · rename_i hhook
    simp only [Bool.or_eq_true, beq_iff_eq, bne_iff_ne, Bool.not_eq_true', not_or, Decidable.not_not] at hhook
    split
    · cases hfound : m.interrupted m.host with
      | true =>
        exact ⟨m.interval, .inr ⟨⟨hhook.1.1, hhook.1.2, eq_true_of_ne_false hhook.2, hfound⟩, if_pos hfound⟩⟩
      | false => exact ⟨m.interval, .inl (if_neg (by rw [Bool.not_eq_true]; exact hfound))⟩
    · exact ⟨k - 1, .inl rfl⟩

/-- The next instruction. -/
theorem Exec.step {i : Instr} (hi : m.frame.proto.code.getD v.pc default = i)
    (h : Calm m → ∀ k stack, Holds (m.counting k).frame v stack →
      Reaches n (((m.counting k).seen { v with pc := v.pc + 1 } stack).dispatch i) fun m' => Q m' ∨ Interrupted m m') :
    Exec m (n + 1) v Q := by
  intro hcalm k stack hstack
  refine Reaches.executeHooked rfl ?_
  obtain ⟨k', hnext | ⟨hfinds, hinterrupt⟩⟩ := executeHooked_seen m k v stack
  · rw [hnext]
    have hdone := h hcalm k' stack hstack
    rwa [← hi] at hdone
  · rw [hinterrupt]
    exact Reaches.here (.inr ⟨hfinds, k', v, stack, rfl⟩)

/-- An instruction that writes no register. -/
theorem Exec.goes {i : Instr} (hi : m.frame.proto.code.getD v.pc default = i) (pc : Nat) (heap : Heap)
    (hx : ∀ k stack, Holds (m.counting k).frame v stack →
      ((m.counting k).seen { v with pc := v.pc + 1 } stack).dispatch i = (m.counting k).seen { v with pc, heap } stack)
    (next : Exec m n { v with pc, heap } Q) : Exec m (n + 1) v Q := by
  refine Exec.step hi fun hcalm k stack hstack => ?_
  rw [hx k stack hstack]
  exact next hcalm _ _ (hstack.with ..)

/-- An instruction that writes a register. -/
theorem Exec.writes {i : Instr} (hi : m.frame.proto.code.getD v.pc default = i) {r : Nat} (hr : r < v.regs.length)
    (x : Value) (pc : Nat) (heap : Heap)
    (hx : ∀ k stack, Holds (m.counting k).frame v stack →
      ((m.counting k).seen { v with pc := v.pc + 1 } stack).dispatch i
        = ((m.counting k).seen { v with pc, heap } stack).setReg r x)
    (next : Exec m n { v with pc, heap, regs := v.regs.set r x } Q) : Exec m (n + 1) v Q := by
  refine Exec.step hi fun hcalm k stack hstack => ?_
  rw [hx k stack hstack]
  exact next hcalm _ _ ((hstack.setReg hr x).with ..)

/-- Without a hook nothing interrupts an activation. -/
theorem Reaches.unhooked {m' : Machine σ} (h : Reaches n m' fun m'' => Q m'' ∨ Interrupted m m'') (hm : m.interval = 0) :
    Reaches n m' Q := by
  refine h.imp fun m'' hm'' => ?_
  rcases hm'' with hdone | ⟨hfinds, -⟩
  · exact hdone
  · exact absurd hm hfinds.interval

end

/-! ### Stacks -/

theorem exceeds_eq_false {m : Machine σ} {k : Nat} (h : k ≤ maxSlots) : m.exceeds k = false := by
  rw [exceeds, decide_eq_false (by omega), Bool.false_and]

theorem le_size_grown (stack : Array Value) (k : Nat) : k ≤ (grown stack k).size ∧ stack.size ≤ (grown stack k).size := by
  rw [grown]
  split
  · rw [Array.size_append, Array.size_replicate]
    omega
  · omega

theorem getD_grown (stack : Array Value) (k i : Nat) : (grown stack k).getD i .nil = stack.getD i .nil := by
  rw [grown]
  split
  · rw [Array.getD_eq_getD_getElem?, Array.getD_eq_getD_getElem?, Array.getElem?_append]
    split
    · rfl
    · rename_i hi
      rw [Array.getElem?_replicate, Array.getElem?_eq_none (by omega)]
      split <;> rfl
  · rfl

/-- Writing values one after the other. -/
theorem putAll_spec (vs : List Value) (stack : Array Value) (slot : Nat) (hroom : slot + vs.length ≤ stack.size) :
    let r := vs.foldl (fun (s : Array Value × Nat) v => (put s.1 s.2 v, s.2 + 1)) (stack, slot)
    r.1.size = stack.size ∧ (∀ i x, vs[i]? = some x → r.1.getD (slot + i) .nil = x) ∧
      ∀ i, i < slot → r.1.getD i .nil = stack.getD i .nil := by
  induction vs generalizing stack slot with
  | nil => exact ⟨rfl, fun i x h => absurd h nofun, fun i _ => rfl⟩
  | cons v rest ih =>
    rw [List.length_cons] at hroom
    obtain ⟨hsize, hin, hbelow⟩ := ih (put stack slot v) (slot + 1) (by rw [size_put]; omega)
    refine ⟨hsize.trans (size_put ..), fun i x h => ?_, fun i hi => ?_⟩
    · cases i with
      | zero =>
        refine (hbelow slot (Nat.lt_succ_self slot)).trans ?_
        rw [getD_put, if_pos ⟨rfl, by omega⟩]
        exact Option.some.inj h
      | succ i =>
        have hi := hin i x h
        rwa [Nat.add_assoc, Nat.add_comm 1] at hi
    · refine (hbelow i (by omega)).trans ?_
      rw [getD_put, if_neg (by omega)]

theorem writeAll_spec (stack : Array Value) (slot : Nat) (vs : Array Value) :
    slot + vs.size ≤ (writeAll stack slot vs).size ∧ stack.size ≤ (writeAll stack slot vs).size ∧
      (∀ i x, vs[i]? = some x → (writeAll stack slot vs).getD (slot + i) .nil = x) ∧
      ∀ i, i < slot → (writeAll stack slot vs).getD i .nil = stack.getD i .nil := by
  obtain ⟨hgrown, hkept⟩ := le_size_grown stack (slot + vs.size)
  obtain ⟨hsize, hin, hbelow⟩ := putAll_spec vs.toList (grown stack (slot + vs.size)) slot (by simpa using hgrown)
  have hwrite : writeAll stack slot vs = (vs.toList.foldl (fun (s : Array Value × Nat) v => (put s.1 s.2 v, s.2 + 1))
      (grown stack (slot + vs.size), slot)).1 := by
    rw [writeAll, Array.foldl_toList]
  rw [hwrite]
  refine ⟨by omega, by omega, fun i x h => hin i x (by simpa using h), fun i hi => ?_⟩
  rw [hbelow i hi, getD_grown]

theorem clear_spec (count : Nat) (stack : Array Value) (i : Nat) (hroom : i + count ≤ stack.size) :
    (clear stack i count).size = stack.size ∧ (∀ j, i ≤ j → j < i + count → (clear stack i count).getD j .nil = .nil) ∧
      ∀ j, j < i → (clear stack i count).getD j .nil = stack.getD j .nil := by
  induction count generalizing stack i with
  | zero => exact ⟨rfl, fun j h h' => by omega, fun j _ => rfl⟩
  | succ count ih =>
    obtain ⟨hsize, hin, hbelow⟩ := ih (put stack i .nil) (i + 1) (by rw [size_put]; omega)
    refine ⟨hsize.trans (size_put ..), fun j hj hj' => ?_, fun j hj => ?_⟩
    · by_cases hij : i = j
      · refine (hbelow j (by omega)).trans ?_
        rw [getD_put, if_pos ⟨hij, by omega⟩]
      · exact hin j (by omega) (by omega)
    · refine (hbelow j (by omega)).trans ?_
      rw [getD_put, if_neg (by omega)]

/-! ### Entering a function -/

/-- The parameters of a function that is called with some arguments. -/
def parameters (args : List Value) (count : Nat) : List Value :=
  (args ++ List.replicate count Value.nil).take count

theorem length_parameters (args : List Value) (count : Nat) : (parameters args count).length = count := by
  rw [parameters, List.length_take, List.length_append, List.length_replicate]
  omega

theorem getElem?_parameters {args : List Value} {count i : Nat} {x : Value} (h : (parameters args count)[i]? = some x) :
    args[i]? = some x ∨ args.length ≤ i ∧ x = .nil := by
  rw [parameters, List.getElem?_take] at h
  split at h
  · rw [List.getElem?_append] at h
    split at h
    · exact .inl h
    · rw [List.getElem?_replicate] at h
      split at h
      · exact .inr ⟨by omega, (Option.some.inj h).symm⟩
      · cases h
  · cases h

section
variable [Inhabited σ] {m : Machine σ} {n : Nat} {Q : Machine σ → Prop}

/-- The machine in a function that was called from some slot on. -/
def called (m : Machine σ) (c : Closure) (top depth : Nat) (yieldable : Bool) (finish : Finish) (argCount : Nat) :
    Machine σ :=
  { m with
    frame := {
      proto := c.proto, upvalues := c.upvalues, func := top, base := top + 1
      argCount := max argCount c.proto.paramCount, finish, depth := depth + 1, yieldable }
    control := .execute }

/-- The machine in a function that was called by a native one. -/
def entered (m : Machine σ) (c : Closure) (g : Native σ) (argCount : Nat) : Machine σ :=
  m.called c g.top g.depth g.yieldable .reply argCount

/-- What has to be so when a function is called. -/
structure CanEnter (m : Machine σ) (c : Closure) (g : Native σ) (argCount : Nat) : Prop where
  interval : m.interval = 0
  callers : ∃ rest, m.callers = .native g :: rest
  opened : m.opened = []
  closes : m.toClose = []
  depth : g.depth + 1 < maxDepth
  params : c.proto.paramCount ≤ c.proto.maxStack
  room : g.top + 2 * argCount + 2 * c.proto.maxStack + nativeSlots + 4 ≤ maxSlots

/-- The stack of a function that begins. -/
def stackFor (stack : Array Value) (base argCount : Nat) (p : Proto) : Array Value :=
  let stack := grown stack (base + max p.maxStack argCount)
  if argCount < p.paramCount then clear stack (base + argCount) (p.paramCount - argCount) else stack

/-- A function begins with some arguments, which lie on the stack above it. -/
structure Begins (f : Frame) (args : List Value) (stack : Array Value) : Prop where
  base : f.base = f.func + 1
  count : f.argCount = max args.length f.proto.paramCount
  params : f.proto.paramCount ≤ f.proto.maxStack
  room : f.base + f.argCount + f.proto.maxStack + nativeSlots + 2 ≤ maxSlots
  size : f.base + max f.proto.maxStack args.length ≤ stack.size
  param : ∀ i x, (parameters args f.proto.paramCount)[i]? = some x → stack.getD (f.base + i) .nil = x
  arg : ∀ i x, args[i]? = some x → stack.getD (f.base + i) .nil = x

/-- What holds of a whole list, place by place, holds at each place. -/
theorem eq_of_map_range {α β : Type} {f : Nat → β} {g : α → β} {xs : List α} (h : (List.range xs.length).map f = xs.map g)
    {i : Nat} {x : α} (hx : xs[i]? = some x) : f i = g x := by
  have hi := (List.getElem?_eq_some_iff.mp hx).1
  have hplace := congrArg (fun ys => ys[i]?) h
  simp only [List.getElem?_map, List.getElem?_range hi, hx, Option.map_some] at hplace
  exact Option.some.inj hplace

theorem lie_of_map {stack : Array Value} {base : Nat} {xs : List Value}
    (h : (List.range xs.length).map (fun i => stack.getD (base + i) .nil) = xs) (i : Nat) (x : Value) (hx : xs[i]? = some x) :
    stack.getD (base + i) .nil = x := eq_of_map_range (g := id) (by rw [h, List.map_id]) hx

omit [Inhabited σ] in
/-- A function begins when its arguments lie on the stack and there is room for its registers. -/
theorem begins_stackFor {f : Frame} {args : List Value} {stack : Array Value} (hbase : f.base = f.func + 1)
    (hcount : f.argCount = max args.length f.proto.paramCount) (hparams : f.proto.paramCount ≤ f.proto.maxStack)
    (hroom : f.base + f.argCount + f.proto.maxStack + nativeSlots + 2 ≤ maxSlots)
    (hargs : ∀ i x, args[i]? = some x → stack.getD (f.base + i) .nil = x) :
    Begins f args (stackFor stack f.base args.length f.proto) := by
  obtain ⟨hsize, -⟩ := le_size_grown stack (f.base + max f.proto.maxStack args.length)
  have hkept : ∀ i x, args[i]? = some x → (grown stack (f.base + max f.proto.maxStack args.length)).getD (f.base + i) .nil = x :=
    fun i x h => (getD_grown ..).trans (hargs i x h)
  rw [stackFor]
  by_cases hfew : args.length < f.proto.paramCount
  · rw [if_pos hfew]
    obtain ⟨hcleared, hnil, hbelow⟩ := clear_spec (f.proto.paramCount - args.length)
      (grown stack (f.base + max f.proto.maxStack args.length)) (f.base + args.length) (by omega)
    have hargs' : ∀ i x, args[i]? = some x → (clear (grown stack (f.base + max f.proto.maxStack args.length))
        (f.base + args.length) (f.proto.paramCount - args.length)).getD (f.base + i) .nil = x := fun i x h => by
      have hlt := lt_length_of_getElem? h
      rw [hbelow _ (by omega)]
      exact hkept i x h
    refine ⟨hbase, hcount, hparams, hroom, by omega, fun i x h => ?_, hargs'⟩
    have hlt := lt_length_of_getElem? h
    rw [length_parameters] at hlt
    rcases getElem?_parameters h with harg | ⟨hge, rfl⟩
    · exact hargs' i x harg
    · exact hnil _ (by omega) (by omega)
  · rw [if_neg hfew]
    refine ⟨hbase, hcount, hparams, hroom, hsize, fun i x h => ?_, hkept⟩
    have hlt := lt_length_of_getElem? h
    rw [length_parameters] at hlt
    rcases getElem?_parameters h with harg | ⟨hge, rfl⟩
    · exact hkept i x harg
    · omega

/-- The rest of the window of a function, which may hold anything. -/
def junk (stack : Array Value) (slot count : Nat) : List Value :=
  (List.range count).map fun i => stack.getD (slot + i) .nil

theorem getElem?_junk {stack : Array Value} {slot count i : Nat} {x : Value} (h : (junk stack slot count)[i]? = some x) :
    stack.getD (slot + i) .nil = x := by
  rw [junk, List.getElem?_map] at h
  cases hi : (List.range count)[i]? with
  | none =>
    rw [hi] at h
    cases h
  | some j =>
    rw [hi] at h
    obtain ⟨_, hj⟩ := List.getElem?_eq_some_iff.mp hi
    rw [List.getElem_range] at hj
    rw [hj]
    exact Option.some.inj h

theorem length_junk (stack : Array Value) (slot count : Nat) : (junk stack slot count).length = count := by
  rw [junk, List.length_map, List.length_range]

/-- Values that are written above a register lie in the registers after it. -/
theorem holds_writeAll {f : Frame} (stack : Array Value) (k : Nat) (vs : List Value) (pc : Nat) (heap : Heap) (top : Nat)
    (opened : List (Nat × Nat)) (hbase : f.func < f.base) (hroom : f.base + k + vs.length + nativeSlots + 2 ≤ maxSlots) :
    Holds f ⟨pc, junk stack f.base k ++ stack.getD (f.base + k) .nil :: vs, heap, [], top, opened⟩
      (writeAll stack (f.base + k + 1) vs.toArray) := by
  have hlength : (junk stack f.base k).length = k := length_junk ..
  obtain ⟨hsize, -, hin, hbelow⟩ := writeAll_spec stack (f.base + k + 1) vs.toArray
  rw [List.size_toArray] at hsize
  refine ⟨?_, ?_, ⟨Nat.zero_le _, hbase⟩, fun i x hi => ?_, fun i x hi => absurd hi nofun⟩
  · dsimp only
    rw [List.length_append, hlength, List.length_cons]
    omega
  · dsimp only
    rw [List.length_append, hlength, List.length_cons]
    omega
  · dsimp only at hi ⊢
    rw [List.getElem?_append] at hi
    split at hi
    · rw [hbelow _ (by omega)]
      exact getElem?_junk hi
    · rename_i hafter
      rw [hlength] at hafter hi
      obtain ⟨j, rfl⟩ : ∃ j, i = k + j := ⟨i - k, by omega⟩
      rw [Nat.add_sub_cancel_left] at hi
      cases j with
      | zero =>
        rw [hbelow _ (by omega), Nat.add_zero]
        exact Option.some.inj hi
      | succ j =>
        rw [← hin j x (by simpa using hi)]
        congr 1
        omega

omit [Inhabited σ] in
/-- The registers of a function with a fixed number of parameters, when it begins. -/
theorem Begins.holds {f : Frame} {args : List Value} {stack : Array Value} (h : Begins f args stack) (pc : Nat) (heap : Heap)
    (top : Nat) (opened : List (Nat × Nat)) :
    Holds f ⟨pc, parameters args f.proto.paramCount
      ++ junk stack (f.base + f.proto.paramCount) (f.proto.maxStack - f.proto.paramCount), heap, [], top, opened⟩ stack := by
  obtain ⟨hbase, hcount, hparams, hroom, hsize, hparam, -⟩ := h
  have hlength : (parameters args f.proto.paramCount
      ++ junk stack (f.base + f.proto.paramCount) (f.proto.maxStack - f.proto.paramCount)).length = f.proto.maxStack := by
    rw [List.length_append, length_parameters, length_junk]
    omega
  refine ⟨?_, ?_, ?_, fun i x hi => ?_, fun i x hi => absurd hi nofun⟩
  · dsimp only
    omega
  · dsimp only
    omega
  · exact ⟨Nat.zero_le _, by omega⟩
  · dsimp only at hi
    rw [List.getElem?_append] at hi
    split at hi
    · exact hparam i x hi
    · rename_i hge
      rw [length_parameters] at hge hi
      have hjunk := getElem?_junk hi
      rwa [Nat.add_assoc, Nat.add_sub_cancel' (by omega)] at hjunk

/-- The machine of a function that has set its extra arguments aside. -/
def aside (m : Machine σ) : Machine σ :=
  { m with frame := { m.frame with
    func := m.frame.func + m.frame.argCount + 1, base := m.frame.func + m.frame.argCount + 2
    extra := m.frame.argCount - m.frame.proto.paramCount } }

omit [Inhabited σ] in
/-- A function with a variable number of arguments moves above all of them, together with its parameters. -/
theorem Begins.setAside {args : List Value} {stack : Array Value} (h : Begins m.frame args stack) :
    ∃ stack' junk, junk.length = m.frame.proto.maxStack - m.frame.proto.paramCount ∧
      (∀ pc heap top opened, Holds m.aside.frame ⟨pc, parameters args m.frame.proto.paramCount ++ junk, heap,
        args.drop m.frame.proto.paramCount, top, opened⟩ stack') ∧
      ∀ v v' : View, v'.pc = v.pc → v'.heap = v.heap → v'.top = v.top → v'.opened = v.opened →
        ∀ k, ((m.counting k).seen v stack).setAside = (m.aside.counting k).seen v' stack' := by
  obtain ⟨hbase, hcount, hparams, hroom, hsize, hparam, harg⟩ := h
  obtain ⟨f, hf⟩ : ∃ f, m.frame = f := ⟨_, rfl⟩
  rw [hf] at hbase hcount hparams hroom hsize hparam harg ⊢
  have hslots : (stack.extract f.func (f.func + (f.proto.paramCount + 1))).size = f.proto.paramCount + 1 := by
    rw [Array.size_extract]
    omega
  obtain ⟨hmovedSize, hmovedKept, hmoved, hbelow⟩ := writeAll_spec
    (grown stack (f.func + f.argCount + 1 + 1 + f.proto.maxStack)) (f.func + f.argCount + 1)
    (stack.extract f.func (f.func + (f.proto.paramCount + 1)))
  obtain ⟨hgrown, -⟩ := le_size_grown stack (f.func + f.argCount + 1 + 1 + f.proto.maxStack)
  refine ⟨writeAll (grown stack (f.func + f.argCount + 1 + 1 + f.proto.maxStack)) (f.func + f.argCount + 1)
    (stack.extract f.func (f.func + (f.proto.paramCount + 1))), junk (writeAll
    (grown stack (f.func + f.argCount + 1 + 1 + f.proto.maxStack)) (f.func + f.argCount + 1)
    (stack.extract f.func (f.func + (f.proto.paramCount + 1)))) (f.func + f.argCount + 2 + f.proto.paramCount)
    (f.proto.maxStack - f.proto.paramCount), length_junk .., fun pc heap top opened => ?_, fun v v' hpc hheap htop hopened k => ?_⟩
  · generalize writeAll (grown stack (f.func + f.argCount + 1 + 1 + f.proto.maxStack)) (f.func + f.argCount + 1)
      (stack.extract f.func (f.func + (f.proto.paramCount + 1))) = stack' at hmovedSize hmovedKept hmoved hbelow
    have hlength : (parameters args f.proto.paramCount ++ junk stack'
        (f.func + f.argCount + 2 + f.proto.paramCount) (f.proto.maxStack - f.proto.paramCount)).length = f.proto.maxStack := by
      rw [List.length_append, length_parameters, length_junk]
      omega
    simp only [aside, hf]
    refine ⟨?_, ?_, ⟨?_, Nat.lt_succ_self _⟩, fun i x hi => ?_, fun i x hi => ?_⟩
    · dsimp only
      omega
    · dsimp only
      omega
    · dsimp only
      rw [List.length_drop]
      omega
    · dsimp only at hi ⊢
      rw [List.getElem?_append] at hi
      split at hi
      · rename_i hlt
        rw [length_parameters] at hlt
        have hvalue := hparam i x hi
        have hslot : (stack.extract f.func (f.func + (f.proto.paramCount + 1)))[i + 1]? = some x := by
          rw [Array.getD_eq_getD_getElem?, Array.getElem?_eq_getElem (by omega), Option.getD_some] at hvalue
          rw [Array.getElem?_extract, if_pos (by omega), show f.func + (i + 1) = f.base + i by omega,
            Array.getElem?_eq_getElem (by omega), hvalue]
        have hput := hmoved (i + 1) x hslot
        rwa [show f.func + f.argCount + 1 + (i + 1) = f.func + f.argCount + 2 + i by omega] at hput
      · rename_i hge
        rw [length_parameters] at hge hi
        have hjunk := getElem?_junk hi
        rwa [show f.func + f.argCount + 2 + f.proto.paramCount + (i - f.proto.paramCount)
          = f.func + f.argCount + 2 + i by omega] at hjunk
    · dsimp only at hi ⊢
      have hlt := lt_length_of_getElem? hi
      rw [List.getElem?_drop] at hi
      rw [List.length_drop] at hlt ⊢
      have hvalue := harg (f.proto.paramCount + i) x hi
      rw [hbelow _ (by omega), getD_grown, ← hvalue]
      congr 1
      omega
  · have hfits : ((m.counting k).seen v stack).exceeds (f.base + f.argCount + f.proto.maxStack + 1) = false := exceeds_eq_false (by omega)
    obtain ⟨pc, regs, heap, extras, top, opened⟩ := v
    obtain ⟨pc', regs', heap', extras', top', opened'⟩ := v'
    dsimp only at hpc hheap htop hopened
    subst hpc hheap htop hopened hf
    rw [Machine.setAside]
    exact if_neg fun hexceeds => Bool.false_ne_true (hfits.symm.trans hexceeds)

/-- A function with a variable number of arguments begins; the hook may interrupt it before and after it has set the extra
ones aside. -/
theorem Reaches.begins (count : Nat) {args : List Value} {stack : Array Value} {k : Nat} {heap : Heap} {top : Nat}
    {opened : List (Nat × Nat)} (hbegins : Begins m.frame args stack)
    (hcode : m.frame.proto.code.getD 0 default = .varargPrep k) (hcalm : Calm m.aside)
    (h : ∀ junk : List Value, junk.length = m.frame.proto.maxStack - m.frame.proto.paramCount →
      Exec m.aside n ⟨1, parameters args m.frame.proto.paramCount ++ junk, heap, args.drop m.frame.proto.paramCount, top,
        opened⟩ Q) :
    Reaches (n + 1) ((m.counting count).seen ⟨0, [], heap, [], top, opened⟩ stack)
      fun m' => (Q m' ∨ Interrupted m.aside m') ∨ Interrupted m m' := by
  obtain ⟨stack', junk, hjunk, hholds, haside⟩ := hbegins.setAside
  refine Reaches.executeHooked rfl ?_
  obtain ⟨count', hnext | ⟨hfinds, hinterrupt⟩⟩ := executeHooked_seen m count ⟨0, [], heap, [], top, opened⟩ stack
  · have hprepared : ((m.counting count').seen ⟨0, [], heap, [], top, opened⟩ stack).execute
        = (m.aside.counting count').seen ⟨1, parameters args m.frame.proto.paramCount ++ junk, heap,
          args.drop m.frame.proto.paramCount, top, opened⟩ stack' := by
      show dispatch _ (m.frame.proto.code.getD 0 default) = _
      rw [hcode]
      exact haside ⟨1, [], heap, [], top, opened⟩ ⟨1, _, heap, _, top, opened⟩ rfl rfl rfl rfl count'
    rw [hnext, hprepared]
    exact (h junk hjunk hcalm count' stack' (hholds ..)).imp fun _ => .inl
  · rw [hinterrupt]
    exact Reaches.here (.inr ⟨hfinds, count', _, stack, rfl⟩)

/-- Whether a thread may yield in a function that is called: never while a failure is handled. -/
def mayYield : Finish → Bool → Bool
  | .handled, _ => false
  | _, yieldable => yieldable

/-- Calling a function of the script for the innermost waiting activation. -/
theorem enter_closure {id top depth : Nat} {yieldable : Bool} {args : Array Value} {c : Closure}
    (hinner : m.innermost = (top, depth, yieldable)) (hdepth : depth + 1 < maxDepth)
    (hclosure : m.heap.closures[id]? = some c) (hroom : top + 1 + args.size + c.proto.maxStack ≤ maxSlots) (finish : Finish)
    (regs extras : List Value) :
    m.enter (.closure id) args finish
      = (m.called c top depth (mayYield finish yieldable) finish args.size).seen
          ⟨0, regs, m.heap, extras, m.top, m.opened⟩
          (stackFor (writeAll m.stack (top + 1) args) (top + 1) args.size c.proto) := by
  have hneeded : m.needed id = c.proto.maxStack := by rw [needed, hclosure]
  have hdeep : ¬ maxHandlerDepth ≤ depth + 1 := by
    have : maxDepth ≤ maxHandlerDepth := by decide
    omega
  have hlimit : ¬ (depth + 1 == maxDepth) = true := by
    rw [beq_iff_eq]
    omega
  have hfits : m.exceeds (top + 1 + args.size + m.needed id) = false := exceeds_eq_false (by omega)
  simp only [Machine.enter, hinner, if_neg hdeep, hlimit]
  rw [maxCallChain, callable]
  simp only [hfits]
  simp only [enterScript, hclosure, seen, called, stackFor, Bool.false_eq_true, if_false]
  cases finish <;> rfl

section
variable {id : Nat} {args : Array Value} {c : Closure} {g : Native σ} (hcan : CanEnter m c g args.size)
include hcan

omit [Inhabited σ] in
/-- The arguments of a function that a native one calls. -/
theorem begins_entered (stack : Array Value) :
    Begins (m.entered c g args.size).frame args.toList
      (stackFor (writeAll stack (g.top + 1) args) (g.top + 1) args.size c.proto) := by
  obtain ⟨-, -, hargs, -⟩ := writeAll_spec stack (g.top + 1) args
  have hparams := hcan.params
  have hroom := hcan.room
  refine begins_stackFor rfl rfl hparams ?_ fun i x hi => hargs i x (by simpa using hi)
  show g.top + 1 + max args.size c.proto.paramCount + c.proto.maxStack + nativeSlots + 2 ≤ maxSlots
  omega

theorem advance_enter (hcontrol : m.control = .enter (.closure id) args .reply)
    (hclosure : m.heap.closures[id]? = some c) (regs : List Value) :
    m.advance = (m.entered c g args.size).seen { pc := 0, regs, heap := m.heap, top := m.top }
      (stackFor (writeAll m.stack (g.top + 1) args) (g.top + 1) args.size c.proto) := by
  obtain ⟨hinterval, ⟨rest, hcallers⟩, hopened, hcloses, hdepth, hparams, hroom⟩ := hcan
  have hinner : m.innermost = (g.top, g.depth, g.yieldable) := by rw [innermost, hcallers]
  have hfits : g.top + 1 + args.size + c.proto.maxStack ≤ maxSlots := by omega
  have henter := enter_closure hinner hdepth hclosure hfits .reply regs []
  rw [hopened] at henter
  simp only [Machine.advance, hcontrol]
  exact henter

/-- A function with a fixed number of parameters begins. -/
theorem Reaches.enter (hcontrol : m.control = .enter (.closure id) args .reply)
    {heap : Heap} (hheap : m.heap = heap) (hclosure : heap.closures[id]? = some c)
    (h : ∀ junk : List Value, junk.length = c.proto.maxStack - c.proto.paramCount →
      Exec (m.entered c g args.size) n
        { pc := 0, regs := parameters args.toList c.proto.paramCount ++ junk, heap, top := m.top } Q) :
    Reaches (n + 1) m Q := by
  subst hheap
  have hcalm : Calm (m.entered c g args.size) := by
    rw [Calm, mustClose, show (m.entered c g args.size).toClose = [] from hcan.closes]
  refine Reaches.advance (by rw [hcontrol]; trivial) ?_
  rw [advance_enter hcan hcontrol hclosure]
  exact (h _ (length_junk ..) hcalm m.countdown _ ((begins_entered hcan m.stack).holds ..)).unhooked hcan.interval

/-- A function with a variable number of arguments begins. -/
theorem Reaches.enterVararg {k : Nat} (hcontrol : m.control = .enter (.closure id) args .reply)
    {heap : Heap} (hheap : m.heap = heap) (hclosure : heap.closures[id]? = some c)
    (hcode : c.proto.code.getD 0 default = .varargPrep k)
    (h : ∀ junk : List Value, junk.length = c.proto.maxStack - c.proto.paramCount →
      Exec (m.entered c g args.size).aside n
        { pc := 1, regs := parameters args.toList c.proto.paramCount ++ junk, heap, top := m.top
          extras := args.toList.drop c.proto.paramCount } Q) : Reaches (n + 2) m Q := by
  subst hheap
  have hcalm : Calm (m.entered c g args.size).aside := by
    rw [Calm, mustClose, show (m.entered c g args.size).aside.toClose = [] from hcan.closes]
  refine Reaches.advance (by rw [hcontrol]; trivial) ?_
  rw [advance_enter hcan hcontrol hclosure []]
  have hbegun := Reaches.begins m.countdown (begins_entered hcan m.stack) hcode hcalm h
  exact (hbegun.unhooked (m := m.entered c g args.size) hcan.interval).unhooked (m := (m.entered c g args.size).aside) hcan.interval

end

end

/-! ### Calls from the host -/

theorem start_heap (m : Machine σ) (f : Value) (args : Array Value) : (m.start f args).heap = m.heap := rfl

/-- The machine whose innermost waiting activation is to be answered. -/
def Answers (m : Machine σ) (h : Heap) (r : Reply) (m' : Machine σ) : Prop :=
  ∃ stack top frame countdown, m' = { m with heap := h, stack, top, frame, countdown, opened := [], control := .answer r }

section
variable [Inhabited σ] {m : Machine σ} {n : Nat} {Q : Machine σ → Prop}

/-- What calls from the host leave alone: all but the objects and what belongs to the call. -/
structure SameBeside (m m' : Machine σ) : Prop where
  host : m'.host = m.host
  hosts : m'.hosts = m.hosts
  interrupted : m'.interrupted = m.interrupted
  interval : m'.interval = m.interval
  parked : m'.parked = m.parked

omit [Inhabited σ] in
theorem SameBeside.trans {m₁ m₂ m₃ : Machine σ} (h : SameBeside m₁ m₂) (h' : SameBeside m₂ m₃) : SameBeside m₁ m₃ :=
  ⟨h'.host.trans h.host, h'.hosts.trans h.hosts, h'.interrupted.trans h.interrupted, h'.interval.trans h.interval,
    h'.parked.trans h.parked⟩

/-- How a machine stops with an answer. -/
def stopOf : Reply → Stop
  | .values vs => .returned vs
  | .failed x => .failed x

/-- A call from the host that is answered is over. -/
theorem Reaches.stopped {f : Value} {args : Array Value} {P : Heap → Reply → Prop}
    (hcall : Reaches n (m.start f args) fun m' => ∃ h r, P h r ∧ Answers (m.start f args) h r m') :
    Reaches (n + 1) (m.start f args) fun m' =>
      ∃ r, m'.control = .stopped (stopOf r) ∧ P m'.heap r ∧ SameBeside m m' := by
  refine hcall.trans fun m' ⟨h, r, hP, stack, top, frame, countdown, hm'⟩ => ?_
  subst hm'
  refine Reaches.advance trivial (Reaches.here ⟨r, ?_⟩)
  cases r <;> exact ⟨rfl, hP, rfl, rfl, rfl, rfl, rfl⟩

end

end Machine

end ScriptHost.Script


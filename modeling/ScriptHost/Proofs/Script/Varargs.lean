import ScriptHost.Proofs.Script.Calls

/-!
# Any number of values

A function with a variable number of arguments copies all the extra ones, calls other functions with them and returns them.

* `seen_running`, `extras_seen`, `Holds.showing` — a running function, its extra arguments, and what lies below it;
* **`Exec.varargs`** — copying all of them, and `Exec.varargs_overflow`, when there is no room for the copy;
* `Exec.performs`, `Exec.leavesAll` — calling a native function with a number of values that is known only then, and
  returning them;
* `Exec.getShared` — a variable that the function shares with one that waits;
* `Exec.replaced` — calling a value in place of the running function.
-/

namespace ScriptHost.Script

namespace Machine

section
variable {σ : Type} {m : Machine σ} {v : View} {stack : Array Value}

/-- A function that is running sees itself. -/
theorem seen_running (hcontrol : m.control = .execute) (hpc : m.frame.pc = v.pc) (hheap : m.heap = v.heap) (htop : m.top = v.top)
    (hopened : m.opened = v.opened) : (m.counting m.countdown).seen v m.stack = m := by
  cases m
  cases hcontrol
  cases v
  dsimp only at hpc hheap htop hopened
  subst hpc hheap htop hopened
  rfl

theorem extras_seen (h : Holds m.frame v stack) (v' : View) :
    (m.seen v' stack).slots (m.frame.func - v.extras.length) v.extras.length = v.extras.toArray := by
  have hroom := h.room
  have hlow := h.low
  refine Array.ext ?_ fun i hi hi' => ?_
  · simp only [slots, seen, Array.size_extract, List.size_toArray]
    omega
  · rw [List.size_toArray] at hi'
    have hextra := h.extra i _ (List.getElem?_eq_getElem hi')
    rw [Array.getD_eq_getD_getElem?, Array.getElem?_eq_getElem (by omega), Option.getD_some] at hextra
    simp only [slots, seen, Array.getElem_extract, List.getElem_toArray]
    exact hextra

/-- Writing values above the first registers. -/
theorem Holds.writes (h : Holds m.frame v stack) {a : Nat} (ha : a ≤ v.regs.length) (xs : List Value)
    (hfits : m.frame.base + a + xs.length + nativeSlots + 1 ≤ maxSlots) (pc : Nat) (heap : Heap) (top : Nat)
    (opened : List (Nat × Nat)) :
    Holds m.frame ⟨pc, v.regs.take a ++ xs, heap, v.extras, top, opened⟩ (writeAll stack (m.frame.base + a) xs.toArray) := by
  obtain ⟨hsize, -, hin, hbelow⟩ := writeAll_spec stack (m.frame.base + a) xs.toArray
  have hlength : (v.regs.take a ++ xs).length = a + xs.length := by
    rw [List.length_append, List.length_take_of_le ha]
  have hlow := h.low
  refine ⟨?_, ?_, hlow, fun i x hi => ?_, fun i x hi => ?_⟩
  · rw [List.size_toArray] at hsize
    dsimp only
    omega
  · dsimp only
    omega
  · dsimp only at hi
    rw [List.getElem?_append, List.length_take_of_le ha] at hi
    split at hi
    · rename_i hlt
      rw [List.getElem?_take, if_pos hlt] at hi
      rw [hbelow _ (by omega)]
      exact h.reg i x hi
    · rename_i hge
      obtain ⟨j, rfl⟩ : ∃ j, i = a + j := ⟨i - a, by omega⟩
      rw [Nat.add_sub_cancel_left] at hi
      rw [← Nat.add_assoc]
      exact hin j x (by simpa using hi)
  · have hlt := lt_length_of_getElem? hi
    dsimp only at hlt hi ⊢
    rw [hbelow _ (by omega)]
    exact h.extra i x hi

/-- What lies below a function that set no arguments aside can be seen too. -/
theorem Holds.showing {f : Frame} {stack : Array Value} (h : Holds f v stack) {s : Nat} (hs : s ≤ f.func) :
    Holds f { v with extras := junk stack s (f.func - s) } stack := by
  have hlength : (junk stack s (f.func - s)).length = f.func - s := length_junk ..
  refine ⟨h.room, h.fits, ⟨?_, h.low.2⟩, h.reg, fun i x hi => ?_⟩
  · dsimp only
    omega
  · have hvalue := getElem?_junk hi
    dsimp only
    rwa [hlength, Nat.sub_sub_self hs]

end

section
variable {σ : Type} [Inhabited σ] {m : Machine σ} {n pc top : Nat} {regs extras : List Value} {heap : Heap}
  {opened : List (Nat × Nat)} {Q : Machine σ → Prop}

/-- Copying all extra arguments. -/
theorem Exec.varargs {a : Nat} (hi : m.frame.proto.code.getD pc default = .vararg a 0)
    (hextra : m.frame.extra = extras.length) (ha : a ≤ regs.length) (hlow : a ≤ m.frame.proto.maxStack)
    (hroom : m.frame.base + m.frame.proto.maxStack + extras.length + nativeSlots + 1 ≤ maxSlots)
    (next : Exec m n ⟨pc + 1, regs.take a ++ extras, heap, extras, m.frame.base + a + extras.length, opened⟩ Q) :
    Exec m (n + 1) ⟨pc, regs, heap, extras, top, opened⟩ Q := by
  refine Exec.step hi fun hcalm count stack hstack => ?_
  have hslots := extras_seen hstack ⟨pc + 1, regs, heap, extras, top, opened⟩
  have hcopy : m.frame.base + a + extras.length + nativeSlots + 1 ≤ maxSlots := by omega
  have hfits : ((m.counting count).seen ⟨pc + 1, regs, heap, extras, top, opened⟩ stack).exceeds
      (m.frame.base + m.frame.proto.maxStack + m.frame.extra) = false := exceeds_eq_false (by omega)
  have hcopied : ((m.counting count).seen ⟨pc + 1, regs, heap, extras, top, opened⟩ stack).dispatch (.vararg a 0)
      = (m.counting count).seen ⟨pc + 1, regs.take a ++ extras, heap, extras, m.frame.base + a + extras.length, opened⟩
          (writeAll stack (m.frame.base + a) extras.toArray) := by
    have hplaced := congrArg (fun vs : Array Value =>
      ((m.counting count).seen ⟨pc + 1, regs, heap, extras, top, opened⟩ stack).place (m.frame.base + a) none vs) hslots
    dsimp only at hplaced
    rw [← hextra] at hplaced
    rw [dispatch]
    refine (if_pos rfl).trans ((if_neg fun hexceeds => Bool.false_ne_true (hfits.symm.trans hexceeds)).trans ?_)
    refine hplaced.trans ?_
    rw [place, List.size_toArray]
    rfl
  rw [hcopied]
  exact next hcalm _ _ (hstack.writes ha extras hcopy _ _ _ _)

/-- There is no room: a text is raised, or goes past all handlers. -/
def Overflows (m m' : Machine σ) : Prop :=
  ∃ f text, m'.callers = .script f :: m.callers ∧ (m'.control = .raise (.str text) ∨ m'.control = .unwind (.str text))

omit [Inhabited σ] in
theorem overflow_seen (v : View) (stack : Array Value) : Overflows m (m.seen v stack).overflow := by
  rw [overflow]
  split
  · exact ⟨_, _, rfl, .inr rfl⟩
  · exact ⟨_, _, rfl, .inl rfl⟩

/-- Copying more extra arguments than there is room for. -/
theorem Exec.varargs_overflow {a : Nat} (hi : m.frame.proto.code.getD pc default = .vararg a 0)
    (hroom : maxSlots + spareSlots < m.frame.base + m.frame.proto.maxStack + m.frame.extra) :
    Exec m (n + 1) ⟨pc, regs, heap, extras, top, opened⟩ (Overflows m) := by
  refine Exec.step hi fun _ count stack hstack => Reaches.here (.inl ?_)
  have hexceeds : ((m.counting count).seen ⟨pc + 1, regs, heap, extras, top, opened⟩ stack).exceeds
      (m.frame.base + m.frame.proto.maxStack + m.frame.extra) = true := by
    rw [exceeds, decide_eq_true (by omega), decide_eq_true hroom, Bool.or_true, Bool.and_true]
  have hover : ((m.counting count).seen ⟨pc + 1, regs, heap, extras, top, opened⟩ stack).dispatch (.vararg a 0)
      = ((m.counting count).seen ⟨pc + 1, regs, heap, extras, top, opened⟩ stack).overflow := by
    rw [dispatch]
    exact (if_pos rfl).trans (if_pos hexceeds)
  rw [hover]
  exact overflow_seen (m := m.counting count) _ _

/-- Calling a native function, also with all the values from a register up. -/
theorem Exec.performs (args : List Value) {a b wanted : Nat} {r : NativeRef}
    (hi : m.frame.proto.code.getD pc default = .call a b wanted) (hr : regs[a]? = some (.native r))
    (hargs : Slice regs (a + 1) args) (hcount : (if b = 0 then top - (m.frame.base + a) - 1 else b - 1) = args.length)
    (hQ : ∀ k stack, Holds m.frame ⟨pc, regs, heap, extras, top, opened⟩ stack →
      Q (((m.counting k).seen ⟨pc + 1, regs, heap, extras, top, opened⟩ stack).perform
        (calling m r (m.frame.base + a + 1 + args.length)
          (.results (m.frame.base + a) (if wanted = 0 then none else some (wanted - 1)))) (m.nativeAct r args.toArray))) :
    Exec m (n + 1) ⟨pc, regs, heap, extras, top, opened⟩ Q := by
  refine Exec.step hi fun _ count stack hstack => Reaches.here (.inl ?_)
  have hcall := callSlot_native hstack hr hargs (if wanted = 0 then none else some (wanted - 1))
    ⟨pc + 1, regs, heap, extras, top, opened⟩
  rw [← hcount] at hcall
  rw [dispatch]
  refine (congrArg Q hcall).mpr ?_
  rw [hcount]
  exact hQ count stack hstack

/-- A function returns all the values from a register up. -/
theorem Exec.leavesAll (vs : List Value) {a : Nat} (hi : m.frame.proto.code.getD pc default = .ret a 0 false)
    (hvs : Slice regs a vs) (htop : top = m.frame.base + a + vs.length)
    (hQ : ∀ k stack, Q (((m.counting k).seen ⟨pc + 1, regs, heap, extras, top, opened⟩ stack).leave vs.toArray)) :
    Exec m (n + 1) ⟨pc, regs, heap, extras, top, opened⟩ Q := by
  refine Exec.step hi fun _ count stack hstack => Reaches.here (.inl ?_)
  have hcount : top - (m.frame.base + a) = vs.length := by omega
  have hreturn := returnSlots_seen hstack ⟨pc + 1, regs, heap, extras, top, opened⟩ hvs
  rw [← hcount] at hreturn
  rw [dispatch, if_pos rfl]
  exact (congrArg Q hreturn).mpr (hQ count stack)

/-- Calling a value in place of the running function. -/
theorem Exec.replaced {a count : Nat} (hi : m.frame.proto.code.getD pc default = .tailCall a (count + 1) false)
    (hQ : ∀ k stack, Holds m.frame ⟨pc, regs, heap, extras, top, opened⟩ stack →
      Q (((m.counting k).seen ⟨pc + 1, regs, heap, extras, top, opened⟩ stack).tailCallSlot (m.frame.base + a) count)) :
    Exec m (n + 1) ⟨pc, regs, heap, extras, top, opened⟩ Q := by
  refine Exec.step hi fun _ k stack hstack => Reaches.here (.inl ?_)
  rw [dispatch, if_neg (Nat.succ_ne_zero _), Nat.add_sub_cancel, if_neg Bool.false_ne_true]
  exact hQ k stack hstack

/-- Reading a variable that is shared with a function below, which waits. -/
theorem Exec.getShared {old : Value} {a u i : Nat} {x : Value} (hi : m.frame.proto.code.getD pc default = .getUpvalue a u)
    (hu : heap.cells[m.frame.upvalues.getD u 0]? = some (.opened m.thread (m.frame.func - extras.length + i)))
    (hx : extras[i]? = some x) (ha : regs[a]? = some old)
    (next : Exec m n ⟨pc + 1, regs.set a x, heap, extras, top, opened⟩ Q) :
    Exec m (n + 1) ⟨pc, regs, heap, extras, top, opened⟩ Q := by
  refine Exec.writes hi (lt_length_of_getElem? ha) x _ _ (fun count stack hstack => ?_) next
  have hextra : stack.getD (m.frame.func - extras.length + i) .nil = x := hstack.extra i x hx
  have hcell : ((m.counting count).seen ⟨pc + 1, regs, heap, extras, top, opened⟩ stack).cell (m.frame.upvalues.getD u 0) = x := by
    rw [cell, show ((m.counting count).seen ⟨pc + 1, regs, heap, extras, top, opened⟩ stack).heap.cells[
      m.frame.upvalues.getD u 0]? = _ from hu]
    exact (if_pos (beq_self_eq_true m.thread)).trans hextra
  rw [dispatch, upvalue]
  exact congrArg _ hcell

end

end Machine

end ScriptHost.Script

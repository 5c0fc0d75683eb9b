import ScriptHost.Proofs.Script.Captures

/-!
# Calls between activations

How an activation of a script function is answered, replaced and interrupted.

* `OpenCells` — the slots that functions share have cells that are open;
* **`Exec.tailCalls`** — a function is called in place of the running one;
* `Reaches.answered` — a native function that a script function called has its results;
* **`Reaches.interrupted`** — an interrupted activation raises the termination signal.
-/

namespace ScriptHost.Script

namespace Machine

/-! ### Shared slots -/

/-- The cells of shared slots are open. -/
def OpenCells (cells : Array Cell) (opened : List (Nat × Nat)) : Prop :=
  ∀ s ∈ opened, ∀ x, cells[s.2]? ≠ some (.closed x)

/-- Closed cells are still there, as they were. -/
def ClosedStay (cells cells' : Array Cell) : Prop :=
  ∀ (i : Nat) (x : Value), cells[i]? = some (.closed x) → cells'[i]? = some (.closed x)

theorem ClosedStay.keeps {cells cells' : Array Cell} (h : ClosedStay cells cells') {upvalues : Array Nat} {xs : List Value}
    (hkeeps : Keeps cells upvalues xs) : Keeps cells' upvalues xs := fun u x hx => h _ _ (hkeeps u x hx)

theorem detachFrom_stays (level : Nat) (stack : Array Value) (opened : List (Nat × Nat)) (cells : Array Cell) {i : Nat}
    {x : Value} (hi : cells[i]? = some (.closed x)) (hopened : ∀ s ∈ opened, s.2 ≠ i) :
    (detachFrom level stack cells opened).1[i]? = some (.closed x) := by
  induction opened generalizing cells with
  | nil => exact hi
  | cons s rest ih =>
    rw [detachFrom]
    split
    · refine ih _ ?_ fun s hs => hopened s (List.mem_cons_of_mem _ hs)
      rw [getElem?_put, if_neg fun h => hopened s List.mem_cons_self h.1, hi]
    · exact hi

section
variable {σ : Type}

/-- Shared variables that get their values for themselves change nothing else, and those that were not shared any more
stay as they are. -/
theorem detach_eq (m : Machine σ) (level : Nat) :
    ∃ cells opened, m.detach level = { m with heap := { m.heap with cells }, opened } ∧
      (OpenCells m.heap.cells m.opened → ClosedStay m.heap.cells cells) := by
  rw [detach]
  split
  · exact ⟨m.heap.cells, m.opened, rfl, fun _ _ _ h => h⟩
  · split
    · exact ⟨m.heap.cells, m.opened, rfl, fun _ _ _ h => h⟩
    · refine ⟨_, _, rfl, fun hopen i x hi => detachFrom_stays _ _ _ _ hi fun s hs heq => ?_⟩
      exact hopen s hs x (heq ▸ hi)

end

/-! ### A function in place of another one -/

section
variable {σ : Type} [Inhabited σ] {m : Machine σ} {n pc top : Nat} {regs extras : List Value} {heap : Heap}
  {opened : List (Nat × Nat)} {Q : Machine σ → Prop}

/-- The machine in a function that replaces the running one, whose arguments lie above a slot. -/
def replaced (m : Machine σ) (c : Closure) (target argCount : Nat) : Machine σ :=
  { m with frame := {
      proto := c.proto, upvalues := c.upvalues, func := target, base := target + 1
      argCount := max argCount c.proto.paramCount, finish := m.frame.finish, tail := true, depth := m.frame.depth
      yieldable := m.frame.yieldable } }

theorem tailCallSlot_closure {v : View} (v' : View) {stack : Array Value} (h : Holds m.frame v stack) {a id target : Nat}
    {c : Closure} {args : List Value} (hvararg : m.frame.proto.isVararg = true)
    (htarget : m.frame.func = target + m.frame.argCount + 1) (hr : v.regs[a]? = some (.closure id))
    (hargs : Slice v.regs (a + 1) args) (hclosure : v'.heap.closures[id]? = some c)
    (hroom : m.frame.base + a + 1 + args.length + c.proto.maxStack ≤ maxSlots) (regs extras : List Value) :
    ∃ stack', stack'.getD target .nil = .closure id ∧ (∀ i x, args[i]? = some x → stack'.getD (target + 1 + i) .nil = x) ∧
      (m.seen v' stack).tailCallSlot (m.frame.base + a) args.length
        = (m.replaced c target args.length).seen ⟨0, regs, v'.heap, extras, v'.top, v'.opened⟩
            (stackFor stack' (target + 1) args.length c.proto) := by
  have hreg : (m.seen v' stack).stack.getD (m.frame.base + a) .nil = .closure id := h.reg a _ hr
  have hresolve : (m.seen v' stack).resolve (m.frame.base + a) maxCallChain args.length
      = .ok (.closure id, args.length, m.seen v' stack) := by
    rw [maxCallChain, resolve, hreg]
  have hfits : (m.seen v' stack).exceeds (m.frame.base + a + 1 + args.length + (m.seen v' stack).needed id) = false := by
    refine exceeds_eq_false ?_
    rw [needed, show (m.seen v' stack).heap.closures[id]? = some c from hclosure]
    exact hroom
  have hslots : (m.seen v' stack).slots (m.frame.base + a) (args.length + 1) = (.closure id :: args).toArray := by
    have hslice : Slice v.regs a (.closure id :: args) := by
      obtain ⟨hlt, hget⟩ := List.getElem?_eq_some_iff.mp hr
      rw [Slice, List.drop_eq_getElem_cons hlt, hget, List.length_cons, List.take_succ_cons]
      exact congrArg _ hargs
    exact slots_seen h v' hslice
  obtain ⟨-, -, hin, -⟩ := writeAll_spec stack target (.closure id :: args).toArray
  refine ⟨writeAll stack target (.closure id :: args).toArray, ?_, fun i x hi => ?_, ?_⟩
  · exact hin 0 (.closure id) (by simp)
  · rw [Nat.add_assoc, Nat.add_comm 1]
    exact hin (i + 1) x (by simpa using hi)
  · have hlow : m.frame.func - (m.frame.argCount + 1) = target := by omega
    rw [tailCallSlot, hresolve]
    simp only [hfits, Bool.false_eq_true, if_false]
    rw [hslots]
    simp only [seen, hvararg, if_true, hlow, enterScript, hclosure]
    rfl

/-- A function with a variable number of arguments is called in place of the running one, which may share its slots no
longer. -/
theorem Exec.tailCalls (args : List Value) {a id target k : Nat} {c : Closure} {closes : Bool}
    (hi : m.frame.proto.code.getD pc default = .tailCall a 0 closes) (hvararg : m.frame.proto.isVararg = true)
    (htarget : m.frame.func = target + m.frame.argCount + 1) (hlow : m.frame.func < m.frame.base)
    (hr : regs[a]? = some (.closure id)) (hargs : Slice regs (a + 1) args) (htop : top = m.frame.base + a + 1 + args.length)
    (hclosure : heap.closures[id]? = some c) (hcode : c.proto.code.getD 0 default = .varargPrep k)
    (hparams : c.proto.paramCount ≤ c.proto.maxStack)
    (hroom : m.frame.base + regs.length + c.proto.maxStack + c.proto.paramCount + nativeSlots ≤ maxSlots) (hopen : OpenCells heap.cells opened)
    (hcalm : Calm (m.replaced c target args.length).aside)
    (next : ∀ cells opened' junk, ClosedStay heap.cells cells → junk.length = c.proto.maxStack - c.proto.paramCount →
      Exec (m.replaced c target args.length).aside n ⟨1, parameters args c.proto.paramCount ++ junk, heap.withCells cells,
        args.drop c.proto.paramCount, top, opened'⟩ Q) :
    Exec m (n + 2) ⟨pc, regs, heap, extras, top, opened⟩ fun m' =>
      (Q m' ∨ Interrupted (m.replaced c target args.length).aside m') ∨ Interrupted (m.replaced c target args.length) m' := by
  refine Exec.step hi fun _ count stack hholds => ?_
  have hnative : nativeSlots = 20 := rfl
  have hslice := hargs.le
  have hregister := lt_length_of_getElem? hr
  have hcallRoom : m.frame.base + a + 1 + args.length + c.proto.maxStack ≤ maxSlots := by omega
  -- the shared slots of the running function are shared no longer, if it shares some
  obtain ⟨cells, opened', hdetached, hstay⟩ : ∃ cells opened',
      (if closes then ((m.counting count).seen ⟨pc + 1, regs, heap, extras, top, opened⟩ stack).detach m.frame.base
        else (m.counting count).seen ⟨pc + 1, regs, heap, extras, top, opened⟩ stack)
        = (m.counting count).seen ⟨pc + 1, regs, heap.withCells cells, extras, top, opened'⟩ stack ∧
        ClosedStay heap.cells cells := by
    cases closes with
    | true =>
      obtain ⟨cells, opened', h, hstay⟩ := detach_eq
        ((m.counting count).seen ⟨pc + 1, regs, heap, extras, top, opened⟩ stack) m.frame.base
      exact ⟨cells, opened', h, hstay hopen⟩
    | false => exact ⟨heap.cells, opened, rfl, fun _ _ h => h⟩
  obtain ⟨stack', -, harguments, hcall⟩ := tailCallSlot_closure (m := m.counting count)
    ⟨pc + 1, regs, heap.withCells cells, extras, top, opened'⟩ hholds hvararg htarget hr hargs hclosure
    hcallRoom [] []
  have hcount : top - (m.frame.base + a) - 1 = args.length := by omega
  have hdispatch : ((m.counting count).seen ⟨pc + 1, regs, heap, extras, top, opened⟩ stack).dispatch (.tailCall a 0 closes)
      = ((m.replaced c target args.length).counting count).seen ⟨0, [], heap.withCells cells, [], top, opened'⟩
          (stackFor stack' (target + 1) args.length c.proto) := by
    refine Eq.trans ?_ hcall
    rw [dispatch]
    simp only [if_true]
    exact (congrArg (fun m' : Machine σ => m'.tailCallSlot (m.frame.base + a) (m'.top - (m.frame.base + a) - 1)) hdetached).trans
      (congrArg (Machine.tailCallSlot _ _) hcount)
  rw [hdispatch]
  have hbegins : Begins (m.replaced c target args.length).frame args (stackFor stack' (target + 1) args.length c.proto) := by
    refine begins_stackFor rfl rfl hparams ?_ harguments
    show target + 1 + max args.length c.proto.paramCount + c.proto.maxStack + nativeSlots + 2 ≤ maxSlots
    omega
  exact (Reaches.begins count hbegins hcode hcalm fun junk hjunk => next cells opened' junk hstay hjunk).imp fun _ => .inl

/-! ### Answers and interrupts -/

/-- A native function that a script function called has all its results, and the script function goes on. -/
theorem advance_answered {r : Reply} {w : Native σ} {f : Frame} {rest : List (Activation σ)} {slot : Nat}
    {k : Reply → Heap → σ → Outcome σ (Array Value)} {vs : Array Value} (hcontrol : m.control = .answer r)
    (hcallers : m.callers = .native w :: .script f :: rest) (hfinish : w.finish = .results slot none)
    (hpending : w.pending = .reply k) (hk : k r m.heap m.host = .done vs m.heap m.host) (regs extras : List Value) :
    m.advance = { m with callers := rest, frame := f }.seen ⟨f.pc, regs, m.heap, extras, slot + vs.size, m.opened⟩
      (writeAll m.stack slot vs) := by
  simp only [Machine.advance, hcontrol, answer, hcallers, hfinish, hpending, perform, hk, settle, deliver, apply, place]
  rfl

omit [Inhabited σ] in
/-- Where there is nothing to close from a slot up, there is nothing from a higher one. -/
theorem mustClose_mono {m' : Machine σ} {a b : Nat} (h : m.mustClose a = false) (hle : a ≤ b)
    (hsame : m'.toClose = m.toClose) : m'.mustClose b = false := by
  rw [mustClose] at h ⊢
  rw [hsame]
  split
  · rename_i s rest hs
    rw [hs] at h
    have hlow := of_decide_eq_false h
    exact decide_eq_false (by omega)
  · rfl

/-- What comes after closing comes when there is nothing left to close. -/
theorem closeNext_closed {c : Closing} {rest : List (Activation σ)} (hcallers : m.callers = .closing c :: rest)
    (hnothing : m.mustClose c.level = false) : m.closeNext = { m with callers := rest }.afterClosing c.after := by
  simp only [closeNext, hcallers]
  rw [mustClose] at hnothing
  cases hopen : m.toClose with
  | nil => rfl
  | cons s others =>
    rw [hopen] at hnothing
    simp only [of_decide_eq_false hnothing, if_false]

omit [Inhabited σ] in
/-- Closing begins: variables are shared no longer, and the innermost activation waits. -/
theorem closing_eq (level : Nat) (reason : Value) (failed yieldable : Bool) (after : AfterClosing) :
    ∃ c cells opened, m.closing level reason failed yieldable after = { m.suspended with
        heap := { m.suspended.heap with cells }, opened, callers := .closing c :: m.suspended.callers, control := .close } ∧
      c.level = level ∧ c.after = after := by
  obtain ⟨cells, opened, hdetach, -⟩ := detach_eq m.suspended level
  rw [closing, hdetach]
  exact ⟨_, cells, opened, rfl, rfl, rfl⟩

omit [Inhabited σ] in
theorem suspended_same (m : Machine σ) : m.suspended.toClose = m.toClose ∧ m.suspended.hosts = m.hosts := by
  rw [suspended]
  split <;> exact ⟨rfl, rfl⟩

/-- When there is nothing to close, what comes after closing comes at once. -/
theorem advance_closing (level : Nat) (reason : Value) (failed yieldable : Bool) (after : AfterClosing)
    (hnothing : m.mustClose level = false) :
    ∃ cells opened, (m.closing level reason failed yieldable after).advance = { m.suspended with
      heap := { m.suspended.heap with cells }, opened, control := .close }.afterClosing after := by
  obtain ⟨c, cells, opened, hclosing, hlevel, hafter⟩ := m.closing_eq level reason failed yieldable after
  have hnone : (m.closing level reason failed yieldable after).mustClose c.level = false := by
    rw [hclosing, hlevel]
    exact mustClose_mono hnothing (Nat.le_refl level) m.suspended_same.1
  refine ⟨cells, opened, ?_⟩
  rw [hclosing] at hnone ⊢
  simp only [Machine.advance]
  rw [closeNext_closed rfl hnone, hafter]

omit [Inhabited σ] in
/-- The termination signal is a new failure, with the trace of the script at this point. -/
theorem afterClosing_interrupt (hcontrol : m.control = .close) :
    ∃ trace, m.afterClosing .interrupt = { m with
      heap := { m.heap with failures := m.heap.failures.push (.fault (.callback trace .signal)) }
      control := .raise (.failure m.heap.failures.size) } := by
  rw [afterClosing, raiseIn, suspended, hcontrol]
  exact ⟨_, rfl⟩

/-- **An interrupted activation** raises the termination signal in the activation that waits for it. -/
theorem Reaches.interrupted {m' : Machine σ} (h : Interrupted m m') (hcalm : Calm m) :
    Reaches 1 m' fun m'' => ∃ (f : Frame) (id : Nat) (trace : String), m''.control = .raise (.failure id) ∧
      m''.callers = .script f :: m.callers ∧ m''.heap.failures[id]? = some (.fault (.callback trace .signal)) := by
  obtain ⟨-, k, v, stack, rfl⟩ := h
  let hooked : Machine σ :=
    { (m.counting k).seen v stack with frame := { m.frame with calls := .hook, pc := v.pc + 1 }, hookOn := false }
  obtain ⟨cells, opened, hadvance⟩ := advance_closing (m := hooked) m.frame.base .nil false false .interrupt hcalm
  obtain ⟨trace, hraise⟩ := afterClosing_interrupt (m := { hooked.suspended with
    heap := { hooked.suspended.heap with cells }, opened, control := .close }) rfl
  refine Reaches.advance trivial (Reaches.here ?_)
  rw [show (((m.counting k).seen v stack).interrupt).advance = _ from hadvance.trans hraise]
  exact ⟨hooked.frame, v.heap.failures.size, trace, rfl, rfl, Array.getElem?_push_size⟩

end

end Machine

end ScriptHost.Script

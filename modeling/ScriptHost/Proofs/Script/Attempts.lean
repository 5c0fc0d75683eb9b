import ScriptHost.Proofs.Script.Calls

/-!
# Attempts

A function is called on some objects, and a failure is an answer too.  What comes of it is a matter of the function and
the objects alone.

* `Makes` — the value that a failure raises;
* `Fails` — an activation without guards that raises a value and has shared nothing;
* `Machine.Exec.call_fails`, `Machine.Exec.tailCall_fails` — a native function that a script function calls fails;
* `Machine.attempt`, `Machine.Comes` — an attempt and what it comes to;
* **`Machine.Comes.unique`** — it comes to one answer;
* **`Machine.Reaches.answered`**, **`Machine.Reaches.failed`** — the answers that it comes to.
-/

namespace ScriptHost.Script

/-- The value that a failure raises: the one that is raised as it is, or a text. -/
def Raise.Makes : Raise → Value → Prop
  | .value y, x => x = y
  | _, x => ∃ s, x = .str s

namespace Machine

section
variable {σ : Type}

theorem located_text (levels : List Level) (n : Nat) (message : Bytes) : ∃ s, located levels n message = .str s := by
  rw [located]
  cases levels[n]? with
  | none => exact ⟨_, rfl⟩
  | some l => exact ⟨_, rfl⟩

theorem raiseIn_makes {m : Machine σ} {r : Raise} (h : IsPlain r) :
    ∃ x, r.Makes x ∧ m.raiseIn r = { m.suspended with control := .raise x } := by
  cases r with
  | host f => exact h.elim
  | panic message => exact h.elim
  | inHandler => exact h.elim
  | value y => exact ⟨y, rfl, rfl⟩
  | _ => exact ⟨_, located_text .., rfl⟩

/-- The machine raises a value in activations without guards, and nothing is shared with inner functions. -/
def Fails (m : Machine σ) (h : Heap) (x : Value) (m' : Machine σ) : Prop :=
  ∃ stack top frame countdown inner, (∀ a ∈ inner, Guardless a) ∧ m' = { m with
    heap := h, stack, top, frame, countdown, opened := [], callers := inner ++ m.callers, control := .raise x }

theorem settle_fails {m : Machine σ} {g : Native σ} {r : Raise} (hplain : IsPlain r)
    (hcontrol : m.control = .execute) (hguard : g.guard = none) (hopened : m.opened = []) (h : Heap) :
    ∃ x, r.Makes x ∧ Fails m h x (settle m g (.raised r h m.host)) := by
  obtain ⟨x, hx, hraise⟩ := raiseIn_makes (m := { m with
    heap := h, callers := .native g :: .script m.frame :: m.callers, control := .close }) hplain
  refine ⟨x, hx, m.stack, m.top, m.frame, m.countdown, [.native g, .script m.frame], ?_, ?_⟩
  · intro a ha
    rcases List.mem_cons.mp ha with rfl | ha
    · exact hguard
    · rw [List.mem_singleton.mp ha]
      trivial
  · simp only [settle, suspended, hcontrol]
    refine hraise.trans ?_
    rw [← hopened]
    rfl

variable [Inhabited σ] {m : Machine σ} {n pc top : Nat} {regs extras : List Value} {heap : Heap} {Q : Machine σ → Prop}

/-- A function that is called fails, and the one that called it has shared nothing. -/
theorem Exec.call_fails (args : List Value) {a wanted : Nat} {r : NativeRef} {e : Raise} {heap' : Heap}
    (hi : m.frame.proto.code.getD pc default = .call a (args.length + 1) wanted) (hr : regs[a]? = some (.native r))
    (hargs : Slice regs (a + 1) args)
    (hact : m.nativeAct r args.toArray heap m.host = .raised e heap' m.host) (hplain : IsPlain e) :
    Exec m (n + 1) ⟨pc, regs, heap, extras, top, []⟩ fun m' => ∃ x, e.Makes x ∧ Fails m heap' x m' := by
  refine Exec.step hi fun _ count stack hstack => Reaches.here (.inl ?_)
  obtain ⟨x, hx, stack', top', frame, countdown, inner, hinner, hraise⟩ :=
    settle_fails (m := (m.counting count).seen ⟨pc + 1, regs, heap, extras, top, []⟩ stack)
      (g := calling m r (m.frame.base + a + 1 + args.length)
        (.results (m.frame.base + a) (if wanted = 0 then none else some (wanted - 1)))) hplain rfl rfl rfl heap'
  refine ⟨x, hx, stack', top', frame, countdown, inner, hinner, ?_⟩
  refine (callSlot_native hstack hr hargs _ _).trans ?_
  show settle _ _ (m.nativeAct r args.toArray heap m.host) = _
  rw [hact]
  exact hraise

/-- A function that another one ends with fails. -/
theorem Exec.tailCall_fails (args : List Value) {a : Nat} {r : NativeRef} {e : Raise} {heap' : Heap}
    (hi : m.frame.proto.code.getD pc default = .tailCall a (args.length + 1) false) (hr : regs[a]? = some (.native r))
    (hargs : Slice regs (a + 1) args)
    (hact : m.nativeAct r args.toArray heap m.host = .raised e heap' m.host) (hplain : IsPlain e) :
    Exec m (n + 1) ⟨pc, regs, heap, extras, top, []⟩ fun m' => ∃ x, e.Makes x ∧ Fails m heap' x m' := by
  refine Exec.step hi fun _ count stack hstack => Reaches.here (.inl ?_)
  obtain ⟨x, hx, stack', top', frame, countdown, inner, hinner, hraise⟩ :=
    settle_fails (m := (m.counting count).seen ⟨pc + 1, regs, heap, extras, top, []⟩ stack)
      (g := calling m r (m.frame.base + a + 1 + args.length) .ret) hplain rfl rfl rfl heap'
  refine ⟨x, hx, stack', top', frame, countdown, inner, hinner, ?_⟩
  refine (tailCallSlot_native hstack hr hargs _).trans ?_
  show settle _ _ (m.nativeAct r args.toArray heap m.host) = _
  rw [hact]
  exact hraise

/-! ### Runs to a stop -/

/-- A machine that has stopped stays so. -/
theorem run_add {s : Stop} {m' : Machine σ} (j k : Nat) (h : m.run j = (some s, m')) : m.run (j + k) = (some s, m') := by
  induction j generalizing m with
  | zero =>
    rw [Machine.run] at h
    cases h
  | succ j ih =>
    rw [Nat.add_right_comm]
    rw [Machine.run] at h ⊢
    cases hcontrol : m.control with
    | execute =>
      rw [hcontrol] at h
      exact ih h
    | stopped s' =>
      rw [hcontrol] at h
      exact h
    | _ =>
      rw [hcontrol] at h
      exact ih h

/-- A machine stops in one way. -/
theorem run_unique {s s' : Stop} {m₁ m₂ : Machine σ} {j k : Nat} (h : m.run j = (some s, m₁)) (h' : m.run k = (some s', m₂)) :
    s = s' ∧ m₁ = m₂ := by
  have hone := run_add j k h
  rw [Nat.add_comm, run_add k j h'] at hone
  exact ⟨(Option.some.inj (congrArg Prod.fst hone)).symm, (congrArg Prod.snd hone).symm⟩

end

/-! ### Attempts -/

/-- The activation that takes a failure for an answer. -/
def catching : Native Unit :=
  { self := none, top := 1, finish := .stop, depth := 0, yieldable := false, guard := some ⟨.none, true⟩ }

/-- A function is called on some objects, and a failure is an answer. -/
def attempt (h : Heap) (f : Value) (args : Array Value) : Machine Unit :=
  { Machine.create () #[] (fun _ => false) with heap := h, callers := [.native catching], control := .enter f args .reply }

/-- An attempt comes to an answer, which leaves some objects. -/
def Comes (h : Heap) (f : Value) (args : Array Value) (r : Reply) (h' : Heap) : Prop :=
  ∃ n m', (attempt h f args).run n = (some (stopOf r), m') ∧ m'.heap = h'

section
variable {h h' : Heap} {f : Value} {args : Array Value} {n : Nat}

theorem stopOf_inj {r r' : Reply} (heq : stopOf r = stopOf r') : r = r' := by
  cases r <;> cases r' <;> cases heq <;> rfl

/-- **An attempt comes to one answer.** -/
theorem Comes.unique {h₁ h₂ : Heap} {r r' : Reply} (hone : Comes h f args r h₁) (hother : Comes h f args r' h₂) :
    r = r' ∧ h₁ = h₂ := by
  obtain ⟨j, m₁, hrun₁, hheap₁⟩ := hone
  obtain ⟨k, m₂, hrun₂, hheap₂⟩ := hother
  obtain ⟨hstop, hm⟩ := run_unique hrun₁ hrun₂
  exact ⟨stopOf_inj hstop, by rw [← hheap₁, ← hheap₂, hm]⟩

theorem Comes.of_reaches {r : Reply} (hreaches : Reaches n (attempt h f args) fun m' =>
    m'.control = .stopped (stopOf r) ∧ m'.heap = h') : Comes h f args r h' := by
  obtain ⟨m', hheap, hrun⟩ := hreaches.run (Nat.lt_succ_self n)
  exact ⟨n + 1, m', hrun, hheap⟩

/-- **An attempt that is answered.** -/
theorem Reaches.answered {r : Reply} (hreaches : Reaches n (attempt h f args) (Answers (attempt h f args) h' r)) :
    Comes h f args r h' := by
  refine Comes.of_reaches (n := n + 1) (hreaches.trans fun m' ⟨stack, top, frame, countdown, hm'⟩ => ?_)
  subst hm'
  refine Reaches.advance trivial (Reaches.here ?_)
  cases r <;> exact ⟨rfl, rfl⟩

theorem canEnter_attempt (h : Heap) (f : Value) {args : Array Value} {c : Closure} (hargs : args.size ≤ 255)
    (hparams : Nat.ble c.proto.paramCount c.proto.maxStack = true) (hroom : Nat.ble c.proto.maxStack 255 = true) :
    CanEnter (attempt h f args) c catching args.size where
  interval := rfl
  callers := ⟨[], rfl⟩
  opened := rfl
  closes := rfl
  depth := Nat.lt_of_sub_eq_succ rfl
  params := Nat.le_of_ble_eq_true hparams
  room := by
    have hroom := Nat.le_of_ble_eq_true hroom
    have hslots : 2000 ≤ maxSlots := by decide
    show 1 + 2 * args.size + 2 * c.proto.maxStack + 20 + 4 ≤ maxSlots
    omega

/-- A failure goes to the activation that takes it for an answer, and there is nothing to close on the way. -/
theorem Reaches.caught {m : Machine Unit} {x : Value} (hcontrol : m.control = .raise x)
    (hguard : guardOf m.callers = some ⟨.none, true⟩)
    (hdrop : dropToGuard m.callers = some (catching, ⟨.none, true⟩, [])) (hopened : m.opened = []) (hcloses : m.toClose = []) :
    Reaches 4 m fun m' => m'.control = .stopped (.failed x) ∧ m'.heap = m.heap := by
  have hraised : m.advance = { m with control := .unwind x } := by
    simp only [Machine.advance, hcontrol, handle, hguard]
  let m₁ : Machine Unit := { m with control := .unwind x }
  let m₂ : Machine Unit := { m₁ with
    callers := [.closing { level := 1, reason := x, top := 0, depth := 0, yieldable := false, after := .fail x },
      .native catching], hookOn := true, stack := if maxSlots < m.stack.size then m.stack.extract 0 maxSlots else m.stack
    control := .close }
  have hunwound : m₁.advance = m₂ := by
    simp only [m₁, m₂, Machine.advance, unwind, hdrop, closing, suspended, detach, hopened]
    rfl
  have hclosed : m₂.advance = { m₂ with callers := [.native catching], control := .answer (.failed x) } := by
    simp only [m₁, m₂, Machine.advance, closeNext, hcloses, afterClosing]
  have hbetween : IsBetween m.control := hcontrol ▸ trivial
  refine Reaches.advance (n := 3) hbetween (hraised ▸ ?_)
  refine Reaches.advance (n := 2) trivial (hunwound ▸ ?_)
  refine Reaches.advance (n := 1) trivial (hclosed ▸ ?_)
  exact Reaches.advance trivial (Reaches.here ⟨rfl, rfl⟩)

/-- **An attempt that fails.** -/
theorem Reaches.failed {P : Value → Prop} (hreaches : Reaches n (attempt h f args) fun m' =>
    ∃ x, P x ∧ Fails (attempt h f args) h' x m') : ∃ x, P x ∧ Comes h f args (.failed x) h' := by
  obtain ⟨j, hj, x, hx, stack, top, frame, countdown, inner, hinner, hm'⟩ := hreaches
  generalize hthere : (attempt h f args).after j = m' at hm'
  refine ⟨x, hx, Comes.of_reaches (n := j + 4) ?_⟩
  have hcaught : Reaches 4 m' fun m'' => m''.control = .stopped (.failed x) ∧ m''.heap = m'.heap := by
    have hguard : guardOf (inner ++ [.native catching]) = some ⟨.none, true⟩ := guardOf_append hinner _
    have hdrop : dropToGuard (inner ++ [.native catching]) = some (catching, ⟨.none, true⟩, []) :=
      dropToGuard_append hinner _
    subst hm'
    exact Reaches.caught rfl hguard hdrop rfl rfl
  have hheap : m'.heap = h' := by rw [hm']
  rw [hheap] at hcaught
  exact Runs.reaches hthere hcaught

end

end Machine

end ScriptHost.Script

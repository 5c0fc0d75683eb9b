import ScriptHost.Proofs.Script.Varargs
import ScriptHost.Proofs.Session.Signals
import ScriptHost.Proofs.Namespace.Guarded

/-!
# Passing the termination signal on

Some functions let the failure of what they call come back as an answer.  The prelude puts functions of its own before
them, which look at the answer and raise it again if it is the termination signal.

* `IsSignal` — a value that the host recognises as the signal;
* `Catches` — such a function waits for the answer of the function of the language;
* **`Catches.passes`** — what it waits for comes to the function `pass`;
* `Again` — what is the same when a value that was caught is raised again;
* `Handles`, `Asked` — a failure will be shown to the handler that `xpcall` puts before the script's one, and is shown to it;
* `SignalOn` — the signal is on its way again;
* **`signal_passes_catchers`** — it is so when a protected call answers with the signal, and closing a thread is no
  protected call of this kind;
* `close_keeps_signal` — a script that goes on with the signal as a result.

The hook may find that termination was requested while one of these functions runs.  Then it raises a signal of its own,
which takes the way of the one that was caught.
-/

namespace ScriptHost

open ScriptHost.Script ScriptHost.Script.Machine

/-- A value is a failure of the host that is recognised as the termination signal. -/
def IsSignal (h : Heap) (x : Value) : Prop :=
  ∃ id f, x = .failure id ∧ h.failures[id]? = some (.fault f) ∧ f.isInterrupt = true

section
variable {σ : Type}

theorem probe_signal {h : Heap} {x : Value} (hx : IsSignal h x) (s : σ) :
    Namespace.probe #[x] h s = .done #[.bool true] h s := by
  obtain ⟨id, f, rfl, hid, hf⟩ := hx
  have hget : h.failures.getD id default = .fault f := by
    rw [Array.getD_eq_getD_getElem?, hid, Option.getD_some]
  have hfirst : (#[Value.failure id] : Array Value).getD 0 .nil = .failure id := rfl
  simp only [Namespace.probe, hfirst, Binding.checkSpent, bind, hid, Outcome.andThen, Act.readHeap, hget, hf]
  rfl

theorem error_signal {h : Heap} {x : Value} (hx : IsSignal h x) (s : σ) :
    Library.call .error #[x, .int 0] h s = .raised (.value x) h s := by
  obtain ⟨id, f, rfl, -, -⟩ := hx
  rfl

variable [Inhabited σ] {m : Machine σ} {n top : Nat} {heap : Heap} {opened : List (Nat × Nat)}

/-- The function `pass` raises a signal again. -/
theorem exec_pass {c : Proto} {junk : List Value} {x : Value} (hproto : m.frame.proto = Prelude.pass c)
    (hextra : m.frame.extra = 1) (hprobe : m.hosts[0]? = some Namespace.probe)
    (hups : Keeps heap.cells m.frame.upvalues [.native (.host 0), builtin .error]) (hjunk : junk.length = 3)
    (hx : IsSignal heap x) :
    Exec m 9 ⟨1, .bool false :: junk, heap, [x], top, opened⟩ fun m' => Raises m heap x m' := by
  have hcode : ∀ pc, m.frame.proto.code.getD pc default = (Prelude.pass c).code.getD pc default := by
    intro pc
    rw [hproto]
  match junk, hjunk with
  | [r1, r2, r3], _ =>
  have hact : m.nativeAct (.host 0) #[x] heap m.host = .done #[.bool true] heap m.host := by
    rw [nativeAct, hprobe]
    exact probe_signal hx m.host
  -- the failure is looked at
  refine Exec.test (hcode 1) rfl ?_
  refine Exec.getUpvalue (hcode 3) (hups 0 _ rfl) rfl ?_
  refine Exec.vararg (hcode 4) hextra rfl rfl ?_
  refine Exec.call1_done [x] (hcode 5) rfl rfl hact ?_
  refine Exec.test (hcode 6) rfl ?_
  -- it is the signal, and is raised again
  refine Exec.getUpvalue (hcode 8) (hups 1 _ rfl) rfl ?_
  refine Exec.vararg (hcode 9) hextra rfl rfl ?_
  refine Exec.loadInt (hcode 10) rfl ?_
  refine Exec.imp (Exec.call_raised [x, .int 0] (hcode 11) rfl rfl (error_signal hx m.host) trivial) fun m' hm' => ?_
  obtain ⟨y, hy, hraises⟩ := hm'
  rwa [show y = x from hy] at hraises

/-! ### The functions that catch failures -/

end

/-- The functions of the prelude that let a failure come back as an answer. -/
inductive Catcher where
  | pcall
  | xpcall
  | resume

namespace Catcher

/-- The code of a function. -/
def proto (c : Proto) : Catcher → Proto
  | pcall => Prelude.pcall c
  | xpcall => Prelude.xpcall c
  | resume => Prelude.resume c

/-- The register in which it puts `pass`, below the results that it hands over. -/
def register : Catcher → Nat
  | pcall => 1
  | xpcall => 2
  | resume => 1

/-- Where it goes on with the results. -/
def next : Catcher → Nat
  | pcall => 6
  | xpcall => 7
  | resume => 6

/-- It hands all results over to `pass`. -/
theorem exists_code (g : Catcher) (c : Proto) :
    ∃ closes, (g.proto c).code.getD g.next default = .tailCall g.register 0 closes := by
  cases g with
  | pcall => exact ⟨false, rfl⟩
  | xpcall => exact ⟨true, rfl⟩
  | resume => exact ⟨false, rfl⟩

theorem isVararg (g : Catcher) (c : Proto) : (g.proto c).isVararg = true := by
  cases g <;> rfl

end Catcher

section
variable {σ : Type}

/-- A function that catches failures waits for what the function of the language that it called has caught. -/
structure Catches (g : Catcher) (c : Proto) (m : Machine σ) (w : Native σ) (f : Script.Frame) : Prop where
  proto : f.proto = g.proto c
  pc : f.pc = g.next
  base : f.base = f.func + 1
  /-- It has set its extra arguments aside. -/
  above : f.argCount + 1 ≤ f.func
  finish : w.finish = .results (f.base + g.register + 1) none
  /-- All that was called answers as a protected call. -/
  pending : ∃ k, w.pending = .reply k ∧ ∀ r h s, k r h s = .done (Library.protectedResults r) h s
  pass : ∃ id upvalues, m.stack.getD (f.base + g.register) .nil = .closure id ∧
    m.heap.closures[id]? = some ⟨Prelude.pass c, upvalues⟩ ∧
      Keeps m.heap.cells upvalues [.native (.host 0), builtin .error]
  probe : m.hosts[0]? = some Namespace.probe
  room : f.base + 40 ≤ maxSlots
  closes : m.mustClose (f.func - f.argCount) = false
  opened : OpenCells m.heap.cells m.opened

/-- The running function returns a value, and nothing else has happened. -/
def ReturnsValue (m : Machine σ) (x : Value) (m' : Machine σ) : Prop :=
  ∃ pc stack top countdown, m' = leave { m with
    frame := { m.frame with pc }, stack, top, countdown, control := .execute } #[x]

/-- A value is raised, and only activations without a guard are left by it until it comes to some. -/
def RaisedTo (rest : List (Activation σ)) (x : Value) (m' : Machine σ) : Prop :=
  m'.control = .raise x ∧ ∃ inner, (∀ a ∈ inner, Guardless a) ∧ m'.callers = inner ++ rest

/-- The termination signal is on its way to some activations: the given one, or, if the hook finds that termination was
requested, one of its own. -/
def SignalOn (m : Machine σ) (rest : List (Activation σ)) (x : Value) (m' : Machine σ) : Prop :=
  ∃ y, RaisedTo rest y m' ∧ IsSignal m'.heap y ∧ (y = x ∨ HookFinds m)

/-- The hook has found that termination was requested, and the signal that it made is on its way. -/
def SignalFound (m : Machine σ) (rest : List (Activation σ)) (m' : Machine σ) : Prop :=
  HookFinds m ∧ ∃ y, RaisedTo rest y m' ∧ IsSignal m'.heap y

theorem SignalFound.signalOn {m m' : Machine σ} {rest : List (Activation σ)} (h : SignalFound m rest m') (x : Value) :
    SignalOn m rest x m' :=
  let ⟨hfinds, y, hraised, hy⟩ := h
  ⟨y, hraised, hy, .inr hfinds⟩

/-- A value that was caught is raised again so deep, and only variables may be shared no longer. -/
structure Again (m : Machine σ) (depth : Nat) (m' : Machine σ) : Prop where
  heap : ∃ cells, ClosedStay m.heap.cells cells ∧ m'.heap = m.heap.withCells cells
  beside : SameBeside m m'
  thread : m'.thread = m.thread
  resumers : m'.resumers = m.resumers
  closes : m'.toClose = m.toClose
  depth : m'.innermost.2.1 = depth

theorem Again.isSignal {m m' : Machine σ} {depth : Nat} {x : Value} (h : Again m depth m') (hx : IsSignal m.heap x) :
    IsSignal m'.heap x := by
  obtain ⟨cells, -, hheap⟩ := h.heap
  rw [hheap]
  exact hx

variable [Inhabited σ]

/-- An activation that the hook interrupts raises the signal too. -/
theorem signalFound_interrupted {m inner m' : Machine σ} (h : Interrupted inner m') (hcalm : Calm inner)
    (hhook : HookFinds inner → HookFinds m) : Reaches 1 m' (SignalFound m inner.callers) := by
  obtain ⟨hfinds, -⟩ := id h
  refine (Reaches.interrupted h hcalm).imp fun m'' ⟨f, id, trace, hcontrol, hcallers, hfailure⟩ => ?_
  refine ⟨hhook hfinds, .failure id, ⟨hcontrol, [.script f], ?_, hcallers⟩, id, _, rfl, hfailure, rfl⟩
  intro a ha
  rw [List.mem_singleton.mp ha]
  trivial

/-- The function `pass` in place of one that waits. -/
def passing (m : Machine σ) (rest : List (Activation σ)) (f : Script.Frame) (pass : Closure) (count : Nat) : Machine σ :=
  ({ m with callers := rest, frame := f }.replaced pass (f.func - (f.argCount + 1)) count).aside

/-- **What a protected call answers** comes to `pass`. -/
theorem Catches.passes {g : Catcher} {c : Proto} {m : Machine σ} {w : Native σ} {f : Script.Frame}
    {rest : List (Activation σ)} {r : Reply} {first : Value} {others : List Value} {n : Nat} {Q : Machine σ → Prop}
    (hcatches : Catches g c m w f) (hcontrol : m.control = .answer r) (hcallers : m.callers = .native w :: .script f :: rest)
    (hresults : Library.protectedResults r = (first :: others).toArray)
    (hroom : f.base + others.length + 30 ≤ maxSlots)
    (next : ∀ upvalues cells opened top junk, ClosedStay m.heap.cells cells →
      Keeps cells upvalues [.native (.host 0), builtin .error] → junk.length = 3 →
      Exec (passing m rest f ⟨Prelude.pass c, upvalues⟩ (others.length + 1)) n
        ⟨1, first :: junk, m.heap.withCells cells, others, top, opened⟩ Q) :
    Reaches (n + 4) m fun m' => Q m' ∨ SignalFound m rest m' := by
  obtain ⟨hproto, hpc, hbase, habove, hfinish, ⟨k, hpending, hk⟩, ⟨id, upvalues, hregister, hclosure, hups⟩, -, -,
    hcloses, hopened⟩ := hcatches
  obtain ⟨closes, hcode⟩ := g.exists_code c
  have hlow : g.register ≤ 2 := by cases g <;> decide
  have hnative : nativeSlots = 20 := rfl
  let inner : Machine σ := { m with callers := rest, frame := f }
  let replaced : Machine σ := inner.replaced ⟨Prelude.pass c, upvalues⟩ (f.func - (f.argCount + 1)) (others.length + 1)
  let regs := junk m.stack f.base g.register ++ .closure id :: first :: others
  let top := f.base + g.register + 1 + (others.length + 1)
  have hlength : (junk m.stack f.base g.register).length = g.register := length_junk ..
  have hregs : regs.length = g.register + (others.length + 2) := by rw [List.length_append, hlength]; rfl
  have hcalm : Calm inner := mustClose_mono (m := m) hcloses (by dsimp only [inner]; omega) rfl
  have hcalmReplaced : Calm replaced := mustClose_mono (m := m) hcloses (by dsimp only [replaced, Machine.replaced]; omega) rfl
  have hcalmAside : Calm replaced.aside :=
    mustClose_mono (m := m) hcloses (by dsimp only [replaced, Machine.replaced, aside]; omega) rfl
  have hid : regs[g.register]? = some (.closure id) := by
    rw [List.getElem?_append_right (Nat.le_of_eq hlength), hlength, Nat.sub_self]
    rfl
  have hargs : Slice regs (g.register + 1) (first :: others) := by
    rw [Slice, List.drop_append, hlength, List.drop_eq_nil_of_le (by omega), Nat.add_sub_cancel_left]
    exact List.take_length
  -- the results lie above `pass`
  have hholds : Holds inner.frame ⟨f.pc, regs, m.heap, [], top, m.opened⟩
      (writeAll m.stack (f.base + g.register + 1) (Library.protectedResults r)) := by
    have hfunc : inner.frame.func < inner.frame.base := by
      dsimp only [inner]
      omega
    have hfits : f.base + g.register + (first :: others).length + nativeSlots + 2 ≤ maxSlots := by
      rw [List.length_cons]
      omega
    have hwritten := holds_writeAll m.stack g.register (first :: others) f.pc m.heap top m.opened hfunc hfits
    rwa [show m.stack.getD (inner.frame.base + g.register) .nil = .closure id from hregister, ← hresults] at hwritten
  have hexec : Exec inner (n + 2) ⟨f.pc, regs, m.heap, [], top, m.opened⟩ fun m' =>
      (Q m' ∨ Interrupted replaced.aside m') ∨ Interrupted replaced m' := by
    have hi : inner.frame.proto.code.getD f.pc default = .tailCall g.register 0 closes := by
      dsimp only [inner]
      rw [hproto, hpc]
      exact hcode
    refine Exec.tailCalls (first :: others) hi ?_ ?_ ?_ hid hargs rfl hclosure rfl ?_ ?_ hopened
      hcalmAside fun cells opened' junk hstay hjunk => next upvalues cells opened' top junk hstay (hstay.keeps hups) hjunk
    · exact hproto ▸ g.isVararg c
    · dsimp only [inner]
      omega
    · dsimp only [inner]
      omega
    · exact Nat.le_of_ble_eq_true rfl
    · have hstack : (Prelude.pass c).maxStack = 4 := rfl
      have hparams : (Prelude.pass c).paramCount = 1 := rfl
      dsimp only [inner]
      omega
  refine Reaches.advance (by rw [hcontrol]; trivial) ?_
  have hanswered : m.advance = (inner.counting m.countdown).seen ⟨f.pc, regs, m.heap, [], top, m.opened⟩
      (writeAll m.stack (f.base + g.register + 1) (Library.protectedResults r)) := by
    have hsize : (Library.protectedResults r).size = others.length + 1 := by rw [hresults]; rfl
    have hdone := advance_answered hcontrol hcallers hfinish hpending (hk _ _ _) regs []
    rw [hsize] at hdone
    exact hdone
  rw [hanswered]
  show Reaches (n + 2 + 1) _ _
  refine Reaches.trans (hexec hcalm m.countdown _ hholds) fun m' hm' => ?_
  have hfound {cut : Machine σ} (h : Interrupted cut m') (hcalm : Calm cut) (hhook : HookFinds cut → HookFinds m)
      (hrest : cut.callers = rest := by rfl) : Reaches 1 m' fun m' => Q m' ∨ SignalFound m rest m' :=
    (signalFound_interrupted h hcalm hhook).imp fun _ hsignal => .inr (hrest ▸ hsignal)
  rcases hm' with ((hdone | hinterrupted) | hinterrupted) | hinterrupted
  · exact Reaches.here (.inl hdone)
  · exact hfound hinterrupted hcalmAside fun h => ⟨h.interval, h.thread, h.hookOn, h.interrupted⟩
  · exact hfound hinterrupted hcalmReplaced fun h => ⟨h.interval, h.thread, h.hookOn, h.interrupted⟩
  · exact hfound hinterrupted hcalm fun h => ⟨h.interval, h.thread, h.hookOn, h.interrupted⟩

/-- A signal that a protected call caught is raised again: only variables may be shared no longer. -/
theorem raisedAgain_answered {g : Catcher} {c : Proto} {m : Machine σ} {w : Native σ} {f : Script.Frame}
    {rest : List (Activation σ)} {x : Value} (hcatches : Catches g c m w f) (hcontrol : m.control = .answer (.failed x))
    (hcallers : m.callers = .native w :: .script f :: rest) (hx : IsSignal m.heap x) :
    Reaches 13 m fun m' => RaisedTo rest x m' ∧ Again m f.depth m' ∨ SignalFound m rest m' := by
  have hlow := hcatches.room
  have hroom : f.base + [x].length + 30 ≤ maxSlots := by
    rw [List.length_singleton]
    omega
  have hresults : Library.protectedResults (.failed x) = (.bool false :: [x]).toArray := rfl
  refine hcatches.passes (n := 9) hcontrol hcallers hresults hroom fun upvalues cells opened top junk hstay hups hjunk => ?_
  refine Exec.imp (exec_pass rfl rfl hcatches.probe hups hjunk hx) fun m' hm' => ?_
  obtain ⟨hdepth, stack, top, frame, countdown, opened, raising, hraising, rfl⟩ := hm'
  exact
    ⟨⟨rfl, raising, hraising, rfl⟩,
      { heap := ⟨cells, hstay, rfl⟩
        beside := ⟨rfl, rfl, rfl, rfl, rfl⟩
        thread := rfl
        resumers := rfl
        closes := rfl
        depth := hdepth }⟩

theorem signalOn_answered {g : Catcher} {c : Proto} {m : Machine σ} {w : Native σ} {f : Script.Frame}
    {rest : List (Activation σ)} {x : Value} (hcatches : Catches g c m w f) (hcontrol : m.control = .answer (.failed x))
    (hcallers : m.callers = .native w :: .script f :: rest) (hx : IsSignal m.heap x) :
    Reaches 13 m (SignalOn m rest x) := by
  refine (raisedAgain_answered hcatches hcontrol hcallers hx).imp fun m' hm' => ?_
  rcases hm' with ⟨hraised, hagain⟩ | hfound
  · exact ⟨x, hraised, hagain.isSignal hx, .inl rfl⟩
  · exact hfound.signalOn x

/-! ### The handler before the script's one -/

/-- The handler that `xpcall` puts before the script's one begins, and is to be asked about a failure. -/
structure Asked (c : Proto) (x : Value) (m : Machine σ) : Prop where
  control : m.control = .execute
  proto : m.frame.proto = Prelude.handle c
  pc : m.frame.pc = 0
  begins : Begins m.frame [x] m.stack
  asks : m.heap.cells[m.frame.upvalues.getD 0 0]? = some (.closed (.native (.host 0)))
  probe : m.hosts[0]? = some Namespace.probe
  calm : Calm m

namespace Asked

variable {c : Proto} {x : Value} {m : Machine σ}

/-- Where the handler begins, all slots from some slot of a waiting function on up being seen. -/
theorem reaches {n : Nat} {Q : Machine σ → Prop} (hasked : Asked c x m) {s : Nat} (hs : s ≤ m.frame.func)
    (h : ∀ r1 r2, Exec m n ⟨0, [x, r1, r2], m.heap, junk m.stack s (m.frame.func - s), m.top, m.opened⟩ Q) :
    Reaches (n + 1) m fun m' => Q m' ∨ SignalFound m m.callers m' := by
  obtain ⟨hcontrol, hproto, hpc, hbegins, -, -, hcalm⟩ := hasked
  obtain ⟨r1, r2, hholds⟩ : ∃ r1 r2, Holds m.frame ⟨0, [x, r1, r2], m.heap, [], m.top, m.opened⟩ m.stack := by
    have hholds := hbegins.holds 0 m.heap m.top m.opened
    rw [hproto] at hholds
    exact ⟨_, _, hholds⟩
  have hexec := h r1 r2 hcalm m.countdown m.stack (hholds.showing hs)
  rw [seen_running hcontrol hpc rfl rfl rfl] at hexec
  refine hexec.trans fun m' hm' => ?_
  rcases hm' with hdone | hinterrupted
  · exact Reaches.here (.inl hdone)
  · exact (signalFound_interrupted hinterrupted hcalm id).imp fun _ => .inr

/-- The handler lets the signal pass. -/
theorem returns_signal (hasked : Asked c x m) (hx : IsSignal m.heap x) :
    Reaches 6 m fun m' => ReturnsValue m x m' ∨ SignalFound m m.callers m' := by
  have hcode : ∀ pc, m.frame.proto.code.getD pc default = (Prelude.handle c).code.getD pc default := by
    intro pc
    rw [hasked.proto]
  have hact : m.nativeAct (.host 0) #[x] m.heap m.host = .done #[.bool true] m.heap m.host := by
    rw [nativeAct, hasked.probe]
    exact probe_signal hx m.host
  refine hasked.reaches (n := 5) (Nat.le_refl _) fun r1 r2 => ?_
  refine Exec.getUpvalue (hcode 0) hasked.asks rfl ?_
  refine Exec.move (hcode 1) rfl rfl ?_
  refine Exec.call1_done [x] (hcode 2) rfl rfl hact ?_
  refine Exec.test (hcode 3) rfl ?_
  exact Exec.leaves [x] (hcode 5) rfl fun k stack => ⟨6, stack, m.top, k, rfl⟩

end Asked

/-- The handler that `xpcall` puts before the script's one is the one to be asked about a failure. -/
structure Handles (c : Proto) (m : Machine σ) (top depth : Nat) : Prop where
  handler : ∃ id on upvalues, guardOf m.callers = some ⟨.script (.closure id), on⟩ ∧
    m.heap.closures[id]? = some ⟨Prelude.handle c, upvalues⟩ ∧ Keeps m.heap.cells upvalues [.native (.host 0)]
  probe : m.hosts[0]? = some Namespace.probe
  innermost : ∃ yieldable, m.innermost = (top, depth, yieldable)
  depth : depth + 1 < maxDepth
  room : top + 40 ≤ maxSlots
  closes : m.mustClose (top + 1) = false

/-- It begins. -/
theorem Handles.begins {c : Proto} {m : Machine σ} {top depth : Nat} {x : Value} (hhandles : Handles c m top depth)
    (hcontrol : m.control = .raise x) :
    ∃ id on upvalues yieldable stack, guardOf m.callers = some ⟨.script (.closure id), on⟩ ∧
      m.heap.closures[id]? = some ⟨Prelude.handle c, upvalues⟩ ∧ Keeps m.heap.cells upvalues [.native (.host 0)] ∧
      m.advance = (m.called ⟨Prelude.handle c, upvalues⟩ top depth yieldable .handled 1).seen
        ⟨0, [], m.heap, [], m.top, m.opened⟩ stack ∧
      Begins (m.called ⟨Prelude.handle c, upvalues⟩ top depth yieldable .handled 1).frame [x] stack ∧
      ∀ i, i ≤ top → stack.getD i .nil = m.stack.getD i .nil := by
  obtain ⟨⟨id, on, upvalues, hguard, hclosure, hups⟩, hprobe, ⟨yieldable, hinner⟩, hdepth, hroom, hcloses⟩ := hhandles
  have hnative : nativeSlots = 20 := rfl
  have hstack : (Prelude.handle c).maxStack = 3 := rfl
  obtain ⟨-, -, hin, hbelow⟩ := writeAll_spec m.stack (top + 1) #[x]
  refine ⟨id, on, upvalues, mayYield .handled yieldable, stackFor (writeAll m.stack (top + 1) #[x]) (top + 1) 1 (Prelude.handle c),
    hguard, hclosure, hups, ?_, ?_, fun i hi => ?_⟩
  · simp only [Machine.advance, hcontrol, Machine.handle, hguard]
    exact enter_closure hinner hdepth hclosure (by rw [hstack]; show top + 1 + 1 + 3 ≤ maxSlots; omega) .handled [] []
  · refine begins_stackFor rfl rfl (Nat.le_of_ble_eq_true rfl) ?_ fun i y hi => hin i y (by simpa using hi)
    show top + 1 + 1 + 3 + nativeSlots + 2 ≤ maxSlots
    omega
  · have hsame : (stackFor (writeAll m.stack (top + 1) #[x]) (top + 1) 1 (Prelude.handle c)).getD i .nil
        = (writeAll m.stack (top + 1) #[x]).getD i .nil := getD_grown ..
    rw [hsame, hbelow i (Nat.lt_succ_of_le hi)]

/-- It is asked. -/
theorem Handles.asked {c : Proto} {m : Machine σ} {top depth : Nat} {x : Value} (hhandles : Handles c m top depth)
    (hcontrol : m.control = .raise x) :
    Asked c x m.advance ∧ m.advance.frame.finish = .handled ∧ m.advance.callers = m.callers ∧ m.advance.heap = m.heap ∧
      (HookFinds m.advance → HookFinds m) := by
  obtain ⟨id, on, upvalues, yieldable, stack, -, -, hups, hentered, hbegins, -⟩ := hhandles.begins hcontrol
  rw [hentered]
  exact ⟨⟨rfl, rfl, rfl, hbegins, hups 0 _ rfl, hhandles.probe, hhandles.closes⟩, rfl, rfl, rfl,
    fun h => ⟨h.interval, h.thread, h.hookOn, h.interrupted⟩⟩

/-- The handler lets the signal unwind as it is. -/
theorem signal_handled {c : Proto} {m : Machine σ} {top depth : Nat} {x : Value} (hhandles : Handles c m top depth)
    (hcontrol : m.control = .raise x) (hx : IsSignal m.heap x) :
    Reaches 7 m fun m' => m'.control = .unwind x ∧ m'.callers = m.callers ∧ m'.heap = m.heap ∨ SignalFound m m.callers m' := by
  obtain ⟨hasked, hfinish, hcallers, hheap, hhook⟩ := hhandles.asked hcontrol
  refine Reaches.advance (by rw [hcontrol]; trivial) ?_
  refine (hasked.returns_signal (hheap.symm ▸ hx)).imp fun m' hm' => ?_
  rcases hm' with ⟨pc, stack, top, countdown, rfl⟩ | ⟨hfinds, hraised⟩
  · refine .inl ?_
    rw [leave, show ({ m.advance.frame with pc } : Script.Frame).finish = .handled from hfinish]
    exact ⟨rfl, hcallers, hheap⟩
  · rw [hcallers] at hraised
    exact .inr ⟨hhook hfinds, hraised⟩

/-! ### Closing a thread -/

omit [Inhabited σ] in
/-- What closing a thread fails with is an answer, whatever it is. -/
theorem coClose_answers {h : Heap} {t : Nat} (ht : h.threads.getD t .dead = .dead ∨ h.threads.getD t .dead = .suspended)
    (s : σ) :
    ∃ k, Library.call .coClose #[.thread t] h s = .finish t k h s ∧
      ∀ x h' s', k (.failed x) h' s' = .done #[.bool false, x] h' s' := by
  have hfirst : Library.Args.at' #[.thread t] 1 = .thread t := rfl
  rcases ht with ht | ht
  all_goals
    simp only [Library.call, Library.coClose, Library.Args.thread, hfirst, Library.threadStatus, bind, pure,
      Outcome.andThen, Act.readHeap, ht, Act.finish]
    exact ⟨_, rfl, fun _ _ _ => rfl⟩

/-- **The termination signal and the functions that catch failures.**  The functions of the prelude raise it again, and the
handler that one of them puts before the script's lets it through.  What closes a thread is not among them: its failure is an
answer like others. -/
theorem signal_passes_catchers {m : Machine σ} {x : Value} (hx : IsSignal m.heap x) :
    (∀ g c w f rest, Catches g c m w f → m.control = .answer (.failed x) → m.callers = .native w :: .script f :: rest →
      Reaches 13 m (SignalOn m rest x)) ∧
    (∀ c top depth, Handles c m top depth → m.control = .raise x →
      Reaches 7 m fun m' => m'.control = .unwind x ∧ m'.callers = m.callers ∧ m'.heap = m.heap ∨ SignalOn m m.callers x m') ∧
    ∀ t, m.heap.threads.getD t .dead = .dead ∨ m.heap.threads.getD t .dead = .suspended →
      ∃ k, Library.call .coClose #[.thread t] m.heap m.host = .finish t k m.heap m.host ∧
        ∀ h s, k (.failed x) h s = .done #[.bool false, x] h s :=
  ⟨fun _ _ _ _ _ hcatches hcontrol hcallers => signalOn_answered hcatches hcontrol hcallers hx,
    fun _ _ _ hhandles hcontrol => (signal_handled hhandles hcontrol hx).imp fun _ => Or.imp_right (SignalFound.signalOn · x),
    fun _ ht => (coClose_answers ht m.host).imp fun _ ⟨hk, hanswer⟩ => ⟨hk, hanswer x⟩⟩

end

/-- The activation of a script function that waits in `pcall`. -/
def pcallFrame : Script.Frame :=
  { proto := Prelude.pcall default, upvalues := #[], func := 2, base := 3, pc := 6, argCount := 1, finish := .reply, depth := 0
    yieldable := false }

/-- The activation of the function that it called. -/
def pcallNative : Native Unit :=
  { self := some (builtin .pcall), top := 7, finish := .results 5 none, depth := 0, yieldable := false
    pending := .reply fun r h s => .done (Library.protectedResults r) h s }

/-- A script whose protected call has failed with the termination signal. -/
def caught : Machine Unit :=
  { heap := {
      closures := #[⟨Prelude.pass default, #[0, 1]⟩]
      cells := #[.closed (.native (.host 0)), .closed (builtin .error)], failures := #[.fault .signal] }
    host := (), hosts := #[Namespace.probe], interrupted := fun _ => false
    stack := #[.nil, .nil, .nil, .nil, .closure 0], callers := [.native pcallNative, .script pcallFrame]
    control := .answer (.failed (.failure 0)) }

theorem caught_catches : Catches .pcall default caught pcallNative pcallFrame where
  proto := rfl
  pc := rfl
  base := rfl
  above := Nat.le_of_ble_eq_true rfl
  finish := rfl
  pending := ⟨_, rfl, fun _ _ _ => rfl⟩
  pass := ⟨0, #[0, 1], rfl, rfl, .of_map rfl⟩
  probe := rfl
  room := Nat.le_of_ble_eq_true rfl
  closes := rfl
  opened := fun _ hs => absurd hs List.not_mem_nil

theorem signal_passes_catchers_caught :
    IsSignal caught.heap (.failure 0) ∧ Reaches 13 caught (SignalOn caught [] (.failure 0)) := by
  have hsignal : IsSignal caught.heap (.failure 0) := ⟨0, .signal, rfl, rfl, rfl⟩
  exact ⟨hsignal, (signal_passes_catchers hsignal).1 .pcall default _ _ _ caught_catches rfl rfl⟩

/-- A table, and the table in which its closing function lies. -/
def closedBy (f : Value) : Array Table := #[{ metatable := some 1 }, Library.tableOf [("__close", f)]]

theorem metamethod_closedBy {h : Heap} {f : Value} (htables : h.tables = closedBy f) :
    h.metamethod (.table 0) (Bytes.ofString "__close") = f := by
  have hmeta : h.metatable? (.table 0) = some 1 := by
    rw [Heap.metatable?, Heap.table, htables]
    rfl
  have htable : h.table 1 = Library.tableOf [("__close", f)] := by
    rw [Heap.table, htables]
    rfl
  obtain ⟨-, -, -, hfields⟩ := Table.setStrs_spec [("__close", f)] (Table.wellFormed_empty 0 1)
  rw [Heap.metamethod, hmeta]
  show (h.table 1).getStr _ = f
  rw [htable]
  exact hfields (List.pairwise_singleton _ _) "__close" f List.mem_cons_self

/-- The objects of a script with a suspended thread, one of whose variables is closed by a function of the host. -/
def closedByHost : Heap := { tables := closedBy (.native (.host 1)), threads := #[.running, .suspended] }

/-- The activation of the script that closes the thread. -/
def closerFrame : Script.Frame :=
  { proto := default, upvalues := #[], func := 1, base := 2, finish := .reply, depth := 0, yieldable := false }

/-- A script that closes the thread; the function of the host raises the termination signal. -/
def closer : Machine Unit :=
  { heap := closedByHost, host := (), hosts := #[Namespace.probe, fun _ => Act.raise (.host .signal)]
    interrupted := fun _ => true, stack := #[.nil, .nil, .nil, .nil], callers := [.script closerFrame, .native hostBase]
    parked := #[{}, { stack := #[.nil, .table 0], toClose := [1] }]
    control := .enter (builtin .coClose) #[.thread 1] (.results 2 none) }

/-- A thread fails with the termination signal while it is closed, and the script that closes it goes on with the signal as a
result. -/
theorem close_keeps_signal :
    (∀ resume, ("close", builtin .coClose) ∈ Namespace.offered "coroutine" resume) ∧
      Reaches 7 closer fun m' => m'.control = .execute ∧ m'.frame = closerFrame ∧ m'.stack.getD 2 .nil = .bool false ∧
        IsSignal m'.heap (m'.stack.getD 3 .nil) := by
  refine ⟨fun resume => ?_, ?_⟩
  · exact List.mem_cons_self
  -- the thread is closed by a function of the host
  let closing : Closing := { level := 1, reason := .nil, top := 1, depth := 1, yieldable := false, after := .reply #[] }
  have hclosing : closer.advance.advance = Machine.enter
      { closer.advance with toClose := [], callers := .closing closing :: closer.advance.callers.tail }
      (closedByHost.metamethod (.table 0) (Bytes.ofString "__close")) #[.table 0, .nil] .closed := rfl
  rw [metamethod_closedBy rfl] at hclosing
  -- its failure ends the thread
  let m₂ (trace : String) : Machine Unit := { closer.advance with
    toClose := [], control := .raise (.failure 0)
    heap := { closer.advance.heap with failures := #[.fault (.callback trace .signal)] }
    callers := .native { self := some (.native (.host 1)), top := 4, finish := .closed, depth := 2, yieldable := false } ::
      .closing closing :: closer.advance.callers.tail }
  have h₂ : ∃ trace, closer.advance.advance = m₂ trace := ⟨_, hclosing.trans rfl⟩
  obtain ⟨trace, h₂⟩ := h₂
  let m₄ : Machine Unit := { m₂ trace with
    control := .answer (.failed (.failure 0)), callers := closer.advance.callers.tail }
  have h₄ : (m₂ trace).advance.advance.advance = m₄ := rfl
  refine Reaches.advance trivial (Reaches.advance trivial ?_)
  rw [h₂]
  refine Reaches.advance trivial (Reaches.advance trivial (Reaches.advance trivial ?_))
  rw [h₄]
  -- the failure is an answer to the script
  have hanswered := advance_answered (m := m₄.advance) (r := .failed (.failure 0)) (f := closerFrame) rfl rfl rfl rfl rfl [] []
  refine Reaches.advance trivial (Reaches.advance trivial ?_)
  rw [hanswered]
  obtain ⟨-, -, hresults, -⟩ := writeAll_spec #[.nil, .nil, .nil, .nil] 2 #[.bool false, .failure 0]
  exact Reaches.here ⟨rfl, rfl, hresults 0 _ rfl, 0, .callback trace .signal, hresults 1 _ rfl, rfl, rfl⟩

end ScriptHost

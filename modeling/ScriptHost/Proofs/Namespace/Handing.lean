import ScriptHost.Proofs.Namespace.Capabilities
import ScriptHost.Proofs.Namespace.Passing

/-!
# Handing results on

The functions that the prelude puts before those that catch failures hand all arguments on, and all results back.

* `IsPanic` — a failure that no look at it leaves as it is;
* `Returns`, `CallsInPlace` — what a function of the prelude comes to;
* **`catchers_given`** — a frozen namespace has the functions of the prelude under the names of those of the language;
* `Begun`, `HandsOver` — such a function begins, and has the function of the language called with its arguments;
* `Catcher.Protects` — what the function of the language does then: it has something called, and answers as a protected call;
* `HandsBack` — what it answers is returned, or is raised again;
* **`handsOver_begun`**, **`handsBack_answered`** — the way there and the way back;
* **`callsInPlace_asked`** — the handler that `xpcall` puts before the script's one.

Results are copied once on their way through `pass`, so they need room twice: `overflows_answered` says what happens without it.
-/

namespace ScriptHost

open ScriptHost.Script ScriptHost.Script.Machine Namespace

/-- A failure that only the host may end, and that has not gone on since it was caught. -/
def IsPanic (h : Heap) (x : Value) : Prop := ∃ id message, x = .failure id ∧ h.failures[id]? = some (.panic message)

section
variable {σ : Type}

/-- Other values than the signal are told from it. -/
theorem probe_other {h : Heap} {x : Value} (hsignal : ¬ IsSignal h x) (hpanic : ¬ IsPanic h x) (s : σ) :
    Namespace.probe #[x] h s = .done #[.bool false] h s := by
  cases x with
  | failure id =>
    have hfirst : (#[Value.failure id] : Array Value).getD 0 .nil = .failure id := rfl
    cases hid : h.failures[id]? with
    | none =>
      have hget : h.failures.getD id default = .fault default := by
        rw [Array.getD_eq_getD_getElem?, hid]
        rfl
      simp only [Namespace.probe, hfirst, Binding.checkSpent, bind, hid, Outcome.andThen, Act.readHeap, hget]
      rfl
    | some failure =>
      have hget : h.failures.getD id default = failure := by
        rw [Array.getD_eq_getD_getElem?, hid, Option.getD_some]
      cases failure with
      | panic message => exact absurd ⟨id, message, rfl, hid⟩ hpanic
      | fault f =>
        have hf : f.isInterrupt = false := Bool.eq_false_iff.mpr fun hf => hsignal ⟨id, f, rfl, hid, hf⟩
        simp only [Namespace.probe, hfirst, Binding.checkSpent, bind, hid, Outcome.andThen, Act.readHeap, hget, hf]
        rfl
  | _ => rfl

/-- A panic that is looked at goes on, and a spent one is left. -/
theorem probe_panic {h : Heap} {id : Nat} {message : String} (hid : h.failures[id]? = some (.panic message)) (s : σ) :
    ∃ spent, Namespace.probe #[.failure id] h s = .raised (.panic message) { h with failures := put h.failures id spent } s := by
  have hfirst : (#[Value.failure id] : Array Value).getD 0 .nil = .failure id := rfl
  simp only [Namespace.probe, hfirst, Binding.checkSpent, bind, hid, Outcome.andThen]
  exact ⟨_, rfl⟩

/-- The running function returns some values; of the objects nothing changes but that variables are shared no longer. -/
def Returns (m : Machine σ) (vs : Array Value) (m' : Machine σ) : Prop :=
  ∃ frame stack top cells opened countdown, m' = leave { m with
    frame, stack, top, heap := m.heap.withCells cells, opened, countdown, control := .execute } vs ∧
      frame.finish = m.frame.finish

/-- A value is called with an argument in place of the running function. -/
def CallsInPlace [Inhabited σ] (m : Machine σ) (f x : Value) (m' : Machine σ) : Prop :=
  ∃ pc stack top slot countdown, m' = tailCallSlot { m with
    frame := { m.frame with pc }, stack, top, countdown, control := .execute } slot 1 ∧
      stack.getD slot .nil = f ∧ stack.getD (slot + 1) .nil = x

/-! ### Functions that catch failures -/

namespace Catcher

/-- The function of the language. -/
def own : Catcher → Builtin
  | pcall => .pcall
  | xpcall => .xpcall
  | resume => .coResume

/-- What a function keeps: `pass`, the function of the language and, if it makes a handler, the probe. -/
def kept (pass : Nat) : Catcher → List Value
  | xpcall => [.closure pass, builtin .xpcall, .native (.host 0)]
  | g => [.closure pass, builtin g.own]

/-- A value is what a script has under the name of a function. -/
def IsUnder (space : Namespace) (m : Machine σ) (v : Value) : Catcher → Prop
  | pcall => field m space.host "pcall" = v
  | xpcall => field m space.host "xpcall" = v
  | resume => Shows m.heap "coroutine" (field m space.host "coroutine") v

end Catcher

/-- What is done when a call has its answer: the answer is one of a protected call. -/
def AnswersProtected (k : Reply → Heap → σ → Script.Outcome σ (Array Value)) : Prop :=
  ∀ r h s, k r h s = .done (Library.protectedResults r) h s

/-- The function of the language has a value called under a guard, or a thread go on, with all its other arguments, and answers
as a protected call. -/
def Catcher.Protects (h : Heap) (s : σ) : Catcher → Prop
  | pcall => ∀ f args, ∃ k, AnswersProtected k ∧
      Library.call pcall.own (List.toArray (f :: args)) h s = .call f args.toArray ⟨some .none, true⟩ k h s
  | xpcall => ∀ f id args, ∃ k, AnswersProtected k ∧
      Library.call xpcall.own (List.toArray (f :: .closure id :: args)) h s
        = .call f args.toArray ⟨some (.script (.closure id)), true⟩ k h s
  | resume => ∀ t args, ∃ k, AnswersProtected k ∧
      Library.call resume.own (List.toArray (.thread t :: args)) h s = .resume t args.toArray k h s

/-- A function that catches failures begins. -/
structure Begun (g : Catcher) (c : Proto) (args : List Value) (m : Machine σ) : Prop where
  control : m.control = .execute
  proto : m.frame.proto = g.proto c
  pc : m.frame.pc = 0
  begins : Begins m.frame args m.stack
  room : m.frame.base + 2 * args.length + 43 ≤ maxSlots
  kept : ∃ pass upvalues, Keeps m.heap.cells m.frame.upvalues (g.kept pass) ∧
    m.heap.closures[pass]? = some ⟨Prelude.pass c, upvalues⟩ ∧
      Keeps m.heap.cells upvalues [.native (.host 0), builtin .error]
  probe : m.hosts[0]? = some Namespace.probe
  calm : Calm m
  opened : OpenCells m.heap.cells m.opened
  /-- Slots are shared below only. -/
  apart : ∀ s ∈ m.opened, s.1 < m.frame.base

/-- A variable of a function that waits, below some slot, is shared with the handler: it holds the script's one. -/
def HasHandler (upvalues : Array Nat) (level : Nat) (f : Value) (m : Machine σ) : Prop :=
  ∃ s < level, m.heap.cells[upvalues.getD 1 0]? = some (.opened m.thread s) ∧ m.stack.getD s .nil = f

/-- The arguments for the function of the language: the same ones, but for a handler before the script's one, which is a new
object. -/
def Handed (c : Proto) (args : List Value) (m inner : Machine σ) (handed : List Value) : Catcher → Prop
  | .xpcall => ∃ upvalues cells, handed = args.getD 0 .nil :: .closure m.heap.closures.size :: args.drop 2 ∧
      inner.heap = (m.heap.withCells cells).withClosure ⟨Prelude.handle c, upvalues⟩ ∧ CellsStay m.heap.cells cells ∧
      Keeps cells upvalues [.native (.host 0)] ∧ HasHandler upvalues (inner.frame.base + 2) (args.getD 1 .nil) inner
  | _ => handed = args.getD 0 .nil :: args.drop 1 ∧ inner.heap = m.heap

/-- The function of the language is called with some arguments for the running function, which will hand back what it answers. -/
structure HandsOver [Inhabited σ] (g : Catcher) (c : Proto) (args : List Value) (m inner : Machine σ) (handed : List Value)
    (m' : Machine σ) : Prop where
  calls : m' = inner.perform
    (calling m (.builtin g.own) (m.aside.frame.base + g.register + 2 + handed.length)
      (.results (m.aside.frame.base + g.register + 1) none))
    (Library.call g.own handed.toArray)
  handed : Handed c args m inner handed g
  /-- It waits for the results. -/
  waits : ∃ stack top heap opened countdown, inner = { m with
    frame := { m.aside.frame with pc := g.next }, stack, top, heap, opened, countdown, control := .execute }
  catches : ∀ n : Native σ, n.finish = .results (m.aside.frame.base + g.register + 1) none →
    (∃ k, n.pending = .reply k ∧ AnswersProtected k) → Catches g c inner n inner.frame

/-! ### What a script has under their names -/

/-- In a frozen namespace the functions of the prelude are under the names of those of the language. -/
theorem Frozen.isUnder {p : Proto} {b : Builder} {l : Layout} {m : Machine σ} (hfrozen : Frozen p b l m.heap)
    (haccepted : Accepted b) {space : Namespace} (hspace : space.host = l.host) (g : Catcher)
    (hthere : g = .resume → "coroutine" ∈ b.mode.libraries) :
    ∃ id, g.IsUnder space m (.closure id) ∧ IsMade m.heap id (g.proto p) (g.kept (l.helpers + 3)) := by
  cases g with
  | pcall =>
    refine ⟨l.helpers + 4, ?_, hfrozen.passes.pcall⟩
    rw [Catcher.IsUnder, field_eq, hspace, hfrozen.find_guarded haccepted (.inr (.inl rfl))]
    rfl
  | xpcall =>
    refine ⟨l.helpers + 5, ?_, hfrozen.passes.xpcall⟩
    rw [Catcher.IsUnder, field_eq, hspace, hfrozen.find_guarded haccepted (.inr (.inr rfl))]
    rfl
  | resume =>
    have hmem := hthere rfl
    have hresume : vmResume b.mode = builtin .coResume := by
      rw [vmResume, if_pos (List.contains_iff_mem.mpr hmem)]
    obtain ⟨i, hi⟩ := List.getElem?_of_mem hmem
    have hshows := (hfrozen.library i "coroutine" hi).shows hmem
    have hmade := hfrozen.passes.resume (by rw [hresume]; rfl)
    rw [hresume] at hshows hmade
    refine ⟨l.helpers + 6, ?_, hmade⟩
    rw [Catcher.IsUnder, field_eq, hspace, hfrozen.find_library haccepted hi]
    exact hshows

/-- **A frozen namespace** has the functions of the prelude under the names of those of the language, whatever is bound. -/
theorem catchers_given [Inhabited σ] {m : Machine σ} (hm : m.interval = 0) {mode : Mode} {xs : List (String × Value)} {b : Builder}
    (hb : (⟨mode, []⟩ : Builder).bindAll xs = .ok b) :
    ∃ c pass, IsMade (b.freeze m).2.heap pass (Prelude.pass c) [.native (.host 0), builtin .error] ∧
      ∀ g : Catcher, (g = .resume → "coroutine" ∈ mode.libraries) →
        ∃ id, g.IsUnder (b.freeze m).1 (b.freeze m).2 (.closure id) ∧ IsMade (b.freeze m).2.heap id (g.proto c) (g.kept pass) := by
  obtain ⟨haccepted, rfl, -⟩ := Builder.accepted_of_ok hb
  obtain ⟨p, l, m', hfreeze, hfrozen, -⟩ := freeze_spec hm b
  rw [hfreeze]
  exact ⟨p, l.helpers + 3, hfrozen.passes.pass, fun g hthere => hfrozen.isUnder haccepted rfl g hthere⟩

/-! ### What the functions of the language do -/

theorem from_two (f : Value) (args : List Value) : Library.Args.from' (f :: args).toArray 2 = args.toArray := by
  apply Array.toList_inj.mp
  simp [Library.Args.from', List.extract_eq_take_drop]

theorem from_three (f h : Value) (args : List Value) : Library.Args.from' (f :: h :: args).toArray 3 = args.toArray := by
  apply Array.toList_inj.mp
  simp [Library.Args.from', List.extract_eq_take_drop]

theorem protects_pcall (h : Heap) (s : σ) : Catcher.pcall.Protects h s := by
  intro f args
  refine ⟨_, fun _ _ _ => rfl, ?_⟩
  have hany : Library.Args.any (σ := σ) (f :: args).toArray 1 = pure f := by
    rw [Library.Args.any, if_neg (by simp)]
    rfl
  show Library.basePcall (f :: args).toArray h s = _
  rw [Library.basePcall, hany, from_two]
  rfl

theorem protects_xpcall (h : Heap) (s : σ) : Catcher.xpcall.Protects h s := by
  intro f id args
  refine ⟨_, fun _ _ _ => rfl, ?_⟩
  show Library.baseXpcall (f :: .closure id :: args).toArray h s = _
  rw [Library.baseXpcall, from_three]
  rfl

theorem protects_resume (h : Heap) (s : σ) : Catcher.resume.Protects h s := by
  intro t args
  refine ⟨fun r h s => .done (Library.protectedResults r) h s, fun _ _ _ => rfl, ?_⟩
  show Library.coResume (.thread t :: args).toArray h s = _
  rw [Library.coResume, from_two]
  show Script.Outcome.resume _ _ _ _ _ = _
  congr 1
  funext r h s
  cases r <;> rfl

/-- **The functions of the language** are protected calls. -/
theorem Catcher.protects (g : Catcher) (h : Heap) (s : σ) : g.Protects h s := by
  cases g with
  | pcall => exact protects_pcall h s
  | xpcall => exact protects_xpcall h s
  | resume => exact protects_resume h s

/-! ### The way there -/

theorem parameters_one (args : List Value) : parameters args 1 = [args.getD 0 .nil] := by
  cases args <;> rfl

theorem parameters_two (args : List Value) : parameters args 2 = [args.getD 0 .nil, args.getD 1 .nil] := by
  rcases args with _ | ⟨f, _ | ⟨h, rest⟩⟩ <;> rfl

variable [Inhabited σ] {m : Machine σ} {heap : Heap} {opened : List (Nat × Nat)} {top : Nat}

/-- A function with one parameter hands all its arguments over. -/
theorem exec_handsOver {c : Proto} {pass : Nat} {r : NativeRef} {f : Value} {others junk : List Value} {Q : Machine σ → Prop}
    (hcode : ∀ pc, m.frame.proto.code.getD pc default = (Prelude.pcall c).code.getD pc default)
    (hstack : m.frame.proto.maxStack = 5) (hextra : m.frame.extra = others.length) (hjunk : junk.length = 4)
    (hups : Keeps heap.cells m.frame.upvalues [.closure pass, .native r])
    (hroom : m.frame.base + others.length + 26 ≤ maxSlots)
    (hQ : ∀ k stack v, Holds m.frame ⟨5, [f, .closure pass, .native r, f] ++ others, heap, others, v, opened⟩ stack →
      Q (((m.counting k).seen ⟨6, [f, .closure pass, .native r, f] ++ others, heap, others, v, opened⟩ stack).perform
        (calling m r (m.frame.base + 2 + 1 + (others.length + 1)) (.results (m.frame.base + 2) none))
        (m.nativeAct r (f :: others).toArray))) :
    Exec m 5 ⟨1, f :: junk, heap, others, top, opened⟩ Q := by
  have hnative : nativeSlots = 20 := rfl
  match junk, hjunk with
  | [r1, r2, r3, r4], _ =>
  refine Exec.getUpvalue (hcode 1) (hups 0 _ rfl) rfl ?_
  refine Exec.getUpvalue (hcode 2) (hups 1 _ rfl) rfl ?_
  refine Exec.move (hcode 3) rfl rfl ?_
  refine Exec.varargs (hcode 4) hextra (Nat.le_of_ble_eq_true rfl) (by omega) (by omega) ?_
  refine Exec.performs (f :: others) (hcode 5) rfl (List.take_length (l := f :: others)) ?_ fun k stack hholds => ?_
  · rw [if_pos rfl, List.length_cons]
    omega
  · exact hQ k stack _ hholds

omit [Inhabited σ] in
/-- Sharing a slot above all that are shared. -/
theorem shareSlot_new {thread slot : Nat} {cells : Array Cell} (hnew : ∀ s ∈ opened, s.1 < slot) :
    shareSlot thread slot cells opened
      = (cells.size, cells.push (.opened thread slot), insertShared opened slot cells.size) := by
  cases hcell : sharedCell? opened slot with
  | some c => exact absurd (hnew _ (mem_of_sharedCell? hcell)) (Nat.lt_irrefl slot)
  | none => simp only [shareSlot, hcell]

omit [Inhabited σ] in
/-- One more slot is shared. -/
theorem openCells_insert {cells : Array Cell} (hopened : OpenCells cells opened) (thread slot : Nat) :
    OpenCells (cells.push (.opened thread slot)) (insertShared opened slot cells.size) := by
  intro s hs x hx
  rw [Array.getElem?_push] at hx
  split at hx
  · exact absurd hx nofun
  · rcases mem_insertShared.mp hs with rfl | hs
    · rename_i hne
      exact hne rfl
    · exact hopened s hs x hx

/-- A function with a handler hands all its arguments over, but for a handler before the given one. -/
theorem exec_handsOver_handler {c : Proto} {pass : Nat} {f handler : Value} {others junk : List Value} {Q : Machine σ → Prop}
    (hproto : m.frame.proto = Prelude.xpcall c) (hextra : m.frame.extra = others.length) (hjunk : junk.length = 5)
    (hups : Keeps heap.cells m.frame.upvalues [.closure pass, builtin .xpcall, .native (.host 0)])
    (hroom : m.frame.base + others.length + 28 ≤ maxSlots) (hapart : ∀ s ∈ opened, s.1 < m.frame.base)
    {regs : List Value} (hregs : regs = [f, handler, .closure pass, builtin .xpcall, f, .closure heap.closures.size] ++ others)
    {heap' : Heap} (hheap : heap' = (heap.withCells (heap.cells.push (.opened m.thread (m.frame.base + 1)))).withClosure
      ⟨Prelude.handle c, #[m.frame.upvalues.getD 2 0, heap.cells.size]⟩)
    {opened' : List (Nat × Nat)} (hopened : opened' = insertShared opened (m.frame.base + 1) heap.cells.size)
    (hQ : ∀ k stack v, Holds m.frame ⟨6, regs, heap', others, v, opened'⟩ stack →
      Q (((m.counting k).seen ⟨7, regs, heap', others, v, opened'⟩ stack).perform
        (calling m (.builtin .xpcall) (m.frame.base + 3 + 1 + (others.length + 2)) (.results (m.frame.base + 3) none))
        (m.nativeAct (.builtin .xpcall) (f :: .closure heap.closures.size :: others).toArray))) :
    Exec m 6 ⟨1, f :: handler :: junk, heap, others, top, opened⟩ Q := by
  subst hregs hheap hopened
  have hnative : nativeSlots = 20 := rfl
  have hcode : ∀ pc, m.frame.proto.code.getD pc default = (Prelude.xpcall c).code.getD pc default := by
    intro pc
    rw [hproto]
  have hstack : m.frame.proto.maxStack = 7 := by rw [hproto]; rfl
  have hinner : m.frame.proto.inner.getD 0 default = Prelude.handle c := by rw [hproto]; rfl
  have hcapture : captureSlots m.thread m.frame.base m.frame.upvalues heap.cells opened (Prelude.handle c).upvalues.toList #[]
      = (#[m.frame.upvalues.getD 2 0, heap.cells.size], heap.cells.push (.opened m.thread (m.frame.base + 1)),
          insertShared opened (m.frame.base + 1) heap.cells.size) := by
    have hshare : shareSlot m.thread (m.frame.base + 1) heap.cells opened
        = (heap.cells.size, heap.cells.push (.opened m.thread (m.frame.base + 1)),
            insertShared opened (m.frame.base + 1) heap.cells.size) :=
      shareSlot_new fun s hs => Nat.lt_succ_of_lt (hapart s hs)
    show (#[m.frame.upvalues.getD 2 0, (shareSlot m.thread (m.frame.base + 1) heap.cells opened).1],
      (shareSlot m.thread (m.frame.base + 1) heap.cells opened).2) = _
    rw [hshare]
  match junk, hjunk with
  | [r1, r2, r3, r4, r5], _ =>
  refine Exec.getUpvalue (hcode 1) (hups 0 _ rfl) rfl ?_
  refine Exec.getUpvalue (hcode 2) (hups 1 _ rfl) rfl ?_
  refine Exec.move (hcode 3) rfl rfl ?_
  refine Exec.closure (Prelude.handle c) _ _ _ (hcode 4) hinner hcapture rfl ?_
  refine Exec.varargs (hcode 5) hextra (Nat.le_of_ble_eq_true rfl) (by omega) (by omega) ?_
  refine Exec.performs (f :: .closure heap.closures.size :: others) (hcode 6) rfl (List.take_length
    (l := f :: .closure heap.closures.size :: others)) ?_ fun k stack hholds => ?_
  · rw [if_pos rfl, List.length_cons, List.length_cons]
    omega
  · exact hQ k stack _ hholds

omit [Inhabited σ] in
/-- The function that waits for what the one of the language answers. -/
theorem Begun.catches {g : Catcher} {c : Proto} {args : List Value} (hbegun : Begun g c args m) {frame : Script.Frame}
    (hframe : frame = { m.aside.frame with pc := g.next }) {stack : Array Value} {pass countdown : Nat} {upvalues : Array Nat}
    (hpass : stack.getD (frame.base + g.register) .nil = .closure pass)
    (hclosure : heap.closures[pass]? = some ⟨Prelude.pass c, upvalues⟩)
    (hups : Keeps heap.cells upvalues [.native (.host 0), builtin .error]) (hopened : OpenCells heap.cells opened)
    {n : Native σ} (hfinish : n.finish = .results (frame.base + g.register + 1) none)
    (hpending : ∃ k, n.pending = .reply k ∧ AnswersProtected k) :
    Catches g c { m with frame, stack, top, heap, opened, countdown, control := .execute } n frame := by
  have hbase := hbegun.begins.base
  have hcount := hbegun.begins.count
  have hroom := hbegun.room
  have hparams : m.frame.proto.paramCount ≤ 2 := by
    rw [hbegun.proto]
    cases g <;> exact Nat.le_of_ble_eq_true rfl
  subst hframe
  exact
    { proto := hbegun.proto
      pc := rfl
      base := rfl
      above := Nat.succ_le_succ (Nat.le_add_left ..)
      finish := hfinish
      pending := hpending
      pass := ⟨pass, upvalues, hpass, hclosure, hups⟩
      probe := hbegun.probe
      room := by
        show m.frame.func + m.frame.argCount + 2 + 40 ≤ maxSlots
        omega
      closes := by
        refine mustClose_mono (m := m) hbegun.calm ?_ rfl
        show m.frame.base ≤ m.frame.func + m.frame.argCount + 1 - m.frame.argCount
        omega
      opened := hopened }

/-- The functions without a handler are alike. -/
theorem Catcher.plain {g : Catcher} (hg : g ≠ .xpcall) (c : Proto) :
    (g.proto c).code = (Prelude.pcall c).code ∧ (g.proto c).maxStack = 5 ∧ g.next = 6 ∧ g.register = 1 ∧
      ∀ pass, g.kept pass = [.closure pass, builtin g.own] := by
  cases g with
  | xpcall => exact absurd rfl hg
  | _ => exact ⟨rfl, rfl, rfl, rfl, fun _ => rfl⟩

theorem Begun.exec_plain {g : Catcher} {c : Proto} {args junk : List Value} (hbegun : Begun g c args m) (hg : g ≠ .xpcall)
    (hextra : m.frame.argCount - m.frame.proto.paramCount = (args.drop 1).length)
    (hroom : m.aside.frame.base + (args.drop 1).length + 26 ≤ maxSlots) (hjunk : junk.length = 4) :
    Exec m.aside 5 ⟨1, args.getD 0 .nil :: junk, m.heap, args.drop 1, m.top, m.opened⟩
      fun m' => ∃ inner handed, HandsOver g c args m inner handed m' := by
  obtain ⟨hcode, hstack, hnext, hregister, hkeeps⟩ := Catcher.plain hg c
  obtain ⟨pass, upvalues, hkept, hclosure, hups⟩ := hbegun.kept
  rw [hkeeps] at hkept
  refine exec_handsOver (c := c) (r := .builtin g.own) (fun pc => ?_) ?_ hextra hjunk hkept hroom
    fun k stack v hholds => ?_
  · show m.frame.proto.code.getD pc default = _
    rw [hbegun.proto, hcode]
  · show m.frame.proto.maxStack = 5
    rw [hbegun.proto, hstack]
  · let inner : Machine σ := { m with
      frame := { m.aside.frame with pc := 6 }, stack, top := v, countdown := k, control := .execute }
    refine ⟨inner, args.getD 0 .nil :: args.drop 1, ?_⟩
    exact
      { calls := by
          rw [hregister]
          rfl
        handed := by
          cases g with
          | xpcall => exact absurd rfl hg
          | _ => exact ⟨rfl, rfl⟩
        waits := ⟨stack, v, m.heap, m.opened, k, by rw [hnext]⟩
        catches := fun n hn hpending => by
          refine hbegun.catches (by rw [hnext]) ?_ hclosure hups hbegun.opened hn hpending
          rw [hregister]
          exact hholds.reg 1 _ rfl }

theorem Begun.exec_handler {c : Proto} {args junk : List Value} (hbegun : Begun .xpcall c args m)
    (hextra : m.frame.argCount - m.frame.proto.paramCount = (args.drop 2).length)
    (hroom : m.aside.frame.base + (args.drop 2).length + 28 ≤ maxSlots) (hjunk : junk.length = 5) :
    Exec m.aside 6 ⟨1, args.getD 0 .nil :: args.getD 1 .nil :: junk, m.heap, args.drop 2, m.top, m.opened⟩
      fun m' => ∃ inner handed, HandsOver .xpcall c args m inner handed m' := by
  obtain ⟨pass, upvalues, hkept, hclosure, hups⟩ := hbegun.kept
  have hbase := hbegun.begins.base
  have hapart : ∀ s ∈ m.opened, s.1 < m.aside.frame.base := by
    intro s hs
    have hlow := hbegun.apart s hs
    show s.1 < m.frame.func + m.frame.argCount + 2
    omega
  let cells := m.heap.cells.push (.opened m.thread (m.aside.frame.base + 1))
  let made : Closure := ⟨Prelude.handle c, #[m.frame.upvalues.getD 2 0, m.heap.cells.size]⟩
  have hstay : CellsStay m.heap.cells cells := CellsStay.push _ _
  refine exec_handsOver_handler hbegun.proto hextra hjunk hkept hroom hapart rfl rfl rfl fun k stack v hholds => ?_
  let inner : Machine σ := { m with
    frame := { m.aside.frame with pc := 7 }, stack, top := v, heap := (m.heap.withCells cells).withClosure made
    opened := insertShared m.opened (m.aside.frame.base + 1) m.heap.cells.size, countdown := k, control := .execute }
  refine ⟨inner, args.getD 0 .nil :: .closure m.heap.closures.size :: args.drop 2, ?_⟩
  exact
    { calls := rfl
      handed := by
        refine ⟨made.upvalues, cells, rfl, rfl, hstay, fun u x hu => ?_, m.aside.frame.base + 1, Nat.lt_succ_self _,
          Array.getElem?_push_size, hholds.reg 1 _ rfl⟩
        match u, hu with
        | 0, hu =>
          rw [← Option.some.inj hu]
          exact hstay _ _ (hkept 2 _ rfl)
      waits := ⟨stack, v, _, _, k, rfl⟩
      catches := fun n hn hpending => by
        refine hbegun.catches rfl (hholds.reg 2 _ rfl) ?_ (hstay.keeps hups) (openCells_insert hbegun.opened _ _) hn hpending
        have hlow := (Array.getElem?_eq_some_iff.mp hclosure).1
        show (m.heap.closures.push _)[pass]? = _
        rw [Array.getElem?_push, if_neg (by omega), hclosure] }

/-- **A function that catches failures** has the function of the language called with its arguments. -/
theorem handsOver_begun {g : Catcher} {c : Proto} {args : List Value} (hbegun : Begun g c args m) :
    Reaches 8 m fun m' => (∃ inner handed, HandsOver g c args m inner handed m') ∨ SignalFound m m.callers m' := by
  have hbase := hbegun.begins.base
  have hcount := hbegun.begins.count
  have hroom := hbegun.room
  have hcalmAside : Calm m.aside := mustClose_mono (m := m) hbegun.calm (by dsimp only [aside]; omega) rfl
  have haside : m.aside.frame.base = m.frame.func + m.frame.argCount + 2 := rfl
  have hdrop (k : Nat) : (args.drop k).length = args.length - k := List.length_drop
  have hexec (junk : List Value) (hjunk : junk.length = m.frame.proto.maxStack - m.frame.proto.paramCount) :
      Exec m.aside 6 ⟨1, parameters args m.frame.proto.paramCount ++ junk, m.heap, args.drop m.frame.proto.paramCount, m.top,
        m.opened⟩ fun m' => ∃ inner handed, HandsOver g c args m inner handed m' := by
    by_cases hg : g = .xpcall
    · subst hg
      have hparams : m.frame.proto.paramCount = 2 := by rw [hbegun.proto]; rfl
      have hstack : m.frame.proto.maxStack = 7 := by rw [hbegun.proto]; rfl
      have hdropped := hdrop 2
      rw [hparams, parameters_two]
      exact hbegun.exec_handler (by omega) (by omega) (show junk.length = 5 by omega)
    · have hparams : m.frame.proto.paramCount = 1 := by
        rw [hbegun.proto]
        cases g with
        | xpcall => exact absurd rfl hg
        | _ => rfl
      have hstack : m.frame.proto.maxStack = 5 := by rw [hbegun.proto, (Catcher.plain hg c).2.1]
      have hdropped := hdrop 1
      rw [hparams, parameters_one]
      exact (hbegun.exec_plain hg (by omega) (by omega) (show junk.length = 4 by omega)).mono (Nat.le_succ 5)
  have hcode : m.frame.proto.code.getD 0 default = .varargPrep m.frame.proto.paramCount := by
    rw [hbegun.proto]
    cases g <;> rfl
  have hbegan := Reaches.begins m.countdown hbegun.begins hcode hcalmAside hexec
  rw [seen_running hbegun.control hbegun.pc rfl rfl rfl] at hbegan
  refine hbegan.trans (k := 1) fun m' hm' => ?_
  rcases hm' with (hdone | hinterrupted) | hinterrupted
  · exact Reaches.here (.inl hdone)
  · have hhook (h : HookFinds m.aside) : HookFinds m := ⟨h.interval, h.thread, h.hookOn, h.interrupted⟩
    exact (signalFound_interrupted hinterrupted hcalmAside hhook).imp fun _ => .inr
  · exact (signalFound_interrupted hinterrupted hbegun.calm id).imp fun _ => .inr

/-! ### The way back -/

omit [Inhabited σ] in
/-- A function goes on waiting while its slot, what `pass` keeps and the functions of the host stay, and nothing has to be closed
above it. -/
theorem Catches.stays {g : Catcher} {c : Proto} {m' : Machine σ} {w : Native σ} {f : Script.Frame} (h : Catches g c m w f)
    (hstack : m'.stack.getD (f.base + g.register) .nil = m.stack.getD (f.base + g.register) .nil)
    (hpass : ∀ id xs, IsMade m.heap id (Prelude.pass c) xs → IsMade m'.heap id (Prelude.pass c) xs) (hhosts : m'.hosts = m.hosts)
    (hcloses : m'.mustClose (f.func - f.argCount) = false) (hopened : OpenCells m'.heap.cells m'.opened) :
    Catches g c m' w f where
  proto := h.proto
  pc := h.pc
  base := h.base
  above := h.above
  finish := h.finish
  pending := h.pending
  pass := by
    obtain ⟨id, upvalues, hregister, hclosure, hups⟩ := h.pass
    obtain ⟨upvalues', hclosure', hups'⟩ := hpass id _ ⟨upvalues, hclosure, hups⟩
    exact ⟨id, upvalues', hstack.trans hregister, hclosure', hups'⟩
  probe := by
    rw [hhosts]
    exact h.probe
  room := h.room
  closes := hcloses
  opened := hopened

/-- The function `pass` hands on what is no signal. -/
theorem exec_hands {c : Proto} {first : Value} {others junk : List Value} {Q : Machine σ → Prop}
    (hproto : m.frame.proto = Prelude.pass c)
    (hextra : m.frame.extra = others.length) (hprobe : m.hosts[0]? = some Namespace.probe)
    (hups : Keeps heap.cells m.frame.upvalues [.native (.host 0), builtin .error]) (hjunk : junk.length = 3)
    (hother : first.truthy = false → ∃ x, others[0]? = some x ∧ ¬ IsSignal heap x ∧ ¬ IsPanic heap x)
    (hroom : m.frame.base + others.length + 25 ≤ maxSlots)
    (hQ : ∀ k stack top, Q (((m.counting k).seen ⟨15, [first, first] ++ others, heap, others, top, opened⟩ stack).leave
      (first :: others).toArray)) :
    Exec m 8 ⟨1, first :: junk, heap, others, top, opened⟩ Q := by
  have hcode : ∀ pc, m.frame.proto.code.getD pc default = (Prelude.pass c).code.getD pc default := by
    intro pc
    rw [hproto]
  have hstack : m.frame.proto.maxStack = 4 := by rw [hproto]; rfl
  have hnative : nativeSlots = 20 := rfl
  -- all is handed on
  have hreturns (r1 r2 r3 : Value) (top : Nat) : Exec m 3 ⟨12, [first, r1, r2, r3], heap, others, top, opened⟩ Q := by
    refine Exec.move (hcode 12) rfl rfl ?_
    refine Exec.varargs (hcode 13) hextra (Nat.le_of_ble_eq_true rfl) (by omega) (by omega) ?_
    refine Exec.leavesAll (first :: others) (hcode 14) (List.take_length (l := first :: others)) ?_ fun k stack => hQ k stack _
    rw [List.length_cons]
    omega
  match junk, hjunk with
  | [r1, r2, r3], _ =>
  cases hfirst : first.truthy with
  | true =>
    refine (Exec.test (n := 3) (hcode 1) rfl ?_).mono (Nat.le_of_ble_eq_true rfl)
    have htarget : target m.frame 1 first.truthy true = 12 := by
      rw [hfirst, target, hproto]
      rfl
    rw [htarget]
    exact hreturns r1 r2 r3 top
  | false =>
    -- the failure is looked at
    obtain ⟨x, hx, hsignal, hpanic⟩ := hother hfirst
    have hact : m.nativeAct (.host 0) #[x] heap m.host = .done #[.bool false] heap m.host := by
      rw [nativeAct, hprobe]
      exact probe_other hsignal hpanic m.host
    refine Exec.test (hcode 1) rfl ?_
    have htarget : target m.frame 1 first.truthy true = 3 := by
      rw [hfirst]
      rfl
    rw [htarget]
    refine Exec.getUpvalue (hcode 3) (hups 0 _ rfl) rfl ?_
    refine Exec.vararg (hcode 4) hextra hx rfl ?_
    refine Exec.call1_done [x] (hcode 5) rfl rfl hact ?_
    refine Exec.test (hcode 6) rfl ?_
    have hpast : target m.frame 6 ((#[Value.bool false] : Array Value).getD 0 .nil).truthy false = 12 := by
      rw [target, hproto]
      rfl
    rw [hpast]
    exact hreturns _ _ _ _

/-- The function `pass` lets a panic go on. -/
theorem exec_panics {c : Proto} {first x : Value} {junk : List Value} (hproto : m.frame.proto = Prelude.pass c)
    (hextra : m.frame.extra = 1) (hprobe : m.hosts[0]? = some Namespace.probe)
    (hups : Keeps heap.cells m.frame.upvalues [.native (.host 0), builtin .error]) (hjunk : junk.length = 3)
    (hfirst : first.truthy = false) (hx : IsPanic heap x) :
    Exec m 5 ⟨1, first :: junk, heap, [x], top, opened⟩ fun m' => ∃ y, RaisedTo m.callers y m' ∧ IsPanic m'.heap y := by
  obtain ⟨id, message, rfl, hid⟩ := hx
  have hcode : ∀ pc, m.frame.proto.code.getD pc default = (Prelude.pass c).code.getD pc default := by
    intro pc
    rw [hproto]
  match junk, hjunk with
  | [r1, r2, r3], _ =>
  refine Exec.test (hcode 1) rfl ?_
  have htarget : target m.frame 1 first.truthy true = 3 := by
    rw [hfirst]
    rfl
  rw [htarget]
  refine Exec.getUpvalue (hcode 3) (hups 0 _ rfl) rfl ?_
  refine Exec.vararg (hcode 4) hextra rfl rfl ?_
  refine Exec.performs [.failure id] (hcode 5) rfl rfl rfl fun k stack _ => ?_
  obtain ⟨spent, hact⟩ := probe_panic hid m.host
  have hprobed : m.nativeAct (.host 0) #[.failure id] heap m.host
      = .raised (.panic message) { heap with failures := put heap.failures id spent } m.host := by
    rw [nativeAct, hprobe]
    exact hact
  refine ⟨.failure (put heap.failures id spent).size, ?_⟩
  show RaisedTo m.callers _ (settle _ _ (m.nativeAct (.host 0) #[.failure id] heap m.host)) ∧
    IsPanic (settle _ _ (m.nativeAct (.host 0) #[.failure id] heap m.host)).heap _
  rw [hprobed]
  refine ⟨⟨rfl, [.native _, .script _], ?_, rfl⟩, _, message, rfl, Array.getElem?_push_size⟩
  intro a ha
  rcases List.mem_cons.mp ha with rfl | ha
  · rfl
  · rw [List.mem_singleton.mp ha]
    trivial

/-- **What a protected call answers** is returned, unless it is the signal. -/
theorem returns_answered {g : Catcher} {c : Proto} {w : Native σ} {f : Script.Frame} {rest : List (Activation σ)} {r : Reply}
    (hcatches : Catches g c m w f) (hcontrol : m.control = .answer r) (hcallers : m.callers = .native w :: .script f :: rest)
    (hother : ∀ x, r = .failed x → ¬ IsSignal m.heap x ∧ ¬ IsPanic m.heap x)
    (hroom : f.base + 2 * (Library.protectedResults r).size + 36 ≤ maxSlots) :
    Reaches 12 m fun m' =>
      Returns { m with frame := f, callers := rest } (Library.protectedResults r) m' ∨ SignalFound m rest m' := by
  obtain ⟨first, others, hresults, hfailed⟩ : ∃ first others, Library.protectedResults r = (first :: others).toArray ∧
      (first.truthy = false → ∃ x, r = .failed x ∧ others[0]? = some x) := by
    cases r with
    | values vs => exact ⟨.bool true, vs.toList, by simp [Library.protectedResults], nofun⟩
    | failed x => exact ⟨.bool false, [x], rfl, fun _ => ⟨x, rfl, rfl⟩⟩
  have hsize : (Library.protectedResults r).size = others.length + 1 := by rw [hresults]; rfl
  have habove := hcatches.above
  have hbase := hcatches.base
  refine hcatches.passes (n := 8) hcontrol hcallers hresults (by omega) fun upvalues cells opened top junk _ hups hjunk => ?_
  refine exec_hands rfl ?_ hcatches.probe hups hjunk (fun hfirst => ?_) ?_ fun k stack top => ?_
  · show max (others.length + 1) 1 - 1 = others.length
    omega
  · obtain ⟨x, hx, hmem⟩ := hfailed hfirst
    exact ⟨x, hmem, hother x hx⟩
  · show f.func - (f.argCount + 1) + max (others.length + 1) 1 + 2 + others.length + 25 ≤ maxSlots
    omega
  · rw [hresults]
    exact ⟨_, stack, top, cells, opened, k, rfl, rfl⟩

/-- What a protected call answers is handed back: the termination signal is raised again, a panic goes on, and all other
results are returned. -/
def HandsBack (m : Machine σ) (f : Script.Frame) (rest : List (Activation σ)) (r : Reply) (m' : Machine σ) : Prop :=
  (∃ x, r = .failed x ∧ IsSignal m.heap x ∧ RaisedTo rest x m') ∨
    (∃ x y, r = .failed x ∧ IsPanic m.heap x ∧ RaisedTo rest y m' ∧ IsPanic m'.heap y) ∨
      (∀ x, r = .failed x → ¬ IsSignal m.heap x ∧ ¬ IsPanic m.heap x) ∧
        Returns { m with frame := f, callers := rest } (Library.protectedResults r) m'

section
variable {g : Catcher} {c : Proto} {w : Native σ} {f : Script.Frame} {rest : List (Activation σ)} {r : Reply}

/-- **What a protected call answers** is handed back. -/
theorem handsBack_answered (hcatches : Catches g c m w f) (hcontrol : m.control = .answer r)
    (hcallers : m.callers = .native w :: .script f :: rest)
    (hroom : f.base + 2 * (Library.protectedResults r).size + 36 ≤ maxSlots) :
    Reaches 13 m fun m' => HandsBack m f rest r m' ∨ SignalFound m rest m' := by
  by_cases hsignal : ∃ x, r = .failed x ∧ IsSignal m.heap x
  · obtain ⟨x, rfl, hx⟩ := hsignal
    refine (raisedAgain_answered hcatches hcontrol hcallers hx).imp fun m' hm' => ?_
    exact hm'.imp_left fun ⟨hraised, _⟩ => .inl ⟨x, rfl, hx, hraised⟩
  by_cases hpanic : ∃ x, r = .failed x ∧ IsPanic m.heap x
  · obtain ⟨x, rfl, hx⟩ := hpanic
    have hsize : (Library.protectedResults (.failed x)).size = 2 := rfl
    have hresults : Library.protectedResults (.failed x) = (.bool false :: [x]).toArray := rfl
    have hpassed := hcatches.passes (n := 5) (Q := fun m' => ∃ y, RaisedTo rest y m' ∧ IsPanic m'.heap y) hcontrol hcallers
      hresults (by rw [List.length_singleton]; omega) fun upvalues cells opened top junk _ hups hjunk =>
        exec_panics rfl rfl hcatches.probe hups hjunk rfl hx
    refine (hpassed.imp fun m' hm' => ?_).mono (Nat.le_of_ble_eq_true rfl)
    exact hm'.imp_left fun ⟨y, hraised, hy⟩ => .inr (.inl ⟨x, y, rfl, hx, hraised, hy⟩)
  · have hother : ∀ x, r = .failed x → ¬ IsSignal m.heap x ∧ ¬ IsPanic m.heap x := fun x hx =>
      ⟨fun h => hsignal ⟨x, hx, h⟩, fun h => hpanic ⟨x, hx, h⟩⟩
    refine ((returns_answered hcatches hcontrol hcallers hother hroom).imp fun m' hm' => ?_).mono (Nat.le_succ 12)
    exact hm'.imp_left fun hreturns => .inr (.inr ⟨hother, hreturns⟩)

/-- When there is no room for another copy of the results, they are not handed back. -/
theorem overflows_answered {vs : Array Value} (hcatches : Catches g c m w f) (hcontrol : m.control = .answer (.values vs))
    (hcallers : m.callers = .native w :: .script f :: rest) (hfits : f.base + vs.size + 30 ≤ maxSlots)
    (hroom : maxSlots + spareSlots < 2 * vs.size) :
    Reaches 7 m fun m' => (∃ frame text, m'.callers = .script frame :: rest ∧
      (m'.control = .raise (.str text) ∨ m'.control = .unwind (.str text))) ∨ SignalFound m rest m' := by
  have hresults : Library.protectedResults (.values vs) = (.bool true :: vs.toList).toArray := by
    simp [Library.protectedResults]
  refine hcatches.passes (n := 3) hcontrol hcallers hresults (by simpa using hfits)
    fun upvalues cells opened top junk _ hups hjunk => ?_
  match junk, hjunk with
  | [r1, r2, r3], _ =>
  refine Exec.test rfl rfl ?_
  refine Exec.move rfl rfl rfl ?_
  refine Exec.varargs_overflow (a := 2) rfl ?_
  show maxSlots + spareSlots
    < f.func - (f.argCount + 1) + max (vs.toList.length + 1) 1 + 2 + 4 + (max (vs.toList.length + 1) 1 - 1)
  rw [Array.length_toList]
  omega

end

/-! ### The handler before the script's one -/

/-- **The handler** has the script's one see what is no signal. -/
theorem callsInPlace_asked {c : Proto} {x f : Value} (hasked : Asked c x m) (hsignal : ¬ IsSignal m.heap x)
    (hpanic : ¬ IsPanic m.heap x) (hhandler : HasHandler m.frame.upvalues m.frame.func f m) :
    Reaches 9 m fun m' => CallsInPlace m f x m' ∨ SignalFound m m.callers m' := by
  obtain ⟨s, hs, hcell, hvalue⟩ := hhandler
  have hcode : ∀ pc, m.frame.proto.code.getD pc default = (Prelude.handle c).code.getD pc default := by
    intro pc
    rw [hasked.proto]
  have hact : m.nativeAct (.host 0) #[x] m.heap m.host = .done #[.bool false] m.heap m.host := by
    rw [nativeAct, hasked.probe]
    exact probe_other hsignal hpanic m.host
  -- the first of the slots that are seen is the variable
  have hlength : (junk m.stack s (m.frame.func - s)).length = m.frame.func - s := length_junk ..
  have hfirst : (junk m.stack s (m.frame.func - s))[0]? = some f := by
    have hget := List.getElem?_eq_getElem (l := junk m.stack s (m.frame.func - s)) (i := 0) (by omega)
    rw [hget, ← getElem?_junk hget, Nat.add_zero, hvalue]
  have hshared : m.heap.cells[m.frame.upvalues.getD 1 0]?
      = some (.opened m.thread (m.frame.func - (junk m.stack s (m.frame.func - s)).length + 0)) := by
    rw [hcell, hlength, Nat.sub_sub_self (Nat.le_of_lt hs), Nat.add_zero]
  refine hasked.reaches (n := 8) (Nat.le_of_lt hs) fun r1 r2 => ?_
  refine Exec.getUpvalue (hcode 0) hasked.asks rfl ?_
  refine Exec.move (hcode 1) rfl rfl ?_
  refine Exec.call1_done [x] (hcode 2) rfl rfl hact ?_
  refine Exec.test (hcode 3) rfl ?_
  have htarget : target m.frame 3 ((#[Value.bool false] : Array Value).getD 0 .nil).truthy false = 6 := by
    rw [target, hasked.proto]
    rfl
  rw [htarget]
  refine Exec.getShared (hcode 6) hshared hfirst rfl ?_
  refine Exec.move (hcode 7) rfl rfl ?_
  refine Exec.replaced (hcode 8) fun k stack hholds => ?_
  exact ⟨9, stack, m.top, m.frame.base + 1, k, rfl, hholds.reg 1 f rfl, hholds.reg 2 x rfl⟩

end

end ScriptHost

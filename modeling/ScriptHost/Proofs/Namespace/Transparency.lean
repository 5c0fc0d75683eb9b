import ScriptHost.Proofs.Namespace.Handing
import ScriptHost.Proofs.Session.Nesting

/-!
# What calls that catch failures come to

A function of the prelude hands its arguments over to the function of the language, which has a function of the script called.
That one does what it likes, and whenever the function of the language has an answer, the function of the prelude hands it back.

* `ComesBack` — the function of the language has an answer, and what waited for it was left alone;
* **`HandsOver.hands_back`** — the answer is what the call comes to;
* `Shown`, `Shields` — a failure in the reach of the handler that was handed over, and what becomes of it;
* **`HandsOver.shields`** — the signal is kept from the script's handler, which sees all else;
* **`catchers_transparent`** — the whole way of a call, from its arguments to its results;
* `not_handed_back` — answers that are no signal and do not come back.
-/

namespace ScriptHost

open ScriptHost.Script ScriptHost.Script.Machine Namespace

section
variable {σ : Type}

/-- The function of the language that was called for a waiting function has an answer, and what ran in between has left alone
what the waiting function goes on with: the register with `pass`, `pass` itself and what it keeps, and the functions of the host.
Its variables are closed. -/
structure ComesBack (g : Catcher) (c : Proto) (inner : Machine σ) (r : Reply) (m' : Machine σ) : Prop where
  control : m'.control = .answer r
  waits : ∃ n k, m'.callers = .native n :: .script inner.frame :: inner.callers ∧
    n.finish = .results (inner.frame.base + g.register + 1) none ∧ n.pending = .reply k ∧ AnswersProtected k
  register : m'.stack.getD (inner.frame.base + g.register) .nil = inner.stack.getD (inner.frame.base + g.register) .nil
  pass : ∀ id xs, IsMade inner.heap id (Prelude.pass c) xs → IsMade m'.heap id (Prelude.pass c) xs
  hosts : m'.hosts = inner.hosts
  closes : m'.mustClose (inner.frame.func - inner.frame.argCount) = false
  opened : OpenCells m'.heap.cells m'.opened

/-- A failure is raised where the handler that was handed over is the one to be asked, and what ran before has left alone what
the handler goes on with: the handler itself and what it keeps, the variable that it shares, and the functions of the host. -/
structure Shown (c : Proto) (m inner : Machine σ) (top depth : Nat) (x : Value) (m' : Machine σ) : Prop where
  control : m'.control = .raise x
  guard : ∃ on, guardOf m'.callers = some ⟨.script (.closure m.heap.closures.size), on⟩
  handler : ∀ upvalues, inner.heap.closures[m.heap.closures.size]? = some ⟨Prelude.handle c, upvalues⟩ →
    m'.heap.closures[m.heap.closures.size]? = some ⟨Prelude.handle c, upvalues⟩ ∧
      (Keeps inner.heap.cells upvalues [.native (.host 0)] → Keeps m'.heap.cells upvalues [.native (.host 0)]) ∧
      ∀ f, HasHandler upvalues (inner.frame.base + 2) f inner → HasHandler upvalues (inner.frame.base + 2) f m'
  hosts : m'.hosts = inner.hosts
  innermost : ∃ yieldable, m'.innermost = (top, depth, yieldable)
  above : inner.frame.base + 2 ≤ top
  depth : depth + 1 < maxDepth
  room : top + 40 ≤ maxSlots
  closes : m'.mustClose (top + 1) = false

variable [Inhabited σ] {g : Catcher} {c : Proto} {args handed : List Value} {m inner m₁ m₂ : Machine σ}

/-- The script's handler does not see the signal, which goes on as it is, and is called with everything else. -/
def Shields (handler x : Value) (m : Machine σ) : Prop :=
  (IsSignal m.heap x → Reaches 7 m fun m' =>
    (m'.control = .unwind x ∧ m'.callers = m.callers ∧ m'.heap = m.heap) ∨ SignalFound m m.callers m') ∧
  (¬ IsSignal m.heap x → ¬ IsPanic m.heap x → Reaches 10 m fun m' =>
    (∃ asked : Machine σ, asked.frame.finish = .handled ∧ asked.callers = m.callers ∧ CallsInPlace asked handler x m') ∨
      SignalFound m m.callers m')

theorem HandsOver.frame_inner (h : HandsOver g c args m inner handed m₁) :
    inner.frame = { m.aside.frame with pc := g.next } ∧ inner.callers = m.callers ∧ inner.hosts = m.hosts ∧
      inner.thread = m.thread := by
  obtain ⟨stack, top, heap, opened, countdown, rfl⟩ := h.waits
  exact ⟨rfl, rfl, rfl, rfl⟩

/-- With a handler, the function of the language has its first argument called with the others under a guard. -/
theorem HandsOver.guards (h : HandsOver .xpcall c args m inner handed m₁) :
    ∃ n k, n.finish = .results (m.aside.frame.base + Catcher.xpcall.register + 1) none ∧ n.pending = .reply k ∧
      AnswersProtected k ∧ n.guard = some ⟨.script (.closure m.heap.closures.size), inner.hookOn⟩ ∧ n.depth = m.frame.depth ∧
      n.top = m.aside.frame.base + Catcher.xpcall.register + 2 + handed.length ∧
      handed = args.getD 0 .nil :: .closure m.heap.closures.size :: args.drop 2 ∧
      m₁ = { inner with
        callers := .native n :: .script inner.frame :: inner.callers
        control := .enter (args.getD 0 .nil) (args.drop 2).toArray .reply } := by
  obtain ⟨upvalues, cells, hhanded, -⟩ := h.handed
  obtain ⟨k, hk, hcall⟩ := protects_xpcall inner.heap inner.host (args.getD 0 .nil) m.heap.closures.size (args.drop 2)
  obtain ⟨stack, top, heap, opened, countdown, hinner⟩ := h.waits
  let w : Native σ := calling m (.builtin .xpcall) (m.aside.frame.base + Catcher.xpcall.register + 2 + handed.length)
    (.results (m.aside.frame.base + Catcher.xpcall.register + 1) none)
  let n : Native σ := { w with
    guard := some ⟨.script (.closure m.heap.closures.size), inner.hookOn⟩, pending := .reply k, yieldable := w.yieldable && true }
  rw [← hhanded] at hcall
  refine ⟨n, k, rfl, rfl, hk, rfl, rfl, rfl, hhanded, h.calls.trans ?_⟩
  show settle _ _ (Library.call Catcher.xpcall.own handed.toArray inner.heap inner.host) = _
  rw [hcall, settle_call]
  subst hinner
  rfl

/-- **What the function of the language answers** is what the call comes to. -/
theorem HandsOver.hands_back {r : Reply} (h : HandsOver g c args m inner handed m₁) (hback : ComesBack g c inner r m₂)
    (hroom : m.aside.frame.base + 2 * (Library.protectedResults r).size + 36 ≤ maxSlots) :
    Reaches 13 m₂ fun m' => HandsBack m₂ inner.frame m.callers r m' ∨ SignalFound m₂ m.callers m' := by
  obtain ⟨hframe, hcallers, -, -⟩ := h.frame_inner
  obtain ⟨n, k, hwaits, hfinish, hpending, hk⟩ := hback.waits
  have hbase : inner.frame.base = m.aside.frame.base := by rw [hframe]
  have hcatches : Catches g c m₂ n inner.frame :=
    (h.catches n (by rw [hfinish, hbase]) ⟨k, hpending, hk⟩).stays hback.register hback.pass hback.hosts hback.closes hback.opened
  rw [← hcallers]
  exact handsBack_answered hcatches hback.control hwaits (by rw [hbase]; exact hroom)

/-- **The handler that was handed over** keeps the signal from the script's one. -/
theorem HandsOver.shields (h : HandsOver .xpcall c args m inner handed m₁) {top depth : Nat} {x : Value}
    (hprobe : m.hosts[0]? = some Namespace.probe) (hshown : Shown c m inner top depth x m₂) :
    Shields (args.getD 1 .nil) x m₂ := by
  obtain ⟨hcontrol, ⟨on, hguard⟩, hhandler, hhosts, hinnermost, habove, hdepth, hroom, hcloses⟩ := hshown
  obtain ⟨-, -, hsame, -⟩ := h.frame_inner
  obtain ⟨upvalues, cells, -, hheap, -, hups, hshared⟩ := h.handed
  have hmade : inner.heap.closures[m.heap.closures.size]? = some ⟨Prelude.handle c, upvalues⟩ := by
    rw [hheap]
    exact Array.getElem?_push_size
  obtain ⟨hclosure, hkept, hstill⟩ := hhandler upvalues hmade
  have hups' : Keeps m₂.heap.cells upvalues [.native (.host 0)] := by
    refine hkept ?_
    rw [hheap]
    exact hups
  have hhandles : Handles c m₂ top depth :=
    ⟨⟨_, on, upvalues, hguard, hclosure, hups'⟩, by rw [hhosts, hsame, hprobe], hinnermost, hdepth, hroom, hcloses⟩
  obtain ⟨hasked, hfinish, hcallers, hheap', hhook⟩ := hhandles.asked hcontrol
  have hbetween : IsBetween m₂.control := by
    rw [hcontrol]
    trivial
  have hfound {m' : Machine σ} (hm' : SignalFound m₂.advance m₂.advance.callers m') : SignalFound m₂ m₂.callers m' := by
    rw [← hcallers]
    exact ⟨hhook hm'.1, hm'.2⟩
  refine ⟨fun hsignal => Reaches.advance hbetween ?_, fun hsignal hpanic => Reaches.advance hbetween ?_⟩
  · refine (hasked.returns_signal (hheap'.symm ▸ hsignal)).imp fun m' hm' => hm'.imp ?_ hfound
    rintro ⟨pc, stack, top, countdown, rfl⟩
    rw [leave, show ({ m₂.advance.frame with pc } : Script.Frame).finish = .handled from hfinish]
    exact ⟨rfl, hcallers, hheap'⟩
  · -- the variable with the script's handler lies below the handler that is asked
    have hvariable : HasHandler m₂.advance.frame.upvalues m₂.advance.frame.func (args.getD 1 .nil) m₂.advance := by
      obtain ⟨id, on', upvalues', yieldable, stack, hguard', hclosure', -, hentered, -, hbelow⟩ := hhandles.begins hcontrol
      rw [hguard] at hguard'
      cases hguard'
      rw [hclosure] at hclosure'
      cases hclosure'
      obtain ⟨s, hs, hcell, hvalue⟩ := hstill _ hshared
      rw [hentered]
      exact ⟨s, Nat.lt_of_lt_of_le hs habove, hcell, (hbelow s (by omega)).trans hvalue⟩
    refine (callsInPlace_asked hasked (hheap'.symm ▸ hsignal) (hheap'.symm ▸ hpanic) hvariable).imp fun m' hm' => ?_
    exact hm'.imp (fun hcalls => ⟨_, hfinish, hcallers, hcalls⟩) hfound

/-- **The functions of the prelude that catch failures are transparent.**  A frozen namespace has them under the names of those
of the language, which are protected calls.

A call has the function of the language called with all its arguments.  Once that has an answer, whatever ran until then, the call
comes to it: its results are returned as they are, if there is room for a copy of them; only the termination signal is raised
again, and a panic goes on.  A failure in the reach of the handler that was handed over is kept from the script's handler if it is
the signal, also when it is a failure of that handler, which is called with everything else.

This is so wherever a function of the prelude waits for an answer, and wherever its handler is asked. -/
theorem catchers_transparent (c : Proto) (m : Machine σ) :
    (m.interval = 0 → ∀ mode xs b, (⟨mode, []⟩ : Builder).bindAll xs = .ok b →
      ∃ c pass, IsMade (b.freeze m).2.heap pass (Prelude.pass c) [.native (.host 0), builtin .error] ∧
        ∀ g : Catcher, (g = .resume → "coroutine" ∈ mode.libraries) → ∃ id,
          g.IsUnder (b.freeze m).1 (b.freeze m).2 (.closure id) ∧ IsMade (b.freeze m).2.heap id (g.proto c) (g.kept pass)) ∧
    (∀ g : Catcher, g.Protects m.heap m.host) ∧
    (∀ g args, Begun g c args m → Reaches 8 m fun m₁ => SignalFound m m.callers m₁ ∨ ∃ inner handed,
      HandsOver g c args m inner handed m₁ ∧
      (∀ k r m₂, Runs k m₁ m₂ → ComesBack g c inner r m₂ →
        m.aside.frame.base + 2 * (Library.protectedResults r).size + 36 ≤ maxSlots →
          Reaches (k + 13) m₁ fun m' => HandsBack m₂ inner.frame m.callers r m' ∨ SignalFound m₂ m.callers m') ∧
      (g = .xpcall → ∀ top depth x m₂, Shown c m inner top depth x m₂ → Shields (args.getD 1 .nil) x m₂)) ∧
    (∀ g w f rest r, Catches g c m w f → m.control = .answer r → m.callers = .native w :: .script f :: rest →
      f.base + 2 * (Library.protectedResults r).size + 36 ≤ maxSlots →
        Reaches 13 m fun m' => HandsBack m f rest r m' ∨ SignalFound m rest m') ∧
    (∀ top depth x, Handles c m top depth → m.control = .raise x → Asked c x m.advance ∧
      m.advance.frame.finish = .handled ∧ m.advance.callers = m.callers ∧ m.advance.heap = m.heap) ∧
    ∀ x, Asked c x m →
      (IsSignal m.heap x → Reaches 6 m fun m' => ReturnsValue m x m' ∨ SignalFound m m.callers m') ∧
      (¬ IsSignal m.heap x → ¬ IsPanic m.heap x → ∀ f, HasHandler m.frame.upvalues m.frame.func f m →
        Reaches 9 m fun m' => CallsInPlace m f x m' ∨ SignalFound m m.callers m') := by
  refine ⟨fun hblank _ _ _ => catchers_given hblank, fun g => g.protects m.heap m.host, fun g args hbegun => ?_,
    fun _ _ _ _ _ => handsBack_answered, fun _ _ _ hhandles hcontrol => ?_,
    fun x hasked => ⟨hasked.returns_signal, fun hsignal hpanic _ => callsInPlace_asked hasked hsignal hpanic⟩⟩
  · refine (handsOver_begun hbegun).imp fun m₁ hm₁ => hm₁.symm.imp_right fun ⟨inner, handed, hover⟩ => ?_
    refine ⟨inner, handed, hover, fun k r m₂ hruns hback hroom => hruns.reaches (hover.hands_back hback hroom), ?_⟩
    rintro rfl top depth x m₂ hshown
    exact hover.shields hbegun.probe hshown
  · obtain ⟨hasked, hfinish, hcallers, hheap, -⟩ := hhandles.asked hcontrol
    exact ⟨hasked, hfinish, hcallers, hheap⟩

end

/-- The objects of a script that calls `xpcall`: `pass`, the variables of both functions, and a variable that is shared with a
handler. -/
def catching : Heap :=
  { closures := #[⟨Prelude.pass default, #[0, 1]⟩]
    cells := #[.closed (.native (.host 0)), .closed (builtin .error), .closed (.closure 0), .closed (builtin .xpcall),
      .opened 0 1] }

/-- A script calls `xpcall` with a function that returns its arguments, a handler and two more values. -/
def trying : Machine Unit :=
  { heap := catching, host := (), hosts := #[Namespace.probe, fun args => pure args], interrupted := fun _ => false
    frame := {
      proto := Prelude.xpcall default, upvalues := #[2, 3, 0], func := 1, base := 2, argCount := 4, finish := .reply, depth := 0
      yieldable := false }
    stack := #[.nil, .nil, .native (.host 1), builtin .tostring, .nil, .int 2, .nil, .nil, .nil]
    control := .execute }

/-- The function answers with values, one of which is missing. -/
def answered : Machine Unit := { caught with control := .answer (.values #[.int 1, .nil, .int 2]) }

/-- The handler is asked about a text. -/
def asking : Machine Unit :=
  { trying with
    frame := {
      proto := Prelude.handle default, upvalues := #[0, 4], func := 2, base := 3, argCount := 1, finish := .handled, depth := 1
      yieldable := false }
    stack := #[.nil, builtin .tostring, .nil, .ofString "no", .nil, .nil] }

/-- A function has failed with the termination signal, and its handler is to be asked. -/
def failing : Machine Unit :=
  { trying with
    heap := { catching with closures := catching.closures.push ⟨Prelude.handle default, #[0, 4]⟩, failures := #[.fault .signal] }
    callers := [.native {
      self := some (builtin .xpcall), top := 3, finish := .stop, depth := 0, yieldable := false
      guard := some ⟨.script (.closure 1), true⟩ }]
    control := .raise (.failure 0) }

theorem begun_trying : Begun .xpcall default [.native (.host 1), builtin .tostring, .nil, .int 2] trying where
  control := rfl
  proto := rfl
  pc := rfl
  begins :=
    { base := rfl
      count := rfl
      params := Nat.le_of_ble_eq_true rfl
      room := Nat.le_of_ble_eq_true rfl
      size := Nat.le_of_ble_eq_true rfl
      param := lie_of_map rfl
      arg := lie_of_map rfl }
  room := Nat.le_of_ble_eq_true rfl
  kept := ⟨0, #[0, 1], .of_map rfl, rfl, .of_map rfl⟩
  probe := rfl
  calm := rfl
  opened := fun _ hs => absurd hs List.not_mem_nil
  apart := fun _ hs => absurd hs List.not_mem_nil

theorem asked_asking : Asked default (.ofString "no") asking where
  control := rfl
  proto := rfl
  pc := rfl
  begins :=
    { base := rfl
      count := rfl
      params := Nat.le_of_ble_eq_true rfl
      room := Nat.le_of_ble_eq_true rfl
      size := Nat.le_of_ble_eq_true rfl
      param := lie_of_map rfl
      arg := lie_of_map rfl }
  asks := rfl
  probe := rfl
  calm := rfl

theorem handles_failing : Handles default failing 3 0 where
  handler := ⟨1, true, #[0, 4], rfl, rfl, .of_map rfl⟩
  probe := rfl
  innermost := ⟨false, rfl⟩
  depth := Nat.le_of_ble_eq_true rfl
  room := Nat.le_of_ble_eq_true rfl
  closes := rfl

/-- What the called function comes to, when it returns its arguments. -/
theorem trying_comesBack {inner m₁ : Machine Unit} {handed : List Value}
    (h : HandsOver .xpcall default [.native (.host 1), builtin .tostring, .nil, .int 2] trying inner handed m₁) :
    Runs 1 m₁ m₁.advance ∧ ComesBack .xpcall default inner (.values #[.nil, .int 2]) m₁.advance ∧ m₁.advance.interval = 0 := by
  obtain ⟨n, k, hfinish, hpending, hk, -, hdepth, htop, hhanded, hm₁⟩ := h.guards
  have hcatches := h.catches n hfinish ⟨k, hpending, hk⟩
  have hhigh : n.top = 15 := by
    rw [htop, hhanded]
    rfl
  obtain ⟨hframe, -, hhosts, -⟩ := h.frame_inner
  have hinterval : inner.interval = 0 ∧ inner.toClose = [] := by
    obtain ⟨stack, top, heap, opened, countdown, rfl⟩ := h.waits
    exact ⟨rfl, rfl⟩
  have hact : m₁.nativeAct (.host 1) #[.nil, .int 2] inner.heap inner.host = .done #[.nil, .int 2] inner.heap inner.host := by
    rw [hm₁, nativeAct, show Machine.hosts _ = trying.hosts from hhosts]
    rfl
  have hadvance : m₁.advance = { m₁ with control := .answer (.values #[.nil, .int 2]) } := by
    have hentered : m₁.enter (.native (.host 1)) #[.nil, .int 2] .reply = _ :=
      enter_host (w := n) (by rw [hm₁]) (by rw [hdepth]; decide) (by rw [hhigh]; decide) 1
    rw [show m₁.heap = inner.heap by rw [hm₁], show m₁.host = inner.host by rw [hm₁], hact] at hentered
    have hnext : m₁.advance = m₁.enter (.native (.host 1)) #[.nil, .int 2] .reply := by
      rw [hm₁]
      rfl
    rw [hnext, hentered, hm₁]
    rfl
  refine ⟨Runs.advance (by rw [hm₁]; trivial), ?_, by rw [hadvance, hm₁]; exact hinterval.1⟩
  rw [hadvance, hm₁]
  exact
    { control := rfl
      waits := ⟨n, k, rfl, by rw [hfinish, hframe], hpending, hk⟩
      register := rfl
      pass := fun _ _ h => h
      hosts := rfl
      closes := by rw [mustClose, show Machine.toClose _ = [] from hinterval.2]
      opened := hcatches.opened }

/-- What the called function fails with is shown to the handler. -/
theorem trying_shown {inner m₁ : Machine Unit} {handed : List Value}
    (h : HandsOver .xpcall default [.native (.host 1), builtin .tostring, .nil, .int 2] trying inner handed m₁) (x : Value) :
    Shown default trying inner 15 0 x { m₁ with control := .raise x } := by
  obtain ⟨n, k, -, -, -, hguard, hdepth, htop, hhanded, hm₁⟩ := h.guards
  have hhigh : n.top = 15 := by
    rw [htop, hhanded]
    rfl
  obtain ⟨stack, top, heap, opened, countdown, rfl⟩ := h.waits
  subst hm₁
  exact
    { control := rfl
      guard := ⟨_, by rw [guardOf, hguard]⟩
      handler := fun _ hclosure => ⟨hclosure, id, fun _ h => h⟩
      hosts := rfl
      innermost := ⟨n.yieldable, by
        show (n.top, n.depth, n.yieldable) = _
        rw [hhigh, hdepth]
        rfl⟩
      above := Nat.le_of_ble_eq_true rfl
      depth := Nat.le_of_ble_eq_true rfl
      room := Nat.le_of_ble_eq_true rfl
      closes := rfl }

theorem catchers_transparent_trying :
    (let m : Machine Unit := { heap := {}, host := (), hosts := #[Namespace.probe], interrupted := fun _ => false }
      let b : Builder := ⟨.privileged, [("greet", .native (.host 1))]⟩
      ∃ c pass, IsMade (b.freeze m).2.heap pass (Prelude.pass c) [.native (.host 0), builtin .error] ∧ ∃ id,
        Catcher.resume.IsUnder (b.freeze m).1 (b.freeze m).2 (.closure id) ∧
          IsMade (b.freeze m).2.heap id (Prelude.resume c) [.closure pass, builtin .coResume]) ∧
    (Reaches 22 trying fun m' => ∃ m₂ : Machine Unit, Returns { m₂ with frame := { trying.aside.frame with pc := 7 }, callers := [] }
      #[.bool true, .nil, .int 2] m') ∧
    (Reaches 8 trying fun m₁ => ∀ x, Shields (builtin .tostring) x { m₁ with control := .raise x }) ∧
    (Reaches 13 answered fun m' => HandsBack answered pcallFrame [] (.values #[.int 1, .nil, .int 2]) m' ∨
      SignalFound answered [] m') ∧
    (Asked default (.failure 0) failing.advance ∧ Reaches 6 failing.advance fun m' =>
      ReturnsValue failing.advance (.failure 0) m' ∨ SignalFound failing.advance failing.advance.callers m') ∧
    Reaches 9 asking fun m' => CallsInPlace asking (builtin .tostring) (.ofString "no") m' ∨ SignalFound asking [] m' := by
  have hcall := (catchers_transparent default trying).2.2.1 _ _ begun_trying
  refine ⟨?_, hcall.trans (k := 14) fun m₁ hm₁ => ?_, hcall.imp fun m₁ hm₁ x => ?_, ?_, ?_, ?_⟩
  · intro m b
    obtain ⟨c, pass, hpass, hall⟩ :=
      (catchers_transparent default m).1 rfl .privileged [("greet", .native (.host 1))] b rfl
    exact ⟨c, pass, hpass, hall .resume fun _ => by decide⟩
  · obtain ⟨inner, handed, hover, hback, -⟩ := hm₁.resolve_left fun h => h.1.interval rfl
    obtain ⟨hruns, hcomes, hquiet⟩ := trying_comesBack hover
    obtain ⟨hframe, -, -, -⟩ := hover.frame_inner
    refine (hback 1 _ _ hruns hcomes (by decide)).imp fun m' hm' => ⟨m₁.advance, ?_⟩
    rcases hm'.resolve_right fun h => h.1.interval hquiet with ⟨x, heq, -⟩ | ⟨x, y, heq, -⟩ | ⟨-, hreturns⟩
    · cases heq
    · cases heq
    · rw [hframe] at hreturns
      exact hreturns
  · obtain ⟨inner, handed, hover, -, hshields⟩ := hm₁.resolve_left fun h => h.1.interval rfl
    exact hshields rfl 15 0 x _ (trying_shown hover x)
  · exact (catchers_transparent default answered).2.2.2.1 .pcall _ _ _ _
      (caught_catches.stays rfl (fun _ _ h => h) rfl rfl caught_catches.opened) rfl rfl (Nat.le_of_ble_eq_true rfl)
  · obtain ⟨hasked, -, -, hheap⟩ := (catchers_transparent default failing).2.2.2.2.1 3 0 _ handles_failing rfl
    refine ⟨hasked, ((catchers_transparent default failing.advance).2.2.2.2.2 _ hasked).1 ?_⟩
    rw [hheap]
    exact ⟨0, .signal, rfl, rfl, rfl⟩
  · refine ((catchers_transparent default asking).2.2.2.2.2 _ asked_asking).2 ?_ ?_ _ ⟨1, Nat.le_of_ble_eq_true rfl, rfl, rfl⟩
    · rintro ⟨id, f, heq, -⟩
      cases heq
    · rintro ⟨id, message, heq, -⟩
      cases heq

/-- A function has answered with so many values that there is no room for another copy. -/
def crowded : Machine Unit := { caught with control := .answer (.values (Array.replicate 700000 .nil)) }

/-- A function has answered with a panic of a function of the host. -/
def panicked : Machine Unit := { caught with heap := { caught.heap with failures := #[.panic "driver panic"] } }

/-- Termination is requested when a function has answered with nothing. -/
def requested : Machine Unit :=
  { caught with control := .answer (.values #[]), interval := 1, interrupted := fun _ => true }

/-- **What is no signal is not always handed back.**  A function may answer with so many values that the stack has no room for
their copy, and the script gets a failure of its own making; a panic that the language has caught goes on when the probe looks
at it; and if termination was requested meanwhile, the hook raises its signal before anything is returned. -/
theorem not_handed_back :
    (Catches .pcall default crowded pcallNative pcallFrame ∧ Reaches 7 crowded fun m' => ∃ frame text,
      m'.callers = [.script frame] ∧ (m'.control = .raise (.str text) ∨ m'.control = .unwind (.str text))) ∧
    (Catches .pcall default panicked pcallNative pcallFrame ∧ ¬ IsSignal panicked.heap (.failure 0) ∧
      Reaches 13 panicked fun m' => ∃ y, RaisedTo [] y m' ∧ IsPanic m'.heap y) ∧
    Catches .pcall default requested pcallNative pcallFrame ∧ Reaches 3 requested (SignalFound requested []) := by
  have hquiet {m m' : Machine Unit} (hm : m.interval = 0) : ¬ SignalFound m [] m' := fun h => h.1.interval hm
  have hother : ¬ IsSignal panicked.heap (.failure 0) := by
    rintro ⟨id, f, heq, hf, -⟩
    cases heq
    cases hf
  have hcrowded : Catches .pcall default crowded pcallNative pcallFrame :=
    caught_catches.stays rfl (fun _ _ h => h) rfl rfl caught_catches.opened
  have hpanicked : Catches .pcall default panicked pcallNative pcallFrame :=
    caught_catches.stays rfl (fun _ _ h => h) rfl rfl caught_catches.opened
  have hrequested : Catches .pcall default requested pcallNative pcallFrame :=
    caught_catches.stays rfl (fun _ _ h => h) rfl rfl caught_catches.opened
  refine ⟨⟨hcrowded, ?_⟩, ⟨hpanicked, hother, ?_⟩, hrequested, ?_⟩
  · have hanswer : crowded.control = .answer (.values (Array.replicate 700000 .nil)) := rfl
    have hover := overflows_answered hcrowded hanswer rfl ?_ ?_
    · exact hover.imp fun m' hm' => hm'.resolve_right (hquiet rfl)
    · rw [Array.size_replicate]
      exact Nat.le_of_ble_eq_true rfl
    · rw [Array.size_replicate]
      exact Nat.le_of_ble_eq_true rfl
  · have hpanic : IsPanic panicked.heap (.failure 0) := ⟨0, "driver panic", rfl, rfl⟩
    have hback := handsBack_answered hpanicked (r := .failed (.failure 0)) rfl rfl (Nat.le_of_ble_eq_true rfl)
    refine hback.imp fun m' hm' => ?_
    rcases hm'.resolve_right (hquiet rfl) with ⟨x, heq, hx, -⟩ | ⟨x, y, -, -, hy⟩ | ⟨hnone, -⟩
    · exact absurd (Reply.failed.inj heq ▸ hx) hother
    · exact ⟨y, hy⟩
    · exact absurd hpanic (hnone _ rfl).2
  · let inner : Machine Unit := { requested with callers := [], frame := pcallFrame }
    have hanswered : requested.advance = (inner.counting 0).seen ⟨6, [], requested.heap, [], 6, []⟩
        (writeAll requested.stack 5 #[.bool true]) := rfl
    refine Reaches.advance trivial (Reaches.executeHooked (by rw [hanswered]; rfl) ?_)
    have hfinds : HookFinds inner := ⟨Nat.one_ne_zero, rfl, rfl, rfl⟩
    have hinterrupted : Interrupted inner requested.advance.executeHooked := by
      refine ⟨hfinds, 1, ⟨6, [], requested.heap, [], 6, []⟩, writeAll requested.stack 5 #[.bool true], ?_⟩
      rw [hanswered]
      rfl
    exact signalFound_interrupted hinterrupted rfl fun h => ⟨h.interval, h.thread, h.hookOn, h.interrupted⟩

end ScriptHost

import ScriptHost.Proofs.Namespace.Passing

/-!
# The way of the termination signal

Between the activation in which the signal is raised and the call from the host may lie protected calls, variables that have
to be closed, threads and functions of the host.  The signal gets past each of them in its own manner.

* `Passage` — how a failure gets from a machine to the call from the host: a case for each thing that it gets past;
* **`Passage.reaches`** — the call from the host comes to that failure;
* **`signal_ends_session_iff`** — a session to which a failure gets on such a way is interrupted exactly if the failure is
  the signal and is recognised;
* `signal_ends_session_iff_crossing` — a signal that gets past a variable, two protected calls and the end of a thread;
* `signal_lost_closedByError` — a signal that does not.

No way leads past a closing function that fails: the machine goes on with the failure of that function.
-/

namespace ScriptHost

open ScriptHost.Script ScriptHost.Script.Machine

section
variable {σ : Type} [Inhabited σ]

/-- **The ways of a failure** from a machine to the call from the host, in at most so many steps.  The fault that comes to the
call and the state of the host then have a property. -/
inductive Passage (Q : Fault → σ → Prop) : Nat → Machine σ → Value → Prop
  /-- The call from the host gets it. -/
  | arrives {m : Machine σ} {x : Value} {w : Native σ} {rest : List (Activation σ)} {f : Fault}
      (control : m.control = .answer (.failed x)) (callers : m.callers = .native w :: rest) (finish : w.finish = .stop)
      (fault : m.heap.hostFailure x = .fault f) (comes : Q f m.host) : Passage Q 1 m x
  /-- It is raised, and no function of the script is shown it. -/
  | raised {n : Nat} {m : Machine σ} {x : Value} (control : m.control = .raise x) (unseen : Unseen m x)
      (next : Passage Q n { m with control := .unwind x } x) : Passage Q (n + 1) m x
  /-- It goes to the innermost guard; without one it ends the thread, and is an answer to the one that waits for it. -/
  | unwinds {n : Nat} {m : Machine σ} {x : Value} (control : m.control = .unwind x) (next : Passage Q n (m.unwind x) x) :
      Passage Q (n + 1) m x
  /-- There is a variable to be closed, and the function that closes it returns. -/
  | closes {n j top : Nat} {m m' : Machine σ} {x : Value} {c : Closing} {rest : List (Activation σ)}
      (control : m.control = .close) (callers : m.callers = .closing c :: rest) (goesOn : c.after = .fail x)
      (more : m.mustClose c.level = true) (returns : Runs j m.closeNext m') (back : m'.control = .close)
      (waits : m'.callers = .closing { c with top } :: rest) (next : Passage Q n m' x) : Passage Q (n + j + 1) m x
  /-- All variables are closed. -/
  | closed {n : Nat} {m : Machine σ} {x : Value} {c : Closing} {rest : List (Activation σ)} (control : m.control = .close)
      (callers : m.callers = .closing c :: rest) (goesOn : c.after = .fail x) (nothing : m.mustClose c.level = false)
      (next : Passage Q n { m with callers := rest, control := .answer (.failed x) } x) : Passage Q (n + 1) m x
  /-- A native function that waits for what failed fails in its turn, be it at once or later. -/
  | fails {n j : Nat} {m m' : Machine σ} {x y : Value} {w w' : Native σ} {rest : List (Activation σ)}
      (control : m.control = .answer (.failed x)) (callers : m.callers = .native w :: rest) (turns : Runs j m m')
      (raises : m'.control = .raise y) (waits : m'.callers = .native w' :: rest) (same : w'.self = w.self)
      (next : Passage Q n m' y) : Passage Q (n + j) m x
  /-- A function that catches failures has caught it, and raises it again, or the hook raises one of its own. -/
  | caught {n : Nat} {g : Catcher} {c : Proto} {m : Machine σ} {x : Value} {w : Native σ} {f : Script.Frame}
      {rest : List (Activation σ)} (signal : IsSignal m.heap x) (catches : Catches g c m w f)
      (control : m.control = .answer (.failed x)) (callers : m.callers = .native w :: .script f :: rest)
      (next : ∀ j y, j ≤ 13 → RaisedTo rest y (m.after j) → IsSignal (m.after j).heap y →
        y = x ∧ Again m f.depth (m.after j) ∨ HookFinds m → Passage Q n (m.after j) y) : Passage Q (n + 13) m x
  /-- The handler before the script's one is asked, and lets it pass, or the hook raises one of its own. -/
  | handled {n : Nat} {c : Proto} {m : Machine σ} {x : Value} {top depth : Nat} (signal : IsSignal m.heap x)
      (handles : Handles c m top depth) (control : m.control = .raise x)
      (next : ∀ j, j ≤ 7 → (m.after j).control = .unwind x → (m.after j).callers = m.callers →
        (m.after j).heap = m.heap → Passage Q n (m.after j) x)
      (found : ∀ j y, j ≤ 7 → HookFinds m → RaisedTo m.callers y (m.after j) → IsSignal (m.after j).heap y →
        Passage Q n (m.after j) y) : Passage Q (n + 7) m x

/-- **A failure with a way to the call from the host** comes to it. -/
theorem Passage.reaches {Q : Fault → σ → Prop} {n : Nat} {m : Machine σ} {x : Value} (h : Passage Q n m x) :
    Reaches n m fun m' => ∃ v f, m'.control = .stopped (.failed v) ∧ m'.heap.hostFailure v = .fault f ∧ Q f m'.host := by
  induction h with
  | @arrives m x w rest f control callers finish fault comes =>
    refine Reaches.advance (by rw [control]; trivial) (Reaches.here ?_)
    simp only [Machine.advance, control, Machine.answer, callers, finish]
    exact ⟨x, f, rfl, fault, comes⟩
  | raised control unseen next ih =>
    refine Reaches.advance (by rw [control]; trivial) ?_
    simp only [Machine.advance, control]
    rw [handle_unseen control unseen]
    exact ih
  | unwinds control next ih =>
    refine Reaches.advance (by rw [control]; trivial) ?_
    simp only [Machine.advance, control]
    exact ih
  | closes control callers goesOn more returns back waits next ih =>
    refine Reaches.advance (by rw [control]; trivial) ?_
    simp only [Machine.advance, control]
    exact (returns.reaches ih).mono (by omega)
  | closed control callers goesOn nothing next ih =>
    refine Reaches.advance (by rw [control]; trivial) ?_
    simp only [Machine.advance, control]
    rw [closeNext_closed callers nothing, goesOn]
    exact ih
  | fails control callers turns raises waits same next ih => exact (turns.reaches ih).mono (by omega)
  | @caught n g c m x w f rest signal catches control callers next ih =>
    obtain ⟨j, hj, hraised⟩ := raisedAgain_answered catches control callers signal
    have hthere : Runs j m (m.after j) := rfl
    rcases hraised with ⟨hraised, hagain⟩ | ⟨hfinds, y, hraised, hy⟩
    · exact (hthere.reaches (ih j _ hj hraised (hagain.isSignal signal) (.inl ⟨rfl, hagain⟩))).mono (by omega)
    · exact (hthere.reaches (ih j y hj hraised hy (.inr hfinds))).mono (by omega)
  | @handled n c m x top depth signal handles control next found ih ihFound =>
    obtain ⟨j, hj, hpassed⟩ := signal_handled handles control signal
    have hthere : Runs j m (m.after j) := rfl
    rcases hpassed with ⟨hcontrol, hcallers, hheap⟩ | ⟨hfinds, y, hraised, hy⟩
    · exact (hthere.reaches (ih j hj hcontrol hcallers hheap)).mono (by omega)
    · exact (hthere.reaches (ihFound j y hj hfinds hraised hy)).mono (by omega)

/-! ### Ways that are put together -/

section
variable {Q : Fault → σ → Prop} {n : Nat} {m : Machine σ} {x : Value}

/-- There is nothing to be closed. -/
theorem Passage.closing (level : Nat) (reason : Value) (failed yieldable : Bool) (hnothing : m.mustClose level = false)
    (next : ∀ cells opened, Passage Q n { m.suspended with
      heap := { m.suspended.heap with cells }, opened, control := .answer (.failed x) } x) :
    Passage Q (n + 1) (m.closing level reason failed yieldable (.fail x)) x := by
  obtain ⟨c, cells, opened, hclosing, hlevel, hafter⟩ := m.closing_eq level reason failed yieldable (.fail x)
  rw [hclosing]
  refine .closed rfl rfl hafter ?_ (next cells opened)
  rw [hlevel]
  exact mustClose_mono hnothing (Nat.le_refl level) m.suspended_same.1

/-- A failure that nothing stands in the way of. -/
theorem Passage.of_unheld {id : Nat} {f : Fault} (hraise : Unheld m id) (hcloses : m.toClose = [])
    (hfault : m.heap.failures.getD id default = .fault f) (hcomes : Q f m.host) : Passage Q 4 m (.failure id) := by
  obtain ⟨hcontrol, ⟨inner, hinner, hcallers⟩, hdepth⟩ := hraise
  have hheld : guardOf m.callers = some ⟨.trace, true⟩ := by
    rw [hcallers, guardOf_append hinner]
    rfl
  have hdrop : dropToGuard m.callers = some (hostCall, ⟨.trace, true⟩, []) := by
    rw [hcallers, dropToGuard_append hinner]
    rfl
  refine .raised hcontrol (fun g hg => .inr ⟨?_, ⟨id, rfl⟩, hdepth⟩) (.unwinds rfl ?_)
  · rw [hheld] at hg
    rw [← Option.some.inj hg]
  · simp only [unwind, hdrop]
    refine Passage.closing _ _ _ _ ?_ fun cells opened => .arrives rfl rfl rfl hfault hcomes
    rw [mustClose, hcloses]

omit [Inhabited σ] in
/-- The thread that waits for the running one goes on. -/
theorem giveBack_eq {t : Nat} {rest : List Nat} {p : Parked σ} (hresumers : m.resumers = t :: rest)
    (hparked : m.parked[t]? = some p) (hother : t ≠ m.thread) (s : ThreadStatus) (failure : Option Value) (r : Reply) :
    ∃ threads parked, m.giveBack s failure r = { m with
      heap := { m.heap with threads }, parked, stack := p.stack, callers := p.callers, opened := p.opened
      toClose := p.toClose, thread := t, resumers := rest, control := .answer r } := by
  have hstill : ((m.setStatus m.thread s).park none failure).parked[t]? = some p := by
    show (put m.parked m.thread _)[t]? = some p
    rw [getElem?_put, if_neg fun h => hother h.1.symm]
    exact hparked
  simp only [giveBack, hresumers]
  rw [unpark, hstill]
  exact ⟨_, _, rfl⟩

/-- A failure that no guard holds ends the thread. -/
theorem Passage.ends {t : Nat} {rest : List Nat} {p : Parked σ} (hcontrol : m.control = .raise x)
    (hguardless : ∀ a ∈ m.callers, Guardless a) (hresumers : m.resumers = t :: rest) (hparked : m.parked[t]? = some p)
    (hother : t ≠ m.thread)
    (next : ∀ threads parked, Passage Q n { m with
      heap := { m.heap with threads }, parked, stack := p.stack, callers := p.callers, opened := p.opened
      toClose := p.toClose, thread := t, resumers := rest, control := .answer (.failed x) } x) : Passage Q (n + 2) m x := by
  have hheld : guardOf m.callers = none := by
    have hnone := guardOf_append hguardless []
    rwa [List.append_nil] at hnone
  have hdrop : dropToGuard m.callers = none := by
    have hnone := dropToGuard_append hguardless []
    rwa [List.append_nil] at hnone
  refine .raised hcontrol (fun g hg => ?_) (.unwinds rfl ?_)
  · rw [hheld] at hg
    cases hg
  · simp only [unwind, hdrop]
    obtain ⟨threads, parked, hgives⟩ :=
      giveBack_eq (m := { m with callers := [], control := .unwind x }) hresumers hparked hother .dead (some x) (.failed x)
    rw [hgives]
    exact next threads parked

end

end

/-- **A failure with a way to the call from the host**, from any machine of the turn in which it gets there, ends the session as
interrupted exactly if what comes to the call is the termination signal under fewer than sixteen layers.  Then all that is
written when it comes is a notice, and no file is. -/
theorem signal_ends_session_iff {e : Engine} {j k : Job} {past : List Job} {mode : Mode} {Q : Fault → Access → Prop}
    {s n : Nat} {m : Machine Access} {x : Value} (hbody : j.InBody) (hhandle : j.handle = .during mode true true)
    (hruns : Runs s j.machine m) (hpassage : Passage Q n m x) (hturn : s + n < Job.turnSteps)
    (hcourse : Course e (j.step e).2 past k) (hended : k.phase = .ended) (hsurvived : k.panic = none) :
    ∃ f a, Q f a ∧ (k.handle.outcome = some .interrupted ↔ ∃ l, f.layers? = some l ∧ l < 16) ∧
      (k.handle.outcome = some .interrupted →
        (j.step e).2.access = (a.write (Bytes.ofString (Job.programTerminated ++ "\n"))).2 ∧
          (j.step e).2.access.host.files = a.host.files) := by
  have hreaches : Reaches (s + n) j.machine fun m' => ∃ v f, m'.control = .stopped (.failed v) ∧
      m'.heap.hostFailure v = .fault f ∧ Q f m'.host := hruns.reaches hpassage.reaches
  obtain ⟨i, hi, v, f, hstopped, hf, hcomes⟩ := hreaches
  have hrun := run_of_stopped hstopped (Nat.lt_of_le_of_lt hi hturn)
  have hstep : (j.step e).2 = (j.runMachine e.config).2 := by
    rcases hbody with hp | hp <;> rw [Job.step, hp]
  obtain ⟨hstanding, hsignal, hplain⟩ := j.body_failed (c := e.config) hbody hrun hf
  rw [← hstep] at hstanding hsignal hplain
  have hstays : ∀ o, o.isCompleted = false → (j.step e).2.phase.bodyOutcome? = some o → k.handle.outcome = some o := by
    intro o ho hcame
    cases Job.course_kept hcourse ⟨hcame, hstanding.trans hhandle⟩ ho with
    | kept hkept =>
      have hphase := hkept.outcome
      rw [hended] at hphase
      cases hphase
    | ended _ hhandle' => rw [hhandle']; rfl
    | panicked _ hpanic => exact absurd hsurvived hpanic
  have hiff : k.handle.outcome = some .interrupted ↔ f.isInterrupt = true := by
    constructor
    · intro houtcome
      cases hknown : f.isInterrupt with
      | true => rfl
      | false =>
        obtain ⟨r, -, hr⟩ := hplain hknown
        rw [hstays _ rfl hr] at houtcome
        cases houtcome
    · exact fun hknown => hstays _ rfl (hsignal hknown).1
  refine ⟨f, (j.machine.after i).host, hcomes, hiff.trans (Fault.isInterrupt_iff f), fun houtcome => ?_⟩
  obtain ⟨-, haccess⟩ := hsignal (hiff.mp houtcome)
  refine ⟨haccess, ?_⟩
  rw [haccess]
  exact Access.write_files ..

/-- The host of a session whose termination was requested. -/
def requestedAccess : Access := { host := { requested := #[true] }, own := default }

/-- A session in whose body a machine runs. -/
def bodyOf (m : Machine Access) : Job := { id := 0, handle := .during .restricted true true, phase := .chunk, machine := m }

/-- The activation of a function of the language that a function of the prelude called. -/
def waitsIn (b : Builtin) (guard : Option Guard) : Native Access :=
  { self := some (builtin b), top := 7, finish := .results 5 none, depth := 0, yieldable := false, guard
    pending := .reply fun r h s => .done (Library.protectedResults r) h s }

/-- The main thread of a script waits in `coroutine.resume`. -/
def resuming : Parked Access :=
  { stack := #[.nil, .nil, .nil, .nil, .closure 0]
    callers := [.native (waitsIn .coResume none), .script { pcallFrame with proto := Prelude.resume default },
      .native hostCall] }

/-- The thread that it resumed ends with `pcall`.  The termination signal is raised in the function that this called, which
has a variable that `type` closes. -/
def crossing : Machine Access :=
  { heap := {
      tables := closedBy (.native (.builtin .type))
      closures := #[⟨Prelude.pass default, #[0, 1]⟩]
      cells := #[.closed (.native (.host 0)), .closed (builtin .error)]
      failures := #[.fault .signal], threads := #[.normal, .running] }
    host := requestedAccess, hosts := #[Namespace.probe], interrupted := fun _ => true
    stack := #[.nil, .nil, .nil, .nil, .closure 0, .nil, .nil, .nil, .table 0], toClose := [8]
    thread := 1, parked := #[resuming, {}], resumers := [0]
    callers := [.script closerFrame, .native (waitsIn .pcall (some ⟨.none, true⟩)),
      .script { pcallFrame with finish := .threadEnd },
      .native { self := none, top := 1, finish := .nothing, depth := 0, yieldable := true }]
    control := .raise (.failure 0) }

/-- A function of the prelude catches what fails, if `pass` lies where it looks for it and nothing is to be closed. -/
theorem catches_waitsIn {g : Catcher} {b : Builtin} {guard : Option Guard} {m : Machine Access} {finish : Finish}
    (hregister : g.register = 1) (hnext : g.next = 6) (hstack : m.stack.getD 4 .nil = .closure 0)
    (hclosures : m.heap.closures = crossing.heap.closures) (hcells : ClosedStay crossing.heap.cells m.heap.cells)
    (hhosts : m.hosts = crossing.hosts) (hcloses : m.toClose = []) (hopened : m.opened = []) :
    Catches g default m (waitsIn b guard) { pcallFrame with proto := g.proto default, finish } where
  proto := rfl
  pc := hnext.symm
  base := rfl
  above := Nat.le_of_ble_eq_true rfl
  finish := by rw [hregister]; rfl
  pending := ⟨_, rfl, fun _ _ _ => rfl⟩
  pass := ⟨0, #[0, 1], by rw [hregister]; exact hstack, by rw [hclosures]; rfl, hcells.keeps (.of_map rfl)⟩
  probe := by rw [hhosts]; rfl
  room := Nat.le_of_ble_eq_true rfl
  closes := by rw [mustClose, hcloses]
  opened := by
    rw [hopened]
    exact fun _ hs => absurd hs List.not_mem_nil

/-- The main thread has the signal as the answer of `coroutine.resume`, and it gets to the call from the host. -/
theorem resuming_passage {m : Machine Access} (hcontrol : m.control = .answer (.failed (.failure 0)))
    (hcallers : m.callers = resuming.callers) (hcatches : Catches .resume default m (waitsIn .coResume none)
      { pcallFrame with proto := Prelude.resume default }) (hfailures : m.heap.failures = #[.fault .signal])
    (hhost : m.host = crossing.host) (hcloses : m.toClose = []) (hinterval : m.interval = 0) :
    Passage (fun f a => f = .signal ∧ a = crossing.host) 17 m (.failure 0) := by
  have hsignal : IsSignal m.heap (.failure 0) := ⟨0, .signal, rfl, by rw [hfailures]; rfl, rfl⟩
  refine .caught hsignal hcatches hcontrol hcallers fun j y _ hraised _ hwhich => ?_
  obtain ⟨rfl, hagain⟩ := hwhich.resolve_right fun hfinds => hfinds.interval hinterval
  obtain ⟨cells, -, hheap⟩ := hagain.heap
  refine Passage.of_unheld (f := .signal) ⟨hraised.1, hraised.2, ?_⟩ (hagain.closes.trans hcloses) ?_
    ⟨rfl, hagain.beside.host.trans hhost⟩
  · rw [hagain.depth]
    exact Nat.le_of_ble_eq_true rfl
  · rw [hheap, show (m.heap.withCells cells).failures = _ from hfailures]
    rfl

/-- The signal gets past the variable, both calls and the end of the thread. -/
theorem crossing_passage : Passage (fun f a => f = .signal ∧ a = crossing.host) 36 crossing (.failure 0) := by
  let pcallWaits := waitsIn .pcall (some ⟨.none, true⟩)
  let closing (top : Nat) : Closing :=
    { level := 7, reason := .failure 0, top, depth := 0, yieldable := false, after := .fail (.failure 0) }
  have hsignal : IsSignal crossing.heap (.failure 0) := ⟨0, .signal, rfl, rfl, rfl⟩
  -- the function that `pcall` called is left, and its variable is closed
  let m₂ : Machine Access := { crossing with
    callers := .closing (closing 0) :: crossing.callers.tail, control := .close }
  let m₃ : Machine Access := { m₂ with toClose := [], callers := .closing (closing 10) :: crossing.callers.tail }
  let m₄ : Machine Access := { m₃ with callers := crossing.callers.tail, control := .answer (.failed (.failure 0)) }
  have hunwound : { crossing with control := .unwind (.failure 0) }.unwind (.failure 0) = m₂ := rfl
  have hreturns : m₂.closeNext = m₃ := by
    have hcall : m₂.closeNext
      = m₃.enter (crossing.heap.metamethod (.table 0) (Bytes.ofString "__close")) #[.table 0, .failure 0] .closed := rfl
    rw [hcall, metamethod_closedBy rfl]
    rfl
  refine .raised rfl (fun g hg => .inl ?_) (.unwinds rfl ?_)
  · rw [← Option.some.inj hg]
  rw [hunwound]
  refine .closes (j := 0) rfl rfl rfl rfl hreturns rfl rfl (.closed rfl rfl rfl rfl ?_)
  -- `pcall` raises it again, which ends the thread
  have hcatches : Catches .pcall default m₄ pcallWaits { pcallFrame with finish := .threadEnd } :=
    catches_waitsIn rfl rfl rfl rfl (fun _ _ h => h) rfl rfl rfl
  refine .caught (m := m₄) hsignal hcatches rfl rfl fun j y _ hraised _ hwhich => ?_
  obtain ⟨rfl, hagain⟩ := hwhich.resolve_right fun hfinds => hfinds.interval rfl
  generalize m₄.after j = m at hraised hagain
  obtain ⟨⟨cells, hstay, hheap⟩, hbeside, hthread, hresumers, -, -⟩ := hagain
  obtain ⟨hcontrol, inner, hinner, hcallers⟩ := hraised
  have hparked : m.parked[0]? = some resuming := by rw [hbeside.parked]; rfl
  refine Passage.ends hcontrol (fun a ha => ?_) hresumers hparked (hthread ▸ Nat.zero_ne_one) fun threads parked => ?_
  · rw [hcallers] at ha
    rcases List.mem_append.mp ha with ha | ha
    · exact hinner a ha
    · rw [List.mem_singleton.mp ha]
      rfl
  -- the main thread has it as an answer
  · have hclosures : m.heap.closures = crossing.heap.closures := by rw [hheap]; rfl
    have hcells : ClosedStay crossing.heap.cells m.heap.cells := by rw [hheap]; exact hstay
    have hfailures : m.heap.failures = #[.fault .signal] := by rw [hheap]; rfl
    refine resuming_passage rfl rfl ?_ hfailures hbeside.host rfl hbeside.interval
    exact catches_waitsIn rfl rfl rfl hclosures hcells hbeside.hosts rfl rfl

/-- The body is over then, and the session closes. -/
theorem step_crossing :
    ∃ m : Machine Access, ((bodyOf crossing).step {}).2 = { bodyOf m with phase := .closing .interrupted } := by
  obtain ⟨i, hi, v, f, hstopped, hf, rfl, hhost⟩ := crossing_passage.reaches
  have hrun := run_of_stopped hstopped (Nat.lt_of_le_of_lt hi (show 36 < Job.turnSteps by decide))
  have hstep : ((bodyOf crossing).step {}).2
      = ((bodyOf (crossing.after i)).notice Job.programTerminated).bodyOutcome .interrupted := by
    show ((bodyOf crossing).runMachine {}).2 = _
    rw [Job.runMachine, show (bodyOf crossing).machine.run Job.turnSteps = _ from hrun]
    simp only [hf]
    rfl
  have hasked : ((bodyOf (crossing.after i)).notice Job.programTerminated).access.isTerminated = true := by
    show ((crossing.after i).host.write _).2.isTerminated = true
    rw [hhost]
    rfl
  rw [hstep, Job.bodyOutcome, if_pos hasked]
  exact ⟨_, rfl⟩

theorem signal_ends_session_iff_crossing :
    ∃ past k, Course {} ((bodyOf crossing).step {}).2 past k ∧ k.phase = .ended ∧ k.handle.outcome = some .interrupted ∧
      ((bodyOf crossing).step {}).2.access = (requestedAccess.write (Bytes.ofString (Job.programTerminated ++ "\n"))).2 := by
  obtain ⟨m, hstep⟩ := step_crossing
  let j := ((bodyOf crossing).step {}).2
  have hphase : j.phase = .closing .interrupted := congrArg Job.phase hstep
  have hcourse : Course {} j [j] (j.step {}).2 := Course.start.move (by rw [hphase]; rfl) .step
  have hclosed : (j.step {}).2.phase = .ended ∧ (j.step {}).2.panic = none := by
    have hquiet : ({} : Engine).config.logging = false := rfl
    rw [Job.step_closing j {} hphase, Job.tearDown_eq, hquiet, Bool.false_and, if_neg Bool.false_ne_true]
    exact ⟨rfl, congrArg Job.panic hstep⟩
  have hthere : Runs 0 (bodyOf crossing).machine crossing := rfl
  obtain ⟨f, a, ⟨rfl, rfl⟩, hiff, hnotice⟩ := signal_ends_session_iff (j := bodyOf crossing) (.inl rfl) rfl hthere
    crossing_passage (by decide) hcourse hclosed.1 hclosed.2
  have houtcome := hiff.mpr ⟨0, rfl, by decide⟩
  exact ⟨_, _, hcourse, hclosed.1, houtcome, (hnotice houtcome).1⟩

/-- A session in whose body a failure has been raised. -/
def raising (heap : Heap) (stack : Array Value) (toClose : List Nat) : Job :=
  bodyOf {
    heap, host := requestedAccess, hosts := #[], interrupted := fun _ => true
    stack, toClose, callers := [.native hostCall], control := .raise (.failure 0) }

theorem raising_unheld (heap : Heap) (stack : Array Value) (toClose : List Nat) :
    Machine.Unheld (raising heap stack toClose).machine 0 where
  control := rfl
  callers := ⟨[], fun _ ha => absurd ha List.not_mem_nil, rfl⟩
  depth := Nat.le_of_ble_eq_true rfl

/-- The objects of a script with a table that `error` closes, when the termination signal is raised. -/
def closedByError : Heap := { tables := closedBy (.native (.builtin .error)), failures := #[.fault .signal] }

/-- A variable that `error` closes keeps a signal that is raised beside it from the session: the session has failed. -/
theorem signal_lost_closedByError :
    let j := raising closedByError #[.nil, .table 0] [1]
    Machine.Unheld j.machine 0 ∧ closedByError.failures.getD 0 default = .fault .signal ∧
      ∃ r, r.kind = .runtime ∧ (j.runMachine {}).2.phase.bodyOutcome? = some (.failed r) := by
  intro j
  refine ⟨raising_unheld .., rfl, ?_⟩
  let base := Machine.hostCall (σ := Access)
  let closing : Closing :=
    { level := 1, reason := .failure 0, top := 0, depth := 0, yieldable := false, after := .fail (.failure 0) }
  -- the signal is on its way to the session, and the variable is to be closed before
  let m₁ : Machine Access := { j.machine with control := .unwind (.failure 0) }
  let m₂ : Machine Access := { j.machine with callers := [.closing closing, .native base], control := .close }
  have h₁ : j.machine.advance = m₁ := rfl
  have h₂ : m₁.advance = m₂ := rfl
  -- the closing function fails
  let m₃ (message : Bytes) : Machine Access := { j.machine with
    toClose := [], control := .raise (.str message)
    callers := [.native { self := some (.native (.builtin .error)), top := 6, finish := .closed, depth := 1, yieldable := false },
      .closing { closing with top := 3 }, .native base] }
  have h₃ : ∃ message, m₂.advance = m₃ message := by
    have hcall : m₂.advance = Machine.enter { m₂ with
          toClose := [], callers := [.closing { closing with top := 3 }, .native base] }
        (closedByError.metamethod (.table 0) (Bytes.ofString "__close")) #[.table 0, .failure 0] .closed := rfl
    rw [metamethod_closedBy rfl] at hcall
    exact ⟨_, hcall.trans rfl⟩
  obtain ⟨message, h₃⟩ := h₃
  -- its failure, with a trace, takes the place of the signal
  have h₄ : ∃ traced, (m₃ message).advance = { m₃ message with control := .unwind (.str traced) } := ⟨_, rfl⟩
  obtain ⟨traced, h₄⟩ := h₄
  have hreaches : Machine.Reaches 7 j.machine fun m => m.control = .stopped (.failed (.str traced)) ∧ True := by
    refine Machine.Reaches.advance trivial ?_
    rw [h₁]
    refine Machine.Reaches.advance trivial ?_
    rw [h₂]
    refine Machine.Reaches.advance trivial ?_
    rw [h₃]
    refine Machine.Reaches.advance trivial ?_
    rw [h₄]
    exact Machine.Reaches.advance trivial (.advance trivial (.advance trivial (.here ⟨rfl, trivial⟩)))
  have hturn : 7 < Job.turnSteps := by decide
  obtain ⟨m, -, hrun⟩ := hreaches.run hturn
  obtain ⟨-, -, hfailed⟩ := j.body_failed (c := {}) (.inl rfl) hrun rfl
  exact hfailed rfl

end ScriptHost

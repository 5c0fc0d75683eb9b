import ScriptHost.Proofs.Script.Calls
import ScriptHost.Proofs.Script.Table
import ScriptHost.Proofs.Session.Course

/-!
# How the termination signal ends a session

The termination signal is a failure like others: it goes from one activation to the next until somebody holds it, and
each host function that it passes through puts a layer around it.  The session asks of the failure that it gets in the
end whether it is the signal.

* `Fault.layers?` — how deep the signal lies in a failure;
* **`Fault.isInterrupt_iff`** — the signal is recognised under fewer than sixteen layers;
* `Phase.bodyOutcome?` — the outcome that the body of a program came to;
* **`Job.body_failed`** — what a session makes of the failure that ends the body;
* `Machine.Unseen` — a value that is raised is shown to no function of the script;
* **`Machine.Reaches.signalled`** — a failure that nothing stands in the way of reaches the session as it is;
* **`Job.course_kept`** — the outcome of a body that was not completed is the session's.
-/

namespace ScriptHost

open Script

/-! ### Recognising the signal -/

namespace Fault

/-- How many layers lie around the termination signal, if a failure has it. -/
def layers? : Fault → Option Nat
  | .signal => some 0
  | .callback _ cause => (layers? cause).map (· + 1)
  | .context _ cause => (layers? cause).map (· + 1)
  | .invocation _ source => (layers? source).map (· + 1)
  | .carried inner => (layers? inner).map (· + 1)
  | _ => none

theorem exists_map_lt_iff (x : Option Nat) (n : Nat) :
    (∃ k, x.map (· + 1) = some k ∧ k < n + 1) ↔ ∃ k, x = some k ∧ k < n := by
  cases x <;> simp

theorem isInterruptWithin_iff (n : Nat) (f : Fault) :
    f.isInterruptWithin n = true ↔ ∃ k, f.layers? = some k ∧ k < n := by
  induction n generalizing f with
  | zero => simp [isInterruptWithin]
  | succ n ih =>
    cases f with
    | signal => simp [isInterruptWithin, layers?]
    | callback trace cause => rw [isInterruptWithin, layers?, exists_map_lt_iff, ih]
    | context text cause => rw [isInterruptWithin, layers?, exists_map_lt_iff, ih]
    | invocation function source => rw [isInterruptWithin, layers?, exists_map_lt_iff, ih]
    | carried inner => rw [isInterruptWithin, layers?, exists_map_lt_iff, ih]
    | _ => simp [isInterruptWithin, layers?]

/-- **The signal is recognised under fewer than sixteen layers.** -/
theorem isInterrupt_iff (f : Fault) : f.isInterrupt = true ↔ ∃ k, f.layers? = some k ∧ k < maxDepth :=
  isInterruptWithin_iff maxDepth f

theorem isInterrupt_iff_of_layers {f : Fault} {n : Nat} (h : f.layers? = some n) : f.isInterrupt = true ↔ n < maxDepth := by
  simp [isInterrupt_iff, h]

/-- The name of a host function is no layer around a signal that is recognised. -/
theorem tagged_of_isInterrupt {f : Fault} (h : f.isInterrupt = true) (function : String) : f.tagged function = f := by
  rw [tagged, if_pos h]

end Fault

/-! ### The end of the body -/

/-- The outcome that the body of a program came to. -/
def Phase.bodyOutcome? : Phase → Option Outcome
  | .exit o | .closing o => some o
  | _ => none

namespace Job

variable {j : Job} {c : Config}

/-- A body that is not completed keeps its outcome, and nothing more is written for it. -/
theorem bodyOutcome_incomplete {o : Outcome} (ho : o.isCompleted = false) :
    (j.bodyOutcome o).phase.bodyOutcome? = some o ∧ (j.bodyOutcome o).handle = j.handle ∧
      (j.bodyOutcome o).access = j.access := by
  rw [bodyOutcome]
  split
  · rw [if_neg (by simp [ho])]
    exact ⟨rfl, rfl, rfl⟩
  · split <;> exact ⟨rfl, rfl, rfl⟩

/-- The program itself or its function `main` runs. -/
def InBody (j : Job) : Prop := j.phase = .chunk ∨ j.phase = .main

/-- A failure ends the program itself as it ends `main`. -/
theorem ended_ofFailure (hbody : j.InBody) (x : HostFailure) : j.ended c (.ofFailure x) = j.bodyEnded c (.ofFailure x) := by
  rcases hbody with hp | hp
  · cases x with
    | panic message => simp only [ended, hp, Ending.ofFailure, chunkEnded]
    | fault f =>
      rw [Ending.ofFailure]
      split <;> simp only [ended, hp, chunkEnded]
  · simp only [ended, hp]

/-- **The failure that ends the body.**  If it is the signal, the body is interrupted and all that is written is a
notice; otherwise it has failed, with a report. -/
theorem body_failed (hbody : j.InBody) {v : Value} {m : Machine Access} {f : Fault}
    (hrun : j.machine.run turnSteps = (some (.failed v), m)) (hf : m.heap.hostFailure v = .fault f) :
    (j.runMachine c).2.handle = j.handle ∧
      (f.isInterrupt = true →
        (j.runMachine c).2.phase.bodyOutcome? = some .interrupted ∧
          (j.runMachine c).2.access = (m.host.write (Bytes.ofString (programTerminated ++ "\n"))).2) ∧
      (f.isInterrupt = false →
        ∃ r, r.kind = .runtime ∧ (j.runMachine c).2.phase.bodyOutcome? = some (.failed r)) := by
  have hended : (j.runMachine c).2 = { j with machine := m }.bodyEnded c (.ofFailure (m.heap.hostFailure v)) := by
    rw [← ended_ofFailure (j := { j with machine := m }) hbody, runMachine, hrun]
  rw [hended, hf, Ending.ofFailure]
  cases hsignal : f.isInterrupt with
  | true =>
    obtain ⟨houtcome, hhandle, haccess⟩ :=
      bodyOutcome_incomplete (j := { j with machine := m }.notice programTerminated) (o := .interrupted) rfl
    exact ⟨hhandle, fun _ => ⟨houtcome, haccess⟩, fun h => absurd h Bool.noConfusion⟩
  | false =>
    obtain ⟨houtcome, hhandle, -⟩ := bodyOutcome_incomplete
      (j := ({ j with machine := m }.report c (.runtime f)).2)
      (o := .failed ({ j with machine := m }.report c (.runtime f)).1) rfl
    exact ⟨hhandle, fun h => absurd h Bool.noConfusion, fun _ => ⟨_, report_kind { j with machine := m } c (.runtime f), houtcome⟩⟩

end Job

/-- Writing leaves the files alone. -/
theorem Access.write_files (a : Access) (b : Bytes) : (a.write b).2.host.files = a.host.files := by
  rw [Access.write]
  cases a.own.output with
  | nowhere => rfl
  | kept w => rfl
  | terminal =>
    cases a.own.resources.terminal with
    | none => rfl
    | some t =>
      simp only [Host.write]
      split <;> rfl

/-! ### The way of the signal -/

namespace Script.Machine

variable {σ : Type}

/-- The activation that a call from the host waits in. -/
def hostCall : Native σ :=
  { self := none, top := 1, finish := .stop, depth := 0, yieldable := false, guard := some ⟨.trace, true⟩ }

/-- A failure of the host is raised in a call from the host, with no protected call in between. -/
structure Unheld (m : Machine σ) (id : Nat) : Prop where
  control : m.control = .raise (.failure id)
  callers : ∃ inner, (∀ a ∈ inner, Guardless a) ∧ m.callers = inner ++ [.native hostCall]
  /-- The handler that appends traces can be called. -/
  depth : m.innermost.2.1 + 1 < maxDepth

/-- No function of the script is shown a value that is raised: the innermost guard asks none, or it lets failures of the
host through. -/
def Unseen (m : Machine σ) (x : Value) : Prop :=
  ∀ g, guardOf m.callers = some g →
    g.handler = .none ∨ g.handler = .trace ∧ (∃ id, x = .failure id) ∧ m.innermost.2.1 + 1 < maxDepth

/-- It unwinds then. -/
theorem handle_unseen [Inhabited σ] {m : Machine σ} {x : Value} (hcontrol : m.control = .raise x) (hunseen : Unseen m x) :
    m.handle x = { m with control := .unwind x } := by
  cases hheld : guardOf m.callers with
  | none => simp only [handle, hheld]
  | some g =>
    rcases hunseen g hheld with hhandler | ⟨hhandler, ⟨id, rfl⟩, hdepth⟩
    · simp only [handle, hheld, hhandler]
    · have hlow : ¬ maxHandlerDepth ≤ m.innermost.2.1 + 1 := by
        have : maxDepth ≤ maxHandlerDepth := by decide
        omega
      have hlimit : ¬ (m.innermost.2.1 + 1 == maxDepth) = true := by
        rw [beq_iff_eq]
        omega
      simp only [handle, hheld, hhandler, if_neg hlow, if_neg hlimit, perform, traceHandler]
      show settle _ _ (.done #[.failure id] m.heap m.host) = _
      simp only [settle, hcontrol, deliver]
      rfl

/-- A failure of the host goes to the call from the host that it is raised in, and there is nothing to be closed on the way. -/
theorem Reaches.guarded [Inhabited σ] {m : Machine σ} {id : Nat} {inner rest : List (Activation σ)} {w : Native σ} {on : Bool}
    (hcontrol : m.control = .raise (.failure id)) (hcallers : m.callers = inner ++ .native w :: rest)
    (hinner : ∀ a ∈ inner, Guardless a) (hguard : w.guard = some ⟨.trace, on⟩) (hdepth : m.innermost.2.1 + 1 < maxDepth)
    (hcloses : m.mustClose w.top = false) :
    Reaches 3 m fun m' => ∃ stack cells opened, m' = { m with
      heap := { m.heap with cells }, stack, opened, callers := .native w :: rest, control := .answer (.failed (.failure id))
      hookOn := on } := by
  have hheld : guardOf m.callers = some ⟨.trace, on⟩ := by
    rw [hcallers, guardOf_append hinner, guardOf, hguard]
  have hdrop : dropToGuard m.callers = some (w, ⟨.trace, on⟩, rest) := by
    rw [hcallers, dropToGuard_append hinner, dropToGuard, hguard]
  have hhandler : m.handle (.failure id) = { m with control := .unwind (.failure id) } := by
    refine handle_unseen hcontrol fun g hg => .inr ⟨?_, ⟨id, rfl⟩, hdepth⟩
    rw [hheld] at hg
    rw [← Option.some.inj hg]
  -- the handler passes the failure on, the guard is gone to, and nothing is left to be closed
  refine Reaches.advance (by rw [hcontrol]; trivial) ?_
  simp only [Machine.advance, hcontrol, hhandler]
  let gone : Machine σ := { m with
    stack := if maxSlots < m.stack.size then m.stack.extract 0 maxSlots else m.stack
    callers := .native w :: rest, control := .unwind (.failure id), hookOn := on }
  have hunwound : { m with control := .unwind (.failure id) }.advance
      = gone.closing w.top (.failure id) true w.yieldable (.fail (.failure id)) := by
    simp only [Machine.advance, unwind, hdrop, gone]
  refine Reaches.advance trivial ?_
  rw [hunwound]
  obtain ⟨cells, opened, hclosed⟩ := advance_closing (m := gone) w.top (.failure id) true w.yieldable (.fail (.failure id)) hcloses
  have hcontrol' : (gone.closing w.top (.failure id) true w.yieldable (.fail (.failure id))).control = .close := by
    rw [closing]
  refine Reaches.advance (by rw [hcontrol']; trivial) ?_
  rw [hclosed]
  exact Reaches.here ⟨gone.stack, cells, opened, rfl⟩

/-- **A failure that nothing stands in the way of** reaches the host as it is. -/
theorem Reaches.signalled [Inhabited σ] {m : Machine σ} {id : Nat} (h : Unheld m id) (hcloses : m.toClose = []) :
    Reaches 4 m fun m' => m'.control = .stopped (.failed (.failure id)) ∧
      m'.heap.failures = m.heap.failures ∧ m'.host = m.host := by
  obtain ⟨hcontrol, ⟨inner, hinner, hcallers⟩, hdepth⟩ := h
  have hnothing : m.mustClose (hostCall (σ := σ)).top = false := by
    rw [mustClose, hcloses]
  refine Reaches.trans (k := 1) (Reaches.guarded hcontrol hcallers hinner rfl hdepth hnothing) fun m' hm' => ?_
  obtain ⟨stack, cells, opened, rfl⟩ := hm'
  exact Reaches.advance trivial (Reaches.here ⟨rfl, rfl, rfl⟩)

end Script.Machine

/-! ### The end of the session -/

namespace Job

variable {j : Job} {e : Engine} {mode : Mode} {o : Outcome}

/-- The body has come to an outcome, and the session is told to be running. -/
structure CameTo (j : Job) (mode : Mode) (o : Outcome) : Prop where
  outcome : j.phase.bodyOutcome? = some o
  handle : j.handle = .during mode true true

/-- How a session goes on from the outcome of its body: it keeps it, or it is over with it, or it is over because of a
failure that no session survives. -/
inductive Kept (mode : Mode) (o : Outcome) (k : Job) : Prop
  | kept (h : k.CameTo mode o)
  | ended (phase : k.phase = .ended) (handle : k.handle = .ended mode true true o)
  | panicked (ended : k.phase.isLive = false) (panic : k.panic ≠ none)

theorem abort_kept (c : Config) (message : String) : Kept mode o (j.abort c message) := by
  rw [abort_eq]
  split
  · exact .panicked rfl (Option.some_ne_none _)
  · exact .panicked rfl (Option.some_ne_none _)

/-- The exit routine does not change the outcome of a body that was not completed. -/
theorem exitEnded_kept (ho : o.isCompleted = false) (hhandle : j.handle = .during mode true true) (c : Config) :
    ∀ x : Ending, Kept mode o (j.exitEnded c o x)
  | .returned => .kept ⟨rfl, hhandle⟩
  | .signal => .kept ⟨by simp [exitEnded, ho, conclude, Phase.bodyOutcome?], hhandle⟩
  | .failed f => .kept ⟨by simp [exitEnded, ho, conclude, Phase.bodyOutcome?], hhandle⟩
  | .panicked m => abort_kept c m

theorem step_kept (h : j.CameTo mode o) (ho : o.isCompleted = false) : Kept mode o (j.step e).2 := by
  obtain ⟨hphase, hhandle⟩ := h
  cases hp : j.phase with
  | exit p =>
    rw [hp] at hphase
    cases hphase
    simp only [step, hp, runMachine]
    split
    · exact .kept ⟨rfl, hhandle⟩
    · exact .kept ⟨rfl, hhandle⟩
    · rename_i vs m _
      exact exitEnded_kept (j := { j with machine := m, phase := .exit o }) ho hhandle e.config .returned
    · rename_i v m _
      exact exitEnded_kept (j := { j with machine := m, phase := .exit o }) ho hhandle e.config
        (.ofFailure (m.heap.hostFailure v))
  | closing p =>
    rw [hp] at hphase
    cases hphase
    rw [step_closing j e hp]
    by_cases hrecord : (e.config.logging && !j.gaveBackEarly) = true
    · rw [tearDown_eq, if_pos hrecord]
      exact .panicked rfl (Option.some_ne_none _)
    · refine .ended (tearDown_settled ..).ended ?_
      rw [tearDown_handle _ hhandle (by cases o <;> rfl), recorded, if_neg hrecord]
  | _ =>
    rw [hp] at hphase
    cases hphase

theorem move_kept {k : Job} (hmove : Move e j k) (h : j.CameTo mode o) (ho : o.isCompleted = false) : Kept mode o k := by
  cases hmove with
  | step => exact step_kept h ho
  | noMachine hp f =>
    have hphase := h.outcome
    rw [hp] at hphase
    cases hphase
  | meanwhile host clock source => exact .kept ⟨h.outcome, h.handle⟩
  | breakdown pool machine message => exact abort_kept e.config message

/-- **The outcome of a body that was not completed is the session's**, if the session survives until then. -/
theorem course_kept {past : List Job} {k : Job} (hcourse : Course e j past k) (h : j.CameTo mode o)
    (ho : o.isCompleted = false) : Kept mode o k := by
  induction hcourse with
  | start => exact .kept h
  | move course live hmove ih =>
    cases ih with
    | kept hkept => exact move_kept hmove hkept ho
    | ended phase _ =>
      rw [phase] at live
      cases live
    | panicked ended _ =>
      rw [ended] at live
      cases live

end Job

end ScriptHost

import ScriptHost.Session.Job

/-!
# What a step of a session does

`Job.step` reads programs, compiles them and runs machines, but little of that matters for how a session goes on.
For each phase one theorem says everything that a step from there can lead to:

* `Job.standing` — the part of a session that its work leaves alone;
* `Phase.isWork`, `Phase.hasCompiled`, `Phase.hasRun` — what a phase says of the work that has been done;
* **`step_preparing`**, **`step_reading`**, **`step_running`**, **`step_closing`** — a step from each phase.
-/

namespace ScriptHost

open Script

namespace Phase

/-- The session is at work: it has not come to an outcome. -/
def isWork : Phase → Bool
  | .preparing | .reading _ | .chunk | .main | .exit _ => true
  | .closing _ | .ended | .lost => false

/-- The session is prepared and at work on its program. -/
def hasCompiled : Phase → Bool
  | .reading _ | .chunk | .main | .exit _ => true
  | _ => false

/-- The program runs. -/
def hasRun : Phase → Bool
  | .chunk | .main | .exit _ => true
  | _ => false

/-- The outcome that the session has come to. -/
def outcome? : Phase → Option Outcome
  | .closing o => some o
  | _ => none

theorem outcome?_eq_some {p : Phase} {o : Outcome} : p.outcome? = some o ↔ p = .closing o := by
  cases p <;> simp [outcome?]

theorem hasCompiled_of_hasRun {p : Phase} (h : p.hasRun = true) : p.hasCompiled = true := by
  cases p <;> first | rfl | cases h

theorem isWork_of_hasRun {p : Phase} (h : p.hasRun = true) : p.isWork = true := by
  cases p <;> first | rfl | cases h

theorem isLive_of_isWork {p : Phase} (h : p.isWork = true) : p.isLive = true := by
  cases p <;> first | rfl | cases h

end Phase

/-- The part of a session that its work leaves alone. -/
structure Standing where
  id : Nat
  terminal : Option Nat
  handle : Session.Handle
  pool : Pool Access

/-- The report that is written of a failure is of the failure's kind. -/
theorem Reporter.emit_kind {r : Reporter} {f : Failure} {output : Writer} {target : Option DumpTarget}
    {version : String} {clock : Nat} {disk : Writer} {files : Tree} {report : Report}
    (h : (r.emit f output target version clock disk files).result = .ok report) : report.kind = f.kind := by
  simp only [emit] at h
  split at h
  · split at h
    · cases h
    · split at h
      · cases h
      · cases h
        rfl
  · split at h
    · cases h
    · cases h
      rfl

namespace Job

variable (j : Job) (c : Config) (e : Engine)

/-- The part of a session that its work leaves alone. -/
def standing : Standing := ⟨j.id, j.terminal, j.handle, j.pool⟩

/-- The report of a failure is of its kind, whether it could be written or not. -/
theorem report_kind (f : Failure) : (j.report c f).1.kind = f.kind := by
  simp only [report, onAccess]
  split
  · exact Reporter.emit_kind ‹_›
  · rfl

/-! ### The beginning -/

/-- Where reading leads: there is more to read, or the session has come to an outcome, which is not that of a completed
program, or the program runs. -/
inductive Read (k : Job) : Prop
  | more (standing : k.standing = j.standing) (read : Bytes) (phase : k.phase = .reading read)
  | outcome (standing : k.standing = j.standing) (o : Outcome) (incomplete : o.isCompleted = false)
      (phase : k.phase = .closing o)
  | running (standing : k.standing = { j.standing with handle := (j.handle.advance .running).2 })
      (phase : k.phase = .chunk)

/-- Compiling a program ends in a failure or the program runs. -/
theorem compile_read {i : Job} (hi : i.standing = j.standing) (text : String) : Read j (i.compile c text) := by
  rw [compile]
  cases Script.compile (Bytes.ofString i.name) (Bytes.ofString text) with
  | error message => exact .outcome hi _ rfl rfl
  | ok p =>
    refine .running ?_ rfl
    show { i.standing with handle := (i.handle.advance .running).2 } = _
    rw [hi, show i.handle = j.handle from congrArg Standing.handle hi]

theorem collect_read (read : Bytes) : Read j (j.collect c read).2 := by
  simp only [collect]
  split
  · exact compile_read j c rfl _
  · split
    · exact .outcome rfl _ rfl rfl
    · split
      · exact .more rfl _ rfl
      · refine compile_read j c ?_ _
        rfl
      · exact .outcome rfl _ rfl rfl
      · exact .outcome rfl _ rfl rfl

theorem furnish_snd : ∃ machine space, j.furnish.2 = { j with machine, space } := by
  rw [furnish]
  cases Namespace.Builder.bindAll { mode := j.handle.mode } (Namespace.poolValues j.pool) with
  | error f => exact ⟨j.machine, j.space, rfl⟩
  | ok builder => exact ⟨_, _, rfl⟩

/-- Preparing changes nothing that is told of the session. -/
theorem prepare_snd :
    ∃ pool machine space, (j.prepare e).2 = { j with pool, machine, space } := by
  rw [prepare]
  extract_lets
  generalize Binder.runAll (e.allBinders j.handle.mode) j.handle.mode j.pool j.machine.host = ran
  obtain ⟨bound, pool, a⟩ := ran
  cases bound with
  | error f => exact ⟨pool, _, j.space, rfl⟩
  | ok u =>
    obtain ⟨machine, space, h⟩ := furnish_snd { j with pool, machine := { j.machine with host := a } }
    exact ⟨pool, machine, space, h⟩

/-! ### Body and exit routine -/

/-- Where a part of the program that ended leads: to another part, to an outcome, or, after a failure that no session
survives, to the end. -/
inductive Led : Job → Prop
  | on {k : Job} (standing : k.standing = j.standing) (phase : k.phase.hasRun = true) : Led k
  | outcome {k : Job} (standing : k.standing = j.standing) (o : Outcome) (phase : k.phase = .closing o) : Led k
  | aborted {i : Job} (standing : i.standing = j.standing) (message : String) : Led (i.abort c message)

theorem bodyOutcome_led {i : Job} (hi : i.standing = j.standing) (o : Outcome) : Led j c (i.bodyOutcome o) := by
  rw [bodyOutcome]
  split
  · split
    · exact .outcome hi _ rfl
    · exact .outcome hi o rfl
  · split
    · exact .on hi rfl
    · exact .outcome hi o rfl

theorem bodyEnded_led {i : Job} (hi : i.standing = j.standing) : ∀ x : Ending, Led j c (i.bodyEnded c x)
  | .returned => bodyOutcome_led j c hi .completed
  | .signal => bodyOutcome_led j c (i := i.notice programTerminated) hi .interrupted
  | .failed f => bodyOutcome_led j c (i := (i.report c (.runtime f)).2) hi (.failed (i.report c (.runtime f)).1)
  | .panicked m => .aborted hi m

theorem exitEnded_led {i : Job} (hi : i.standing = j.standing) (o : Outcome) :
    ∀ x : Ending, Led j c (i.exitEnded c o x)
  | .returned => .outcome hi o rfl
  | .signal => .outcome hi _ rfl
  | .failed _ => .outcome hi _ rfl
  | .panicked m => .aborted hi m

theorem chunkEnded_led {i : Job} (hi : i.standing = j.standing) : ∀ x : Ending, Led j c (i.chunkEnded c x)
  | .returned => by
    rw [chunkEnded]
    split
    · exact .on hi rfl
    · exact bodyEnded_led j c hi .returned
  | .signal => bodyEnded_led j c hi .signal
  | .failed f => bodyEnded_led j c hi (.failed f)
  | .panicked m => bodyEnded_led j c hi (.panicked m)

theorem ended_led {i : Job} (hi : i.standing = j.standing) (hrun : i.phase.hasRun = true) (x : Ending) :
    Led j c (i.ended c x) := by
  rw [ended]
  split
  · exact chunkEnded_led j c hi x
  · exact bodyEnded_led j c hi x
  · exact exitEnded_led j c hi _ x
  · exact .on hi hrun

theorem runMachine_led (hrun : j.phase.hasRun = true) : Led j c (j.runMachine c).2 := by
  rw [runMachine]
  cases j.machine.run turnSteps with
  | mk stop m =>
    cases stop with
    | none => exact .on rfl hrun
    | some stop =>
      cases stop with
      | waiting ms => exact .on rfl hrun
      | returned vs => exact ended_led j c (i := { j with machine := m }) rfl hrun _
      | failed v => exact ended_led j c (i := { j with machine := m }) rfl hrun _

/-! ### A step from each phase -/

/-- **Preparing.**  The session reads its program next, or it has failed. -/
theorem step_preparing (hp : j.phase = .preparing) :
    let k := (j.step e).2
    k.id = j.id ∧ k.terminal = j.terminal ∧
      ((∃ read, k.phase = .reading read) ∧ k.handle = (j.handle.advance .compiling).2 ∨
        (∃ r, r.kind = .setup ∧ k.phase = .closing (.failed r)) ∧ k.handle = j.handle) := by
  obtain ⟨pool, machine, space, hprepare⟩ := j.prepare_snd e
  have hstep : (j.step e).2 = j.setUp e := by rw [step, hp]
  intro k
  simp only [k, hstep, setUp]
  split <;> rename_i i h <;> rw [h] at hprepare <;> subst hprepare
  · exact ⟨rfl, rfl, .inr ⟨⟨_, report_kind _ _ _, rfl⟩, rfl⟩⟩
  · exact ⟨rfl, rfl, .inl ⟨⟨_, rfl⟩, rfl⟩⟩

/-- **Reading.**  See `Read`. -/
theorem step_reading {read : Bytes} (hp : j.phase = .reading read) : Read j (j.step e).2 := by
  have hstep : (j.step e).2 = (j.collect e.config read).2 := by rw [step, hp]
  rw [hstep]
  exact j.collect_read e.config read

/-- Whatever part of the program runs, a step runs the machine. -/
theorem step_of_hasRun (hp : j.phase.hasRun = true) : (j.step e).2 = (j.runMachine e.config).2 := by
  cases hphase : j.phase with
  | chunk | main | exit => rw [step, hphase]
  | _ =>
    rw [hphase] at hp
    cases hp

/-- **Running.**  See `Led`. -/
theorem step_running (hp : j.phase.hasRun = true) : Led j e.config (j.step e).2 := by
  rw [j.step_of_hasRun e hp]
  exact j.runMachine_led e.config hp

/-- **Closing.**  The session is torn down. -/
theorem step_closing {o : Outcome} (hp : j.phase = .closing o) : (j.step e).2 = j.tearDown e.config o := by
  rw [step, hp]

end Job

end ScriptHost

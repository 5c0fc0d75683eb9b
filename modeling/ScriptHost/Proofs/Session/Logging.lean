import ScriptHost.Proofs.Session.Course

/-!
# What records of what happens change

A session does the same whether records are written or not, until everything is given back.  Then a record reads what
the session holds while that is still being changed, and the session is aborted over it.

* `Engine.withLogging` — an engine that writes records, or does not;
* **`step_withLogging`**, **`course_withLogging`** — until its end, a session takes the same course with records and
  without;
* **`logging_unnoticed_iff`** — when giving back succeeds, and when a session with records has the outcome, the history
  and the exit code of one without: exactly if it gave back early or was to end like an aborted session anyway;
* **`abort_ended_iff`** — when a session that a failure ends comes to its end at all.

Only `Job.release` looks at whether records are written.  Everything up to the end is therefore the same, and whoever
compares two sessions has only their last step to compare.
-/

namespace ScriptHost

/-- How sessions are run, with records or without. -/
def Config.withLogging (c : Config) (logging : Bool) : Config := { c with logging }

/-- An engine that writes records, or does not. -/
def Engine.withLogging (e : Engine) (logging : Bool) : Engine :=
  { e with config := e.config.withLogging logging }

namespace Job

variable (j : Job) (c : Config) (e : Engine) (logging : Bool)

/-! ### The work -/

theorem fail_withLogging (f : Failure) : j.fail (c.withLogging logging) f = j.fail c f := rfl

theorem compile_withLogging (text : String) : j.compile (c.withLogging logging) text = j.compile c text := by
  rw [compile, compile]
  cases Script.compile (Bytes.ofString j.name) (Bytes.ofString text) <;> rfl

theorem collect_withLogging (read : Bytes) : j.collect (c.withLogging logging) read = j.collect c read := by
  simp only [collect, compile_withLogging, fail_withLogging]

theorem prepare_withLogging : j.prepare (e.withLogging logging) = j.prepare e := by
  have hbinders : ∀ mode, (e.withLogging logging).allBinders mode = e.allBinders mode := fun _ => rfl
  simp only [prepare, hbinders]

theorem setUp_withLogging : j.setUp (e.withLogging logging) = j.setUp e := by
  simp only [setUp, prepare_withLogging]
  rfl

/-- A failure that no session survives ends this one. -/
theorem abort_not_isLive (message : String) : (j.abort c message).phase.isLive = false := by
  rw [abort_eq]
  split <;> rfl

variable {j c e}

theorem bodyEnded_withLogging {x : Ending} (h : (j.bodyEnded c x).phase.isLive = true) :
    j.bodyEnded (c.withLogging logging) x = j.bodyEnded c x := by
  cases x with
  | panicked message => exact absurd h (by rw [bodyEnded, abort_not_isLive]; decide)
  | _ => rfl

theorem chunkEnded_withLogging {x : Ending} (h : (j.chunkEnded c x).phase.isLive = true) :
    j.chunkEnded (c.withLogging logging) x = j.chunkEnded c x := by
  cases x with
  | returned => rfl
  | _ => exact bodyEnded_withLogging logging h

theorem exitEnded_withLogging {o : Outcome} {x : Ending} (h : (j.exitEnded c o x).phase.isLive = true) :
    j.exitEnded (c.withLogging logging) o x = j.exitEnded c o x := by
  cases x with
  | panicked message => exact absurd h (by rw [exitEnded, abort_not_isLive]; decide)
  | _ => rfl

theorem ended_withLogging {x : Ending} (h : (j.ended c x).phase.isLive = true) :
    j.ended (c.withLogging logging) x = j.ended c x := by
  rw [ended] at h
  rw [ended, ended]
  cases hp : j.phase <;> rw [hp] at h
  case chunk => exact chunkEnded_withLogging logging h
  case main => exact bodyEnded_withLogging logging h
  case exit o => exact exitEnded_withLogging logging h

theorem runMachine_withLogging (h : (j.runMachine c).2.phase.isLive = true) :
    j.runMachine (c.withLogging logging) = j.runMachine c := by
  rw [runMachine] at h
  rw [runMachine, runMachine]
  cases hrun : j.machine.run turnSteps with
  | mk stop m =>
    rw [hrun] at h
    cases stop with
    | none => rfl
    | some stop =>
      cases stop with
      | waiting ms => rfl
      | returned vs => exact congrArg (Prod.mk Progress.ready) (ended_withLogging logging h)
      | failed v => exact congrArg (Prod.mk Progress.ready) (ended_withLogging logging h)

/-- **A step.**  Unless it ends the session, a step is the same with records and without. -/
theorem step_withLogging (h : (j.step e).2.phase.isLive = true) : j.step (e.withLogging logging) = j.step e := by
  cases hp : j.phase with
  | preparing => rw [step, step, hp, setUp_withLogging]
  | reading read =>
    rw [step, step, hp]
    show (if (j.collect (e.config.withLogging logging) read).1 then _ else _, _) = _
    rw [collect_withLogging]
    rfl
  | chunk | main | exit o =>
    rw [step, hp] at h
    rw [step, step, hp]
    exact runMachine_withLogging logging h
  | closing o =>
    rw [j.step_closing e hp, (j.tearDown_settled e.config o).ended] at h
    cases h
  | ended | lost => rw [step, step, hp]

/-! ### The end -/

/-- Giving back succeeds if no records are written or there is nothing left to give back. -/
theorem release_withLogging_iff (j : Job) (c : Config) (logging : Bool) :
    (j.release (c.withLogging logging)).1 = none ↔ logging = false ∨ j.gaveBackEarly = true := by
  rw [release_eq]
  show (if logging && !j.gaveBackEarly then _ else _) = none ↔ _
  cases logging <;> cases j.gaveBackEarly <;> simp

theorem recorded_withLogging_false (j : Job) (c : Config) (o : Outcome) :
    j.recorded (c.withLogging false) o = o := rfl

theorem recorded_withLogging_true (j : Job) (c : Config) (o : Outcome) :
    j.recorded (c.withLogging true) o = if j.gaveBackEarly then o else Outcome.aborted := by
  show (if true && !j.gaveBackEarly then _ else _) = _
  cases j.gaveBackEarly <;> rfl

/-- **A failure that no session survives.**  It ends a session if no records are written or there is nothing left to
give back; else a record fails on the way, and the session never comes to its end. -/
theorem abort_ended_iff (j : Job) (c : Config) (logging : Bool) (message : String) :
    (j.abort (c.withLogging logging) message).phase = .ended ↔ logging = false ∨ j.gaveBackEarly = true := by
  rw [abort_eq]
  show (if logging && !j.gaveBackEarly then _ else _ : Job).phase = .ended ↔ _
  cases logging <;> cases j.gaveBackEarly <;> simp [close]

end Job

section
variable {e : Engine} {start : Job} {past : List Job} {j : Job}

theorem move_withLogging (logging : Bool) {k : Job} (h : Move e j k) (live : k.phase.isLive = true) :
    Move (e.withLogging logging) j k := by
  cases h with
  | step =>
    rw [← Job.step_withLogging logging live]
    exact .step
  | noMachine hp f =>
    rw [← Job.fail_withLogging j e.config logging]
    exact .noMachine hp f
  | meanwhile h clock source => exact .meanwhile h clock source
  | breakdown pool machine message =>
    rw [Job.abort_not_isLive] at live
    cases live

/-- **A course.**  Until it is over, a session takes the same course with records and without. -/
theorem course_withLogging (logging : Bool) (h : Course e start past j) (live : j.phase.isLive = true) :
    Course (e.withLogging logging) start past j := by
  induction h with
  | start => exact .start
  | move _ hlive hmove ih => exact (ih hlive).move hlive (move_withLogging logging hmove live)

end

/-- What is told of a session that came to an outcome, with records and without. -/
theorem step_closing_handle {e : Engine} {r : Request} {id clock : Nat} {past : List Job} {j : Job} {o : Outcome}
    (h : Course e (r.job e.config id clock) past j) (hp : j.phase = .closing o) (logging : Bool) :
    (j.step (e.withLogging logging)).2.handle = .ended r.mode (lastWork (j :: past)).hasCompiled
      (lastWork (j :: past)).hasRun (j.recorded (e.config.withLogging logging) o) := by
  rw [j.step_closing (e.withLogging logging) hp]
  cases course_next h with
  | working _ hj => exact j.tearDown_handle _ hj.handle (hj.outcome o hp)
  | ended phase _ => rw [phase] at hp; cases hp
  | lost phase _ => rw [phase] at hp; cases hp

/-- The exit code of an aborted session is that of a running script's failure. -/
theorem exitCode_aborted : Outcome.exitCode (some Outcome.aborted) = 4 := rfl

/-- **When records go unnoticed.**  Take any session on its way.  With records or without, it has come to where it is
in the same way.  Giving back succeeds exactly if no records are written or there is nothing left to give back.  If
the session has come to an outcome, this outcome is recorded exactly if giving back succeeds or the session was aborted
anyway; so with records it ends as without, in its outcome, its history and its exit code, only if there is nothing
left to give back or an aborted session has the same. -/
theorem logging_unnoticed_iff {e : Engine} {r : Request} {id clock : Nat} {past : List Job} {j : Job}
    (h : Course e (r.job e.config id clock) past j) (live : j.phase.isLive = true) :
    let told (logging : Bool) : Session.Handle := (j.step (e.withLogging logging)).2.handle
    (∀ logging,
      Course (e.withLogging logging) (r.job (e.withLogging logging).config id clock) past j ∧
      ((j.release (e.withLogging logging).config).1 = none ↔ logging = false ∨ j.gaveBackEarly = true)) ∧
    ∀ o, j.phase = .closing o →
      (∀ logging, (j.step (e.withLogging logging)).2.phase = .ended ∧
        ((told logging).outcome = some o ↔ logging = false ∨ j.gaveBackEarly = true ∨ o = Outcome.aborted)) ∧
      ((told true).outcome = (told false).outcome ↔ j.gaveBackEarly = true ∨ o = Outcome.aborted) ∧
      ((told true).history = (told false).history ↔ j.gaveBackEarly = true ∨ o.state = .failed) ∧
      (Outcome.exitCode (told true).outcome = Outcome.exitCode (told false).outcome ↔
        j.gaveBackEarly = true ∨ Outcome.exitCode (some o) = 4) := by
  intro told
  refine ⟨fun logging => ⟨course_withLogging logging h live, j.release_withLogging_iff e.config logging⟩, ?_⟩
  intro o hp
  have htold : ∀ logging, told logging = .ended r.mode _ _ (j.recorded (e.config.withLogging logging) o) :=
    step_closing_handle h hp
  have htrue := htold true
  have hfalse := htold false
  rw [Job.recorded_withLogging_true] at htrue
  rw [Job.recorded_withLogging_false] at hfalse
  refine ⟨fun logging => ⟨?_, ?_⟩, ?_, ?_, ?_⟩
  · rw [j.step_closing (e.withLogging logging) hp]
    exact (j.tearDown_settled _ o).ended
  · cases logging
    · simp [hfalse]
    · rw [htrue]
      cases j.gaveBackEarly <;> simp [eq_comm]
  · rw [htrue, hfalse]
    cases j.gaveBackEarly <;> simp [eq_comm]
  · rw [htrue, hfalse]
    cases j.gaveBackEarly <;> simp [Session.Handle.ended, Outcome.aborted, Outcome.state, eq_comm]
  · rw [htrue, hfalse]
    cases j.gaveBackEarly <;> simp [exitCode_aborted, eq_comm]

theorem logging_unnoticed_iff_twiceBound :
    ∃ past j, Course twiceBound (onTerminal.job twiceBound.config 0 0) past j ∧ j.phase.isLive = true ∧
      (j.release (twiceBound.withLogging true).config).1 ≠ none := by
  let j := ((onTerminal.job twiceBound.config 0 0).step twiceBound).2
  have h : Course twiceBound (onTerminal.job twiceBound.config 0 0) _ j := Course.start.move rfl .step
  have live : j.phase.isLive = true := by decide +kernel
  have hearly : j.gaveBackEarly = false := by decide +kernel
  refine ⟨_, _, h, live, fun hnone => ?_⟩
  rcases ((logging_unnoticed_iff h live).1 true).2.mp hnone with hlogging | hgave
  · cases hlogging
  · rw [hearly] at hgave
    cases hgave

/-- A session that cannot be prepared has the exit code five, but that of an aborted session if records are written:
the outcome it came to is lost. -/
theorem exitCode_twiceBound_withLogging :
    ∃ past j o, (∀ logging, Course (twiceBound.withLogging logging) (onTerminal.job twiceBound.config 0 0) past j) ∧
      j.phase = .closing o ∧
      (j.step (twiceBound.withLogging false)).2.handle.outcome = some o ∧
      (j.step (twiceBound.withLogging true)).2.handle.outcome = some Outcome.aborted ∧
      Outcome.exitCode (j.step (twiceBound.withLogging false)).2.handle.outcome = 5 ∧
      Outcome.exitCode (j.step (twiceBound.withLogging true)).2.handle.outcome = 4 := by
  let j := ((onTerminal.job twiceBound.config 0 0).step twiceBound).2
  have h : Course twiceBound (onTerminal.job twiceBound.config 0 0) _ j := Course.start.move rfl .step
  have live : j.phase.isLive = true := by decide +kernel
  have hearly : j.gaveBackEarly = false := by decide +kernel
  have hcame : j.phase.outcome?.isSome = true := by decide +kernel
  obtain ⟨report, hkind, hp⟩ : ∃ report, report.kind = .setup ∧ j.phase = .closing (.failed report) := by
    rcases ((onTerminal.job twiceBound.config 0 0).step_preparing twiceBound rfl).2.2 with ⟨⟨read, hp⟩, _⟩ | ⟨h, _⟩
    · rw [hp] at hcame
      cases hcame
    · exact h
  have hfalse := step_closing_handle h hp false
  have htrue := step_closing_handle h hp true
  rw [Job.recorded_withLogging_false] at hfalse
  rw [Job.recorded_withLogging_true, hearly] at htrue
  refine ⟨_, j, .failed report, fun logging => course_withLogging logging h live, hp, ?_, ?_, ?_, ?_⟩
  · rw [hfalse]; rfl
  · rw [htrue]; rfl
  · have hcode : Outcome.exitCode (some (.failed report)) = 5 := by simp only [Outcome.exitCode, hkind]
    rw [hfalse]
    exact hcode
  · rw [htrue]; rfl

end ScriptHost

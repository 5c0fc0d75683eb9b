import ScriptHost.Proofs.Session.Signals

/-!
# The exit routine

When the body of a program has ended, the session looks once whether termination was requested, and if it was not, it
calls the global function `exit`.  How the body ended does not matter for that; how the exit routine ends matters for the
outcome only if the body was completed.

* `Job.stop?`, `Job.bodyEnd?` — how the machine of a session stops in its turn, and how the body ends;
* `Job.told` — what is written about the end of the body;
* **`Job.step_bodyEnd`** — everything that the end of the body can lead to;
* **`Job.step_exit`** — everything that a turn of the exit routine can lead to;
* `moves`, `Passed` — the moves of a course, and the steps among them;
* **`exit_rules`** — the exit routine is called once at most, and when;
* **`outcome_completed_iff`** — which sessions are completed.
-/

namespace ScriptHost

open Script

/-! ### The end of the body -/

/-- The exit routine runs. -/
def Phase.isExit : Phase → Bool
  | .exit _ => true
  | _ => false

namespace Ending

/-- The part of the session came to its end. -/
def hasReturned : Ending → Bool
  | .returned => true
  | _ => false

/-- The session survives this ending. -/
def isSurvived : Ending → Bool
  | .panicked _ => false
  | _ => true

end Ending

/-- Writing does not change which sessions are to end. -/
theorem Access.write_isTerminated (a : Access) (b : Bytes) : (a.write b).2.isTerminated = a.isTerminated := by
  rw [Access.write]
  cases a.own.output with
  | nowhere => rfl
  | kept w => rfl
  | terminal =>
    cases hterminal : a.own.resources.terminal with
    | none => rfl
    | some t =>
      simp only [Host.write]
      split <;> rfl

namespace Job

variable {j : Job} {c : Config} {e : Engine} {x : Ending} {m : Machine Access}

/-- How the machine of a session stops in its turn, if it does, and the machine then. -/
def stop? (j : Job) : Option (Ending × Machine Access) :=
  match j.machine.run turnSteps with
  | (some (.returned _), m) => some (.returned, m)
  | (some (.failed v), m) => some (.ofFailure (m.heap.hostFailure v), m)
  | _ => none

/-- How the body ends in a turn, if it does, and the machine then: the program itself is the whole body unless it
returns and there is a function `main`. -/
def bodyEnd? (j : Job) : Option (Ending × Machine Access) :=
  match j.phase with
  | .chunk => j.stop?.filter fun x => !(x.1.hasReturned && (j.space.entryPoint x.2 "main").isSome)
  | .main => j.stop?
  | _ => none

/-- What is written about the end of the body: a notice of the signal and a report of another failure. -/
def told (j : Job) (c : Config) : Ending → Job
  | .signal => j.notice programTerminated
  | .failed f => (j.report c (.runtime f)).2
  | _ => j

/-- The outcome of a body. -/
def outcomeOf (j : Job) (c : Config) : Ending → Outcome
  | .returned => .completed
  | .signal => .interrupted
  | .failed f => .failed (j.report c (.runtime f)).1
  | .panicked _ => .aborted

/-- A report does not change which sessions are to end. -/
theorem report_isTerminated (f : Failure) : (j.report c f).2.access.isTerminated = j.access.isTerminated := by
  simp only [report, onAccess, access]
  split <;> rfl

/-- What is written about the end of the body changes nothing but what the session's functions reach, and not whether the
session is to end. -/
theorem told_eq (j : Job) (c : Config) (x : Ending) :
    ∃ host : Access, j.told c x = { j with machine := { j.machine with host } } ∧ host.isTerminated = j.access.isTerminated := by
  cases x with
  | returned => exact ⟨j.access, rfl, rfl⟩
  | signal => exact ⟨_, rfl, Access.write_isTerminated _ _⟩
  | failed f => exact ⟨(j.report c (.runtime f)).2.access, rfl, report_isTerminated _⟩
  | panicked message => exact ⟨j.access, rfl, rfl⟩

theorem bodyEnded_eq (hx : x.isSurvived = true) : j.bodyEnded c x = (j.told c x).bodyOutcome (j.outcomeOf c x) := by
  cases x with
  | panicked message => cases hx
  | _ => rfl

theorem outcomeOf_isCompleted (j : Job) (c : Config) (x : Ending) : (j.outcomeOf c x).isCompleted = x.hasReturned := by
  cases x <;> rfl

/-- A body that is over without an exit routine is completed if it returned and termination was not requested. -/
theorem closingOutcome_isCompleted (j : Job) (c : Config) (x : Ending) (terminated : Bool) :
    (if x.hasReturned && terminated then Outcome.interrupted else j.outcomeOf c x).isCompleted
      = (x.hasReturned && !terminated) := by
  cases terminated <;> cases x <;> rfl

/-- What the end of the body leads to: the exit routine, the end of the session with an outcome, or, after a failure that
no session survives, the end without one. -/
inductive AfterBody (j : Job) (c : Config) (x : Ending) (m : Machine Access) : Job → Prop
  | exit {k : Job} (f : Value) (survived : x.isSurvived = true) (wanted : m.host.isTerminated = false)
      (entry : j.space.entryPoint m "exit" = some f)
      (called : k = { { j with machine := m }.told c x with
        machine := ({ j with machine := m }.told c x).machine.start f #[]
        phase := .exit ({ j with machine := m }.outcomeOf c x) }) : AfterBody j c x m k
  | closing {k : Job} (survived : x.isSurvived = true)
      (unwanted : m.host.isTerminated = true ∨ j.space.entryPoint m "exit" = none)
      (phase : k.phase = .closing
        (if x.hasReturned && m.host.isTerminated then .interrupted else { j with machine := m }.outcomeOf c x))
      (access : x.hasReturned = false → k.access = ({ j with machine := m }.told c x).access) : AfterBody j c x m k
  | aborted (message : String) (ending : x = .panicked message) : AfterBody j c x m ({ j with machine := m }.abort c message)

theorem bodyEnded_after (j : Job) (c : Config) (x : Ending) (m : Machine Access) :
    AfterBody j c x m ({ j with machine := m }.bodyEnded c x) := by
  cases hx : x.isSurvived with
  | false =>
    cases x with
    | panicked message => exact .aborted message rfl
    | _ => cases hx
  | true =>
    rw [bodyEnded_eq hx]
    obtain ⟨host, htold, hterminated⟩ := { j with machine := m }.told_eq c x
    have hcompleted := { j with machine := m }.outcomeOf_isCompleted c x
    have hasked : ({ j with machine := m }.told c x).access.isTerminated = m.host.isTerminated := by
      rw [htold]
      exact hterminated
    have hentry : ({ j with machine := m }.told c x).space.entryPoint ({ j with machine := m }.told c x).machine "exit"
        = j.space.entryPoint m "exit" := by
      rw [htold]
      rfl
    rw [bodyOutcome, hasked, hentry]
    cases hterminate : m.host.isTerminated with
    | true =>
      rw [if_pos rfl, hcompleted]
      cases hreturned : x.hasReturned with
      | true => exact .closing hx (.inl hterminate) (by rw [hreturned, hterminate]; rfl) (by simp [hreturned])
      | false => exact .closing hx (.inl hterminate) (by rw [hreturned]; rfl) fun _ => rfl
    | false =>
      rw [if_neg Bool.false_ne_true]
      cases hexit : j.space.entryPoint m "exit" with
      | none => exact .closing hx (.inr hexit) (by rw [hterminate, Bool.and_false]; rfl) fun _ => rfl
      | some f => exact .exit f hx hterminate hexit rfl

/-- A machine that stops ends its part of the session. -/
theorem runMachine_of_stop (h : j.stop? = some (x, m)) : (j.runMachine c).2 = { j with machine := m }.ended c x := by
  rw [stop?] at h
  rw [runMachine]
  generalize j.machine.run turnSteps = ran at h ⊢
  obtain ⟨stop, m'⟩ := ran
  rcases stop with _ | ⟨_ | _ | _⟩ <;> cases h <;> rfl

/-- The machine of a session goes on: it has run for a while or waits. -/
def GoesOn (j k : Job) : Prop :=
  ∃ m, k = { j with machine := m } ∧
    (j.machine.run turnSteps = (none, m) ∨
      ∃ ms m', j.machine.run turnSteps = (some (.waiting ms), m') ∧ m = m'.wake)

theorem runMachine_of_not_stop (h : j.stop? = none) : j.GoesOn (j.runMachine c).2 := by
  rw [stop?] at h
  rw [runMachine]
  cases hrun : j.machine.run turnSteps with
  | mk stop m =>
    rw [hrun] at h
    rcases stop with _ | ⟨_ | _ | ms⟩
    · exact ⟨m, rfl, .inl hrun⟩
    · cases h
    · cases h
    · exact ⟨m.wake, rfl, .inr ⟨ms, m, hrun, rfl⟩⟩

theorem inBody_of_bodyEnd (h : j.bodyEnd? = some (x, m)) : j.InBody := by
  rw [bodyEnd?] at h
  split at h
  · exact .inl ‹_›
  · exact .inr ‹_›
  · cases h

theorem InBody.hasRun (h : j.InBody) : j.phase.hasRun = true := by
  rcases h with h | h <;> rw [h] <;> rfl

/-- **The end of the body.**  See `AfterBody`. -/
theorem step_bodyEnd (h : j.bodyEnd? = some (x, m)) : AfterBody j e.config x m (j.step e).2 := by
  have hbody := inBody_of_bodyEnd h
  suffices hended : (j.step e).2 = { j with machine := m }.bodyEnded e.config x by
    rw [hended]
    exact j.bodyEnded_after e.config x m
  rw [j.step_of_hasRun e hbody.hasRun]
  rw [bodyEnd?] at h
  rcases hbody with hp | hp
  · rw [hp] at h
    obtain ⟨hstop, hwhole⟩ := Option.filter_eq_some_iff.1 h
    rw [runMachine_of_stop hstop]
    simp only [ended, hp]
    cases x with
    | returned =>
      have hmain : j.space.entryPoint m "main" = none := by simpa [Ending.hasReturned] using hwhole
      simp only [chunkEnded, hmain]
    | _ => rfl
  · rw [hp] at h
    rw [runMachine_of_stop h]
    simp only [ended, hp]

/-- Before the body ends, it goes on. -/
theorem step_inBody (hbody : j.InBody) (h : j.bodyEnd? = none) : (j.step e).2.InBody ∧ (j.step e).2.standing = j.standing := by
  rw [j.step_of_hasRun e hbody.hasRun]
  cases hstop : j.stop? with
  | none =>
    obtain ⟨m, hk, -⟩ := runMachine_of_not_stop (c := e.config) hstop
    rw [hk]
    exact ⟨hbody, rfl⟩
  | some stop =>
    obtain ⟨x, m⟩ := stop
    rw [bodyEnd?] at h
    rw [runMachine_of_stop hstop]
    rcases hbody with hp | hp
    · rw [hp, hstop] at h
      simp only [ended, hp]
      cases x with
      | returned =>
        have hnot : j.space.entryPoint m "main" ≠ none := by simpa [Option.filter, Ending.hasReturned] using h
        obtain ⟨f, hmain⟩ := Option.ne_none_iff_exists'.1 hnot
        simp only [chunkEnded, hmain]
        exact ⟨.inr rfl, rfl⟩
      | _ => cases h
    · rw [hp, hstop] at h
      cases h

/-! ### The end of the exit routine -/

/-- What a turn of the exit routine leads to: it goes on, or it ends and the session with it. -/
inductive AfterExit (j : Job) (c : Config) (o : Outcome) : Job → Prop
  | goesOn {k : Job} (stop : j.stop? = none) (goesOn : j.GoesOn k) : AfterExit j c o k
  | closing {k : Job} (x : Ending) (m : Machine Access) (stop : j.stop? = some (x, m)) (o' : Outcome)
      (phase : k.phase = .closing o') (completed : o'.isCompleted = (o.isCompleted && x.hasReturned)) : AfterExit j c o k
  | aborted (m : Machine Access) (message : String) (stop : j.stop? = some (.panicked message, m)) :
      AfterExit j c o ({ j with machine := m }.abort c message)

/-- **The exit routine.**  See `AfterExit`. -/
theorem step_exit {o : Outcome} (hp : j.phase = .exit o) : AfterExit j e.config o (j.step e).2 := by
  rw [j.step_of_hasRun e (by rw [hp]; rfl)]
  cases hstop : j.stop? with
  | none => exact .goesOn hstop (runMachine_of_not_stop hstop)
  | some stop =>
    obtain ⟨x, m⟩ := stop
    rw [runMachine_of_stop hstop]
    simp only [ended, hp]
    cases x with
    | returned => exact .closing _ m hstop o rfl (by simp [Ending.hasReturned])
    | signal => exact .closing _ m hstop _ rfl (by cases o <;> rfl)
    | failed f => exact .closing _ m hstop _ rfl (by cases o <;> rfl)
    | panicked message => exact hp ▸ .aborted m message hstop

/-- After a failure that no session survives there is nothing more to do. -/
theorem abort_over (j : Job) (c : Config) (message : String) :
    (j.abort c message).phase.isLive = false ∧ (j.abort c message).panic ≠ none := by
  rw [abort_eq]
  split <;> exact ⟨rfl, Option.some_ne_none _⟩

end Job

/-! ### The moves of a course -/

/-- The moves between some moments, each with the moment before it and the moment after it, the last one first. -/
def moves : List Job → List (Job × Job)
  | k :: j :: rest => (j, k) :: moves (j :: rest)
  | _ => []

/-- The session made a step from this moment. -/
def Passed (e : Engine) (moments : List Job) (j : Job) : Prop := (j, (j.step e).2) ∈ moves moments

theorem passed_cons {e : Engine} {i j k : Job} {past : List Job} :
    Passed e (k :: j :: past) i ↔ (i = j ∧ k = (j.step e).2) ∨ Passed e (j :: past) i := by
  rw [Passed, Passed, moves, List.mem_cons, Prod.mk.injEq]
  refine or_congr_left ⟨fun ⟨hi, hk⟩ => ⟨hi, hi ▸ hk.symm⟩, fun ⟨hi, hk⟩ => ⟨hi, hi ▸ hk.symm⟩⟩

/-- The exit routine begins with this move. -/
def beginsExit (move : Job × Job) : Bool := move.2.phase.isExit && !move.1.phase.isExit

/-! ### When the exit routine runs -/

/-- What a move has to do with the exit routine. -/
structure ExitRule (e : Engine) (j k : Job) : Prop where
  /-- The exit routine begins only when the body has ended. -/
  begins : beginsExit (j, k) = true → j.bodyEnd?.isSome = true ∧ k = (j.step e).2
  /-- The exit routine begins when the body has ended, unless it ended with a failure that no session survives,
  termination was requested, or there is no function `exit`. -/
  called : ∀ x m, j.bodyEnd? = some (x, m) →
    ((j.step e).2.phase.isExit = true ↔
      x.isSurvived = true ∧ m.host.isTerminated = false ∧ (j.space.entryPoint m "exit").isSome = true)
  /-- What is called is the function that the environment shows, without arguments. -/
  function : ∀ x m f, j.bodyEnd? = some (x, m) → (j.step e).2.phase.isExit = true → j.space.entryPoint m "exit" = some f →
    ∃ host, (j.step e).2.machine = { m with host }.start f #[]
  /-- An exit routine that has begun is not called again. -/
  goesOn : j.phase.isExit = true → k.phase.isExit = true →
    j.GoesOn k ∨ ∃ h clock source, k = j.meanwhile h clock source
  /-- All that is written about a body that ended with the signal is one notice. -/
  signal : ∀ m, j.bodyEnd? = some (.signal, m) →
    (j.step e).2.access = (m.host.write (Bytes.ofString (Job.programTerminated ++ "\n"))).2
  /-- A body that ended with the signal is not followed by anything if the session was to end. -/
  silent : ∀ m, j.bodyEnd? = some (.signal, m) → m.host.isTerminated = true → (j.step e).2.phase = .closing .interrupted

section
variable {e : Engine} {j k : Job} {x : Ending} {m : Machine Access}

/-- The exit routine has not begun and may yet begin. -/
def Phase.isBeforeExit (p : Phase) : Bool := p.isWork && !p.isExit

theorem isBeforeExit_of_not_isLive (h : k.phase.isLive = false) : k.phase.isBeforeExit = false ∧ k.phase.isExit = false := by
  cases hp : k.phase <;> rw [hp] at h <;> first | exact ⟨rfl, rfl⟩ | cases h

theorem step_isExit_iff (h : j.bodyEnd? = some (x, m)) :
    (j.step e).2.phase.isExit = true ↔
      x.isSurvived = true ∧ m.host.isTerminated = false ∧ (j.space.entryPoint m "exit").isSome = true := by
  have hafter := Job.step_bodyEnd (e := e) h
  generalize (j.step e).2 = k at hafter ⊢
  cases hafter with
  | exit f survived wanted entry called =>
    rw [called, entry]
    exact ⟨fun _ => ⟨survived, wanted, rfl⟩, fun _ => rfl⟩
  | closing survived unwanted phase access =>
    rw [phase]
    refine ⟨nofun, fun ⟨_, hwanted, hentry⟩ => ?_⟩
    rcases unwanted with hterminated | hnone
    · rw [hwanted] at hterminated
      cases hterminated
    · rw [hnone] at hentry
      cases hentry
  | aborted message ending =>
    rw [ending]
    refine ⟨fun hexit => ?_, nofun⟩
    rw [(isBeforeExit_of_not_isLive ({ j with machine := m }.abort_over e.config message).1).2] at hexit
    cases hexit

/-- A step by which the exit routine begins is one by which the body ends. -/
theorem bodyEnd_of_step_isExit (hj : j.phase.isExit = false) (h : (j.step e).2.phase.isExit = true) :
    j.InBody ∧ j.bodyEnd?.isSome = true := by
  have inBody : j.InBody → j.InBody ∧ j.bodyEnd?.isSome = true := by
    intro hbody
    refine ⟨hbody, Option.isSome_iff_ne_none.2 fun hnone => ?_⟩
    rcases (Job.step_inBody (e := e) hbody hnone).1 with hp | hp <;> rw [hp] at h <;> cases h
  cases hp : j.phase with
  | preparing =>
    have ⟨_, _, hnext⟩ := j.step_preparing e hp
    rcases hnext with ⟨⟨read, hk⟩, _⟩ | ⟨⟨report, _, hk⟩, _⟩ <;> rw [hk] at h <;> cases h
  | reading read =>
    cases j.step_reading e hp with
    | more _ more hk => rw [hk] at h; cases h
    | outcome _ o _ hk => rw [hk] at h; cases h
    | running _ hk => rw [hk] at h; cases h
  | chunk => exact inBody (.inl hp)
  | main => exact inBody (.inr hp)
  | exit o => rw [hp] at hj; cases hj
  | closing o =>
    rw [j.step_closing e hp, (j.tearDown_settled e.config o).ended] at h
    cases h
  | ended => simp only [Job.step, hp] at h; cases h
  | lost => simp only [Job.step, hp] at h; cases h

/-- An exit routine goes on, or it is over. -/
theorem step_of_isExit (hj : j.phase.isExit = true) :
    j.GoesOn (j.step e).2 ∨ ((j.step e).2.phase.isExit = false ∧ (j.step e).2.phase.isBeforeExit = false) := by
  obtain ⟨o, ho⟩ : ∃ o, j.phase = .exit o := by
    cases hp : j.phase <;> rw [hp] at hj <;> first | exact ⟨_, rfl⟩ | cases hj
  have hexit := j.step_exit (e := e) ho
  generalize (j.step e).2 = k at hexit ⊢
  cases hexit with
  | goesOn _ goesOn => exact .inl goesOn
  | closing x m _ o' phase _ =>
    rw [phase]
    exact .inr ⟨rfl, rfl⟩
  | aborted m message _ =>
    have hover := isBeforeExit_of_not_isLive ({ j with machine := m }.abort_over e.config message).1
    exact .inr ⟨hover.2, hover.1⟩

/-- **Each move keeps the rules of the exit routine.** -/
theorem move_exitRule (h : Move e j k) : ExitRule e j k where
  begins hbegins := by
    obtain ⟨hk, hj⟩ := Bool.and_eq_true_iff.1 hbegins
    rw [Bool.not_eq_true'] at hj
    cases h with
    | step => exact ⟨(bodyEnd_of_step_isExit hj hk).2, rfl⟩
    | noMachine hp f => cases hk
    | meanwhile host clock source => exact absurd (hj.symm.trans hk) Bool.false_ne_true
    | breakdown pool machine message =>
      have hover := isBeforeExit_of_not_isLive ({ j with pool, machine }.abort_over e.config message).1
      exact absurd (hover.2.symm.trans hk) Bool.false_ne_true
  called x m hend := step_isExit_iff hend
  function x m f hend hexit hf := by
    have hafter := Job.step_bodyEnd (e := e) hend
    generalize (j.step e).2 = k at hafter hexit ⊢
    cases hafter with
    | exit f' _ _ entry called =>
      obtain rfl : f' = f := Option.some.inj (entry.symm.trans hf)
      obtain ⟨host, htold, -⟩ := { j with machine := m }.told_eq e.config x
      rw [called, htold]
      exact ⟨host, rfl⟩
    | closing _ _ phase _ =>
      rw [phase] at hexit
      cases hexit
    | aborted message _ =>
      rw [(isBeforeExit_of_not_isLive ({ j with machine := m }.abort_over e.config message).1).2] at hexit
      cases hexit
  goesOn hj hk := by
    cases h with
    | step =>
      rcases step_of_isExit (e := e) hj with hon | ⟨hover, -⟩
      · exact .inl hon
      · exact absurd (hover.symm.trans hk) Bool.false_ne_true
    | noMachine hp f => cases hk
    | meanwhile host clock source => exact .inr ⟨host, clock, source, rfl⟩
    | breakdown pool machine message =>
      have hover := isBeforeExit_of_not_isLive ({ j with pool, machine }.abort_over e.config message).1
      exact absurd (hover.2.symm.trans hk) Bool.false_ne_true
  signal m hend := by
    have hafter := Job.step_bodyEnd (e := e) hend
    generalize (j.step e).2 = k at hafter ⊢
    cases hafter with
    | exit f _ _ _ called =>
      rw [called]
      rfl
    | closing _ _ _ access => exact access rfl
    | aborted message ending => cases ending
  silent m hend hterminated := by
    have hafter := Job.step_bodyEnd (e := e) hend
    generalize (j.step e).2 = k at hafter ⊢
    cases hafter with
    | exit f _ wanted _ _ =>
      rw [hterminated] at wanted
      cases wanted
    | closing _ _ phase _ => exact phase
    | aborted message ending => cases ending

/-- The exit routine cannot begin any more once it has begun or the session has come to an outcome. -/
theorem move_isBeforeExit (h : Move e j k) (hk : k.phase.isBeforeExit = true) (live : j.phase.isLive = true) :
    j.phase.isBeforeExit = true := by
  cases h with
  | step =>
    cases hp : j.phase with
    | exit o =>
      rcases step_of_isExit (e := e) (j := j) (by rw [hp]; rfl) with ⟨m, hm, -⟩ | ⟨-, hover⟩
      · rw [hm] at hk
        exact absurd (hk.symm.trans (by rw [hp]; rfl)) Bool.false_ne_true.symm
      · exact absurd (hover.symm.trans hk) Bool.false_ne_true
    | closing o =>
      rw [j.step_closing e hp, (j.tearDown_settled e.config o).ended] at hk
      cases hk
    | ended => rw [hp] at live; cases live
    | lost => rw [hp] at live; cases live
    | _ => rfl
  | noMachine hp f => cases hk
  | meanwhile host clock source => exact hk
  | breakdown pool machine message =>
    have hover := isBeforeExit_of_not_isLive ({ j with pool, machine }.abort_over e.config message).1
    exact absurd (hover.1.symm.trans hk) Bool.false_ne_true

/-- How often the exit routine began between some moments. -/
def exits (moments : List Job) : Nat := (moves moments).countP beginsExit

theorem exits_cons {past : List Job} : exits (k :: j :: past) = exits (j :: past) + if beginsExit (j, k) then 1 else 0 := by
  rw [exits, moves, List.countP_cons, exits]

/-- While the exit routine may yet begin it has not begun, and it begins once at most. -/
theorem exits_le_one {start : Job} {past : List Job} (h : Course e start past j) :
    (j.phase.isBeforeExit = true → exits (j :: past) = 0) ∧ exits (j :: past) ≤ 1 := by
  induction h with
  | start => exact ⟨fun _ => rfl, Nat.zero_le 1⟩
  | @move past j k course live move ih =>
    rw [exits_cons]
    cases hbegins : beginsExit (j, k) with
    | false => exact ⟨fun hk => ih.1 (move_isBeforeExit move hk live), ih.2⟩
    | true =>
      obtain ⟨hk, hj⟩ := Bool.and_eq_true_iff.1 hbegins
      have hbody : j.InBody := by
        obtain ⟨⟨x, m⟩, hend⟩ := Option.isSome_iff_exists.1 ((move_exitRule move).begins hbegins).1
        exact Job.inBody_of_bodyEnd hend
      have hbefore : j.phase.isBeforeExit = true := by
        rcases hbody with hp | hp <;> rw [hp] <;> rfl
      refine ⟨fun hafter => ?_, Nat.le_of_eq (by rw [ih.1 hbefore]; rfl)⟩
      rw [Phase.isBeforeExit, show k.phase.isExit = true from hk, Bool.not_true, Bool.and_false] at hafter
      cases hafter

theorem rule_of_moves {start : Job} {past : List Job} (h : Course e start past j) :
    ∀ x ∈ moves (j :: past), ExitRule e x.1 x.2 := by
  induction h with
  | start => exact fun x hx => absurd hx List.not_mem_nil
  | move course live move ih =>
    intro x hx
    rcases List.mem_cons.1 hx with rfl | hx
    · exact move_exitRule move
    · exact ih x hx

end

/-- **When the exit routine runs.**  In the course of a session it is called at most once, by a step with which the body
ends; and it is called then unless the body ended with a failure that no session survives, termination was requested, or
the environment shows no function `exit`.  How else the body ended does not matter: not even the termination signal keeps
the exit routine from being called, if nobody requested the termination. -/
theorem exit_rules {e : Engine} {start j : Job} {past : List Job} (h : Course e start past j) :
    exits (j :: past) ≤ 1 ∧ ∀ x ∈ moves (j :: past), ExitRule e x.1 x.2 :=
  ⟨(exits_le_one h).2, rule_of_moves h⟩

/-- A session in whose body the termination signal has been raised, although nobody requested its termination. -/
def signalling (tables : Array Table) : Job :=
  { id := 0, handle := .during .restricted true true, phase := .chunk, space := ⟨0, 1, []⟩
    machine := {
      heap := { tables, failures := #[.fault .signal] }
      host := { host := {}, own := default }, hosts := #[], interrupted := fun _ => false
      stack := #[], callers := [.native Machine.hostCall], control := .raise (.failure 0) } }

/-- An environment with a function `exit`. -/
def exitTable : Table := Library.tableOf [("exit", .native (.builtin .type))]

theorem exit_rules_signalling :
    let j := signalling #[exitTable, {}]
    Course {} j [j] (j.step {}).2 ∧
      exits [(j.step {}).2, j] ≤ 1 ∧ ∀ x ∈ moves [(j.step {}).2, j], ExitRule {} x.1 x.2 := by
  intro j
  have hcourse : Course {} j [j] (j.step {}).2 := Course.start.move rfl .step
  exact ⟨hcourse, exit_rules hcourse⟩

/-- A body that the termination signal ended is followed by the exit routine, if nobody requested the termination. -/
theorem exit_follows_signal :
    let j := signalling #[exitTable, {}]
    Course {} j [j] (j.step {}).2 ∧ (∃ m, j.bodyEnd? = some (.signal, m) ∧ m.host.isTerminated = false) ∧
      (j.step {}).2.phase.isExit = true := by
  intro j
  obtain ⟨m, hend, hheap, hhost⟩ : ∃ m, j.bodyEnd? = some (.signal, m) ∧ m.heap = j.machine.heap ∧ m.host = j.machine.host :=
    ⟨_, rfl, rfl, rfl⟩
  have hentry : j.space.entryPoint m "exit" = some (.native (.builtin .type)) := by
    obtain ⟨-, -, -, hfields⟩ :=
      Table.setStrs_spec [("exit", .native (.builtin .type))] (Table.wellFormed_empty 0 1)
    have hexit : Namespace.field m j.space.env "exit" = .native (.builtin .type) := by
      rw [Namespace.field, hheap]
      exact hfields (by decide) "exit" _ List.mem_cons_self
    rw [Namespace.entryPoint, Namespace.global, hexit]
  have hfree : m.host.isTerminated = false := by rw [hhost]; rfl
  refine ⟨Course.start.move rfl .step, ⟨m, hend, hfree⟩, (step_isExit_iff hend).2 ⟨rfl, hfree, ?_⟩⟩
  rw [hentry]
  rfl

/-! ### Which sessions are completed -/

section
variable {e : Engine} {mode : Mode} {j k : Job} {x : Ending} {m : Machine Access} {past : List Job}

/-- The body returned, and until then termination had not been requested. -/
def ReturnedFreely (e : Engine) (moments : List Job) : Prop :=
  ∃ i m, Passed e moments i ∧ i.bodyEnd? = some (.returned, m) ∧ m.host.isTerminated = false

/-- The body returned, until then termination had not been requested, and the exit routine returned if there was one. -/
def Completes (e : Engine) (moments : List Job) : Prop :=
  ∃ i m, Passed e moments i ∧ i.bodyEnd? = some (.returned, m) ∧ m.host.isTerminated = false ∧
    (i.space.entryPoint m "exit" = none ∨
      ∃ x m', Passed e moments x ∧ x.phase.isExit = true ∧ x.stop? = some (.returned, m'))

/-- What the moves so far tell of the outcome that a session comes to. -/
inductive Reckoned (e : Engine) (mode : Mode) (moments : List Job) (k : Job) : Prop
  | body (inBody : k.InBody) (handle : k.handle = .during mode true true)
      (silent : ∀ i, Passed e moments i → i.InBody ∧ i.bodyEnd? = none)
  | exit (o : Outcome) (phase : k.phase = .exit o) (handle : k.handle = .during mode true true)
      (outcome : o.isCompleted = true ↔ ReturnedFreely e moments)
      (entry : ∀ i x m, Passed e moments i → i.bodyEnd? = some (x, m) → i.space.entryPoint m "exit" ≠ none)
      (silent : ∀ i, Passed e moments i → i.phase.isExit = true → i.stop? = none)
  | closing (o : Outcome) (phase : k.phase = .closing o) (handle : k.handle = .during mode true true)
      (outcome : o.isCompleted = true ↔ Completes e moments)
  | ended (phase : k.phase = .ended) (outcome : k.handle.outcome = some .completed ↔ Completes e moments)
  | panicked (ended : k.phase.isLive = false) (panic : k.panic ≠ none)

theorem reckoned_abort {moments : List Job} (c : Config) (message : String) : Reckoned e mode moments (j.abort c message) :=
  .panicked (j.abort_over c message).1 (j.abort_over c message).2

theorem bodyEnd_of_not_inBody (h : ¬ j.InBody) : j.bodyEnd? = none := by
  rw [Option.eq_none_iff_forall_ne_some]
  intro x hx
  exact h (Job.inBody_of_bodyEnd hx)

/-- A move from a moment at which nothing ends tells nothing of the outcome. -/
theorem completes_cons (hbody : j.bodyEnd? = none) (hexit : j.phase.isExit = true → j.stop? = none) :
    Completes e (k :: j :: past) ↔ Completes e (j :: past) := by
  constructor
  · rintro ⟨i, m, hi, hend, hfree, hrest⟩
    rcases passed_cons.1 hi with ⟨rfl, -⟩ | hi
    · rw [hbody] at hend
      cases hend
    · refine ⟨i, m, hi, hend, hfree, hrest.imp_right fun ⟨x, m', hx, hphase, hstop⟩ => ?_⟩
      rcases passed_cons.1 hx with ⟨rfl, -⟩ | hx
      · rw [hexit hphase] at hstop
        cases hstop
      · exact ⟨x, m', hx, hphase, hstop⟩
  · rintro ⟨i, m, hi, hend, hfree, hrest⟩
    refine ⟨i, m, passed_cons.2 (.inr hi), hend, hfree, hrest.imp_right ?_⟩
    exact fun ⟨x, m', hx, h⟩ => ⟨x, m', passed_cons.2 (.inr hx), h⟩

theorem returnedFreely_cons (hbody : j.bodyEnd? = none) :
    ReturnedFreely e (k :: j :: past) ↔ ReturnedFreely e (j :: past) := by
  constructor
  · rintro ⟨i, m, hi, hend, hfree⟩
    rcases passed_cons.1 hi with ⟨rfl, -⟩ | hi
    · rw [hbody] at hend
      cases hend
    · exact ⟨i, m, hi, hend, hfree⟩
  · rintro ⟨i, m, hi, h⟩
    exact ⟨i, m, passed_cons.2 (.inr hi), h⟩

/-- A session that runs on is told to be running. -/
theorem step_handle (hrun : j.phase.hasRun = true) (hlive : (j.step e).2.phase.isLive = true) :
    (j.step e).2.handle = j.handle := by
  have hled := j.step_running e hrun
  generalize (j.step e).2 = k at hled hlive ⊢
  cases hled with
  | on hs _ => exact congrArg Standing.handle hs
  | outcome hs _ _ => exact congrArg Standing.handle hs
  | @aborted i hs message =>
    rw [(i.abort_over e.config message).1] at hlive
    cases hlive

/-- What the end of the body tells of the outcome. -/
theorem reckoned_bodyEnd (hhandle : j.handle = .during mode true true)
    (hsilent : ∀ i, Passed e (j :: past) i → i.InBody ∧ i.bodyEnd? = none) (hend : j.bodyEnd? = some (x, m)) :
    Reckoned e mode ((j.step e).2 :: j :: past) (j.step e).2 := by
  have hbody := Job.inBody_of_bodyEnd hend
  have hkept := step_handle (e := e) hbody.hasRun
  have hpassed : ∀ i, Passed e ((j.step e).2 :: j :: past) i → i = j ∨ (i.InBody ∧ i.bodyEnd? = none) := by
    intro i hi
    exact (passed_cons.1 hi).imp And.left (hsilent i)
  have hlast : Passed e ((j.step e).2 :: j :: past) j := passed_cons.2 (.inl ⟨rfl, rfl⟩)
  have hafter := Job.step_bodyEnd (e := e) hend
  generalize (j.step e).2 = k at hkept hpassed hlast hafter ⊢
  -- the body has ended at no other moment
  have hall : ∀ i x' m', Passed e (k :: j :: past) i → i.bodyEnd? = some (x', m') → i = j ∧ x' = x ∧ m' = m := by
    intro i x' m' hi hi'
    rcases hpassed i hi with rfl | ⟨-, hnone⟩
    · rw [hend] at hi'
      cases hi'
      exact ⟨rfl, rfl, rfl⟩
    · rw [hnone] at hi'
      cases hi'
  have hnoExit : ∀ i, Passed e (k :: j :: past) i → i.phase.isExit = false := by
    intro i hi
    rcases hpassed i hi with rfl | ⟨hbody', -⟩
    · rcases hbody with hp | hp <;> rw [hp] <;> rfl
    · rcases hbody' with hp | hp <;> rw [hp] <;> rfl
  cases hafter with
  | exit f _ wanted entry called =>
    have hphase : k.phase = .exit ({ j with machine := m }.outcomeOf e.config x) := by rw [called]
    refine .exit _ hphase ((hkept (by rw [hphase]; rfl)).trans hhandle) ?_ ?_ ?_
    · rw [Job.outcomeOf_isCompleted]
      constructor
      · intro hreturned
        cases x with
        | returned => exact ⟨j, m, hlast, hend, wanted⟩
        | _ => cases hreturned
      · rintro ⟨i, m', hi, hi', -⟩
        obtain ⟨-, rfl, -⟩ := hall i _ _ hi hi'
        rfl
    · intro i x' m' hi hi'
      obtain ⟨rfl, rfl, rfl⟩ := hall i _ _ hi hi'
      rw [entry]
      exact Option.some_ne_none f
    · intro i hi hi'
      rw [hnoExit i hi] at hi'
      cases hi'
  | closing _ unwanted phase _ =>
    refine .closing _ phase ((hkept (by rw [phase]; rfl)).trans hhandle) ?_
    rw [Job.closingOutcome_isCompleted, Bool.and_eq_true, Bool.not_eq_true']
    constructor
    · rintro ⟨hreturned, hfree⟩
      cases x with
      | returned =>
        refine ⟨j, m, hlast, hend, hfree, .inl (unwanted.resolve_left ?_)⟩
        rw [hfree]
        exact Bool.false_ne_true
      | _ => cases hreturned
    · rintro ⟨i, m', hi, hi', hfree, -⟩
      obtain ⟨-, rfl, rfl⟩ := hall i _ _ hi hi'
      exact ⟨rfl, hfree⟩
  | aborted message _ => exact reckoned_abort e.config message

/-- When the body has ended, it does not run any more. -/
theorem step_not_inBody (hend : j.bodyEnd? = some (x, m)) : ¬ (j.step e).2.InBody := by
  have hafter := Job.step_bodyEnd (e := e) hend
  generalize (j.step e).2 = k at hafter ⊢
  intro hbody
  have hlive := Phase.isLive_of_isWork (Phase.isWork_of_hasRun hbody.hasRun)
  cases hafter with
  | exit f _ _ _ called => rcases hbody with hp | hp <;> rw [called] at hp <;> cases hp
  | closing _ _ phase _ => rcases hbody with hp | hp <;> rw [phase] at hp <;> cases hp
  | aborted message _ =>
    rw [(Job.abort_over _ e.config message).1] at hlive
    cases hlive

/-- What a move of the body tells of the outcome. -/
theorem reckoned_body (hmove : Move e j k) (hbody : j.InBody) (hhandle : j.handle = .during mode true true)
    (hsilent : ∀ i, Passed e (j :: past) i → i.InBody ∧ i.bodyEnd? = none) : Reckoned e mode (k :: j :: past) k := by
  have hgoesOn : k.InBody → k.handle = j.handle → Reckoned e mode (k :: j :: past) k := by
    intro hk hsame
    refine .body hk (hsame.trans hhandle) fun i hi => ?_
    rcases passed_cons.1 hi with ⟨rfl, hstep⟩ | hi
    · rw [hstep] at hk
      exact ⟨hbody, Option.eq_none_iff_forall_ne_some.2 fun _ hend => step_not_inBody hend hk⟩
    · exact hsilent i hi
  cases hmove with
  | step =>
    cases hend : j.bodyEnd? with
    | none =>
      have ⟨hk, hstanding⟩ := Job.step_inBody (e := e) hbody hend
      exact hgoesOn hk (congrArg Standing.handle hstanding)
    | some ended => exact reckoned_bodyEnd hhandle hsilent hend
  | noMachine hp f => rcases hbody with h | h <;> rw [hp] at h <;> cases h
  | meanwhile host clock source => exact hgoesOn hbody rfl
  | breakdown pool machine message => exact reckoned_abort e.config message

/-- What a move of the exit routine tells of the outcome. -/
theorem reckoned_exit (hmove : Move e j k) {o : Outcome} (hp : j.phase = .exit o) (hhandle : j.handle = .during mode true true)
    (houtcome : o.isCompleted = true ↔ ReturnedFreely e (j :: past))
    (hentry : ∀ i x m, Passed e (j :: past) i → i.bodyEnd? = some (x, m) → i.space.entryPoint m "exit" ≠ none)
    (hsilent : ∀ i, Passed e (j :: past) i → i.phase.isExit = true → i.stop? = none) :
    Reckoned e mode (k :: j :: past) k := by
  have hbody : j.bodyEnd? = none := bodyEnd_of_not_inBody fun h => by rcases h with h | h <;> rw [hp] at h <;> cases h
  have hentry' : ∀ i x m, Passed e (k :: j :: past) i → i.bodyEnd? = some (x, m) → i.space.entryPoint m "exit" ≠ none := by
    intro i x m hi hend
    rcases passed_cons.1 hi with ⟨rfl, -⟩ | hi
    · rw [hbody] at hend
      cases hend
    · exact hentry i x m hi hend
  have hgoesOn : (k = (j.step e).2 → j.stop? = none) → k.phase = j.phase → k.handle = j.handle →
      Reckoned e mode (k :: j :: past) k := by
    intro hstop hphase hsame
    refine .exit o (hphase.trans hp) (hsame.trans hhandle) (houtcome.trans (returnedFreely_cons hbody).symm) hentry' ?_
    intro i hi hexit
    rcases passed_cons.1 hi with ⟨rfl, hstep⟩ | hi
    · exact hstop hstep
    · exact hsilent i hi hexit
  have hexit := j.step_exit (e := e) hp
  cases hmove with
  | step =>
    have hkept := step_handle (e := e) (j := j) (by rw [hp]; rfl)
    generalize hk : (j.step e).2 = k at hexit hgoesOn hentry' hkept ⊢
    cases hexit with
    | goesOn stop goesOn =>
      obtain ⟨m, hm, -⟩ := goesOn
      exact hgoesOn (fun _ => stop) (by rw [hm]) (by rw [hm])
    | closing x m stop o' phase completed =>
      refine .closing o' phase ((hkept (by rw [phase]; rfl)).trans hhandle) ?_
      rw [completed, Bool.and_eq_true, houtcome]
      constructor
      · rintro ⟨⟨i, m', hi, hend, hfree⟩, hreturned⟩
        cases x with
        | returned =>
          refine ⟨i, m', passed_cons.2 (.inr hi), hend, hfree, .inr ⟨j, m, passed_cons.2 (.inl ⟨rfl, hk.symm⟩), ?_, stop⟩⟩
          rw [hp]
          rfl
        | _ => cases hreturned
      · rintro ⟨i, m', hi, hend, hfree, hrest⟩
        obtain ⟨i', m'', hi', hexit', hstop'⟩ := hrest.resolve_left (hentry' i _ m' hi hend)
        refine ⟨(returnedFreely_cons hbody).1 ⟨i, m', hi, hend, hfree⟩, ?_⟩
        rcases passed_cons.1 hi' with ⟨rfl, -⟩ | hi'
        · rw [stop] at hstop'
          cases hstop'
          rfl
        · rw [hsilent i' hi' hexit'] at hstop'
          cases hstop'
    | aborted m message _ => exact reckoned_abort e.config message
  | noMachine hp' f => rw [hp] at hp'; cases hp'
  | meanwhile host clock source =>
    refine hgoesOn (fun hstep => ?_) rfl rfl
    rw [← hstep] at hexit
    generalize hk : j.meanwhile host clock source = k at hexit
    have hphase : k.phase = .exit o := by rw [← hk]; exact hp
    cases hexit with
    | goesOn stop _ => exact stop
    | closing x m _ o' phase _ => rw [phase] at hphase; cases hphase
    | aborted m message _ =>
      have hlive := (Job.abort_over { j with machine := m } e.config message).1
      rw [hphase] at hlive
      cases hlive
  | breakdown pool machine message => exact reckoned_abort e.config message

/-- What a move of a session that has come to an outcome tells of it. -/
theorem reckoned_closing (hmove : Move e j k) {o : Outcome} (hp : j.phase = .closing o)
    (hhandle : j.handle = .during mode true true) (houtcome : o.isCompleted = true ↔ Completes e (j :: past)) :
    Reckoned e mode (k :: j :: past) k := by
  have hsame : Completes e (k :: j :: past) ↔ Completes e (j :: past) := by
    refine completes_cons (bodyEnd_of_not_inBody fun h => ?_) fun h => ?_
    · rcases h with h | h <;> rw [hp] at h <;> cases h
    · rw [hp] at h
      cases h
  cases hmove with
  | step =>
    rw [Job.step_closing j e hp] at hsame ⊢
    by_cases hrecord : (e.config.logging && !j.gaveBackEarly) = true
    · have hfailed : (j.tearDown e.config o).panic ≠ none := by
        rw [Job.tearDown_eq, if_pos hrecord]
        exact Option.some_ne_none _
      exact .panicked (by rw [(Job.tearDown_settled j e.config o).ended]; rfl) hfailed
    · refine .ended (Job.tearDown_settled j e.config o).ended ?_
      rw [hsame, ← houtcome, Job.tearDown_handle _ hhandle (by cases o <;> rfl), Job.recorded, if_neg hrecord]
      cases o <;> simp [Session.Handle.ended, Outcome.isCompleted]
  | noMachine hp' f => rw [hp] at hp'; cases hp'
  | meanwhile host clock source => exact .closing o hp hhandle (houtcome.trans hsame.symm)
  | breakdown pool machine message => exact reckoned_abort e.config message

/-- The moves of a session tell of the outcome that it comes to. -/
theorem course_reckoned {start : Job} (hbody : start.InBody) (hhandle : start.handle = .during mode true true)
    (h : Course e start past k) : Reckoned e mode (k :: past) k := by
  induction h with
  | start => exact .body hbody hhandle fun i hi => absurd hi List.not_mem_nil
  | move course live hmove ih =>
    cases ih with
    | body inBody handle silent => exact reckoned_body hmove inBody handle silent
    | exit o phase handle outcome entry silent => exact reckoned_exit hmove phase handle outcome entry silent
    | closing o phase handle outcome => exact reckoned_closing hmove phase handle outcome
    | ended phase outcome => rw [phase] at live; cases live
    | panicked ended panic => rw [ended] at live; cases live

end

/-- **Which sessions are completed.**  A session whose program runs, and that ends without a failure that it does not
survive, is completed exactly if the body returned, its termination was not requested until then, and the exit routine,
if there is one, returned.  The request is looked for once when the body has ended; one that comes later spoils the outcome
only if the exit routine ends with the signal. -/
theorem outcome_completed_iff {e : Engine} {mode : Mode} {start k : Job} {past : List Job} (hbody : start.InBody)
    (hhandle : start.handle = .during mode true true) (h : Course e start past k) (hended : k.phase = .ended)
    (hsurvived : k.panic = none) : k.handle.outcome = some .completed ↔ Completes e (k :: past) := by
  cases course_reckoned hbody hhandle h with
  | body inBody _ _ => rcases inBody with hp | hp <;> rw [hended] at hp <;> cases hp
  | exit o phase _ _ _ _ => rw [hended] at phase; cases phase
  | closing o phase _ _ => rw [hended] at phase; cases phase
  | ended _ outcome => exact outcome
  | panicked _ panic => exact absurd hsurvived panic

/-- A session whose function `main` has returned, with a function of the host that requests its termination. -/
def stopping (tables : Array Table) : Job :=
  { id := 0, handle := .during .restricted true true, phase := .main, space := ⟨0, 1, []⟩
    machine := {
      heap := { tables }
      host := { host := {}, own := default }
      hosts := #[fun _ => do
        Act.withHost fun a => a.onHost fun h => ((), h.terminate a.id)
        return #[]]
      interrupted := Access.isTerminated, interval := 1, countdown := 1 } }

/-- The same session when it has called the function of the host as its exit routine. -/
def stoppingExit (tables : Array Table) : Job :=
  { stopping tables with machine := (stopping tables).machine.start (.native (.host 0)) #[], phase := .exit .completed }

/-- An environment whose function `exit` is the first function of the host. -/
def hostExitTable : Table := Library.tableOf [("exit", .native (.host 0))]

theorem step_stopping : ((stopping #[hostExitTable, {}]).step {}).2 = stoppingExit #[hostExitTable, {}] := by
  have hexit : Namespace.field (stopping #[hostExitTable, {}]).machine 0 "exit" = .native (.host 0) := by
    obtain ⟨-, -, -, hfields⟩ := Table.setStrs_spec [("exit", .native (.host 0))] (Table.wellFormed_empty 0 1)
    exact hfields (by decide) "exit" _ List.mem_cons_self
  have hstep : ((stopping #[hostExitTable, {}]).step {}).2 = (stopping #[hostExitTable, {}]).bodyOutcome .completed := rfl
  rw [hstep, Job.bodyOutcome, if_neg (by decide), Namespace.entryPoint, Namespace.global,
    show (stopping #[hostExitTable, {}]).space.env = 0 from rfl, hexit]
  rfl

/-- What the session that requests its own termination goes through. -/
theorem stopping_course (tables : Array Table) (h : ((stopping tables).step {}).2 = stoppingExit tables) :
    let l := stoppingExit tables
    let i := (l.step {}).2
    Course {} (stopping tables) [i, l, stopping tables] (i.step {}).2 ∧ (i.step {}).2.phase = .ended ∧
      (i.step {}).2.panic = none ∧ (i.step {}).2.handle.outcome = some .completed := by
  intro l i
  have hclosing : i.phase = .closing .completed := rfl
  have hhandle : i.handle = .during .restricted true true := rfl
  have hmove : Move {} (stopping tables) l := by
    rw [show l = ((stopping tables).step {}).2 from h.symm]
    exact .step
  have hcourse : Course {} (stopping tables) [i, l, stopping tables] (i.step {}).2 :=
    ((Course.start.move rfl hmove).move rfl .step).move rfl .step
  have htold := Job.tearDown_handle (c := {}) hhandle (o := .completed) rfl
  refine ⟨hcourse, ?_, ?_, ?_⟩ <;> rw [Job.step_closing i {} hclosing]
  · exact (Job.tearDown_settled i {} .completed).ended
  · rw [Job.tearDown_eq]
    rfl
  · rw [htold]
    rfl

theorem outcome_completed_iff_stopping :
    ∃ past k, Course {} (stopping #[hostExitTable, {}]) past k ∧ k.phase = .ended ∧ k.panic = none ∧
      (k.handle.outcome = some .completed ↔ Completes {} (k :: past)) := by
  have ⟨hcourse, hended, hsurvived, _⟩ := stopping_course _ step_stopping
  exact ⟨_, _, hcourse, hended, hsurvived, outcome_completed_iff (.inr rfl) rfl hcourse hended hsurvived⟩

/-- A session whose exit routine requests its termination and returns is completed. -/
theorem completed_although_requested :
    ∃ past l k, Course {} (stopping #[hostExitTable, {}]) past k ∧ l ∈ past ∧ l.phase.isExit = true ∧
      (∃ m, l.stop? = some (.returned, m) ∧ m.host.isTerminated = true) ∧ k.phase = .ended ∧ k.panic = none ∧
      k.handle.outcome = some .completed := by
  have ⟨hcourse, hended, hsurvived, houtcome⟩ := stopping_course _ step_stopping
  exact ⟨_, _, _, hcourse, List.mem_cons_of_mem _ List.mem_cons_self, rfl, ⟨_, rfl, rfl⟩, hended, hsurvived, houtcome⟩

end ScriptHost

import Mathlib.Data.List.Chain
import ScriptHost.Session.Handle

/-!
# The history of a session

What a session's handle tells, from the first stage to the last:

* `Session.stages` — the stages behind a session that has or has not begun to compile and to run;
* `Handle.during` — the handle of a session on its way, without an outcome;
* `Handle.ended` — the handle of a session that is over with an outcome;
* **`finish_advance_during`** — a session on its way that finishes with an outcome its stage admits, and is then torn
  down, is over with exactly that outcome;
* **`ended_isChain`** — every stage of a session that is over may follow the one before it.
-/

namespace ScriptHost.Session

/-- The stages behind a session: it was created, and perhaps it has begun to compile and to run. -/
def stages (compiled ran : Bool) : List State :=
  .created :: ((if compiled then [.compiling] else []) ++ if ran then [.running] else [])

/-- The stage that a session is in. -/
def stage (compiled ran : Bool) : State :=
  if ran then .running else if compiled then .compiling else .created

theorem stages_getLast? (compiled ran : Bool) :
    (stages compiled ran).getLast? = some (stage compiled ran) := by
  cases compiled <;> cases ran <;> rfl

/-- Whatever the stage of a session, it may fail. -/
theorem stage_canBecome_failed (compiled ran : Bool) :
    (stage compiled ran).canBecome .failed = true := by
  cases compiled <;> cases ran <;> rfl

/-- Only a session that runs completes. -/
theorem ran_of_canBecome_completed {compiled ran : Bool}
    (h : (stage compiled ran).canBecome .completed = true) : ran = true := by
  cases compiled <;> cases ran <;> first | rfl | exact absurd h (by decide)

theorem running_mem_stages_iff (compiled ran : Bool) : .running ∈ stages compiled ran ↔ ran = true := by
  cases compiled <;> cases ran <;> decide

/-- The stages of a session may follow one another, as long as it runs only what it compiled. -/
theorem stages_isChain {compiled ran : Bool} (h : ran = true → compiled = true) :
    (stages compiled ran).IsChain fun a b => a.canBecome b = true := by
  cases compiled <;> cases ran <;> first | exact absurd (h rfl) (by decide) | decide

namespace Handle

/-- The handle of a session on its way. -/
def during (mode : Mode) (compiled ran : Bool) : Handle :=
  { mode, state := stage compiled ran, history := stages compiled ran }

/-- The handle of a session that is over. -/
def ended (mode : Mode) (compiled ran : Bool) (o : Outcome) : Handle :=
  { mode, state := .tornDown, outcome := some o, history := stages compiled ran ++ [o.state, .tornDown] }

@[simp] theorem during_outcome (mode : Mode) (compiled ran : Bool) :
    (during mode compiled ran).outcome = none := rfl

@[simp] theorem ended_outcome (mode : Mode) (compiled ran : Bool) (o : Outcome) :
    (ended mode compiled ran o).outcome = some o := rfl

/-- Going on to a stage that may follow adds it to the history. -/
theorem advance_of_canBecome {h : Handle} {s : State} (hs : h.state.canBecome s = true) :
    h.advance s = (true, { h with state := s, history := h.history ++ [s] }) := by
  rw [advance, if_pos hs]

theorem advance_compiling_during (mode : Mode) :
    (during mode false false).advance .compiling = (true, during mode true false) := rfl

theorem advance_running_during (mode : Mode) :
    (during mode true false).advance .running = (true, during mode true true) := rfl

/-- An outcome's state may always be followed by the end. -/
theorem state_canBecome_tornDown (o : Outcome) : o.state.canBecome .tornDown = true := by
  cases o <;> rfl

/-- **The end of the way.**  A session on its way that finishes with an outcome that its stage admits is over with
that outcome once it is torn down. -/
theorem finish_advance_during {mode : Mode} {compiled ran : Bool} {o : Outcome}
    (ho : (stage compiled ran).canBecome o.state = true) :
    (((during mode compiled ran).finish o).2.advance .tornDown).2 = ended mode compiled ran o := by
  have hfinish : ((during mode compiled ran).finish o).2
      = { mode, state := o.state, outcome := some o, history := stages compiled ran ++ [o.state] } := by
    rw [finish, if_neg (by simp)]
    exact congrArg Prod.snd (advance_of_canBecome ho)
  rw [hfinish, advance_of_canBecome (state_canBecome_tornDown o)]
  simp [ended]

/-- **Every stage may follow the one before it.** -/
theorem ended_isChain {mode : Mode} {compiled ran : Bool} {o : Outcome} (hran : ran = true → compiled = true)
    (ho : (stage compiled ran).canBecome o.state = true) :
    (ended mode compiled ran o).history.IsChain fun a b => a.canBecome b = true := by
  show (stages compiled ran ++ [o.state, .tornDown]).IsChain _
  rw [List.isChain_append]
  refine ⟨stages_isChain hran, by simp [state_canBecome_tornDown], ?_⟩
  intro a ha b hb
  rw [stages_getLast?, Option.mem_some_iff] at ha
  rw [List.head?_cons, Option.mem_some_iff] at hb
  rw [← ha, ← hb]
  exact ho

end Handle

end ScriptHost.Session

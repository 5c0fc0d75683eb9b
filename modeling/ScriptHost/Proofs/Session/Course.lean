import ScriptHost.Proofs.Session.Closing
import ScriptHost.Proofs.Session.Work
import ScriptHost.World

/-!
# The course of a session

A session starts, makes one move after the other and is over.  Whatever happens on the way, it ends the same way: all
that it held has been given back once, and its history tells how far it came and one outcome.

* `Move` — what may happen to a session: a step of its own, a machine that cannot be made, anything that others do
  meanwhile, and a failure at any point that no session survives;
* `Course` — a session that has come to where it is through moves, with all its moments on the way;
* `lastWork` — how far a session came: its last phase before it closed;
* `Working`, `WellEnded` — what holds of a session at every moment, and once it is over;
* **`course_wellEnded`** — every session that is over ended well;
* **`turn_course`** — the turns of a session are courses.

The invariant `Working` ties what is told of a session to the last phase in which it was at work: the stages of its
history are read off that phase, and the outcome that a closing session waits to record is one that this stage admits.
So no outcome is ever recorded that is not also entered.  `next_move` says what one move makes of it, case by case over
the phases, and `course_next` follows a course from its start.
-/

namespace ScriptHost

open Session (State stages stage)

/-! ### Moves -/

/-- While a session waits for its turn, the others use the host, time passes and more of its program arrives. -/
def Job.meanwhile (j : Job) (h : Host) (clock : Nat) (source : ProgramSource) : Job :=
  let j := j.enter h
  { j with source, machine := { j.machine with heap := { j.machine.heap with clock } } }

/-- What may happen to a session. -/
inductive Move (e : Engine) (j : Job) : Job → Prop
  | step : Move e j (j.step e).2
  /-- The session is to be prepared, but no machine can be made. -/
  | noMachine (h : j.phase = .preparing) (f : SetupError) : Move e j (j.fail e.config (.setup f))
  | meanwhile (h : Host) (clock : Nat) (source : ProgramSource) : Move e j (j.meanwhile h clock source)
  /-- Somewhere within a step, whatever it has done to the pool and the machine so far, there is a failure that no
  session survives. -/
  | breakdown (pool : Pool Access) (machine : Script.Machine Access) (message : String) :
      Move e j ({ j with pool, machine }.abort e.config message)

/-- A session has come from its start to where it is; its moments before are in the list, the last one first. -/
inductive Course (e : Engine) (start : Job) : List Job → Job → Prop
  | start : Course e start [] start
  | move {past : List Job} {j k : Job} (course : Course e start past j) (live : j.phase.isLive = true)
      (move : Move e j k) : Course e start (j :: past) k

/-- How often, between two moments, a pool that was not cleaned up became one that was. -/
def cleanings : List Job → Nat
  | k :: j :: rest => (if k.pool.isCleanedUp && !j.pool.isCleanedUp then 1 else 0) + cleanings (j :: rest)
  | _ => 0

/-- How far a session came: its last phase before it closed. -/
def lastWork : List Job → Phase
  | [] => .preparing
  | j :: rest => if j.phase.isWork then j.phase else lastWork rest

theorem lastWork_of_isWork {j : Job} (h : j.phase.isWork = true) (past : List Job) :
    lastWork (j :: past) = j.phase := by
  rw [lastWork, if_pos h]

theorem lastWork_of_not_isWork {j : Job} (h : j.phase.isWork = false) (past : List Job) :
    lastWork (j :: past) = lastWork past := by
  rw [lastWork, if_neg (by simp [h])]

/-- A session that came to running ran at some moment. -/
theorem exists_hasRun_of_lastWork {past : List Job} (h : (lastWork past).hasRun = true) :
    ∃ k ∈ past, k.phase.hasRun = true := by
  induction past with
  | nil => cases h
  | cons j past ih =>
    cases hwork : j.phase.isWork with
    | true =>
      rw [lastWork_of_isWork hwork] at h
      exact ⟨j, List.mem_cons_self, h⟩
    | false =>
      rw [lastWork_of_not_isWork hwork] at h
      obtain ⟨k, hk, hran⟩ := ih h
      exact ⟨k, List.mem_cons_of_mem j hk, hran⟩

/-! ### The invariant -/

/-- What holds of a session that is not over. -/
structure Working (r : Request) (id : Nat) (past : List Job) (j : Job) : Prop where
  id : j.id = id
  terminal : j.terminal = r.terminal
  handle : j.handle = .during r.mode (lastWork (j :: past)).hasCompiled (lastWork (j :: past)).hasRun
  /-- The outcome that the session has come to may follow. -/
  outcome : ∀ o, j.phase = .closing o →
    (stage (lastWork (j :: past)).hasCompiled (lastWork (j :: past)).hasRun).canBecome o.state = true
  /-- What ran before runs still, or the session is closing. -/
  ran : ∀ k ∈ j :: past, k.phase.hasRun = true → (lastWork (j :: past)).hasRun = true
  /-- A session that is to be prepared has a fresh pool. -/
  fresh : j.phase = .preparing → j.pool.isCleanedUp = false
  cleanings : cleanings (j :: past) = if j.pool.isCleanedUp then 1 else 0

/-- **A session that ended well.**  Its resources were released and its pool was cleaned up, once; it does not hold
its terminal.  Its history goes through the stages that it came to, to the state of its outcome and to the end, each
being allowed after the one before; running is among them exactly if the program ran at some moment, and the outcome
is that of a completed program only then.

What a release takes from the host is told by `Resources.release_eq` and `Resources.freed_tables`; that nothing of the session
is on the host then is `reachable_owned`, and what the session may still leave there after it, `holdsNothing_release_iff`. -/
structure WellEnded (r : Request) (id : Nat) (past : List Job) (j : Job) : Prop where
  released : j.machine.host.own.resources.released = true
  cleanedUp : j.pool.isCleanedUp = true
  cleanedUpOnce : cleanings (j :: past) = 1
  free : ∀ t, r.terminal = some t → j.machine.host.host.isHeldBy t id = false
  outcome : ∃ o, j.handle.outcome = some o ∧
    j.handle.history = stages (lastWork past).hasCompiled (lastWork past).hasRun ++ [o.state, .tornDown] ∧
    (o.isCompleted = true → (lastWork past).hasRun = true)
  chain : j.handle.history.IsChain fun a b => a.canBecome b = true
  running : .running ∈ j.handle.history ↔ ∃ k ∈ past, k.phase.hasRun = true

/-! ### How a session ends -/

/-- A session that is settled and over with an outcome that could follow has ended well. -/
theorem wellEnded_of_settled {r : Request} {id : Nat} {past : List Job} {j k : Job} {o : Outcome}
    (hj : Working r id past j) (hk : k.Settled) (hid : k.id = j.id) (hterminal : k.terminal = j.terminal)
    (hhandle : k.handle = .ended r.mode (lastWork (j :: past)).hasCompiled (lastWork (j :: past)).hasRun o)
    (ho : (stage (lastWork (j :: past)).hasCompiled (lastWork (j :: past)).hasRun).canBecome o.state = true) :
    WellEnded r id (j :: past) k where
  released := hk.released
  cleanedUp := hk.cleanedUp
  cleanedUpOnce := by
    rw [cleanings, hk.cleanedUp, hj.cleanings]
    cases j.pool.isCleanedUp <;> rfl
  free t ht := by
    have hfree := hk.free t (by rw [hterminal, hj.terminal, ht])
    rwa [hid, hj.id] at hfree
  outcome := by
    rw [hhandle]
    refine ⟨o, rfl, rfl, fun hcompleted => ?_⟩
    cases o with
    | completed => exact Session.ran_of_canBecome_completed ho
    | interrupted => cases hcompleted
    | failed report => cases hcompleted
  chain := by
    rw [hhandle]
    exact Session.Handle.ended_isChain (fun h => Phase.hasCompiled_of_hasRun h) ho
  running := by
    have hlast : .running ∈ k.handle.history ↔ (lastWork (j :: past)).hasRun = true := by
      rw [hhandle, ← Session.running_mem_stages_iff (lastWork (j :: past)).hasCompiled]
      show _ ∈ stages _ _ ++ [o.state, .tornDown] ↔ _
      rw [List.mem_append]
      refine or_iff_left fun h => ?_
      cases o <;> simp [Outcome.state] at h
    rw [hlast]
    exact ⟨exists_hasRun_of_lastWork, fun ⟨i, hi, hran⟩ => hj.ran i hi hran⟩

section
variable {e : Engine} {r : Request} {id : Nat} {past : List Job} {j : Job}

/-- What a session is after a move: it goes on, it has ended well, or its end failed, which only a record can do. -/
inductive Next (e : Engine) (r : Request) (id : Nat) (past : List Job) (k : Job) : Prop
  | working (live : k.phase.isLive = true) (working : Working r id past k)
  | ended (phase : k.phase = .ended) (wellEnded : WellEnded r id past k)
  | lost (phase : k.phase = .lost) (logging : e.config.logging = true)

/-- A failure that no session survives ends it well, unless a record fails. -/
theorem next_abort (hj : Working r id past j) {i : Job} (hid : i.id = j.id) (hterminal : i.terminal = j.terminal)
    (hhandle : i.handle = j.handle) (message : String) :
    Next e r id (j :: past) (i.abort e.config message) := by
  rcases i.abort_settled e.config message with hsettled | ⟨hlost, hlogging⟩
  · have ⟨hid', hterminal'⟩ := i.abort_id_terminal e.config message
    refine .ended hsettled.ended (wellEnded_of_settled hj hsettled (hid'.trans hid) (hterminal'.trans hterminal)
      (Job.abort_handle e.config (hhandle.trans hj.handle) hsettled.ended) (Session.stage_canBecome_failed _ _))
  · exact .lost hlost hlogging

/-- A session that came to an outcome ends well. -/
theorem next_tearDown (hj : Working r id past j) {o : Outcome} (hp : j.phase = .closing o) :
    Next e r id (j :: past) (j.tearDown e.config o) := by
  have ⟨hid, hterminal⟩ := j.tearDown_id_terminal e.config o
  have ho := hj.outcome o hp
  exact .ended (j.tearDown_settled e.config o).ended (wellEnded_of_settled hj (j.tearDown_settled e.config o) hid
    hterminal (j.tearDown_handle e.config hj.handle ho) (j.canBecome_recorded e.config ho))

/-! ### A move -/

/-- A pool is cleaned up between two moments if it is and was not; a session that changes its pool has a fresh one. -/
theorem cleanings_cons (hj : Working r id past j) {k : Job}
    (hpool : k.pool = j.pool ∨ j.phase = .preparing) :
    cleanings (k :: j :: past) = if k.pool.isCleanedUp then 1 else 0 := by
  rw [cleanings, hj.cleanings]
  rcases hpool with hsame | hp
  · rw [hsame]
    cases j.pool.isCleanedUp <;> rfl
  · rw [hj.fresh hp]
    cases k.pool.isCleanedUp <;> rfl

/-- What ran before a move ran before. -/
theorem ran_cons (hj : Working r id past j) {k : Job}
    (hkept : (lastWork (j :: past)).hasRun = true → (lastWork (k :: j :: past)).hasRun = true) :
    ∀ i ∈ k :: j :: past, i.phase.hasRun = true → (lastWork (k :: j :: past)).hasRun = true := by
  intro i hi hran
  rcases List.mem_cons.mp hi with rfl | hi
  · rw [lastWork_of_isWork (Phase.isWork_of_hasRun hran)]
    exact hran
  · exact hkept (hj.ran i hi hran)

/-- A session that comes to an outcome is as far as it was. -/
theorem working_closing (hj : Working r id past j) {k : Job} {o : Outcome} (hp : k.phase = .closing o)
    (hid : k.id = j.id) (hterminal : k.terminal = j.terminal) (hhandle : k.handle = j.handle)
    (hpool : k.pool = j.pool ∨ j.phase = .preparing)
    (ho : (stage (lastWork (j :: past)).hasCompiled (lastWork (j :: past)).hasRun).canBecome o.state = true) :
    Working r id (j :: past) k := by
  have hlast : lastWork (k :: j :: past) = lastWork (j :: past) := lastWork_of_not_isWork (by rw [hp]; rfl) _
  refine ⟨hid.trans hj.id, hterminal.trans hj.terminal, ?_, ?_, ran_cons hj fun h => by rwa [hlast], ?_,
    cleanings_cons hj hpool⟩
  · rw [hlast, hhandle, hj.handle]
  · intro p hp'
    rw [hp] at hp'
    cases hp'
    rwa [hlast]
  · intro hp'
    rw [hp] at hp'
    cases hp'

/-- A session that stays at work. -/
theorem working_isWork (hj : Working r id past j) {k : Job} (hwork : k.phase.isWork = true)
    (hid : k.id = j.id) (hterminal : k.terminal = j.terminal)
    (hhandle : k.handle = .during r.mode k.phase.hasCompiled k.phase.hasRun)
    (hpool : k.pool = j.pool ∨ j.phase = .preparing) (hfresh : k.phase ≠ .preparing)
    (hran : (lastWork (j :: past)).hasRun = true → k.phase.hasRun = true) :
    Working r id (j :: past) k := by
  have hlast : lastWork (k :: j :: past) = k.phase := lastWork_of_isWork hwork _
  refine ⟨hid.trans hj.id, hterminal.trans hj.terminal, ?_, ?_, ran_cons hj fun h => ?_, fun hp => absurd hp hfresh,
    cleanings_cons hj hpool⟩
  · rw [hlast]
    exact hhandle
  · intro o hp
    rw [hp] at hwork
    cases hwork
  · rw [hlast]
    exact hran h

/-- What a session is told to be while it is at work. -/
theorem handle_of_isWork (hj : Working r id past j) (hwork : j.phase.isWork = true) :
    j.handle = .during r.mode j.phase.hasCompiled j.phase.hasRun := by
  have h := hj.handle
  rwa [lastWork_of_isWork hwork] at h

theorem next_preparing (hj : Working r id past j) (hp : j.phase = .preparing) :
    Next e r id (j :: past) (j.step e).2 := by
  have hhandle : j.handle = .during r.mode false false := by
    rw [handle_of_isWork hj (by rw [hp]; rfl), hp]
    rfl
  have ⟨hid, hterminal, h⟩ := j.step_preparing e hp
  rcases h with ⟨⟨read, hk⟩, hadvance⟩ | ⟨⟨report, _, hk⟩, hsame⟩
  · refine .working (by rw [hk]; rfl) (working_isWork hj (by rw [hk]; rfl) hid hterminal ?_ (.inr hp) ?_ ?_)
    · rw [hadvance, hhandle, hk, Session.Handle.advance_compiling_during]
      rfl
    · rw [hk]
      intro h
      cases h
    · rw [lastWork_of_isWork (by rw [hp]; rfl), hp]
      intro h
      cases h
  · exact .working (by rw [hk]; rfl)
      (working_closing hj hk hid hterminal hsame (.inr hp) (Session.stage_canBecome_failed _ _))

theorem next_reading (hj : Working r id past j) {read : Bytes} (hp : j.phase = .reading read) :
    Next e r id (j :: past) (j.step e).2 := by
  have hwork : j.phase.isWork = true := by rw [hp]; rfl
  have hhandle : j.handle = .during r.mode true false := by
    rw [handle_of_isWork hj hwork, hp]
    rfl
  have hnever : ∀ {p : Prop}, (lastWork (j :: past)).hasRun = true → p := by
    intro p h
    rw [lastWork_of_isWork hwork, hp] at h
    cases h
  have hread := j.step_reading e hp
  generalize (j.step e).2 = k at hread
  cases hread with
  | more hs more hk =>
    have hhandle' : k.handle = j.handle := congrArg Standing.handle hs
    refine .working (by rw [hk]; rfl) (working_isWork hj (by rw [hk]; rfl) (congrArg Standing.id hs)
      (congrArg Standing.terminal hs) ?_ (.inl (congrArg Standing.pool hs)) ?_ hnever)
    · rw [hhandle', hhandle, hk]
      rfl
    · rw [hk]
      intro h
      cases h
  | outcome hs o ho hk =>
    refine .working (by rw [hk]; rfl) (working_closing hj hk (congrArg Standing.id hs)
      (congrArg Standing.terminal hs) (congrArg Standing.handle hs) (.inl (congrArg Standing.pool hs)) ?_)
    rw [lastWork_of_isWork hwork, hp]
    cases o with
    | completed => cases ho
    | interrupted => rfl
    | failed report => rfl
  | running hs hk =>
    have hhandle' : k.handle = (j.handle.advance .running).2 := congrArg Standing.handle hs
    refine .working (by rw [hk]; rfl) (working_isWork hj (by rw [hk]; rfl) (congrArg Standing.id hs)
      (congrArg Standing.terminal hs) ?_ (.inl (congrArg Standing.pool hs)) ?_ hnever)
    · rw [hhandle', hhandle, hk, Session.Handle.advance_running_during]
      rfl
    · rw [hk]
      intro h
      cases h

theorem next_running (hj : Working r id past j) (hp : j.phase.hasRun = true) :
    Next e r id (j :: past) (j.step e).2 := by
  have hwork := Phase.isWork_of_hasRun hp
  have hcompiled := Phase.hasCompiled_of_hasRun hp
  have hhandle : j.handle = .during r.mode true true := by
    rw [handle_of_isWork hj hwork, hp, hcompiled]
  have hled := j.step_running e hp
  generalize (j.step e).2 = k at hled
  cases hled with
  | on hs hk =>
    have hwork' := Phase.isWork_of_hasRun hk
    refine .working (Phase.isLive_of_isWork hwork') (working_isWork hj hwork' (congrArg Standing.id hs)
      (congrArg Standing.terminal hs) ?_ (.inl (congrArg Standing.pool hs)) ?_ fun _ => hk)
    · rw [show k.handle = j.handle from congrArg Standing.handle hs, hhandle, hk, Phase.hasCompiled_of_hasRun hk]
    · intro h
      rw [h] at hk
      cases hk
  | outcome hs o hk =>
    refine .working (by rw [hk]; rfl) (working_closing hj hk (congrArg Standing.id hs)
      (congrArg Standing.terminal hs) (congrArg Standing.handle hs) (.inl (congrArg Standing.pool hs)) ?_)
    rw [lastWork_of_isWork hwork, hp, hcompiled]
    cases o <;> rfl
  | aborted hs message =>
    exact next_abort hj (congrArg Standing.id hs) (congrArg Standing.terminal hs) (congrArg Standing.handle hs) message

/-- A step of a session that is not over. -/
theorem next_step (hj : Working r id past j) (hlive : j.phase.isLive = true) :
    Next e r id (j :: past) (j.step e).2 := by
  cases hp : j.phase with
  | preparing => exact next_preparing hj hp
  | reading read => exact next_reading hj hp
  | chunk => exact next_running hj (by rw [hp]; rfl)
  | main => exact next_running hj (by rw [hp]; rfl)
  | exit o => exact next_running hj (by rw [hp]; rfl)
  | closing o =>
    rw [j.step_closing e hp]
    exact next_tearDown hj hp
  | ended => rw [hp] at hlive; cases hlive
  | lost => rw [hp] at hlive; cases hlive

/-- What others do meanwhile does not change how far a session is. -/
theorem next_meanwhile (hj : Working r id past j) (hlive : j.phase.isLive = true) (h : Host) (clock : Nat)
    (source : ProgramSource) : Next e r id (j :: past) (j.meanwhile h clock source) := by
  have hphase : (j.meanwhile h clock source).phase = j.phase := rfl
  have hlast : lastWork (j.meanwhile h clock source :: j :: past) = lastWork (j :: past) := by
    cases hwork : j.phase.isWork with
    | true => rw [lastWork_of_isWork hwork, lastWork_of_isWork (hphase ▸ hwork), hphase]
    | false => exact lastWork_of_not_isWork (hphase ▸ hwork) _
  exact .working hlive ⟨hj.id, hj.terminal, hlast ▸ hj.handle, hlast ▸ hj.outcome,
    ran_cons hj fun h => by rwa [hlast], hj.fresh, cleanings_cons hj (.inl rfl)⟩

/-- **One move.**  A session that is not over goes on after any move, or it has ended well, or its end failed. -/
theorem next_move (hj : Working r id past j) (hlive : j.phase.isLive = true) {k : Job} (hk : Move e j k) :
    Next e r id (j :: past) k := by
  cases hk with
  | step => exact next_step hj hlive
  | noMachine hp f =>
    exact .working rfl
      (working_closing hj rfl rfl rfl rfl (.inl rfl) (Session.stage_canBecome_failed _ _))
  | meanwhile h clock source => exact next_meanwhile hj hlive h clock source
  | breakdown pool machine message => exact next_abort hj (i := { j with pool, machine }) rfl rfl rfl message

end

/-! ### The whole course -/

theorem working_start (e : Engine) (r : Request) (id clock : Nat) :
    Working r id [] (r.job e.config id clock) where
  id := rfl
  terminal := rfl
  handle := rfl
  outcome _ h := by cases h
  ran k hk hran := by
    rw [List.mem_singleton] at hk
    rw [hk] at hran
    cases hran
  fresh _ := rfl
  cleanings := rfl

/-- A session that has come to where it is goes on, or has ended well, or its end failed. -/
theorem course_next {e : Engine} {r : Request} {id clock : Nat} {past : List Job} {j : Job}
    (h : Course e (r.job e.config id clock) past j) : Next e r id past j := by
  induction h with
  | start => exact .working rfl (working_start e r id clock)
  | move course live move ih =>
    cases ih with
    | working _ hj => exact next_move hj live move
    | ended phase _ => rw [phase] at live; cases live
    | lost phase _ => rw [phase] at live; cases live

/-- **Every session ends well.**  Whatever is asked of it and whatever happens on its way: once a session is over, all
that it held has been given back once and its history tells how far it came and its one outcome.  It does come to its
end, unless records are written and its end fails over one of them. -/
theorem course_wellEnded {e : Engine} {r : Request} {id clock : Nat} {past : List Job} {j : Job}
    (h : Course e (r.job e.config id clock) past j) :
    (j.phase = .ended → WellEnded r id past j) ∧ (j.phase = .lost → e.config.logging = true) := by
  cases course_next h with
  | working live _ =>
    refine ⟨fun hp => ?_, fun hp => ?_⟩ <;>
    · rw [hp] at live
      cases live
  | ended phase wellEnded =>
    refine ⟨fun _ => wellEnded, fun hp => ?_⟩
    rw [phase] at hp
    cases hp
  | lost phase logging =>
    refine ⟨fun hp => ?_, fun _ => logging⟩
    rw [phase] at hp
    cases hp

/-- An engine that binds the functions of the core twice, so that no session can be prepared. -/
def twiceBound : Engine := { binders := [.ofFunctions Core.functions] }

/-- A session on a terminal. -/
def onTerminal : Request := { source := .text "", terminal := some 0 }

/-- A host with a terminal that the session holds. -/
def terminalHost : Host := { terminals := #[{ active := some 0 }] }

theorem course_wellEnded_twiceBound :
    ∃ past j, Course twiceBound (onTerminal.job twiceBound.config 0 0) past j ∧ j.phase = .ended ∧
      WellEnded onTerminal 0 past j := by
  let j₁ := (onTerminal.job twiceBound.config 0 0).meanwhile terminalHost 0 (.text "")
  let j₂ := (j₁.step twiceBound).2
  have h₁ : Course twiceBound (onTerminal.job twiceBound.config 0 0) _ j₁ := Course.start.move rfl (.meanwhile ..)
  have h₂ : Course twiceBound (onTerminal.job twiceBound.config 0 0) _ j₂ := h₁.move rfl .step
  have hclosing : ∃ o, j₂.phase = .closing o := by
    refine ⟨_, Phase.outcome?_eq_some.mp (Option.some_get ?_).symm⟩
    decide +kernel
  obtain ⟨o, ho⟩ := hclosing
  have h₃ : Course twiceBound (onTerminal.job twiceBound.config 0 0) _ (j₂.step twiceBound).2 :=
    h₂.move (by rw [ho]; rfl) .step
  have hended : (j₂.step twiceBound).2.phase = .ended := by
    rw [j₂.step_closing twiceBound ho]
    exact (j₂.tearDown_settled _ _).ended
  exact ⟨_, _, h₃, hended, (course_wellEnded h₃).1 hended⟩

/-! ### Turns -/

/-- The parts of a turn are moves. -/
theorem parts_course {e : Engine} {start : Job} (n : Nat) {past : List Job} {j : Job}
    (h : Course e start past j) : ∃ past', Course e start past' (Job.parts n e j).2 := by
  induction n generalizing past j with
  | zero => exact ⟨past, h⟩
  | succ n ih =>
    have hstep : j.phase.isLive = true → Course e start (j :: past) (j.step e).2 := fun live => h.move live .step
    rw [Job.parts]
    split
    · exact ⟨past, h⟩
    · exact ⟨past, h⟩
    all_goals
      rename_i hp
      rw [hp] at hstep
      split
      · rename_i k hk
        rw [hk] at hstep
        first
          | exact ih (hstep rfl)
          | (split
             · exact ih (hstep rfl)
             · exact ih (hstep rfl)
             all_goals exact ⟨_, hstep rfl⟩)
      · exact ⟨_, hstep rfl⟩

/-- **The turns of a session are courses.**  What a session is after a turn, and the host it leaves, are those of a
course that goes on from where it was. -/
theorem turn_course {e : Engine} {start : Job} {past : List Job} {j : Job} (h : Course e start past j)
    (live : j.phase.isLive = true) (clock : Nat) (host : Host) :
    ∃ past' k, Course e start past' k ∧ (j.turn e clock host).2 = k.leave := by
  have ⟨past', hparts⟩ := parts_course Job.turnParts (h.move live (.meanwhile host clock j.source))
  exact ⟨past', _, hparts, rfl⟩

end ScriptHost

import ScriptHost.Proofs.Session.History
import ScriptHost.Proofs.Session.Resources
import ScriptHost.Session.Job

/-!
# How a session closes

Everything that ends a session goes through `Job.release`, and what that does is said here once:

* `Job.givenBack` — the session after its pool was cleaned up and its resources were released;
* `Job.gaveBackEarly` — the resources were released before their turn, by an action of the pool or by a function;
* **`release_eq`** — giving back always does the same, and it fails exactly if there is something to record and
  records are written;
* **`tearDown_eq`**, **`abort_eq`** — the two ways to the end, each as one equation;
* `Job.Settled` — a session that is over and holds nothing any more;
* **`tearDown_settled`**, **`abort_settled`** — both ways lead there;
* **`tearDown_handle`**, **`abort_handle`** — the history and the outcome that they leave behind.

If giving back fails, the session is aborted and everything is given back again.  By then there is nothing left to record
(`gaveBackEarly_givenBack`), so the second time cannot fail, and the two times together give back what one would
(`givenBack_givenBack`).
-/

namespace ScriptHost

/-! ### The parts -/

namespace Pool

variable {σ : Type} (p : Pool σ) (s : σ)

theorem cleanup_isCleanedUp : (p.cleanup s).2.1.isCleanedUp = true := by
  rw [cleanup]
  split
  · assumption
  · rfl

/-- The actions of a pool run once. -/
theorem cleanup_of_isCleanedUp {p : Pool σ} (h : p.isCleanedUp = true) (s : σ) :
    p.cleanup s = (false, p, s) := by
  rw [cleanup, if_pos h]

end Pool

namespace Holding

variable (g : Holding) (logging : Bool)

/-- What is given back does not depend on whether it is recorded. -/
theorem releaseRecorded_pool_access :
    (g.releaseRecorded logging).2.pool = (g.pool.cleanup g.access).2.1 ∧
      (g.releaseRecorded logging).2.access
        = ((g.pool.cleanup g.access).2.2.onResources fun r h => r.release h).2 := by
  simp only [releaseRecorded, Use.beginChange]
  split
  · exact ⟨rfl, rfl⟩
  · split <;> exact ⟨rfl, rfl⟩

/-- **When giving back fails.**  The record is written while the resources are still being changed, and reading them
then is refused.  So it fails if a record is due: if records are written and there was something to give back. -/
theorem releaseRecorded_fst :
    (g.releaseRecorded logging).1
      = if logging && !(g.pool.cleanup g.access).2.2.own.resources.released then some Use.readRefused else none := by
  have hgiven := (g.pool.cleanup g.access).2.2.own.resources.release_fst_isNone (g.pool.cleanup g.access).2.2.host
  simp only [releaseRecorded, Use.beginChange, Access.onResources, record]
  cases hr : ((g.pool.cleanup g.access).2.2.own.resources.release (g.pool.cleanup g.access).2.2.host).1 with
  | none =>
    rw [hr, Option.isNone_none] at hgiven
    simp [← hgiven]
  | some summary =>
    rw [hr, Option.isNone_some] at hgiven
    cases logging <;> simp [← hgiven, Use.beginRead]

end Holding

/-! ### Giving everything back -/

namespace Job

variable (j : Job) (c : Config)

/-- The session after its pool was cleaned up and its resources were released. -/
def givenBack : Job :=
  let a := (j.pool.cleanup j.machine.host).2.2
  { j with pool := (j.pool.cleanup j.machine.host).2.1
           machine := { j.machine with host := (a.onResources fun r h => r.release h).2 } }

/-- When the pool's actions have run, the resources are released already. -/
def gaveBackEarly : Bool := (j.pool.cleanup j.machine.host).2.2.own.resources.released

theorem givenBack_pool_isCleanedUp : j.givenBack.pool.isCleanedUp = true :=
  j.pool.cleanup_isCleanedUp j.machine.host

theorem givenBack_released : j.givenBack.machine.host.own.resources.released = true :=
  Resources.release_released _ _

theorem gaveBackEarly_givenBack : j.givenBack.gaveBackEarly = true := by
  rw [gaveBackEarly, Pool.cleanup_of_isCleanedUp j.givenBack_pool_isCleanedUp]
  exact j.givenBack_released

/-- Giving everything back twice is as good as doing it once. -/
theorem givenBack_givenBack : j.givenBack.givenBack = j.givenBack := by
  have hrelease : (j.givenBack.machine.host.onResources fun r h => r.release h).2 = j.givenBack.machine.host := by
    rw [Access.onResources, Resources.release_of_released j.givenBack_released]
  rw [givenBack.eq_1 j.givenBack, Pool.cleanup_of_isCleanedUp j.givenBack_pool_isCleanedUp]
  simp only [hrelease]

/-- **Giving everything back.**  What is given back is always the same; the answer is a failure if records are
written and there was something to give back. -/
theorem release_eq :
    j.release c = (if c.logging && !j.gaveBackEarly then some Use.readRefused else none, j.givenBack) := by
  have hfst := Holding.releaseRecorded_fst { pool := j.pool, access := j.machine.host } c.logging
  have ⟨hpool, haccess⟩ := Holding.releaseRecorded_pool_access { pool := j.pool, access := j.machine.host } c.logging
  simp only [release, hfst, hpool, haccess]
  rfl

/-! ### The end -/

/-- A session that is over and holds nothing any more. -/
structure Settled (j : Job) : Prop where
  ended : j.phase = .ended
  cleanedUp : j.pool.isCleanedUp = true
  released : j.machine.host.own.resources.released = true
  free : ∀ t, j.terminal = some t → j.machine.host.host.isHeldBy t j.id = false

/-- A session that has given everything back and closes is settled: it gives its terminal back too. -/
theorem close_settled {j : Job} (hpool : j.pool.isCleanedUp = true)
    (hreleased : j.machine.host.own.resources.released = true) : j.close.Settled := by
  refine ⟨rfl, hpool, ?_, ?_⟩
  · simp only [close, onAccess]
    cases j.terminal <;> exact hreleased
  · intro t ht
    have hterminal : j.terminal = some t := ht
    simp only [close, onAccess, hterminal]
    exact Host.isHeldBy_release _ t j.id

/-- A failure that no session survives: everything is given back and the session is over, unless a record fails. -/
theorem abort_eq (message : String) :
    j.abort c message
      = if c.logging && !j.gaveBackEarly then { j.givenBack with panic := some message, phase := .lost }
        else { j.givenBack with panic := some message }.close := by
  rw [abort, release_eq]
  by_cases h : (c.logging && !j.gaveBackEarly) = true
  · rw [if_pos h, if_pos h]
  · rw [if_neg h, if_neg h]

/-- The session's end: its outcome is recorded, unless a record fails; then that failure ends the session, and as
everything has been given back by then, there is nothing more that could fail. -/
theorem tearDown_eq (o : Outcome) :
    j.tearDown c o
      = if c.logging && !j.gaveBackEarly then { j.givenBack with panic := some Use.readRefused }.close
        else { j.givenBack with handle := (j.handle.finish o).2 }.close := by
  rw [tearDown, release_eq]
  by_cases h : (c.logging && !j.gaveBackEarly) = true
  · rw [if_pos h, if_pos h]
    show j.givenBack.abort c Use.readRefused = _
    rw [abort_eq, gaveBackEarly_givenBack, givenBack_givenBack, if_neg (by simp)]
  · rw [if_neg h, if_neg h]
    rfl

theorem tearDown_settled (o : Outcome) : (j.tearDown c o).Settled := by
  rw [tearDown_eq]
  split <;> exact close_settled j.givenBack_pool_isCleanedUp j.givenBack_released

/-- After a failure that no session survives either the session is settled or a record failed as well. -/
theorem abort_settled (message : String) :
    (j.abort c message).Settled ∨ (j.abort c message).phase = .lost ∧ c.logging = true := by
  rw [abort_eq]
  by_cases h : (c.logging && !j.gaveBackEarly) = true
  · rw [if_pos h]
    exact .inr ⟨rfl, (Bool.and_eq_true_iff.mp h).1⟩
  · rw [if_neg h]
    exact .inl (close_settled j.givenBack_pool_isCleanedUp j.givenBack_released)

/-- A session keeps its number and its terminal when it closes. -/
theorem tearDown_id_terminal (o : Outcome) :
    (j.tearDown c o).id = j.id ∧ (j.tearDown c o).terminal = j.terminal := by
  rw [tearDown_eq]
  split <;> exact ⟨rfl, rfl⟩

theorem abort_id_terminal (message : String) :
    (j.abort c message).id = j.id ∧ (j.abort c message).terminal = j.terminal := by
  rw [abort_eq]
  split <;> exact ⟨rfl, rfl⟩

/-! ### What is told of the end -/

open Session (stage)

/-- The outcome that is recorded of a session which came to an outcome. -/
def recorded (o : Outcome) : Outcome := if c.logging && !j.gaveBackEarly then Outcome.aborted else o

variable {j} {mode : Mode} {compiled ran : Bool}

/-- A session on its way that closes was aborted. -/
theorem close_handle_during (hh : j.handle = .during mode compiled ran) :
    j.close.handle = .ended mode compiled ran Outcome.aborted := by
  show ((if j.handle.outcome.isNone then (j.handle.finish Outcome.aborted).2 else j.handle).advance .tornDown).2 = _
  rw [hh, if_pos (by rfl)]
  exact Session.Handle.finish_advance_during (Session.stage_canBecome_failed compiled ran)

/-- What is told of a session that was torn down: it went from its stage to the outcome that was recorded, and from
there to its end. -/
theorem tearDown_handle {o : Outcome} (hh : j.handle = .during mode compiled ran)
    (ho : (stage compiled ran).canBecome o.state = true) :
    (j.tearDown c o).handle = .ended mode compiled ran (j.recorded c o) := by
  rw [tearDown_eq, recorded]
  by_cases h : (c.logging && !j.gaveBackEarly) = true
  · rw [if_pos h, if_pos h]
    exact close_handle_during hh
  · rw [if_neg h, if_neg h, ← Session.Handle.finish_advance_during ho, ← hh]
    have houtcome : (j.handle.finish o).2.outcome = some o := by
      rw [hh, Session.Handle.finish, if_neg (by simp), Session.Handle.advance]
      split <;> rfl
    show ((if (j.handle.finish o).2.outcome.isNone then _ else _ : Session.Handle).advance .tornDown).2 = _
    rw [houtcome]
    rfl

theorem abort_handle {message : String} (hh : j.handle = .during mode compiled ran)
    (hend : (j.abort c message).phase = .ended) :
    (j.abort c message).handle = .ended mode compiled ran Outcome.aborted := by
  rw [abort_eq] at hend ⊢
  by_cases h : (c.logging && !j.gaveBackEarly) = true
  · rw [if_pos h] at hend
    cases hend
  · rw [if_neg h]
    exact close_handle_during hh

/-- The state of the outcome that is recorded may follow whatever stage the session is in. -/
theorem canBecome_recorded {o : Outcome} (ho : (stage compiled ran).canBecome o.state = true) :
    (stage compiled ran).canBecome (j.recorded c o).state = true := by
  rw [recorded]
  split
  · exact Session.stage_canBecome_failed compiled ran
  · exact ho

end Job

end ScriptHost

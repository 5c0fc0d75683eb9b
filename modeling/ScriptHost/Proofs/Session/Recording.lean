import Mathlib.Data.List.Perm.Subperm
import ScriptHost.Proofs.Session.History

/-!
# Whatever a handle is told

A session's handle may be told of stages and of outcomes in any order and as often as one likes.  A stage that may not
follow is ignored, so the history climbs:

* `State.rank` — how far a session has come; **`rank_lt_of_canBecome`** — every stage is further than the one before;
* `Handle.Call`, `Handle.told` — what a handle is told, and the handle of a new session after some calls;
* `Handle.Kept` — the history begins with the creation, ends with the present stage, and every stage may follow the one
  before it; **`Kept.run`**, **`Kept.after`** — so it stays, whatever the handle is told;
* `Handle.Orderly` — what follows from that: no stage comes twice, one outcome at most, nothing after the end;
* **`orderly_told`** — the history and the outcome of every handle.

An outcome is recorded before its stage is looked at.  `Handle.AllOrNothing` says that a call to finish does all it
should or changes nothing, and **`finish_allOrNothing_iff`** says when that is so.
-/

namespace ScriptHost.Session

namespace State

/-- How far a session has come; all outcomes are equally far. -/
def rank : State → Nat
  | .created => 0
  | .compiling => 1
  | .running => 2
  | .completed | .interrupted | .failed => 3
  | .tornDown => 4

theorem rank_le (s : State) : s.rank ≤ 4 := by
  cases s <;> decide

theorem rank_of_isOutcome {s : State} (h : s.isOutcome = true) : s.rank = 3 := by
  cases s <;> first | rfl | exact absurd h (by decide)

/-- **Every stage is further** than the one that it follows. -/
theorem rank_lt_of_canBecome {s t : State} (h : s.canBecome t = true) : s.rank < t.rank := by
  cases s <;> cases t <;> first | decide | exact absurd h (by decide)

/-- Every stage but the last may be followed by the last. -/
theorem canBecome_tornDown_iff (s : State) : s.canBecome .tornDown = true ↔ s ≠ .tornDown := by
  cases s <;> decide

end State

/-! ### Histories that climb -/

/-- Every stage of a history is further than all before it. -/
def Climbs (history : List State) : Prop := history.Pairwise fun s t => s.rank < t.rank

theorem climbs_of_isChain {history : List State} (h : history.IsChain fun s t => s.canBecome t = true) :
    Climbs history := by
  have hranks : history.IsChain fun s t => s.rank < t.rank := h.imp fun _ _ => State.rank_lt_of_canBecome
  have htrans : IsTrans State fun s t => s.rank < t.rank := ⟨fun _ _ _ => Nat.lt_trans⟩
  exact hranks.pairwise

namespace Climbs

variable {history : List State} (h : Climbs history)
include h

/-- No stage comes twice. -/
theorem nodup : history.Nodup := h.imp fun hlt heq => Nat.ne_of_lt hlt (congrArg State.rank heq)

/-- There are five ranks, so there are no more than five stages. -/
theorem length_le : history.length ≤ 5 := by
  have hranks : (history.map State.rank).Nodup := (List.pairwise_map.mpr h).imp Nat.ne_of_lt
  have hfive : history.map State.rank ⊆ List.range 5 := by
    intro r hr
    obtain ⟨s, -, rfl⟩ := List.mem_map.mp hr
    exact List.mem_range.mpr (Nat.lt_succ_of_le s.rank_le)
  have hlength := (List.subperm_of_subset hranks hfive).length_le
  rwa [List.length_map, List.length_range] at hlength

/-- There is no more than one outcome, as all outcomes have the same rank. -/
theorem countP_isOutcome_le : history.countP State.isOutcome ≤ 1 := by
  have hclimbs : Climbs (history.filter State.isOutcome) := List.Pairwise.filter _ h
  have hall : ∀ s, s ∈ history.filter State.isOutcome → s.rank = 3 :=
    fun s hs => State.rank_of_isOutcome (List.mem_filter.mp hs).2
  rw [List.countP_eq_length_filter]
  match history.filter State.isOutcome, hclimbs, hall with
  | [], _, _ => exact Nat.zero_le 1
  | [_], _, _ => exact Nat.le_refl 1
  | s :: t :: _, hclimbs, hall =>
    have hlt := List.rel_of_pairwise_cons hclimbs (List.mem_cons_self (a := t))
    rw [hall s List.mem_cons_self, hall t (List.mem_cons_of_mem s List.mem_cons_self)] at hlt
    exact absurd hlt (Nat.lt_irrefl 3)

/-- Nothing is further than the end. -/
theorem nothing_follows {before later : List State} (hend : history = before ++ .tornDown :: later) : later = [] := by
  rw [Climbs, hend, List.pairwise_append] at h
  refine List.eq_nil_iff_forall_not_mem.mpr fun s hs => ?_
  have hfurther : State.rank .tornDown < s.rank := List.rel_of_pairwise_cons h.2.1 hs
  exact absurd hfurther (Nat.not_lt.mpr s.rank_le)

end Climbs

namespace Handle

/-! ### What a handle is told -/

/-- A handle is told that its session goes on to a stage, or that it ended with an outcome. -/
inductive Call where
  | advance (s : State)
  | finish (o : Outcome)

/-- The handle is told something; the answer says whether it took note of it. -/
def Call.run : Call → Handle → Bool × Handle
  | .advance s, h => h.advance s
  | .finish o, h => h.finish o

/-- A handle after it was told some things. -/
def after (h : Handle) (calls : List Call) : Handle := calls.foldl (fun h c => (c.run h).2) h

theorem after_append (h : Handle) (calls later : List Call) : h.after (calls ++ later) = (h.after calls).after later :=
  List.foldl_append

/-- A stage that may not follow is ignored. -/
theorem advance_of_not_canBecome {h : Handle} {s : State} (hs : ¬ h.state.canBecome s = true) :
    h.advance s = (false, h) := by
  rw [advance, if_neg hs]

theorem advance_fst_iff (h : Handle) (s : State) : (h.advance s).1 = true ↔ h.state.canBecome s = true := by
  by_cases hs : h.state.canBecome s = true
  · rw [advance_of_canBecome hs]
    exact iff_of_true rfl hs
  · rw [advance_of_not_canBecome hs]
    exact iff_of_false Bool.false_ne_true hs

theorem advance_outcome (h : Handle) (s : State) : (h.advance s).2.outcome = h.outcome := by
  rw [advance]
  split <;> rfl

/-- With an outcome there is nothing more to record. -/
theorem finish_of_isSome {h : Handle} (ho : h.outcome.isSome = true) (o : Outcome) : h.finish o = (false, h) := by
  rw [finish, if_pos ho]

/-- The first outcome is recorded, and then its stage is looked at. -/
theorem finish_of_isNone {h : Handle} (ho : h.outcome = none) (o : Outcome) :
    h.finish o = { h with outcome := some o }.advance o.state := by
  rw [finish, ho]
  rfl

/-- The history begins with the creation, ends with the present stage, and every stage may follow the one before it. -/
structure Kept (h : Handle) : Prop where
  begins : h.history.head? = some .created
  ends : h.history.getLast? = some h.state
  follows : h.history.IsChain fun s t => s.canBecome t = true

theorem Kept.advance {h : Handle} (hh : h.Kept) (s : State) : (h.advance s).2.Kept := by
  by_cases hs : h.state.canBecome s = true
  · rw [advance_of_canBecome hs]
    refine ⟨?_, List.getLast?_concat, ?_⟩
    · rw [List.head?_append, hh.begins]
      rfl
    · rw [List.isChain_append]
      refine ⟨hh.follows, .singleton s, fun t ht u hu => ?_⟩
      rw [hh.ends, Option.mem_some_iff] at ht
      rw [List.head?_cons, Option.mem_some_iff] at hu
      rw [← ht, ← hu]
      exact hs
  · rw [advance_of_not_canBecome hs]
    exact hh

/-- Recording an outcome does not touch the history. -/
theorem Kept.recorded {h : Handle} (hh : h.Kept) (o : Option Outcome) : ({ h with outcome := o } : Handle).Kept :=
  ⟨hh.begins, hh.ends, hh.follows⟩

theorem Kept.run {h : Handle} (hh : h.Kept) (c : Call) : (c.run h).2.Kept := by
  cases c with
  | advance s => exact hh.advance s
  | finish o =>
    by_cases ho : h.outcome.isSome = true
    · rw [Call.run, finish_of_isSome ho]
      exact hh
    · rw [Call.run, finish_of_isNone (Option.not_isSome_iff_eq_none.mp ho)]
      exact (hh.recorded (some o)).advance o.state

theorem kept_new (mode : Mode) : ({ mode } : Handle).Kept := ⟨rfl, rfl, .singleton State.created⟩

/-- **The history is kept**, whatever the handle is told. -/
theorem Kept.after {h : Handle} (hh : h.Kept) (calls : List Call) : (h.after calls).Kept := by
  induction calls generalizing h with
  | nil => exact hh
  | cons c calls ih => exact ih (hh.run c)

/-- An outcome that was recorded stays. -/
theorem run_outcome {h : Handle} {o : Outcome} (ho : h.outcome = some o) (c : Call) : (c.run h).2.outcome = some o := by
  cases c with
  | advance s => rw [Call.run, advance_outcome, ho]
  | finish p => rw [Call.run, finish_of_isSome (by rw [ho]; rfl), ho]

theorem after_outcome {h : Handle} {o : Outcome} (ho : h.outcome = some o) (calls : List Call) :
    (h.after calls).outcome = some o := by
  induction calls generalizing h with
  | nil => exact ho
  | cons c calls ih => exact ih (run_outcome ho c)

/-! ### The history of any handle -/

/-- The handle of a new session after it was told some things. -/
def told (mode : Mode) (calls : List Call) : Handle := ({ mode } : Handle).after calls

theorem kept_told (mode : Mode) (calls : List Call) : (told mode calls).Kept := (kept_new mode).after calls

/-- A handle whose history is in order. -/
structure Orderly (h : Handle) : Prop extends h.Kept where
  nodup : h.history.Nodup
  atMostFive : h.history.length ≤ 5
  oneOutcome : h.history.countP State.isOutcome ≤ 1
  endsThere : ∀ before later, h.history = before ++ .tornDown :: later → later = []

theorem Kept.orderly {h : Handle} (hh : h.Kept) : h.Orderly :=
  have hclimbs := climbs_of_isChain hh.follows
  { hh with
    nodup := hclimbs.nodup
    atMostFive := hclimbs.length_le
    oneOutcome := hclimbs.countP_isOutcome_le
    endsThere := fun _ _ hend => hclimbs.nothing_follows hend }

/-- **The history and the outcome of every handle.**  Whatever the handle of a new session is told, its history is in
order; an outcome that it has, it keeps, whatever it is told then; a stage that it refuses changes nothing; and it goes on
to the end from everywhere but the end. -/
theorem orderly_told (mode : Mode) (calls : List Call) :
    (told mode calls).Orderly ∧
      (∀ o later, (told mode calls).outcome = some o → (told mode (calls ++ later)).outcome = some o) ∧
      (∀ s, ((told mode calls).advance s).1 = false → ((told mode calls).advance s).2 = told mode calls) ∧
      (((told mode calls).advance .tornDown).1 = true ↔ (told mode calls).state ≠ .tornDown) := by
  refine ⟨(kept_told mode calls).orderly, ?_, ?_, ?_⟩
  · intro o later ho
    rw [told, after_append]
    exact after_outcome ho later
  · intro s hrefused
    have hs : ¬ (told mode calls).state.canBecome s = true := by
      rw [← advance_fst_iff, hrefused]
      exact Bool.false_ne_true
    rw [advance_of_not_canBecome hs]
  · rw [advance_fst_iff, State.canBecome_tornDown_iff]

/-- A handle takes note of every stage once, and only when its turn has come. -/
example : (told .restricted [.advance .running, .advance .compiling, .advance .compiling, .advance .running,
    .finish .interrupted, .finish .completed, .advance .tornDown, .advance .tornDown]).history
      = [.created, .compiling, .running, .interrupted, .tornDown] := by decide

/-! ### All or nothing -/

/-- A call to finish with an outcome records it and goes on to its stage, or it changes nothing. -/
def AllOrNothing (h : Handle) (o : Outcome) : Prop :=
  if (h.finish o).1 = true then (h.finish o).2.outcome = some o ∧ (h.finish o).2.state = o.state else (h.finish o).2 = h

/-- A handle without an outcome finishes with one that its stage admits. -/
theorem finish_of_canBecome {h : Handle} {o : Outcome} (ho : h.outcome = none) (hs : h.state.canBecome o.state = true) :
    h.finish o = (true, { h with outcome := some o, state := o.state, history := h.history ++ [o.state] }) := by
  rw [finish_of_isNone ho]
  exact advance_of_canBecome (h := { h with outcome := some o }) hs

/-- If the stage does not admit the outcome, the call is refused; but the outcome has been recorded by then. -/
theorem finish_of_not_canBecome {h : Handle} {o : Outcome} (ho : h.outcome = none)
    (hs : ¬ h.state.canBecome o.state = true) : h.finish o = (false, { h with outcome := some o }) := by
  rw [finish_of_isNone ho]
  exact advance_of_not_canBecome (h := { h with outcome := some o }) hs

/-- The three ways in which a call to finish can go: there is an outcome already, the stage admits the new one, or not. -/
theorem finish_cases (h : Handle) (o : Outcome) :
    h.outcome.isSome = true ∧ h.finish o = (false, h) ∨
      h.outcome = none ∧ h.state.canBecome o.state = true ∧
        h.finish o = (true, { h with outcome := some o, state := o.state, history := h.history ++ [o.state] }) ∨
      h.outcome = none ∧ h.state.canBecome o.state = false ∧ h.finish o = (false, { h with outcome := some o }) := by
  cases ho : h.outcome with
  | some p => exact .inl ⟨rfl, finish_of_isSome (by rw [ho]; rfl) o⟩
  | none =>
    cases hs : h.state.canBecome o.state with
    | true => exact .inr (.inl ⟨rfl, rfl, finish_of_canBecome ho hs⟩)
    | false => exact .inr (.inr ⟨rfl, rfl, finish_of_not_canBecome ho (by rw [hs]; exact Bool.false_ne_true)⟩)

/-- Once there is an outcome, every call to finish is refused, whatever the handle is told in between. -/
theorem finish_after_recorded {h : Handle} {o : Outcome} (ho : h.outcome = some o) (later : List Call) (p : Outcome) :
    (h.after later).finish p = (false, h.after later) :=
  finish_of_isSome (by rw [after_outcome ho later]; rfl) p

/-- **When finishing is all or nothing.**  A handle finishes exactly if it has no outcome yet and its stage admits the
new one; outcome, stage and history are those of the end then.  Otherwise stage and history stay as they are.  The call is
all or nothing exactly if there was an outcome before or the stage admits the new one.  If neither is so, the outcome stays
behind although the call was refused, and every later call to finish is refused because of it. -/
theorem finish_allOrNothing_iff (h : Handle) (o : Outcome) :
    (h.AllOrNothing o ↔ h.outcome.isSome = true ∨ h.state.canBecome o.state = true) ∧
      ((h.finish o).1 = true ↔ h.outcome = none ∧ h.state.canBecome o.state = true) ∧
      ((h.finish o).1 = true →
        (h.finish o).2 = { h with outcome := some o, state := o.state, history := h.history ++ [o.state] }) ∧
      ((h.finish o).1 = false → (h.finish o).2.state = h.state ∧ (h.finish o).2.history = h.history) ∧
      (¬ h.AllOrNothing o → (h.finish o).2 = { h with outcome := some o } ∧
        ∀ later p, (((h.finish o).2.after later).finish p).1 = false) := by
  rcases h.finish_cases o with ⟨ho, hfinish⟩ | ⟨ho, hs, hfinish⟩ | ⟨ho, hs, hfinish⟩
  · have hall : h.AllOrNothing o := by
      rw [AllOrNothing, hfinish]
      rfl
    have hnone : ¬ h.outcome = none := fun hnone => by
      rw [hnone] at ho
      cases ho
    rw [hfinish]
    exact ⟨iff_of_true hall (.inl ho), iff_of_false Bool.false_ne_true fun hboth => hnone hboth.1,
      fun htrue => (by cases htrue), fun _ => ⟨rfl, rfl⟩, fun hnot => absurd hall hnot⟩
  · have hall : h.AllOrNothing o := by
      rw [AllOrNothing, hfinish]
      exact ⟨rfl, rfl⟩
    rw [hfinish]
    exact ⟨iff_of_true hall (.inr hs), iff_of_true rfl ⟨ho, hs⟩, fun _ => rfl, fun hfalse => (by cases hfalse),
      fun hnot => absurd hall hnot⟩
  · have hadmits : ¬ h.state.canBecome o.state = true := by
      rw [hs]
      exact Bool.false_ne_true
    have hall : ¬ h.AllOrNothing o := by
      rw [AllOrNothing, hfinish]
      intro hsame
      have houtcome : some o = h.outcome := congrArg Handle.outcome hsame
      rw [ho] at houtcome
      cases houtcome
    have hneither : ¬ (h.outcome.isSome = true ∨ h.state.canBecome o.state = true) := by
      rw [ho]
      exact not_or.mpr ⟨Bool.false_ne_true, hadmits⟩
    rw [hfinish]
    refine ⟨iff_of_false hall hneither, iff_of_false Bool.false_ne_true fun hboth => hadmits hboth.2,
      fun htrue => (by cases htrue), fun _ => ⟨rfl, rfl⟩, fun _ => ⟨rfl, fun later p => ?_⟩⟩
    have hrefused := finish_after_recorded (h := { h with outcome := some o }) rfl later p
    exact congrArg Prod.fst hrefused

/-- A new session cannot have completed.  The call is refused, but the outcome stays, and when the session has run and
completes, that is refused too. -/
theorem completed_before_running :
    ((told .restricted []).finish .completed).1 = false ∧
      (told .restricted []).outcome = none ∧
      ((told .restricted []).finish .completed).2.outcome = some .completed ∧
      ¬ (told .restricted []).AllOrNothing .completed ∧
      ((told .restricted [.finish .completed, .advance .compiling, .advance .running]).state.canBecome .completed) = true ∧
      ((told .restricted [.finish .completed, .advance .compiling, .advance .running]).finish .completed).1 = false := by
  refine ⟨by decide, by decide, by decide, ?_, by decide, by decide⟩
  rw [AllOrNothing]
  decide

end Handle

end ScriptHost.Session

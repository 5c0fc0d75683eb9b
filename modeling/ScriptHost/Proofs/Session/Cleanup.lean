import ScriptHost.Proofs.Session.Closing
import ScriptHost.Proofs.Sharing.Crowd

/-!
# Every action runs once

A holding gives back what its session holds, and before that it runs the actions of the pool.  Both may be asked for in any
order and as often as one likes, and actions may be registered all the time:

* `Holding.Chore`, `Holding.after` — what is asked of a holding, and the holding after some of that;
* `Holding.Doing` — what is done: an action runs, or everything is given back; **`Doing.apply_gaveBack`** — what that frees;
* `Chore.does` — what a chore does after others, told from these alone;
* **`stands_after`** — what a holding has done and what it still has to do, after any chores;
* **`actions_perm`**, **`countP_isGiving`** — every action runs once, and everything is given back once;
* **`tidied_after`** — all of it, up to the end of the holding, which is one more release.
-/

namespace ScriptHost.Holding

variable {ι : Type}

/-! ### Chores -/

/-- What is asked of a holding. -/
inductive Chore (ι : Type) where
  /-- Run an action at the end. -/
  | onCleanup (i : ι)
  /-- Run the actions. -/
  | cleanup
  /-- Run the actions and give everything back. -/
  | release

/-- Run the actions; the answer says whether it was the first time. -/
def cleanUp (g : Holding) : Bool × Holding :=
  let (first, pool, access) := g.pool.cleanup g.access
  (first, { g with pool, access })

namespace Chore

/-- Do a chore. -/
def run (act : ι → Access → Access) : Chore ι → Holding → Holding
  | .onCleanup i, g => g.onCleanup (act i)
  | .cleanup, g => g.cleanUp.2
  | .release, g => g.release

/-- The action that a chore registers. -/
def action? : Chore ι → Option ι
  | .onCleanup i => some i
  | .cleanup | .release => none

/-- A chore that has the actions run. -/
def cleans : Chore ι → Bool
  | .onCleanup _ => false
  | .cleanup | .release => true

/-- A chore that gives everything back. -/
def gives : Chore ι → Bool
  | .onCleanup _ | .cleanup => false
  | .release => true

end Chore

/-- A holding after some chores. -/
def after (act : ι → Access → Access) (g : Holding) (chores : List (Chore ι)) : Holding :=
  chores.foldl (fun g c => c.run act g) g

theorem after_concat (act : ι → Access → Access) (g : Holding) (chores : List (Chore ι)) (c : Chore ι) :
    g.after act (chores ++ [c]) = c.run act (g.after act chores) := List.foldl_concat ..

/-- The actions that some chores register, the oldest first. -/
def registered (chores : List (Chore ι)) : List ι := chores.filterMap Chore.action?

theorem registered_concat (chores : List (Chore ι)) (c : Chore ι) :
    registered (chores ++ [c]) = registered chores ++ c.action?.toList := by
  rw [registered, List.filterMap_append]
  cases c <;> rfl

/-! ### What is done -/

/-- What a holding does. -/
inductive Doing (ι : Type) where
  /-- An action runs. -/
  | ran (i : ι)
  /-- What the session holds is given back; see `Doing.apply_gaveBack`. -/
  | gaveBack

namespace Doing

/-- What comes of it. -/
def apply (act : ι → Access → Access) : Doing ι → Access → Access
  | .ran i, a => act i a
  | .gaveBack, a => (a.onResources fun r h => r.release h).2

/-- The action that runs. -/
def action? : Doing ι → Option ι
  | .ran i => some i
  | .gaveBack => none

def isGiving : Doing ι → Bool
  | .ran _ => false
  | .gaveBack => true

end Doing

/-- **What giving back frees.**  A session that has not given back yet holds no frames, channels and slots afterwards, and those
that it held are gone from the host's tables, each by its own operation. -/
theorem Doing.apply_gaveBack (act : ι → Access → Access) (a : Access) (hr : a.own.resources.released = false) :
    (Doing.gaveBack.apply act a).own.resources
        = { a.own.resources with frames := {}, channels := [], slots := [], released := true } ∧
      (Doing.gaveBack.apply act a).host.renderer
        = a.own.resources.frames.handles.foldl Renderer.release a.host.renderer ∧
      (Doing.gaveBack.apply act a).host.channels
        = a.own.resources.channels.foldl (fun cs name => (cs.unregister name a.own.resources.id).2) a.host.channels ∧
      (Doing.gaveBack.apply act a).host.display
        = a.own.resources.slots.foldl (fun d slot => (d.set slot none).2) a.host.display := by
  have hrelease := a.own.resources.release_eq a.host hr
  have happly : Doing.gaveBack.apply act a = ⟨(a.own.resources.release a.host).2.2,
      { a.own with resources := (a.own.resources.release a.host).2.1 }⟩ := rfl
  rw [happly, hrelease]
  exact ⟨rfl, a.own.resources.freed_tables a.host⟩

/-- What comes of some doings, one after the other. -/
def applyAll (act : ι → Access → Access) (ds : List (Doing ι)) (a : Access) : Access :=
  ds.foldl (fun a d => d.apply act a) a

theorem applyAll_append (act : ι → Access → Access) (ds es : List (Doing ι)) (a : Access) :
    applyAll act (ds ++ es) a = applyAll act es (applyAll act ds a) := List.foldl_append

theorem applyAll_ran (act : ι → Access → Access) (is : List ι) (a : Access) :
    applyAll act (is.map .ran) a = (is.map act).foldl (fun a action => action a) a := by
  rw [applyAll, List.foldl_map, List.foldl_map]
  rfl

/-- The actions that are left to run after some chores: all of them, the newest first, until the first cleanup. -/
def left (chores : List (Chore ι)) : List ι := if chores.any Chore.cleans then [] else (registered chores).reverse

/-- What a chore does after others. -/
def Chore.does (earlier : List (Chore ι)) : Chore ι → List (Doing ι)
  | .onCleanup i => if earlier.any Chore.cleans then [.ran i] else []
  | .cleanup => (left earlier).map .ran
  | .release => (left earlier).map .ran ++ if earlier.any Chore.gives then [] else [.gaveBack]

/-- What some chores do after others. -/
def doingsAfter (earlier : List (Chore ι)) : List (Chore ι) → List (Doing ι)
  | [] => []
  | c :: later => c.does earlier ++ doingsAfter (earlier ++ [c]) later

/-- What some chores do. -/
def doings (chores : List (Chore ι)) : List (Doing ι) := doingsAfter [] chores

theorem doingsAfter_concat (chores : List (Chore ι)) (c : Chore ι) : ∀ earlier : List (Chore ι),
    doingsAfter earlier (chores ++ [c]) = doingsAfter earlier chores ++ c.does (earlier ++ chores) := by
  induction chores with
  | nil =>
    intro earlier
    rw [List.nil_append, List.append_nil]
    exact List.append_nil _
  | cons b chores ih =>
    intro earlier
    rw [List.cons_append, doingsAfter, ih, doingsAfter, List.append_assoc, List.append_assoc]
    rfl

theorem doings_concat (chores : List (Chore ι)) (c : Chore ι) : doings (chores ++ [c]) = doings chores ++ c.does chores :=
  doingsAfter_concat chores c []

theorem any_concat (p : Chore ι → Bool) (chores : List (Chore ι)) (c : Chore ι) :
    (chores ++ [c]).any p = (chores.any p || p c) := by
  rw [List.any_append, List.any_cons, List.any_nil, Bool.or_false]

theorem left_of_cleans {chores : List (Chore ι)} (h : chores.any Chore.cleans = true) : left chores = [] := if_pos h

theorem left_concat_of_cleans {c : Chore ι} (hc : c.cleans = true) (chores : List (Chore ι)) : left (chores ++ [c]) = [] :=
  left_of_cleans (by rw [any_concat, hc, Bool.or_true])

/-- Before the first cleanup an action that is registered is the first one to run. -/
theorem left_concat_of_not_cleans {chores : List (Chore ι)} (h : chores.any Chore.cleans = false) (i : ι) :
    left (chores ++ [.onCleanup i]) = i :: left chores := by
  have hall : ¬ (chores ++ [Chore.onCleanup i]).any Chore.cleans = true := by
    rw [any_concat, h]
    exact Bool.false_ne_true
  rw [left, if_neg hall, left, if_neg (by rw [h]; exact Bool.false_ne_true), registered_concat, List.reverse_append]
  rfl

/-- Giving everything back comes after the actions have run. -/
theorem any_cleans_of_gives {chores : List (Chore ι)} (h : chores.any Chore.gives = true) :
    chores.any Chore.cleans = true := by
  obtain ⟨c, hc, hgives⟩ := List.any_eq_true.mp h
  refine List.any_eq_true.mpr ⟨c, hc, ?_⟩
  cases c <;> first | rfl | cases hgives

/-! ### One chore -/

/-- An action that is registered waits, or it runs at once if the actions have run. -/
theorem onCleanup_eq (g : Holding) (action : Access → Access) :
    g.onCleanup action = if g.pool.isCleanedUp then { g with access := action g.access }
      else { g with pool := { g.pool with cleanups := action :: g.pool.cleanups } } := by
  cases hpool : g.pool.isCleanedUp with
  | true => simp only [onCleanup, Pool.onCleanup, hpool, if_true]
  | false => simp only [onCleanup, Pool.onCleanup, hpool, Bool.false_eq_true, if_false]

/-- Releasing is cleaning up and then giving back. -/
theorem release_pool (g : Holding) : g.release.pool = g.cleanUp.2.pool := (g.releaseRecorded_pool_access false).1

theorem release_access (g : Holding) :
    g.release.access = (g.cleanUp.2.access.onResources fun r h => r.release h).2 := (g.releaseRecorded_pool_access false).2

/-- The summary of a release that had something to give back is kept. -/
theorem release_summary (g : Holding) :
    g.release.summary = (g.cleanUp.2.access.onResources fun r h => r.release h).1.or g.summary := by
  simp only [release, releaseRecorded, Use.beginChange, record, cleanUp]
  cases ((g.pool.cleanup g.access).2.2.onResources fun r h => r.release h).1 <;> rfl

/-- Actions that do not undo a release.  Whatever an action does with what its session holds is a deed, and no deed undoes
a release (`released_deed`). -/
def KeepsReleased (act : ι → Access → Access) : Prop :=
  ∀ i b, b.own.resources.released = true → (act i b).own.resources.released = true

/-- Something is done with what the session holds. -/
def deed (d : Deed) (b : Access) : Access := (b.onResources fun r h => ((), d.run r h)).2

theorem released_deed (d : Deed) {b : Access} (hb : b.own.resources.released = true) :
    (deed d b).own.resources.released = true := by
  by_cases hd : d = .release
  · rw [hd]
    exact Resources.release_released _ _
  · exact ((d.run_id_released _ _).2 hd).trans hb

/-- A holding and what it has to do yet, when some chores have been done with one that was new. -/
structure Stands (act : ι → Access → Access) (a : Access) (chores : List (Chore ι)) (g : Holding) : Prop where
  cleanedUp : g.pool.isCleanedUp = chores.any Chore.cleans
  cleanups : g.pool.cleanups = (left chores).map act
  access : g.access = applyAll act (doings chores) a
  released : chores.any Chore.gives = true → g.access.own.resources.released = true
  summary : chores.any Chore.gives = false → g.summary = none

namespace Stands

variable {act : ι → Access → Access} {a : Access} {chores : List (Chore ι)} {g : Holding} (h : Stands act a chores g)
include h

/-- **Cleaning up** runs what is left, and says whether it was the first time. -/
theorem cleanUp :
    g.cleanUp.1 = !chores.any Chore.cleans ∧ g.cleanUp.2.pool.isCleanedUp = true ∧ g.cleanUp.2.pool.cleanups = [] ∧
      g.cleanUp.2.access = applyAll act ((left chores).map .ran) g.access ∧ g.cleanUp.2.summary = g.summary := by
  have hpool := h.cleanedUp
  have hleft := h.cleanups
  rw [Holding.cleanUp, Pool.cleanup, hleft, hpool]
  cases hany : chores.any Chore.cleans with
  | true =>
    have hnothing : left chores = [] := by rw [left, if_pos hany]
    rw [hnothing] at hleft ⊢
    rw [hany] at hpool
    exact ⟨rfl, hpool, hleft, rfl, rfl⟩
  | false => exact ⟨rfl, rfl, rfl, (applyAll_ran act _ _).symm, rfl⟩

/-- **What a chore does** is what it should do after the others. -/
theorem run_access (c : Chore ι) : (c.run act g).access = applyAll act (c.does chores) g.access := by
  obtain ⟨-, -, -, haccess, -⟩ := h.cleanUp
  cases c with
  | onCleanup i =>
    rw [Chore.run, onCleanup_eq, h.cleanedUp, Chore.does]
    split <;> rfl
  | cleanup => exact haccess
  | release =>
    rw [Chore.run, release_access, haccess, Chore.does, applyAll_append]
    split
    · rename_i hgives
      -- by now nothing is left to run, so what was released before is released still
      rw [left_of_cleans (any_cleans_of_gives hgives)]
      show (g.access.onResources fun r h => r.release h).2 = g.access
      rw [Access.onResources, Resources.release_of_released (h.released hgives)]
    · rfl

theorem run_cleanedUp (c : Chore ι) : (c.run act g).pool.isCleanedUp = (chores ++ [c]).any Chore.cleans := by
  obtain ⟨-, hcleaned, -⟩ := h.cleanUp
  rw [any_concat]
  cases c with
  | onCleanup i =>
    rw [Chore.cleans, Bool.or_false, Chore.run, onCleanup_eq, ← h.cleanedUp]
    split <;> rfl
  | cleanup => rw [Chore.cleans, Bool.or_true, Chore.run, hcleaned]
  | release => rw [Chore.cleans, Bool.or_true, Chore.run, release_pool, hcleaned]

theorem run_cleanups (c : Chore ι) : (c.run act g).pool.cleanups = (left (chores ++ [c])).map act := by
  obtain ⟨-, -, hcleanups, -⟩ := h.cleanUp
  cases c with
  | onCleanup i =>
    have hleft := h.cleanups
    rw [Chore.run, onCleanup_eq, h.cleanedUp]
    cases hany : chores.any Chore.cleans with
    | true =>
      rw [left_of_cleans hany] at hleft
      rw [left_of_cleans (by rw [any_concat, hany, Bool.true_or])]
      exact hleft
    | false =>
      rw [left_concat_of_not_cleans hany]
      exact congrArg (act i :: ·) hleft
  | cleanup =>
    rw [left_concat_of_cleans rfl]
    exact hcleanups
  | release =>
    rw [left_concat_of_cleans rfl, Chore.run, release_pool]
    exact hcleanups

/-- What is released stays so. -/
theorem run_released (hact : KeepsReleased act) {c : Chore ι} (hc : (chores ++ [c]).any Chore.gives = true) :
    (c.run act g).access.own.resources.released = true := by
  rw [any_concat, Bool.or_eq_true] at hc
  cases c with
  | release =>
    rw [Chore.run, release_access]
    exact Resources.release_released _ _
  | onCleanup i =>
    have hgives := hc.resolve_right Bool.false_ne_true
    rw [h.run_access, Chore.does, if_pos (any_cleans_of_gives hgives)]
    exact hact i _ (h.released hgives)
  | cleanup =>
    have hgives := hc.resolve_right Bool.false_ne_true
    rw [h.run_access, Chore.does, left_of_cleans (any_cleans_of_gives hgives)]
    exact h.released hgives

theorem run_summary {c : Chore ι} (hc : (chores ++ [c]).any Chore.gives = false) : (c.run act g).summary = none := by
  obtain ⟨-, -, -, -, hsummary⟩ := h.cleanUp
  rw [any_concat, Bool.or_eq_false_iff] at hc
  cases c with
  | onCleanup i => exact h.summary hc.1
  | cleanup => exact hsummary.trans (h.summary hc.1)
  | release => cases hc.2

theorem concat (hact : KeepsReleased act) (c : Chore ι) : Stands act a (chores ++ [c]) (c.run act g) where
  cleanedUp := h.run_cleanedUp c
  cleanups := h.run_cleanups c
  access := by rw [h.run_access, h.access, doings_concat, applyAll_append]
  released := h.run_released hact
  summary := h.run_summary

end Stands

/-- A holding that is new. -/
def new (a : Access) : Holding := { access := a }

/-- **After any chores** a holding has done what they tell, and has to do what is left. -/
theorem stands_after {act : ι → Access → Access} (hact : KeepsReleased act) (a : Access) (chores : List (Chore ι)) :
    Stands act a chores ((new a).after act chores) := by
  induction chores using List.reverseRecOn with
  | nil => exact ⟨rfl, rfl, rfl, fun hgives => (by cases hgives), fun _ => rfl⟩
  | append_singleton chores c ih =>
    rw [after_concat]
    exact ih.concat hact c

/-! ### Once -/

theorem filterMap_ran (is : List ι) : (is.map Doing.ran).filterMap Doing.action? = is := by
  rw [List.filterMap_map]
  exact List.filterMap_some

/-- **Every action runs once**: those that ran and those that are left are the ones that were registered. -/
theorem actions_perm (chores : List (Chore ι)) :
    ((doings chores).filterMap Doing.action? ++ left chores).Perm (registered chores) := by
  induction chores using List.reverseRecOn with
  | nil => exact .nil
  | append_singleton chores c ih =>
    rw [doings_concat, registered_concat, List.filterMap_append]
    cases c with
    | onCleanup i =>
      rw [Chore.does, Chore.action?, Option.toList_some]
      cases hany : chores.any Chore.cleans with
      | true =>
        rw [left_of_cleans hany, List.append_nil] at ih
        rw [left_of_cleans (by rw [any_concat, hany, Bool.true_or]), List.append_nil]
        exact ih.append_right [i]
      | false =>
        rw [left_concat_of_not_cleans hany]
        show ((doings chores).filterMap Doing.action? ++ [] ++ i :: left chores).Perm _
        rw [List.append_nil]
        exact List.perm_middle.trans ((ih.cons i).trans (List.perm_append_singleton i _).symm)
    | cleanup =>
      rw [left_concat_of_cleans rfl, Chore.does, filterMap_ran, List.append_nil, Chore.action?, Option.toList_none,
        List.append_nil]
      exact ih
    | release =>
      have hgiving : (if chores.any Chore.gives then [] else [Doing.gaveBack (ι := ι)]).filterMap Doing.action? = [] := by
        split <;> rfl
      rw [left_concat_of_cleans rfl, Chore.does, List.filterMap_append, filterMap_ran, hgiving, List.append_nil,
        List.append_nil, Chore.action?, Option.toList_none, List.append_nil]
      exact ih

theorem countP_isGiving_ran (is : List ι) : (is.map Doing.ran).countP Doing.isGiving = 0 := by
  rw [List.countP_map]
  exact List.countP_eq_zero.mpr fun _ _ => Bool.false_ne_true

/-- **Everything is given back once**, when it is asked for the first time. -/
theorem countP_isGiving (chores : List (Chore ι)) :
    (doings chores).countP Doing.isGiving = if chores.any Chore.gives then 1 else 0 := by
  induction chores using List.reverseRecOn with
  | nil => rfl
  | append_singleton chores c ih =>
    rw [doings_concat, List.countP_append, ih, any_concat]
    cases c with
    | onCleanup i =>
      have hran : (Chore.does chores (.onCleanup i)).countP Doing.isGiving = 0 := by
        rw [Chore.does]
        split <;> rfl
      rw [hran, Chore.gives, Bool.or_false, Nat.add_zero]
    | cleanup => rw [Chore.does, countP_isGiving_ran, Chore.gives, Bool.or_false, Nat.add_zero]
    | release =>
      rw [Chore.does, List.countP_append, countP_isGiving_ran, Chore.gives, Bool.or_true, Nat.zero_add]
      cases chores.any Chore.gives <;> rfl

/-- Whoever keeps a journal of the actions finds each of them in it as often as it ran. -/
theorem journal_applyAll {act : ι → Access → Access} {journal : Access → List ι}
    (hran : ∀ i a, journal (act i a) = journal a ++ [i])
    (hgave : ∀ a : Access, journal (a.onResources fun r h => r.release h).2 = journal a) (ds : List (Doing ι)) :
    ∀ a, journal (applyAll act ds a) = journal a ++ ds.filterMap Doing.action? := by
  induction ds with
  | nil => exact fun a => (List.append_nil _).symm
  | cons d ds ih =>
    intro a
    have hrest := ih (d.apply act a)
    cases d with
    | ran i =>
      rw [Doing.apply, hran, List.append_assoc] at hrest
      exact hrest
    | gaveBack =>
      rw [Doing.apply, hgave] at hrest
      exact hrest

/-! ### The summary -/

section

variable {act : ι → Access → Access} {a : Access} {chores : List (Chore ι)} {g : Holding}

/-- Once everything has been given back, the summary stays. -/
theorem Stands.kept_summary (h : Stands act a chores g) (hgives : chores.any Chore.gives = true) (c : Chore ι) :
    (c.run act g).summary = g.summary := by
  obtain ⟨-, -, -, haccess, hsummary⟩ := h.cleanUp
  cases c with
  | onCleanup i => rfl
  | cleanup => exact hsummary
  | release =>
    rw [left_of_cleans (any_cleans_of_gives hgives)] at haccess
    rw [Chore.run, release_summary, haccess]
    show ((g.access.onResources fun r h => r.release h).1).or _ = _
    rw [Access.onResources, Resources.release_of_released (h.released hgives), Option.none_or]

/-- Every release answers what an earlier one did. -/
theorem released_after (hact : KeepsReleased act) (a : Access) (earlier later : List (Chore ι)) :
    ((new a).after act (earlier ++ .release :: later)).release.released
      = ((new a).after act earlier).release.released := by
  have hfirst : (new a).after act (earlier ++ [.release]) = ((new a).after act earlier).release := after_concat ..
  have hkept : ∀ later : List (Chore ι),
      ((new a).after act (earlier ++ .release :: later)).summary = ((new a).after act earlier).release.summary := by
    intro later
    induction later using List.reverseRecOn with
    | nil => rw [hfirst]
    | append_singleton later c ih =>
      have hgives : (earlier ++ .release :: later).any Chore.gives = true := by
        rw [List.any_append, List.any_cons, Chore.gives, Bool.true_or, Bool.or_true]
      have hstands := stands_after hact a (earlier ++ .release :: later)
      have hsame := hstands.kept_summary hgives c
      rw [ih] at hsame
      rw [← hsame, ← after_concat, List.append_assoc]
      rfl
  have hlast := hkept (later ++ [.release])
  have hconcat : earlier ++ Chore.release :: (later ++ [.release]) = (earlier ++ .release :: later) ++ [.release] := by
    rw [List.append_assoc]
    rfl
  rw [hconcat, after_concat] at hlast
  exact congrArg (Option.getD · {}) hlast

end

/-! ### All of it -/

/-- What chores come to, if the holding ends after them, which is one more release. -/
structure Tidied (act : ι → Access → Access) (a : Access) (chores : List (Chore ι)) : Prop where
  /-- A chore does at once what it should do after the others, and nothing else. -/
  does : ∀ c : Chore ι, ((new a).after act (chores ++ [c])).access
    = applyAll act (c.does chores) ((new a).after act chores).access
  /-- A cleanup says whether it is the first one. -/
  first : ((new a).after act chores).cleanUp.1 = !chores.any Chore.cleans
  /-- What has been done in the end. -/
  whole : ((new a).after act (chores ++ [.release])).access = applyAll act (doings (chores ++ [.release])) a
  /-- By then every action that was registered has run once. -/
  once : ((doings (chores ++ [.release])).filterMap Doing.action?).Perm (registered chores)
  /-- A journal of the actions holds exactly these. -/
  journal : ∀ journal : Access → List ι, (∀ i b, journal (act i b) = journal b ++ [i]) →
    (∀ b : Access, journal (b.onResources fun r h => r.release h).2 = journal b) →
    ∃ ran, ran.Perm (registered chores) ∧
      journal ((new a).after act (chores ++ [.release])).access = journal a ++ ran
  /-- By then everything has been given back once. -/
  givenBack : (doings (chores ++ [.release])).countP Doing.isGiving = 1
  /-- The first release tells what was given back, when the actions that were left had run. -/
  summary : chores.any Chore.gives = false → ((new a).after act chores).release.released
    = (((applyAll act ((left chores).map .ran) ((new a).after act chores).access).onResources
        fun r h => r.release h).1).getD {}
  /-- Every release tells what the first one did. -/
  same : ∀ earlier later, chores = earlier ++ .release :: later →
    ((new a).after act chores).release.released = ((new a).after act earlier).release.released

/-- **Cleanup runs every action once.**  Whatever is asked of a new holding, and in whatever order, a chore does what it
should do after the others: the first cleanup runs what was registered, the newest first, and what is registered later runs
at once; the first release then gives everything back, and the others tell what it told.  In the end every action has run
once, and everything has been given back once.  What is freed then is said by `Doing.apply_gaveBack`, and that the host has
nothing of the session from there on by `reachable_owned`. -/
theorem tidied_after {act : ι → Access → Access} (hact : KeepsReleased act) (a : Access) (chores : List (Chore ι)) :
    Tidied act a chores := by
  have hstands := stands_after hact a chores
  have hend := stands_after hact a (chores ++ [.release])
  have honce : ((doings (chores ++ [.release])).filterMap Doing.action?).Perm (registered chores) := by
    have hperm := actions_perm (chores ++ [Chore.release])
    rw [left_concat_of_cleans rfl, List.append_nil, registered_concat, Chore.action?, Option.toList_none,
      List.append_nil] at hperm
    exact hperm
  refine ⟨fun c => ?_, hstands.cleanUp.1, hend.access, honce, fun journal hran hgave => ?_, ?_, fun hgives => ?_, ?_⟩
  · rw [after_concat]
    exact hstands.run_access c
  · refine ⟨_, honce, ?_⟩
    rw [hend.access]
    exact journal_applyAll hran hgave _ a
  · rw [countP_isGiving, any_concat, Chore.gives, Bool.or_true, if_pos rfl]
  · obtain ⟨-, -, -, haccess, -⟩ := hstands.cleanUp
    rw [released, release_summary, haccess, hstands.summary hgives, Option.or_none]
  · rintro earlier later rfl
    exact released_after hact a earlier later

/-- An action that leaves its number behind and makes a frame. -/
def marking (i : Nat) (b : Access) : Access :=
  deed (.createFrame i i) { b with own := { b.own with poll := b.own.poll * 10 + i } }

/-- What a new session reaches. -/
def bare : Access := { host := {}, own := { resources := { id := 7 }, input := .pieces default, output := .nowhere, poll := 0 } }

/-- Actions are registered before and after everything is given back, and both cleanup and release are asked for again. -/
def mixed : List (Chore Nat) := [.onCleanup 1, .onCleanup 2, .release, .onCleanup 3, .cleanup, .release]

theorem tidied_after_marking : KeepsReleased marking ∧ Tidied marking bare mixed ∧
    ((new bare).after marking (mixed ++ [.release])).access.own.poll = 213 ∧
    ((new bare).after marking mixed).release.released = ⟨2, 0, 0⟩ :=
  have hkeeps : KeepsReleased marking := fun i _ hreleased => released_deed (.createFrame i i) hreleased
  ⟨hkeeps, tidied_after hkeeps bare mixed, by decide +kernel, by decide +kernel⟩

end ScriptHost.Holding

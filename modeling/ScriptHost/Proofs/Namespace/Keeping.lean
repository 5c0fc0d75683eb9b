import ScriptHost.Proofs.Namespace.Answers

/-!
# What a script keeps sealed

Whatever a script does with the values that it gets hold of, the objects of a frozen namespace stay sealed, and all that it
gets hold of is open.

* `Safe.rests` — a safe computation leaves sealed objects to the script;
* `safe_outcome` — what the machine does about a deed is safe;
* `Holds`, `Holds.step` — what holds of a scene, and one thing that a script does;
* **`holds_of_course`** — it holds after any finite course of them.
-/

namespace ScriptHost

open ScriptHost.Script ScriptHost.Script.Machine Namespace

namespace Ground

variable {g : Ground} {own : Nat → Prop} {h : Heap}

/-! ### Deeds and scenes -/

/-- What waits for an answer goes on safely. -/
def GoesOn (g : Ground) (k : Reply → Heap → Unit → Script.Outcome Unit (Array Value)) : Prop :=
  ∀ own h r, g.Sealed own h → (∀ x ∈ r.contents, g.Open x) → g.Safe g.Results (k r h ()) own

/-- The script can go on from here. -/
def RestsWell (g : Ground) (own : Nat → Prop) : Rest → Prop
  | .ended r h => g.Sealed own h ∧ ∀ x ∈ r.contents, g.Open x
  | .waits args k h => g.Sealed own h ∧ (∀ x ∈ args.toList, g.Open x) ∧ g.GoesOn k

/-- A safe computation leaves it to the script to go on with sealed objects. -/
theorem Safe.rests {o : Script.Outcome Unit (Array Value)} {rest : Rest} (ho : g.Safe g.Results o own)
    (hrests : Rests own o rest) : g.RestsWell own rest := by
  induction hrests with
  | done vs h => exact ho
  | raised e h hx =>
    refine ⟨ho.1, fun y hy => ?_⟩
    rw [List.mem_singleton.mp hy]
    exact ho.2 _ hx
  | waits f args mode k h hf => exact ⟨ho.1, ho.2.1.known, ho.2.2⟩
  | alone f args mode k h hf hcomes hrests ih =>
    obtain ⟨r', h'', hcomes', hs, hopen⟩ := answers ho.1 ho.2.1 hf
    obtain ⟨rfl, rfl⟩ := hcomes.unique hcomes'
    exact ih (ho.2.2 own _ _ hs hopen)

/-- **A deed** with values that a script has is safe. -/
theorem safe_outcome {d : Script.Deed} (hfit : d.IsFit) (hknown : ∀ v ∈ d.values, g.Open v) (hs : g.Sealed own h) :
    g.Safe g.Results (d.outcome h) own := by
  cases d with
  | read t k =>
    have hread : g.SafeAct (do return #[← Act.index t k] : Act Unit (Array Value)) g.Results :=
      (safe_indexFrom false _ (.inl (hknown t (by simp [Script.Deed.values]))) (hknown k (by simp [Script.Deed.values]))).bind
        fun _ hv => .pure (results_one hv)
    exact hread own h hs
  | write t k v =>
    have hwrite : g.SafeAct (do Act.setIndex t k v; return #[] : Act Unit (Array Value)) g.Results :=
      (safe_setIndexFrom false _ (hknown t (by simp [Script.Deed.values])) (hknown k (by simp [Script.Deed.values]))
        (hknown v (by simp [Script.Deed.values]))).bind fun _ _ => .pure results_none
    exact hwrite own h hs
  | use b args =>
    have hargs : ∀ x ∈ args.toList, g.Open x := fun x hx => hknown x (List.mem_cons_of_mem _ hx)
    have huse : g.SafeAct (Library.call b args) g.Results := by
      simp only [Script.Deed.IsFit, Script.Deed.tools, List.mem_cons, List.not_mem_nil, or_false] at hfit
      rcases hfit with rfl | rfl | rfl | rfl | rfl | rfl | rfl | rfl | rfl
      · exact safe_getmetatable hargs
      · exact safe_setmetatable hargs
      · exact safe_rawget hargs
      · -- a script does not get hold of this one
        exact absurd rfl (hknown (.native (.builtin .rawset)) List.mem_cons_self)
      · exact safe_next hargs
      · exact safe_pairs hargs
      · exact safe_insert hargs
      · exact safe_remove hargs
      · exact safe_move hargs
    exact huse own h hs
  | call f args =>
    have hcall : g.SafeAct (Act.call f args) g.Results :=
      .call (.of_open (hknown f List.mem_cons_self) hfit fun x hx => hknown x (List.mem_cons_of_mem _ hx))
    exact hcall own h hs

/-- What a script has is open, the objects are sealed, and what waits goes on safely. -/
structure Holds (g : Ground) (s : Scene) : Prop where
  sealed : g.Sealed s.own s.heap
  known : ∀ v, s.known v → g.Open v
  waiting : ∀ k ∈ s.waiting, g.GoesOn k

/-- It is the script's turn again. -/
theorem Holds.resting {s : Scene} (hs : g.Holds s) {rest : Rest} (hrest : g.RestsWell s.own rest) : g.Holds (s.resting rest) := by
  cases rest with
  | ended r h => exact ⟨hrest.1, fun v hv => hv.elim (hs.known v) (hrest.2 v), hs.waiting⟩
  | waits args k h =>
    refine ⟨hrest.1, fun v hv => hv.elim (hs.known v) (hrest.2.1 v), fun k' hk' => ?_⟩
    rcases List.mem_cons.mp hk' with rfl | hk'
    · exact hrest.2.2
    · exact hs.waiting k' hk'

/-- **One thing that a script does** keeps what holds. -/
theorem Holds.step {s s' : Scene} (hs : g.Holds s) (hstep : s.Step s') : g.Holds s' := by
  have horder := g.order
  cases hstep with
  | deed d hfit hknown hrests =>
    exact hs.resting ((safe_outcome hfit (fun v hv => hs.known v (hknown v hv)) hs.sealed).rests hrests)
  | answer k ks hwaiting r hknown hrests =>
    have hlater : g.Holds { s with waiting := ks } :=
      ⟨hs.sealed, hs.known, fun k' hk' => hs.waiting k' (hwaiting ▸ List.mem_cons_of_mem k hk')⟩
    refine hlater.resting (Safe.rests ?_ hrests)
    exact hs.waiting k (hwaiting ▸ List.mem_cons_self) _ _ r hs.sealed fun x hx => hs.known x (hknown x hx)
  | make arraySize entryCount =>
    refine ⟨hs.sealed.withTable arraySize entryCount, fun v hv => ?_, hs.waiting⟩
    rcases hv with hv | hv
    · exact hs.known v hv
    · rw [List.mem_singleton.mp hv]
      have hsize := hs.sealed.size
      exact .inr (.inr (.inr (by omega)))
  | define c =>
    refine ⟨hs.sealed.withClosure c (fun _ hi => .inl hi) (fun _ hi => hi) (.inl (.inr rfl)), fun v hv => ?_, hs.waiting⟩
    rcases hv with hv | hv
    · exact hs.known v hv
    · rw [List.mem_singleton.mp hv]
      exact .inr (.inr (Array.getElem?_eq_some_iff.mp
        (hs.sealed.closures g.layout.assign _ (Array.getElem?_eq_getElem (by omega)))).1)

end Ground

end ScriptHost

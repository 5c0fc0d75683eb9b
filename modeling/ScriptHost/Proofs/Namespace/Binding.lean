import Mathlib.Data.List.Forall2
import ScriptHost.Session.Job

/-!
# Which names are bound

The functions of a session come from its core, from bundles, from the host and from further binders, in this order.  Each
comes under a name; a name that repeats an earlier one stops the binding at once.  When all names are there, they are
bound in the same order, and a reserved one stops the binding then.

* `firstRepeat` — the first name that repeats an earlier one;
* `AddsTo` — functions are added to a pool under names, until one repeats;
* `Binder.Adds` — a binder adds functions under names;
* **`Binder.runAll_adds`** — so do all binders one after the other;
* **`Namespace.Builder.bindAll_spec`** — names that are all different are bound up to the first reserved one.
-/

namespace ScriptHost

open ScriptHost.Script

/-! ### Repeated names -/

/-- The first of some names that is one of those before it, or of those given. -/
def firstRepeat : List String → List String → Option String
  | _, [] => none
  | before, n :: rest => if n ∈ before then some n else firstRepeat (before ++ [n]) rest

theorem firstRepeat_append (before ns ns' : List String) :
    firstRepeat before (ns ++ ns') = (firstRepeat before ns).or (firstRepeat (before ++ ns) ns') := by
  induction ns generalizing before with
  | nil => simp [firstRepeat]
  | cons n rest ih =>
    rw [List.cons_append, firstRepeat, firstRepeat]
    by_cases hn : n ∈ before
    · rw [if_pos hn, if_pos hn, Option.some_or]
    · rw [if_neg hn, if_neg hn, ih, List.append_assoc, List.singleton_append]

theorem firstRepeat_eq_none_iff {before ns : List String} (hbefore : before.Nodup) :
    firstRepeat before ns = none ↔ (before ++ ns).Nodup := by
  induction ns generalizing before with
  | nil => simpa [firstRepeat] using hbefore
  | cons n rest ih =>
    rw [firstRepeat]
    by_cases hn : n ∈ before
    · rw [if_pos hn]
      exact ⟨nofun, fun hnodup => absurd rfl ((List.nodup_append.mp hnodup).2.2 n hn n List.mem_cons_self)⟩
    · have hmore : (before ++ [n]).Nodup := by
        refine List.nodup_append.mpr ⟨hbefore, List.pairwise_singleton _ n, fun a ha b hb => ?_⟩
        rw [List.mem_singleton.mp hb]
        exact fun heq => hn (heq ▸ ha)
      rw [if_neg hn, ih hmore, List.append_assoc, List.singleton_append]

/-- Names with a repetition have a first one. -/
theorem exists_firstRepeat {ns : List String} (h : ¬ ns.Nodup) : ∃ n, firstRepeat [] ns = some n := by
  cases hfirst : firstRepeat [] ns with
  | none => exact absurd ((firstRepeat_eq_none_iff List.nodup_nil).mp hfirst) h
  | some n => exact ⟨n, rfl⟩

/-! ### Adding functions to a pool -/

section
variable {σ : Type} {α : Type}

/-- Functions were added to a pool under some names, or one of these was there before. -/
structure AddsTo (p : Pool σ) (ns : List String) (r : Except SetupError (Pool σ)) : Prop where
  added : firstRepeat p.names ns = none → ∃ q, r = .ok q ∧ q.names = p.names ++ ns
  refused : ∀ n, firstRepeat p.names ns = some n → r = .error (.duplicateBinding n)

theorem Pool.contains_iff (p : Pool σ) (name : String) : p.contains name = true ↔ name ∈ p.names := by
  rw [Pool.contains, Pool.names, List.mem_map, Array.any_eq_true']
  simp only [beq_iff_eq, Array.mem_toList_iff]

theorem Pool.insert_adds (p : Pool σ) (name : String) (body : Array Value → Act σ (Array Value)) :
    AddsTo p [name] (p.insert name body) := by
  by_cases hname : name ∈ p.names
  · have hcontains := (p.contains_iff name).mpr hname
    refine ⟨fun hnone => ?_, fun n hn => ?_⟩
    · rw [firstRepeat, if_pos hname] at hnone
      cases hnone
    · rw [firstRepeat, if_pos hname] at hn
      rw [Pool.insert, if_pos hcontains, Option.some.inj hn]
  · have hcontains : ¬ p.contains name = true := fun h => hname ((p.contains_iff name).mp h)
    refine ⟨fun _ => ⟨{ p with entries := p.entries.push ⟨name, body⟩ }, ?_, ?_⟩, fun n hn => ?_⟩
    · rw [Pool.insert, if_neg hcontains]
    · rw [Pool.names, Pool.names, Array.toList_push, List.map_append]
      rfl
    · rw [firstRepeat, if_neg hname, firstRepeat] at hn
      cases hn

/-- One addition after the other. -/
theorem AddsTo.foldlM {f : Pool σ → α → Except SetupError (Pool σ)} {names : α → List String}
    (hf : ∀ p x, AddsTo p (names x) (f p x)) (xs : List α) (p : Pool σ) : AddsTo p (xs.flatMap names) (xs.foldlM f p) := by
  induction xs generalizing p with
  | nil => exact ⟨fun _ => ⟨p, rfl, (List.append_nil _).symm⟩, nofun⟩
  | cons x rest ih =>
    have hfirst := hf p x
    rw [List.flatMap_cons, List.foldlM_cons]
    cases hrepeat : firstRepeat p.names (names x) with
    | some n =>
      have hnow : firstRepeat p.names (names x ++ rest.flatMap names) = some n := by
        rw [firstRepeat_append, hrepeat, Option.some_or]
      rw [hfirst.refused n hrepeat]
      exact ⟨fun hnone => absurd (hnow.symm.trans hnone) nofun, fun n' hn' => by
        rw [Option.some.inj (hnow.symm.trans hn')]
        rfl⟩
    | none =>
      obtain ⟨q, hq, hnames⟩ := hfirst.added hrepeat
      have hlater : firstRepeat p.names (names x ++ rest.flatMap names) = firstRepeat q.names (rest.flatMap names) := by
        rw [firstRepeat_append, hrepeat, Option.none_or, hnames]
      rw [hq]
      refine ⟨fun hnone => ?_, fun n hn => (ih q).refused n (hlater ▸ hn)⟩
      obtain ⟨q', hq', hnames'⟩ := (ih q).added (hlater ▸ hnone)
      exact ⟨q', hq', by rw [hnames', hnames, List.append_assoc]⟩

theorem AddsTo.foldlM_name {f : Pool σ → HostFunction σ → Except SetupError (Pool σ)}
    (hf : ∀ p x, AddsTo p [x.name] (f p x)) (fs : List (HostFunction σ)) (p : Pool σ) :
    AddsTo p (fs.map HostFunction.name) (fs.foldlM f p) := by
  rw [List.map_eq_flatMap]
  exact AddsTo.foldlM hf fs p

theorem Pool.registerAll_adds (p : Pool σ) (fs : List (HostFunction σ)) :
    AddsTo p (fs.map HostFunction.name) (p.registerAll fs) :=
  AddsTo.foldlM_name (fun p f => p.insert_adds f.name _) fs p

/-- The names of the functions of some bundles. -/
def bundleNames (bundles : List (Bundle σ)) : List String := bundles.flatMap fun b => b.functions.map HostFunction.name

theorem Pool.seed_adds (p : Pool σ) (bundles : List (Bundle σ)) : AddsTo p (bundleNames bundles) (p.seed bundles) :=
  AddsTo.foldlM (fun p b => AddsTo.foldlM_name (fun p f => p.insert_adds f.name _) b.functions p) bundles p

end

/-! ### Binders -/

namespace Binder

/-- A binder adds functions under some names, or fails with the first of them that is taken. -/
structure Adds (mode : Mode) (ns : List String) (b : Binder) : Prop where
  added : ∀ p a, firstRepeat p.names ns = none → ∃ q a', b.bind mode p a = (.ok (), q, a') ∧ q.names = p.names ++ ns
  refused : ∀ p a n, firstRepeat p.names ns = some n → ∃ q a', b.bind mode p a = (.error (.duplicateBinding n), q, a')

variable {mode : Mode}

theorem Adds.of_pool {f : Pool Access → Except SetupError (Pool Access)} {ns : List String} (hf : ∀ p, AddsTo p ns (f p)) :
    Adds mode ns ⟨fun _ p a => match f p with
      | .ok p => (.ok (), p, a)
      | .error e => (.error e, p, a)⟩ where
  added p a hnone := by
    obtain ⟨q, hq, hnames⟩ := (hf p).added hnone
    exact ⟨q, a, by simp only [hq], hnames⟩
  refused p a n hn := ⟨p, a, by simp only [(hf p).refused n hn]⟩

theorem ofFunctions_adds (fs : List (HostFunction Access)) : (ofFunctions fs).Adds mode (fs.map HostFunction.name) :=
  Adds.of_pool fun p => p.registerAll_adds fs

/-- **One binder after the other** adds its functions, until a name repeats an earlier one. -/
theorem runAll_adds {bs : List Binder} {nss : List (List String)} (h : List.Forall₂ (Adds mode) nss bs) :
    Adds mode nss.flatten ⟨runAll bs⟩ := by
  induction h with
  | nil => exact ⟨fun p a _ => ⟨p, a, rfl, (List.append_nil _).symm⟩, nofun⟩
  | @cons ns b nss bs hfirst _ ih =>
    refine ⟨fun p a hnone => ?_, fun p a n hn => ?_⟩
    · rw [List.flatten_cons, firstRepeat_append, Option.or_eq_none_iff] at hnone
      obtain ⟨q, a', hq, hnames⟩ := hfirst.added p a hnone.1
      obtain ⟨q', a'', hq', hnames'⟩ := ih.added q a' (hnames ▸ hnone.2)
      refine ⟨q', a'', ?_, by rw [hnames', hnames, List.flatten_cons, List.append_assoc]⟩
      simp only [runAll, hq]
      exact hq'
    · rw [List.flatten_cons, firstRepeat_append] at hn
      cases hrepeat : firstRepeat p.names ns with
      | some n' =>
        rw [hrepeat, Option.some_or] at hn
        obtain ⟨q, a', hq⟩ := hfirst.refused p a n' hrepeat
        refine ⟨q, a', ?_⟩
        simp only [runAll, hq, Option.some.inj hn]
      | none =>
        rw [hrepeat, Option.none_or] at hn
        obtain ⟨q, a', hq, hnames⟩ := hfirst.added p a hrepeat
        obtain ⟨q', a'', hq'⟩ := ih.refused q a' n (hnames ▸ hn)
        refine ⟨q', a'', ?_⟩
        simp only [runAll, hq]
        exact hq'

end Binder

/-- The names of the functions that a session of a mode gets from the core, the bundles, the host and further binders
that add functions under the given names. -/
def boundNames (r : Registry Access) (mode : Mode) (further : List (List String)) : List String :=
  Core.functions.map HostFunction.name ++ bundleNames (r.resolve mode) ++ Console.functions.map HostFunction.name
    ++ further.flatten

/-- The binders of a session add its names. -/
theorem Engine.allBinders_adds (e : Engine) {mode : Mode} {further : List (List String)}
    (h : List.Forall₂ (Binder.Adds mode) further e.binders) :
    Binder.Adds mode (boundNames e.registry mode further) ⟨Binder.runAll (e.allBinders mode)⟩ := by
  have hseed : Binder.Adds mode (bundleNames (e.registry.resolve mode)) _ :=
    Binder.Adds.of_pool fun p => p.seed_adds (e.registry.resolve mode)
  have hall := Binder.runAll_adds ((((h.cons (Binder.ofFunctions_adds Console.functions)).cons hseed).cons
    (Binder.ofFunctions_adds Core.functions)))
  rwa [List.flatten_cons, List.flatten_cons, List.flatten_cons, ← List.append_assoc, ← List.append_assoc] at hall

/-! ### Binding the names -/

namespace Namespace

theorem poolValues_names {σ : Type} (p : Pool σ) : (poolValues p).map Prod.fst = p.names := by
  rw [poolValues, List.map_map]
  exact List.zipIdx_map_fst 0 p.names

namespace Builder

theorem contains_iff (b : Builder) (name : String) : b.contains name = true ↔ name ∈ b.bindings.map Prod.fst := by
  rw [contains, List.any_eq_true, List.mem_map]
  simp only [beq_iff_eq]

/-- **Names that are all different** are bound, up to the first that is reserved. -/
theorem bindAll_spec {b : Builder} {xs : List (String × Value)} (h : ((b.bindings ++ xs).map Prod.fst).Nodup) :
    b.bindAll xs = match (xs.map Prod.fst).find? (isReserved b.mode) with
      | some n => .error (.duplicateBinding n)
      | none => .ok { b with bindings := b.bindings ++ xs } := by
  induction xs generalizing b with
  | nil =>
    rw [List.append_nil]
    rfl
  | cons x rest ih =>
    have hnew : ¬ b.contains x.1 = true := by
      rw [contains_iff]
      rw [List.map_append, List.map_cons] at h
      exact fun hmem => (List.nodup_append.mp h).2.2 x.1 hmem x.1 List.mem_cons_self rfl
    rw [List.map_cons, List.find?_cons, bindAll, List.foldlM_cons, bind]
    cases hreserved : isReserved b.mode x.1 with
    | true =>
      rw [Bool.or_true, if_pos rfl]
      rfl
    | false =>
      rw [Bool.or_false, if_neg hnew]
      rw [List.append_cons] at h
      refine (ih (b := { b with bindings := b.bindings ++ [x] }) h).trans ?_
      rw [← List.append_cons]

end Builder

end Namespace

end ScriptHost

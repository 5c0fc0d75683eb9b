import Mathlib.Data.List.Nodup
import ScriptHost.Proofs.Namespace.Binding

/-!
# A registry that only grows

Bundles are offered to a registry in any order, by whoever has one.  It takes the first bundle of each name at its end and
refuses the others, and it never gives one up.

* `Registry.after`, `Registry.afterAll` — a registry after one offer, and after some in their order;
* `Registry.accepted` — the bundles that it takes of those;
* `AppendOnly` — what holds of a registry after any offers;
* **`appendOnly_afterAll`** — it does, and sessions that are not privileged are the same with registries that differ in
  restricted bundles only.
-/

namespace ScriptHost

open ScriptHost.Script

namespace Registry

variable {σ : Type}

/-- A registry when a bundle was offered; where it is refused, the registry is as it was. -/
def after (r : Registry σ) (b : Bundle σ) : Registry σ :=
  match r.register b with
  | .ok r' => r'
  | .error _ => r

/-- A registry when some bundles were offered in their order. -/
def afterAll (r : Registry σ) (bs : List (Bundle σ)) : Registry σ := bs.foldl after r

/-- The bundles that a registry takes, of those that are offered to it in their order. -/
def accepted (r : Registry σ) : List (Bundle σ) → List (Bundle σ)
  | [] => []
  | b :: rest =>
    match r.register b with
    | .ok r' => b :: r'.accepted rest
    | .error _ => r.accepted rest

/-! ### One offer -/

theorem any_name_iff (r : Registry σ) (name : String) : (r.bundles.any fun c => c.name == name) = true ↔ name ∈ r.names := by
  rw [List.any_eq_true, names, List.mem_map]
  simp only [beq_iff_eq]

theorem register_taken {r : Registry σ} {b : Bundle σ} (htaken : b.name ∈ r.names) :
    r.register b = .error (.duplicateBundle b.name) := by
  rw [register, if_pos ((any_name_iff r b.name).mpr htaken)]

theorem register_free {r : Registry σ} {b : Bundle σ} (hfree : b.name ∉ r.names) :
    r.register b = .ok ⟨r.bundles ++ [b]⟩ := by
  rw [register, if_neg fun h => hfree ((any_name_iff r b.name).mp h)]

theorem after_taken {r : Registry σ} {b : Bundle σ} (htaken : b.name ∈ r.names) : r.after b = r := by
  rw [after, register_taken htaken]

theorem after_free {r : Registry σ} {b : Bundle σ} (hfree : b.name ∉ r.names) : r.after b = ⟨r.bundles ++ [b]⟩ := by
  rw [after, register_free hfree]

theorem isSome_get?_iff (r : Registry σ) (name : String) : (r.get? name).isSome = true ↔ name ∈ r.names := by
  rw [get?, List.find?_isSome, ← List.any_eq_true, any_name_iff]

/-- The bundle of a name stays, and an offer is found under its name where that was free. -/
theorem get?_after (r : Registry σ) (b : Bundle σ) (name : String) :
    (r.after b).get? name = (r.get? name).or (if b.name == name then some b else none) := by
  by_cases htaken : b.name ∈ r.names
  · rw [after_taken htaken]
    cases hname : b.name == name with
    | false => rw [if_neg Bool.false_ne_true, Option.or_none]
    | true =>
      obtain rfl := eq_of_beq hname
      obtain ⟨c, hc⟩ := Option.isSome_iff_exists.mp ((isSome_get?_iff r b.name).mpr htaken)
      rw [hc, Option.some_or]
  · rw [after_free htaken, get?, List.find?_append, get?, List.find?_singleton]

/-! ### Offers in their order -/

/-- **The bundles after some offers** are those before and those that were taken, in their order. -/
theorem bundles_afterAll (r : Registry σ) (bs : List (Bundle σ)) : (r.afterAll bs).bundles = r.bundles ++ r.accepted bs := by
  induction bs generalizing r with
  | nil => exact (List.append_nil _).symm
  | cons b rest ih =>
    rw [afterAll, List.foldl_cons]
    refine (ih (r.after b)).trans ?_
    by_cases htaken : b.name ∈ r.names
    · rw [after_taken htaken, accepted, register_taken htaken]
    · rw [after_free htaken, accepted, register_free htaken, List.append_assoc]
      rfl

/-- Names stay different. -/
theorem nodup_names_after {r : Registry σ} (hnodup : r.names.Nodup) (b : Bundle σ) : (r.after b).names.Nodup := by
  by_cases htaken : b.name ∈ r.names
  · rwa [after_taken htaken]
  · rw [after_free htaken, names, List.map_append, List.map_singleton, ← List.concat_eq_append]
    exact List.Nodup.concat htaken hnodup

theorem nodup_names_afterAll {r : Registry σ} (hnodup : r.names.Nodup) (bs : List (Bundle σ)) :
    (r.afterAll bs).names.Nodup := by
  induction bs generalizing r with
  | nil => exact hnodup
  | cons b rest ih => exact ih (nodup_names_after hnodup b)

/-- The bundle of a name is the one that was there, or else the first that was offered. -/
theorem get?_afterAll (r : Registry σ) (bs : List (Bundle σ)) (name : String) :
    (r.afterAll bs).get? name = (r.get? name).or (bs.find? fun b => b.name == name) := by
  induction bs generalizing r with
  | nil => exact (Option.or_none).symm
  | cons b rest ih =>
    rw [afterAll, List.foldl_cons]
    refine (ih (r.after b)).trans ?_
    rw [get?_after, List.find?_cons, Option.or_assoc]
    cases b.name == name <;> simp

/-- What a session of a mode got is a beginning of what later ones get. -/
theorem resolve_isPrefix (r : Registry σ) (bs : List (Bundle σ)) (mode : Mode) :
    r.resolve mode <+: (r.afterAll bs).resolve mode := by
  rw [resolve, resolve, bundles_afterAll, List.filter_append]
  exact List.prefix_append ..

theorem resolve_privileged (r : Registry σ) : r.resolve .privileged = r.bundles :=
  List.filter_eq_self.mpr fun _ _ => rfl

theorem resolve_restricted (r : Registry σ) : r.resolve .restricted = r.bundles.filter fun b => !b.isRestricted :=
  rfl

/-- The names are those that were there and those that were offered. -/
theorem mem_names_afterAll (r : Registry σ) (bs : List (Bundle σ)) (name : String) :
    name ∈ (r.afterAll bs).names ↔ name ∈ r.names ∨ ∃ b ∈ bs, b.name = name := by
  rw [← isSome_get?_iff, ← isSome_get?_iff, get?_afterAll, Option.isSome_or, Bool.or_eq_true, List.find?_isSome]
  simp only [beq_iff_eq]

end Registry

/-! ### What holds after any offers -/

/-- What holds of a registry to which some bundles were offered in their order. -/
structure AppendOnly {σ : Type} (bs : List (Bundle σ)) (r : Registry σ) : Prop where
  /-- No two bundles have the same name. -/
  unique : r.names.Nodup
  /-- A name is taken when a bundle of that name was offered. -/
  names : ∀ name, name ∈ r.names ↔ ∃ b ∈ bs, b.name = name
  /-- Offering another bundle of a name that is taken is refused and changes nothing. -/
  taken : ∀ b, b.name ∈ r.names → r.register b = .error (.duplicateBundle b.name) ∧ r.after b = r
  /-- Any other bundle goes to the end. -/
  free : ∀ b, b.name ∉ r.names → r.register b = .ok (r.after b) ∧ (r.after b).bundles = r.bundles ++ [b]
  /-- The bundle of a name is the first that was offered, also after more offers. -/
  first : ∀ more name, (r.afterAll more).get? name = ((bs ++ more).find? fun b => b.name == name)
  /-- What sessions of a mode get is a beginning of what they get after more offers. -/
  later : ∀ more mode, r.resolve mode <+: (r.afterAll more).resolve mode
  /-- Privileged sessions get all bundles that were taken, in that order. -/
  privileged : r.resolve .privileged = Registry.accepted {} bs
  /-- Other sessions get those of them that are not restricted. -/
  restricted : r.resolve .restricted = (Registry.accepted {} bs).filter fun b => !b.isRestricted

/-- The registry of an engine matters to sessions of a mode only by what they get from it. -/
theorem Job.prepare_congr {r r' : Registry Access} {j : Job} (h : r.resolve j.handle.mode = r'.resolve j.handle.mode)
    (e : Engine) : j.prepare { e with registry := r } = j.prepare { e with registry := r' } := by
  have hbinders : ({ e with registry := r } : Engine).allBinders j.handle.mode
      = ({ e with registry := r' } : Engine).allBinders j.handle.mode := by
    rw [Engine.allBinders, Engine.allBinders, h]
  rw [Job.prepare, Job.prepare, hbinders]

/-- **A registry only grows.**  Whatever is offered to a new registry, it is append-only; and if the bundles that are not
restricted agree in two registries, then restricted sessions get the same functions from both, or the same failure. -/
theorem appendOnly_afterAll (bs : List (Bundle Access)) :
    AppendOnly bs (Registry.afterAll {} bs) ∧
      ∀ bs', ((Registry.accepted {} bs).filter fun b => !b.isRestricted)
          = ((Registry.accepted {} bs').filter fun b => !b.isRestricted) →
        (∀ p : Pool Access, p.seed ((Registry.afterAll {} bs).resolve .restricted)
          = p.seed ((Registry.afterAll {} bs').resolve .restricted)) ∧
        ∀ (e : Engine) (j : Job), j.handle.mode = .restricted →
          j.prepare { e with registry := .afterAll {} bs } = j.prepare { e with registry := .afterAll {} bs' } := by
  have hall (bs : List (Bundle Access)) : (Registry.afterAll {} bs).bundles = Registry.accepted {} bs :=
    Registry.bundles_afterAll {} bs
  have hrestricted (bs : List (Bundle Access)) : (Registry.afterAll {} bs).resolve .restricted
      = (Registry.accepted {} bs).filter fun b => !b.isRestricted := by
    rw [Registry.resolve_restricted, hall]
  refine ⟨?_, fun bs' hsame => ?_⟩
  · exact
      { unique := Registry.nodup_names_afterAll (r := {}) List.nodup_nil bs
        names := fun name => (Registry.mem_names_afterAll {} bs name).trans (or_iff_right List.not_mem_nil)
        taken := fun b htaken => ⟨Registry.register_taken htaken, Registry.after_taken htaken⟩
        free := fun b hfree => by
          rw [Registry.after_free hfree]
          exact ⟨Registry.register_free hfree, rfl⟩
        first := fun more name => by
          rw [Registry.afterAll, Registry.afterAll, ← List.foldl_append]
          exact Registry.get?_afterAll {} (bs ++ more) name
        later := fun more mode => Registry.resolve_isPrefix _ more mode
        privileged := (Registry.resolve_privileged _).trans (hall bs)
        restricted := hrestricted bs }
  · have hresolve : (Registry.afterAll {} bs).resolve .restricted = (Registry.afterAll {} bs').resolve .restricted := by
      rw [hrestricted, hrestricted, hsame]
    exact ⟨fun p => by rw [hresolve], fun e j hmode => Job.prepare_congr (by rwa [hmode]) e⟩

/-- An offer that is refused and a restricted bundle make no difference to restricted sessions. -/
theorem appendOnly_afterAll_rivals :
    let ping : Bundle Access := { name := "ping", functions := [.nullary "ping" (return #[])] }
    let rival : Bundle Access := { name := "ping", isRestricted := true, functions := [.nullary "pong" (return #[])] }
    let again : Bundle Access := { name := "again", functions := [.nullary "ping" (return #[])] }
    let hidden : Bundle Access := { name := "hidden", isRestricted := true, functions := [.nullary "ping" (return #[])] }
    let r : Registry Access := .afterAll {} [ping, again]
    let r' : Registry Access := .afterAll {} [hidden, ping, rival, again, hidden]
    r'.names = ["hidden", "ping", "again"] ∧ ({} : Pool Access).seed (r'.resolve .restricted) = .error (.duplicateBinding "ping") ∧
      ({} : Pool Access).seed (r.resolve .restricted) = ({} : Pool Access).seed (r'.resolve .restricted) := by
  intro ping rival again hidden r r'
  have hrepeat : firstRepeat [] (bundleNames (r'.resolve .restricted)) = some "ping" := rfl
  exact ⟨rfl, (Pool.seed_adds {} _).refused "ping" hrepeat,
    ((appendOnly_afterAll [ping, again]).2 [hidden, ping, rival, again, hidden] rfl).1 {}⟩

end ScriptHost

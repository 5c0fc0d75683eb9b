import ScriptHost.Proofs.Report.Unwrapping

/-!
# A breakdown is bounded

A failure may lie under any number of layers, and one of another component may have causes without end.  Two walks go into
a breakdown: one through the layers, and from where that ends one along the causes.  The first is bounded by the number of
layers that it follows, the second by the number of messages that there are when it begins.

* `Causes.along`, **`Causes.exists_along`** — the walk along the causes of any component's failure;
* `Causes.length_take_le`, `length_roomFor_le` — what is taken of them;
* `Fault.Stops`, `Fault.Follows`, **`exists_follows`** — the layers that the walk follows, and where it stops;
* `Fault.Walked`, **`walked`** — the three ways in which a breakdown ends;
* **`Walked.length_layers_le`**, `SetupError.length_layers_le` — how many layers it has;
* **`breakdown_bounded`** — all of it together.

Each layer that is followed adds at most one message.  So where the walk stops before it has followed sixteen, there is
room for the message of the failure it has come to, and the causes take what room is left.
-/

namespace ScriptHost

/-! ### Causes without end -/

namespace Causes

theorem length_take_le (n : Nat) (c : Causes) : (c.take n).length ≤ n := by
  cases c with
  | ending texts => exact List.length_take_le n texts
  | endless text =>
    rw [take, List.length_map, List.length_range]

section Along

variable {ε : Type} (source : ε → Option ε) (text : ε → String)

/-- The texts of the causes of a failure, as one comes by them in a walk of so many steps at most.  A failure has a text,
and a source if another one is its cause. -/
def along : Nat → ε → List String
  | 0, _ => []
  | n + 1, x =>
    match source x with
    | none => []
    | some cause => text cause :: along n cause

/-- The cause that so many others are nearer than, if the causes do not end before. -/
def causeAt : Nat → ε → Option ε
  | 0, x => source x
  | n + 1, x => (source x).bind (causeAt n)

/-- Causes that end can be listed. -/
theorem exists_ending {n : Nat} {x : ε} (h : causeAt source n x = none) :
    ∃ texts : List String, ∀ k, texts.take k = along source text k x := by
  have hnone {y : ε} (hy : source y = none) : ∀ k, ([] : List String).take k = along source text k y := by
    intro k
    cases k with
    | zero => rfl
    | succ k => simp only [along, hy, List.take_nil]
  induction n generalizing x with
  | zero => exact ⟨[], hnone h⟩
  | succ n ih =>
    cases hx : source x with
    | none => exact ⟨[], hnone hx⟩
    | some cause =>
      rw [causeAt, hx, Option.bind_some] at h
      obtain ⟨texts, htexts⟩ := ih h
      refine ⟨text cause :: texts, fun k => ?_⟩
      cases k with
      | zero => rfl
      | succ k => simp only [along, hx, List.take_succ_cons, htexts]

/-- Where no cause is the last, each place has one. -/
theorem along_of_endless {x : ε} (h : ∀ n, causeAt source n x ≠ none) (k : Nat) :
    (List.range k).map (fun n => ((causeAt source n x).map text).getD "") = along source text k x := by
  induction k generalizing x with
  | zero => rfl
  | succ k ih =>
    obtain ⟨cause, hcause⟩ := Option.ne_none_iff_exists'.mp (h 0)
    have hx : source x = some cause := hcause
    have hnext (n : Nat) : causeAt source (n + 1) x = causeAt source n cause := by
      rw [causeAt, hx, Option.bind_some]
    have hrest := ih (x := cause) fun n => hnext n ▸ h (n + 1)
    rw [List.range_succ_eq_map, List.map_cons, List.map_map]
    simp only [Function.comp_def, hcause, hnext, Option.map_some, Option.getD_some, along, hx, hrest]

/-- **Every walk is along some causes**, whether it comes to an end or goes on for ever. -/
theorem exists_along (x : ε) : ∃ c : Causes, ∀ n, c.take n = along source text n x := by
  by_cases h : ∃ n, causeAt source n x = none
  · obtain ⟨n, hn⟩ := h
    obtain ⟨texts, htexts⟩ := exists_ending source text hn
    exact ⟨ending texts, htexts⟩
  · rw [not_exists] at h
    exact ⟨endless _, along_of_endless source text h⟩

end Along

end Causes

theorem length_roomFor_le (before : Nat) (c : Causes) : (roomFor before c).length ≤ Fault.maxDepth - before :=
  c.length_take_le _

namespace Fault

/-! ### Where the walk stops -/

/-- The walk does not go on from a failure: it lies under no layer, or is that of a host function when another one has been
named before. -/
def Stops (f : Fault) (function : Option String) : Prop :=
  f.isBare = true ∨ ∃ first name source, function = some first ∧ f = .invocation name source

/-- The walk through `e` follows the layers `ls` and comes to `f`.  It may follow `fuel` layers, and `function` is the host
function that has been named before, if one has. -/
structure Follows (fuel : Nat) (function : Option String) (e : Fault) (ls : List Layer) (f : Fault) : Prop where
  whole : e = under ls f
  links : ls.length ≤ fuel
  named : (function.toList ++ ls.filterMap Layer.function?).length ≤ 1
  /-- It stops by itself if it may follow more. -/
  stops : ls.length < fuel → f.Stops (function.or (ls.findSome? Layer.function?))

namespace Follows

variable {fuel : Nat} {function : Option String} {e f : Fault} {ls : List Layer}

theorem nothing (h : 0 < fuel → e.Stops function) : Follows fuel function e [] e where
  whole := rfl
  links := Nat.zero_le fuel
  named := by cases function <;> simp
  stops := by
    rw [List.findSome?_nil, Option.or_none]
    exact h

/-- A layer that does not name a host function is followed. -/
theorem silent (h : Follows fuel function e ls f) {l : Layer} (hl : l.function? = none) :
    Follows (fuel + 1) function (l.around e) (l :: ls) f where
  whole := congrArg l.around h.whole
  links := Nat.succ_le_succ h.links
  named := by
    rw [List.filterMap_cons_none hl]
    exact h.named
  stops hless := by
    rw [List.findSome?_cons_of_isNone (by rw [hl]; rfl)]
    exact h.stops (Nat.lt_of_succ_lt_succ hless)

/-- So is the first one that does. -/
theorem first {name : String} (h : Follows fuel (some name) e ls f) :
    Follows (fuel + 1) none (.invocation name e) (.invocation name :: ls) f where
  whole := congrArg (Fault.invocation name) h.whole
  links := Nat.succ_le_succ h.links
  named := h.named
  stops hless := h.stops (Nat.lt_of_succ_lt_succ hless)

end Follows

/-- **The walk follows some layers** of every failure. -/
theorem exists_follows (fuel : Nat) (function : Option String) (e : Fault) : ∃ ls f, Follows fuel function e ls f := by
  induction fuel generalizing function e with
  | zero => exact ⟨[], e, .nothing fun h => absurd h (Nat.lt_irrefl 0)⟩
  | succ fuel ih =>
    have hsilent (l : Layer) (cause : Fault) (hl : l.function? = none) :
        ∃ ls f, Follows (fuel + 1) function (l.around cause) ls f := by
      obtain ⟨ls, f, h⟩ := ih function cause
      exact ⟨l :: ls, f, h.silent hl⟩
    cases e with
    | callback trace cause => exact hsilent (.callback trace) cause rfl
    | context text cause => exact hsilent (.context text) cause rfl
    | carried inner => exact hsilent .carried inner rfl
    | invocation name source =>
      cases function with
      | some first => exact ⟨[], _, .nothing fun _ => .inr ⟨first, name, source, rfl, rfl⟩⟩
      | none =>
        obtain ⟨ls, f, h⟩ := ih (some name) source
        exact ⟨.invocation name :: ls, f, h.first⟩
    | _ => exact ⟨[], _, .nothing fun _ => .inl rfl⟩

/-! ### How a breakdown ends -/

/-- The three ways in which a breakdown ends.  In each of them the walk has followed some layers `ls`, no more than sixteen,
of which at most one names a host function; that name stands before one message and no other. -/
inductive Walked (e : Fault) : Prop
  /-- All layers that may be followed have been, and what is under them makes no difference. -/
  | spent (ls : List Layer) (f : Fault) (whole : e = under ls f) (links : ls.length = maxDepth)
      (named : (ls.filterMap Layer.function?).length ≤ 1)
      (breakdown : ∀ g, (under ls g).breakdown = ⟨ls.filterMap Layer.text?, ls.findSome? Layer.trace?⟩)
  /-- The failure under the layers is told, with its causes. -/
  | ended (ls : List Layer) (f : Fault) (whole : e = under ls f) (links : ls.length < maxDepth)
      (named : (ls.filterMap Layer.function?).length ≤ 1) (bare : f.isBare = true)
      (breakdown : e.breakdown =
        { layers := ls.filterMap Layer.text?
            ++ f.told (ls.findSome? Layer.function?) (ls.filterMap Layer.text?).length
          trace := ls.findSome? Layer.trace? })
  /-- The failure of a second host function gets a layer of its own, and its causes follow. -/
  | second (ls : List Layer) (first name : String) (source : Fault) (whole : e = under ls (.invocation name source))
      (links : ls.length < maxDepth) (named : ls.filterMap Layer.function? = [first])
      (breakdown : e.breakdown =
        { layers := ls.filterMap Layer.text?
            ++ (first ++ ": " ++ ("error invoking host function '" ++ name ++ "'"))
              :: roomFor ((ls.filterMap Layer.text?).length + 1) (source.causes.cons source.display)
          trace := ls.findSome? Layer.trace? })

/-- A second host function is told, and with it the causes that it has. -/
theorem breakdownFrom_second (fuel : Nat) (first name : String) (source : Fault) (layers : List String)
    (trace : Option String) :
    breakdownFrom (fuel + 1) (.invocation name source) (some first) layers trace =
      { layers := layers ++ (first ++ ": " ++ ("error invoking host function '" ++ name ++ "'"))
          :: roomFor (layers.length + 1) (source.causes.cons source.display)
        trace } := by
  have hdisplay : (invocation name source).display = "error invoking host function '" ++ name ++ "'" := by
    simp only [display]
  have hcauses : (invocation name source).causes = source.causes.cons source.display := by
    simp only [causes]
  simp only [breakdownFrom, breakdownFrom.ending, withFunction, hdisplay, hcauses, List.length_append, List.length_singleton,
    List.append_assoc, List.singleton_append]

/-- **Every breakdown ends in one of them.** -/
theorem walked (e : Fault) : e.Walked := by
  obtain ⟨ls, f, hwhole, hlength, hone, hstops⟩ := exists_follows maxDepth none e
  rw [Option.toList_none, List.nil_append] at hone
  rw [Option.none_or] at hstops
  have hwalk (fuel : Nat) (hfuel : ls.length + fuel = maxDepth) (g : Fault) : (under ls g).breakdown =
      breakdownFrom fuel g (ls.findSome? Layer.function?) (ls.filterMap Layer.text?) (ls.findSome? Layer.trace?) := by
    have hfollows := breakdownFrom_follows ls fuel g none [] none hone
    rw [hfuel, Option.none_or, Option.none_or, List.nil_append] at hfollows
    exact hfollows
  rcases Nat.eq_or_lt_of_le hlength with hall | hless
  · exact .spent ls f hwhole hall hone (hwalk 0 hall)
  · obtain ⟨fuel, hfuel⟩ := Nat.exists_eq_add_of_lt hless
    have hbreakdown := hwalk (fuel + 1) hfuel.symm f
    rw [← hwhole] at hbreakdown
    rcases hstops hless with hbare | ⟨first, name, source, hfirst, rfl⟩
    · rw [breakdownFrom_bare hbare] at hbreakdown
      exact .ended ls f hwhole hless hone hbare hbreakdown
    · -- the first name is that of the only layer with one
      have hnamed : ls.filterMap Layer.function? = [first] := by
        rw [← List.head?_filterMap, List.head?_eq_some_iff] at hfirst
        obtain ⟨others, hothers⟩ := hfirst
        rw [hothers, List.length_cons] at hone
        rw [hothers, List.eq_nil_of_length_eq_zero (by omega : others.length = 0)]
      rw [hfirst, breakdownFrom_second] at hbreakdown
      exact .second ls first name source hwhole hless hnamed hbreakdown

/-! ### How much a breakdown holds -/

theorem length_told_le (f : Fault) (function : Option String) {before : Nat} (h : before < maxDepth) :
    (f.told function before).length ≤ maxDepth - before := by
  have hroom := length_roomFor_le (before + 1) f.causes
  rw [told, List.length_cons]
  split
  · omega
  · rw [List.length_nil]
    omega

/-- **The bound.**  Each layer adds one message at most, and what follows them keeps to the room that they leave. -/
theorem Walked.length_layers_le {e : Fault} (h : e.Walked) : e.breakdown.layers.length ≤ maxDepth := by
  cases h with
  | spent ls f whole links named breakdown =>
    have hcontexts := List.length_filterMap_le Layer.text? ls
    rw [whole, breakdown f]
    show (ls.filterMap Layer.text?).length ≤ maxDepth
    omega
  | ended ls f whole links named bare breakdown =>
    have hcontexts := List.length_filterMap_le Layer.text? ls
    have htold := f.length_told_le (ls.findSome? Layer.function?) (Nat.lt_of_le_of_lt hcontexts links)
    rw [breakdown, List.length_append]
    omega
  | second ls first name source whole links named breakdown =>
    have hcontexts := List.length_filterMap_le Layer.text? ls
    have hroom := length_roomFor_le ((ls.filterMap Layer.text?).length + 1) (source.causes.cons source.display)
    rw [breakdown, List.length_append, List.length_cons]
    omega

end Fault

/-- A failure before the script ran has one layer more, which says that it came of a script. -/
theorem SetupError.length_layers_le (s : SetupError) : s.layers.length ≤ Fault.maxDepth + 1 := by
  have hother (text : String) (c : Causes) : (text :: roomFor 1 c).length ≤ Fault.maxDepth + 1 := by
    have hroom := length_roomFor_le 1 c
    rw [List.length_cons]
    omega
  cases s with
  | script f => exact Nat.succ_le_succ f.walked.length_layers_le
  | duplicateBundle name => exact hother _ _
  | duplicateBinding name => exact hother _ _
  | io e => exact hother _ _
  | source e => exact hother _ _

namespace Fault

/-- A failure of another component is told with its first fifteen causes. -/
theorem breakdown_of_isForeign {f : Fault} (hf : f.isForeign = true) :
    f.breakdown = ⟨f.display :: f.causes.take 15, none⟩ := by
  have hbare : f.isBare = true := by
    cases f <;> first | rfl | cases hf
  have hmessage : f.message = f.display := by
    cases f <;> first | rfl | cases hf
  rw [breakdown, maxDepth, breakdownFrom_bare hbare, told, hmessage, if_pos hf]
  rfl

/-- The failure of another component with a text and causes. -/
def ofCauses (text : String) : Causes → Fault
  | .ending texts => .chain text texts
  | .endless texts => .endless fun
    | 0 => text
    | n + 1 => texts n

theorem isForeign_ofCauses (text : String) (c : Causes) : (ofCauses text c).isForeign = true := by
  cases c <;> rfl

theorem display_ofCauses (text : String) (c : Causes) : (ofCauses text c).display = text := by
  cases c <;> simp only [ofCauses, display]

theorem causes_ofCauses (text : String) (c : Causes) : (ofCauses text c).causes = c := by
  cases c <;> simp only [ofCauses, causes]

/-- **A breakdown is bounded**, whatever the failure is.  The walk follows sixteen layers at most, puts the name of no more
than one host function before a message, and gives the failure of a second one a layer of its own.  There are never more
than sixteen layers, and never more than seventeen for a failure before the script ran.  A failure of another component may
have any source, itself too: what is told are its text and those of the first fifteen causes along the walk. -/
theorem breakdown_bounded :
    (∀ e : Fault, e.Walked ∧ e.breakdown.layers.length ≤ 16) ∧ (∀ s : SetupError, s.layers.length ≤ 17) ∧
      ∀ (ε : Type) (source : ε → Option ε) (text : ε → String) (x : ε), ∃ f : Fault, f.display = text x ∧
        (∀ n, f.causes.take n = Causes.along source text n x) ∧
          f.breakdown = ⟨text x :: Causes.along source text 15 x, none⟩ := by
  refine ⟨fun e => ⟨e.walked, e.walked.length_layers_le⟩, SetupError.length_layers_le, ?_⟩
  intro ε source text x
  obtain ⟨c, hcauses⟩ := Causes.exists_along source text x
  refine ⟨ofCauses (text x) c, display_ofCauses _ c, ?_, ?_⟩
  · rw [causes_ofCauses]
    exact hcauses
  · rw [breakdown_of_isForeign (isForeign_ofCauses _ c), display_ofCauses, causes_ofCauses, hcauses]

/-- A failure that is its own cause fills the breakdown. -/
example : (Fault.endless fun _ => "loop").breakdown = ⟨List.replicate 16 "loop", none⟩ := by cbv

end Fault

end ScriptHost

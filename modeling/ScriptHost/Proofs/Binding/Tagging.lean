import ScriptHost.Proofs.Session.Nesting

/-!
# The name on a failure

When a host function fails, its name is put on the failure, unless that is recognised as the termination signal.  One looks
for the signal through sixteen layers and no more, and a name is a layer itself.  So a name, like any other layer, can
hide a signal and never bring one to light.

* **`isInterrupt_of_around`**, **`isInterrupt_of_under`** — what is recognised under layers is recognised without them;
* **`isInterrupt_tagged`** — a failure with a name on it is recognised exactly if it was before;
* **`tagged_keeps_kind`** — what a name does to a failure, and what any layers do to one that is not recognised.
-/

namespace ScriptHost.Fault

/-- A layer never brings the signal to light, as the signal lies one layer deeper under it. -/
theorem isInterrupt_of_around {l : Layer} {f : Fault} (h : (l.around f).isInterrupt = true) : f.isInterrupt = true := by
  rw [isInterrupt_iff] at h ⊢
  obtain ⟨k, hlayers, hk⟩ := h
  rw [Layer.layers?_around, Option.map_eq_some_iff] at hlayers
  obtain ⟨n, hn, rfl⟩ := hlayers
  exact ⟨n, hn, Nat.lt_of_succ_lt hk⟩

/-- **Nor do any number of layers.** -/
theorem isInterrupt_of_under (ls : List Layer) {f : Fault} (h : (under ls f).isInterrupt = true) : f.isInterrupt = true := by
  induction ls with
  | nil => exact h
  | cons l rest ih =>
    apply ih
    exact isInterrupt_of_around h

/-- Any other failure gets the name. -/
theorem tagged_of_not_isInterrupt {f : Fault} (h : f.isInterrupt = false) (function : String) :
    f.tagged function = .invocation function f := by
  rw [tagged, if_neg (by rw [h]; exact Bool.false_ne_true)]

/-- **A failure with a name on it is recognised exactly if it was before.** -/
theorem isInterrupt_tagged (f : Fault) (function : String) : (f.tagged function).isInterrupt = f.isInterrupt := by
  cases h : f.isInterrupt with
  | true => rw [tagged_of_isInterrupt h, h]
  | false =>
    rw [tagged_of_not_isInterrupt h, Bool.eq_false_iff]
    intro hnamed
    have hbefore := isInterrupt_of_around (l := .invocation function) hnamed
    rw [h] at hbefore
    exact Bool.false_ne_true hbefore

/-- **A name does not change what kind of failure it is on.**  The failure is recognised as the termination signal exactly if
it was before.  If it is, it has been left as it was; if not, the name is a layer around it.  And one that is not
recognised stays so under any layers of any kinds. -/
theorem tagged_keeps_kind (f : Fault) :
    (∀ function, (f.tagged function).isInterrupt = f.isInterrupt ∧
      (f.isInterrupt = true → f.tagged function = f) ∧
        (f.isInterrupt = false → f.tagged function = .invocation function f)) ∧
      (f.isInterrupt = false → ∀ ls, (under ls f).isInterrupt = false) := by
  refine ⟨fun function => ⟨f.isInterrupt_tagged function, ?_, ?_⟩, ?_⟩
  · intro h
    exact tagged_of_isInterrupt h function
  · intro h
    exact tagged_of_not_isInterrupt h function
  · intro h ls
    rw [Bool.eq_false_iff] at h ⊢
    intro hunder
    exact h (isInterrupt_of_under ls hunder)

/-- The signal under fifteen contexts is recognised and gets no name.  Under one more it is a failure like others: it gets
the name, and is not recognised any more wherever it goes. -/
theorem tagged_keeps_kind_hidden :
    let seen := under (List.replicate 15 (.context "saving")) .signal
    let hidden := under (List.replicate 16 (.context "saving")) .signal
    (seen.isInterrupt = true ∧ seen.tagged "save" = seen) ∧
      (hidden.isInterrupt = false ∧ hidden.tagged "save" = .invocation "save" hidden ∧
        (hidden.tagged "save").isInterrupt = false ∧
          (under [.callback "stack", .context "closing", .invocation "close"] hidden).isInterrupt = false) := by
  intro seen hidden
  have hseen : seen.isInterrupt = true := rfl
  have hhidden : hidden.isInterrupt = false := rfl
  obtain ⟨-, hleft, -⟩ := (tagged_keeps_kind seen).1 "save"
  obtain ⟨hname, hlayers⟩ := tagged_keeps_kind hidden
  obtain ⟨hsame, -, hnamed⟩ := hname "save"
  refine ⟨⟨hseen, hleft hseen⟩, hhidden, hnamed hhidden, ?_, hlayers hhidden _⟩
  rw [hsame, hhidden]

end ScriptHost.Fault

import ScriptHost.Proofs.Sharing.Ownership

/-!
# What sessions do to one another

Sessions that share a host leave each other's frames and channels alone.  The slots of the display are different: a
session keeps a list of the slots in which it showed something, and when it empties one of these it does not look at
what the slot shows by then.

* `Spared` — what a session holds, and what is in it, is the same in two states;
* **`act_spared`** — whatever one session does, the others are spared;
* **`act_isolation`** — and when a slot that shows a frame of another session goes on to show it;
* **`detachSlot_not_isolated`** — it does not always.
-/

namespace ScriptHost

variable {start s : Crowd} {i j : Nat}

/-- What a session holds is the same in two states: its own list of it, its frames with their pixels, and its channels
with what is waiting in them. -/
structure Spared (s : Crowd) (j : Nat) (t : Crowd) : Prop where
  session : t.session j = s.session j
  frames : ∀ k ∈ (s.session j).handles, t.host.renderer.frame? k = s.host.renderer.frame? k
  channels : ∀ name c, s.host.channels.find? name = some c → c.owner = j → t.host.channels.find? name = some c

/-- **One deed.**  Whatever one session does, what the others hold is the same afterwards. -/
theorem act_spared (h : Owned s) (hij : i ≠ j) (d : Deed) : Spared s j (s.act i d) where
  session := s.act_session_of_ne i d hij.symm
  frames k hk := by
    have hlive := (h.frames.live k).mpr ⟨j, hk⟩
    rcases d.frame?_run (s.session i) s.host (s.host.renderer.lt_size_of_frame?_isSome hlive) with hsame | ⟨hmine, _⟩
    · exact hsame
    · exact absurd hk (h.frames.disjoint i j hij k hmine)
  channels name c hc howner := by
    rcases d.find?_run (s.session i) s.host hc with hsame | ⟨hmine, _⟩
    · exact hsame
    · rw [howner, h.id] at hmine
      exact absurd hmine.symm hij

/-- **Isolation.**  In all that can come about on a host that sessions start with nothing on: what a session does spares
every other session.  If it shows no frame, it brings nothing new into a slot; and a slot that shows a frame of another
session goes on to show it exactly if the session does not empty this slot, which it does by detaching it or by giving
everything back if the slot is one that it lists. -/
theorem act_isolation (hstart : start.Fresh) (h : Reachable start s) (hij : i ≠ j)
    (hi : (s.session i).released = false) {d : Deed} (hd : d.isAttach = false) :
    Spared s j (s.act i d) ∧
    (∀ slot, (s.act i d).host.display.get slot = s.host.display.get slot ∨
      (s.act i d).host.display.get slot = none) ∧
    ∀ slot k, s.host.display.get slot = some k → k ∈ (s.session j).handles →
      ((s.act i d).host.display.get slot = some k ↔ ¬ d.Clears (s.session i) slot) := by
  have howned := owned_of_reachable hstart h
  refine ⟨act_spared howned hij d, fun slot => d.get_run_of_not_isAttach _ _ hd slot, ?_⟩
  intro slot k hshown hk
  exact d.get_run_iff _ _ hi hd hshown fun hmine => howned.frames.disjoint i j hij k hmine hk

theorem act_isolation_overlaid :
    Reachable emptyCrowd overlaid ∧ overlaid.host.display.get 0 = some 1 ∧
      (overlaid.act 0 (.releaseFrame 0)).host.display.get 0 = some 1 :=
  ⟨overlaid_reachable, by decide +kernel,
    ((act_isolation emptyCrowd_fresh overlaid_reachable (show 0 ≠ 1 by decide) (by decide +kernel)
      (d := .releaseFrame 0) rfl).2.2 0 1 (by decide +kernel) (by decide +kernel)).mpr id⟩

/-- **The slots are not isolated.**  The slot shows the frame of the second session; the first session detaches it, or
gives everything back, and the slot is empty. -/
theorem detachSlot_not_isolated :
    Reachable emptyCrowd overlaid ∧ (overlaid.session 0).released = false ∧
      overlaid.host.display.get 0 = some 1 ∧ 1 ∈ (overlaid.session 1).handles ∧
      (overlaid.act 0 (.detachSlot 0)).host.display.get 0 = none ∧
      (overlaid.act 0 .release).host.display.get 0 = none :=
  ⟨overlaid_reachable, by decide +kernel⟩

end ScriptHost

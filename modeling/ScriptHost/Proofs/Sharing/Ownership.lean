import ScriptHost.Proofs.Sharing.Crowd

/-!
# Who owns what on a host

However many sessions share a host, and in whatever order they make and give back what they use, everything on the host
has one owner:

* `FramesOwned` — every frame of the renderer is in the pool of one session, once;
* `ChannelsOwned` — a session lists exactly the channels that are registered to it;
* `SlotsOwned` — a slot shows only frames of a session that lists the slot;
* `Owned` — all of this, and sessions that were released hold nothing;
* **`owned_act`** — whatever one session does, this stays so;
* **`reachable_owned`** — so it holds of all that can come about, and what a session has given back stays given back.

That no slot shows a frame that is gone does not follow from the list of slots of one session alone: sessions show their
frames over those of others, and ending a frame clears only the slots that its own session lists.  It is enough that the
session whose frame is shown lists the slot, for frames are in one pool only.  Frames are lost by `FramesOwned.lose` and
come by `FramesOwned.gain`, and the same for channels; each deed is one of these, or changes slots only.
-/

namespace ScriptHost

/-- The session that a channel is registered to. -/
def Host.routeOwner (h : Host) (name : String) : Option Nat := (h.channels.find? name).map Channel.owner

/-- Every frame is in the pool of one session, once. -/
structure FramesOwned (s : Crowd) : Prop where
  nodup : ∀ i, (s.session i).handles.Nodup
  disjoint : ∀ i j, i ≠ j → ∀ k ∈ (s.session i).handles, k ∉ (s.session j).handles
  live : ∀ k, (s.host.renderer.frame? k).isSome = true ↔ ∃ i, k ∈ (s.session i).handles

/-- A session lists exactly the channels that are registered to it, each once. -/
structure ChannelsOwned (s : Crowd) : Prop where
  nodup : ∀ i, (s.session i).channels.Nodup
  owner : ∀ i name, name ∈ (s.session i).channels ↔ s.host.routeOwner name = some i

/-- A slot shows only frames of a session that lists the slot. -/
def SlotsOwned (s : Crowd) : Prop :=
  ∀ slot k, s.host.display.get slot = some k → ∃ i, k ∈ (s.session i).handles ∧ slot ∈ (s.session i).slots

/-- Everything on the host has one owner, and sessions that were released hold nothing. -/
structure Owned (s : Crowd) : Prop where
  id : ∀ i, (s.session i).id = i
  frames : FramesOwned s
  channels : ChannelsOwned s
  slots : SlotsOwned s
  released : ∀ i, (s.session i).released = true →
    (s.session i).handles = [] ∧ (s.session i).channels = [] ∧ (s.session i).slots = []

variable {s t : Crowd} {i : Nat}

/-! ### Frames -/

/-- A session gets a frame that nobody had. -/
theorem FramesOwned.gain (h : FramesOwned s) {k₀ : Nat} (hdead : s.host.renderer.frame? k₀ = none)
    (hother : ∀ j, j ≠ i → (t.session j).handles = (s.session j).handles)
    (hown : (t.session i).handles.Perm (k₀ :: (s.session i).handles))
    (hlive : ∀ k, (t.host.renderer.frame? k).isSome = true ↔ k = k₀ ∨ (s.host.renderer.frame? k).isSome = true) :
    FramesOwned t := by
  have hnobody : ∀ j, k₀ ∉ (s.session j).handles := by
    intro j hj
    have := (h.live k₀).mpr ⟨j, hj⟩
    rw [hdead] at this
    cases this
  have hmem : ∀ j k, k ∈ (t.session j).handles ↔ (j = i ∧ k = k₀) ∨ k ∈ (s.session j).handles := by
    intro j k
    by_cases hj : j = i
    · subst hj
      rw [hown.mem_iff, List.mem_cons]
      simp
    · rw [hother j hj]
      simp [hj]
  refine ⟨fun j => ?_, ?_, fun k => ?_⟩
  · by_cases hj : j = i
    · subst hj
      exact hown.nodup_iff.mpr (List.nodup_cons.mpr ⟨hnobody j, h.nodup j⟩)
    · rw [hother j hj]
      exact h.nodup j
  · intro a b hab k ha hb
    rcases (hmem a k).mp ha with ⟨rfl, rfl⟩ | ha
    · rcases (hmem b k).mp hb with ⟨hbi, _⟩ | hb
      · exact hab hbi.symm
      · exact hnobody b hb
    · rcases (hmem b k).mp hb with ⟨_, rfl⟩ | hb
      · exact hnobody a ha
      · exact h.disjoint a b hab k ha hb
  · rw [hlive, h.live]
    constructor
    · rintro (rfl | ⟨j, hj⟩)
      · exact ⟨i, (hmem i k).mpr (.inl ⟨rfl, rfl⟩)⟩
      · exact ⟨j, (hmem j k).mpr (.inr hj)⟩
    · rintro ⟨j, hj⟩
      rcases (hmem j k).mp hj with ⟨_, rfl⟩ | hj
      · exact .inl rfl
      · exact .inr ⟨j, hj⟩

/-- A session loses some of its frames, and these are gone. -/
theorem FramesOwned.lose (h : FramesOwned s) (gone : List Nat)
    (hother : ∀ j, j ≠ i → (t.session j).handles = (s.session j).handles)
    (hown : (s.session i).handles.Perm (gone ++ (t.session i).handles))
    (hlive : ∀ k, (t.host.renderer.frame? k).isSome = true ↔ k ∉ gone ∧ (s.host.renderer.frame? k).isSome = true) :
    FramesOwned t := by
  have hnodup := hown.nodup_iff.mp (h.nodup i)
  have hgone : ∀ k ∈ gone, k ∈ (s.session i).handles := fun k hk => hown.mem_iff.mpr (List.mem_append_left _ hk)
  have hmem : ∀ j k, k ∈ (t.session j).handles ↔ k ∈ (s.session j).handles ∧ k ∉ gone := by
    intro j k
    by_cases hj : j = i
    · subst hj
      rw [hown.mem_iff, List.mem_append]
      have hdisjoint := (List.nodup_append.mp hnodup).2.2
      constructor
      · exact fun hk => ⟨.inr hk, fun hgone => hdisjoint k hgone k hk rfl⟩
      · exact fun ⟨hk, hnot⟩ => hk.resolve_left hnot
    · rw [hother j hj]
      exact ⟨fun hk => ⟨hk, fun hkg => h.disjoint j i hj k hk (hgone k hkg)⟩, fun hk => hk.1⟩
  refine ⟨fun j => ?_, ?_, fun k => ?_⟩
  · by_cases hj : j = i
    · subst hj
      exact (List.nodup_append.mp hnodup).2.1
    · rw [hother j hj]
      exact h.nodup j
  · exact fun a b hab k ha hb => h.disjoint a b hab k ((hmem a k).mp ha).1 ((hmem b k).mp hb).1
  · rw [hlive, h.live]
    constructor
    · rintro ⟨hk, j, hj⟩
      exact ⟨j, (hmem j k).mpr ⟨hj, hk⟩⟩
    · rintro ⟨j, hj⟩
      exact ⟨((hmem j k).mp hj).2, j, ((hmem j k).mp hj).1⟩

/-- Nothing happens to the frames. -/
theorem FramesOwned.same (h : FramesOwned s) (hown : ∀ j, (t.session j).handles = (s.session j).handles)
    (hlive : ∀ k, (t.host.renderer.frame? k).isSome = (s.host.renderer.frame? k).isSome) : FramesOwned t :=
  h.lose (i := 0) [] (fun j _ => hown j) (by rw [hown 0]; exact .refl _) (fun k => by simp [hlive k])

/-! ### Channels -/

/-- A session gets a channel that nobody had. -/
theorem ChannelsOwned.gain (h : ChannelsOwned s) {name₀ : String} (hfree : s.host.routeOwner name₀ = none)
    (hother : ∀ j, j ≠ i → (t.session j).channels = (s.session j).channels)
    (hown : (t.session i).channels = (s.session i).channels ++ [name₀])
    (howner : ∀ name, t.host.routeOwner name = if name = name₀ then some i else s.host.routeOwner name) :
    ChannelsOwned t := by
  have hnobody : ∀ j, name₀ ∉ (s.session j).channels := by
    intro j hj
    have := (h.owner j name₀).mp hj
    rw [hfree] at this
    cases this
  constructor
  · intro j
    by_cases hj : j = i
    · subst hj
      rw [hown]
      refine List.nodup_append.mpr ⟨h.nodup j, by simp, ?_⟩
      intro a ha b hb
      rw [List.mem_singleton] at hb
      exact fun hab => hnobody j (by rwa [← hb, ← hab])
    · rw [hother j hj]
      exact h.nodup j
  · intro j name
    rw [howner]
    by_cases hname : name = name₀
    · subst hname
      rw [if_pos rfl]
      by_cases hj : j = i
      · subst hj
        simp [hown]
      · rw [hother j hj]
        exact ⟨fun hmem => absurd hmem (hnobody j), fun heq => absurd (Option.some.inj heq).symm hj⟩
    · rw [if_neg hname, ← h.owner]
      by_cases hj : j = i
      · subst hj
        simp [hown, hname]
      · rw [hother j hj]

/-- A session loses some of its channels, and these are gone. -/
theorem ChannelsOwned.lose (h : ChannelsOwned s) (gone : List String)
    (hother : ∀ j, j ≠ i → (t.session j).channels = (s.session j).channels)
    (hown : (s.session i).channels.Perm (gone ++ (t.session i).channels))
    (howner : ∀ name, t.host.routeOwner name = if name ∈ gone then none else s.host.routeOwner name) :
    ChannelsOwned t := by
  have hnodup := List.nodup_append.mp (hown.nodup_iff.mp (h.nodup i))
  constructor
  · intro j
    by_cases hj : j = i
    · subst hj
      exact hnodup.2.1
    · rw [hother j hj]
      exact h.nodup j
  · intro j name
    rw [howner]
    by_cases hgone : name ∈ gone
    · rw [if_pos hgone]
      have hmine : s.host.routeOwner name = some i :=
        (h.owner i name).mp (hown.mem_iff.mpr (List.mem_append_left _ hgone))
      refine ⟨fun hmem => ?_, fun heq => by cases heq⟩
      by_cases hj : j = i
      · subst hj
        exact absurd rfl (hnodup.2.2 name hgone name hmem)
      · rw [hother j hj, h.owner, hmine] at hmem
        exact absurd (Option.some.inj hmem).symm hj
    · rw [if_neg hgone, ← h.owner]
      by_cases hj : j = i
      · subst hj
        rw [hown.mem_iff, List.mem_append]
        exact ⟨.inr, fun hmem => hmem.resolve_left hgone⟩
      · rw [hother j hj]

/-- Nothing happens to the channels. -/
theorem ChannelsOwned.same (h : ChannelsOwned s) (hown : ∀ j, (t.session j).channels = (s.session j).channels)
    (howner : ∀ name, t.host.routeOwner name = s.host.routeOwner name) : ChannelsOwned t :=
  h.lose (i := 0) [] (fun j _ => hown j) (by rw [hown 0]; exact .refl _) (fun name => by simp [howner name])

/-! ### Slots -/

/-- One session acts.  What a slot shows afterwards it showed before, and the session has not given up both the frame
and the slot, or the session shows it now. -/
theorem SlotsOwned.step (h : SlotsOwned s) (hother : ∀ j, j ≠ i → t.session j = s.session j)
    (hown : ∀ slot k, t.host.display.get slot = some k →
      (s.host.display.get slot = some k ∧
        (k ∈ (s.session i).handles → slot ∈ (s.session i).slots →
          k ∈ (t.session i).handles ∧ slot ∈ (t.session i).slots)) ∨
      (k ∈ (t.session i).handles ∧ slot ∈ (t.session i).slots)) : SlotsOwned t := by
  intro slot k hshown
  rcases hown slot k hshown with ⟨hbefore, hkept⟩ | hnow
  · obtain ⟨j, hk, hslot⟩ := h slot k hbefore
    by_cases hj : j = i
    · subst hj
      exact ⟨j, hkept hk hslot⟩
    · exact ⟨j, by rw [hother j hj]; exact ⟨hk, hslot⟩⟩
  · exact ⟨i, hnow⟩

/-! ### Deeds -/

section
variable {d : Deed}

/-- What a session that acts has to keep. -/
theorem Owned.act (h : Owned s) (frames : FramesOwned (s.act i d)) (channels : ChannelsOwned (s.act i d))
    (slots : SlotsOwned (s.act i d))
    (released : ((s.act i d).session i).released = true →
      ((s.act i d).session i).handles = [] ∧ ((s.act i d).session i).channels = [] ∧
        ((s.act i d).session i).slots = []) : Owned (s.act i d) := by
  refine ⟨fun j => ?_, frames, channels, slots, fun j hj => ?_⟩
  · by_cases hji : j = i
    · subst hji
      rw [s.act_session_self j d, (d.run_id_released _ _).1, h.id]
    · rw [s.act_session_of_ne i d hji, h.id]
  · by_cases hji : j = i
    · subst hji
      exact released hj
    · rw [s.act_session_of_ne i d hji] at hj ⊢
      exact h.released j hj

/-- A session that does not release its resources is not released by what it does. -/
theorem not_released_act (hi : (s.session i).released = false) (hd : d ≠ .release) {p : Prop} :
    ((s.act i d).session i).released = true → p := by
  rw [s.act_session_self, (d.run_id_released _ _).2 hd, hi]
  exact fun h => by cases h

theorem act_other (s : Crowd) (i : Nat) (d : Deed) {α : Type} (f : Resources → α) (j : Nat) (hj : j ≠ i) :
    f ((s.act i d).session j) = f (s.session j) := by
  rw [s.act_session_of_ne i d hj]

/-- If a deed leaves a part of what its session holds as it is, no session's part changes. -/
theorem act_all (s : Crowd) (i : Nat) (d : Deed) {α : Type} (f : Resources → α)
    (hown : f ((s.act i d).session i) = f (s.session i)) (j : Nat) :
    f ((s.act i d).session j) = f (s.session j) := by
  by_cases hj : j = i
  · subst hj
    exact hown
  · exact act_other s i d f j hj

/-- If a deed leaves the display as it is and its session loses no frame and no slot, nothing changes for the slots. -/
theorem SlotsOwned.keep (h : SlotsOwned s)
    (hshown : ∀ slot, (s.act i d).host.display.get slot = s.host.display.get slot)
    (hhandles : ∀ k ∈ (s.session i).handles, k ∈ ((s.act i d).session i).handles)
    (hslots : ((s.act i d).session i).slots = (s.session i).slots) : SlotsOwned (s.act i d) := by
  refine h.step (fun j hj => s.act_session_of_ne i d hj) fun slot k hk => .inl ⟨by rw [← hshown, hk], ?_⟩
  intro hmem hslot
  exact ⟨hhandles k hmem, by rwa [hslots]⟩

end

theorem owned_createFrame (h : Owned s) (hi : (s.session i).released = false) (width height : Nat) :
    Owned (s.act i (.createFrame width height)) := by
  rcases (s.session i).createFrame_cases s.host width height with ⟨_, _, hrun⟩ | ⟨_, _, hrun⟩
  · rw [Crowd.act_of_refused (d := .createFrame width height) hrun]
    exact h
  · obtain ⟨hself, hhost⟩ := Crowd.act_of_run (d := .createFrame width height) hrun
    have hperm : ((s.act i (.createFrame width height)).session i).handles.Perm
        (s.host.renderer.frames.size :: (s.session i).handles) := by
      rw [hself]
      exact FramePool.handles_insert_perm _ _
    refine h.act ?_ ?_ ?_ (not_released_act hi (by simp))
    · refine h.frames.gain (s.host.renderer.frame?_eq_none_of_size_le (Nat.le_refl _))
        (act_other s i _ Resources.handles) hperm fun k => ?_
      rw [hhost, Renderer.frame?_create]
      by_cases hk : k = s.host.renderer.frames.size <;> simp [hk]
    · exact h.channels.same (act_all s i _ Resources.channels (by rw [hself]))
        fun name => by rw [hhost]; rfl
    · exact h.slots.keep (fun slot => by rw [hhost]) (fun k hk => hperm.mem_iff.mpr (List.mem_cons_of_mem _ hk))
        (by rw [hself])

theorem owned_releaseFrame (h : Owned s) (hi : (s.session i).released = false) (id : Nat) :
    Owned (s.act i (.releaseFrame id)) := by
  rcases (s.session i).releaseFrame_cases s.host id with hrun | ⟨k₀, frames, hremove, hrun⟩
  · rw [Crowd.act_of_refused (d := .releaseFrame id) hrun]
    exact h
  · obtain ⟨hself, hhost⟩ := Crowd.act_of_run (d := .releaseFrame id) hrun
    have hperm : (s.session i).handles.Perm ([k₀] ++ ((s.act i (.releaseFrame id)).session i).handles) := by
      rw [hself]
      exact FramePool.handles_remove_perm hremove
    refine h.act ?_ ?_ ?_ (not_released_act hi (by simp))
    · refine h.frames.lose [k₀] (act_other s i _ Resources.handles) hperm fun k => ?_
      rw [hhost, Renderer.frame?_release]
      by_cases hk : k = k₀ <;> simp [hk]
    · exact h.channels.same (act_all s i _ Resources.channels (by rw [hself]))
        fun name => by rw [hhost]; rfl
    · -- a slot of the session that showed the frame is cleared, and no other slot can have shown it
      refine h.slots.step (fun j hj => s.act_session_of_ne i _ hj) fun slot k hk => .inl ?_
      rw [hhost, Resources.get_hide] at hk
      by_cases hcleared : slot ∈ (s.session i).slots ∧ s.host.display.get slot = some k₀
      · rw [if_pos hcleared] at hk
        cases hk
      · rw [if_neg hcleared] at hk
        refine ⟨hk, fun hmem hslot => ⟨?_, by rwa [hself]⟩⟩
        refine (List.mem_append.mp (hperm.mem_iff.mp hmem)).resolve_left fun hgone => ?_
        rw [List.mem_singleton] at hgone
        exact hcleared ⟨hslot, by rw [hk, hgone]⟩

theorem owned_registerChannel (h : Owned s) (hi : (s.session i).released = false) (name₀ : String) :
    Owned (s.act i (.registerChannel name₀)) := by
  rcases (s.session i).registerChannel_cases s.host name₀ with hrun | ⟨hall, hrun⟩
  · rw [Crowd.act_of_refused (d := .registerChannel name₀) hrun]
    exact h
  · obtain ⟨hself, hhost⟩ := Crowd.act_of_run (d := .registerChannel name₀) hrun
    have howner : ∀ name, (s.act i (.registerChannel name₀)).host.routeOwner name
        = if name = name₀ then some i else s.host.routeOwner name := by
      intro name
      rw [hhost]
      show ((s.host.channels.register name₀ (s.session i).id).2.find? name).map _ = _
      rw [Channels.find?_register]
      by_cases hname : name = name₀
      · rw [if_pos hname, if_pos hname, h.id]
        cases hfind : s.host.channels.find? name₀ with
        | none => rfl
        | some c =>
          rw [hfind, h.id] at hall
          exact congrArg some (by simpa using hall)
      · rw [if_neg hname, if_neg hname]
        rfl
    have hrest : ((s.act i (.registerChannel name₀)).session i).handles = (s.session i).handles ∧
        ((s.act i (.registerChannel name₀)).session i).slots = (s.session i).slots := by
      rw [hself]
      split <;> exact ⟨rfl, rfl⟩
    refine h.act ?_ ?_ ?_ (not_released_act hi (by simp))
    · exact h.frames.same (act_all s i _ Resources.handles hrest.1) fun k => by rw [hhost]
    · by_cases hlisted : name₀ ∈ (s.session i).channels
      · refine h.channels.same (act_all s i _ Resources.channels ?_) fun name => ?_
        · rw [hself, if_pos (List.contains_iff_mem.mpr hlisted)]
        · rw [howner]
          by_cases hname : name = name₀
          · rw [if_pos hname, hname, (h.channels.owner i name₀).mp hlisted]
          · rw [if_neg hname]
      · refine h.channels.gain ?_ (act_other s i _ Resources.channels) ?_ howner
        · -- the channel is nobody's: it could only be the session's own, but then it would be listed
          rw [Host.routeOwner]
          cases hfind : s.host.channels.find? name₀ with
          | none => rfl
          | some c =>
            rw [hfind, h.id] at hall
            refine absurd ((h.channels.owner i name₀).mpr ?_) hlisted
            rw [Host.routeOwner, hfind]
            exact congrArg some (by simpa using hall)
        · rw [hself, if_neg (fun hcontains => hlisted (List.contains_iff_mem.mp hcontains))]
    · exact h.slots.keep (fun slot => by rw [hhost]) (fun k hk => by rwa [hrest.1]) hrest.2

/-- What is registered after a session unregistered channels that it lists. -/
theorem routeOwner_of_unregistered (h : Owned s) {k : Host} {gone : List String}
    (hgone : ∀ name ∈ gone, name ∈ (s.session i).channels)
    (hk : ∀ name, k.channels.find? name
      = if name ∈ gone then (s.host.channels.find? name).filter (fun c => c.owner != (s.session i).id)
        else s.host.channels.find? name) (name : String) :
    k.routeOwner name = if name ∈ gone then none else s.host.routeOwner name := by
  rw [Host.routeOwner, hk]
  by_cases hname : name ∈ gone
  · rw [if_pos hname, if_pos hname, h.id]
    have hmine := (h.channels.owner i name).mp (hgone name hname)
    rw [Host.routeOwner] at hmine
    obtain ⟨c, hfind, hc⟩ := Option.map_eq_some_iff.mp hmine
    rw [hfind, Option.filter_some, if_neg (by simp [hc])]
    rfl
  · rw [if_neg hname, if_neg hname]
    rfl

theorem owned_unregisterChannel (h : Owned s) (hi : (s.session i).released = false) (name₀ : String) :
    Owned (s.act i (.unregisterChannel name₀)) := by
  rcases (s.session i).unregisterChannel_cases s.host name₀ with hrun | ⟨hlisted, hrun⟩
  · rw [Crowd.act_of_refused (d := .unregisterChannel name₀) hrun]
    exact h
  · obtain ⟨hself, hhost⟩ := Crowd.act_of_run (d := .unregisterChannel name₀) hrun
    refine h.act ?_ ?_ ?_ (not_released_act hi (by simp))
    · exact h.frames.same (act_all s i _ Resources.handles (by rw [hself])) fun k => by rw [hhost]
    · refine h.channels.lose [name₀] (act_other s i _ Resources.channels) ?_ ?_
      · rw [hself]
        exact List.perm_cons_erase hlisted
      · refine routeOwner_of_unregistered h (by simpa using hlisted) fun name => ?_
        rw [hhost, Channels.find?_unregister]
        simp
    · exact h.slots.keep (fun slot => by rw [hhost]) (fun k hk => by rw [hself]; exact hk) (by rw [hself])

theorem owned_attachSlot (h : Owned s) (hi : (s.session i).released = false) (slot₀ frame : Nat) :
    Owned (s.act i (.attachSlot slot₀ frame)) := by
  rcases (s.session i).attachSlot_cases s.host slot₀ frame with hrun | ⟨k₀, hget, hrun⟩
  · rw [Crowd.act_of_refused (d := .attachSlot slot₀ frame) hrun]
    exact h
  · obtain ⟨hself, hhost⟩ := Crowd.act_of_run (d := .attachSlot slot₀ frame) hrun
    have hrest : ((s.act i (.attachSlot slot₀ frame)).session i).handles = (s.session i).handles ∧
        ((s.act i (.attachSlot slot₀ frame)).session i).channels = (s.session i).channels ∧
        ∀ slot, slot ∈ ((s.act i (.attachSlot slot₀ frame)).session i).slots
          ↔ slot = slot₀ ∨ slot ∈ (s.session i).slots := by
      rw [hself]
      split
      · rename_i hcontains
        refine ⟨rfl, rfl, fun slot => ⟨.inr, ?_⟩⟩
        rintro (rfl | hslot)
        · exact List.contains_iff_mem.mp hcontains
        · exact hslot
      · exact ⟨rfl, rfl, fun slot => by simp [or_comm]⟩
    refine h.act ?_ ?_ ?_ (not_released_act hi (by simp))
    · exact h.frames.same (act_all s i _ Resources.handles hrest.1) fun k => by rw [hhost]
    · exact h.channels.same (act_all s i _ Resources.channels hrest.2.1) fun name => by rw [hhost]; rfl
    · refine h.slots.step (fun j hj => s.act_session_of_ne i _ hj) fun slot k hk => ?_
      rw [hhost, Display.get_set] at hk
      by_cases hslot : slot = slot₀ ∧ slot₀ < 8
      · rw [if_pos hslot] at hk
        cases hk
        refine .inr ⟨?_, (hrest.2.2 slot).mpr (.inl hslot.1)⟩
        rw [hrest.1]
        exact FramePool.mem_handles_of_get? _ hget
      · rw [if_neg hslot] at hk
        exact .inl ⟨hk, fun hmem hlisted => ⟨by rwa [hrest.1], (hrest.2.2 slot).mpr (.inr hlisted)⟩⟩

theorem owned_detachSlot (h : Owned s) (hi : (s.session i).released = false) (slot₀ : Nat) :
    Owned (s.act i (.detachSlot slot₀)) := by
  rcases (s.session i).detachSlot_cases s.host slot₀ with ⟨_, hrun⟩ | ⟨_, hrun⟩
  · rw [Crowd.act_of_refused (d := .detachSlot slot₀) hrun]
    exact h
  · obtain ⟨hself, hhost⟩ := Crowd.act_of_run (d := .detachSlot slot₀) hrun
    refine h.act ?_ ?_ ?_ (not_released_act hi (by simp))
    · exact h.frames.same (act_all s i _ Resources.handles (by rw [hself])) fun k => by rw [hhost]
    · exact h.channels.same (act_all s i _ Resources.channels (by rw [hself])) fun name => by rw [hhost]; rfl
    · refine h.slots.step (fun j hj => s.act_session_of_ne i _ hj) fun slot k hk => .inl ?_
      rw [hhost, Display.get_set_none] at hk
      by_cases hslot : slot = slot₀
      · rw [if_pos hslot] at hk
        cases hk
      · rw [if_neg hslot] at hk
        refine ⟨hk, fun hmem hlisted => ?_⟩
        rw [hself]
        exact ⟨hmem, (List.mem_erase_of_ne hslot).mpr hlisted⟩

theorem owned_release (h : Owned s) (hi : (s.session i).released = false) : Owned (s.act i .release) := by
  obtain ⟨hself, hhost⟩ := Crowd.act_of_run (d := .release) (congrArg Prod.snd (Resources.release_eq _ s.host hi))
  obtain ⟨hrenderer, hchannels, hdisplay⟩ := (s.session i).freed_tables s.host
  have hempty : ((s.act i .release).session i).handles = [] ∧ ((s.act i .release).session i).channels = [] ∧
      ((s.act i .release).session i).slots = [] := by
    rw [hself]
    exact ⟨rfl, rfl, rfl⟩
  refine h.act ?_ ?_ ?_ fun _ => hempty
  · refine h.frames.lose (s.session i).handles (act_other s i _ Resources.handles) ?_ fun k => ?_
    · rw [hempty.1, List.append_nil]
    · rw [hhost, hrenderer, Renderer.frame?_foldl_release]
      by_cases hk : k ∈ (s.session i).handles <;> simp [hk]
  · refine h.channels.lose (s.session i).channels (act_other s i _ Resources.channels) ?_ ?_
    · rw [hempty.2.1, List.append_nil]
    · refine routeOwner_of_unregistered h (fun _ hname => hname) fun name => ?_
      rw [hhost, hchannels, Channels.find?_foldl_unregister]
  · refine h.slots.step (fun j hj => s.act_session_of_ne i _ hj) fun slot k hk => .inl ?_
    rw [hhost, hdisplay, Display.get_foldl_clear] at hk
    by_cases hslot : slot ∈ (s.session i).slots
    · rw [if_pos hslot] at hk
      cases hk
    · rw [if_neg hslot] at hk
      exact ⟨hk, fun _ hlisted => absurd hlisted hslot⟩

/-- **One deed.**  Whatever one session does, everything on the host keeps having one owner. -/
theorem owned_act (h : Owned s) (hi : (s.session i).released = false) : ∀ d, Owned (s.act i d)
  | .createFrame width height => owned_createFrame h hi width height
  | .releaseFrame id => owned_releaseFrame h hi id
  | .registerChannel name => owned_registerChannel h hi name
  | .unregisterChannel name => owned_unregisterChannel h hi name
  | .attachSlot slot frame => owned_attachSlot h hi slot frame
  | .detachSlot slot => owned_detachSlot h hi slot
  | .release => owned_release h hi

/-! ### All that can come about -/

theorem owned_elsewhere (h : Owned s) {k : Host} (hk : Elsewhere s.host k) : Owned { s with host := k } where
  id := h.id
  frames := h.frames.same (fun _ => rfl) hk.frame?_isSome
  channels := h.channels.same (fun _ => rfl) hk.owner
  slots := h.slots.step (i := 0) (fun _ _ => rfl) fun slot f hshown => .inl
    ⟨by rw [← hk.shown]; exact hshown, fun hmem hslot => ⟨hmem, hslot⟩⟩
  released := h.released

theorem owned_fresh (h : s.Fresh) : Owned s := by
  have hnothing : ∀ i, (s.session i).handles = [] ∧ (s.session i).channels = [] ∧ (s.session i).slots = [] := by
    intro i
    rw [h.session i]
    exact ⟨rfl, rfl, rfl⟩
  refine ⟨fun i => by rw [h.session i], ⟨fun i => ?_, fun i j _ k hk => ?_, fun k => ?_⟩, ⟨fun i => ?_, fun i name => ?_⟩,
    fun slot k hshown => ?_, fun i _ => hnothing i⟩
  · rw [(hnothing i).1]
    exact List.nodup_nil
  · rw [(hnothing i).1] at hk
    cases hk
  · rw [h.renderer]
    constructor
    · intro hlive
      cases hlive
    · rintro ⟨i, hi⟩
      rw [(hnothing i).1] at hi
      cases hi
  · rw [(hnothing i).2.1]
    exact List.nodup_nil
  · rw [(hnothing i).2.1, Host.routeOwner, h.channels]
    constructor
    · intro hmem
      cases hmem
    · intro howner
      cases howner
  · rw [h.display] at hshown
    cases hshown

/-- **Everything on a host has one owner**, in every order in which sessions make, show and give back. -/
theorem owned_of_reachable {start : Crowd} (hstart : start.Fresh) (h : Reachable start s) : Owned s := by
  induction h with
  | start => exact owned_fresh hstart
  | deed _ i d hi ih => exact owned_act ih hi d
  | elsewhere _ hk ih => exact owned_elsewhere ih hk

/-! ### What is given back stays given back -/

/-- The number of a frame that was released. -/
def Renderer.IsSpent (r : Renderer) (k : Nat) : Prop := k < r.frames.size ∧ r.frame? k = none

/-- A deed does not bring back a frame that was released: new frames get new numbers. -/
theorem isSpent_run {h : Host} {k : Nat} (hk : h.renderer.IsSpent k) (r : Resources) (d : Deed) :
    (d.run r h).2.renderer.IsSpent k := by
  refine ⟨Nat.lt_of_lt_of_le hk.1 (d.size_run r h), ?_⟩
  rcases d.frame?_run r h hk.1 with hsame | ⟨_, hnone⟩
  · rw [hsame, hk.2]
  · exact hnone

/-- A frame that was released is gone for good. -/
theorem isSpent_of_reachable {k : Nat} (h : Reachable s t) (hk : s.host.renderer.IsSpent k) :
    t.host.renderer.IsSpent k := by
  induction h with
  | start => exact hk
  | deed _ _ d _ ih => exact isSpent_run ih _ d
  | elsewhere _ hk ih =>
    refine ⟨by rw [hk.size_frames]; exact ih.1, ?_⟩
    rw [← Option.not_isSome_iff_eq_none, hk.frame?_isSome, ih.2]
    decide

/-- A session that was released does nothing any more, so it stays released. -/
theorem released_of_reachable (h : Reachable s t) (hi : (s.session i).released = true) :
    (t.session i).released = true := by
  induction h with
  | start => exact hi
  | @deed u _ j d hj ih =>
    have hne : i ≠ j := by
      rintro rfl
      rw [ih] at hj
      cases hj
    rw [u.act_session_of_ne j d hne]
    exact ih
  | elsewhere _ _ ih => exact ih

/-- A session that gives everything back is released, and its frames are spent. -/
theorem spent_release (h : Owned s) (hi : (s.session i).released = false) :
    ((s.act i .release).session i).released = true ∧
      ∀ k ∈ (s.session i).handles, (s.act i .release).host.renderer.IsSpent k := by
  obtain ⟨hself, hhost⟩ := Crowd.act_of_run (d := .release) (congrArg Prod.snd (Resources.release_eq _ s.host hi))
  refine ⟨by rw [hself], fun k hk => ?_⟩
  rw [hhost, ((s.session i).freed_tables s.host).1]
  have hlive := (h.frames.live k).mpr ⟨i, hk⟩
  refine ⟨?_, ?_⟩
  · rw [Renderer.size_foldl_release]
    exact s.host.renderer.lt_size_of_frame?_isSome hlive
  · rw [Renderer.frame?_foldl_release, if_pos hk]

/-- Nothing of what a session held in one state is on the host in another. -/
structure GivenBack (s : Crowd) (i : Nat) (t : Crowd) : Prop where
  frames : ∀ k ∈ (s.session i).handles, t.host.renderer.frame? k = none
  slots : ∀ k ∈ (s.session i).handles, ∀ slot, t.host.display.get slot ≠ some k
  channels : ∀ name, t.host.routeOwner name ≠ some i

/-- **Ownership.**  In all that can come about on a host that sessions start with nothing on:

everything on the host has one owner (see `Owned`), and a slot that shows a frame shows one that is there, of a session
that was not released and lists the slot; and when a session is released, the answer counts the frames, the channels
and the slots that it held, and nothing of it is on the host, then or ever after. -/
theorem reachable_owned {start : Crowd} (hstart : start.Fresh) (h : Reachable start s) :
    Owned s ∧
    (∀ slot k, s.host.display.get slot = some k → (s.host.renderer.frame? k).isSome = true ∧
      ∃ i, (s.session i).released = false ∧ k ∈ (s.session i).handles ∧ slot ∈ (s.session i).slots) ∧
    ∀ i, (s.session i).released = false →
      ((s.session i).release s.host).1
        = some ⟨(s.session i).handles.length, (s.session i).channels.length, (s.session i).slots.length⟩ ∧
      ∀ t, Reachable (s.act i .release) t → GivenBack s i t := by
  have howned := owned_of_reachable hstart h
  refine ⟨howned, fun slot k hshown => ?_, fun i hi => ⟨?_, fun t ht => ?_⟩⟩
  · obtain ⟨i, hk, hslot⟩ := howned.slots slot k hshown
    refine ⟨(howned.frames.live k).mpr ⟨i, hk⟩, i, ?_, hk, hslot⟩
    cases hreleased : (s.session i).released with
    | false => rfl
    | true =>
      rw [(howned.released i hreleased).1] at hk
      cases hk
  · rw [Resources.release_eq _ s.host hi]
  · obtain ⟨hreleased, hspent⟩ := spent_release howned hi
    have howned' : Owned t := owned_of_reachable hstart ((h.deed i .release hi).trans ht)
    have hgone : ∀ k ∈ (s.session i).handles, t.host.renderer.frame? k = none :=
      fun k hk => (isSpent_of_reachable ht (hspent k hk)).2
    refine ⟨hgone, fun k hk slot hshown => ?_, fun name howner => ?_⟩
    · obtain ⟨j, hj, _⟩ := howned'.slots slot k hshown
      have hlive := (howned'.frames.live k).mpr ⟨j, hj⟩
      rw [hgone k hk] at hlive
      cases hlive
    · have hlisted := (howned'.channels.owner i name).mpr howner
      rw [(howned'.released i (released_of_reachable ht hreleased)).2.1] at hlisted
      cases hlisted

theorem reachable_owned_overlaid :
    Owned overlaid ∧ ((overlaid.session 0).release overlaid.host).1 = some ⟨1, 0, 1⟩ := by
  have h := reachable_owned emptyCrowd_fresh overlaid_reachable
  refine ⟨h.1, ?_⟩
  rw [(h.2.2 0 (by decide +kernel)).1]
  decide +kernel

end ScriptHost

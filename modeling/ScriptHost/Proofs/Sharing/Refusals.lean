import ScriptHost.Proofs.Sharing.Aftermath

/-!
# Requests that are refused

What a session asks for may be refused: the answer is then an error, or `false`.  Two requests take something off the
list of the session before they ask the host, a channel or a slot; were the host to refuse these, the list would have
lost what the host still has.  It never does, for what a session lists is there.

* `Deed.granted` — whether the answer to a deed is a grant;
* `Deed.Needs` — what it takes to be granted;
* `Resources.Backed` — what a session lists is there: its channels are registered to it, its slots exist;
* **`Deed.decided`** — with such lists a deed is granted if it has what it needs, and else it is refused and changes
  nothing;
* **`backed_of_stay`** — all sessions have such lists, whatever they did and in whatever order;
* **`refused_changes_nothing`** — so a refusal leaves all sessions and the host as they were.
-/

namespace ScriptHost

/-! ### Answers -/

namespace Deed

/-- A deed is granted: the answer is no error, not `false`, and for a release it is a summary. -/
def granted (r : Resources) (h : Host) : Deed → Bool
  | .createFrame width height => (r.createFrame h width height).1.isOk
  | .releaseFrame id => (r.releaseFrame h id).1
  | .registerChannel name => (r.registerChannel h name).1
  | .unregisterChannel name => (r.unregisterChannel h name).1
  | .attachSlot slot frame => (r.attachSlot h slot frame).1.isOk
  | .detachSlot slot => (r.detachSlot h slot).1
  | .release => (r.release h).1.isSome

/-- What it takes that a deed is granted. -/
def Needs (r : Resources) (h : Host) : Deed → Prop
  | .createFrame width height => r.frames.count < Resources.maxFrames ∧ width * height ≤ Resources.maxPixels
  | .releaseFrame id => (r.frames.get? id).isSome = true
  | .registerChannel name => ∀ owner, h.routeOwner name = some owner → owner = r.id
  | .unregisterChannel name => h.routeOwner name = some r.id
  | .attachSlot slot frame => (r.frames.get? frame).isSome = true ∧ slot < 8
  | .detachSlot slot => slot ∈ r.slots
  | .release => r.released = false

end Deed

/-- What a session lists is there: exactly the channels that are registered to it, and only slots that exist. -/
structure Resources.Backed (r : Resources) (h : Host) : Prop where
  channels : ∀ name, name ∈ r.channels ↔ h.routeOwner name = some r.id
  slots : ∀ slot ∈ r.slots, slot < 8

/-! ### The host's part of an answer -/

theorem Channels.unregister_fst (cs : Channels) (name : String) (owner : Nat) :
    (cs.unregister name owner).1 = ((cs.find? name).any fun c => c.owner == owner) := by
  rw [unregister]
  cases cs.find? name with
  | none => rfl
  | some c =>
    show (if c.owner == owner then _ else _ : Bool × Channels).1 = (c.owner == owner)
    cases c.owner == owner <;> rfl

theorem Display.set_fst (d : Display) (slot : Nat) (frame : Option Nat) :
    (d.set slot frame).1 = decide (slot < 8) := by
  rw [set]
  by_cases hslot : slot < 8
  · rw [dif_pos hslot, decide_eq_true hslot]
  · rw [dif_neg hslot, decide_eq_false hslot]

theorem Host.register_granted_iff (h : Host) (name : String) (id : Nat) :
    (h.channels.register name id).1 = true ↔ ∀ owner, h.routeOwner name = some owner → owner = id := by
  rw [h.channels.register_fst, routeOwner]
  cases h.channels.find? name <;> simp

theorem Host.unregister_granted_iff (h : Host) (name : String) (id : Nat) :
    (h.channels.unregister name id).1 = true ↔ h.routeOwner name = some id := by
  rw [h.channels.unregister_fst, routeOwner]
  cases h.channels.find? name <;> simp

/-! ### One deed -/

namespace Deed

variable {r : Resources} {h : Host}

/-- A deed is granted and has what it needs, or it is refused, lacks something and changes nothing. -/
def Decided (r : Resources) (h : Host) (d : Deed) : Prop :=
  d.granted r h = true ∧ d.Needs r h ∨ d.granted r h = false ∧ ¬ d.Needs r h ∧ d.run r h = (r, h)

theorem decided_createFrame (width height : Nat) : Decided r h (.createFrame width height) := by
  rcases r.createFrame_cases h width height with ⟨hnot, ⟨text, herror⟩, hrun⟩ | ⟨hfits, hok, -⟩
  · right
    refine ⟨?_, hnot, hrun⟩
    rw [granted, herror]
    rfl
  · left
    refine ⟨?_, hfits⟩
    rw [granted, hok]
    rfl

theorem decided_releaseFrame (id : Nat) : Decided r h (.releaseFrame id) := by
  rw [Decided, granted, Needs, run, Resources.releaseFrame, FramePool.remove]
  cases hget : r.frames.get? id with
  | none => exact .inr ⟨rfl, Bool.false_ne_true, rfl⟩
  | some handle => exact .inl ⟨rfl, rfl⟩

theorem decided_registerChannel (name : String) : Decided r h (.registerChannel name) := by
  have hiff := h.register_granted_iff name r.id
  rw [Decided, granted, Needs, ← hiff, run, Resources.registerChannel]
  cases h.channels.register name r.id with
  | mk done channels =>
    cases done with
    | false => exact .inr ⟨rfl, Bool.false_ne_true, rfl⟩
    | true => exact .inl ⟨rfl, rfl⟩

/-- A channel that is on the list is registered to the session, so that the host does not refuse to end it. -/
theorem decided_unregisterChannel (hbacked : r.Backed h) (name : String) : Decided r h (.unregisterChannel name) := by
  have hiff := h.unregister_granted_iff name r.id
  rw [Decided, granted, Needs, ← hbacked.channels, run, Resources.unregisterChannel]
  by_cases hlisted : name ∈ r.channels
  · rw [if_pos (List.contains_iff_mem.mpr hlisted)]
    left
    exact ⟨hiff.mpr ((hbacked.channels name).mp hlisted), hlisted⟩
  · rw [if_neg (fun hcontains => hlisted (List.contains_iff_mem.mp hcontains))]
    right
    exact ⟨rfl, hlisted, rfl⟩

theorem decided_attachSlot (slot frame : Nat) : Decided r h (.attachSlot slot frame) := by
  rw [Decided, granted, Needs, run, Resources.attachSlot]
  cases hget : r.frames.get? frame with
  | none =>
    right
    refine ⟨rfl, ?_, rfl⟩
    rintro ⟨hsome, -⟩
    cases hsome
  | some handle =>
    have hfst := h.display.set_fst slot (some handle)
    cases hset : h.display.set slot (some handle) with
    | mk done display =>
      rw [hset] at hfst
      simp only [hset]
      cases done with
      | false =>
        right
        refine ⟨rfl, ?_, rfl⟩
        rintro ⟨-, hlt⟩
        exact of_decide_eq_false hfst.symm hlt
      | true => exact .inl ⟨rfl, rfl, of_decide_eq_true hfst.symm⟩

/-- A slot that is on the list exists, so that the host does not refuse to clear it. -/
theorem decided_detachSlot (hbacked : r.Backed h) (slot : Nat) : Decided r h (.detachSlot slot) := by
  rw [Decided, granted, Needs, run, Resources.detachSlot]
  by_cases hlisted : slot ∈ r.slots
  · rw [if_pos (List.contains_iff_mem.mpr hlisted)]
    left
    refine ⟨?_, hlisted⟩
    show (h.display.set slot none).1 = true
    rw [h.display.set_fst, decide_eq_true (hbacked.slots slot hlisted)]
  · rw [if_neg (fun hcontains => hlisted (List.contains_iff_mem.mp hcontains))]
    right
    exact ⟨rfl, hlisted, rfl⟩

theorem decided_release : Decided r h .release := by
  rw [Decided, granted, Needs, run, Resources.release]
  cases hreleased : r.released with
  | false => exact .inl ⟨rfl, rfl⟩
  | true => exact .inr ⟨rfl, Bool.false_ne_true.symm, rfl⟩

/-- **One deed.**  Where the session's lists are backed, a deed is granted exactly if it has what it needs, and if it is
refused it changes nothing. -/
theorem decided (hbacked : r.Backed h) : ∀ d : Deed, Decided r h d
  | .createFrame width height => decided_createFrame width height
  | .releaseFrame id => decided_releaseFrame id
  | .registerChannel name => decided_registerChannel name
  | .unregisterChannel name => decided_unregisterChannel hbacked name
  | .attachSlot slot frame => decided_attachSlot slot frame
  | .detachSlot slot => decided_detachSlot hbacked slot
  | .release => decided_release

/-- A deed puts no slot on the session's list that does not exist. -/
theorem slots_run (r : Resources) (h : Host) (d : Deed) {slot : Nat} (hslot : slot ∈ (d.run r h).1.slots) :
    slot ∈ r.slots ∨ slot < 8 := by
  have heffect := d.run_effect r h
  generalize hrun : d.run r h = x at heffect hslot
  cases heffect with
  | refused => exact .inl hslot
  | created => exact .inl hslot
  | ended => exact .inl hslot
  | registered =>
    dsimp only at hslot
    split at hslot <;> exact .inl hslot
  | unregistered => exact .inl hslot
  | @attached n frame =>
    rcases decided_attachSlot (r := r) (h := h) n frame with ⟨-, -, hlt⟩ | ⟨-, -, hsame⟩
    · dsimp only at hslot
      split at hslot
      · exact .inl hslot
      · rcases List.mem_append.mp hslot with hold | hnew
        · exact .inl hold
        · rw [List.mem_singleton.mp hnew]
          exact .inr hlt
    · rw [← hrun, hsame] at hslot
      exact .inl hslot
  | detached => exact .inl (List.mem_of_mem_erase hslot)
  | released => cases hslot

end Deed

/-! ### All that can come about -/

variable {start s : Crowd} {k : Nat} {made : List Nat}

/-- Every slot that a session lists exists. -/
def SlotsExist (s : Crowd) : Prop := ∀ i, ∀ slot ∈ (s.session i).slots, slot < 8

theorem slotsExist_act (h : SlotsExist s) (i : Nat) (d : Deed) : SlotsExist (s.act i d) := by
  intro j slot hslot
  by_cases hj : j = i
  · subst hj
    rw [s.act_session_self] at hslot
    rcases d.slots_run _ _ hslot with hold | hlt
    · exact h j slot hold
    · exact hlt
  · rw [s.act_session_of_ne i d hj] at hslot
    exact h j slot hslot

theorem slotsExist_of_stay (hstart : start.Fresh) (h : Stay start k s made) : SlotsExist s := by
  induction h with
  | start =>
    intro i slot hslot
    rw [hstart.session i] at hslot
    cases hslot
  | deed _ d ih => exact slotsExist_act ih k d
  | hooks _ _ ih => exact ih
  | other _ _ d ih => exact slotsExist_act ih _ d
  | elsewhere _ _ ih => exact ih

/-- Whatever comes about, what a session lists is there. -/
theorem backed_of_stay (hstart : start.Fresh) (h : Stay start k s made) (i : Nat) : (s.session i).Backed s.host where
  channels := by
    have howned := owned_reopened_of_stay hstart h
    have hid : (s.session i).id = i := howned.id i
    rw [hid]
    exact howned.channels.owner i
  slots := slotsExist_of_stay hstart h i

/-- **A refusal changes nothing.**  In all that can come about on a host that sessions start with nothing on, whoever acts
and whenever, also after a release: what a session asks for is granted exactly if it has what it needs; and if it is
refused, all sessions and the whole host are as they were before. -/
theorem refused_changes_nothing (hstart : start.Fresh) (h : Stay start k s made) (i : Nat) (d : Deed) :
    (d.granted (s.session i) s.host = true ↔ d.Needs (s.session i) s.host) ∧
      (d.granted (s.session i) s.host = false → s.act i d = s) := by
  rcases d.decided (backed_of_stay hstart h i) with ⟨hgranted, hneeds⟩ | ⟨hrefused, hlacks, hrun⟩
  · refine ⟨iff_of_true hgranted hneeds, fun hrefused => ?_⟩
    rw [hgranted] at hrefused
    cases hrefused
  · refine ⟨iff_of_false (fun hgranted => ?_) hlacks, fun _ => Crowd.act_of_refused hrun⟩
    rw [hrefused] at hgranted
    cases hgranted

/-- Another session's channel can be neither registered nor ended. -/
theorem refused_changes_nothing_late :
    (Deed.registerChannel "late").granted (lateCrowd.session 1) lateCrowd.host = false ∧
      lateCrowd.act 1 (.registerChannel "late") = lateCrowd ∧
      lateCrowd.act 1 (.unregisterChannel "late") = lateCrowd ∧
      (Deed.unregisterChannel "late").Needs (lateCrowd.session 0) lateCrowd.host :=
  have hregister : (Deed.registerChannel "late").granted (lateCrowd.session 1) lateCrowd.host = false := by
    decide +kernel
  ⟨hregister, (refused_changes_nothing terminalCrowd_fresh stay_lateCrowd 1 _).2 hregister,
    (refused_changes_nothing terminalCrowd_fresh stay_lateCrowd 1 _).2 (by decide +kernel),
    (refused_changes_nothing terminalCrowd_fresh stay_lateCrowd 0 _).1.mp (by decide +kernel)⟩

end ScriptHost

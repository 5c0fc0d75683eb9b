import Mathlib.Logic.Function.Basic
import ScriptHost.Proofs.Session.Resources

/-!
# Many sessions and one host

The resources of all sessions, one under each number, and the host that they share.

* `Deed` — what a session may do with its resources;
* **`Deed.frame?_run`**, **`Deed.find?_run`**, **`Deed.get_run_iff`** — the most that a deed does to the frames, the
  channels and the slots of others;
* `Crowd`, `Crowd.act` — all sessions and their host, and what becomes of them when one session does something;
* `Elsewhere` — what else may happen to the host: drawing, messages, and anything that leaves the tables alone;
* `Reachable` — what can come about, in any order, as long as no session does anything after it was released;
* `overlaid` — two sessions that have shown their frames in one slot.
-/

namespace ScriptHost

/-- What a session may do with its resources. -/
inductive Deed where
  | createFrame (width height : Nat)
  | releaseFrame (id : Nat)
  | registerChannel (name : String)
  | unregisterChannel (name : String)
  | attachSlot (slot frame : Nat)
  | detachSlot (slot : Nat)
  | release
  deriving DecidableEq, Repr

namespace Deed

/-- What the session holds afterwards, and the host. -/
def run (r : Resources) (h : Host) : Deed → Resources × Host
  | .createFrame width height => (r.createFrame h width height).2
  | .releaseFrame id => (r.releaseFrame h id).2
  | .registerChannel name => (r.registerChannel h name).2
  | .unregisterChannel name => (r.unregisterChannel h name).2
  | .attachSlot slot frame => (r.attachSlot h slot frame).2
  | .detachSlot slot => (r.detachSlot h slot).2
  | .release => (r.release h).2

/-- A deed shows a frame in a slot. -/
def isAttach : Deed → Bool
  | .attachSlot .. => true
  | _ => false

/-- A deed empties a slot without a look at what it shows. -/
def Clears (d : Deed) (r : Resources) (slot : Nat) : Prop :=
  match d with
  | .detachSlot n => slot = n ∧ slot ∈ r.slots
  | .release => slot ∈ r.slots
  | _ => False

/-- All that a deed can come to. -/
inductive Effect (r : Resources) (h : Host) : Deed → Resources × Host → Prop
  /-- It changes nothing; and if it empties slots, that has been done. -/
  | refused (d : Deed) (hd : ∀ slot, d.Clears r slot → r.released = true) : Effect r h d (r, h)
  | created (width height : Nat) : Effect r h (.createFrame width height)
      ({ r with frames := (r.frames.insert h.renderer.frames.size).2 },
        { h with renderer := (h.renderer.create width height).2 })
  | ended {id handle : Nat} {frames : FramePool} (hremove : r.frames.remove id = (some handle, frames)) :
      Effect r h (.releaseFrame id) ({ r with frames },
        { h with display := Resources.hide h.display handle r.slots, renderer := h.renderer.release handle })
  | registered {name : String} (hfree : (h.channels.find? name).all (fun c => c.owner == r.id) = true) :
      Effect r h (.registerChannel name)
        (if r.channels.contains name then r else { r with channels := r.channels ++ [name] },
          { h with channels := (h.channels.register name r.id).2 })
  | unregistered {name : String} (hname : name ∈ r.channels) : Effect r h (.unregisterChannel name)
      ({ r with channels := r.channels.erase name }, { h with channels := (h.channels.unregister name r.id).2 })
  | attached {slot frame handle : Nat} (hget : r.frames.get? frame = some handle) :
      Effect r h (.attachSlot slot frame)
        (if r.slots.contains slot then r else { r with slots := r.slots ++ [slot] },
          { h with display := (h.display.set slot (some handle)).2 })
  | detached {slot : Nat} (hslot : slot ∈ r.slots) : Effect r h (.detachSlot slot)
      ({ r with slots := r.slots.erase slot }, { h with display := (h.display.set slot none).2 })
  | released (hr : r.released = false) : Effect r h .release
      ({ r with frames := {}, channels := [], slots := [], released := true }, r.freed h)

variable (r : Resources) (h : Host)

/-- **What a deed comes to.** -/
theorem run_effect (d : Deed) : Effect r h d (d.run r h) := by
  cases d with
  | createFrame width height =>
    rcases r.createFrame_cases h width height with ⟨_, _, hrun⟩ | ⟨_, _, hrun⟩ <;> rw [run, hrun]
    · exact .refused _ fun _ hclears => hclears.elim
    · exact .created width height
  | releaseFrame id =>
    rcases r.releaseFrame_cases h id with hrun | ⟨_, _, hremove, hrun⟩ <;> rw [run, hrun]
    · exact .refused _ fun _ hclears => hclears.elim
    · exact .ended hremove
  | registerChannel name =>
    rcases r.registerChannel_cases h name with hrun | ⟨hfree, hrun⟩ <;> rw [run, hrun]
    · exact .refused _ fun _ hclears => hclears.elim
    · exact .registered hfree
  | unregisterChannel name =>
    rcases r.unregisterChannel_cases h name with hrun | ⟨hname, hrun⟩ <;> rw [run, hrun]
    · exact .refused _ fun _ hclears => hclears.elim
    · exact .unregistered hname
  | attachSlot slot frame =>
    rcases r.attachSlot_cases h slot frame with hrun | ⟨_, hget, hrun⟩ <;> rw [run, hrun]
    · exact .refused _ fun _ hclears => hclears.elim
    · exact .attached hget
  | detachSlot slot =>
    rcases r.detachSlot_cases h slot with ⟨hslot, hrun⟩ | ⟨hslot, hrun⟩ <;> rw [run, hrun]
    · refine .refused _ ?_
      rintro _ ⟨rfl, hlisted⟩
      exact absurd hlisted hslot
    · exact .detached hslot
  | release =>
    cases hr : r.released with
    | true =>
      rw [run, Resources.release_of_released hr]
      exact .refused _ fun _ _ => hr
    | false =>
      rw [run, Resources.release_eq r h hr]
      exact .released hr

/-- A session keeps its number, and is released by nothing but its release. -/
theorem run_id_released (d : Deed) :
    (d.run r h).1.id = r.id ∧ (d ≠ .release → (d.run r h).1.released = r.released) := by
  have he := d.run_effect r h
  generalize d.run r h = x at he
  cases he with
  | registered => dsimp only; split <;> exact ⟨rfl, fun _ => rfl⟩
  | attached => dsimp only; split <;> exact ⟨rfl, fun _ => rfl⟩
  | released => exact ⟨rfl, fun hne => absurd rfl hne⟩
  | _ => exact ⟨rfl, fun _ => rfl⟩

/-! ### The most that a deed does -/

/-- The frames only become more. -/
theorem size_run (d : Deed) : h.renderer.frames.size ≤ (d.run r h).2.renderer.frames.size := by
  have he := d.run_effect r h
  generalize d.run r h = x at he
  cases he with
  | created width height => exact Nat.le_of_lt (Nat.lt_of_lt_of_eq (Nat.lt_succ_self _) (h.renderer.size_create ..).symm)
  | ended => exact Nat.le_of_eq (Renderer.size_release _ _).symm
  | released => exact Nat.le_of_eq (by rw [(r.freed_tables h).1, Renderer.size_foldl_release])
  | _ => exact Nat.le_refl _

/-- **Frames.**  A deed changes no frame that is there, but for ending frames of its session. -/
theorem frame?_run {k : Nat} (hlt : k < h.renderer.frames.size) (d : Deed) :
    (d.run r h).2.renderer.frame? k = h.renderer.frame? k ∨
      k ∈ r.handles ∧ (d.run r h).2.renderer.frame? k = none := by
  have he := d.run_effect r h
  generalize d.run r h = x at he
  cases he with
  | created =>
    rw [Renderer.frame?_create, if_neg (Nat.ne_of_lt hlt)]
    exact .inl rfl
  | @ended _ handle _ hremove =>
    rw [Renderer.frame?_release]
    by_cases hk : k = handle
    · rw [if_pos hk]
      exact .inr ⟨(FramePool.handles_remove_perm hremove).mem_iff.mpr (by simp [hk]), rfl⟩
    · rw [if_neg hk]
      exact .inl rfl
  | released =>
    rw [(r.freed_tables h).1, Renderer.frame?_foldl_release]
    by_cases hk : k ∈ r.handles
    · rw [if_pos hk]
      exact .inr ⟨hk, rfl⟩
    · rw [if_neg hk]
      exact .inl rfl
  | _ => exact .inl rfl

/-- **Channels.**  A deed changes no channel, nor what is waiting in it, but for ending channels of its session. -/
theorem find?_run {name : String} {c : Channel} (hc : h.channels.find? name = some c) (d : Deed) :
    (d.run r h).2.channels.find? name = some c ∨
      c.owner = r.id ∧ (d.run r h).2.channels.find? name = none := by
  have hfilter : (h.channels.find? name).filter (fun c => c.owner != r.id) = some c ∨
      c.owner = r.id ∧ (h.channels.find? name).filter (fun c => c.owner != r.id) = none := by
    rw [hc]
    by_cases howner : c.owner = r.id
    · exact .inr ⟨howner, by simp [howner]⟩
    · exact .inl (by simp [howner])
  have he := d.run_effect r h
  generalize d.run r h = x at he
  cases he with
  | @registered n =>
    rw [Channels.find?_register]
    by_cases hn : name = n
    · rw [if_pos hn, ← hn, hc]
      exact .inl rfl
    · rw [if_neg hn]
      exact .inl hc
  | @unregistered n =>
    rw [Channels.find?_unregister]
    by_cases hn : name = n
    · rw [if_pos hn]
      exact hfilter
    · rw [if_neg hn]
      exact .inl hc
  | released =>
    rw [(r.freed_tables h).2.1, Channels.find?_foldl_unregister]
    by_cases hn : name ∈ r.channels
    · rw [if_pos hn]
      exact hfilter
    · rw [if_neg hn]
      exact .inl hc
  | _ => exact .inl hc

/-- A deed that shows no frame empties a slot or leaves it as it is. -/
theorem get_run_of_not_isAttach {d : Deed} (hd : d.isAttach = false) (slot : Nat) :
    (d.run r h).2.display.get slot = h.display.get slot ∨ (d.run r h).2.display.get slot = none := by
  have he := d.run_effect r h
  generalize d.run r h = x at he
  cases he with
  | ended =>
    rw [Resources.get_hide]
    split
    · exact .inr rfl
    · exact .inl rfl
  | attached => cases hd
  | detached =>
    rw [Display.get_set_none]
    split
    · exact .inr rfl
    · exact .inl rfl
  | released =>
    rw [(r.freed_tables h).2.2, Display.get_foldl_clear]
    split
    · exact .inr rfl
    · exact .inl rfl
  | _ => exact .inl rfl

/-- **Slots.**  A deed that shows no frame leaves a frame of another session in its slot, unless it empties the slot
without a look at what it shows. -/
theorem get_run_iff (hr : r.released = false) {d : Deed} (hd : d.isAttach = false) {slot k : Nat}
    (hshown : h.display.get slot = some k) (hk : k ∉ r.handles) :
    (d.run r h).2.display.get slot = some k ↔ ¬ d.Clears r slot := by
  have he := d.run_effect r h
  generalize d.run r h = x at he
  cases he with
  | refused _ hclears =>
    refine ⟨fun _ hc => ?_, fun _ => hshown⟩
    rw [hclears slot hc] at hr
    cases hr
  | @ended _ handle _ hremove =>
    rw [Resources.get_hide, if_neg, hshown]
    · exact ⟨fun _ => id, fun _ => rfl⟩
    · rintro ⟨_, hhandle⟩
      rw [hshown] at hhandle
      cases hhandle
      exact hk ((FramePool.handles_remove_perm hremove).mem_iff.mpr List.mem_cons_self)
  | attached => cases hd
  | @detached n hn =>
    rw [Display.get_set_none]
    by_cases hslot : slot = n
    · subst hslot
      simp [Clears, hn]
    · simp [Clears, hslot, hshown]
  | released =>
    rw [(r.freed_tables h).2.2, Display.get_foldl_clear]
    by_cases hslot : slot ∈ r.slots <;> simp [Clears, hslot, hshown]
  | _ => exact ⟨fun _ => id, fun _ => hshown⟩

end Deed

/-- All sessions and their host. -/
structure Crowd where
  host : Host
  /-- What each session holds, by its number. -/
  session : Nat → Resources

namespace Crowd

/-- A session does something. -/
def act (s : Crowd) (i : Nat) (d : Deed) : Crowd where
  host := (d.run (s.session i) s.host).2
  session := Function.update s.session i (d.run (s.session i) s.host).1

/-- No session holds anything, and nothing is on the host. -/
structure Fresh (s : Crowd) : Prop where
  session : ∀ i, s.session i = { id := i, terminal := (s.session i).terminal }
  renderer : s.host.renderer = {}
  channels : s.host.channels = {}
  display : ∀ slot, s.host.display.get slot = none

variable (s : Crowd) (i : Nat) (d : Deed)

theorem act_host : (s.act i d).host = (d.run (s.session i) s.host).2 := rfl

theorem act_session_self : (s.act i d).session i = (d.run (s.session i) s.host).1 := Function.update_self ..

theorem act_session_of_ne {j : Nat} (h : j ≠ i) : (s.act i d).session j = s.session j :=
  Function.update_of_ne h ..

theorem act_of_run {s : Crowd} {i : Nat} {d : Deed} {r : Resources} {h : Host}
    (hrun : d.run (s.session i) s.host = (r, h)) : (s.act i d).session i = r ∧ (s.act i d).host = h := by
  rw [act_session_self, act_host, hrun]
  exact ⟨rfl, rfl⟩

/-- A session that is refused changes nothing. -/
theorem act_of_refused {s : Crowd} {i : Nat} {d : Deed} (h : d.run (s.session i) s.host = (s.session i, s.host)) :
    s.act i d = s := by
  rw [act, h, Function.update_eq_self]

end Crowd

/-- What else may happen to a host. -/
inductive Elsewhere (h : Host) : Host → Prop
  | draw (handle x y : Nat) (c : UInt8) : Elsewhere h { h with renderer := h.renderer.setPixel handle x y c }
  | send (name message : String) : Elsewhere h { h with channels := (h.channels.send name message).2 }
  | poll (name : String) (owner : Nat) : Elsewhere h { h with channels := (h.channels.poll name owner).2 }
  | other {k : Host} (renderer : k.renderer = h.renderer) (channels : k.channels = h.channels)
      (slots : k.display.slots = h.display.slots) : Elsewhere h k

/-- What can come about from a start. -/
inductive Reachable (start : Crowd) : Crowd → Prop
  | start : Reachable start start
  | deed {s : Crowd} (h : Reachable start s) (i : Nat) (d : Deed) (hi : (s.session i).released = false) :
      Reachable start (s.act i d)
  | elsewhere {s : Crowd} (h : Reachable start s) {k : Host} (hk : Elsewhere s.host k) :
      Reachable start { s with host := k }

theorem Reachable.trans {s t u : Crowd} (h : Reachable s t) (k : Reachable t u) : Reachable s u := by
  induction k with
  | start => exact h
  | deed _ i d hi ih => exact ih.deed i d hi
  | elsewhere _ hk ih => exact ih.elsewhere hk

/-! ### What happens elsewhere leaves the tables alone -/

namespace Elsewhere

variable {h k : Host}

theorem size_frames (hk : Elsewhere h k) : k.renderer.frames.size = h.renderer.frames.size := by
  cases hk with
  | draw handle x y c => exact h.renderer.size_setPixel handle x y c
  | send => rfl
  | poll => rfl
  | other renderer => rw [renderer]

theorem frame?_isSome (hk : Elsewhere h k) (handle : Nat) :
    (k.renderer.frame? handle).isSome = (h.renderer.frame? handle).isSome := by
  cases hk with
  | draw f x y c =>
    show ((h.renderer.setPixel f x y c).frame? handle).isSome = _
    rw [Renderer.frame?_setPixel]
    split
    · exact Option.isSome_map
    · rfl
  | send => rfl
  | poll => rfl
  | other renderer => rw [renderer]

theorem owner (hk : Elsewhere h k) (name : String) :
    (k.channels.find? name).map Channel.owner = (h.channels.find? name).map Channel.owner := by
  have hmap : ∀ (f : Channel → Channel) (x : Option Channel), (∀ c, (f c).name = c.name ∧ (f c).owner = c.owner) →
      (x.map f).map Channel.owner = x.map Channel.owner := by
    intro f x hf
    cases x with
    | none => rfl
    | some c => exact congrArg some (hf c).2
  cases hk with
  | draw => rfl
  | send n message =>
    obtain ⟨f, hf, hfind⟩ := h.channels.find?_send n message name
    show ((h.channels.send n message).2.find? name).map Channel.owner = _
    rw [hfind]
    split
    · exact hmap f _ hf
    · rfl
  | poll n o =>
    obtain ⟨f, hf, hfind⟩ := h.channels.find?_poll n o name
    show ((h.channels.poll n o).2.find? name).map Channel.owner = _
    rw [hfind]
    split
    · exact hmap f _ hf
    · rfl
  | other _ channels => rw [channels]

theorem shown (hk : Elsewhere h k) (slot : Nat) : k.display.get slot = h.display.get slot := by
  cases hk with
  | draw => rfl
  | send => rfl
  | poll => rfl
  | other _ _ slots => rw [Display.get, Display.get, slots]

end Elsewhere

/-! ### Two sessions and one slot -/

/-- A host with nothing on it. -/
def emptyCrowd : Crowd where
  host := {}
  session i := { id := i }

theorem emptyCrowd_fresh : emptyCrowd.Fresh := by
  refine ⟨fun _ => rfl, rfl, rfl, fun slot => ?_⟩
  show Display.get {} slot = none
  rw [Display.get]
  split
  · exact Vector.getElem_replicate _
  · rfl

/-- Two sessions have made a frame and shown it in the same slot, the second one last. -/
def overlaid : Crowd :=
  (((emptyCrowd.act 0 (.createFrame 1 1)).act 1 (.createFrame 1 1)).act 0 (.attachSlot 0 0)).act 1 (.attachSlot 0 0)

theorem overlaid_reachable : Reachable emptyCrowd overlaid :=
  (((Reachable.start.deed 0 (.createFrame 1 1) rfl).deed 1 (.createFrame 1 1) rfl).deed 0 (.attachSlot 0 0) rfl).deed 1
    (.attachSlot 0 0) rfl

end ScriptHost

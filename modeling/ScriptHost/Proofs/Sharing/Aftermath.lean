import ScriptHost.Proofs.Sharing.Ownership

/-!
# What is left after a release

A session gives everything back once.  What its functions still do afterwards goes into the same record, but nothing
reads the record any more: giving back a second time changes nothing.

* `Stay` — what can come about for one session, with the numbers of the frames it has made; here every session may act
  at any time, also after it was released;
* `HoldsNothing` — nothing that the session made or changed is on the host;
* `Crowd.reopened` — the same holdings as if no session had been released; everything on a host keeps having one owner
  in this sense (**`owned_reopened_of_stay`**);
* **`holdsNothing_release_iff`** — giving back leaves nothing exactly if it is done for the first time, or there is
  nothing to give back;
* **`lateCrowd_release_not_holdsNothing`** — so what comes too late stays.
-/

namespace ScriptHost

variable {start s : Crowd} {i : Nat} {made : List Nat}

/-! ### The stay of a session -/

/-- The numbers of the frames that a deed makes. -/
def Deed.newFrames (r : Resources) (h : Host) : Deed → List Nat
  | .createFrame width height =>
    match (r.createFrame h width height).1 with
    | .ok _ => [h.renderer.frames.size]
    | .error _ => []
  | _ => []

/-- A session changes the hooks of its terminal, if it holds it. -/
def Crowd.changeHooks (s : Crowd) (i : Nat) (f : Hooks → Hooks) : Crowd :=
  { s with host := ((s.session i).changeHooks s.host f).2 }

/-- What can come about for a session, with the numbers of the frames that it has made. -/
inductive Stay (start : Crowd) (i : Nat) : Crowd → List Nat → Prop
  | start : Stay start i start []
  | deed {s : Crowd} {made : List Nat} (h : Stay start i s made) (d : Deed) :
      Stay start i (s.act i d) (made ++ d.newFrames (s.session i) s.host)
  | hooks {s : Crowd} {made : List Nat} (h : Stay start i s made) (f : Hooks → Hooks) :
      Stay start i (s.changeHooks i f) made
  | other {s : Crowd} {made : List Nat} (h : Stay start i s made) {j : Nat} (hj : j ≠ i) (d : Deed) :
      Stay start i (s.act j d) made
  | elsewhere {s : Crowd} {made : List Nat} (h : Stay start i s made) {k : Host} (hk : Elsewhere s.host k) :
      Stay start i { s with host := k } made

/-- The hooks of the terminal that a session holds are as they are by default. -/
def Crowd.HooksDefault (s : Crowd) (i : Nat) : Prop :=
  ∀ t, (s.session i).held? s.host = some t → (s.host.terminal t).hooks = {}

/-- The host holds nothing of a session that has made some frames. -/
structure HoldsNothing (i : Nat) (made : List Nat) (s : Crowd) : Prop where
  frames : ∀ k ∈ made, s.host.renderer.frame? k = none
  channels : ∀ name, s.host.routeOwner name ≠ some i
  slots : ∀ slot, ∀ k ∈ made, s.host.display.get slot ≠ some k
  hooks : s.HooksDefault i

theorem elsewhere_changeHooks (r : Resources) (h : Host) (f : Hooks → Hooks) :
    Elsewhere h (r.changeHooks h f).2 := by
  rw [Resources.changeHooks]
  split <;> exact .other rfl rfl rfl

/-! ### Sessions that may go on -/

/-- The same holdings as if no session had been released. -/
def Crowd.reopened (s : Crowd) : Crowd :=
  { s with session := fun j => { s.session j with released := false } }

theorem Owned.reopened (h : Owned s) : Owned s.reopened where
  id := h.id
  frames := ⟨h.frames.nodup, h.frames.disjoint, h.frames.live⟩
  channels := ⟨h.channels.nodup, h.channels.owner⟩
  slots := h.slots
  released _ hreleased := by cases hreleased

/-- Only giving back looks at whether a session was released. -/
theorem Deed.run_reopened (r : Resources) (h : Host) {d : Deed} (hd : d ≠ .release) :
    d.run { r with released := false } h = ({ (d.run r h).1 with released := false }, (d.run r h).2) := by
  cases d with
  | createFrame width height =>
    rw [run, run, Resources.createFrame, Resources.createFrame]
    split
    · rfl
    · split <;> rfl
  | releaseFrame id =>
    rw [run, run, Resources.releaseFrame, Resources.releaseFrame]
    cases r.frames.remove id with
    | mk found frames => cases found <;> rfl
  | registerChannel name =>
    rw [run, run, Resources.registerChannel, Resources.registerChannel]
    cases h.channels.register name r.id with
    | mk done channels =>
      cases done
      · rfl
      · dsimp only
        split <;> rfl
  | unregisterChannel name =>
    rw [run, run, Resources.unregisterChannel, Resources.unregisterChannel]
    split <;> rfl
  | attachSlot slot frame =>
    rw [run, run, Resources.attachSlot, Resources.attachSlot]
    cases r.frames.get? frame with
    | none => rfl
    | some handle =>
      dsimp only
      cases h.display.set slot (some handle) with
      | mk done display =>
        cases done
        · rfl
        · dsimp only
          split <;> rfl
  | detachSlot slot =>
    rw [run, run, Resources.detachSlot, Resources.detachSlot]
    split <;> rfl
  | release => exact absurd rfl hd

theorem Crowd.reopened_act (s : Crowd) (i : Nat) {d : Deed} (hd : d ≠ .release) :
    (s.act i d).reopened = s.reopened.act i d := by
  have hrun := Deed.run_reopened (s.session i) s.host hd
  have hsession : (s.act i d).reopened.session = (s.reopened.act i d).session := by
    funext j
    by_cases hj : j = i
    · subst hj
      show { (s.act j d).session j with released := false } = (s.reopened.act j d).session j
      rw [act_session_self, act_session_self]
      exact (congrArg Prod.fst hrun).symm
    · show { (s.act i d).session j with released := false } = (s.reopened.act i d).session j
      rw [act_session_of_ne _ _ _ hj, act_session_of_ne _ _ _ hj]
      rfl
  have hhost : (s.act i d).reopened.host = (s.reopened.act i d).host := (congrArg Prod.snd hrun).symm
  calc (s.act i d).reopened = ⟨(s.act i d).reopened.host, (s.act i d).reopened.session⟩ := rfl
    _ = s.reopened.act i d := by rw [hhost, hsession]

/-- **One deed, at any time.** -/
theorem owned_reopened_act (h : Owned s.reopened) (i : Nat) (d : Deed) : Owned (s.act i d).reopened := by
  by_cases hd : d = .release
  · subst hd
    cases hr : (s.session i).released with
    | true =>
      rw [Crowd.act_of_refused (d := .release) (congrArg Prod.snd (Resources.release_of_released hr s.host))]
      exact h
    | false =>
      have hopen : { s.session i with released := false } = s.session i := by rw [← hr]
      have hsame : (s.reopened.act i .release).reopened = (s.act i .release).reopened := by
        simp only [Crowd.reopened, Crowd.act, Function.update_apply, hopen]
        congr 1
        funext j
        split <;> rfl
      exact hsame ▸ (owned_release h rfl).reopened
  · rw [s.reopened_act i hd]
    exact owned_act h rfl d

/-- Whatever comes about, everything on the host has one owner. -/
theorem owned_reopened_of_stay (hstart : start.Fresh) (h : Stay start i s made) : Owned s.reopened := by
  induction h with
  | start => exact (owned_fresh hstart).reopened
  | deed _ d ih => exact owned_reopened_act ih i d
  | hooks _ f ih => exact owned_elsewhere ih (elsewhere_changeHooks _ _ f)
  | other _ _ d ih => exact owned_reopened_act ih _ d
  | elsewhere _ hk ih => exact owned_elsewhere ih hk

/-! ### The frames that a session made -/

/-- Making a frame is refused and changes nothing, or there is one more frame. -/
theorem Resources.createFrame_answer (r : Resources) (h : Host) (width height : Nat) :
    (∃ text, r.createFrame h width height = (.error text, r, h)) ∨
      ∃ id frames, r.createFrame h width height
        = (.ok id, { r with frames }, { h with renderer := (h.renderer.create width height).2 }) := by
  rw [createFrame]
  split
  · exact .inl ⟨_, rfl⟩
  · split
    · exact .inl ⟨_, rfl⟩
    · exact .inr ⟨_, _, rfl⟩

/-- The frames that a deed makes are those that are new. -/
theorem Deed.mem_newFrames (d : Deed) (r : Resources) (h : Host) {k : Nat} :
    k ∈ d.newFrames r h ↔ h.renderer.frames.size ≤ k ∧ k < (d.run r h).2.renderer.frames.size := by
  have hnone : (d.run r h).2.renderer.frames.size = h.renderer.frames.size → d.newFrames r h = [] →
      (k ∈ d.newFrames r h ↔ h.renderer.frames.size ≤ k ∧ k < (d.run r h).2.renderer.frames.size) := by
    intro hsize hnew
    rw [hnew, hsize]
    simp
  cases d with
  | createFrame width height =>
    rcases r.createFrame_answer h width height with ⟨text, hrun⟩ | ⟨id, frames, hrun⟩
    · exact hnone (by rw [run, hrun]) (by rw [newFrames, hrun])
    · rw [newFrames, run, hrun]
      dsimp only
      rw [h.renderer.size_create, List.mem_singleton]
      omega
  | releaseFrame id =>
    refine hnone ?_ rfl
    rcases r.releaseFrame_cases h id with hrun | ⟨_, _, _, hrun⟩ <;> rw [run, hrun]
    exact Renderer.size_release _ _
  | registerChannel name =>
    refine hnone ?_ rfl
    rcases r.registerChannel_cases h name with hrun | ⟨_, hrun⟩ <;> rw [run, hrun]
  | unregisterChannel name =>
    refine hnone ?_ rfl
    rcases r.unregisterChannel_cases h name with hrun | ⟨_, hrun⟩ <;> rw [run, hrun]
  | attachSlot slot frame =>
    refine hnone ?_ rfl
    rcases r.attachSlot_cases h slot frame with hrun | ⟨_, _, hrun⟩ <;> rw [run, hrun]
  | detachSlot slot =>
    refine hnone ?_ rfl
    rcases r.detachSlot_cases h slot with ⟨_, hrun⟩ | ⟨_, hrun⟩ <;> rw [run, hrun]
  | release =>
    refine hnone ?_ rfl
    rw [run, Resources.release]
    split
    · rfl
    · show (r.freed h).renderer.frames.size = _
      rw [(r.freed_tables h).1, Renderer.size_foldl_release]

/-- The frames that a session holds are those that it made and that are still there. -/
structure MadeBy (i : Nat) (made : List Nat) (s : Crowd) : Prop where
  held : ∀ k ∈ (s.session i).handles, k ∈ made
  past : ∀ k ∈ made, k < s.host.renderer.frames.size
  live : ∀ k ∈ made, (s.host.renderer.frame? k).isSome = true → k ∈ (s.session i).handles

theorem MadeBy.act_self (h : MadeBy i made s) (howned : Owned s.reopened) (d : Deed) :
    MadeBy i (made ++ d.newFrames (s.session i) s.host) (s.act i d) := by
  have howned' := owned_reopened_act howned i d
  -- whoever holds a frame that was there before held it before, or it was the session itself
  have hbefore : ∀ j k, k < s.host.renderer.frames.size → k ∈ ((s.act i d).session j).handles →
      ∃ j', k ∈ (s.session j').handles := by
    intro j k hk hj
    have hlive := (howned'.frames.live k).mpr ⟨j, hj⟩
    have hsame := (d.frame?_run (s.session i) s.host hk).resolve_right fun hgone => by
      rw [show (s.act i d).reopened.host = (d.run (s.session i) s.host).2 from rfl, hgone.2] at hlive
      cases hlive
    exact (howned.frames.live k).mp (by rw [← hlive]; exact (congrArg Option.isSome hsame).symm)
  have hother : ∀ j, j ≠ i → ((s.act i d).session j).handles = (s.session j).handles :=
    act_other s i d Resources.handles
  refine ⟨fun k hk => ?_, fun k hk => ?_, fun k hk hlive => ?_⟩
  · by_cases hnew : k < s.host.renderer.frames.size
    · obtain ⟨j, hj⟩ := hbefore i k hnew hk
      by_cases hji : j = i
      · subst hji
        exact List.mem_append_left _ (h.held k hj)
      · rw [← hother j hji] at hj
        exact absurd hj (howned'.frames.disjoint i j (Ne.symm hji) k hk)
    · refine List.mem_append_right _ ((d.mem_newFrames _ _).mpr ⟨Nat.le_of_not_lt hnew, ?_⟩)
      exact (s.act i d).host.renderer.lt_size_of_frame?_isSome ((howned'.frames.live k).mpr ⟨i, hk⟩)
  · rcases List.mem_append.mp hk with hold | hnew
    · exact Nat.lt_of_lt_of_le (h.past k hold) (d.size_run _ _)
    · exact ((d.mem_newFrames _ _).mp hnew).2
  · obtain ⟨j, hj⟩ := (howned'.frames.live k).mp hlive
    by_cases hji : j = i
    · subst hji
      exact hj
    · -- another session holds no frame that this one made
      have hj' : k ∈ (s.session j).handles := by rw [← hother j hji]; exact hj
      have hlive' := (howned.frames.live k).mpr ⟨j, hj'⟩
      rcases List.mem_append.mp hk with hold | hnew
      · exact absurd hj' (howned.frames.disjoint i j (Ne.symm hji) k (h.live k hold hlive'))
      · have hlt := s.host.renderer.lt_size_of_frame?_isSome hlive'
        have hle := ((d.mem_newFrames _ _).mp hnew).1
        omega

theorem MadeBy.act_other (h : MadeBy i made s) {j : Nat} (hj : j ≠ i) (d : Deed) : MadeBy i made (s.act j d) where
  held := by
    rw [s.act_session_of_ne j d hj.symm]
    exact h.held
  past k hk := Nat.lt_of_lt_of_le (h.past k hk) (d.size_run _ _)
  live k hk hlive := by
    rw [s.act_session_of_ne j d hj.symm]
    refine h.live k hk ?_
    rcases d.frame?_run (s.session j) s.host (h.past k hk) with hsame | ⟨_, hnone⟩
    · rwa [← hsame]
    · rw [s.act_host, hnone] at hlive
      cases hlive

theorem MadeBy.of_elsewhere (h : MadeBy i made s) {k : Host} (hk : Elsewhere s.host k) :
    MadeBy i made { s with host := k } where
  held := h.held
  past f hf := by
    rw [hk.size_frames]
    exact h.past f hf
  live f hf hlive := h.live f hf (by rwa [← hk.frame?_isSome])

/-- Whatever comes about, a session holds those of the frames it made that are still there. -/
theorem madeBy_of_stay (hstart : start.Fresh) (h : Stay start i s made) : MadeBy i made s := by
  induction h with
  | start =>
    refine ⟨fun k hk => ?_, fun k hk => ?_, fun k hk => ?_⟩
    · rw [hstart.session i] at hk
      cases hk
    · cases hk
    · cases hk
  | deed h d ih => exact ih.act_self (owned_reopened_of_stay hstart h) d
  | hooks _ f ih => exact ih.of_elsewhere (elsewhere_changeHooks _ _ f)
  | other _ hj d ih => exact ih.act_other hj d
  | elsewhere _ hk ih => exact ih.of_elsewhere hk

/-! ### What is left -/

/-- The host holds nothing of a session exactly if the record of the session says so and its hooks are default. -/
theorem holdsNothing_iff (howned : Owned s.reopened) (hmade : MadeBy i made s) :
    HoldsNothing i made s ↔ (s.session i).handles = [] ∧ (s.session i).channels = [] ∧ s.HooksDefault i := by
  have hlive : ∀ k, (s.host.renderer.frame? k).isSome = true ↔ ∃ j, k ∈ (s.session j).handles := howned.frames.live
  have hroute : ∀ name, name ∈ (s.session i).channels ↔ s.host.routeOwner name = some i := howned.channels.owner i
  constructor
  · intro h
    refine ⟨List.eq_nil_iff_forall_not_mem.mpr fun k hk => ?_, List.eq_nil_iff_forall_not_mem.mpr fun name hname => ?_,
      h.hooks⟩
    · have hsome := (hlive k).mpr ⟨i, hk⟩
      rw [h.frames k (hmade.held k hk)] at hsome
      cases hsome
    · exact h.channels name ((hroute name).mp hname)
  · rintro ⟨hhandles, hchannels, hhooks⟩
    have hgone : ∀ k ∈ made, s.host.renderer.frame? k = none := by
      intro k hk
      refine Option.not_isSome_iff_eq_none.mp fun hsome => ?_
      have hheld := hmade.live k hk hsome
      rw [hhandles] at hheld
      cases hheld
    refine ⟨hgone, fun name howner => ?_, fun slot k hk hshown => ?_, hhooks⟩
    · have hname := (hroute name).mpr howner
      rw [hchannels] at hname
      cases hname
    · obtain ⟨j, hj, _⟩ := howned.slots slot k hshown
      have hsome := (hlive k).mpr ⟨j, hj⟩
      rw [hgone k hk] at hsome
      cases hsome

/-- Giving back sets the hooks of the terminal that the session holds to the default. -/
theorem Resources.freed_terminal (r : Resources) (h : Host) (t : Nat) :
    (r.freed h).terminal t = if r.held? h = some t then (h.terminal t).clearHooks else h.terminal t := by
  have hheld : ∀ renderer channels, r.held? { h with renderer, channels } = r.held? h := fun _ _ => rfl
  simp only [freed, hheld]
  cases hterminal : r.held? h with
  | none => rfl
  | some k =>
    show (Host.onTerminal _ k Terminal.clearHooks).terminal t = _
    rw [Host.terminal_onTerminal]
    by_cases ht : t = k
    · subst ht
      obtain ⟨_, hheldby⟩ := Option.filter_eq_some_iff.mp hterminal
      have hlt : t < h.terminals.size := Host.lt_size_of_active (Host.isHeldBy_iff.mp hheldby)
      rw [if_pos ⟨rfl, hlt⟩, if_pos rfl]
      rfl
    · rw [if_neg fun hk => ht hk.1, if_neg fun hk => ht (Option.some.inj hk).symm]
      rfl

theorem hooksDefault_release (s : Crowd) (i : Nat) (hi : (s.session i).released = false) :
    (s.act i .release).HooksDefault i := by
  obtain ⟨hself, hhost⟩ := Crowd.act_of_run (d := .release) (congrArg Prod.snd (Resources.release_eq _ s.host hi))
  intro t ht
  rw [hself, hhost] at ht
  obtain ⟨hterminal, hactive⟩ := Option.filter_eq_some_iff.mp ht
  rw [hhost, Resources.freed_terminal]
  by_cases hheld : (s.session i).held? s.host = some t
  · rw [if_pos hheld]
    rfl
  · rw [Host.isHeldBy, Resources.freed_terminal, if_neg hheld] at hactive
    exact absurd (Option.filter_eq_some_iff.mpr ⟨hterminal, hactive⟩) hheld

/-- **What giving back leaves.**  In all that can come about on a host that sessions start with nothing on, whatever a
session and the others have done and in whatever order: after the first time, giving back changes nothing; so the host
then holds nothing of the session exactly if this was the first time, or what the session did since then was refused or
undone by the session itself, and the hooks of its terminal are as they are by default. -/
theorem holdsNothing_release_iff (hstart : start.Fresh) (h : Stay start i s made) :
    ((s.session i).released = true → s.act i .release = s) ∧
    (HoldsNothing i made (s.act i .release) ↔
      (s.session i).released = false ∨
        ((s.session i).handles = [] ∧ (s.session i).channels = [] ∧ s.HooksDefault i)) := by
  have hagain : (s.session i).released = true → s.act i .release = s := fun hr =>
    Crowd.act_of_refused (d := .release) (congrArg Prod.snd (Resources.release_of_released hr s.host))
  refine ⟨hagain, ?_⟩
  cases hr : (s.session i).released with
  | false =>
    have hafter : Stay start i (s.act i .release) (made ++ []) := h.deed .release
    rw [List.append_nil] at hafter
    have hself := (Crowd.act_of_run (d := .release)
      (congrArg Prod.snd (Resources.release_eq (s.session i) s.host hr))).1
    refine iff_of_true ?_ (.inl rfl)
    refine (holdsNothing_iff (owned_reopened_of_stay hstart hafter) (madeBy_of_stay hstart hafter)).mpr ⟨?_, ?_, ?_⟩
    · rw [hself]
      rfl
    · rw [hself]
    · exact hooksDefault_release s i hr
  | true =>
    rw [hagain hr, holdsNothing_iff (owned_reopened_of_stay hstart h) (madeBy_of_stay hstart h)]
    simp

/-- A host with one terminal, which the first session holds. -/
def terminalCrowd : Crowd where
  host := { terminals := #[{ active := some 0 }] }
  session i := { id := i, terminal := some 0 }

theorem terminalCrowd_fresh : terminalCrowd.Fresh :=
  ⟨fun _ => rfl, rfl, rfl, emptyCrowd_fresh.display⟩

/-- The first session gives everything back, and then makes a frame, shows it, registers a channel and changes the hooks
of its terminal. -/
def lateCrowd : Crowd :=
  ((((terminalCrowd.act 0 .release).act 0 (.createFrame 1 1)).act 0 (.attachSlot 0 0)).act 0
    (.registerChannel "late")).changeHooks 0 fun x => { x with isProtected := true }

theorem stay_lateCrowd : Stay terminalCrowd 0 lateCrowd [0] := by
  have h := ((((Stay.start : Stay terminalCrowd 0 terminalCrowd []).deed .release).deed (.createFrame 1 1)).deed
    (.attachSlot 0 0)).deed (.registerChannel "late")
  have hmade : Deed.newFrames ((terminalCrowd.act 0 .release).session 0) (terminalCrowd.act 0 .release).host
      (.createFrame 1 1) = [0] := by decide +kernel
  rw [hmade] at h
  exact h.hooks fun x => { x with isProtected := true }

theorem holdsNothing_release_iff_late :
    (terminalCrowd.session 0).released = false ∧ HoldsNothing 0 [] (terminalCrowd.act 0 .release) ∧
      (lateCrowd.session 0).released = true ∧ lateCrowd.act 0 .release = lateCrowd :=
  have hreleased : (lateCrowd.session 0).released = true := by decide +kernel
  ⟨rfl, (holdsNothing_release_iff terminalCrowd_fresh .start).2.mpr (.inl rfl), hreleased,
    (holdsNothing_release_iff terminalCrowd_fresh stay_lateCrowd).1 hreleased⟩

/-- **What comes too late stays.**  The session gave everything back before and after, and its frame is there, shown in a
slot, its channel is registered to it, and the hooks of its terminal are changed. -/
theorem lateCrowd_release_not_holdsNothing :
    Stay terminalCrowd 0 lateCrowd [0] ∧ (lateCrowd.session 0).released = true ∧
      ((lateCrowd.act 0 .release).host.renderer.frame? 0).isSome = true ∧
      (lateCrowd.act 0 .release).host.display.get 0 = some 0 ∧
      (lateCrowd.act 0 .release).host.routeOwner "late" = some 0 ∧
      ((lateCrowd.act 0 .release).session 0).held? (lateCrowd.act 0 .release).host = some 0 ∧
      ((lateCrowd.act 0 .release).host.terminal 0).hooks = { isProtected := true } ∧
      ¬ HoldsNothing 0 [0] (lateCrowd.act 0 .release) := by
  have hlive : ((lateCrowd.act 0 .release).host.renderer.frame? 0).isSome = true := by decide +kernel
  refine ⟨stay_lateCrowd, by decide +kernel, hlive, by decide +kernel, by decide +kernel, by decide +kernel,
    by decide +kernel, fun h => ?_⟩
  rw [h.frames 0 List.mem_cons_self] at hlive
  cases hlive

end ScriptHost

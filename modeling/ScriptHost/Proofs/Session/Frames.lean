import ScriptHost.Proofs.Script.Table
import ScriptHost.Proofs.Sharing.Crowd

/-!
# The numbers of frames

A script knows its frames by number, and a new one gets the least number that is free.  Numbers are used again in any
order, so that they stay small is a matter of counting: below the least free number every number is taken, and what is
taken is counted.

* `FramePool.probe` — the search for a free number, one number after the other;
* `FramePool.nextId_le_count`, **`FramePool.probe_nextId`** — how far the search goes;
* `Deed.Pooled`, `Deed.run_pooled` — all that a deed can do to the numbers;
* `Resources.after` — what a session holds after some deeds;
* **`Resources.numbers_least_free`** — the numbers of a session, whatever it did.
-/

namespace ScriptHost

/-! ### Taken and free numbers -/

namespace FramePool

/-- The search for a free number from `id` on, which looks at so many numbers at most. -/
def probe (p : FramePool) : Nat → Nat → Option Nat
  | 0, _ => none
  | fuel + 1, id => if (p.get? id).isSome then p.probe fuel (id + 1) else some id

variable (p : FramePool)

/-- Every number below the least free one has a frame of its own, so there are at least as many frames. -/
theorem nextId_le_count : p.nextId ≤ p.count := by
  obtain ⟨hle, _, hleast⟩ := p.nextId_spec
  have htaken : (p.places.toList.take p.nextId).countP Option.isSome = p.nextId := by
    have hlength : (p.places.toList.take p.nextId).length = p.nextId := by
      rw [List.length_take, Array.length_toList, Nat.min_eq_left hle]
    refine (List.countP_eq_length.mpr fun x hx => ?_).trans hlength
    obtain ⟨m, hm, rfl⟩ := List.mem_iff_getElem.mp hx
    rw [hlength] at hm
    rw [List.getElem_take, Array.getElem_toList, ← p.get?_of_lt_size (Nat.lt_of_lt_of_le hm hle)]
    exact hleast m hm
  calc p.nextId = (p.places.toList.take p.nextId).countP Option.isSome := htaken.symm
    _ ≤ p.places.toList.countP Option.isSome := (List.take_sublist _ _).countP_le
    _ = p.count := Array.countP_toList

/-- The search passes over taken numbers. -/
theorem probe_add {id n : Nat} (h : ∀ m < n, (p.get? (id + m)).isSome = true) (fuel : Nat) :
    p.probe (n + fuel) id = p.probe fuel (id + n) := by
  induction n generalizing id with
  | zero => rw [Nat.zero_add, Nat.add_zero]
  | succ n ih =>
    have hid : (p.get? id).isSome = true := h 0 (Nat.succ_pos n)
    have hrest : ∀ m < n, (p.get? (id + 1 + m)).isSome = true := fun m hm => by
      rw [Nat.add_assoc, Nat.add_comm 1 m]
      exact h (m + 1) (Nat.succ_lt_succ hm)
    rw [Nat.succ_add, probe, if_pos hid, ih hrest, Nat.add_assoc, Nat.add_comm 1 n]

/-- **The search ends.**  It finds the least free number and looks at no more numbers than there are frames and one. -/
theorem probe_nextId : p.probe (p.count + 1) 0 = some p.nextId := by
  have hsplit : p.count + 1 = p.nextId + (p.count - p.nextId + 1) := by
    have := p.nextId_le_count
    omega
  rw [hsplit, p.probe_add fun m hm => (Nat.zero_add m).symm ▸ p.nextId_spec.2.2 m hm, Nat.zero_add, probe,
    p.get?_nextId]
  rfl

/-! ### What is found under a number -/

/-- Filling a place changes what is found there and nowhere else. -/
theorem getD_put_of_lt {places : Array (Option Nat)} {id : Nat} (hid : id < places.size) (x : Option Nat) (k : Nat) :
    (Script.put places id x).getD k none = if k = id then x else places.getD k none := by
  rw [Script.getD_put]
  by_cases hk : k = id
  · rw [if_pos hk, if_pos ⟨hk.symm, hid⟩]
  · rw [if_neg hk, if_neg fun h => hk h.1.symm]

theorem get?_insert (handle k : Nat) :
    (p.insert handle).2.get? k = if k = p.nextId then some handle else p.get? k := by
  show Array.getD (if p.nextId < p.places.size then Script.put p.places p.nextId (some handle)
    else p.places.push (some handle)) k none = _
  by_cases hlt : p.nextId < p.places.size
  · rw [if_pos hlt]
    exact getD_put_of_lt hlt _ k
  · have hsize : p.nextId = p.places.size := Nat.le_antisymm p.nextId_spec.1 (Nat.le_of_not_lt hlt)
    rw [if_neg hlt, hsize, Array.getD_eq_getD_getElem?, Array.getElem?_push, get?, Array.getD_eq_getD_getElem?]
    split <;> rfl

theorem get?_remove (id k : Nat) : (p.remove id).2.get? k = if k = id then none else p.get? k := by
  rw [remove]
  cases hid : p.get? id with
  | none =>
    by_cases hk : k = id
    · rw [if_pos hk, hk, hid]
    · rw [if_neg hk]
  | some handle =>
    have hlt : id < p.places.size := p.lt_size_of_get?_isSome (by rw [hid]; rfl)
    exact getD_put_of_lt hlt none k

/-- A place is added only when none is free, so that there are then no more places than frames. -/
theorem size_insert_le (handle : Nat) : (p.insert handle).2.places.size ≤ max p.places.size (p.count + 1) := by
  show (if p.nextId < p.places.size then Script.put p.places p.nextId (some handle)
    else p.places.push (some handle)).size ≤ _
  have hcount := p.nextId_le_count
  split
  · rw [Script.size_put]
    exact Nat.le_max_left _ _
  · rw [Array.size_push]
    omega

theorem size_remove (id : Nat) : (p.remove id).2.places.size = p.places.size := by
  rw [remove]
  split
  · exact Script.size_put ..
  · rfl

end FramePool

/-! ### Making and ending frames -/

namespace Resources

variable (r : Resources) (h : Host)

theorem createFrame_ok_iff (width height : Nat) :
    (∃ k, (r.createFrame h width height).1 = .ok k) ↔ r.frames.count < maxFrames ∧ width * height ≤ maxPixels := by
  rcases r.createFrame_cases h width height with ⟨hnot, ⟨_, herror⟩, _⟩ | ⟨hfits, hok, _⟩
  · rw [herror]
    exact ⟨nofun, fun hfits => absurd hfits hnot⟩
  · exact ⟨fun _ => hfits, fun _ => ⟨_, hok⟩⟩

theorem createFrame_of_ok {width height k : Nat} (hk : (r.createFrame h width height).1 = .ok k) :
    k = r.frames.nextId ∧
      (r.createFrame h width height).2.1.frames = (r.frames.insert h.renderer.frames.size).2 ∧
      (r.createFrame h width height).2.2.renderer = (h.renderer.create width height).2 := by
  rcases r.createFrame_cases h width height with ⟨_, ⟨_, herror⟩, _⟩ | ⟨_, hok, hrun⟩
  · rw [herror] at hk
    cases hk
  · rw [hok] at hk
    cases hk
    rw [hrun]
    exact ⟨rfl, rfl, rfl⟩

/-- Ending a frame, whether there is one or not. -/
theorem releaseFrame_frames (id : Nat) :
    (r.releaseFrame h id).1 = (r.frames.get? id).isSome ∧
      (r.releaseFrame h id).2.1.frames = (r.frames.remove id).2 := by
  rw [releaseFrame, FramePool.remove]
  cases r.frames.get? id <;> exact ⟨rfl, rfl⟩

end Resources

/-! ### The numbers in the course of a session -/

namespace Deed

/-- All that a deed can do to the frames of its session. -/
inductive Pooled (p : FramePool) : Deed → FramePool → Prop
  | kept (d : Deed) : Pooled p d p
  | created (width height handle : Nat) (hroom : p.count < Resources.maxFrames) :
      Pooled p (.createFrame width height) (p.insert handle).2
  | ended (id : Nat) : Pooled p (.releaseFrame id) (p.remove id).2
  | released : Pooled p .release {}

variable (r : Resources) (h : Host)

theorem run_pooled (d : Deed) : Pooled r.frames d (d.run r h).1.frames := by
  have he := d.run_effect r h
  generalize hx : d.run r h = x at he ⊢
  cases he with
  | created width height =>
    -- that there was room is not among the effects
    rw [← hx, run]
    rcases r.createFrame_cases h width height with ⟨_, _, hrun⟩ | ⟨hfits, _, hrun⟩ <;> rw [hrun]
    · exact .kept _
    · exact .created width height _ hfits.1
  | @ended id _ _ hremove =>
    have hended : Pooled r.frames (.releaseFrame id) (r.frames.remove id).2 := .ended id
    rwa [hremove] at hended
  | registered =>
    dsimp only
    split <;> exact .kept _
  | attached =>
    dsimp only
    split <;> exact .kept _
  | released => exact .released
  | _ => exact .kept _

/-- A session never has more places than frames are allowed. -/
theorem size_run_le (hsize : r.frames.places.size ≤ Resources.maxFrames) (d : Deed) :
    (d.run r h).1.frames.places.size ≤ Resources.maxFrames := by
  have hp := d.run_pooled r h
  generalize (d.run r h).1.frames = q at hp
  cases hp with
  | kept => exact hsize
  | created _ _ handle hroom => exact Nat.le_trans (r.frames.size_insert_le handle) (Nat.max_le.mpr ⟨hsize, hroom⟩)
  | ended id => rwa [r.frames.size_remove id]
  | released => exact Nat.zero_le _

/-- What is found under a number stays there until its frame is ended, by itself or with all others. -/
theorem get?_run {k handle : Nat} (hk : r.frames.get? k = some handle) {d : Deed} (hd : d ≠ .releaseFrame k)
    (hrelease : d ≠ .release) : (d.run r h).1.frames.get? k = some handle := by
  have hp := d.run_pooled r h
  generalize (d.run r h).1.frames = q at hp
  cases hp with
  | kept => exact hk
  | created =>
    rw [FramePool.get?_insert, if_neg, hk]
    rintro rfl
    rw [r.frames.get?_nextId] at hk
    cases hk
  | ended id =>
    rw [FramePool.get?_remove, if_neg, hk]
    rintro rfl
    exact hd rfl
  | released => exact absurd rfl hrelease

end Deed

namespace Resources

/-- What a session holds after some deeds, whatever the host is like at each. -/
def after (r : Resources) (deeds : List (Host × Deed)) : Resources :=
  deeds.foldl (fun r d => (d.2.run r d.1).1) r

theorem size_after_le {r : Resources} (hsize : r.frames.places.size ≤ maxFrames) (deeds : List (Host × Deed)) :
    (r.after deeds).frames.places.size ≤ maxFrames := by
  induction deeds generalizing r with
  | nil => exact hsize
  | cons d rest ih => exact ih (d.2.size_run_le r d.1 hsize)

theorem get?_after {r : Resources} {k handle : Nat} (hk : r.frames.get? k = some handle)
    {deeds : List (Host × Deed)} (hdeeds : ∀ d ∈ deeds, d.2 ≠ .releaseFrame k ∧ d.2 ≠ .release) :
    (r.after deeds).frames.get? k = some handle := by
  induction deeds generalizing r with
  | nil => exact hk
  | cons d rest ih =>
    obtain ⟨hd, hrelease⟩ := hdeeds d List.mem_cons_self
    exact ih (d.2.get?_run r d.1 hk hd hrelease) fun e he => hdeeds e (List.mem_cons_of_mem d he)

/-- The product of two sizes of 32 bits fits in 64 bits. -/
theorem toNat_mul_sizes (width height : UInt32) :
    (width.toUInt64 * height.toUInt64).toNat = width.toNat * height.toNat := by
  have hlt : width.toNat * height.toNat < 2 ^ 32 * 2 ^ 32 := Nat.mul_lt_mul'' width.toNat_lt height.toNat_lt
  rw [UInt64.toNat_mul, UInt32.toNat_toUInt64, UInt32.toNat_toUInt64]
  exact Nat.mod_eq_of_lt hlt

/-- **Numbers are dense and the least free one is next.**  Whatever a session did, on whatever hosts: it has at most
256 frames, with numbers below 256, and the search for a free number looks at no more numbers than there are frames
and one.  It gets another frame exactly if it has fewer than 256 and the product of the sizes, which fits in 64 bits, is
at most 4096 times 4096.  The new frame has the least number that was free, and nothing else is found under the other
numbers than before.  The number stands for the new frame until the session ends that, and for none after. -/
theorem numbers_least_free (id : Nat) (terminal : Option Nat) (deeds : List (Host × Deed)) :
    let r := Resources.after { id, terminal } deeds
    (r.frames.count ≤ 256 ∧ ∀ k, (r.frames.get? k).isSome = true → k < 256) ∧
      r.frames.probe (r.frames.count + 1) 0 = some r.frames.nextId ∧
      ∀ (h : Host) (width height : UInt32),
        let made := r.createFrame h width.toNat height.toNat
        (width.toUInt64 * height.toUInt64).toNat = width.toNat * height.toNat ∧
        ((∃ k, made.1 = .ok k) ↔ r.frames.count < 256 ∧ width.toUInt64 * height.toUInt64 ≤ 4096 * 4096) ∧
        ∀ k, made.1 = .ok k →
          (r.frames.get? k = none ∧ (∀ m < k, (r.frames.get? m).isSome = true)) ∧
          (∀ m, m ≠ k → made.2.1.frames.get? m = r.frames.get? m) ∧
          ∃ handle, (h.renderer.frame? handle = none ∧
              made.2.2.renderer.frame? handle = some (Frame.blank width.toNat height.toNat)) ∧
            ∀ later : List (Host × Deed), (∀ d ∈ later, d.2 ≠ .releaseFrame k ∧ d.2 ≠ .release) →
              (made.2.1.after later).frames.get? k = some handle ∧
                ∀ h', ((made.2.1.after later).releaseFrame h' k).1 = true ∧
                  ((made.2.1.after later).releaseFrame h' k).2.1.frames.get? k = none := by
  intro r
  have hsize : r.frames.places.size ≤ maxFrames := size_after_le (Nat.zero_le _) deeds
  refine ⟨⟨Nat.le_trans r.frames.count_le_size hsize, fun k hk =>
    Nat.lt_of_lt_of_le (r.frames.lt_size_of_get?_isSome hk) hsize⟩, r.frames.probe_nextId, ?_⟩
  intro h width height made
  have hproduct := toNat_mul_sizes width height
  refine ⟨hproduct, ?_, fun k hk => ?_⟩
  · have hlimit : width.toUInt64 * height.toUInt64 ≤ 4096 * 4096 ↔ width.toNat * height.toNat ≤ maxPixels := by
      rw [UInt64.le_iff_toNat_le, hproduct]
      rfl
    rw [hlimit]
    exact r.createFrame_ok_iff h width.toNat height.toNat
  · obtain ⟨rfl, hframes, hrenderer⟩ := r.createFrame_of_ok h hk
    refine ⟨r.frames.nextId_spec.2, fun m hm => ?_, h.renderer.frames.size, ⟨?_, ?_⟩, fun later hlater => ?_⟩
    · rw [hframes, FramePool.get?_insert, if_neg hm]
    · exact h.renderer.frame?_eq_none_of_size_le (Nat.le_refl _)
    · rw [hrenderer, Renderer.frame?_create, if_pos rfl]
    · have hnew : made.2.1.frames.get? r.frames.nextId = some h.renderer.frames.size := by
        rw [hframes, FramePool.get?_insert, if_pos rfl]
      have hheld := get?_after hnew hlater
      refine ⟨hheld, fun h' => ?_⟩
      obtain ⟨hdone, hgone⟩ := (made.2.1.after later).releaseFrame_frames h' r.frames.nextId
      rw [hdone, hgone, hheld, FramePool.get?_remove, if_pos rfl]
      exact ⟨rfl, rfl⟩

/-- Two frames are made and the first is ended: its number is the next one's, and stays it while others come and go. -/
theorem numbers_least_free_after_ended :
    let r := Resources.after { id := 0 } [({}, .createFrame 1 1), ({}, .createFrame 2 2), ({}, .releaseFrame 0)]
    let made := r.createFrame {} (3 : UInt32).toNat (5 : UInt32).toNat
    let later : List (Host × Deed) := [({}, .createFrame 1 1), ({}, .releaseFrame 1)]
    made.1 = .ok 0 ∧ (∀ d ∈ later, d.2 ≠ .releaseFrame 0 ∧ d.2 ≠ .release) ∧
      ∃ handle, (made.2.1.after later).frames.get? 0 = some handle := by
  intro r made later
  have hmade : made.1 = .ok 0 := by decide +kernel
  have hlater : ∀ d ∈ later, d.2 ≠ .releaseFrame 0 ∧ d.2 ≠ .release := by decide
  obtain ⟨_, _, hcreate⟩ := numbers_least_free 0 none
    [({}, .createFrame 1 1), ({}, .createFrame 2 2), ({}, .releaseFrame 0)]
  obtain ⟨_, _, hnumber⟩ := hcreate {} 3 5
  obtain ⟨_, _, handle, _, hheld⟩ := hnumber 0 hmade
  exact ⟨hmade, hlater, handle, (hheld later hlater).1⟩

end Resources

end ScriptHost

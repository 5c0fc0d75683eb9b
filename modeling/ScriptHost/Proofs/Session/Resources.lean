import Mathlib.Data.List.Perm.Basic
import ScriptHost.Proofs.Host.Tables
import ScriptHost.Session.Resources

/-!
# What the operations on resources do

Each operation either is refused and changes nothing, or changes what the session holds and the host's tables in one
way.  Here that is said once for each:

* `FramePool.nextId_spec` — the least number that is free;
* `FramePool.handles_insert_perm`, `FramePool.handles_remove_perm` — the handles of a pool that a frame is added to or
  taken out of;
* `Resources.createFrame_cases` … `Resources.detachSlot_cases` — the operations, one theorem for each;
* `Resources.release_eq`, `Resources.freed_tables` — giving everything back, and what the host's tables are then.
-/

namespace ScriptHost

/-! ### The frames of a session -/

namespace FramePool

/-- Filling an empty place adds what is put there. -/
theorem filterMap_set_perm {l : List (Option Nat)} {i : Nat} (h : l[i]? = some none) (handle : Nat) :
    ((l.set i (some handle)).filterMap id).Perm (handle :: l.filterMap id) := by
  obtain ⟨hi, hnone⟩ := List.getElem?_eq_some_iff.mp h
  have hl : l.filterMap id = (l.take i).filterMap id ++ (l.drop (i + 1)).filterMap id := by
    conv => lhs; rw [← List.take_append_drop i l, List.drop_eq_getElem_cons hi, hnone]
    simp
  rw [List.set_eq_take_append_cons_drop, if_pos hi, hl]
  simp only [List.filterMap_append, List.filterMap_cons, id_eq]
  exact List.perm_middle

variable (p : FramePool)

theorem get?_eq_none_of_size_le {k : Nat} (h : p.places.size ≤ k) : p.get? k = none := by
  rw [get?, Array.getD_eq_getD_getElem?, Array.getElem?_eq_none h]
  rfl

theorem get?_of_lt_size {k : Nat} (h : k < p.places.size) : p.get? k = p.places[k] := by
  rw [get?, Array.getD_eq_getD_getElem?, Array.getElem?_eq_getElem h]
  rfl

theorem lt_size_of_get?_isSome {k : Nat} (h : (p.get? k).isSome = true) : k < p.places.size := by
  refine Nat.lt_of_not_le fun hle => ?_
  rw [p.get?_eq_none_of_size_le hle] at h
  cases h

theorem count_le_size : p.count ≤ p.places.size := Array.countP_le_size

/-- The least free number is free, and it is the least. -/
theorem nextId_spec :
    p.nextId ≤ p.places.size ∧ p.get? p.nextId = none ∧ ∀ m < p.nextId, (p.get? m).isSome = true := by
  cases hfind : p.places.findIdx? Option.isNone with
  | none =>
    have hid : p.nextId = p.places.size := by rw [nextId, hfind, Option.getD_none]
    have hall := Array.findIdx?_eq_none_iff.mp hfind
    rw [hid]
    refine ⟨Nat.le_refl _, p.get?_eq_none_of_size_le (Nat.le_refl _), fun m hm => ?_⟩
    rw [p.get?_of_lt_size hm]
    exact Option.isNone_eq_false_iff.mp (hall _ (Array.getElem_mem hm))
  | some i =>
    have hid : p.nextId = i := by rw [nextId, hfind, Option.getD_some]
    obtain ⟨hi, hnone, hleast⟩ := Array.findIdx?_eq_some_iff_getElem.mp hfind
    rw [hid]
    refine ⟨Nat.le_of_lt hi, ?_, fun m hm => ?_⟩
    · rw [p.get?_of_lt_size hi, Option.isNone_iff_eq_none.mp hnone]
    · rw [p.get?_of_lt_size (Nat.lt_trans hm hi), ← Option.isNone_eq_false_iff]
      exact Bool.eq_false_iff.mpr (hleast m hm)

theorem get?_nextId : p.get? p.nextId = none := p.nextId_spec.2.1

/-- The handles of a pool that a frame was added to. -/
theorem handles_insert_perm (handle : Nat) : (p.insert handle).2.handles.Perm (handle :: p.handles) := by
  show List.Perm (List.filterMap id
    (if p.nextId < p.places.size then p.places.setIfInBounds p.nextId (some handle)
      else p.places.push (some handle)).toList) _
  by_cases hlt : p.nextId < p.places.size
  · rw [if_pos hlt, Array.toList_setIfInBounds]
    refine filterMap_set_perm ?_ handle
    rw [Array.getElem?_toList, Array.getElem?_eq_getElem hlt, ← p.get?_of_lt_size hlt, p.get?_nextId]
  · rw [if_neg hlt, Array.toList_push, List.filterMap_append]
    exact List.perm_append_singleton handle p.handles

/-- The handles of a pool that a frame was taken out of. -/
theorem handles_remove_perm {p q : FramePool} {id handle : Nat} (h : p.remove id = (some handle, q)) :
    p.handles.Perm (handle :: q.handles) := by
  rw [remove] at h
  cases hget : p.get? id with
  | none => rw [hget] at h; cases h
  | some k =>
    rw [hget] at h
    cases h
    have hid : p.places.toList[id]? = some (some handle) := by
      have hlt : id < p.places.size := p.lt_size_of_get?_isSome (by rw [hget]; rfl)
      rw [Array.getElem?_toList, Array.getElem?_eq_getElem hlt, ← p.get?_of_lt_size hlt, hget]
    obtain ⟨hlt, hsome⟩ := List.getElem?_eq_some_iff.mp hid
    have hback : (p.places.toList.set id none).set id (some handle) = p.places.toList := by
      rw [List.set_set, ← hsome, List.set_getElem_self]
    have hperm := filterMap_set_perm (l := p.places.toList.set id none) (i := id)
      (by rw [List.getElem?_set_self hlt]) handle
    rw [hback] at hperm
    show List.Perm _ (handle :: (p.places.setIfInBounds id none).toList.filterMap _)
    rw [Array.toList_setIfInBounds]
    exact hperm

theorem mem_handles_of_get? {id handle : Nat} (h : p.get? id = some handle) : handle ∈ p.handles :=
  (handles_remove_perm (q := (p.remove id).2) (by rw [remove, h])).mem_iff.mpr List.mem_cons_self

theorem count_eq_length_handles : p.count = p.handles.length := by
  rw [count, handles, List.length_filterMap_eq_countP, ← Array.countP_toList]
  rfl

end FramePool

/-! ### The operations -/

namespace Resources

variable (r : Resources) (h : Host)

/-- The handles of the frames that a session holds. -/
abbrev handles : List Nat := r.frames.handles

/-- A frame is made if the session may have one more and it is not too large. -/
theorem createFrame_cases (width height : Nat) :
    ¬ (r.frames.count < maxFrames ∧ width * height ≤ maxPixels) ∧
        (∃ error, (r.createFrame h width height).1 = .error error) ∧ (r.createFrame h width height).2 = (r, h) ∨
      (r.frames.count < maxFrames ∧ width * height ≤ maxPixels) ∧
        (r.createFrame h width height).1 = .ok r.frames.nextId ∧
        (r.createFrame h width height).2
          = ({ r with frames := (r.frames.insert h.renderer.frames.size).2 },
            { h with renderer := (h.renderer.create width height).2 }) := by
  rw [createFrame]
  split
  · rename_i hfull
    exact .inl ⟨fun hfits => absurd hfits.1 (Nat.not_lt.mpr hfull), ⟨_, rfl⟩, rfl⟩
  · rename_i hroom
    split
    · rename_i hlarge
      exact .inl ⟨fun hfits => absurd hfits.2 (Nat.not_le.mpr hlarge), ⟨_, rfl⟩, rfl⟩
    · rename_i hsmall
      exact .inr ⟨⟨Nat.lt_of_not_le hroom, Nat.le_of_not_lt hsmall⟩, rfl, rfl⟩

theorem releaseFrame_cases (id : Nat) :
    (r.releaseFrame h id).2 = (r, h) ∨
      ∃ handle frames, r.frames.remove id = (some handle, frames) ∧
        (r.releaseFrame h id).2
          = ({ r with frames },
            { h with display := hide h.display handle r.slots, renderer := h.renderer.release handle }) := by
  rw [releaseFrame]
  split
  · exact .inl rfl
  · rename_i handle frames hremove
    exact .inr ⟨handle, frames, hremove, rfl⟩

theorem registerChannel_cases (name : String) :
    (r.registerChannel h name).2 = (r, h) ∨
      (h.channels.find? name).all (fun c => c.owner == r.id) = true ∧
        (r.registerChannel h name).2
          = (if r.channels.contains name then r else { r with channels := r.channels ++ [name] },
            { h with channels := (h.channels.register name r.id).2 }) := by
  have hfst := h.channels.register_fst name r.id
  rw [registerChannel]
  split
  · exact .inl rfl
  · rename_i channels hregister
    rw [hregister] at hfst
    exact .inr ⟨hfst.symm, by rw [hregister]⟩

theorem unregisterChannel_cases (name : String) :
    (r.unregisterChannel h name).2 = (r, h) ∨
      name ∈ r.channels ∧
        (r.unregisterChannel h name).2
          = ({ r with channels := r.channels.erase name },
            { h with channels := (h.channels.unregister name r.id).2 }) := by
  rw [unregisterChannel]
  split
  · rename_i hcontains
    exact .inr ⟨List.contains_iff_mem.mp hcontains, rfl⟩
  · exact .inl rfl

theorem attachSlot_cases (slot frame : Nat) :
    (r.attachSlot h slot frame).2 = (r, h) ∨
      ∃ handle, r.frames.get? frame = some handle ∧
        (r.attachSlot h slot frame).2
          = (if r.slots.contains slot then r else { r with slots := r.slots ++ [slot] },
            { h with display := (h.display.set slot (some handle)).2 }) := by
  rw [attachSlot]
  cases hget : r.frames.get? frame with
  | none => exact .inl rfl
  | some handle =>
    cases hset : h.display.set slot (some handle) with
    | mk done display =>
      cases done with
      | false => exact .inl (by simp only [hset])
      | true => exact .inr ⟨handle, rfl, by simp only [hset]⟩

theorem detachSlot_cases (slot : Nat) :
    slot ∉ r.slots ∧ (r.detachSlot h slot).2 = (r, h) ∨
      slot ∈ r.slots ∧
        (r.detachSlot h slot).2
          = ({ r with slots := r.slots.erase slot }, { h with display := (h.display.set slot none).2 }) := by
  rw [detachSlot]
  split
  · rename_i hcontains
    exact .inr ⟨List.contains_iff_mem.mp hcontains, rfl⟩
  · rename_i hcontains
    exact .inl ⟨fun hslot => hcontains (List.contains_iff_mem.mpr hslot), rfl⟩

/-- A frame is shown no more in some slots; nothing else changes. -/
theorem get_hide (d : Display) (handle : Nat) (slots : List Nat) (k : Nat) :
    (hide d handle slots).get k = if k ∈ slots ∧ d.get k = some handle then none else d.get k := by
  induction slots generalizing d with
  | nil => simp [hide]
  | cons slot rest ih =>
    show (hide (if d.get slot = some handle then (d.set slot none).2 else d) handle rest).get k = _
    rw [ih]
    by_cases hshown : d.get slot = some handle
    · rw [if_pos hshown, Display.get_set_none]
      by_cases hk : k = slot
      · subst hk
        simp [hshown]
      · simp [hk]
    · rw [if_neg hshown]
      by_cases hk : k = slot
      · subst hk
        simp [hshown]
      · simp [hk]

/-! ### Giving everything back -/

theorem release_released : (r.release h).2.1.released = true := by
  rw [release]
  split
  · assumption
  · rfl

/-- Resources are released once. -/
theorem release_of_released {r : Resources} (hr : r.released = true) (h : Host) :
    r.release h = (none, r, h) := by
  rw [release, if_pos hr]

theorem release_fst_isNone : (r.release h).1.isNone = r.released := by
  rw [release]
  cases hr : r.released <;> rfl

/-- Giving back resources that were not released: the answer counts what was held, and nothing of it is left. -/
theorem release_eq (hr : r.released = false) :
    r.release h = (some ⟨r.frames.handles.length, r.channels.length, r.slots.length⟩,
      { r with frames := {}, channels := [], slots := [], released := true }, r.freed h) := by
  rw [release, hr, FramePool.count_eq_length_handles]
  rfl

/-- The host's tables without what a session holds. -/
theorem freed_tables :
    (r.freed h).renderer = r.frames.handles.foldl Renderer.release h.renderer ∧
      (r.freed h).channels = r.channels.foldl (fun cs name => (cs.unregister name r.id).2) h.channels ∧
      (r.freed h).display = r.slots.foldl (fun d slot => (d.set slot none).2) h.display := by
  simp only [freed]
  split <;> exact ⟨rfl, rfl, rfl⟩

end Resources

end ScriptHost

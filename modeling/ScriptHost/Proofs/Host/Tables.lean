import ScriptHost.Host.Basic

/-!
# The tables of the host

What a look-up in one of the host's shared tables gives after each operation on it.  Each table is seen through one
function, and no operation on one entry changes what that function gives for another:

* `Renderer.frame?` after `create`, `request`, `release` and `setPixel`;
* `Channels.find?` after `register`, `unregister`, `send` and `poll`;
* `Display.get` after `set`;
* `Host.terminal` after `onTerminal`;
* `Host.isTerminated` after `terminate`.
-/

namespace ScriptHost

/-! ### Frames -/

namespace Renderer

variable (r : Renderer)

theorem size_create (width height : Nat) : (r.create width height).2.frames.size = r.frames.size + 1 :=
  Array.size_push _

theorem size_release (handle : Nat) : (r.release handle).frames.size = r.frames.size :=
  Array.size_setIfInBounds

theorem size_setPixel (handle x y : Nat) (c : UInt8) :
    (r.setPixel handle x y c).frames.size = r.frames.size :=
  Array.size_modify

theorem frame?_eq_none_of_size_le {handle : Nat} (h : r.frames.size ≤ handle) : r.frame? handle = none := by
  rw [frame?, Array.getD_eq_getD_getElem?, Array.getElem?_eq_none h]
  rfl

theorem lt_size_of_frame?_isSome {handle : Nat} (h : (r.frame? handle).isSome = true) :
    handle < r.frames.size := by
  refine Nat.lt_of_not_le fun hle => ?_
  rw [r.frame?_eq_none_of_size_le hle] at h
  cases h

theorem frame?_create (width height k : Nat) :
    (r.create width height).2.frame? k
      = if k = r.frames.size then some (Frame.blank width height) else r.frame? k := by
  show (r.frames.push _).getD k none = _
  rw [Array.getD_eq_getD_getElem?, Array.getElem?_push, frame?, Array.getD_eq_getD_getElem?]
  split <;> rfl

/-- **A frame of any size** is made exactly if its pixels can stand in one piece.  Whether there is one or not, the next
number is used up. -/
theorem request_cases (width height : UInt32) :
    width.toNat * height.toNat ≤ maxBytes ∧
        r.request width height = (.ok r.frames.size, (r.create width.toNat height.toNat).2) ∨
      maxBytes < width.toNat * height.toNat ∧
        r.request width height = (.error "capacity overflow", { r with frames := r.frames.push none }) := by
  rw [request]
  by_cases hfits : width.toNat * height.toNat ≤ maxBytes
  · rw [if_pos hfits]
    exact .inl ⟨hfits, rfl⟩
  · rw [if_neg hfits]
    exact .inr ⟨Nat.lt_of_not_le hfits, rfl⟩

theorem size_request (width height : UInt32) : (r.request width height).2.frames.size = r.frames.size + 1 := by
  rcases r.request_cases width height with ⟨-, hrequest⟩ | ⟨-, hrequest⟩ <;> rw [hrequest] <;> exact Array.size_push _

/-- A number without a frame is found as little as before. -/
theorem frame?_push_none (k : Nat) : ({ r with frames := r.frames.push none } : Renderer).frame? k = r.frame? k := by
  show (r.frames.push none).getD k none = r.frames.getD k none
  rw [Array.getD_eq_getD_getElem?, Array.getD_eq_getD_getElem?, Array.getElem?_push]
  split
  · rename_i hk
    rw [hk, Array.getElem?_eq_none (Nat.le_refl _)]
    rfl
  · rfl

theorem frame?_release (handle k : Nat) :
    (r.release handle).frame? k = if k = handle then none else r.frame? k := by
  show (r.frames.setIfInBounds handle none).getD k none = _
  rw [Array.getD_eq_getD_getElem?, Array.getElem?_setIfInBounds, frame?, Array.getD_eq_getD_getElem?]
  by_cases hk : k = handle
  · subst hk
    rw [if_pos rfl, if_pos rfl]
    split <;> rfl
  · rw [if_neg (Ne.symm hk), if_neg hk]

theorem frame?_setPixel (handle x y k : Nat) (c : UInt8) :
    (r.setPixel handle x y c).frame? k
      = if k = handle then (r.frame? k).map (·.set x y c) else r.frame? k := by
  show (r.frames.modify handle _).getD k none = _
  rw [Array.getD_eq_getD_getElem?, Array.getElem?_modify, frame?, Array.getD_eq_getD_getElem?]
  by_cases hk : k = handle
  · subst hk
    rw [if_pos rfl, if_pos rfl]
    cases r.frames[k]? <;> rfl
  · rw [if_neg (Ne.symm hk), if_neg hk]

/-- Releasing frames one after the other ends those and no others. -/
theorem frame?_foldl_release (handles : List Nat) (k : Nat) :
    (handles.foldl release r).frame? k = if k ∈ handles then none else r.frame? k := by
  induction handles generalizing r with
  | nil => simp
  | cons a rest ih =>
    rw [List.foldl_cons, ih, frame?_release]
    by_cases hk : k = a <;> by_cases hr : k ∈ rest <;> simp [hk, hr]

theorem size_foldl_release (handles : List Nat) :
    (handles.foldl release r).frames.size = r.frames.size := by
  induction handles generalizing r with
  | nil => rfl
  | cons a rest ih => rw [List.foldl_cons, ih, size_release]

end Renderer

/-! ### Channels -/

namespace Channels

variable (cs : Channels)

theorem name_of_find? {name : String} {c : Channel} (h : cs.find? name = some c) : c.name = name := by
  have := List.find?_some h
  simpa using this

theorem find?_change {f : Channel → Channel} (hf : ∀ c, (f c).name = c.name) (name k : String) :
    (cs.change name f).find? k = if k = name then (cs.find? k).map f else cs.find? k := by
  show (cs.all.map _).find? _ = _
  rw [find?, List.find?_map]
  have hname : ((fun c : Channel => c.name == k) ∘ fun c => if c.name == name then f c else c)
      = fun c : Channel => c.name == k := by
    funext c
    simp only [Function.comp_apply]
    split <;> simp only [hf]
  rw [hname]
  cases hc : cs.all.find? (fun c => c.name == k) with
  | none => simp
  | some c =>
    have hn : c.name = k := cs.name_of_find? hc
    by_cases hk : k = name <;> simp [hn, hk]

theorem register_fst (name : String) (owner : Nat) :
    (cs.register name owner).1 = ((cs.find? name).all fun c => c.owner == owner) := by
  rw [register]
  cases cs.find? name <;> rfl

/-- Registering makes a channel where there was none and changes nothing else. -/
theorem find?_register (name : String) (owner : Nat) (k : String) :
    (cs.register name owner).2.find? k
      = if k = name then some ((cs.find? name).getD { name, owner }) else cs.find? k := by
  rw [register]
  cases hc : cs.find? name with
  | some c =>
    by_cases hk : k = name
    · rw [if_pos hk, hk]
      exact hc
    · rw [if_neg hk]
  | none =>
    show (cs.all ++ [_]).find? _ = _
    rw [List.find?_append]
    by_cases hk : k = name
    · subst hk
      rw [if_pos rfl, show cs.all.find? (fun c => c.name == k) = none from hc]
      simp
    · rw [if_neg hk, find?]
      simp [Ne.symm hk]

/-- Unregistering ends the channel of the name, if it is the owner's, and changes nothing else. -/
theorem find?_unregister (name : String) (owner : Nat) (k : String) :
    (cs.unregister name owner).2.find? k
      = if k = name then (cs.find? k).filter (fun c => c.owner != owner) else cs.find? k := by
  rw [unregister]
  cases hc : cs.find? name with
  | none =>
    by_cases hk : k = name
    · rw [if_pos hk, hk, hc]
      rfl
    · rw [if_neg hk]
  | some c =>
    show (if c.owner == owner then _ else _ : Bool × Channels).2.find? k = _
    by_cases ho : (c.owner == owner) = true
    · rw [if_pos ho]
      show (cs.all.filter _).find? _ = _
      rw [List.find?_filter]
      by_cases hk : k = name
      · subst hk
        rw [if_pos rfl, hc, Option.filter_some, if_neg (by simp [beq_iff_eq.mp ho])]
        simp
      · rw [if_neg hk, find?]
        congr 1
        funext d
        by_cases hd : d.name = k <;> simp [hd, hk]
    · rw [if_neg ho]
      by_cases hk : k = name
      · rw [if_pos hk, hk, hc, Option.filter_some, if_pos (by simpa using ho)]
      · rw [if_neg hk]

/-- Sending changes at most the queue of the channel with the name. -/
theorem find?_send (name message k : String) :
    ∃ f : Channel → Channel, (∀ c, (f c).name = c.name ∧ (f c).owner = c.owner) ∧
      (cs.send name message).2.find? k = if k = name then (cs.find? k).map f else cs.find? k := by
  rw [send]
  cases hc : cs.find? name with
  | none => exact ⟨id, fun c => ⟨rfl, rfl⟩, by simp⟩
  | some c =>
    by_cases hq : c.queue.length < queueLimit
    · refine ⟨fun c => { c with queue := c.queue ++ [message] }, fun c => ⟨rfl, rfl⟩, ?_⟩
      show (if c.queue.length < queueLimit then _ else _ : Bool × Channels).2.find? k = _
      rw [if_pos hq]
      exact cs.find?_change (f := fun c => { c with queue := c.queue ++ [message] }) (fun c => rfl) name k
    · refine ⟨id, fun c => ⟨rfl, rfl⟩, ?_⟩
      show (if c.queue.length < queueLimit then _ else _ : Bool × Channels).2.find? k = _
      rw [if_neg hq]
      simp

/-- Receiving changes at most the queue of the channel with the name. -/
theorem find?_poll (name : String) (owner : Nat) (k : String) :
    ∃ f : Channel → Channel, (∀ c, (f c).name = c.name ∧ (f c).owner = c.owner) ∧
      (cs.poll name owner).2.find? k = if k = name then (cs.find? k).map f else cs.find? k := by
  have hsame : cs.find? k = if k = name then (cs.find? k).map id else cs.find? k := by simp
  rw [poll]
  cases hc : cs.find? name with
  | none => exact ⟨id, fun c => ⟨rfl, rfl⟩, hsame⟩
  | some c =>
    by_cases ho : (c.owner == owner) = true
    · show ∃ f : Channel → Channel, _ ∧ (if c.owner == owner then _ else _ : Option String × Channels).2.find? k = _
      rw [if_pos ho]
      cases c.queue with
      | nil => exact ⟨id, fun c => ⟨rfl, rfl⟩, hsame⟩
      | cons m rest =>
        exact ⟨fun c => { c with queue := c.queue.tail }, fun c => ⟨rfl, rfl⟩,
          cs.find?_change (f := fun c => { c with queue := c.queue.tail }) (fun c => rfl) name k⟩
    · show ∃ f : Channel → Channel, _ ∧ (if c.owner == owner then _ else _ : Option String × Channels).2.find? k = _
      rw [if_neg ho]
      exact ⟨id, fun c => ⟨rfl, rfl⟩, hsame⟩

/-- Unregistering one owner's channels one after the other ends those of its channels that are named. -/
theorem find?_foldl_unregister (names : List String) (owner : Nat) (k : String) :
    (names.foldl (fun cs name => (cs.unregister name owner).2) cs).find? k
      = if k ∈ names then (cs.find? k).filter (fun c => c.owner != owner) else cs.find? k := by
  induction names generalizing cs with
  | nil => simp
  | cons a rest ih =>
    rw [List.foldl_cons, ih, find?_unregister]
    by_cases hk : k = a <;> by_cases hr : k ∈ rest <;> simp [hk, hr]

end Channels

/-! ### The display -/

namespace Display

variable (d : Display)

theorem get_eq_none {slot : Nat} (h : 8 ≤ slot) : d.get slot = none := by
  rw [get, dif_neg (Nat.not_lt.mpr h)]

theorem get_set (slot : Nat) (frame : Option Nat) (k : Nat) :
    (d.set slot frame).2.get k = if k = slot ∧ slot < 8 then frame else d.get k := by
  rw [set]
  by_cases hs : slot < 8
  · rw [dif_pos hs, get, get]
    by_cases hk : k < 8
    · rw [dif_pos hk, dif_pos hk, Vector.getElem_set]
      by_cases he : k = slot
      · rw [if_pos he.symm, if_pos ⟨he, hs⟩]
      · rw [if_neg (Ne.symm he), if_neg fun h => he h.1]
    · rw [dif_neg hk, dif_neg hk, if_neg (by omega)]
  · rw [dif_neg hs, if_neg fun h => hs h.2]

theorem get_set_none (slot k : Nat) :
    (d.set slot none).2.get k = if k = slot then none else d.get k := by
  rw [get_set]
  by_cases hk : k = slot
  · subst hk
    by_cases hs : k < 8
    · rw [if_pos ⟨rfl, hs⟩, if_pos rfl]
    · rw [if_neg fun h => hs h.2, if_pos rfl, d.get_eq_none (Nat.le_of_not_lt hs)]
  · rw [if_neg fun h => hk h.1, if_neg hk]

/-- Clearing slots one after the other clears those and no others. -/
theorem get_foldl_clear (slots : List Nat) (k : Nat) :
    (slots.foldl (fun d slot => (d.set slot none).2) d).get k = if k ∈ slots then none else d.get k := by
  induction slots generalizing d with
  | nil => simp
  | cons a rest ih =>
    rw [List.foldl_cons, ih, get_set_none]
    by_cases hk : k = a <;> by_cases hr : k ∈ rest <;> simp [hk, hr]

end Display

/-! ### Terminals -/

namespace Host

variable (h : Host)

theorem terminal_onTerminal (t : Nat) (f : Terminal → Terminal) (k : Nat) :
    (h.onTerminal t f).terminal k
      = if k = t ∧ t < h.terminals.size then f (h.terminal k) else h.terminal k := by
  show (h.terminals.modify t f).getD k {} = _
  rw [Array.getD_eq_getD_getElem?, Array.getElem?_modify, terminal, Array.getD_eq_getD_getElem?]
  by_cases hk : k = t
  · subst hk
    rw [if_pos rfl]
    by_cases hs : k < h.terminals.size
    · rw [if_pos ⟨rfl, hs⟩, Array.getElem?_eq_getElem hs]
      rfl
    · rw [if_neg fun x => hs x.2, Array.getElem?_eq_none (Nat.le_of_not_lt hs)]
      rfl
  · rw [if_neg (Ne.symm hk), if_neg fun x => hk x.1]

theorem size_onTerminal (t : Nat) (f : Terminal → Terminal) : (h.onTerminal t f).terminals.size = h.terminals.size :=
  Array.size_modify

/-- There is a terminal that a session holds. -/
theorem lt_size_of_active {h : Host} {t i : Nat} (hactive : (h.terminal t).active = some i) : t < h.terminals.size := by
  refine Nat.lt_of_not_le fun hle => ?_
  rw [terminal, Array.getD_eq_getD_getElem?, Array.getElem?_eq_none hle] at hactive
  cases hactive

theorem isHeldBy_iff {h : Host} {t i : Nat} : h.isHeldBy t i = true ↔ (h.terminal t).active = some i := beq_iff_eq

/-- A session that gives a terminal back does not hold it. -/
theorem isHeldBy_release (t session : Nat) :
    (h.onTerminal t fun x => x.release session).isHeldBy t session = false := by
  rw [isHeldBy, terminal_onTerminal]
  by_cases ht : t < h.terminals.size
  · rw [if_pos ⟨rfl, ht⟩, Terminal.release]
    split
    · rfl
    · simpa using ‹_›
  · rw [if_neg fun x => ht x.2, terminal, Array.getD_eq_getD_getElem?,
      Array.getElem?_eq_none (Nat.le_of_not_lt ht)]
    rfl

/-! ### Requests to end -/

theorem isTerminated_terminate (session k : Nat) :
    (h.terminate session).isTerminated k = (decide (k = session) || h.isTerminated k) := by
  show ((h.requested ++ Array.replicate (session + 1 - h.requested.size) false).setIfInBounds session true).getD k false = _
  rw [Array.getD_eq_getD_getElem?, Array.getElem?_setIfInBounds, isTerminated, Array.getD_eq_getD_getElem?]
  have hsize : session < (h.requested ++ Array.replicate (session + 1 - h.requested.size) false).size := by
    rw [Array.size_append, Array.size_replicate]
    omega
  by_cases hk : k = session
  · rw [if_pos hk.symm, if_pos hsize, decide_eq_true hk]
    rfl
  · rw [if_neg (Ne.symm hk), decide_eq_false hk, Bool.false_or, Array.getElem?_append]
    split
    · rfl
    · rename_i hle
      rw [Array.getElem?_eq_none (Nat.le_of_not_lt hle), Array.getElem?_replicate]
      split <;> rfl

end Host

end ScriptHost

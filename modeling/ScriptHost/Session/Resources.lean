import ScriptHost.Host.Basic

/-!
# What a session holds

A session makes frames, registers channels and attaches frames to the slots of the display. All that it holds
is given back when it ends.

* `FramePool`: the frames of a session. Each gets the least number that is free.
* `Resources`: frames, channels and slots of a session.
* `Resources.release`: give back all of it, once.
-/

namespace ScriptHost

/-- The frames of a session: the number of each is its place, and what is there is its handle. -/
structure FramePool where
  places : Array (Option Nat) := #[]
  deriving DecidableEq, Repr, Inhabited

namespace FramePool

/-- The least number that is free. -/
def nextId (p : FramePool) : Nat := (p.places.findIdx? Option.isNone).getD p.places.size

/-- Add a frame under the least number that is free. -/
def insert (p : FramePool) (handle : Nat) : Nat × FramePool :=
  let id := p.nextId
  (id, ⟨if id < p.places.size then Script.put p.places id (some handle) else p.places.push (some handle)⟩)

/-- The handle of a frame. -/
def get? (p : FramePool) (id : Nat) : Option Nat := p.places.getD id none

/-- Take a frame out. -/
def remove (p : FramePool) (id : Nat) : Option Nat × FramePool :=
  match p.get? id with
  | some handle => (some handle, ⟨Script.put p.places id none⟩)
  | none => (none, p)

/-- How many frames there are. -/
def count (p : FramePool) : Nat := p.places.countP Option.isSome

/-- The handles in the order of the numbers. -/
def handles (p : FramePool) : List Nat := p.places.toList.filterMap id

end FramePool

/-- How much a session gave back. -/
structure ReleaseSummary where
  frames : Nat := 0
  channels : Nat := 0
  slots : Nat := 0
  deriving DecidableEq, Repr, Inhabited

/-- What a session holds. -/
structure Resources where
  /-- The number of the session. -/
  id : Nat
  terminal : Option Nat := none
  frames : FramePool := {}
  channels : List String := []
  slots : List Nat := []
  released : Bool := false
  deriving DecidableEq, Repr, Inhabited

namespace Resources

/-- How many frames a session holds at most. -/
def maxFrames : Nat := 256

/-- How many pixels a frame has at most. -/
def maxPixels : Nat := 4096 * 4096

/-- The session's terminal, if it holds it. -/
def held? (r : Resources) (h : Host) : Option Nat := r.terminal.filter fun t => h.isHeldBy t r.id

/-- Change the hooks of the session's terminal, if it holds it. -/
def changeHooks (r : Resources) (h : Host) (f : Hooks → Hooks) : Bool × Host :=
  match r.held? h with
  | some t => (true, h.onTerminal t fun x => { x with hooks := f x.hooks })
  | none => (false, h)

/-- Make a frame. -/
def createFrame (r : Resources) (h : Host) (width height : Nat) : Except String Nat × Resources × Host :=
  if maxFrames ≤ r.frames.count then
    (.error ("frame limit reached (" ++ toString maxFrames ++ " frames)"), r, h)
  else if maxPixels < width * height then
    (.error ("frame " ++ toString width ++ "x" ++ toString height ++ " exceeds " ++ toString maxPixels ++
      " pixels"), r, h)
  else
    let (handle, renderer) := h.renderer.create width height
    let (id, frames) := r.frames.insert handle
    (.ok id, { r with frames }, { h with renderer })

/-- The display without a frame in any of some slots. -/
def hide (d : Display) (handle : Nat) (slots : List Nat) : Display :=
  slots.foldl (fun d slot => if d.get slot = some handle then (d.set slot none).2 else d) d

/-- End a frame, and show it no more in the session's slots. -/
def releaseFrame (r : Resources) (h : Host) (id : Nat) : Bool × Resources × Host :=
  match r.frames.remove id with
  | (none, _) => (false, r, h)
  | (some handle, frames) =>
    (true, { r with frames },
      { h with display := hide h.display handle r.slots, renderer := h.renderer.release handle })

/-- Make a channel. -/
def registerChannel (r : Resources) (h : Host) (name : String) : Bool × Resources × Host :=
  match h.channels.register name r.id with
  | (false, _) => (false, r, h)
  | (true, channels) =>
    (true, if r.channels.contains name then r else { r with channels := r.channels ++ [name] },
      { h with channels })

/-- End a channel of the session. -/
def unregisterChannel (r : Resources) (h : Host) (name : String) : Bool × Resources × Host :=
  if r.channels.contains name then
    let (done, channels) := h.channels.unregister name r.id
    (done, { r with channels := r.channels.erase name }, { h with channels })
  else (false, r, h)

/-- Show a frame in a slot. -/
def attachSlot (r : Resources) (h : Host) (slot frame : Nat) : Except String Unit × Resources × Host :=
  match r.frames.get? frame with
  | none => (.error ("no frame with id " ++ toString frame), r, h)
  | some handle =>
    match h.display.set slot (some handle) with
    | (false, _) => (.error ("no display slot " ++ toString slot), r, h)
    | (true, display) =>
      (.ok (), if r.slots.contains slot then r else { r with slots := r.slots ++ [slot] }, { h with display })

/-- Clear a slot of the session. -/
def detachSlot (r : Resources) (h : Host) (slot : Nat) : Bool × Resources × Host :=
  if r.slots.contains slot then
    let (done, display) := h.display.set slot none
    (done, { r with slots := r.slots.erase slot }, { h with display })
  else (false, r, h)

/-- The host without what a session holds. -/
def freed (r : Resources) (h : Host) : Host :=
  let renderer := r.frames.handles.foldl Renderer.release h.renderer
  let channels := r.channels.foldl (fun cs name => (cs.unregister name r.id).2) h.channels
  let h := { h with renderer, channels }
  let h := match r.held? h with
    | some t => h.onTerminal t Terminal.clearHooks
    | none => h
  { h with display := r.slots.foldl (fun d slot => (d.set slot none).2) h.display }

/-- Give back all that the session holds, once. -/
def release (r : Resources) (h : Host) : Option ReleaseSummary × Resources × Host :=
  if r.released then (none, r, h)
  else
    (some ⟨r.frames.count, r.channels.length, r.slots.length⟩,
      { r with frames := {}, channels := [], slots := [], released := true }, r.freed h)

end Resources

end ScriptHost

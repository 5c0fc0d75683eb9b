import ScriptHost.Script.Value

/-!
# Frames

A renderer keeps frames of pixels in memory. Frames have numbers, which are never used again.

* `Frame.place?`: where a frame keeps a pixel: the rows follow one another.
* `Renderer.create`, `Renderer.release`: make a frame and end it.
* `Renderer.request`: make a frame of any size, if there can be one.
* `Renderer.paint`: the pixels of a frame, row by row.
-/

namespace ScriptHost

/-- A rectangle of pixels. -/
structure Frame where
  width : Nat
  height : Nat
  pixels : ByteArray
  deriving Inhabited

namespace Frame

/-- A frame whose pixels are zero. -/
def blank (width height : Nat) : Frame := ⟨width, height, Bytes.fill (width * height) 0⟩

/-- Where a frame keeps a pixel. -/
def place? (f : Frame) (x y : Nat) : Option Nat :=
  if x < f.width ∧ y < f.height then some (y * f.width + x) else none

/-- The colour of a pixel. -/
def get? (f : Frame) (x y : Nat) : Option UInt8 := (f.place? x y).map fun i => f.pixels.get! i

/-- Change a pixel; outside the frame nothing changes. -/
def set (f : Frame) (x y : Nat) (c : UInt8) : Frame :=
  match f.place? x y with
  | some i => { f with pixels := f.pixels.set! i c }
  | none => f

/-- The pixels with their places, row by row. -/
def paint (f : Frame) : List (Nat × Nat × UInt8) :=
  f.pixels.toList.zipIdx.map fun (c, i) => (i % f.width, i / f.width, c)

end Frame

/-- The frames by their numbers; one that was released is gone. -/
structure Renderer where
  frames : Array (Option Frame) := #[]
  deriving Inhabited

namespace Renderer

/-- Make a frame. -/
def create (r : Renderer) (width height : Nat) : Nat × Renderer :=
  (r.frames.size, { r with frames := r.frames.push (some (Frame.blank width height)) })

/-- How many bytes can stand in one piece. -/
def maxBytes : Nat := 0x7fffffffffffffff

/-- Make a frame of any size. The number comes first: where the pixels cannot stand in one piece, it is used up without
a frame, and the answer is the failure. -/
def request (r : Renderer) (width height : UInt32) : Except String Nat × Renderer :=
  if width.toNat * height.toNat ≤ maxBytes then
    let (handle, r) := r.create width.toNat height.toNat
    (.ok handle, r)
  else (.error "capacity overflow", { r with frames := r.frames.push none })

/-- The frame with a number. -/
def frame? (r : Renderer) (handle : Nat) : Option Frame := r.frames.getD handle none

/-- End a frame. -/
def release (r : Renderer) (handle : Nat) : Renderer :=
  { r with frames := r.frames.setIfInBounds handle none }

/-- Change a pixel of a frame. -/
def setPixel (r : Renderer) (handle x y : Nat) (c : UInt8) : Renderer :=
  { r with frames := Script.changeAt r.frames handle fun f => f.map (·.set x y c) }

/-- The colour of a pixel of a frame. -/
def pixel? (r : Renderer) (handle x y : Nat) : Option UInt8 := (r.frame? handle).bind (·.get? x y)

/-- The pixels of a frame with their places, row by row. -/
def paint (r : Renderer) (handle : Nat) : List (Nat × Nat × UInt8) :=
  match r.frame? handle with
  | some f => f.paint
  | none => []

/-- How many frames there are. -/
def live (r : Renderer) : Nat := r.frames.countP Option.isSome

end Renderer

end ScriptHost

/-!
# The display

A display has eight slots, each of which can show a frame, and a slot that is in view.
-/

namespace ScriptHost

/-- The slot in view at first. -/
def Display.firstView : Fin 8 := 0

/-- The slots with the frames they show, and the one in view. -/
structure Display where
  slots : Vector (Option Nat) 8 := Vector.replicate 8 none
  view : Fin 8 := Display.firstView
  deriving DecidableEq, Repr, Inhabited

namespace Display

/-- Show a frame in a slot, or nothing. -/
def set (d : Display) (slot : Nat) (frame : Option Nat) : Bool × Display :=
  if h : slot < 8 then (true, { d with slots := d.slots.set slot frame }) else (false, d)

/-- The frame that a slot shows. -/
def get (d : Display) (slot : Nat) : Option Nat := if h : slot < 8 then d.slots[slot] else none

/-- How many slots show a frame. -/
def occupied (d : Display) : Nat := d.slots.countP Option.isSome

/-- Bring a slot into view. -/
def switchView (d : Display) (slot : Nat) : Bool × Display :=
  if h : slot < 8 then (true, { d with view := ⟨slot, h⟩ }) else (false, d)

end Display

end ScriptHost

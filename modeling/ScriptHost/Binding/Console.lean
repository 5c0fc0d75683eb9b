import ScriptHost.Binding.Function
import ScriptHost.Session.Access

/-!
# Frames, channels, screens and terminals

The host functions through which a script uses the host.
-/

namespace ScriptHost.Console

open ScriptHost.Script Binding

/-- A computation of a session's functions. -/
abbrev Doing (α : Type) : Type := Act Access α

/-- Do something with what the session holds. -/
def withResources {α : Type} (f : Resources → Host → α × Resources × Host) : Doing α :=
  Act.withHost (·.onResources f)

/-- Fail with a text. -/
def orFail {α : Type} : Except String α → Doing α
  | .ok a => return a
  | .error text => Act.raise (.host (.runtime text))

/-- The handle of a frame of the session. -/
def frame (id : Int) : Doing Nat := do
  match ← Act.readHost fun a => a.own.resources.frames.get? id.toNat with
  | some handle => return handle
  | none => orFail (.error ("no frame with id " ++ toString id))

/-- Change the session's terminal, if it holds it. -/
def withHeld (f : Hooks → Hooks) : Doing (Array Value) := do
  let done ← Act.withHost fun a =>
    let resources := a.own.resources
    a.onHost fun h => resources.changeHooks h f
  return #[.bool done]

/-- The functions through which a script uses the host. -/
def functions : List (HostFunction Access) :=
  [.binary "frame_create" .u32 .u32 fun width height => do
    let id ← orFail (← withResources fun r h => r.createFrame h width.toNat height.toNat)
    return #[.ofNat id],
   .quaternary "frame_set" .u32 .u32 .u32 .u8 fun id x y c => do
    let handle ← frame id
    Act.withHost (·.onHost fun h =>
      let renderer := h.renderer
      let h := { h with renderer := {} }
      ((), { h with renderer := renderer.setPixel handle x.toNat y.toNat (UInt8.ofNat c.toNat) }))
    return #[],
   .ternary "frame_get" .u32 .u32 .u32 fun id x y => do
    let handle ← frame id
    match ← Act.readHost fun a => a.host.renderer.pixel? handle x.toNat y.toNat with
    | some c => return #[.ofNat c.toNat]
    | none => return #[.nil],
   .unary "frame_release" .u32 fun id => do
    return #[.bool (← withResources fun r h => r.releaseFrame h id.toNat)],
   .nullary "frame_count" (return #[.ofNat (← Act.readHost fun a => a.own.resources.frames.count)]),
   .unary "channel_register" .text fun name => do
    return #[.bool (← withResources fun r h => r.registerChannel h name)],
   .unary "channel_unregister" .text fun name => do
    return #[.bool (← withResources fun r h => r.unregisterChannel h name)],
   .binary "channel_send" .text .text fun name message => do
    let sent ← Act.withHost (·.onHost fun h =>
      let (sent, channels) := h.channels.send name message
      (sent, { h with channels }))
    return #[.bool sent],
   .unary "channel_poll" .text fun name => do
    let message ← Act.withHost fun a => a.onHost fun h =>
      let (message, channels) := h.channels.poll name a.id
      (message, { h with channels })
    match message with
    | some m => return #[Value.ofString m]
    | none => return #[.nil],
   .binary "screen_attach" .usize .u32 fun slot frame => do
    orFail (← withResources fun r h => r.attachSlot h slot.toNat frame.toNat)
    return #[],
   .unary "screen_detach" .usize fun slot => do
    return #[.bool (← withResources fun r h => r.detachSlot h slot.toNat)],
   .nullary "terminal_protect" (withHeld fun x => { x with isProtected := true }),
   .unary "terminal_raw_input" .bool fun raw => withHeld fun x => { x with rawInput := raw },
   .nullary "cwd" (do
    let dir ← Act.readHost fun a => match a.own.resources.terminal with
      | some t => (a.host.terminal t).dir
      | none => "/"
    return #[Value.ofString dir])]

end ScriptHost.Console

/-!
# Channels

A channel is a queue of messages with a name and an owner. Everyone may send; only the owner receives.

* `Channels`: the channels by name, in the order in which they were registered.
* `Channels.register`, `Channels.unregister`, `Channels.send`, `Channels.poll`: what can be done with them.
-/

namespace ScriptHost

/-- A channel. -/
structure Channel where
  name : String
  owner : Nat
  /-- The messages that have not been received, the oldest first. -/
  queue : List String := []
  deriving DecidableEq, Repr, Inhabited

/-- The channels; each name occurs once. -/
structure Channels where
  all : List Channel := []
  deriving DecidableEq, Repr, Inhabited

namespace Channels

/-- How many messages a queue holds at most. -/
def queueLimit : Nat := 1024

/-- The channel with a name. -/
def find? (cs : Channels) (name : String) : Option Channel := cs.all.find? fun c => c.name == name

/-- Change the channel with a name. -/
def change (cs : Channels) (name : String) (f : Channel → Channel) : Channels :=
  ⟨cs.all.map fun c => if c.name == name then f c else c⟩

/-- Make a channel, unless another owner has one of this name. -/
def register (cs : Channels) (name : String) (owner : Nat) : Bool × Channels :=
  match cs.find? name with
  | some c => (c.owner == owner, cs)
  | none => (true, ⟨cs.all ++ [{ name, owner }]⟩)

/-- End a channel, if it is the owner's. -/
def unregister (cs : Channels) (name : String) (owner : Nat) : Bool × Channels :=
  match cs.find? name with
  | some c => if c.owner == owner then (true, ⟨cs.all.filter fun c => c.name != name⟩) else (false, cs)
  | none => (false, cs)

/-- Send a message, if there is room for it. -/
def send (cs : Channels) (name message : String) : Bool × Channels :=
  match cs.find? name with
  | some c =>
    if c.queue.length < queueLimit then
      (true, cs.change name fun c => { c with queue := c.queue ++ [message] })
    else (false, cs)
  | none => (false, cs)

/-- Receive the oldest message, if the channel is the owner's. -/
def poll (cs : Channels) (name : String) (owner : Nat) : Option String × Channels :=
  match cs.find? name with
  | some c =>
    if c.owner == owner then
      match c.queue with
      | m :: _ => (some m, cs.change name fun c => { c with queue := c.queue.tail })
      | [] => (none, cs)
    else (none, cs)
  | none => (none, cs)

/-- There is a channel of this name. -/
def isRegistered (cs : Channels) (name : String) : Bool := (cs.find? name).isSome

/-- How many channels there are. -/
def count (cs : Channels) : Nat := cs.all.length

end Channels

end ScriptHost

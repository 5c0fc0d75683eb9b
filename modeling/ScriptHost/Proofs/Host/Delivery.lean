import Mathlib.Data.List.Induction
import Mathlib.Data.List.Nodup
import ScriptHost.Proofs.Host.Tables

/-!
# The delivery of messages

Anyone may register channels, end them, send and receive, in any order.  What has been answered so far is the log.  It
tells for each name who owns the channel now and what happened since that owner registered it: the period.

* `Channels.Call`, `Channels.served` — calls on the channels, and the log of some calls with the channels they leave;
* `Channels.period` — the present period of a name, read off the log alone;
* `Channels.Delivers` — the channel of a name is the one that the period tells of;
* `Channels.Call.expected` — what a call is answered, by the period alone;
* **`Channels.delivers_served`** — the log of any calls tells what the channels are and what they answer next.
-/

namespace ScriptHost.Channels

/-! ### Calls -/

/-- What anyone may do with the channels. -/
inductive Call where
  | register (name : String) (owner : Nat)
  | unregister (name : String) (owner : Nat)
  | send (name message : String)
  | poll (name : String) (owner : Nat)
  deriving DecidableEq, Repr

/-- What a call is answered. -/
inductive Answer where
  | accepted (done : Bool)
  | received (message : Option String)
  deriving DecidableEq, Repr

/-- A call and its answer. -/
structure Event where
  call : Call
  answer : Answer
  deriving DecidableEq, Repr

namespace Call

/-- The name that a call is about. -/
def name : Call → String
  | .register name _ | .unregister name _ | .send name _ | .poll name _ => name

/-- The answer to a call, and the channels afterwards. -/
def run (cs : Channels) : Call → Answer × Channels
  | .register name owner => ((cs.register name owner).map .accepted id)
  | .unregister name owner => ((cs.unregister name owner).map .accepted id)
  | .send name message => ((cs.send name message).map .accepted id)
  | .poll name owner => ((cs.poll name owner).map .received id)

end Call

/-- One more call. -/
def serve (x : List Event × Channels) (call : Call) : List Event × Channels :=
  (x.1 ++ [⟨call, (call.run x.2).1⟩], (call.run x.2).2)

/-- The log of some calls, and the channels that they leave. -/
def served (calls : List Call) : List Event × Channels := calls.foldl serve ([], {})

theorem served_concat (calls : List Call) (call : Call) : served (calls ++ [call]) = serve (served calls) call := by
  rw [served, List.foldl_append]
  rfl

/-! ### Periods -/

namespace Event

/-- The owner who registered a channel. -/
def registered? : Event → Option Nat
  | ⟨.register _ owner, .accepted true⟩ => some owner
  | _ => none

/-- A channel was ended. -/
def isUnregistered : Event → Bool
  | ⟨.unregister .., .accepted true⟩ => true
  | _ => false

/-- The message that was accepted. -/
def sent? : Event → Option String
  | ⟨.send _ message, .accepted true⟩ => some message
  | _ => none

/-- The message that was received. -/
def received? : Event → Option String
  | ⟨.poll .., .received message⟩ => message
  | _ => none

end Event

/-- The time since a channel was registered: its owner, and what happened. -/
structure Period where
  owner : Nat
  events : List Event := []
  deriving DecidableEq, Repr

namespace Period

/-- The same period with one more event. -/
def push (p : Period) (e : Event) : Period := { p with events := p.events ++ [e] }

/-- The period of a name after one more event: it begins when the name is registered and was free, and ends when the
name is unregistered. -/
def after (name : String) (p : Option Period) (e : Event) : Option Period :=
  match p with
  | none => if e.call.name = name then e.registered?.map fun owner => { owner } else none
  | some p => if e.call.name = name ∧ e.isUnregistered then none else some (p.push e)

/-- The message that was accepted for a name. -/
def sent? (name : String) (e : Event) : Option String := if e.call.name = name then e.sent? else none

/-- The message of a name that was received. -/
def received? (name : String) (e : Event) : Option String := if e.call.name = name then e.received? else none

/-- The messages that were accepted in a period, the oldest first. -/
def sent (name : String) (p : Period) : List String := p.events.filterMap (sent? name)

/-- The messages that were received in a period, the first one first. -/
def received (name : String) (p : Period) : List String := p.events.filterMap (received? name)

/-- The messages that were accepted in a period beyond as many as were received. -/
def unread (name : String) (p : Period) : List String := (p.sent name).drop (p.received name).length

end Period

/-- The present period of a name, by the log. -/
def period (name : String) (log : List Event) : Option Period := log.foldl (Period.after name) none

theorem period_concat (name : String) (log : List Event) (e : Event) :
    period name (log ++ [e]) = Period.after name (period name log) e := by
  rw [period, List.foldl_append]
  rfl

/-- What is answered to a call, by the period of its name alone. -/
def Call.expected (p : Option Period) : Call → Answer
  | .register _ owner => .accepted (p.all fun p => p.owner == owner)
  | .unregister _ owner => .accepted (p.any fun p => p.owner == owner)
  | .send name _ => .accepted (p.any fun p => decide ((p.unread name).length < queueLimit))
  | .poll name owner => .received (p.bind fun p => if p.owner = owner then (p.unread name).head? else none)

/-- The channel that a period tells of: what was accepted and not received is in its queue. -/
def Period.channel (name : String) (p : Period) : Channel := { name, owner := p.owner, queue := p.unread name }

/-- What was received in a period is the first part of what was accepted, and the rest has room in a queue. -/
structure Period.InOrder (name : String) (p : Period) : Prop where
  order : p.received name <+: p.sent name
  limit : (p.unread name).length ≤ queueLimit

/-- The channel of a name is the one that its period tells of. -/
structure Delivers (log : List Event) (cs : Channels) (name : String) : Prop where
  channel : cs.find? name = (period name log).map (Period.channel name)
  inOrder : ∀ p, period name log = some p → p.InOrder name

/-! ### One call -/

/-- What a call is answered, and what becomes of the channel that it is about. -/
def Call.onChannel : Call → Option Channel → Answer × Option Channel
  | .register name owner, c => (.accepted (c.all fun c => c.owner == owner), some (c.getD { name, owner }))
  | .unregister _ owner, c => (.accepted (c.any fun c => c.owner == owner), c.filter fun c => c.owner != owner)
  | .send _ message, some c =>
    if c.queue.length < queueLimit then (.accepted true, some { c with queue := c.queue ++ [message] })
    else (.accepted false, some c)
  | .send .., none => (.accepted false, none)
  | .poll _ owner, some c =>
    if c.owner = owner then (.received c.queue.head?, some { c with queue := c.queue.tail }) else (.received none, some c)
  | .poll .., none => (.received none, none)

/-- What a call does: what `Call.onChannel` says to the channel that it is about, and nothing to the others. -/
structure Call.Does (cs : Channels) (call : Call) : Prop where
  answer : (call.run cs).1 = (call.onChannel (cs.find? call.name)).1
  channel : (call.run cs).2.find? call.name = (call.onChannel (cs.find? call.name)).2
  others : ∀ k, k ≠ call.name → (call.run cs).2.find? k = cs.find? k

section
variable {cs : Channels} {call : Call} {a : Answer}

theorem Call.Does.same (hrun : call.run cs = (a, cs))
    (h : call.onChannel (cs.find? call.name) = (a, cs.find? call.name)) : call.Does cs where
  answer := by rw [hrun, h]
  channel := by rw [hrun, h]
  others k _ := by rw [hrun]

theorem Call.Does.changed {c : Channel} {f : Channel → Channel} (hc : cs.find? call.name = some c)
    (hf : ∀ c, (f c).name = c.name) (hrun : call.run cs = (a, cs.change call.name f))
    (h : call.onChannel (some c) = (a, some (f c))) : call.Does cs where
  answer := by rw [hrun, hc, h]
  channel := by rw [hrun, cs.find?_change hf, if_pos rfl, hc, h, Option.map_some]
  others k hk := by rw [hrun, cs.find?_change hf, if_neg hk]

end

/-- **What a call does.** -/
theorem run_does (cs : Channels) (call : Call) : call.Does cs := by
  cases call with
  | register name owner =>
    exact ⟨congrArg Answer.accepted (cs.register_fst name owner), (cs.find?_register name owner name).trans (if_pos rfl),
      fun k hk => (cs.find?_register name owner k).trans (if_neg hk)⟩
  | unregister name owner =>
    refine ⟨congrArg Answer.accepted ?_, (cs.find?_unregister name owner name).trans (if_pos rfl),
      fun k hk => (cs.find?_unregister name owner k).trans (if_neg hk)⟩
    show (cs.unregister name owner).1 = Option.any _ (cs.find? name)
    rw [unregister]
    cases cs.find? name with
    | none => rfl
    | some c => by_cases ho : c.owner = owner <;> simp [ho]
  | send name message =>
    cases hc : cs.find? name with
    | none => exact .same (a := .accepted false) (by simp [Call.run, send, hc]) (by simp [Call.onChannel, Call.name, hc])
    | some c =>
      by_cases hq : c.queue.length < queueLimit
      · exact .changed (f := fun c => { c with queue := c.queue ++ [message] }) (a := .accepted true) hc (fun _ => rfl)
          (by simp [Call.run, send, Call.name, hc, hq]) (by simp [Call.onChannel, hq])
      · exact .same (a := .accepted false) (by simp [Call.run, send, hc, hq])
          (by simp [Call.onChannel, Call.name, hc, hq])
  | poll name owner =>
    cases hc : cs.find? name with
    | none => exact .same (a := .received none) (by simp [Call.run, poll, hc]) (by simp [Call.onChannel, Call.name, hc])
    | some c =>
      by_cases ho : c.owner = owner
      · cases hq : c.queue with
        | nil =>
          obtain ⟨n, o, queue⟩ := c
          exact .same (a := .received none) (by simp_all [Call.run, poll]) (by simp_all [Call.onChannel, Call.name])
        | cons message rest =>
          exact .changed (f := fun c => { c with queue := c.queue.tail }) (a := .received (some message)) hc (fun _ => rfl)
            (by simp [Call.run, poll, Call.name, hc, ho, hq]) (by simp [Call.onChannel, ho, hq])
      · exact .same (a := .received none) (by simp [Call.run, poll, hc, ho]) (by simp [Call.onChannel, Call.name, hc, ho])

/-! ### Periods and channels -/

namespace Period

variable {name : String} (p : Period) (e : Event)

theorem sent_push : (p.push e).sent name = p.sent name ++ (sent? name e).toList := by
  rw [sent, push, List.filterMap_append, ← sent]
  cases h : sent? name e <;> simp [h]

theorem received_push : (p.push e).received name = p.received name ++ (received? name e).toList := by
  rw [received, push, List.filterMap_append, ← received]
  cases h : received? name e <;> simp [h]

variable {p e}

/-- What was received and what is unread are all that was accepted. -/
theorem InOrder.append_unread (h : p.InOrder name) : p.received name ++ p.unread name = p.sent name := by
  obtain ⟨rest, hrest⟩ := h.order
  rw [unread, ← hrest, List.drop_left]

/-- What has been accepted beyond what was received is unread. -/
theorem inOrder_of_append {queue : List String} (h : p.received name ++ queue = p.sent name)
    (hlimit : queue.length ≤ queueLimit) : p.InOrder name ∧ p.unread name = queue := by
  have hunread : p.unread name = queue := by rw [unread, ← h, List.drop_left]
  exact ⟨⟨⟨queue, h⟩, by rwa [hunread]⟩, hunread⟩

/-- An event by which nothing of a name is sent or received leaves the messages as they are. -/
theorem InOrder.push_other (h : p.InOrder name) (hsent : sent? name e = none) (hreceived : received? name e = none) :
    (p.push e).InOrder name ∧ (p.push e).unread name = p.unread name := by
  refine inOrder_of_append ?_ h.limit
  rw [sent_push, received_push, hsent, hreceived]
  simpa using h.append_unread

/-- A message that is accepted is the last one to be read. -/
theorem InOrder.push_sent (h : p.InOrder name) {message : String} (hroom : (p.unread name).length < queueLimit)
    (hsent : sent? name e = some message) (hreceived : received? name e = none) :
    (p.push e).InOrder name ∧ (p.push e).unread name = p.unread name ++ [message] := by
  refine inOrder_of_append ?_ (by simpa using Nat.succ_le_of_lt hroom)
  rw [sent_push, received_push, hsent, hreceived, ← h.append_unread]
  simp

/-- A message that is received was the first one to be read. -/
theorem InOrder.push_received (h : p.InOrder name) {message : String} {rest : List String}
    (hunread : p.unread name = message :: rest) (hsent : sent? name e = none) (hreceived : received? name e = some message) :
    (p.push e).InOrder name ∧ (p.push e).unread name = rest := by
  have hlimit := h.limit
  rw [hunread, List.length_cons] at hlimit
  refine inOrder_of_append ?_ (by omega)
  rw [sent_push, received_push, hsent, hreceived, ← h.append_unread, hunread]
  simp

end Period

/-- The period of a name with the channel that it tells of. -/
def Tells (name : String) (p : Option Period) (c : Option Channel) : Prop :=
  c = p.map (Period.channel name) ∧ ∀ q, p = some q → q.InOrder name

theorem tells_none (name : String) : Tells name none none := ⟨rfl, nofun⟩

theorem tells_some {name : String} {p : Period} {owner : Nat} {queue : List String} (ho : p.owner = owner)
    (h : p.InOrder name ∧ p.unread name = queue) : Tells name (some p) (some { name, owner, queue }) := by
  refine ⟨?_, fun q hq => Option.some.inj hq ▸ h.1⟩
  rw [Option.map_some, Period.channel, ho, h.2]

/-- An event about another name changes nothing about the channel that the period tells of. -/
theorem Tells.other {name : String} {p : Option Period} {c : Option Channel} (h : Tells name p c) {e : Event}
    (he : e.call.name ≠ name) : Tells name (Period.after name p e) c := by
  obtain ⟨rfl, horder⟩ := h
  cases p with
  | none =>
    rw [Period.after, if_neg he]
    exact tells_none name
  | some p =>
    rw [Period.after, if_neg fun h => he h.1]
    exact tells_some rfl ((horder p rfl).push_other (by rw [Period.sent?, if_neg he]) (by rw [Period.received?, if_neg he]))

/-- A call does to a channel what the period of the channel says. -/
def Agrees (call : Call) (p : Option Period) (c : Option Channel) : Prop :=
  (call.onChannel c).1 = call.expected p ∧
    Tells call.name (Period.after call.name p ⟨call, call.expected p⟩) (call.onChannel c).2

theorem agrees_of_eq {call : Call} {p : Option Period} {c d : Option Channel} {a : Answer}
    (hexpected : call.expected p = a) (hchannel : call.onChannel c = (a, d))
    (htells : Tells call.name (Period.after call.name p ⟨call, a⟩) d) : Agrees call p c := by
  rw [Agrees, hexpected, hchannel]
  exact ⟨rfl, htells⟩

/-- Each call does to a channel what the period of the channel says. -/
theorem Tells.agrees {call : Call} {p : Option Period} {c : Option Channel} (h : Tells call.name p c) :
    Agrees call p c := by
  obtain ⟨rfl, horder⟩ := h
  cases p with
  | none =>
    rw [Agrees, Period.after, if_pos rfl]
    cases call with
    | register name owner => exact ⟨rfl, tells_some rfl (Period.inOrder_of_append rfl (Nat.zero_le _))⟩
    | _ => exact ⟨rfl, tells_none _⟩
  | some p =>
    have hp := horder p rfl
    -- an event by which nothing is sent or received, and which does not end the period
    have quiet : ∀ e : Event, e.sent? = none → e.received? = none → e.isUnregistered = false →
        Tells call.name (Period.after call.name (some p) e) (some (p.channel call.name)) := by
      intro e hsent hreceived hstays
      rw [Period.after, if_neg (by simp [hstays])]
      exact tells_some rfl (hp.push_other (by simp [Period.sent?, hsent]) (by simp [Period.received?, hreceived]))
    cases call with
    | register name owner => exact agrees_of_eq rfl rfl (quiet _ rfl rfl rfl)
    | unregister name owner =>
      by_cases ho : p.owner = owner
      · refine agrees_of_eq (a := .accepted true) (d := none) (by simp [Call.expected, ho])
          (by simp [Call.onChannel, Period.channel, ho]) ?_
        rw [Period.after, if_pos ⟨rfl, rfl⟩]
        exact tells_none name
      · exact agrees_of_eq (by simp [Call.expected, ho]) (by simp [Call.onChannel, Period.channel, ho])
          (quiet ⟨_, .accepted false⟩ rfl rfl rfl)
    | send name message =>
      by_cases hroom : (p.unread name).length < queueLimit
      · refine agrees_of_eq (a := .accepted true) (d := some { p.channel name with queue := p.unread name ++ [message] })
          (by simp [Call.expected, hroom]) (by simp [Call.onChannel, Period.channel, Call.name, hroom]) ?_
        rw [Period.after, if_neg (by simp [Event.isUnregistered])]
        exact tells_some rfl (hp.push_sent hroom (if_pos rfl) (by simp [Period.received?, Event.received?]))
      · exact agrees_of_eq (by simp [Call.expected, hroom]) (by simp [Call.onChannel, Period.channel, Call.name, hroom])
          (quiet ⟨_, .accepted false⟩ rfl rfl rfl)
    | poll name owner =>
      by_cases ho : p.owner = owner
      · cases hunread : p.unread name with
        | nil =>
          exact agrees_of_eq (by simp [Call.expected, ho, hunread])
            (by simp [Call.onChannel, Period.channel, Call.name, ho, hunread]) (quiet ⟨_, .received none⟩ rfl rfl rfl)
        | cons message rest =>
          refine agrees_of_eq (a := .received (some message)) (d := some { p.channel name with queue := rest })
            (by simp [Call.expected, ho, hunread]) (by simp [Call.onChannel, Period.channel, Call.name, ho, hunread]) ?_
          rw [Period.after, if_neg (by simp [Event.isUnregistered])]
          exact tells_some rfl (hp.push_received hunread (by simp [Period.sent?, Event.sent?]) (if_pos rfl))
      · exact agrees_of_eq (by simp [Call.expected, ho]) (by simp [Call.onChannel, Period.channel, ho])
          (quiet ⟨_, .received none⟩ rfl rfl rfl)

/-! ### Many calls -/

/-- The names of the channels. -/
def names (cs : Channels) : List String := cs.all.map Channel.name

theorem not_mem_names {cs : Channels} {name : String} (h : cs.find? name = none) : name ∉ cs.names := by
  rw [find?, List.find?_eq_none] at h
  simpa [names] using h

theorem names_nodup_change {cs : Channels} (h : cs.names.Nodup) {f : Channel → Channel} (hf : ∀ c, (f c).name = c.name)
    (name : String) : (cs.change name f).names.Nodup := by
  suffices heq : (cs.change name f).names = cs.names by rwa [heq]
  rw [names, change, List.map_map, names]
  congr 1
  funext c
  rw [Function.comp_apply]
  split
  · exact hf c
  · rfl

/-- No call makes a second channel of a name. -/
theorem names_nodup_run {cs : Channels} (h : cs.names.Nodup) (call : Call) : (call.run cs).2.names.Nodup := by
  cases call with
  | register name owner =>
    show (cs.register name owner).2.names.Nodup
    rw [register]
    cases hc : cs.find? name with
    | some c => exact h
    | none =>
      show (cs.all ++ [_]).map Channel.name |>.Nodup
      rw [List.map_append]
      exact List.nodup_append_comm.1 (List.nodup_cons.2 ⟨not_mem_names hc, h⟩)
  | unregister name owner =>
    show (cs.unregister name owner).2.names.Nodup
    rw [unregister]
    split
    · split
      · exact h.sublist (List.filter_sublist.map _)
      · exact h
    · exact h
  | send name message =>
    show (cs.send name message).2.names.Nodup
    rw [send]
    split
    · split
      · refine names_nodup_change h ?_ name
        exact fun _ => rfl
      · exact h
    · exact h
  | poll name owner =>
    show (cs.poll name owner).2.names.Nodup
    rw [poll]
    split
    · split
      · split
        · refine names_nodup_change h ?_ name
          exact fun _ => rfl
        · exact h
      · exact h
    · exact h

/-- A call that is refused, or receives nothing, changes nothing. -/
theorem run_refused {cs : Channels} {call : Call}
    (h : (call.run cs).1 = .accepted false ∨ (call.run cs).1 = .received none) : (call.run cs).2 = cs := by
  cases call with
  | register name owner =>
    revert h
    show (_ ∨ _) → (cs.register name owner).2 = cs
    rw [Call.run, register]
    cases cs.find? name <;> simp
  | unregister name owner =>
    revert h
    show (_ ∨ _) → (cs.unregister name owner).2 = cs
    rw [Call.run, unregister]
    split <;> [split <;> simp; simp]
  | send name message =>
    revert h
    show (_ ∨ _) → (cs.send name message).2 = cs
    rw [Call.run, send]
    split <;> [split <;> simp; simp]
  | poll name owner =>
    revert h
    show (_ ∨ _) → (cs.poll name owner).2 = cs
    rw [Call.run, poll]
    split <;> [split <;> [split <;> simp; simp]; simp]

/-- What the log tells of the next call. -/
structure Foretells (log : List Event) (cs : Channels) (call : Call) : Prop where
  /-- The period alone says what is answered. -/
  answer : (call.run cs).1 = call.expected (period call.name log)
  /-- What is refused changes nothing. -/
  refused : (call.run cs).1 = .accepted false ∨ (call.run cs).1 = .received none → (call.run cs).2 = cs
  /-- What is registered already stays as it is. -/
  again : ∀ name owner, call = .register name owner → (period name log).isSome → (call.run cs).2 = cs
  /-- The channels of other names stay as they are. -/
  others : ∀ k, k ≠ call.name → (call.run cs).2.find? k = cs.find? k

/-- What the log tells of the channels. -/
structure Truthful (log : List Event) (cs : Channels) : Prop where
  /-- A name has one channel at most, so one owner. -/
  names : cs.names.Nodup
  /-- The channel of a name is the one that its period tells of. -/
  delivers : ∀ name, Delivers log cs name
  /-- The log says what comes of the next call. -/
  foretells : ∀ call, Foretells log cs call

section
variable {log : List Event} {cs : Channels}

theorem Delivers.tells {name : String} (h : Delivers log cs name) : Tells name (period name log) (cs.find? name) :=
  ⟨h.channel, h.inOrder⟩

theorem foretells_of_delivers {call : Call} (h : Delivers log cs call.name) : Foretells log cs call where
  answer := (run_does cs call).answer.trans h.tells.agrees.1
  refused := run_refused
  again name owner hcall hperiod := by
    subst hcall
    obtain ⟨p, hp⟩ := Option.isSome_iff_exists.1 hperiod
    have hc : cs.find? name = some (p.channel name) := by
      rw [show cs.find? name = _ from h.channel, Call.name, hp]
      rfl
    show (cs.register name owner).2 = cs
    rw [register, hc]
  others := (run_does cs call).others

/-- One more call, and its answer in the log, leave each name with the channel that its period tells of. -/
theorem Delivers.serve {call : Call} (h : ∀ name, Delivers log cs name) (name : String) :
    Delivers (serve (log, cs) call).1 (serve (log, cs) call).2 name := by
  have does := run_does cs call
  have agrees := (h call.name).tells.agrees
  have tells : Tells name (period name (log ++ [⟨call, (call.run cs).1⟩])) ((call.run cs).2.find? name) := by
    rw [period_concat, does.answer, agrees.1]
    by_cases hname : name = call.name
    · rw [hname, does.channel]
      exact agrees.2
    · rw [does.others name hname]
      exact (h name).tells.other (Ne.symm hname)
  exact ⟨tells.1, tells.2⟩

end

/-- **The log of any calls tells what the channels are and what they answer next.**  A name has one owner at most.  What
was received since the owner registered it is a first part of what was accepted since then, in order, and the rest is the
queue, which has its limit.  What is answered next follows from the owner and that rest; what is refused changes nothing,
and no call changes the channel of another name. -/
theorem delivers_served (calls : List Call) : Truthful (served calls).1 (served calls).2 := by
  have all : (served calls).2.names.Nodup ∧ ∀ name, Delivers (served calls).1 (served calls).2 name := by
    induction calls using List.reverseRecOn with
    | nil => exact ⟨List.nodup_nil, fun name => ⟨rfl, nofun⟩⟩
    | append_singleton calls call ih =>
      rw [served_concat]
      exact ⟨names_nodup_run ih.1 call, Delivers.serve ih.2⟩
  exact ⟨all.1, all.2, fun call => foretells_of_delivers (all.2 call.name)⟩

end ScriptHost.Channels

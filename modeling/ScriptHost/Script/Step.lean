import ScriptHost.Text.Utf8
import ScriptHost.Script.Machine
import ScriptHost.Script.Library

/-!
# Calls, results, failures and threads

What happens between instructions: a function is entered, results are brought to where they are awaited, a
failure is handled and unwinds to the innermost guard, variables are closed, a thread takes over from
another.

* `Machine.settle`: what a native computation did so far.
* `Machine.advance`: one step of a machine that does not execute an instruction.
-/

namespace ScriptHost.Script

namespace Machine

variable {σ : Type}

/-! ### Registers, stack and shared variables -/

/-- The value in a register of the running activation. -/
@[inline] def reg (m : Machine σ) (r : Nat) : Value := m.stack.getD (m.frame.base + r) .nil

/-- Set a register of the running activation. -/
@[inline] def setReg (m : Machine σ) (r : Nat) (v : Value) : Machine σ :=
  { m with stack := put m.stack (m.frame.base + r) v }

/-- The instructions go on `n` places further. -/
@[inline] def skip (m : Machine σ) (n : Nat) : Machine σ :=
  { m with frame := { m.frame with pc := m.frame.pc + n } }

/-- A stack with at least `n` slots. -/
@[noinline] def grown (stack : Array Value) (n : Nat) : Array Value :=
  if stack.size < n then stack ++ Array.replicate (max n (min (n + 8) maxSlots) - stack.size) .nil
  else stack

/-- Write values to consecutive slots. -/
def writeAll (stack : Array Value) (slot : Nat) (vs : Array Value) : Array Value :=
  (vs.foldl (fun (st, i) v => (put st i v, i + 1)) (grown stack (slot + vs.size), slot)).1

/-- Clear slots from `i` on, `n` of them. -/
def clear (stack : Array Value) (i : Nat) : Nat → Array Value
  | 0 => stack
  | n + 1 => clear (put stack i .nil) (i + 1) n

/-- Bring results to a slot, cut or filled up to the number wanted. -/
def place (m : Machine σ) (slot : Nat) (wanted : Option Nat) (vs : Array Value) : Machine σ :=
  match wanted with
  | none => { m with stack := writeAll m.stack slot vs, top := slot + vs.size }
  | some 0 => m
  | some 1 =>
    { m with stack := put (grown m.stack (slot + 1)) slot (vs.getD 0 .nil) }
  | some n =>
    let stack := writeAll (grown m.stack (slot + n)) slot (vs.extract 0 n)
    { m with stack := clear stack (slot + vs.size) (n - vs.size) }

/-- The value of a shared variable. -/
def cell (m : Machine σ) (c : Nat) : Value :=
  match m.heap.cells[c]? with
  | some (.closed v) => v
  | some (.opened t s) =>
    if t == m.thread then m.stack.getD s .nil
    else match m.parked[t]? with
      | some p => p.stack.getD s .nil
      | none => .nil
  | none => .nil

/-- Set a shared variable. -/
def setCell (m : Machine σ) (c : Nat) (v : Value) : Machine σ :=
  match m.heap.cells[c]? with
  | some (.opened t s) =>
    if t == m.thread then { m with stack := put m.stack s v }
    else { m with parked := m.parked.modify t fun p => { p with stack := put p.stack s v } }
  | _ => { m with heap := { m.heap with cells := put m.heap.cells c (.closed v) } }

/-- The cell that shares a slot, if there is one. -/
def sharedCell? : List (Nat × Nat) → Nat → Option Nat
  | [], _ => none
  | (s, c) :: rest, slot => if s == slot then some c else if s < slot then none else sharedCell? rest slot

/-- Add a shared slot in order. -/
def insertShared : List (Nat × Nat) → Nat → Nat → List (Nat × Nat)
  | [], slot, c => [(slot, c)]
  | (s, d) :: rest, slot, c =>
    if s < slot then (slot, c) :: (s, d) :: rest else (s, d) :: insertShared rest slot c

/-- Share a slot of the running thread. -/
def share (m : Machine σ) (slot : Nat) : Nat × Machine σ :=
  match sharedCell? m.opened slot with
  | some c => (c, m)
  | none =>
    let (c, heap) := m.heap.newCell (.opened m.thread slot)
    (c, { m with heap, opened := insertShared m.opened slot c })

/-- Shared variables from a slot up get their values for themselves. -/
def detachFrom (level : Nat) (stack : Array Value) (cells : Array Cell) :
    List (Nat × Nat) → Array Cell × List (Nat × Nat)
  | [] => (cells, [])
  | (s, c) :: rest =>
    if level ≤ s then
      detachFrom level stack (put cells c (.closed (stack.getD s .nil))) rest
    else (cells, (s, c) :: rest)

/-- Shared variables of the running thread from a slot up are shared no longer through the stack. -/
def detach (m : Machine σ) (level : Nat) : Machine σ :=
  match m.opened with
  | [] => m
  | (s, _) :: _ =>
    if s < level then m
    else
      let heap := m.heap
      let m := { m with heap := default }
      let (cells, opened) := detachFrom level m.stack heap.cells m.opened
      { m with heap := { heap with cells }, opened }

/-! ### The innermost activation -/

/-- The running script activation waits with the others. -/
@[inline] def suspended (m : Machine σ) : Machine σ :=
  match m.control with
  | .execute => { m with callers := .script m.frame :: m.callers, control := .close }
  | _ => m

/-- The levels of a trace; a native activation that has just begun is the first. -/
def levels (m : Machine σ) (self : Option Value) : List Level :=
  let below := Level.ofCallers m.callers
  let below := match m.control with
    | .execute => .script m.frame :: below
    | _ => below
  match self with
  | some v => .native v :: below
  | none => below

/-- The first free slot, the depth and whether the innermost waiting activation may yield. -/
def innermost (m : Machine σ) : Nat × Nat × Bool :=
  match m.callers with
  | .script f :: _ => (f.base + f.proto.maxStack, f.depth, f.yieldable)
  | .native n :: _ => (n.top, n.depth, n.yieldable)
  | .closing c :: _ => (c.top, c.depth, c.yieldable)
  | [] => (1, 0, false)

/-! ### Failures -/

/-- A failure object. -/
def newFailure (m : Machine σ) (f : HostFailure) : Value × Machine σ :=
  let heap := m.heap
  let m := { m with heap := default }
  let (v, heap) := heap.newFailure f
  (v, { m with heap })

/-- A message with the place of a level. -/
def located (levels : List Level) (n : Nat) (message : Bytes) : Value :=
  match levels[n]? with
  | some l => .str (l.mark.append message)
  | none => .str message

/-- The remark on where an operand of the running instruction came from. -/
def originRemark (levels : List Level) (source : Source) : Bytes :=
  match levels.head?, source with
  | some (.script f), .register r => Naming.remark (f.proto.register? (Level.instruction f) r)
  | some (.script f), .upvalue u => Naming.remark (some ⟨"upvalue", f.proto.upvalueName u⟩)
  | _, _ => ByteArray.empty

/-- The message that an operation fails on a value. -/
def operandMessage (m : Machine σ) (v : Value) (operation : String) (remark : Bytes) : Bytes :=
  Bytes.concat [Bytes.ofString ("attempt to " ++ operation ++ " a "), m.heap.typeNameOf v,
    Bytes.ofString " value", remark]

/-- The value of a failure raised by the innermost of some levels. -/
def failureValue (m : Machine σ) (levels : List Level) (r : Raise) : Value × Machine σ :=
  match r with
  | .value v => (v, m)
  | .here message => (located levels 0 message, m)
  | .level n message => (located levels n message, m)
  | .argument n message =>
    let name := Level.name? levels
    let number : Nat := match name with
      | some ⟨"method", _⟩ => n - 1
      | _ => n
    let shown := match name, levels.head?.bind Level.libraryName? with
      | some x, _ => x.name
      | none, some s => Bytes.ofString s
      | none, none => Bytes.ofString "?"
    let text :=
      if number == 0 then
        [Bytes.ofString "calling '", shown, Bytes.ofString "' on bad self (", message, Bytes.ofString ")"]
      else
        [Bytes.ofString ("bad argument #" ++ toString number ++ " to '"), shown, Bytes.ofString "' (",
          message, Bytes.ofString ")"]
    (located levels 1 (Bytes.concat text), m)
  | .operand v operation source =>
    (located levels 0 (m.operandMessage v operation (originRemark levels source)), m)
  | .noInteger source =>
    (located levels 0 (Bytes.concat [Bytes.ofString "number", originRemark levels source,
      Bytes.ofString " has no integer representation"]), m)
  | .notCallable v source =>
    let remark := match levels.head?.bind Level.callee? with
      | some n => Naming.remark (some n)
      | none => originRemark levels source
    (located levels 0 (m.operandMessage v "call" remark), m)
  | .host f => m.newFailure (.fault (.callback (Utf8.decodeLossy (Level.trace levels)) f))
  | .panic message => m.newFailure (.panic message)
  | .inHandler => (.ofString "error in error handling", m)

/-- Raise a failure in the innermost activation. -/
def raiseIn (m : Machine σ) (r : Raise) : Machine σ :=
  let m := m.suspended
  let (v, m) := m.failureValue (m.levels none) r
  match r with
  | .inHandler => { m with control := .unwind v }
  | _ => { m with control := .raise v }

/-- Raise a failure that a message about the running instruction does not name. -/
def raiseUnnamed (m : Machine σ) (message : String) : Machine σ :=
  { m with frame := { m.frame with calls := .unnamed } }.raiseIn (.here (Bytes.ofString message))

/-- The innermost guard of some activations. -/
def guardOf : List (Activation σ) → Option Guard
  | [] => none
  | .native n :: rest => match n.guard with
    | some g => some g
    | none => guardOf rest
  | _ :: rest => guardOf rest

/-- Drop the activations above the innermost guard; `none` if there is no guard. -/
def dropToGuard : List (Activation σ) → Option (Native σ × Guard × List (Activation σ))
  | [] => none
  | .native n :: rest => match n.guard with
    | some g => some (n, g, rest)
    | none => dropToGuard rest
  | _ :: rest => dropToGuard rest

/-- What the handler that appends traces does with a failure: host failures pass unchanged, and of a message
only what comes before a zero byte is kept. -/
def traceHandler (v : Value) : Act σ (Array Value) := do
  match v with
  | .failure _ => return #[v]
  | _ =>
    let message ← Act.text v
    let c ← Act.context
    return #[.str (Bytes.concat [message.untilZero, Bytes.ofString "\n", c.trace ()])]

/-! ### Closing variables -/

/-- Close all variables from a slot up, then go on. The innermost waiting activation is the one that
closes them. -/
def closing (m : Machine σ) (level : Nat) (reason : Value) (failed : Bool) (yieldable : Bool)
    (after : AfterClosing) : Machine σ :=
  let m := m.suspended.detach level
  let (top, depth, mayYield) := m.innermost
  let c : Closing :=
    { level, reason, top := if failed then 0 else top, depth, yieldable := yieldable && mayYield, after }
  { m with callers := .closing c :: m.callers, control := .close }

/-! ### Threads -/

/-- The running thread is put aside. -/
def park (m : Machine σ) (start : Option Value) (failure : Option Value) : Machine σ :=
  let p : Parked σ :=
    { start, stack := m.stack, callers := m.callers, opened := m.opened, toClose := m.toClose, failure }
  { m with parked := put m.parked m.thread p, stack := #[], callers := [] }

/-- A thread takes over. -/
def unpark (m : Machine σ) (t : Nat) : Machine σ :=
  match m.parked[t]? with
  | some p =>
    { m with
      parked := put m.parked t {}
      stack := p.stack, callers := p.callers, opened := p.opened, toClose := p.toClose, thread := t }
  | none => m

/-- Note what a thread is doing. -/
def setStatus (m : Machine σ) (t : Nat) (s : ThreadStatus) : Machine σ :=
  { m with heap := { m.heap with threads := put m.heap.threads t s } }

/-- The running thread gives way to the one that resumed it. -/
def giveBack (m : Machine σ) (s : ThreadStatus) (failure : Option Value) (r : Reply) : Machine σ :=
  match m.resumers with
  | [] => { m with control := .stopped (.returned #[]) }
  | t :: rest =>
    let m := (m.setStatus m.thread s).park none failure
    let m := (m.unpark t).setStatus t .running
    { m with resumers := rest, control := .answer r }

/-- The running thread has ended; its shared variables keep their values. -/
def endThread (m : Machine σ) (r : Reply) : Machine σ :=
  let m := m.detach 0
  { m with stack := #[], callers := [], opened := [], toClose := [] }.giveBack .dead none r

/-- A thread takes over from the running one and runs next. -/
def switchTo (m : Machine σ) (t : Nat) : Machine σ :=
  let old := m.thread
  let m := (m.setStatus old .normal).park none none
  let m := (m.unpark t).setStatus t .running
  { m with resumers := old :: m.resumers }

/-- A new thread. -/
def newThread (m : Machine σ) (f : Value) : Nat × Machine σ :=
  (m.parked.size, { m with parked := m.parked.push { start := some f } })

/-! ### Calls -/

/-- What a native function does. -/
def nativeAct (m : Machine σ) (f : NativeRef) (args : Array Value) : Act σ (Array Value) :=
  match f with
  | .builtin b => Library.call b args
  | .bound i => Library.callBound i args
  | .host i =>
    match m.hosts[i]? with
    | some f => f args
    | none => pure #[]

/-- The slots that a call needs exceed the stack. A failure is raised, or, while such a failure is
handled, the guard is gone to at once. -/
def overflow (m : Machine σ) : Machine σ :=
  if maxSlots < m.stack.size then m.raiseIn .inHandler
  else
    let m := { m with stack := grown m.stack (maxSlots + 1) }
    m.raiseIn (.here (Bytes.ofString "stack overflow"))

/-- Needing slots up to `n` is too much. -/
@[inline] def exceeds (m : Machine σ) (n : Nat) : Bool :=
  maxSlots < n && (m.stack.size ≤ maxSlots || maxSlots + spareSlots < n)

/-- Begin a script function whose arguments lie after the slot `func`. The caller waits already, or is
replaced. -/
def enterScript (m : Machine σ) (id func argCount : Nat) (finish : Finish) (depth : Nat)
    (yieldable tail : Bool) : Machine σ :=
  match m.heap.closures[id]? with
  | none => { m with control := .stopped (.returned #[]) }
  | some c =>
    let p := c.proto
    let base := func + 1
    let stack := grown m.stack (base + max p.maxStack argCount)
    let stack := if argCount < p.paramCount then clear stack (base + argCount) (p.paramCount - argCount) else stack
    { m with
      stack
      frame := { proto := p, upvalues := c.upvalues, func, base, argCount := max argCount p.paramCount, finish, tail, depth, yieldable }
      control := .execute }

/-- The slots that a script function needs for its registers. -/
def needed (m : Machine σ) (id : Nat) : Nat :=
  match m.heap.closures[id]? with
  | some c => c.proto.maxStack
  | none => 0

/-- Results for the running script activation. -/
def apply (m : Machine σ) (finish : Finish) (vs : Array Value) : Machine σ :=
  match finish with
  | .results slot wanted => m.place slot wanted vs
  | .store slot => { m with stack := put m.stack slot (vs.getD 0 .nil) }
  | .test k => if (vs.getD 0 .nil).truthy == k then m else m.skip 1
  | _ => m

/-- Bring results to the activation that awaits them. -/
def deliver (m : Machine σ) (finish : Finish) (vs : Array Value) : Machine σ :=
  match finish with
  | .reply | .ret => { m with control := .answer (.values vs) }
  | .handled => { m with control := .unwind (vs.getD 0 .nil) }
  | .closed => { m with control := .close }
  | .threadEnd => m.endThread (.values vs)
  | .threadClosed =>
    m.endThread (if (vs.getD 0 .nil).truthy then .values #[] else .failed (vs.getD 1 .nil))
  | .stop => { m with control := .stopped (.returned vs) }
  | finish =>
    match m.callers with
    | .script f :: rest => { m with frame := f, callers := rest, control := .execute }.apply finish vs
    | _ => { m with control := .stopped (.returned vs) }

/-- The running script function returns. -/
def leave (m : Machine σ) (vs : Array Value) : Machine σ :=
  let finish := m.frame.finish
  match finish, m.callers with
  | .results slot wanted, .script f :: rest => { m with frame := f, callers := rest }.place slot wanted vs
  | _, _ => { m with control := .close }.deliver finish vs

/-- What a native computation did: it is done, failed, or waits for something. The activation `n` joins
those that wait unless it is done. -/
def settle (m : Machine σ) (n : Native σ) : Outcome σ (Array Value) → Machine σ
  | .done vs h s =>
    let m := { m with heap := h, host := s }
    match m.control with
    | .execute => match n.finish with
      | .ret => m.leave vs
      | finish => m.apply finish vs
    | _ => m.deliver n.finish vs
  | .raised r h s =>
    let m := { m with heap := h, host := s }.suspended
    { m with callers := .native n :: m.callers }.raiseIn r
  | .call f args mode k h s =>
    let m := { m with heap := h, host := s }.suspended
    let guard := mode.guarded.map fun handler => { handler, hookOn := m.hookOn : Guard }
    let waiting := { n with guard, pending := .reply k, yieldable := n.yieldable && mode.yieldable }
    { m with callers := .native waiting :: m.callers, control := .enter f args .reply }
  | .spawn f k h s =>
    let (t, m) := m.newThread f
    settle m n (k t { h with threads := h.threads.push .suspended } s)
  | .resume t args k h s =>
    let m := { m with heap := h, host := s }.suspended
    let m := { m with callers := .native { n with pending := .reply k } :: m.callers }
    match m.heap.threads.getD t .dead with
    | .dead => { m with control := .answer (.failed (.ofString "cannot resume dead coroutine")) }
    | .suspended =>
      if maxDepth ≤ n.depth then { m with control := .answer (.failed (.ofString "C stack overflow")) }
      else
        let start := (m.parked[t]?.bind fun p => p.start)
        let m := m.switchTo t
        match start with
        | some f =>
          let bottom : Native σ :=
            { self := none, top := 1, finish := .nothing, depth := n.depth, yieldable := true }
          { m with callers := [.native bottom], control := .enter f args .threadEnd }
        | none => { m with control := .answer (.values args) }
    | _ => { m with control := .answer (.failed (.ofString "cannot resume non-suspended coroutine")) }
  | .yield vs k h s =>
    let m := { m with heap := h, host := s }.suspended
    if n.yieldable then
      let m := { m with callers := .native { n with pending := .resumed k } :: m.callers }
      m.giveBack .suspended none (.values vs)
    else
      { m with callers := .native n :: m.callers }.raiseIn (.here (Bytes.ofString
        (if m.thread == 0 then "attempt to yield from outside a coroutine"
        else "attempt to yield across a C-call boundary")))
  | .finish t k h s =>
    let m := { m with heap := h, host := s }.suspended
    let m := { m with callers := .native { n with pending := .reply k } :: m.callers }
    let failure := m.parked[t]?.bind fun p => p.failure
    let m := m.switchTo t
    let answered (r : Reply) (h : Heap) (s : σ) : Outcome σ (Array Value) := match r with
      | .values _ => .done #[.bool true] h s
      | .failed v => .done #[.bool false, v] h s
    let bottom : Native σ :=
      { self := none, top := 1, finish := .threadClosed, depth := n.depth, yieldable := false
        guard := some ⟨.none, m.hookOn⟩, pending := .reply answered }
    let m := { m with callers := [.native bottom] }
    match failure with
    | some v => m.closing 1 v true false (.fail v)
    | none => m.closing 1 .nil false false (.reply #[])
  | .inspect k h s =>
    let levels := m.levels n.self
    settle m n (k { thread := m.thread, yieldable := n.yieldable, trace := fun _ => Level.trace levels } h s)
  | .wait ms k h s =>
    let m := { m with heap := h, host := s }.suspended
    { m with callers := .native { n with pending := .woken k } :: m.callers,
             control := .stopped (.waiting ms) }

/-- Start a native computation. -/
@[inline] def perform [Inhabited σ] (m : Machine σ) (n : Native σ) (act : Act σ (Array Value)) : Machine σ :=
  let h := m.heap
  let s := m.host
  let m := { m with heap := default, host := default }
  settle m n (act h s)

/-- The value to call, with its arguments: a value that is no function stands behind its metamethod. The
answer of last resort is the value that cannot be called. -/
def callable (h : Heap) : Nat → Value → Array Value → Except Value (Value × Array Value)
  | 0, f, _ => .error f
  | fuel + 1, f, args =>
    match f with
    | .closure _ | .native _ => .ok (f, args)
    | _ =>
      match h.metamethod f (Bytes.ofString "__call") with
      | .nil => .error f
      | g => callable h fuel g (#[f] ++ args)

/-- How many values that are no functions may stand before one. -/
def maxCallChain : Nat := 1000

/-- Call a value for the innermost waiting activation. -/
def enter [Inhabited σ] (m : Machine σ) (f : Value) (args : Array Value) (finish : Finish) : Machine σ :=
  let (top, depth, yieldable) := m.innermost
  let depth := depth + 1
  let yieldable := match finish with
    | .handled => false
    | _ => yieldable
  if maxHandlerDepth ≤ depth then m.raiseIn .inHandler
  else if depth == maxDepth then
    let limit : Native σ := { self := none, top, finish := .nothing, depth, yieldable }
    { m with callers := .native limit :: m.callers }.raiseIn (.here (Bytes.ofString "C stack overflow"))
  else
    match callable m.heap maxCallChain f args with
    | .error v => m.raiseIn (.notCallable v .other)
    | .ok (.closure id, args) =>
      if m.exceeds (top + 1 + args.size + m.needed id) then m.overflow
      else
        { m with stack := writeAll m.stack (top + 1) args }.enterScript id top args.size finish depth
          yieldable false
    | .ok (.native r, args) =>
      if m.exceeds (top + 1 + args.size + nativeSlots) then m.overflow
      else
        m.perform { self := some (.native r), top := top + 1 + args.size, finish, depth, yieldable }
          (m.nativeAct r args)
    | .ok _ => m

/-! ### Steps between instructions -/

/-- Handle a failure, or unwind at once if nobody handles it. -/
def handle [Inhabited σ] (m : Machine σ) (v : Value) : Machine σ :=
  match guardOf m.callers with
  | none => { m with control := .unwind v }
  | some g =>
    match g.handler with
    | .none => { m with control := .unwind v }
    | .script f => m.enter f #[v] .handled
    | .trace =>
      let (top, depth, _) := m.innermost
      let depth := depth + 1
      if maxHandlerDepth ≤ depth then m.raiseIn .inHandler
      else if depth == maxDepth then
        let limit : Native σ := { self := none, top, finish := .nothing, depth, yieldable := false }
        { m with callers := .native limit :: m.callers }.raiseIn (.here (Bytes.ofString "C stack overflow"))
      else
        m.perform
          { self := some (.native (.host m.hosts.size)), top := top + 2, finish := .handled, depth
            yieldable := false }
          (traceHandler v)

/-- Go to the innermost guard with a failure; without one the thread ends. -/
def unwind (m : Machine σ) (v : Value) : Machine σ :=
  match dropToGuard m.callers with
  | none =>
    let m := { m with callers := [] }
    m.giveBack .dead (some v) (.failed v)
  | some (n, g, rest) =>
    let stack := if maxSlots < m.stack.size then m.stack.extract 0 maxSlots else m.stack
    let m := { m with callers := .native n :: rest, hookOn := g.hookOn, stack }
    m.closing n.top v true n.yieldable (.fail v)

/-- What happens when all variables are closed. -/
def afterClosing (m : Machine σ) (after : AfterClosing) : Machine σ :=
  match after with
  | .resume => m.deliver .nothing #[]
  | .ret vs =>
    match m.callers with
    | .script f :: rest => { m with frame := f, callers := rest, control := .execute }.leave vs
    | _ => { m with control := .stopped (.returned vs) }
  | .fail v => { m with control := .answer (.failed v) }
  | .reply vs => { m with control := .answer (.values vs) }
  | .interrupt => m.raiseIn (.host .signal)

/-- Close the next variable, or go on when there is none. -/
def closeNext [Inhabited σ] (m : Machine σ) : Machine σ :=
  match m.callers with
  | .closing c :: rest =>
    match m.toClose with
    | s :: others =>
      if c.level ≤ s then
        let v := m.stack.getD s .nil
        let m := { m with toClose := others }
        let m := if c.top == 0 then
            { m with callers := .closing { c with top := s + 2 } :: rest }
          else m
        m.enter (m.heap.metamethod v (Bytes.ofString "__close")) #[v, c.reason] .closed
      else { m with callers := rest }.afterClosing c.after
    | [] => { m with callers := rest }.afterClosing c.after
  | _ => { m with control := .stopped (.returned #[]) }

/-- Answer the innermost waiting activation. -/
def answer [Inhabited σ] (m : Machine σ) (r : Reply) : Machine σ :=
  match m.callers with
  | .native n :: rest =>
    match n.finish with
    | .stop => { m with control := .stopped (match r with
        | .values vs => .returned vs
        | .failed v => .failed v) }
    | _ =>
      let m := { m with callers := rest, control := .close }
      let waiting := n.pending
      let n := { n with guard := none, pending := .never }
      match waiting, r with
      | .reply k, r => m.perform n (k r)
      | .resumed k, .values vs => m.perform n (k vs)
      | _, _ => { m with control := .stopped (.returned #[]) }
  | .script f :: rest =>
    match r with
    | .values vs => { m with frame := f, callers := rest, control := .execute }.leave vs
    | .failed v => { m with control := .raise v }
  | _ => { m with control := .stopped (.returned #[]) }

/-- One step of a machine that does not execute an instruction. -/
def advance [Inhabited σ] (m : Machine σ) : Machine σ :=
  match m.control with
  | .enter f args finish => m.enter f args finish
  | .raise v => m.handle v
  | .unwind v => m.unwind v
  | .close => m.closeNext
  | .answer r => m.answer r
  | .execute | .stopped _ => m

/-- A waiting machine whose time has come. -/
def wake [Inhabited σ] (m : Machine σ) : Machine σ :=
  match m.callers with
  | .native n :: rest =>
    match n.pending with
    | .woken k =>
      { m with callers := rest, control := .close }.perform { n with pending := .never } (k ())
    | _ => m
  | _ => m

end Machine

end ScriptHost.Script

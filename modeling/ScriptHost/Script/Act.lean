import ScriptHost.Script.Heap

/-!
# What a native function does

A function that is no script code computes on the heap and on the host's state `σ`. Where it needs the
script to run it says so and goes on with the answer: it calls a value, resumes or closes a thread,
yields, or waits a moment.

* `Outcome`: one step of such a computation.
* `Act`: the computation, a monad.
* `Raise`: how a failure's value is made up where it is raised.
-/

namespace ScriptHost.Script

/-- Where an operand of the running instruction came from, so that a message can name it. -/
inductive Source where
  | register (r : Nat)
  | upvalue (u : Nat)
  | other
  deriving Inhabited

/-- A failure as it is raised; the machine makes a value of it. -/
inductive Raise where
  /-- The value as it is. -/
  | value (v : Value)
  /-- A message about the running activation, with its place if it is a script's. -/
  | here (message : Bytes)
  /-- A message with the place of the activation that many levels up. -/
  | level (n : Nat) (message : Bytes)
  /-- The argument with this number is wrong. -/
  | argument (n : Nat) (message : Bytes)
  /-- An operation on a value of the wrong kind. -/
  | operand (v : Value) (operation : String) (source : Source)
  /-- A float that should be an integer and is none. -/
  | noInteger (source : Source)
  /-- A value that cannot be called. -/
  | notCallable (v : Value) (source : Source)
  /-- A failure of the host, with the trace of the script at this point. -/
  | host (f : Fault)
  /-- A failure that no script may hold back. -/
  | panic (message : String)
  /-- The failure of handling a failure: it goes past all handlers. -/
  | inHandler
  deriving Inhabited

/-- Who handles the failures of a protected call before it ends. -/
inductive Handler where
  | none
  | script (f : Value)
  /-- Append the trace of the script to the message. -/
  | trace
  deriving Inhabited

/-- How a value is called. -/
structure CallMode where
  /-- Failures come back as answers. -/
  guarded : Option Handler := none
  /-- A thread may yield during the call. -/
  yieldable : Bool := false
  deriving Inhabited

/-- The answer to a call. -/
inductive Reply where
  | values (vs : Array Value)
  | failed (v : Value)
  deriving Inhabited

/-- What a computation can ask about where it runs. -/
structure Context where
  thread : Nat
  yieldable : Bool
  /-- The trace of the script, this function being its first level. -/
  trace : Unit → Bytes

/-- One step of a native computation. -/
inductive Outcome (σ α : Type) where
  | done (a : α) (h : Heap) (s : σ)
  | raised (r : Raise) (h : Heap) (s : σ)
  | call (f : Value) (args : Array Value) (mode : CallMode) (k : Reply → Heap → σ → Outcome σ α)
    (h : Heap) (s : σ)
  /-- Make a thread of a function. -/
  | spawn (f : Value) (k : Nat → Heap → σ → Outcome σ α) (h : Heap) (s : σ)
  | resume (thread : Nat) (args : Array Value) (k : Reply → Heap → σ → Outcome σ α) (h : Heap) (s : σ)
  | yield (vs : Array Value) (k : Array Value → Heap → σ → Outcome σ α) (h : Heap) (s : σ)
  /-- End a thread, closing its variables. -/
  | finish (thread : Nat) (k : Reply → Heap → σ → Outcome σ α) (h : Heap) (s : σ)
  | inspect (k : Context → Heap → σ → Outcome σ α) (h : Heap) (s : σ)
  /-- Nothing to do for the given number of milliseconds. -/
  | wait (ms : Nat) (k : Unit → Heap → σ → Outcome σ α) (h : Heap) (s : σ)

/-- A native computation. -/
def Act (σ α : Type) : Type := Heap → σ → Outcome σ α

/-- Go on with a step's result. -/
def Outcome.andThen {σ α β : Type} (x : Outcome σ α) (f : α → Act σ β) : Outcome σ β :=
  match x with
  | .done a h s => f a h s
  | .raised r h s => .raised r h s
  | .call g args mode k h s => .call g args mode (fun r h s => (k r h s).andThen f) h s
  | .spawn g k h s => .spawn g (fun r h s => (k r h s).andThen f) h s
  | .resume t args k h s => .resume t args (fun r h s => (k r h s).andThen f) h s
  | .yield vs k h s => .yield vs (fun r h s => (k r h s).andThen f) h s
  | .finish t k h s => .finish t (fun r h s => (k r h s).andThen f) h s
  | .inspect k h s => .inspect (fun r h s => (k r h s).andThen f) h s
  | .wait ms k h s => .wait ms (fun r h s => (k r h s).andThen f) h s

instance (σ : Type) : Monad (Act σ) where
  pure a := fun h s => .done a h s
  bind x f := fun h s => (x h s).andThen f

namespace Act

variable {σ α : Type}

/-- Fail. -/
@[inline] def raise (r : Raise) : Act σ α := fun h s => .raised r h s

/-- Fail with a message and the place of the caller. -/
@[inline] def fail (message : String) : Act σ α := raise (.level 1 (Bytes.ofString message))

/-- Fail because of an argument. -/
@[inline] def badArgument (n : Nat) (message : String) : Act σ α :=
  raise (.argument n (Bytes.ofString message))

/-- Read the heap. -/
@[inline] def readHeap (f : Heap → α) : Act σ α := fun h s => .done (f h) h s

/-- Change the heap. -/
@[inline] def onHeap (f : Heap → Heap) : Act σ Unit := fun h s => .done () (f h) s

/-- Change the heap and get something from it. -/
@[inline] def withHeap (f : Heap → α × Heap) : Act σ α := fun h s =>
  let (a, h) := f h
  .done a h s

/-- Read the host's state. -/
@[inline] def readHost (f : σ → α) : Act σ α := fun h s => .done (f s) h s

/-- Change the host's state and get something from it. -/
@[inline] def withHost (f : σ → α × σ) : Act σ α := fun h s =>
  let (a, s) := f s
  .done a h s

/-- Call a value; failures pass through. -/
def call (f : Value) (args : Array Value) (yieldable : Bool := false) : Act σ (Array Value) :=
  fun h s => .call f args ⟨none, yieldable⟩ (fun r h s => match r with
    | .values vs => .done vs h s
    | .failed v => .raised (.value v) h s) h s

/-- Call a value for its first result. -/
def call1 (f : Value) (args : Array Value) (yieldable : Bool := false) : Act σ Value := do
  return (← call f args yieldable).getD 0 .nil

/-- Call a value; a failure is an answer. -/
def guarded (f : Value) (args : Array Value) (handler : Handler) (yieldable : Bool := false) :
    Act σ Reply :=
  fun h s => .call f args ⟨some handler, yieldable⟩ (fun r h s => .done r h s) h s

/-- Ask where this runs. -/
def context : Act σ Context := fun h s => .inspect (fun c h s => .done c h s) h s

/-- Let some milliseconds pass. -/
def wait (ms : Nat) : Act σ Unit := fun h s => .wait ms (fun _ h s => .done () h s) h s

/-- Make a thread of a function. -/
def spawn (f : Value) : Act σ Nat := fun h s => .spawn f (fun t h s => .done t h s) h s

/-- Let a thread run until it yields or ends. -/
def resume (thread : Nat) (args : Array Value) : Act σ Reply :=
  fun h s => .resume thread args (fun r h s => .done r h s) h s

/-- Give way to the thread that resumed this one; the answer is what it resumes with. -/
def yield (vs : Array Value) : Act σ (Array Value) :=
  fun h s => .yield vs (fun vs h s => .done vs h s) h s

/-- End a thread, closing its variables. -/
def finish (thread : Nat) : Act σ Reply := fun h s => .finish thread (fun r h s => .done r h s) h s

/-- A new table as a value. -/
def newTable (t : Table := {}) : Act σ Value := withHeap fun h =>
  let (id, h) := h.newTable t
  (.table id, h)

/-- What a value's metatable says about an event. -/
def metamethod (v : Value) (event : String) : Act σ Value :=
  readHeap fun h => h.metamethod v (Bytes.ofString event)

/-- How many metatables are followed from one to the next. -/
def maxChain : Nat := 2000

/-- Read `t[k]`, metamethods included. -/
def indexFrom (yieldable : Bool) : Nat → Source → Value → Value → Act σ Value
  | 0, _, _, _ => raise (.here (Bytes.ofString "'__index' chain too long; possible loop"))
  | fuel + 1, source, t, k => fun h s =>
    let handle (tm : Value) : Outcome σ Value :=
      match tm with
      | .closure _ | .native _ => call1 tm #[t, k] yieldable h s
      | tm => indexFrom yieldable fuel .other tm k h s
    match t with
    | .table id =>
      let tab := h.table id
      match tab.get k with
      | .nil =>
        match tab.metatable with
        | none => .done .nil h s
        | some m =>
          match (h.table m).getStr (Bytes.ofString "__index") with
          | .nil => .done .nil h s
          | tm => handle tm
      | v => .done v h s
    | _ =>
      match h.metamethod t (Bytes.ofString "__index") with
      | .nil => .raised (.operand t "index" source) h s
      | tm => handle tm

/-- Read `t[k]`, metamethods included. -/
@[inline] def index (t k : Value) (source : Source := .other) (yieldable : Bool := false) : Act σ Value :=
  indexFrom yieldable maxChain source t k

/-- File a value in a table without metamethods; the key must be one. -/
def rawSet (id : Nat) (k v : Value) : Act σ Unit :=
  match k with
  | .nil => raise (.here (Bytes.ofString "table index is nil"))
  | .nan => raise (.here (Bytes.ofString "table index is NaN"))
  | .float x =>
    if x.isNaN then raise (.here (Bytes.ofString "table index is NaN"))
    else onHeap fun h => { h with tables := Heap.fileIn h.tables id k v }
  | _ => onHeap fun h => { h with tables := Heap.fileIn h.tables id k v }

/-- Write `t[k] = v`, metamethods included. -/
def setIndexFrom (yieldable : Bool) : Nat → Source → Value → Value → Value → Act σ Unit
  | 0, _, _, _, _ => raise (.here (Bytes.ofString "'__newindex' chain too long; possible loop"))
  | fuel + 1, source, t, k, v => fun h s =>
    let handle (tm : Value) : Outcome σ Unit :=
      match tm with
      | .closure _ | .native _ => (do discard <| call tm #[t, k, v] yieldable : Act σ Unit) h s
      | tm => setIndexFrom yieldable fuel .other tm k v h s
    match t with
    | .table id =>
      let tab := h.table id
      match tab.metatable with
      | none => rawSet id k v h s
      | some m =>
        match tab.get k with
        | .nil =>
          match (h.table m).getStr (Bytes.ofString "__newindex") with
          | .nil => rawSet id k v h s
          | tm => handle tm
        | _ => rawSet id k v h s
    | _ =>
      match h.metamethod t (Bytes.ofString "__newindex") with
      | .nil => .raised (.operand t "index" source) h s
      | tm => handle tm

/-- Write `t[k] = v`, metamethods included. -/
@[inline] def setIndex (t k v : Value) (source : Source := .other) (yieldable : Bool := false) : Act σ Unit :=
  setIndexFrom yieldable maxChain source t k v

/-- The metamethod of a binary operation: the first operand's, else the second's. -/
def binaryMethod (a b : Value) (event : String) : Act σ Value := do
  match ← metamethod a event with
  | .nil => metamethod b event
  | f => return f

/-- The length of a value, metamethods included. -/
def length (v : Value) (source : Source := .other) (yieldable : Bool := false) : Act σ Value := do
  match v with
  | .str s => return .ofNat s.size
  | .table id =>
    match ← metamethod v "__len" with
    | .nil => withHeap fun h =>
      let (n, t) := (h.table id).border
      (.ofNat n, h.onTable id fun _ => t)
    | f => call1 f #[v, v] yieldable
  | _ =>
    match ← metamethod v "__len" with
    | .nil => raise (.operand v "get length of" source)
    | f => call1 f #[v, v] yieldable

/-- An arithmetic operation whose operands are not both numbers, or whose result does not exist. -/
def arithSlow (op event : ArithOp) (a b : Value) (sa sb : Source) (yieldable : Bool) : Act σ Value := do
  match arith op a b with
  | some (.ok v) => return v
  | some (.error .divideByZero) => raise (.here (Bytes.ofString "attempt to perform 'n//0'"))
  | some (.error .moduloByZero) => raise (.here (Bytes.ofString "attempt to perform 'n%0'"))
  | _ =>
    match ← binaryMethod a b ("__" ++ event.event) with
    | .nil =>
      if event.isBitwise then
        if a.isNumber && b.isNumber then
          raise (.noInteger (if a.toInt?.isSome then sb else sa))
        else if a.isNumber then raise (.operand b "perform bitwise operation on" sb)
        else raise (.operand a "perform bitwise operation on" sa)
      else if a.isNumber then raise (.operand b "perform arithmetic on" sb)
      else raise (.operand a "perform arithmetic on" sa)
    | f => call1 f #[a, b] yieldable

/-- Fail because two values have no order. -/
def noOrder (a b : Value) : Act σ α := fun h s =>
  let x := h.typeNameOf a
  let y := h.typeNameOf b
  let message :=
    if x == y then Bytes.concat [Bytes.ofString "attempt to compare two ", x, Bytes.ofString " values"]
    else Bytes.concat [Bytes.ofString "attempt to compare ", x, Bytes.ofString " with ", y]
  .raised (.here message) h s

/-- An order comparison, metamethods included. -/
def compare (op : OrderOp) (a b : Value) (yieldable : Bool := false) : Act σ Bool := do
  let known := match op with
    | .lt => lessThan a b
    | .le => lessEqual a b
  match known with
  | some r => return r
  | none =>
    match ← binaryMethod a b (match op with
      | .lt => "__lt"
      | .le => "__le") with
    | .nil => noOrder a b
    | f => return (← call1 f #[a, b] yieldable).truthy

/-- Equality, metamethods of tables included. -/
def equals (a b : Value) (yieldable : Bool := false) : Act σ Bool := do
  if Value.rawEq a b then return true
  match a, b with
  | .table _, .table _ =>
    match ← binaryMethod a b "__eq" with
    | .nil => return false
    | f => return (← call1 f #[a, b] yieldable).truthy
  | _, _ => return false

/-- The name of an object for messages; its number stands for where it is. -/
def objectText (kind : Bytes) (number : Nat) : Bytes :=
  let digits := (Nat.toDigits 16 (0x55550000 + 64 * number))
  kind.append (Bytes.ofString (": 0x" ++ String.ofList digits))

/-- The text of a value, metamethods included. -/
def text (v : Value) : Act σ Bytes := do
  match v with
  | .failure id =>
    readHeap fun h => match h.failures.getD id default with
      | .fault f => Bytes.ofString f.display
      | .panic m => Bytes.ofString m
  | _ =>
    match ← metamethod v "__tostring" with
    | .nil =>
      match v with
      | .nil => return Bytes.ofString "nil"
      | .bool b => return Bytes.ofString (if b then "true" else "false")
      | .table id => return objectText (← readHeap fun h => h.typeNameOf v) (16 * id)
      | .closure id => return objectText (Bytes.ofString "function") (16 * id + 1)
      | .native (.host i) => return objectText (Bytes.ofString "function") (16 * i + 2)
      | .native (.bound i) => return objectText (Bytes.ofString "function") (16 * i + 3)
      | .native (.builtin b) => return objectText (Bytes.ofString "function: builtin") (16 * b.ctorIdx + 4)
      | .thread id => return objectText (Bytes.ofString "thread") (16 * id + 5)
      | v => return (v.toText?).getD ByteArray.empty
    | f =>
      match ← call1 f #[v] with
      | .str s => return s
      | .int n => return Bytes.ofString (Numeral.showInt n)
      | .float x => return Bytes.ofString (Numeral.showFloat x)
      | .nan => return Bytes.ofString "nan"
      | _ => fail "'__tostring' must return a string"

end Act

end ScriptHost.Script
